import CredentialBroker.Budget.Basic
import Mathlib.Tactic.Linarith

/-!
# What a policy promises, and what holds a grant

`Budget.grant` walks the pools and their windows and sets `hold` on the way. `hold_grant` says what
that comes to: some fresh window of some pool is past its allowance. `Budget.check` walks the
shares; `total_le_of_check` says what an accepted policy promises about each pool.
-/

namespace CredentialBroker

open Numeral (Real64)

namespace Budget

/-- A consumer's share of a pool. -/
def share (budget : Budget) (consumer : Consumer) (pool : Provider) : Option ℚ :=
  (budget.shares consumer).bind (· pool)

/-! ## Accepted policies -/

/-- What is accepted has the file's shares and cap, as numbers. -/
theorem eq_of_check {file : BudgetFile} {budget : Budget} (h : check file = .ok budget) :
    budget.shares = toShares file.shares ∧
      budget.mistralWeeklyUsd = (file.mistralWeeklyUsd.map
        (fun cap => cap.toRat.filter (fun q => decide (0 < q)))).join := by
  unfold check at h
  split at h
  · cases h
  · dsimp only at h
    split at h
    · cases h
    · split at h
      · cases h
      · split at h
        · cases h
        · cases h
          exact ⟨rfl, rfl⟩

/-- An accepted share is from 0 to 100 percent. -/
theorem share_mem_of_check {file : BudgetFile} {budget : Budget} (h : check file = .ok budget)
    {consumer : Consumer} {pool : Provider} {share : ℚ}
    (hshare : budget.share consumer pool = some share) : 0 ≤ share ∧ share ≤ 100 := by
  unfold Budget.share at hshare
  rw [(eq_of_check h).1] at hshare
  obtain ⟨pools, hpools, hpool⟩ := Option.bind_eq_some_iff.mp hshare
  obtain ⟨raw, -, rfl⟩ := Option.map_eq_some_iff.mp hpools
  obtain ⟨number, -, hnumber⟩ := Option.bind_eq_some_iff.mp hpool
  exact (Numeral.Real64.inRange_eq_some.mp hnumber).2

/-- An accepted cap is positive. -/
theorem cap_pos_of_check {file : BudgetFile} {budget : Budget} (h : check file = .ok budget)
    {cap : ℚ} (hcap : budget.mistralWeeklyUsd = some cap) : 0 < cap := by
  rw [(eq_of_check h).2, Option.join_eq_some_iff] at hcap
  obtain ⟨number, -, hnumber⟩ := Option.map_eq_some_iff.mp hcap
  rw [Option.filter_eq_some_iff, decide_eq_true_eq] at hnumber
  exact hnumber.2

/-- What is accepted keeps every pool's shares within the whole. -/
theorem total_le_of_check {file : BudgetFile} {budget : Budget} (h : check file = .ok budget)
    (pool : Provider) {a b : ℚ} (ha : budget.share .pub pool = some a)
    (hb : budget.share .priv pool = some b) : a + b ≤ 100 := by
  have hshares := (eq_of_check h).1
  unfold check at h
  split at h
  · cases h
  · dsimp only at h
    split at h
    · cases h
    · next htotals =>
        unfold share at ha hb
        rw [hshares] at ha hb
        have hown : poolTotal (toShares file.shares) pool = some (a + b) := by
          simp [poolTotal, Consumer.all, ha, hb]
        rw [List.find?_eq_none] at htotals
        have hmem : (pool, a + b) ∈ Provider.all.filterMap fun pool =>
            (poolTotal (toShares file.shares) pool).map (pool, ·) := by
          rw [List.mem_filterMap]
          exact ⟨pool, by cases pool <;> decide, by rw [hown]; rfl⟩
        have hle := htotals _ hmem
        rwa [decide_eq_true_eq, not_lt] at hle

theorem check_of_parse {fromYaml : String → Except String BudgetFile} {display : ℚ → String}
    {text : String} {budget : Budget} (h : parse fromYaml display text = .ok budget) :
    ∃ file, check file = .ok budget := by
  unfold parse at h
  cases hfile : fromYaml text with
  | error e =>
      rw [hfile] at h
      cases h
  | ok file =>
      rw [hfile] at h
      change (check file).mapError _ = _ at h
      cases hcheck : check file with
      | error e =>
          rw [hcheck] at h
          cases h
      | ok budget' =>
          rw [hcheck] at h
          cases h
          exact ⟨file, hcheck⟩

/-! ## Holds -/

/-- A window holds the whole grant if it is fresh and past what its share allows. -/
def Holds (share : ℚ) (now : UInt64) (window : Window) : Bool :=
  (window.grant share now).hold && !window.stale

theorem holds_iff {share : ℚ} {now : UInt64} {window : Window} :
    Holds share now window = true ↔
      window.stale = false ∧ window.allowed share now < window.usedPercent := by
  unfold Holds Window.grant
  cases window.stale <;> simp

/-- The pool's windows hold the grant if one of them does. -/
theorem foldl_addWindow_fst (share : ℚ) (now : UInt64) (read : List (String × Window)) :
    ∀ acc : Bool × PoolGrant, (read.foldl (addWindow share now) acc).1 =
      (acc.1 || read.any (fun entry => Holds share now entry.2)) := by
  induction read with
  | nil =>
      intro acc
      simp
  | cons entry read ih =>
      intro acc
      rw [List.foldl_cons, ih, List.any_cons, ← Bool.or_assoc]
      rfl

theorem hold_addPool (share : ℚ) (now : UInt64) (grant : Grant) (pool : Provider)
    (read : List (String × Window)) :
    (addPool share now grant pool read).hold =
      (grant.hold || read.any (fun entry => Holds share now entry.2)) := by
  unfold addPool
  cases read with
  | nil => simp
  | cons entry read => exact foldl_addWindow_fst share now (entry :: read) (grant.hold, {})

/-- A loop over the pools whose every step may hold the grant holds it if one of them does. -/
private theorem hold_foldl {step : Grant → Provider → Grant} {Q : Provider → Prop}
    (hstep : ∀ grant pool, (step grant pool).hold = true ↔ grant.hold = true ∨ Q pool)
    (pools : List Provider) :
    ∀ init : Grant, (pools.foldl step init).hold = true ↔
      init.hold = true ∨ ∃ pool ∈ pools, Q pool := by
  induction pools with
  | nil =>
      intro init
      simp
  | cons pool pools ih =>
      intro init
      rw [List.foldl_cons, ih, hstep, or_assoc, List.exists_mem_cons_iff]

/-- **What holds a grant:** no shares at all, or a window of some pool. -/
theorem hold_grant (budget : Budget) (consumer : Consumer)
    (windows : List (Provider × String × Option Attributed)) (mistral : Option MistralSpend)
    (now : UInt64) :
    (budget.grant consumer windows mistral now).hold = true ↔
      budget.shares consumer = none ∨ ∃ pool share, budget.share consumer pool = some share ∧
        ∃ entry ∈ budget.read consumer windows mistral now pool,
          Holds share now entry.2 = true := by
  unfold grant Budget.share
  cases hs : budget.shares consumer with
  | none => simp
  | some shares =>
      refine (hold_foldl (Q := fun pool => ∃ share, shares pool = some share ∧
        ∃ entry ∈ budget.read consumer windows mistral now pool, Holds share now entry.2 = true)
        ?_ Provider.all _).trans ?_
      · intro grant pool
        cases hp : shares pool with
        | none => simp
        | some share =>
            dsimp only
            rw [hold_addPool, Bool.or_eq_true, List.any_eq_true]
            simp
      · simp only [Bool.false_eq_true, false_or, reduceCtorEq, Option.bind_some]
        constructor
        · rintro ⟨pool, -, share, h⟩
          exact ⟨pool, share, h⟩
        · rintro ⟨pool, share, h⟩
          exact ⟨pool, by cases pool <;> decide, share, h⟩

end Budget

end CredentialBroker
