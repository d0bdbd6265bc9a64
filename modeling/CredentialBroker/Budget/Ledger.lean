import CredentialBroker.Budget.Basic
import Mathlib.Tactic.Linarith
import Mathlib.Data.List.Chain
import Mathlib.Data.List.Induction

/-!
# Attributed use is an exact ledger

`Attributed.charge` looks only at the previous reading. What it adds up to over a sequence of
readings is said here in closed form. The sequence falls into *epochs*, the stretches in which no
reading came after the reset that the one before it announced. Within an epoch each consumer has
used its `base` and the rises that its own responses carried.

* `ledger_epoch` is that closed form, by induction on the epoch.
* Rises only add, and together they climb as far as the readings do (`le_rises`), so the two
  consumers' figures cover every reading of the epoch.
-/

namespace CredentialBroker

/-- A reading, whose response carried it, and when. -/
structure Observation where
  reading : Reading
  consumer : Consumer
  now : UInt64
  deriving DecidableEq, Repr

/-- A window after a sequence of readings, from none. -/
def ledger (steps : List Observation) : Option Attributed :=
  steps.foldl (fun window o => some (.charge window o.reading o.consumer o.now)) none

theorem ledger_concat (steps : List Observation) (o : Observation) :
    ledger (steps ++ [o]) = some (.charge (ledger steps) o.reading o.consumer o.now) := by
  unfold ledger
  rw [List.foldl_append]
  rfl

@[simp] theorem reading_charge (previous : Option Attributed) (reading : Reading)
    (consumer : Consumer) (now : UInt64) :
    (Attributed.charge previous reading consumer now).reading = reading := by
  unfold Attributed.charge
  split
  · split <;> rfl
  · rfl

/-- A window keeps the last reading. -/
theorem ledger_eq_some {steps : List Observation} {window : Attributed}
    (h : ledger steps = some window) :
    ∃ last, steps.getLast? = some last ∧ window.reading = last.reading := by
  induction steps using List.reverseRecOn with
  | nil => cases h
  | append_singleton steps o _ =>
      rw [ledger_concat, Option.some.injEq] at h
      subst h
      exact ⟨o, by simp, by simp⟩

/-! ## Epochs -/

/-- A reading that came before the previous one's reset. -/
def Continues (p o : Observation) : Prop := o.now < p.reading.resetsAt

/-- `first :: rest`, after `before`, is a stretch of readings that each came before the previous
one's reset, and it does not reach further back. -/
structure Epoch (before : List Observation) (first : Observation) (rest : List Observation) :
    Prop where
  starts : ∀ last, before.getLast? = some last → ¬ Continues last first
  within : (first :: rest).IsChain Continues

/-- Every sequence of readings ends in an epoch. -/
theorem exists_epoch {steps : List Observation} (h : steps ≠ []) :
    ∃ before first rest, steps = before ++ first :: rest ∧ Epoch before first rest := by
  induction steps using List.reverseRecOn with
  | nil => exact absurd rfl h
  | append_singleton steps o ih =>
      by_cases hsteps : steps = []
      · subst hsteps
        exact ⟨[], o, [], rfl, by simp, List.isChain_singleton o⟩
      · obtain ⟨before, first, rest, rfl, he⟩ := ih hsteps
        by_cases hcontinues : Continues ((first :: rest).getLast (List.cons_ne_nil _ _)) o
        · refine ⟨before, first, rest ++ [o], by simp, he.starts, ?_⟩
          rw [← List.cons_append, List.isChain_append]
          refine ⟨he.within, List.isChain_singleton o, ?_⟩
          intro x hx y hy
          rw [List.getLast?_eq_getLast_of_ne_nil (List.cons_ne_nil _ _), Option.mem_some_iff] at hx
          simp only [List.head?_cons, Option.mem_some_iff] at hy
          subst hx hy
          exact hcontinues
        · refine ⟨before ++ first :: rest, o, [], rfl, ?_, List.isChain_singleton o⟩
          intro last hlast
          rw [List.getLast?_append_of_ne_nil _ (List.cons_ne_nil _ _),
            List.getLast?_eq_getLast_of_ne_nil (List.cons_ne_nil _ _), Option.some.injEq] at hlast
          subst hlast
          exact hcontinues

/-! ## Rises -/

/-- What a reading charges its consumer, and nothing to the other. -/
def rise (c : Consumer) (p o : Observation) : ℚ :=
  if o.consumer = c then max 0 (o.reading.usedPercent - p.reading.usedPercent) else 0

/-- What a stretch of readings after `p` charges `c`. -/
def rises (c : Consumer) : Observation → List Observation → ℚ
  | _, [] => 0
  | p, o :: rest => rise c p o + rises c o rest

/-- What `c` has used of an epoch at its first reading. -/
def base (before : List Observation) (first : Observation) (c : Consumer) : ℚ :=
  if before = [] ∨ first.consumer = c then first.reading.usedPercent else 0

theorem rise_nonneg (c : Consumer) (p o : Observation) : 0 ≤ rise c p o := by
  unfold rise
  split
  · exact le_max_left _ _
  · exact le_rfl

theorem rises_nonneg (c : Consumer) (rest : List Observation) :
    ∀ p, 0 ≤ rises c p rest := by
  induction rest with
  | nil =>
      intro _
      exact le_rfl
  | cons o rest ih =>
      intro p
      exact add_nonneg (rise_nonneg c p o) (ih o)

theorem rises_append (c : Consumer) (rest more : List Observation) :
    ∀ p, rises c p (rest ++ more) =
      rises c p rest + rises c ((p :: rest).getLast (List.cons_ne_nil _ _)) more := by
  induction rest with
  | nil =>
      intro p
      simp [rises]
  | cons o rest ih =>
      intro p
      have hlast : (p :: o :: rest).getLast (List.cons_ne_nil _ _) =
        (o :: rest).getLast (List.cons_ne_nil _ _) := List.getLast_cons _
      rw [hlast, List.cons_append, rises, rises, ih o]
      ring

/-- A rise is charged to somebody. -/
theorem rise_add (p o : Observation) :
    rise .pub p o + rise .priv p o = max 0 (o.reading.usedPercent - p.reading.usedPercent) := by
  unfold rise
  cases o.consumer <;> simp

/-- The rises of both climb as far as the readings. -/
theorem le_rises (rest : List Observation) :
    ∀ p, ∀ o ∈ p :: rest,
      o.reading.usedPercent ≤
        p.reading.usedPercent + (rises .pub p rest + rises .priv p rest) := by
  induction rest with
  | nil =>
      intro p o ho
      rw [List.mem_singleton.mp ho]
      simp [rises]
  | cons s rest ih =>
      intro p o ho
      have hpub := rises_nonneg .pub rest s
      have hpriv := rises_nonneg .priv rest s
      have hrise := rise_add p s
      have hup := le_max_right 0 (s.reading.usedPercent - p.reading.usedPercent)
      have hzero := le_max_left 0 (s.reading.usedPercent - p.reading.usedPercent)
      simp only [rises]
      rcases List.mem_cons.mp ho with rfl | ho
      · linarith
      · have hlater := ih s o ho
        linarith

theorem base_nonneg (before : List Observation) {first : Observation}
    (h : 0 ≤ first.reading.usedPercent) (c : Consumer) : 0 ≤ base before first c := by
  unfold base
  split
  · exact h
  · exact le_rfl

theorem le_base (before : List Observation) {first : Observation}
    (h : 0 ≤ first.reading.usedPercent) :
    first.reading.usedPercent ≤ base before first .pub + base before first .priv := by
  have hpub := base_nonneg before h .pub
  have hpriv := base_nonneg before h .priv
  cases hc : first.consumer with
  | pub =>
      have heq : base before first .pub = first.reading.usedPercent := if_pos (Or.inr hc)
      linarith
  | priv =>
      have heq : base before first .priv = first.reading.usedPercent := if_pos (Or.inr hc)
      linarith

/-! ## The closed form -/

/-- What the window is within an epoch. -/
structure Entry (before : List Observation) (first : Observation) (rest : List Observation)
    (window : Attributed) : Prop where
  used : ∀ c, window.used.get c = base before first c + rises c first rest
  partWay : window.partWay = true ↔ before = [] ∧ 0 < first.reading.usedPercent

/-- The first reading of an epoch. -/
private theorem entry_first {before : List Observation} {first : Observation}
    (h : ∀ last, before.getLast? = some last → ¬ Continues last first) :
    Entry before first [] (.charge (ledger before) first.reading first.consumer first.now) := by
  cases hl : ledger before with
  | none =>
      have hbefore : before = [] := by
        by_contra hne
        obtain ⟨pre, last, rfl⟩ := List.eq_nil_or_concat before |>.resolve_left hne
        rw [List.concat_eq_append, ledger_concat] at hl
        cases hl
      subst hbefore
      refine ⟨?_, ?_⟩
      · intro c
        simp [Attributed.charge, base, rises]
      · simp [Attributed.charge]
  | some previous =>
      obtain ⟨last, hlast, hreading⟩ := ledger_eq_some hl
      have hne : before ≠ [] := by
        rintro rfl
        cases hlast
      have hreset : ¬ first.now < previous.reading.resetsAt := hreading ▸ h last hlast
      refine ⟨?_, ?_⟩
      · intro c
        rw [Attributed.charge, if_neg hreset]
        simp only [PerConsumer.get_modify, PerConsumer.get_fill, base, hne, false_or, rises,
          add_zero]
        by_cases hc : c = first.consumer
        · rw [if_pos hc, if_pos hc.symm]
        · rw [if_neg hc, if_neg (Ne.symm hc)]
      · rw [Attributed.charge, if_neg hreset]
        simp [hne]

/-- **The ledger in closed form.** Within an epoch each consumer has used its base and the rises its
own responses carried. -/
theorem ledger_epoch {before : List Observation} {first : Observation} {rest : List Observation}
    (h : Epoch before first rest) :
    ∃ window, ledger (before ++ first :: rest) = some window ∧ Entry before first rest window := by
  induction rest using List.reverseRecOn with
  | nil => exact ⟨_, ledger_concat before first, entry_first h.starts⟩
  | append_singleton rest o ih =>
      have hchain := h.within
      rw [← List.cons_append, List.isChain_append] at hchain
      obtain ⟨hwithin, -, hlink⟩ := hchain
      obtain ⟨previous, hprevious, hused, hpartWay⟩ := ih ⟨h.starts, hwithin⟩
      have happ : before ++ first :: (rest ++ [o]) = (before ++ first :: rest) ++ [o] := by simp
      refine ⟨_, happ ▸ ledger_concat _ o, ?_⟩
      rw [hprevious]
      -- the previous reading is the last of the epoch so far, so `o` came before its reset
      obtain ⟨last, hlast, hreading⟩ := ledger_eq_some hprevious
      rw [List.getLast?_append_of_ne_nil _ (List.cons_ne_nil _ _)] at hlast
      have hbefore : o.now < previous.reading.resetsAt := by
        rw [hreading]
        exact hlink last hlast o (by simp)
      have hlast' : (first :: rest).getLast (List.cons_ne_nil _ _) = last := by
        rw [List.getLast?_eq_getLast_of_ne_nil (List.cons_ne_nil _ _), Option.some.injEq] at hlast
        exact hlast
      rw [Attributed.charge, if_pos hbefore]
      refine ⟨?_, hpartWay⟩
      intro c
      rw [rises_append, hlast']
      simp only [PerConsumer.get_modify, rises, rise, add_zero]
      rw [hreading, max_comm]
      by_cases hc : c = o.consumer
      · rw [if_pos hc, if_pos hc.symm, hused]
        ring
      · rw [if_neg hc, if_neg (Ne.symm hc), hused, add_zero]

/-- Within an epoch the two consumers' figures cover every reading so far. -/
theorem Entry.le_used {before : List Observation} {first : Observation} {rest : List Observation}
    {window : Attributed} (h : Entry before first rest window)
    (hfirst : 0 ≤ first.reading.usedPercent) {o : Observation} (ho : o ∈ first :: rest) :
    o.reading.usedPercent ≤ window.used.get .pub + window.used.get .priv := by
  have hrises := le_rises rest first o ho
  have hbase := le_base before hfirst
  rw [h.used, h.used]
  linarith

theorem Entry.used_nonneg {before : List Observation} {first : Observation}
    {rest : List Observation} {window : Attributed} (h : Entry before first rest window)
    (hfirst : 0 ≤ first.reading.usedPercent) (c : Consumer) : 0 ≤ window.used.get c := by
  rw [h.used]
  exact add_nonneg (base_nonneg before hfirst c) (rises_nonneg c rest first)

/-- Readings of a whole account are percentages. -/
def InRange (steps : List Observation) : Prop :=
  ∀ o ∈ steps, 0 ≤ o.reading.usedPercent ∧ o.reading.usedPercent ≤ 100

instance (steps : List Observation) : Decidable (InRange steps) :=
  inferInstanceAs (Decidable (∀ o ∈ steps, _))

/-- What holds of any window that readings led to. -/
structure Sound (window : Attributed) : Prop where
  reading_nonneg : 0 ≤ window.reading.usedPercent
  reading_le : window.reading.usedPercent ≤ 100
  used_nonneg : ∀ c, 0 ≤ window.used.get c
  covers : window.reading.usedPercent ≤ window.used.get .pub + window.used.get .priv

/-- **Run.** Every window that readings led to is sound. -/
theorem ledger_sound {steps : List Observation} (h : InRange steps) {window : Attributed}
    (hw : ledger steps = some window) : Sound window := by
  have hne : steps ≠ [] := by
    rintro rfl
    cases hw
  obtain ⟨before, first, rest, rfl, he⟩ := exists_epoch hne
  obtain ⟨window', hw', hentry⟩ := ledger_epoch he
  obtain rfl : window' = window := Option.some.inj (hw'.symm.trans hw)
  obtain ⟨last, hlast, hreading⟩ := ledger_eq_some hw
  rw [List.getLast?_append_of_ne_nil _ (List.cons_ne_nil _ _)] at hlast
  have hmem : last ∈ first :: rest := List.mem_of_getLast? hlast
  have hfirst := (h first (by simp)).1
  have hrange := h last (List.mem_append_right _ hmem)
  rw [← hreading] at hrange
  exact ⟨hrange.1, hrange.2, hentry.used_nonneg hfirst, hreading ▸ hentry.le_used hfirst hmem⟩

/-- A sound window of some length is valid. -/
theorem Sound.validate {window : Attributed} (h : Sound window)
    (hsecs : window.reading.windowSecs ≠ 0) : window.validate = .ok () := by
  unfold Attributed.validate
  rw [if_neg (not_not.mpr ⟨h.reading_nonneg, h.reading_le⟩), if_neg hsecs]
  have hpub := h.used_nonneg .pub
  have hpriv := h.used_nonneg .priv
  simp [Consumer.all, not_lt.mpr hpub, not_lt.mpr hpriv]

/-- What a sequence of readings adds up to. -/
structure ExactLedger (steps : List Observation) : Prop where
  /-- A sequence of readings ends in an epoch. -/
  epoch : steps ≠ [] →
    ∃ before first rest, steps = before ++ first :: rest ∧ Epoch before first rest
  /-- In it, each consumer has used its base and the rises of its own responses, and the window is
  part-way if the epoch is the first and was read part-way used. -/
  entry : ∀ before first rest, steps = before ++ first :: rest → Epoch before first rest →
    ∃ window, ledger steps = some window ∧
      (∀ c, window.used.get c = base before first c + rises c first rest) ∧
      (window.partWay = true ↔ before = [] ∧ 0 < first.reading.usedPercent)
  /-- Together they have used at least every reading of the epoch so far. -/
  covers : ∀ before first rest window, steps = before ++ first :: rest → Epoch before first rest →
    ledger steps = some window → ∀ o ∈ first :: rest,
      o.reading.usedPercent ≤ window.used.get .pub + window.used.get .priv
  /-- Nobody's use is negative, -/
  nonneg : ∀ window c, ledger steps = some window → 0 ≤ window.used.get c
  /-- or falls within an epoch. -/
  monotone : ∀ before first rest more window window', steps = before ++ first :: (rest ++ more) →
    Epoch before first (rest ++ more) → ledger (before ++ first :: rest) = some window →
    ledger steps = some window' → ∀ c, window.used.get c ≤ window'.used.get c
  /-- A window of some length is valid. -/
  valid : ∀ window, ledger steps = some window → window.reading.windowSecs ≠ 0 →
    window.validate = .ok ()

/-- **Attributed use is an exact ledger that covers the account reading.** -/
theorem exact_ledger (steps : List Observation) (h : InRange steps) : ExactLedger steps := by
  refine ⟨exists_epoch, ?_, ?_, ?_, ?_, ?_⟩
  · rintro before first rest rfl he
    obtain ⟨window, hw, hentry⟩ := ledger_epoch he
    exact ⟨window, hw, hentry.used, hentry.partWay⟩
  · rintro before first rest window rfl he hw o ho
    obtain ⟨window', hw', hentry⟩ := ledger_epoch he
    obtain rfl : window' = window := Option.some.inj (hw'.symm.trans hw)
    exact hentry.le_used (h first (by simp)).1 ho
  · intro window c hw
    exact (ledger_sound h hw).used_nonneg c
  · rintro before first rest more window window' rfl he hw hw' c
    have hpart : Epoch before first rest :=
      ⟨he.starts, (List.isChain_append.mp (List.cons_append ▸ he.within)).1⟩
    obtain ⟨_, heq, hentry⟩ := ledger_epoch hpart
    obtain ⟨_, heq', hentry'⟩ := ledger_epoch he
    obtain rfl := Option.some.inj (heq.symm.trans hw)
    obtain rfl := Option.some.inj (heq'.symm.trans hw')
    rw [hentry.used, hentry'.used, rises_append, ← add_assoc]
    exact le_add_of_nonneg_right (rises_nonneg c more _)
  · intro window hw hsecs
    exact (ledger_sound h hw).validate hsecs

/-- A window first read at 10 percent, that the public consumer's response brings to 30 and the
private one's to 35. -/
def sampleReadings : List Observation :=
  [⟨⟨10, 1000, 604800⟩, .priv, 1⟩, ⟨⟨30, 1000, 604800⟩, .pub, 2⟩, ⟨⟨35, 1000, 604800⟩, .priv, 3⟩]

/-- Each is charged what was there before as well as its own rise. -/
theorem exact_ledger_sample : InRange sampleReadings ∧ ExactLedger sampleReadings ∧
    (ledger sampleReadings).map Attributed.used = some ⟨30, 15⟩ := by
  have hrange : InRange sampleReadings := by decide +kernel
  exact ⟨hrange, exact_ledger sampleReadings hrange, by decide +kernel⟩

end CredentialBroker
