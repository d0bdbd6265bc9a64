import CredentialBroker.Usage.Holds

/-!
# What a grant says

`Budget.grant` accumulates three levels of flags, a window's, its pool's and the grant's, in one
nest of loops. Here is what they come to, in terms of the windows that it is given.

* A window `Counts` unless it was restored and has reached its stored reset, and it may be `Stale`
  or `Over` its allowance. `mem_read` says that these are the windows that are read of a pool.
* The grant holds for a window that is over and not stale, a pool for any that is over or stale. So
  stale windows hold their pool only, and whichever there are, the grant is the same at top level.
* The order of the windows makes no difference, as their names are distinct (`sameGrant_of_perm`).
-/

namespace CredentialBroker

/-! ## One window -/

namespace Attributed

/-- After its stored reset a restored window is no reading. -/
def Counts (window : Attributed) (now : UInt64) : Prop :=
  window.restored = true → now < window.reading.resetsAt

/-- First read part-way used, or more than five hours since the later of its observation and the
load of the state file. -/
def Stale (window : Attributed) (now : UInt64) : Prop :=
  window.partWay = true ∨
    max window.observedAt.toNat window.loadedAt.toNat + fiveHours.toNat < now.toNat

/-- The consumer used more of the window than a share of it allows at `now`. -/
def Over (window : Attributed) (consumer : Consumer) (share : ℚ) (now : UInt64) : Prop :=
  share * window.reading.pace now < window.used.get consumer

end Attributed

/-- The fraction of its share that a consumer may have spent of Mistral's week at `now`. -/
def MistralSpend.pace (spend : MistralSpend) (now : UInt64) : ℚ :=
  min 1 ((now.satSub spend.since).toNat / week.toNat + 1 / 10)

/-- The consumer spent more of the cap than a share of it allows at `now`. -/
def MistralSpend.Over (spend : MistralSpend) (cap share : ℚ) (now : UInt64) : Prop :=
  share * spend.pace now < spend.micros.toNat / (cap * 1000000) * 100

namespace Budget

theorem allowed_spendWindow (cap share : ℚ) (spend : MistralSpend) (now : UInt64) :
    (spendWindow cap spend).allowed share now = share * spend.pace now := by
  have hpaced : fiveHours < week := by decide
  unfold Window.allowed MistralSpend.pace lead spendWindow
  dsimp only
  rw [if_pos hpaced, min_comm]

/-- What a grant reads of an attributed window. -/
structure ReadOf (consumer : Consumer) (window : Attributed) (now : UInt64) (w : Window) :
    Prop where
  stale : w.stale = true ↔ window.Stale now
  usedPercent : w.usedPercent = window.used.get consumer
  allowed : ∀ share, w.allowed share now = share * window.reading.pace now

theorem readWindow_eq_some {consumer : Consumer} {window : Attributed} {now : UInt64} {w : Window}
    (h : readWindow consumer window now = some w) :
    window.Counts now ∧ ReadOf consumer window now w := by
  unfold readWindow at h
  dsimp only at h
  split at h
  · cases h
  · next hcounts =>
      cases h
      refine ⟨?_, ?_, rfl, ?_⟩
      · intro hrestored
        simpa [hrestored] using hcounts
      · unfold Attributed.Stale
        rw [Bool.or_eq_true, decide_eq_true_eq, UInt64.lt_iff_toNat_lt, UInt64.toNat_satSub,
          UInt64.toNat_max, Nat.lt_sub_iff_add_lt']
      · intro share
        unfold Window.allowed Reading.pace lead
        dsimp only
        split
        · rw [min_comm]
        · rw [mul_one]

/-- A window that counts is read. -/
theorem exists_readWindow (consumer : Consumer) {window : Attributed} {now : UInt64}
    (h : window.Counts now) : ∃ w, readWindow consumer window now = some w := by
  unfold readWindow
  dsimp only
  split
  · next hpast =>
      rw [Bool.and_eq_true, decide_eq_true_eq] at hpast
      exact absurd (h hpast.1) (UInt64.not_lt.mpr hpast.2)
  · exact ⟨_, rfl⟩

/-! ## What is read of a pool -/

variable {budget : Budget} {consumer : Consumer}
  {windows : List (Provider × String × Option Attributed)} {mistral : Option MistralSpend}
  {now : UInt64} {pool : Provider}

/-- The spend of Mistral's pool, if it has a cap and spend is metered. -/
def Metered (budget : Budget) (mistral : Option MistralSpend) (pool : Provider) (cap : ℚ)
    (spend : MistralSpend) : Prop :=
  pool = .mistral ∧ budget.mistralWeeklyUsd = some cap ∧ mistral = some spend

theorem mem_read {name : String} {w : Window} :
    (name, w) ∈ budget.read consumer windows mistral now pool ↔
      (∃ cap spend, Metered budget mistral pool cap spend ∧ name = mistralWindow ∧
        w = spendWindow cap spend) ∨
      ∃ window, (pool, name, some window) ∈ windows ∧
        readWindow consumer window now = some w := by
  unfold read
  rw [List.mem_append]
  refine or_congr ?_ ?_
  · unfold Metered
    split
    · next cap spend hcap =>
        simp only [List.mem_singleton, Prod.mk.injEq, true_and, hcap, Option.some.injEq]
        constructor
        · rintro ⟨rfl, rfl⟩
          exact ⟨cap, spend, ⟨rfl, rfl⟩, rfl, rfl⟩
        · rintro ⟨_, _, ⟨rfl, rfl⟩, rfl, rfl⟩
          exact ⟨rfl, rfl⟩
    · next hnone =>
        constructor
        · intro hmem
          cases hmem
        · rintro ⟨cap, spend, ⟨rfl, hcap, rfl⟩, -, -⟩
          exact absurd rfl (hnone cap spend rfl hcap)
  · rw [List.mem_filterMap]
    constructor
    · rintro ⟨⟨provider, other, slot⟩, hmem, heq⟩
      split at heq
      · next hpool =>
          obtain ⟨w', hw', heq⟩ := Option.map_eq_some_iff.mp heq
          obtain ⟨window, hslot, hread⟩ := Option.bind_eq_some_iff.mp hw'
          cases heq
          subst hpool hslot
          exact ⟨window, hmem, hread⟩
      · cases heq
    · rintro ⟨window, hmem, hread⟩
      refine ⟨_, hmem, ?_⟩
      rw [if_pos rfl, Option.bind_some, hread]
      rfl

/-- Something that is read of a pool has a property if its spend has it, or a window that counts
has what the property is of the window. -/
theorem exists_mem_read {P : Window → Prop} {Q : Attributed → Prop}
    (h : ∀ window w, ReadOf consumer window now w → (P w ↔ Q window)) :
    (∃ entry ∈ budget.read consumer windows mistral now pool, P entry.2) ↔
      (∃ cap spend, Metered budget mistral pool cap spend ∧ P (spendWindow cap spend)) ∨
      ∃ name window, (pool, name, some window) ∈ windows ∧ window.Counts now ∧ Q window := by
  constructor
  · rintro ⟨⟨name, w⟩, hmem, hP⟩
    rcases mem_read.mp hmem with ⟨cap, spend, hmetered, -, rfl⟩ | ⟨window, hwindow, hread⟩
    · exact .inl ⟨cap, spend, hmetered, hP⟩
    · obtain ⟨hcounts, hof⟩ := readWindow_eq_some hread
      exact .inr ⟨name, window, hwindow, hcounts, (h window w hof).mp hP⟩
  · rintro (⟨cap, spend, hmetered, hP⟩ | ⟨name, window, hwindow, hcounts, hQ⟩)
    · exact ⟨_, mem_read.mpr (.inl ⟨cap, spend, hmetered, rfl, rfl⟩), hP⟩
    · obtain ⟨w, hread⟩ := exists_readWindow consumer hcounts
      obtain ⟨-, hof⟩ := readWindow_eq_some hread
      exact ⟨(name, w), mem_read.mpr (.inr ⟨window, hwindow, hread⟩), (h window w hof).mpr hQ⟩

/-- Nothing is read of a pool without metered spend or a window that counts. -/
theorem read_eq_nil : budget.read consumer windows mistral now pool = [] ↔
    (∀ cap spend, ¬ Metered budget mistral pool cap spend) ∧
      ∀ name window, (pool, name, some window) ∈ windows → ¬ window.Counts now := by
  have hsome : (∃ entry ∈ budget.read consumer windows mistral now pool, True) ↔
      (∃ cap spend, Metered budget mistral pool cap spend ∧ True) ∨
      ∃ name window, (pool, name, some window) ∈ windows ∧ window.Counts now ∧ True :=
    exists_mem_read (P := fun _ => True) (Q := fun _ => True) fun _ _ _ => Iff.rfl
  simp only [and_true] at hsome
  rw [List.eq_nil_iff_forall_not_mem, ← not_exists, hsome, not_or]
  simp only [not_exists, not_and]

/-- Something stale is read if a stale window counts: spend is never stale. -/
theorem exists_stale_iff :
    (∃ entry ∈ budget.read consumer windows mistral now pool, entry.2.stale = true) ↔
      ∃ name window, (pool, name, some window) ∈ windows ∧ window.Counts now ∧
        window.Stale now := by
  rw [exists_mem_read (P := fun w => w.stale = true) (Q := fun window => window.Stale now)
    fun window w hof => hof.stale]
  simp [spendWindow]

/-- What is read over its allowance. -/
theorem exists_over_iff {share : ℚ} :
    (∃ entry ∈ budget.read consumer windows mistral now pool,
        entry.2.allowed share now < entry.2.usedPercent) ↔
      (∃ cap spend, Metered budget mistral pool cap spend ∧ spend.Over cap share now) ∨
      ∃ name window, (pool, name, some window) ∈ windows ∧ window.Counts now ∧
        window.Over consumer share now := by
  rw [exists_mem_read (P := fun w => w.allowed share now < w.usedPercent)
    (Q := fun window => window.Over consumer share now)]
  · simp only [allowed_spendWindow]
    rfl
  · intro window w hof
    rw [hof.allowed, hof.usedPercent]
    rfl

/-- What is read fresh and over its allowance, and so holds the whole grant. -/
theorem exists_holds_iff {share : ℚ} :
    (∃ entry ∈ budget.read consumer windows mistral now pool, Holds share now entry.2 = true) ↔
      (∃ cap spend, Metered budget mistral pool cap spend ∧ spend.Over cap share now) ∨
      ∃ name window, (pool, name, some window) ∈ windows ∧ window.Counts now ∧
        ¬ window.Stale now ∧ window.Over consumer share now := by
  simp only [holds_iff]
  rw [exists_mem_read
    (P := fun w => w.stale = false ∧ w.allowed share now < w.usedPercent)
    (Q := fun window => ¬ window.Stale now ∧ window.Over consumer share now)]
  · simp only [allowed_spendWindow]
    simp [spendWindow, MistralSpend.Over]
  · intro window w hof
    rw [hof.allowed, hof.usedPercent, ← hof.stale, Bool.not_eq_true]
    rfl

/-- What holds a grant, in terms of the windows. -/
theorem hold_grant_iff (budget : Budget) (consumer : Consumer)
    (windows : List (Provider × String × Option Attributed)) (mistral : Option MistralSpend)
    (now : UInt64) : (budget.grant consumer windows mistral now).hold = true ↔
    budget.shares consumer = none ∨ ∃ pool share, budget.share consumer pool = some share ∧
      ((∃ cap spend, Metered budget mistral pool cap spend ∧ spend.Over cap share now) ∨
        ∃ name window, (pool, name, some window) ∈ windows ∧ window.Counts now ∧
          ¬ window.Stale now ∧ window.Over consumer share now) := by
  simp only [hold_grant, exists_holds_iff]

/-! ## One pool -/

/-- One more window of a pool. -/
def addToPool (share : ℚ) (now : UInt64) (poolGrant : PoolGrant) (entry : String × Window) :
    PoolGrant :=
  (addWindow share now (false, poolGrant) entry).2

/-- What a pool is granted, apart from the others. -/
def poolGrant (share : ℚ) (now : UInt64) (read : List (String × Window)) : PoolGrant :=
  if read.isEmpty then { hold := true, stale := true }
  else read.foldl (addToPool share now) {}

theorem pools_addPool (share : ℚ) (grant : Grant) (read : List (String × Window))
    (other : Provider) :
    (addPool share now grant pool read).pools other =
      if other = pool then some (poolGrant share now read) else grant.pools other := by
  have hsnd : (read.foldl (addWindow share now) (grant.hold, {})).2 =
      read.foldl (addToPool share now) {} :=
    (List.foldl_hom Prod.snd fun _ _ => rfl).symm
  have hpools : (addPool share now grant pool read).pools =
      Function.update grant.pools pool (some
        (if read.isEmpty then (grant.hold, ({ hold := true, stale := true } : PoolGrant))
          else read.foldl (addWindow share now) (grant.hold, {})).2) := rfl
  rw [hpools, Function.update_apply, apply_ite Prod.snd, hsnd]
  rfl

/-- A loop over the pools that changes one pool a turn. -/
private theorem pools_foldl {step : Grant → Provider → Grant} {f : Provider → Option PoolGrant}
    (hstep : ∀ grant turn other, (step grant turn).pools other =
      if other = turn then (f turn).or (grant.pools other) else grant.pools other)
    (init : Grant) (pool : Provider) :
    (Provider.all.foldl step init).pools pool = (f pool).or (init.pools pool) := by
  cases pool <;> simp [Provider.all, hstep]

/-- A pool has a grant if the consumer has a share of it. -/
theorem pools_grant (budget : Budget) (consumer : Consumer)
    (windows : List (Provider × String × Option Attributed)) (mistral : Option MistralSpend)
    (now : UInt64) (pool : Provider) :
    (budget.grant consumer windows mistral now).pools pool =
      (budget.share consumer pool).map fun share =>
        poolGrant share now (budget.read consumer windows mistral now pool) := by
  unfold grant Budget.share
  cases budget.shares consumer with
  | none => rfl
  | some shares =>
      rw [Option.bind_some]
      dsimp only
      rw [pools_foldl (f := fun turn => (shares turn).map fun share =>
        poolGrant share now (budget.read consumer windows mistral now turn))]
      · exact Option.or_none
      · intro grant turn other
        cases shares turn with
        | none => simp
        | some share => exact pools_addPool share grant _ other

/-- A grant says whose it is, and when it was made. -/
theorem names_grant (budget : Budget) (consumer : Consumer)
    (windows : List (Provider × String × Option Attributed)) (mistral : Option MistralSpend)
    (now : UInt64) : (budget.grant consumer windows mistral now).consumer = consumer ∧
      (budget.grant consumer windows mistral now).observedAt = now := by
  unfold grant
  cases budget.shares consumer with
  | none => exact ⟨rfl, rfl⟩
  | some shares =>
      dsimp only
      refine List.foldlRecOn (motive := fun grant : Grant =>
        grant.consumer = consumer ∧ grant.observedAt = now) Provider.all _ ⟨rfl, rfl⟩ ?_
      intro grant hgrant pool _
      cases shares pool with
      | none => exact hgrant
      | some share => exact hgrant

/-- A loop that only ever sets a flag. -/
private theorem foldl_or {α : Type} (p : α → Bool) (l : List α) :
    ∀ b, l.foldl (fun b a => b || p a) b = (b || l.any p) := by
  induction l with
  | nil =>
      intro b
      simp
  | cons a l ih =>
      intro b
      rw [List.foldl_cons, ih, List.any_cons, Bool.or_assoc]

/-- A pool is stale if nothing was read of it, or something stale. -/
theorem stale_poolGrant {share : ℚ} {read : List (String × Window)} :
    (poolGrant share now read).stale = true ↔
      read = [] ∨ ∃ entry ∈ read, entry.2.stale = true := by
  have hfold : read.foldl (fun stale entry => stale || entry.2.stale) ({} : PoolGrant).stale =
      (read.foldl (addToPool share now) {}).stale :=
    List.foldl_hom PoolGrant.stale fun _ _ => rfl
  rw [foldl_or] at hfold
  unfold poolGrant
  split
  · next hempty => simp [List.isEmpty_iff.mp hempty]
  · next hempty =>
      rw [← hfold, Bool.or_eq_true, List.any_eq_true]
      simp [List.isEmpty_iff.not.mp hempty]

/-- It holds if it is stale, or something that was read of it is over its allowance. -/
theorem hold_poolGrant {share : ℚ} {read : List (String × Window)} :
    (poolGrant share now read).hold = true ↔ (poolGrant share now read).stale = true ∨
      ∃ entry ∈ read, entry.2.allowed share now < entry.2.usedPercent := by
  have hfold : read.foldl (fun hold entry => hold || (entry.2.grant share now).hold)
        ({} : PoolGrant).hold =
      (read.foldl (addToPool share now) {}).hold :=
    List.foldl_hom PoolGrant.hold fun _ _ => rfl
  rw [foldl_or] at hfold
  rw [stale_poolGrant]
  unfold poolGrant
  split
  · next hempty => simp [List.isEmpty_iff.mp hempty]
  · next hempty =>
      rw [← hfold, Bool.or_eq_true, List.any_eq_true]
      simp only [Bool.false_eq_true, false_or, List.isEmpty_iff.not.mp hempty, Window.grant,
        Bool.or_eq_true, decide_eq_true_eq, and_or_left, exists_or]

/-- What a pool shows is the last of what was read of it under each name. -/
theorem lookup_foldl {share : ℚ} {read : List (String × Window)}
    (h : (read.map Prod.fst).Nodup) {name : String} {windowGrant : WindowGrant} :
    ∀ pool : PoolGrant, (read.foldl (addToPool share now) pool).windows.lookup name =
        some windowGrant ↔
      (∃ w, (name, w) ∈ read ∧ windowGrant = w.grant share now) ∨
        name ∉ read.map Prod.fst ∧ pool.windows.lookup name = some windowGrant := by
  induction read with
  | nil =>
      intro pool
      simp
  | cons entry read ih =>
      intro pool
      obtain ⟨hentry, hread⟩ := List.nodup_cons.mp h
      have hinsert : (addToPool share now pool entry).windows.lookup name =
          if name = entry.1 then some (entry.2.grant share now) else pool.windows.lookup name :=
        Assoc.lookup_insert_eq _ _ _ _
      rw [List.foldl_cons, ih hread, hinsert]
      by_cases hname : name = entry.1
      · subst hname
        have hnone : ∀ w, (entry.1, w) ∉ read := fun w hw =>
          hentry (List.mem_map.mpr ⟨_, hw, rfl⟩)
        simp [hnone, hentry, eq_comm (a := windowGrant), Prod.ext_iff]
      · simp [hname, Prod.ext_iff]

end Budget

/-! ## Whole grants -/

/-- Two grants of a pool that say the same. -/
structure PoolGrant.Same (a b : PoolGrant) : Prop where
  hold : a.hold = b.hold
  stale : a.stale = b.stale
  windows : ∀ name, a.windows.lookup name = b.windows.lookup name

/-- Two grants that say the same. -/
structure Grant.Same (a b : Grant) : Prop where
  consumer : a.consumer = b.consumer
  observedAt : a.observedAt = b.observedAt
  hold : a.hold = b.hold
  pools : ∀ pool, Option.Rel PoolGrant.Same (a.pools pool) (b.pools pool)

namespace Budget

/-- What a pool is granted does not depend on the order of what is read after a first part, if that
has each name once. -/
theorem same_poolGrant {share : ℚ} {now : UInt64} (first : List (String × Window))
    {read read' : List (String × Window)} (h : read.Perm read') (hn : (read.map Prod.fst).Nodup) :
    (poolGrant share now (first ++ read)).Same (poolGrant share now (first ++ read')) := by
  have hperm : (first ++ read).Perm (first ++ read') := h.append_left first
  have hstale : (poolGrant share now (first ++ read)).stale =
      (poolGrant share now (first ++ read')).stale := by
    rw [Bool.eq_iff_iff, stale_poolGrant, stale_poolGrant]
    simp only [hperm.mem_iff, ← List.isEmpty_iff, hperm.isEmpty_eq]
  refine ⟨?_, hstale, ?_⟩
  · rw [Bool.eq_iff_iff, hold_poolGrant, hold_poolGrant, hstale]
    simp only [hperm.mem_iff]
  · intro name
    have hn' : (read'.map Prod.fst).Nodup := (h.map Prod.fst).nodup_iff.mp hn
    unfold poolGrant
    rw [hperm.isEmpty_eq]
    split
    · rfl
    · apply Option.ext
      intro windowGrant
      rw [List.foldl_append, List.foldl_append, lookup_foldl hn, lookup_foldl hn']
      simp only [h.mem_iff, (h.map Prod.fst).mem_iff]

/-- What is read of a pool has some of the windows' names, in their order. -/
private theorem names_sublist {consumer : Consumer} {now : UInt64} {pool : Provider}
    (windows : List (Provider × String × Option Attributed)) :
    ((windows.filterMap fun entry =>
      if entry.1 = pool then
        (entry.2.2.bind (readWindow consumer · now)).map (entry.2.1, ·)
      else none).map Prod.fst).Sublist (windows.map fun entry => entry.2.1) := by
  induction windows with
  | nil => exact List.Sublist.slnil
  | cons entry windows ih =>
      rw [List.filterMap_cons, List.map_cons]
      split
      · exact ih.cons _
      · next read hread =>
          have hname : read.1 = entry.2.1 := by
            split at hread
            · obtain ⟨w, -, rfl⟩ := Option.map_eq_some_iff.mp hread
              rfl
            · cases hread
          rw [List.map_cons, hname]
          exact ih.cons_cons _

/-- The order of the windows makes no difference to a grant. -/
theorem same_grant (budget : Budget) (consumer : Consumer)
    {windows windows' : List (Provider × String × Option Attributed)}
    (mistral : Option MistralSpend) (now : UInt64) (h : windows.Perm windows')
    (hn : (windows.map fun entry => entry.2.1).Nodup) :
    (budget.grant consumer windows mistral now).Same
      (budget.grant consumer windows' mistral now) := by
  refine ⟨?_, ?_, ?_, ?_⟩
  · exact (names_grant ..).1.trans (names_grant ..).1.symm
  · exact (names_grant ..).2.trans (names_grant ..).2.symm
  · rw [Bool.eq_iff_iff, hold_grant_iff, hold_grant_iff]
    simp only [h.mem_iff]
  · intro pool
    rw [pools_grant, pools_grant]
    cases budget.share consumer pool with
    | none => exact .none
    | some share =>
        apply Option.Rel.some
        unfold read
        apply same_poolGrant
        · exact h.filterMap _
        · exact hn.sublist (names_sublist windows)

/-- What a budget's grant comes to. -/
structure GrantsExactly (budget : Budget) (consumer : Consumer)
    (windows : List (Provider × String × Option Attributed)) (mistral : Option MistralSpend)
    (now : UInt64) : Prop where
  /-- It holds for a consumer without shares, and for a fresh window over its allowance. -/
  hold_iff : (budget.grant consumer windows mistral now).hold = true ↔
    budget.shares consumer = none ∨ ∃ pool share, budget.share consumer pool = some share ∧
      ((∃ cap spend, Metered budget mistral pool cap spend ∧ spend.Over cap share now) ∨
        ∃ name window, (pool, name, some window) ∈ windows ∧ window.Counts now ∧
          ¬ window.Stale now ∧ window.Over consumer share now)
  /-- It has the pools of the consumer's shares. -/
  pools_iff : ∀ pool, ((budget.grant consumer windows mistral now).pools pool).isSome = true ↔
    ∃ share, budget.share consumer pool = some share
  /-- A pool is stale if nothing was read of it, or a stale window. -/
  stale_iff : ∀ pool poolGrant,
    (budget.grant consumer windows mistral now).pools pool = some poolGrant →
      (poolGrant.stale = true ↔
        ((∀ cap spend, ¬ Metered budget mistral pool cap spend) ∧
          ∀ name window, (pool, name, some window) ∈ windows → ¬ window.Counts now) ∨
        ∃ name window, (pool, name, some window) ∈ windows ∧ window.Counts now ∧
          window.Stale now)
  /-- It holds if it is stale, or a window of it is over its allowance. -/
  pool_hold_iff : ∀ pool poolGrant share,
    (budget.grant consumer windows mistral now).pools pool = some poolGrant →
    budget.share consumer pool = some share →
      (poolGrant.hold = true ↔ poolGrant.stale = true ∨
        (∃ cap spend, Metered budget mistral pool cap spend ∧ spend.Over cap share now) ∨
        ∃ name window, (pool, name, some window) ∈ windows ∧ window.Counts now ∧
          window.Over consumer share now)
  /-- Whatever stale windows there are besides, the grant is held or not alike. -/
  stale_irrelevant : ∀ windows' : List (Provider × String × Option Attributed),
    (∀ pool name window, window.Counts now → ¬ window.Stale now →
      ((pool, name, some window) ∈ windows' ↔ (pool, name, some window) ∈ windows)) →
      (budget.grant consumer windows' mistral now).hold =
        (budget.grant consumer windows mistral now).hold
  /-- And in whatever order they are. -/
  order_irrelevant : (windows.map fun entry => entry.2.1).Nodup →
    ∀ windows', windows.Perm windows' → (budget.grant consumer windows mistral now).Same
      (budget.grant consumer windows' mistral now)

/-- **What holds a grant.** -/
theorem grants_exactly (budget : Budget) (consumer : Consumer)
    (windows : List (Provider × String × Option Attributed)) (mistral : Option MistralSpend)
    (now : UInt64) : GrantsExactly budget consumer windows mistral now := by
  refine ⟨hold_grant_iff budget consumer windows mistral now, ?_, ?_, ?_, ?_, ?_⟩
  · intro pool
    rw [pools_grant, Option.isSome_map, Option.isSome_iff_exists]
  · intro pool poolGrant hpool
    rw [pools_grant] at hpool
    obtain ⟨share, -, rfl⟩ := Option.map_eq_some_iff.mp hpool
    rw [stale_poolGrant, read_eq_nil, exists_stale_iff]
  · intro pool poolGrant share hpool hshare
    rw [pools_grant, hshare] at hpool
    cases hpool
    rw [hold_poolGrant, exists_over_iff]
  · intro windows' h
    rw [Bool.eq_iff_iff, hold_grant_iff, hold_grant_iff]
    have hsame : ∀ (pool : Provider) (share : ℚ) (name : String) (window : Attributed),
        ((pool, name, some window) ∈ windows' ∧ window.Counts now ∧ ¬ window.Stale now ∧
            window.Over consumer share now) ↔
          ((pool, name, some window) ∈ windows ∧ window.Counts now ∧ ¬ window.Stale now ∧
            window.Over consumer share now) := by
      intro pool share name window
      constructor
      · rintro ⟨hmem, hcounts, hstale, hover⟩
        exact ⟨(h pool name window hcounts hstale).mp hmem, hcounts, hstale, hover⟩
      · rintro ⟨hmem, hcounts, hstale, hover⟩
        exact ⟨(h pool name window hcounts hstale).mpr hmem, hcounts, hstale, hover⟩
    simp only [hsame]
  · intro hn windows' h
    exact same_grant budget consumer mistral now h hn

end Budget

end CredentialBroker
