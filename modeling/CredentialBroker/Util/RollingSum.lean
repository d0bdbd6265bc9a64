import Mathlib.Algebra.BigOperators.Group.List.Basic
import Mathlib.Data.List.Induction
import Mathlib.Data.List.Range

/-!
# Rolling sums in buckets

What was added over the last `w` units of time, kept as one bucket for each unit that had something
added, oldest first. `add` drops the buckets that left the window and charges the latest one if the
clock steps back, so no list of additions is kept. Amounts are of any commutative monoid.

* `effective` says where an addition counts: at the latest time any addition had come with by then.
* `keeps_run` is the invariant: the buckets are in order, at most `w` of them, and for every time
  from the latest on, the part of them in the window sums to exactly what counts there.
-/

namespace RollingSum

variable {M : Type*}

/-- Without the buckets that are no longer in the window ending with `now`. -/
def expire (w now : Nat) (buckets : List (Nat × M)) : List (Nat × M) :=
  buckets.dropWhile (fun bucket => decide (bucket.1 + w ≤ now))

/-- The latest time of a list of additions, no earlier than `start`. -/
def latest (start : Nat) (entries : List (Nat × M)) : Nat :=
  entries.foldl (fun now entry => max now entry.1) start

/-- Each addition at the latest time that it or any before it came with. -/
def effective (start : Nat) : List (Nat × M) → List (Nat × M)
  | [] => []
  | entry :: entries =>
      (max start entry.1, entry.2) :: effective (max start entry.1) entries

theorem latest_concat (start : Nat) (entries : List (Nat × M)) (entry : Nat × M) :
    latest start (entries ++ [entry]) = max (latest start entries) entry.1 := by
  unfold latest
  rw [List.foldl_append]
  rfl

theorem effective_concat (entries : List (Nat × M)) (entry : Nat × M) :
    ∀ start, effective start (entries ++ [entry]) =
      effective start entries ++ [(max (latest start entries) entry.1, entry.2)] := by
  induction entries with
  | nil =>
      intro start
      rfl
  | cons first entries ih =>
      intro start
      rw [List.cons_append, effective, ih, effective]
      rfl

/-- Where an addition counts does not depend on what is added. -/
theorem effective_map {N : Type*} (f : M → N) (entries : List (Nat × M)) :
    ∀ start, effective start (entries.map fun entry => (entry.1, f entry.2)) =
      (effective start entries).map fun entry => (entry.1, f entry.2) := by
  induction entries with
  | nil =>
      intro start
      rfl
  | cons first entries ih =>
      intro start
      rw [List.map_cons, effective, effective, List.map_cons, ih]

/-- The latest time is no later than any bound on the times. -/
theorem latest_le {entries : List (Nat × M)} {start bound : Nat} (hstart : start ≤ bound)
    (h : ∀ entry ∈ entries, entry.1 ≤ bound) : latest start entries ≤ bound := by
  induction entries using List.reverseRecOn with
  | nil => exact hstart
  | append_singleton entries entry ih =>
      rw [latest_concat]
      refine max_le (ih fun other hother => h other (List.mem_append_left _ hother)) ?_
      exact h entry (List.mem_append_right _ (List.mem_singleton_self _))

/-- Of buckets in order, those that expire are the ones that left the window. -/
theorem expire_eq_filter {w now : Nat} {buckets : List (Nat × M)}
    (h : buckets.Pairwise (fun a b => a.1 < b.1)) :
    expire w now buckets = buckets.filter (fun bucket => decide (now < bucket.1 + w)) := by
  unfold expire
  induction buckets with
  | nil => rfl
  | cons bucket buckets ih =>
      obtain ⟨hfirst, hrest⟩ := List.pairwise_cons.mp h
      by_cases hold : bucket.1 + w ≤ now
      · rw [List.dropWhile_cons_of_pos (by simpa using hold), ih hrest,
          List.filter_cons_of_neg (by simpa using hold)]
      · rw [List.dropWhile_cons_of_neg (by simpa using hold), eq_comm, List.filter_eq_self]
        intro other hother
        rw [decide_eq_true_eq]
        rcases List.mem_cons.mp hother with rfl | hother
        · exact Nat.not_le.mp hold
        · have := hfirst other hother
          omega

variable [AddCommMonoid M]

/-- One more addition, to the latest bucket if it is of now or later. -/
def add (w now : Nat) (x : M) (buckets : List (Nat × M)) : List (Nat × M) :=
  let buckets := expire w now buckets
  match buckets.getLast? with
  | some last =>
    if now ≤ last.1 then buckets.dropLast ++ [(last.1, last.2 + x)] else buckets ++ [(now, x)]
  | none => buckets ++ [(now, x)]

/-- The sum of what is in the window ending with `now`. -/
def sum (w now : Nat) (buckets : List (Nat × M)) : M :=
  ((buckets.filter (fun bucket => decide (now < bucket.1 + w))).map Prod.snd).sum

/-- The buckets after a list of additions. -/
def run (w : Nat) (entries : List (Nat × M)) : List (Nat × M) :=
  entries.foldl (fun buckets entry => add w entry.1 entry.2 buckets) []

/-! ## One addition -/

theorem sum_append (w now : Nat) (buckets buckets' : List (Nat × M)) :
    sum w now (buckets ++ buckets') = sum w now buckets + sum w now buckets' := by
  simp [sum]

theorem sum_singleton (w now hour : Nat) (x : M) :
    sum w now [(hour, x)] = if now < hour + w then x else 0 := by
  unfold sum
  split <;> simp_all

/-- What left the window by a time is in none of the windows that end later. -/
theorem sum_expire {w now now' : Nat} {buckets : List (Nat × M)}
    (h : buckets.Pairwise (fun a b => a.1 < b.1)) (hle : now ≤ now') :
    sum w now' (expire w now buckets) = sum w now' buckets := by
  rw [expire_eq_filter h]
  unfold sum
  rw [List.filter_filter]
  refine congrArg (fun l => (List.map Prod.snd l).sum) (List.filter_congr fun bucket _ => ?_)
  by_cases hin : now' < bucket.1 + w
  · simp [hin, hle.trans_lt hin]
  · simp [hin]

/-! ## All additions -/

/-- What the buckets are after a list of additions. -/
structure Keeps (w : Nat) (entries buckets : List (Nat × M)) : Prop where
  /-- They are in order. -/
  ordered : buckets.Pairwise (fun a b => a.1 < b.1)
  /-- All of them are in the window ending with the latest time. -/
  within : ∀ bucket ∈ buckets, bucket.1 ≤ latest 0 entries ∧ latest 0 entries < bucket.1 + w
  /-- The last is of the latest time. -/
  last : entries = [] ∧ buckets = [] ∨ ∃ before x, buckets = before ++ [(latest 0 entries, x)]
  /-- And they sum to what counts, in every window that ends no earlier. -/
  sum_eq : ∀ now, latest 0 entries ≤ now → sum w now buckets = sum w now (effective 0 entries)

/-- An addition of an earlier time goes to the last bucket. -/
private theorem Keeps.back {w : Nat} {entries before : List (Nat × M)} {y : M}
    (h : Keeps w entries (before ++ [(latest 0 entries, y)])) (now : Nat) (x : M)
    (hback : now ≤ latest 0 entries) :
    Keeps w (entries ++ [(now, x)]) (add w now x (before ++ [(latest 0 entries, y)])) := by
  have hlatest : latest 0 (entries ++ [(now, x)]) = latest 0 entries := by
    rw [latest_concat]
    exact max_eq_left hback
  -- everything kept is in the window of the latest time, and so of an earlier one
  have hexpire : expire w now (before ++ [(latest 0 entries, y)]) =
      before ++ [(latest 0 entries, y)] := by
    rw [expire_eq_filter h.ordered, List.filter_eq_self]
    intro bucket hbucket
    exact decide_eq_true (hback.trans_lt (h.within bucket hbucket).2)
  have hadd : add w now x (before ++ [(latest 0 entries, y)]) =
      before ++ [(latest 0 entries, y + x)] := by
    simp only [add, hexpire, List.getLast?_concat, if_pos hback, List.dropLast_concat]
  have hordered := List.pairwise_append.mp h.ordered
  rw [hadd]
  refine ⟨?_, ?_, ?_, ?_⟩
  · rw [List.pairwise_append]
    refine ⟨hordered.1, List.pairwise_singleton _ _, ?_⟩
    intro a ha b hb
    rw [List.mem_singleton.mp hb]
    exact hordered.2.2 a ha (latest 0 entries, y) (List.mem_singleton_self _)
  · rw [hlatest]
    intro bucket hbucket
    rcases List.mem_append.mp hbucket with hbucket | hbucket
    · exact h.within bucket (List.mem_append_left _ hbucket)
    · rw [List.mem_singleton.mp hbucket]
      exact h.within (latest 0 entries, y) (List.mem_append_right _ (List.mem_singleton_self _))
  · rw [hlatest]
    exact .inr ⟨before, y + x, rfl⟩
  · rw [hlatest]
    intro now' hnow'
    have heq := h.sum_eq now' hnow'
    rw [sum_append, sum_singleton] at heq
    rw [effective_concat, sum_append, sum_append, sum_singleton, sum_singleton,
      max_eq_left hback, ← heq]
    split
    · rw [add_assoc]
    · rw [add_zero, add_zero]

/-- An addition of a later time than any has a bucket of its own. -/
private theorem Keeps.forward {w : Nat} (hw : 0 < w) {entries buckets : List (Nat × M)}
    (h : Keeps w entries buckets) (now : Nat) (x : M) (hle : latest 0 entries ≤ now)
    (hlater : ∀ bucket ∈ buckets, bucket.1 < now) :
    Keeps w (entries ++ [(now, x)]) (add w now x buckets) := by
  have hlatest : latest 0 (entries ++ [(now, x)]) = now := by
    rw [latest_concat]
    exact max_eq_right hle
  have hkept : ∀ bucket ∈ expire w now buckets, bucket.1 < now ∧ now < bucket.1 + w := by
    intro bucket hbucket
    rw [expire_eq_filter h.ordered, List.mem_filter, decide_eq_true_eq] at hbucket
    exact ⟨hlater bucket hbucket.1, hbucket.2⟩
  have hadd : add w now x buckets = expire w now buckets ++ [(now, x)] := by
    unfold add
    dsimp only
    split
    · next last hlast =>
        have hlt := (hkept last (List.mem_of_getLast? hlast)).1
        rw [if_neg (Nat.not_le.mpr hlt)]
    · rfl
  rw [hadd]
  refine ⟨?_, ?_, ?_, ?_⟩
  · rw [List.pairwise_append]
    refine ⟨h.ordered.sublist (List.dropWhile_sublist _), List.pairwise_singleton _ _, ?_⟩
    intro a ha b hb
    rw [List.mem_singleton.mp hb]
    exact (hkept a ha).1
  · rw [hlatest]
    intro bucket hbucket
    rcases List.mem_append.mp hbucket with hbucket | hbucket
    · exact ⟨(hkept bucket hbucket).1.le, (hkept bucket hbucket).2⟩
    · rw [List.mem_singleton.mp hbucket]
      exact ⟨le_rfl, Nat.lt_add_of_pos_right hw⟩
  · rw [hlatest]
    exact .inr ⟨_, x, rfl⟩
  · rw [hlatest]
    intro now' hnow'
    rw [sum_append, sum_expire h.ordered hnow', h.sum_eq now' (hle.trans hnow'), effective_concat,
      sum_append, max_eq_right hle]

/-- **Step.** An addition keeps the buckets in order, in the window and to the same sums. -/
theorem Keeps.add {w : Nat} (hw : 0 < w) {entries buckets : List (Nat × M)}
    (h : Keeps w entries buckets) (now : Nat) (x : M) :
    Keeps w (entries ++ [(now, x)]) (add w now x buckets) := by
  rcases h.last with ⟨rfl, rfl⟩ | ⟨before, y, rfl⟩
  · exact h.forward hw now x (Nat.zero_le now) fun bucket hbucket => nomatch hbucket
  · rcases le_or_gt now (latest 0 entries) with hback | hlt
    · exact h.back now x hback
    · exact h.forward hw now x hlt.le fun bucket hbucket => (h.within bucket hbucket).1.trans_lt hlt

/-- **Run.** So any additions do. -/
theorem keeps_run {w : Nat} (hw : 0 < w) (entries : List (Nat × M)) :
    Keeps w entries (run w entries) := by
  induction entries using List.reverseRecOn with
  | nil => exact ⟨List.Pairwise.nil, fun _ h => (nomatch h), .inl ⟨rfl, rfl⟩, fun _ _ => rfl⟩
  | append_singleton entries entry ih =>
      have hrun :
          run w (entries ++ [entry]) = RollingSum.add w entry.1 entry.2 (run w entries) := by
        unfold run
        rw [List.foldl_append]
        rfl
      rw [hrun]
      exact ih.add hw entry.1 entry.2

/-- There is at most one bucket for each time in the window. -/
theorem Keeps.length_le {w : Nat} {entries buckets : List (Nat × M)}
    (h : Keeps w entries buckets) : buckets.length ≤ w := by
  have hnodup : (buckets.map Prod.fst).Nodup := by
    rw [List.Nodup, List.pairwise_map]
    exact h.ordered.imp fun hlt => hlt.ne
  have hsubset : buckets.map Prod.fst ⊆
      (List.range w).map (fun ago => latest 0 entries - ago) := by
    intro hour hhour
    obtain ⟨bucket, hbucket, rfl⟩ := List.mem_map.mp hhour
    obtain ⟨hle, hlt⟩ := h.within bucket hbucket
    rw [List.mem_map]
    exact ⟨latest 0 entries - bucket.1, List.mem_range.mpr (by omega), by omega⟩
  have hle := (List.subperm_of_subset hnodup hsubset).length_le
  rwa [List.length_map, List.length_map, List.length_range] at hle

end RollingSum
