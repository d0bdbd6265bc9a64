import Mathlib.Data.List.Induction
import Mathlib.Data.List.Infix

/-!
# Runs of a deterministic machine

A `Mealy` machine takes a state and a call to the next state and an answer. A component that is
called from outside and keeps private state is one, and what is promised of it is about *runs*: what
holds after any list of calls, or between two calls of one list.

* `run` is the state a list of calls leads to, `trace` the list of its events, each a call with the
  state it was made in, so an event determines its answer and its effect.
* `Along G is` says that every call of `is` satisfies `G` given the trace before it. Orderings of
  the calls and freshness of what they bring are guards of this kind.
* `invariant` is the one induction: a relation between trace and state that holds initially and is
  preserved by every guarded step holds after every guarded run.
* `read_run` adds up what each step of a run emits.
* `view_run` is refinement: a view under which steps are another machine's makes runs that
  machine's.
* `view_run_purge` is the other: what a view shows of a run is what it shows of the run without the
  calls hidden from it.
-/

/-- A machine that answers each call and moves to a next state. -/
structure Mealy (σ ι ο : Type*) where
  init : σ
  step : σ → ι → σ × ο

namespace Mealy

variable {σ ι ο : Type*} (m : Mealy σ ι ο)

/-- The state after a call. -/
def next (s : σ) (i : ι) : σ := (m.step s i).1

/-- The state a list of calls leads to from `s`. -/
def runFrom (s : σ) (is : List ι) : σ := is.foldl m.next s

/-- The state a list of calls leads to. -/
def run (is : List ι) : σ := m.runFrom m.init is

/-- The events of a list of calls from `s`: each call with the state it is made in. -/
def traceFrom (s : σ) : List ι → List (σ × ι)
  | [] => []
  | i :: is => (s, i) :: traceFrom (m.next s i) is

/-- The events of a list of calls. -/
def trace (is : List ι) : List (σ × ι) := m.traceFrom m.init is

/-! ## Appending calls -/

@[simp] theorem run_nil : m.run [] = m.init := rfl

@[simp] theorem trace_nil : m.trace [] = [] := rfl

theorem runFrom_append (s : σ) (is js : List ι) :
    m.runFrom s (is ++ js) = m.runFrom (m.runFrom s is) js :=
  List.foldl_append

theorem run_append (is js : List ι) : m.run (is ++ js) = m.runFrom (m.run is) js :=
  m.runFrom_append m.init is js

@[simp] theorem run_concat (is : List ι) (i : ι) :
    m.run (is ++ [i]) = m.next (m.run is) i :=
  m.run_append is [i]

theorem traceFrom_append (s : σ) (is js : List ι) :
    m.traceFrom s (is ++ js) = m.traceFrom s is ++ m.traceFrom (m.runFrom s is) js := by
  induction is generalizing s with
  | nil => rfl
  | cons i is ih => exact congrArg ((s, i) :: ·) (ih (m.next s i))

theorem trace_append (is js : List ι) :
    m.trace (is ++ js) = m.trace is ++ m.traceFrom (m.run is) js :=
  m.traceFrom_append m.init is js

@[simp] theorem trace_concat (is : List ι) (i : ι) :
    m.trace (is ++ [i]) = m.trace is ++ [(m.run is, i)] :=
  m.trace_append is [i]

theorem map_snd_traceFrom (s : σ) (is : List ι) : (m.traceFrom s is).map Prod.snd = is := by
  induction is generalizing s with
  | nil => rfl
  | cons i is ih => exact congrArg (i :: ·) (ih (m.next s i))

/-- The calls of a trace are the calls it was made from. -/
@[simp] theorem map_snd_trace (is : List ι) : (m.trace is).map Prod.snd = is :=
  m.map_snd_traceFrom m.init is

theorem mem_of_mem_trace {is : List ι} {e : σ × ι} (h : e ∈ m.trace is) : e.2 ∈ is := by
  have hmem : e.2 ∈ (m.trace is).map Prod.snd := List.mem_map_of_mem h
  rwa [map_snd_trace] at hmem

/-- An event is a call in the state that the calls before it lead to. -/
theorem exists_of_mem_trace {is : List ι} {e : σ × ι} (h : e ∈ m.trace is) :
    ∃ pre post, is = pre ++ e.2 :: post ∧ e.1 = m.run pre := by
  induction is using List.reverseRecOn with
  | nil => cases h
  | append_singleton is i ih =>
      rw [trace_concat, List.mem_append] at h
      rcases h with h | h
      · obtain ⟨pre, post, rfl, hstate⟩ := ih h
        exact ⟨pre, post ++ [i], by simp, hstate⟩
      · rw [List.mem_singleton.mp h]
        exact ⟨is, [], rfl, rfl⟩

/-! ## Guarded runs and their invariants -/

/-- Every call of `is` satisfies `G` given the trace before it. -/
def Along (G : List (σ × ι) → ι → Prop) (is : List ι) : Prop :=
  ∀ pre i, pre ++ [i] <+: is → G (m.trace pre) i

variable {m}
variable {G : List (σ × ι) → ι → Prop} {P : List (σ × ι) → σ → Prop}

theorem Along.of_append {is js : List ι} (h : m.Along G (is ++ js)) : m.Along G is :=
  fun pre i hpre => h pre i (hpre.trans (List.prefix_append is js))

theorem Along.last {is : List ι} {i : ι} (h : m.Along G (is ++ [i])) : G (m.trace is) i :=
  h is i (List.prefix_refl _)

theorem along_nil : m.Along G [] := by
  intro pre i hpre
  simp at hpre

theorem Along.concat {is : List ι} {i : ι} (h : m.Along G is) (hi : G (m.trace is) i) :
    m.Along G (is ++ [i]) := by
  intro pre j hpre
  rcases List.prefix_concat_iff.mp hpre with heq | hpre
  · obtain ⟨rfl, hj⟩ := List.append_inj' heq rfl
    cases hj
    exact hi
  · exact h pre j hpre

/-- **The invariant rule.** A relation between the trace so far and the state that holds initially
and is preserved by every guarded call holds after every guarded run. -/
theorem invariant (init : P [] m.init)
    (step : ∀ is i, P (m.trace is) (m.run is) → G (m.trace is) i →
      P (m.trace is ++ [(m.run is, i)]) (m.next (m.run is) i))
    (is : List ι) (guard : m.Along G is) : P (m.trace is) (m.run is) := by
  induction is using List.reverseRecOn with
  | nil => exact init
  | append_singleton is i ih =>
      rw [trace_concat, run_concat]
      exact step is i (ih guard.of_append) guard.last

/-- A run that satisfies no particular guard satisfies the trivial one. -/
theorem along_true (is : List ι) : m.Along (fun _ _ => True) is := fun _ _ _ => trivial

theorem Along.and {G' : List (σ × ι) → ι → Prop} {is : List ι} (h : m.Along G is)
    (h' : m.Along G' is) : m.Along (fun tr i => G tr i ∧ G' tr i) is :=
  fun pre i hpre => ⟨h pre i hpre, h' pre i hpre⟩

/-- In a list ordered by `R`, every call is related to each one before it. -/
theorem along_of_pairwise {R : ι → ι → Prop} {is : List ι} (h : is.Pairwise R) :
    m.Along (fun tr i => ∀ e ∈ tr, R e.2 i) is := by
  intro pre i hpre e he
  have hpair : (pre ++ [i]).Pairwise R := h.sublist hpre.sublist
  rw [List.pairwise_append] at hpair
  exact hpair.2.2 e.2 (m.mem_of_mem_trace he) i (List.mem_singleton.mpr rfl)

/-! ## What a run adds up to -/

/-- **The sum rule.** If each step adds to a reading what its event emits, if anything, then a run
adds what its events emit, in order. -/
theorem read_run {V E : Type*} (read : σ → V) (emit : σ × ι → Option E) (add : V → E → V)
    (step : ∀ is i, read (m.next (m.run is) i) =
      (emit (m.run is, i)).elim (read (m.run is)) (add (read (m.run is))))
    (is : List ι) : read (m.run is) = ((m.trace is).filterMap emit).foldl add (read m.init) := by
  induction is using List.reverseRecOn with
  | nil => rfl
  | append_singleton is i ih =>
      rw [trace_concat, run_concat, step, List.filterMap_append, List.foldl_append, ← ih]
      cases hemit : emit (m.run is, i) with
      | none => simp [hemit]
      | some e => simp [hemit]

/-! ## What a view shows -/

/-- **The refinement rule.** If every step of one machine is a step of another under a view, then
so is every run. -/
theorem view_run {σ' ο' : Type*} (m' : Mealy σ' ι ο') (view : σ → σ') (init : view m.init = m'.init)
    (step : ∀ s i, view (m.next s i) = m'.next (view s) i) (is : List ι) :
    view (m.run is) = m'.run is := by
  induction is using List.reverseRecOn with
  | nil => exact init
  | append_singleton is i ih => rw [run_concat, run_concat, step, ih]

/-- **The purge rule.** If a view stays as it is at every hidden call, and what it is after any
other call depends on no more than what it was, then it shows the run without its hidden calls. -/
theorem view_run_purge {V : Type*} (view : σ → V) (shown : ι → Bool) (G : ι → Prop)
    (hidden : ∀ s i, G i → shown i = false → view (m.next s i) = view s)
    (depends : ∀ s t i, G i → view s = view t → view (m.next s i) = view (m.next t i))
    (is : List ι) (guard : ∀ i ∈ is, G i) :
    view (m.run is) = view (m.run (is.filter shown)) := by
  induction is using List.reverseRecOn with
  | nil => rfl
  | append_singleton is i ih =>
      have ih := ih fun j hj => guard j (List.mem_append_left _ hj)
      have hi : G i := guard i (List.mem_append_right _ (List.mem_singleton.mpr rfl))
      rw [run_concat, List.filter_append]
      by_cases hshown : shown i = true
      · rw [List.filter_cons_of_pos hshown, List.filter_nil, run_concat]
        exact depends _ _ i hi ih
      · rw [List.filter_cons_of_neg hshown, List.filter_nil, List.append_nil]
        exact (hidden _ i hi (Bool.not_eq_true _ ▸ hshown)).trans ih

end Mealy
