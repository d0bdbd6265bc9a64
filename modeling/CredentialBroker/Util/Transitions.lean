import CredentialBroker.Util.Mealy

/-!
# Labelled transitions

A relation `step s e t` says that `e` may happen in stage `s` and leads to `t`: what a component is
allowed to do, one happening at a time. `Path` is a list of happenings that is allowed, between the
stages it leads from and to.

* `Path.history` is the induction over what has happened so far: a relation between the happenings
  and the stage that holds at the start and is kept by each step.
* `Path.budget` bounds what happens by what each stage still allows.
* `path_run` is refinement: if each step of a machine emits what is allowed from a stage it
  corresponds to, what a run emits is allowed.
-/

namespace Transitions

variable {σ ε : Type*} {step : σ → ε → σ → Prop}

/-- What happens is allowed, one step after the other. -/
inductive Path (step : σ → ε → σ → Prop) : σ → List ε → σ → Prop where
  | nil (s : σ) : Path step s [] s
  | cons {s t u : σ} {e : ε} {es : List ε} (h : step s e t) (rest : Path step t es u) :
      Path step s (e :: es) u

namespace Path

theorem single {s t : σ} {e : ε} (h : step s e t) : Path step s [e] t := .cons h (.nil t)

theorem append {s t u : σ} {es more : List ε} (h : Path step s es t) (h' : Path step t more u) :
    Path step s (es ++ more) u := by
  induction h with
  | nil s => exact h'
  | cons hstep _ ih => exact .cons hstep (ih h')

/-- A path is cut where its happenings are. -/
theorem of_append {s u : σ} {es more : List ε} (h : Path step s (es ++ more) u) :
    ∃ t, Path step s es t ∧ Path step t more u := by
  induction es generalizing s with
  | nil => exact ⟨s, .nil s, h⟩
  | cons e es ih =>
      cases h with
      | cons hstep hrest =>
          obtain ⟨t, hes, hmore⟩ := ih hrest
          exact ⟨t, .cons hstep hes, hmore⟩

/-- A happening of a path is a step from where those before it lead. -/
theorem of_mid {s u : σ} {es more : List ε} {e : ε} (h : Path step s (es ++ e :: more) u) :
    ∃ t t', Path step s es t ∧ step t e t' ∧ Path step t' more u := by
  obtain ⟨t, hes, hrest⟩ := h.of_append
  cases hrest with
  | cons hstep hmore => exact ⟨t, _, hes, hstep, hmore⟩

/-- **The history rule.** -/
theorem history {s t : σ} {es : List ε} (h : Path step s es t) {P : List ε → σ → Prop}
    (init : P [] s)
    (keep : ∀ es t e t', Path step s es t → P es t → step t e t' → P (es ++ [e]) t') : P es t := by
  induction es using List.reverseRecOn generalizing t with
  | nil =>
      cases h
      exact init
  | append_singleton es e ih =>
      obtain ⟨t', hes, hlast⟩ := h.of_append
      cases hlast with
      | cons hstep hnil =>
          cases hnil
          exact keep es t' e _ hes (ih hes) hstep

/-- **The budget rule.** If each happening of a kind lowers what is left, it happens no more often
than was left at first. -/
theorem budget {s t : σ} {es : List ε} (h : Path step s es t) (kind : ε → Bool) (left : σ → Nat)
    (keep : ∀ s e t, step s e t → (if kind e then 1 else 0) + left t ≤ left s) :
    es.countP kind + left t ≤ left s := by
  induction h with
  | nil s => simp
  | cons hstep _ ih =>
      have hfirst := keep _ _ _ hstep
      rw [List.countP_cons]
      omega

end Path

/-- **The refinement rule.** A machine whose every step from a state that corresponds to a stage
emits a path to a stage that corresponds to its next state emits nothing but paths. -/
theorem path_run {S ι ο : Type*} (m : Mealy S ι ο) (emit : S × ι → List ε) (R : S → σ → Prop)
    {init : σ} (hinit : R m.init init)
    (hstep : ∀ is i s, R (m.run is) s →
      ∃ t, Path step s (emit (m.run is, i)) t ∧ R (m.next (m.run is) i) t)
    (is : List ι) : ∃ s, Path step init ((m.trace is).flatMap emit) s ∧ R (m.run is) s := by
  induction is using List.reverseRecOn with
  | nil => exact ⟨init, .nil init, hinit⟩
  | append_singleton is i ih =>
      obtain ⟨s, hpath, hR⟩ := ih
      obtain ⟨t, hmore, hR'⟩ := hstep is i s hR
      rw [Mealy.trace_concat, Mealy.run_concat, List.flatMap_append, List.flatMap_singleton]
      exact ⟨t, hpath.append hmore, hR'⟩

end Transitions
