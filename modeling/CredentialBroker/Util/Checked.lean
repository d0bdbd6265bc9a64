import Mathlib.Data.List.Basic
import Mathlib.Data.List.Induction

/-!
# What a chain of checks establishes

A validator is a sequence of checks in `Except`, and succeeds only if each of them does. The
equations here take a successful one apart: a sequence, a check of every element of a list, a guard
that refuses, an error that gets a name in front. A theorem about what was accepted then starts from
the list of facts that were checked.
-/

namespace Checked

variable {ε ε' α β : Type}

theorem bind_eq_ok {x : Except ε α} {f : α → Except ε β} {b : β} :
    (x >>= f) = .ok b ↔ ∃ a, x = .ok a ∧ f a = .ok b := by
  cases x with
  | error e => simp [bind, Except.bind]
  | ok a => simp [bind, Except.bind]

/-- A check and then another. -/
theorem then_eq_ok {x : Except ε Unit} {y : Except ε β} {b : β} :
    (x >>= fun _ => y) = .ok b ↔ x = .ok () ∧ y = .ok b := by
  rw [bind_eq_ok]
  constructor
  · rintro ⟨⟨⟩, hx, hy⟩
    exact ⟨hx, hy⟩
  · rintro ⟨hx, hy⟩
    exact ⟨(), hx, hy⟩

/-- A check of each element succeeds exactly if each does. -/
theorem forM_eq_ok {f : α → Except ε Unit} {l : List α} :
    l.forM f = .ok () ↔ ∀ x ∈ l, f x = .ok () := by
  induction l with
  | nil => simp [pure, Except.pure]
  | cons x l ih =>
      show (f x >>= fun _ => l.forM f) = .ok () ↔ _
      rw [then_eq_ok, ih]
      simp

/-- A loop that succeeds keeps what each of its steps keeps, of the elements so far and the state.
-/
theorem foldlM_invariant {P : List α → β → Prop} {f : β → α → Except ε β} {b b' : β} {l : List α}
    (init : P [] b)
    (step : ∀ before a c c', P before c → f c a = .ok c' → P (before ++ [a]) c')
    (h : l.foldlM f b = .ok b') : P l b' := by
  induction l using List.reverseRecOn generalizing b' with
  | nil =>
      cases h
      exact init
  | append_singleton before a ih =>
      rw [List.foldlM_append] at h
      obtain ⟨c, hc, hlast⟩ := bind_eq_ok.mp h
      rw [List.foldlM_cons] at hlast
      obtain ⟨c', hc', hdone⟩ := bind_eq_ok.mp hlast
      cases hdone
      exact step before a c b' (ih hc) hc'

theorem mapError_eq_ok {x : Except ε α} {f : ε → ε'} {a : α} :
    x.mapError f = .ok a ↔ x = .ok a := by
  cases x <;> simp [Except.mapError]

theorem exists_of_toBool {x : Except ε α} (h : x.toBool = true) : ∃ a, x = .ok a := by
  cases x with
  | error e => cases h
  | ok a => exact ⟨a, rfl⟩

/-- A guard that refuses. -/
theorem refuse_eq_ok {p : Prop} [Decidable p] {e : ε} {x : Except ε α} {a : α} :
    (if p then .error e else x) = .ok a ↔ ¬ p ∧ x = .ok a := by
  split <;> simp_all

end Checked
