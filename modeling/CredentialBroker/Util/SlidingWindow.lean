import Mathlib.Data.List.Induction
import Mathlib.Data.List.Infix
import Mathlib.Data.List.TakeWhile

/-!
# Sliding windows over admission times

A limiter that admits at most `max` events in any span of `w` looks only at the present: it admits
one at `t` if fewer than `max` were admitted in the `w` before. `Admitted` is that condition on the
whole list of times, and two facts about it carry every bound.

* Wherever a half-open window of length `w` is put, it holds at most `max` of the times
  (`Admitted.countP_le`), so `n` such windows in a row hold `n * max` (`Admitted.countP_mul_le`).
* The times need not all be kept. A queue whose front is dropped as it leaves the window
  (`Trimmed`) still has as many entries as the full list has in the window (`Trimmed.drop`).
-/

namespace SlidingWindow

variable {max w : Nat} {times : List Nat}

/-! ## The bound -/

/-- Each time is no earlier than those before it, and came with fewer than `max` of them in the
window that ends with it. -/
def Admitted (max w : Nat) (times : List Nat) : Prop :=
  ∀ pre t, pre ++ [t] <+: times →
    (∀ x ∈ pre, x ≤ t) ∧ pre.countP (fun x => decide (t < x + w)) < max

theorem admitted_nil : Admitted max w [] := by
  intro pre t h
  have hnil := List.prefix_nil.mp h
  simp at hnil

theorem Admitted.concat {t : Nat} (h : Admitted max w times) (hle : ∀ x ∈ times, x ≤ t)
    (hcount : times.countP (fun x => decide (t < x + w)) < max) :
    Admitted max w (times ++ [t]) := by
  intro pre t' hpre
  rcases List.prefix_concat_iff.mp hpre with heq | hpre
  · obtain ⟨rfl, ht⟩ := List.append_inj' heq rfl
    cases ht
    exact ⟨hle, hcount⟩
  · exact h pre t' hpre

theorem Admitted.of_concat {t : Nat} (h : Admitted max w (times ++ [t])) : Admitted max w times :=
  fun pre t' hpre => h pre t' (hpre.trans (List.prefix_append _ _))

/-- The times are sorted. -/
theorem Admitted.pairwise (h : Admitted max w times) : times.Pairwise (· ≤ ·) := by
  induction times using List.reverseRecOn with
  | nil => exact List.Pairwise.nil
  | append_singleton times t ih =>
      obtain ⟨hle, -⟩ := h times t (List.prefix_refl _)
      rw [List.pairwise_append]
      refine ⟨ih h.of_concat, List.pairwise_singleton _ _, ?_⟩
      intro x hx y hy
      rw [List.mem_singleton.mp hy]
      exact hle x hx

/-- A window of length `w` holds at most `max` of the times, wherever it starts. -/
theorem Admitted.countP_le (h : Admitted max w times) (a : Nat) :
    times.countP (fun x => decide (a ≤ x ∧ x < a + w)) ≤ max := by
  induction times using List.reverseRecOn with
  | nil => simp
  | append_singleton times t ih =>
      obtain ⟨hle, hcount⟩ := h times t (List.prefix_refl _)
      rw [List.countP_append, List.countP_singleton]
      by_cases ht : a ≤ t ∧ t < a + w
      · -- whatever else is in the window was in the one that ended with `t`
        have hmono : times.countP (fun x => decide (a ≤ x ∧ x < a + w)) ≤
            times.countP (fun x => decide (t < x + w)) := by
          apply List.countP_mono_left
          intro x hx hin
          rw [decide_eq_true_eq] at hin ⊢
          omega
        simp only [ht, decide_true, and_self, if_true]
        omega
      · simp only [ht, decide_false, Bool.false_eq_true, if_false]
        exact ih h.of_concat

/-- A test that only passes where one of two others does counts no more than both. -/
private theorem countP_le_add {p q r : Nat → Bool} (h : ∀ x, p x = true → q x = true ∨ r x = true)
    (l : List Nat) : l.countP p ≤ l.countP q + l.countP r := by
  induction l with
  | nil => simp
  | cons x l ih =>
      simp only [List.countP_cons]
      by_cases hp : p x = true
      · rcases h x hp with hq | hr
        · rw [if_pos hp, if_pos hq]
          omega
        · rw [if_pos hp, if_pos hr]
          omega
      · rw [if_neg hp]
        omega

/-- `n` windows in a row hold at most `n * max` of the times. -/
theorem Admitted.countP_mul_le (h : Admitted max w times) (a n : Nat) :
    times.countP (fun x => decide (a ≤ x ∧ x < a + n * w)) ≤ n * max := by
  induction n with
  | zero =>
      rw [List.countP_eq_zero.mpr]
      · omega
      · intro x _
        rw [decide_eq_true_eq]
        omega
  | succ n ih =>
      have hsplit := countP_le_add
        (p := fun x => decide (a ≤ x ∧ x < a + (n + 1) * w))
        (q := fun x => decide (a ≤ x ∧ x < a + n * w))
        (r := fun x => decide (a + n * w ≤ x ∧ x < a + n * w + w)) ?_ times
      · have hlast := h.countP_le (a + n * w)
        rw [Nat.succ_mul n max]
        omega
      · intro x hx
        simp only [decide_eq_true_eq, Nat.succ_mul] at hx ⊢
        omega

/-- A span that `n` windows cover holds at most `n * max` of the times. -/
theorem Admitted.countP_span_le (h : Admitted max w times) {now span n : Nat}
    (hle : ∀ x ∈ times, x ≤ now) (hcover : span ≤ n * w) :
    times.countP (fun x => decide (now < x + span)) ≤ n * max := by
  refine le_trans (List.countP_mono_left fun x hx hin => ?_) (h.countP_mul_le (now + 1 - span) n)
  have hnow := hle x hx
  rw [decide_eq_true_eq] at hin ⊢
  omega

/-! ## The queue -/

/-- `queue` is what is left of `times` once some that are out of the window at `now` were dropped
from the front. -/
def Trimmed (w now : Nat) (times queue : List Nat) : Prop :=
  ∃ dropped, times = dropped ++ queue ∧ ∀ x ∈ dropped, x + w ≤ now

theorem Trimmed.mono {now now' : Nat} {queue : List Nat} (h : Trimmed w now times queue)
    (hle : now ≤ now') : Trimmed w now' times queue := by
  obtain ⟨dropped, heq, hdropped⟩ := h
  exact ⟨dropped, heq, fun x hx => (hdropped x hx).trans hle⟩

theorem Trimmed.concat {now t : Nat} {queue : List Nat} (h : Trimmed w now times queue) :
    Trimmed w now (times ++ [t]) (queue ++ [t]) := by
  obtain ⟨dropped, rfl, hdropped⟩ := h
  exact ⟨dropped, by simp, hdropped⟩

/-- In a sorted list no later than `now`, what is dropped from the front while it is out of the
window is all that is out of it. -/
private theorem dropWhile_eq_filter {now : Nat} :
    ∀ {l : List Nat}, l.Pairwise (· ≤ ·) → (∀ x ∈ l, x ≤ now) →
      l.dropWhile (fun x => decide (w ≤ now - x)) = l.filter (fun x => decide (now < x + w))
  | [], _, _ => rfl
  | x :: l, hsorted, hle => by
    obtain ⟨hx, hl⟩ := List.pairwise_cons.mp hsorted
    have hnow := hle x List.mem_cons_self
    have ih := dropWhile_eq_filter hl fun y hy => hle y (List.mem_cons_of_mem x hy)
    by_cases hout : w ≤ now - x
    · have hnot : ¬ now < x + w := by omega
      simp [hout, hnot, ih]
    · have hall : ∀ y ∈ x :: l, decide (now < y + w) = true := by
        intro y hy
        have hxy : x ≤ y := by
          rcases List.mem_cons.mp hy with rfl | hy
          · exact le_rfl
          · exact hx y hy
        rw [decide_eq_true_eq]
        omega
      rw [List.filter_eq_self.mpr hall]
      simp [hout]

/-- **The queue is enough.** Dropping what has left the window leaves a queue with one entry for
each time that is in it. -/
theorem Trimmed.drop {now : Nat} {queue : List Nat} (h : Trimmed w now times queue)
    (hsorted : times.Pairwise (· ≤ ·)) (hle : ∀ x ∈ times, x ≤ now) :
    Trimmed w now times (queue.dropWhile (fun x => decide (w ≤ now - x))) ∧
      (queue.dropWhile (fun x => decide (w ≤ now - x))).length =
        times.countP (fun x => decide (now < x + w)) := by
  obtain ⟨dropped, rfl, hdropped⟩ := h
  have hqueue : ∀ x ∈ queue, x ≤ now := fun x hx => hle x (List.mem_append_right _ hx)
  constructor
  · refine ⟨dropped ++ queue.takeWhile (fun x => decide (w ≤ now - x)), ?_, ?_⟩
    · rw [List.append_assoc, List.takeWhile_append_dropWhile]
    · intro x hx
      rcases List.mem_append.mp hx with hx | hx
      · exact hdropped x hx
      · have hout := List.mem_takeWhile_imp hx
        rw [decide_eq_true_eq] at hout
        have hnow := hqueue x (List.takeWhile_sublist _ |>.subset hx)
        omega
  · have hgone : dropped.countP (fun x => decide (now < x + w)) = 0 := by
      apply List.countP_eq_zero.mpr
      intro x hx
      rw [decide_eq_true_eq, Nat.not_lt]
      exact hdropped x hx
    rw [dropWhile_eq_filter (List.pairwise_append.mp hsorted).2.1 hqueue, List.countP_append, hgone,
      Nat.zero_add, List.countP_eq_length_filter]

end SlidingWindow
