import Mathlib.Data.List.Basic

/-!
# Writers that show where they end

A writer turns values into text, and texts of several values are written one after the other. It is
*self-delimiting* if whatever follows, the value and the rest can be told from the text: then what
is written in sequence can be read back in sequence, and in particular determines what was written.
Every format built from such writers is such a writer again: literals around one, one after another,
repetition up to a closing letter. A text that is not self-delimiting becomes so once it is closed
by a letter it never uses.
-/

variable {A α β : Type*}

/-- What follows a text does not change how it is read. -/
def SelfDelimiting (w : α → List A) : Prop :=
  ∀ a a' r r', w a ++ r = w a' ++ r' → a = a' ∧ r = r'

namespace SelfDelimiting

variable {w : α → List A}

theorem injective (h : SelfDelimiting w) : Function.Injective w := by
  intro a a' heq
  exact (h a a' [] [] (by rw [heq])).1

/-- A text whose length shows in how it begins. -/
theorem of_length (length : List A → Nat) (hw : Function.Injective w)
    (h : ∀ a r, length (w a ++ r) = (w a).length) : SelfDelimiting w := by
  intro a a' r r' heq
  have hlength : (w a).length = (w a').length := by rw [← h a r, heq, h a' r']
  obtain ⟨ha, hr⟩ := List.append_inj heq hlength
  exact ⟨hw ha, hr⟩

theorem comap (h : SelfDelimiting w) {e : β → α} (he : Function.Injective e) :
    SelfDelimiting (fun b => w (e b)) := by
  intro b b' r r' heq
  obtain ⟨hb, hr⟩ := h (e b) (e b') r r' heq
  exact ⟨he hb, hr⟩

theorem literal (h : SelfDelimiting w) (l : List A) : SelfDelimiting (fun a => l ++ w a) := by
  intro a a' r r' heq
  simp only [List.append_assoc] at heq
  exact h a a' r r' (List.append_cancel_left heq)

theorem closed (h : SelfDelimiting w) (l : List A) : SelfDelimiting (fun a => w a ++ l) := by
  intro a a' r r' heq
  simp only [List.append_assoc] at heq
  obtain ⟨ha, hr⟩ := h a a' (l ++ r) (l ++ r') heq
  exact ⟨ha, List.append_cancel_left hr⟩

theorem pair (h : SelfDelimiting w) {v : β → List A} (hv : SelfDelimiting v) :
    SelfDelimiting (fun p : α × β => w p.1 ++ v p.2) := by
  rintro ⟨a, b⟩ ⟨a', b'⟩ r r' heq
  simp only [List.append_assoc] at heq
  obtain ⟨rfl, hrest⟩ := h a a' (v b ++ r) (v b' ++ r') heq
  obtain ⟨rfl, hr⟩ := hv b b' r r' hrest
  exact ⟨rfl, hr⟩

/-- The letter a text is closed with first occurs where it is closed. -/
theorem append_cons_cancel {c : A} {l l' r r' : List A} (hl : c ∉ l) (hl' : c ∉ l')
    (h : l ++ c :: r = l' ++ c :: r') : l = l' ∧ r = r' := by
  rcases List.append_eq_append_iff.mp h with ⟨s, rfl, hs⟩ | ⟨s, rfl, hs⟩
  · cases s with
    | nil => simpa using hs
    | cons d s =>
        obtain ⟨rfl, -⟩ := List.cons.inj hs
        exact absurd (List.mem_append_right _ List.mem_cons_self) hl'
  · cases s with
    | nil => simpa using hs.symm
    | cons d s =>
        obtain ⟨rfl, -⟩ := List.cons.inj hs
        exact absurd (List.mem_append_right _ List.mem_cons_self) hl

/-- And last occurs there, if what follows does not use it. -/
theorem append_cons_cancel_right {c : A} {l l' r r' : List A} (hr : c ∉ r) (hr' : c ∉ r')
    (h : l ++ c :: r = l' ++ c :: r') : l = l' ∧ r = r' := by
  have hrev := congrArg List.reverse h
  simp only [List.reverse_append, List.reverse_cons, List.append_assoc, List.singleton_append]
    at hrev
  obtain ⟨hr, hl⟩ := append_cons_cancel (by simpa using hr) (by simpa using hr') hrev
  exact ⟨List.reverse_injective hl, List.reverse_injective hr⟩

/-- A text closed by a letter it never uses. -/
theorem terminated {c : A} (hw : Function.Injective w) (h : ∀ a, c ∉ w a) :
    SelfDelimiting (fun a => w a ++ [c]) := by
  intro a a' r r' heq
  simp only [List.append_assoc, List.singleton_append] at heq
  obtain ⟨ha, hr⟩ := append_cons_cancel (h a) (h a') heq
  exact ⟨hw ha, hr⟩

/-- Repetition up to a closing letter that no item begins with. -/
theorem repeated (h : SelfDelimiting w) {c : A} (hc : ∀ a, ∃ d l, w a = d :: l ∧ d ≠ c) :
    SelfDelimiting (fun as : List α => as.flatMap w ++ [c]) := by
  intro as
  induction as with
  | nil =>
      intro as' r r' heq
      cases as' with
      | nil => simpa using heq
      | cons a' as' =>
          obtain ⟨d, l, hd, hne⟩ := hc a'
          simp only [List.flatMap_cons, hd] at heq
          exact absurd (List.cons.inj heq).1.symm hne
  | cons a as ih =>
      intro as' r r' heq
      cases as' with
      | nil =>
          obtain ⟨d, l, hd, hne⟩ := hc a
          simp only [List.flatMap_cons, hd] at heq
          exact absurd (List.cons.inj heq).1 hne
      | cons a' as' =>
          simp only [List.flatMap_cons, List.append_assoc] at heq
          obtain ⟨rfl, hrest⟩ := h a a' _ _ heq
          obtain ⟨rfl, hr⟩ := ih as' r r' (by simpa using hrest)
          exact ⟨rfl, hr⟩

/-- The items of a list with a letter between them. -/
def separated (w : α → List A) (sep : A) : List α → List A
  | [] => []
  | a :: as => w a ++ as.flatMap (fun a => sep :: w a)

theorem separated_singleton (w : α → List A) (sep : A) (a : α) :
    separated w sep [a] = w a := List.append_nil _

theorem separated_cons_cons (w : α → List A) (sep : A) (a b : α) (as : List α) :
    separated w sep (a :: b :: as) = w a ++ sep :: separated w sep (b :: as) := rfl

/-- Items that do not use the letter between them can be told apart. -/
theorem separated_inj (hw : Function.Injective w) {sep : A} (h : ∀ a, sep ∉ w a) {a a' : α}
    {as as' : List α} (heq : separated w sep (a :: as) = separated w sep (a' :: as')) :
    a = a' ∧ as = as' := by
  induction as generalizing a a' as' with
  | nil =>
      cases as' with
      | nil =>
          rw [separated_singleton, separated_singleton] at heq
          exact ⟨hw heq, rfl⟩
      | cons b as' =>
          rw [separated_singleton, separated_cons_cons] at heq
          exact absurd (heq ▸ List.mem_append_right _ List.mem_cons_self) (h a)
  | cons b as ih =>
      cases as' with
      | nil =>
          rw [separated_singleton, separated_cons_cons] at heq
          exact absurd (heq ▸ List.mem_append_right _ List.mem_cons_self) (h a')
      | cons b' as' =>
          rw [separated_cons_cons, separated_cons_cons] at heq
          obtain ⟨ha, hrest⟩ := append_cons_cancel (h a) (h a') heq
          obtain ⟨rfl, rfl⟩ := ih hrest
          exact ⟨hw ha, rfl⟩

/-- Items with a letter between them, up to a closing letter that no item begins with. -/
theorem separated_closed (h : SelfDelimiting w) {sep c : A} (hsep : sep ≠ c)
    (hc : ∀ a, ∃ d l, w a = d :: l ∧ d ≠ c) :
    SelfDelimiting (fun as : List α => separated w sep as ++ [c]) := by
  have htail : SelfDelimiting (fun as : List α => as.flatMap (fun a => sep :: w a) ++ [c]) :=
    repeated (h.literal [sep]) fun a => ⟨sep, w a, rfl, hsep⟩
  have hcons : SelfDelimiting (fun p : α × List α =>
      w p.1 ++ (p.2.flatMap (fun a => sep :: w a) ++ [c])) := h.pair htail
  intro as as' r r' heq
  cases as with
  | nil =>
      cases as' with
      | nil => simpa using heq
      | cons a' as' =>
          obtain ⟨d, l, hd, hne⟩ := hc a'
          simp only [separated, hd] at heq
          exact absurd (List.cons.inj heq).1.symm hne
  | cons a as =>
      cases as' with
      | nil =>
          obtain ⟨d, l, hd, hne⟩ := hc a
          simp only [separated, hd] at heq
          exact absurd (List.cons.inj heq).1 hne
      | cons a' as' =>
          obtain ⟨hpair, hr⟩ := hcons (a, as) (a', as') r r' (by simpa [separated] using heq)
          cases hpair
          exact ⟨rfl, hr⟩

end SelfDelimiting
