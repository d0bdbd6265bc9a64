import Mathlib.Data.List.Basic
import Mathlib.Data.List.Induction

/-!
# Lines read a piece at a time

Text cut into lines, each with its separator, and an unterminated rest. `Cut` says what the lines
of a text are, and `splitInclusive` computes them. What is cut stays cut when more text comes:
`Cut.append_open` and `Cut.append_line` say where a further piece goes.

`Held` is a buffer for the line being read, of at most `limit` elements: a line that outgrows it is
given up, and the buffer stays empty to its end. `holding` is the state that a buffer is in by what
it was given alone, and `Held.push_holding` says that pushing a piece keeps to it, wherever the
pieces are cut.
-/

namespace Lines

variable {α : Type}

/-- A line with its separator. -/
def IsLine (sep : α) (line : List α) : Prop := ∃ body, sep ∉ body ∧ line = body ++ [sep]

/-- The lines of a text, and the rest after the last separator. -/
structure Cut (sep : α) (text : List α) (lines : List (List α)) (rest : List α) : Prop where
  isLine : ∀ line ∈ lines, IsLine sep line
  sep_notMem : sep ∉ rest
  eq : text = lines.flatten ++ rest

/-- A text as its lines, each with its separator, and its rest, unless that is empty. -/
def splitInclusive [DecidableEq α] (sep : α) : List α → List (List α)
  | [] => []
  | a :: text =>
    if a = sep then [a] :: splitInclusive sep text
    else
      match splitInclusive sep text with
      | [] => [[a]]
      | piece :: pieces => (a :: piece) :: pieces

variable {sep : α}

theorem IsLine.singleton : IsLine sep [sep] := ⟨[], List.not_mem_nil, rfl⟩

/-- What has no separator goes before a line. -/
theorem IsLine.append {front line : List α} (hfront : sep ∉ front) (h : IsLine sep line) :
    IsLine sep (front ++ line) := by
  obtain ⟨body, hbody, rfl⟩ := h
  exact ⟨front ++ body, by simp [hfront, hbody], by rw [List.append_assoc]⟩

theorem IsLine.getLast? {line : List α} (h : IsLine sep line) : line.getLast? = some sep := by
  obtain ⟨body, -, rfl⟩ := h
  exact List.getLast?_concat

/-! ## Splitting -/

section Splitting

variable [DecidableEq α]

theorem splitInclusive_rest {rest : List α} (h : sep ∉ rest) :
    splitInclusive sep rest = if rest = [] then [] else [rest] := by
  induction rest with
  | nil => rfl
  | cons a rest ih =>
      rw [List.mem_cons, not_or] at h
      unfold splitInclusive
      rw [if_neg (Ne.symm h.1), ih h.2]
      cases rest <;> rfl

theorem splitInclusive_line {line : List α} (h : IsLine sep line) (text : List α) :
    splitInclusive sep (line ++ text) = line :: splitInclusive sep text := by
  obtain ⟨body, hbody, rfl⟩ := h
  induction body with
  | nil =>
      show splitInclusive sep (sep :: text) = _
      rw [splitInclusive, if_pos rfl]
      rfl
  | cons a body ih =>
      rw [List.mem_cons, not_or] at hbody
      show splitInclusive sep (a :: (body ++ [sep] ++ text)) = _
      rw [splitInclusive, if_neg (Ne.symm hbody.1), ih hbody.2]
      rfl

theorem splitInclusive_flatten {lines : List (List α)} (h : ∀ line ∈ lines, IsLine sep line)
    (text : List α) :
    splitInclusive sep (lines.flatten ++ text) = lines ++ splitInclusive sep text := by
  induction lines with
  | nil => rfl
  | cons line lines ih =>
      rw [List.flatten_cons, List.append_assoc, splitInclusive_line (h line List.mem_cons_self),
        ih fun l hl => h l (List.mem_cons_of_mem _ hl)]
      rfl

/-- **The pieces of a text** are its lines, and its rest if there is any. -/
theorem Cut.splitInclusive {text : List α} {lines : List (List α)} {rest : List α}
    (h : Cut sep text lines rest) :
    Lines.splitInclusive sep text = lines ++ if rest = [] then [] else [rest] := by
  rw [h.eq, splitInclusive_flatten h.isLine, splitInclusive_rest h.sep_notMem]

/-- The lines of a text are the pieces of it that end in a separator. -/
theorem Cut.lines_eq {text : List α} {lines : List (List α)} {rest : List α}
    (h : Cut sep text lines rest) :
    lines = (Lines.splitInclusive sep text).filter fun piece => piece.getLast? = some sep := by
  have hlines : ∀ line ∈ lines, decide (line.getLast? = some sep) = true :=
    fun line hmem => decide_eq_true (h.isLine line hmem).getLast?
  rw [h.splitInclusive, List.filter_append, List.filter_eq_self.mpr hlines]
  split
  · simp
  · have hopen : ¬ rest.getLast? = some sep :=
      fun hlast => h.sep_notMem (List.mem_of_getLast? hlast)
    simp [hopen]

/-- A text is cut in one way only. -/
theorem Cut.unique {text : List α} {lines lines' : List (List α)} {rest rest' : List α}
    (h : Cut sep text lines rest) (h' : Cut sep text lines' rest') :
    lines = lines' ∧ rest = rest' := by
  have hlines : lines = lines' := by rw [h.lines_eq, h'.lines_eq]
  subst hlines
  exact ⟨rfl, List.append_cancel_left (h.eq.symm.trans h'.eq)⟩

theorem flatten_splitInclusive (text : List α) : (splitInclusive sep text).flatten = text := by
  induction text with
  | nil => rfl
  | cons a text ih =>
      unfold splitInclusive
      split
      · rw [List.flatten_cons, ih]
        rfl
      · cases hsplit : splitInclusive sep text with
        | nil =>
            rw [hsplit] at ih
            rw [← ih]
            rfl
        | cons piece pieces =>
            rw [hsplit] at ih
            rw [← ih]
            rfl

/-- A piece is a line, or has no separator. -/
theorem isLine_or_of_mem_splitInclusive {text piece : List α}
    (h : piece ∈ splitInclusive sep text) : IsLine sep piece ∨ sep ∉ piece := by
  induction text generalizing piece with
  | nil => cases h
  | cons a text ih =>
      unfold splitInclusive at h
      split at h
      · next hsep =>
          subst hsep
          rcases List.mem_cons.mp h with rfl | h
          · exact .inl .singleton
          · exact ih h
      · next hsep =>
          have hfront : sep ∉ [a] := by simpa using Ne.symm hsep
          cases hsplit : splitInclusive sep text with
          | nil =>
              rw [hsplit] at h
              rw [List.mem_singleton.mp h]
              exact .inr hfront
          | cons first pieces =>
              rw [hsplit] at h ih
              rcases List.mem_cons.mp h with rfl | h
              · exact (ih List.mem_cons_self).imp (IsLine.append hfront ·)
                  (fun hrest => by simpa [Ne.symm hsep] using hrest)
              · exact ih (List.mem_cons_of_mem _ h)

end Splitting

/-! ## More text -/

theorem Cut.nil : Cut sep [] [] [] := ⟨by simp, List.not_mem_nil, rfl⟩

theorem Cut.append_open {text : List α} {lines : List (List α)} {rest piece : List α}
    (h : Cut sep text lines rest) (hpiece : sep ∉ piece) :
    Cut sep (text ++ piece) lines (rest ++ piece) :=
  ⟨h.isLine, by simp [h.sep_notMem, hpiece], by rw [h.eq, List.append_assoc]⟩

theorem Cut.append_line {text : List α} {lines : List (List α)} {rest piece : List α}
    (h : Cut sep text lines rest) (hpiece : IsLine sep piece) :
    Cut sep (text ++ piece) (lines ++ [rest ++ piece]) [] := by
  refine ⟨?_, List.not_mem_nil, ?_⟩
  · intro line hmem
    rcases List.mem_append.mp hmem with hmem | hmem
    · exact h.isLine line hmem
    · rw [List.mem_singleton.mp hmem]
      exact hpiece.append h.sep_notMem
  · rw [h.eq]
    simp

/-- Lines go before a text that is cut. -/
theorem Cut.prepend {text : List α} {lines : List (List α)} {rest : List α}
    (h : Cut sep text lines rest) (before : List (List α))
    (hbefore : ∀ line ∈ before, IsLine sep line) :
    Cut sep (before.flatten ++ text) (before ++ lines) rest := by
  refine ⟨?_, h.sep_notMem, ?_⟩
  · intro line hmem
    rcases List.mem_append.mp hmem with hmem | hmem
    · exact hbefore line hmem
    · exact h.isLine line hmem
  · rw [h.eq, List.flatten_append, List.append_assoc]

/-- Every text is cut into lines and a rest. -/
theorem exists_cut [DecidableEq α] (sep : α) (text : List α) :
    ∃ lines rest, Cut sep text lines rest := by
  induction text using List.reverseRecOn with
  | nil => exact ⟨[], [], .nil⟩
  | append_singleton text a ih =>
      obtain ⟨lines, rest, h⟩ := ih
      by_cases hsep : a = sep
      · subst hsep
        exact ⟨_, [], h.append_line .singleton⟩
      · exact ⟨lines, _, h.append_open (by simpa using Ne.symm hsep)⟩

/-! ## A buffer of at most `limit` -/

/-- What is held of a line, or that it is being skipped. -/
structure Held (α : Type) where
  pending : List α
  skipping : Bool
  deriving DecidableEq

/-- Add a piece, unless the line is or becomes too long. -/
def Held.push (limit : Nat) (held : Held α) (piece : List α) : Held α :=
  if limit < held.pending.length + piece.length then ⟨[], true⟩
  else if held.skipping then held
  else ⟨held.pending ++ piece, false⟩

/-- What is held of a line that begins as `text` does. -/
def holding (limit : Nat) (text : List α) : Held α :=
  if text.length ≤ limit then ⟨text, false⟩ else ⟨[], true⟩

/-- **Step.** Pushing a piece holds the text with the piece, however the text was cut. -/
theorem Held.push_holding (limit : Nat) (text piece : List α) :
    (holding limit text).push limit piece = holding limit (text ++ piece) := by
  unfold holding Held.push
  rw [List.length_append]
  by_cases htext : text.length ≤ limit
  · rw [if_pos htext]
    dsimp only
    by_cases hmore : limit < text.length + piece.length
    · rw [if_pos hmore, if_neg (Nat.not_le_of_lt hmore)]
    · rw [if_neg hmore, if_pos (Nat.le_of_not_lt hmore)]
      rfl
  · rw [if_neg htext, if_neg (show ¬ text.length + piece.length ≤ limit by omega)]
    split <;> rfl

theorem length_pending_holding (limit : Nat) (text : List α) :
    (holding limit text).pending.length ≤ limit := by
  unfold holding
  split
  · next hfits => exact hfits
  · exact Nat.zero_le _

theorem length_pending_push {limit : Nat} {held : Held α} (h : held.pending.length ≤ limit)
    (piece : List α) : (held.push limit piece).pending.length ≤ limit := by
  unfold Held.push
  split
  · exact Nat.zero_le _
  · next hfits =>
      split
      · exact h
      · rw [List.length_append]
        omega

end Lines
