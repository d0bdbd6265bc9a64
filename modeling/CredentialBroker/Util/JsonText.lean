import CredentialBroker.Util.SelfDelimiting

/-!
# Compact JSON text

What a compact JSON writer puts out for strings, small numbers, booleans and arrays, byte for byte.
Strings are their UTF-8 bytes and are escaped bytewise: quotes, backslashes and the control
characters, and nothing else. Two facts about such text are used: it never contains a control
character, whatever the strings in it do, and it is self-delimiting, so it determines the value
written.
-/

namespace JsonText

/-- The text of a byte within a string. -/
def escape (b : UInt8) : List UInt8 :=
  if b = 34 then [92, 34]
  else if b = 92 then [92, 92]
  else if b = 8 then [92, 98]
  else if b = 9 then [92, 116]
  else if b = 10 then [92, 110]
  else if b = 12 then [92, 102]
  else if b = 13 then [92, 114]
  else if b < 32 then
    [92, 117, 48, 48, if b < 16 then 48 else 49, if b % 16 < 10 then 48 + b % 16 else 87 + b % 16]
  else [b]

/-- A string. -/
def quote (s : List UInt8) : List UInt8 := 34 :: (s.flatMap escape ++ [34])

/-- A number of at most three digits. -/
def decimal (n : UInt8) : List UInt8 :=
  if n < 10 then [48 + n]
  else if n < 100 then [48 + n / 10, 48 + n % 10]
  else [48 + n / 100, 48 + n / 10 % 10, 48 + n % 10]

/-- `true` or `false`. -/
def boolean (b : Bool) : List UInt8 :=
  if b then [116, 114, 117, 101] else [102, 97, 108, 115, 101]

/-- An array. -/
def array {α : Type*} (w : α → List UInt8) (as : List α) : List UInt8 :=
  91 :: (SelfDelimiting.separated w 44 as ++ [93])

/-! ## No control characters -/

/-- No byte of the text is a control character. -/
def Visible (text : List UInt8) : Prop := ∀ b ∈ text, 32 ≤ b

instance (text : List UInt8) : Decidable (Visible text) :=
  List.decidableBAll (fun b => 32 ≤ b) text

theorem Visible.append {l l' : List UInt8} (h : Visible l) (h' : Visible l') :
    Visible (l ++ l') := by
  intro b hb
  rcases List.mem_append.mp hb with hb | hb
  · exact h b hb
  · exact h' b hb

theorem Visible.cons {b : UInt8} {l : List UInt8} (hb : 32 ≤ b) (h : Visible l) :
    Visible (b :: l) := by
  intro c hc
  rcases List.mem_cons.mp hc with rfl | hc
  · exact hb
  · exact h c hc

theorem Visible.notMem {l : List UInt8} (h : Visible l) {b : UInt8} (hb : b < 32) : b ∉ l :=
  fun hmem => absurd (h b hmem) (by simpa using hb)

/-- Every byte is one of these. -/
private theorem forall_byte {P : UInt8 → Prop} (h : ∀ n : Fin 256, P (.ofNat n.val)) (b : UInt8) :
    P b := by
  have hb := h ⟨b.toNat, b.toNat_lt⟩
  simpa using hb

theorem visible_escape (b : UInt8) : Visible (escape b) := by
  revert b
  apply forall_byte
  decide +kernel

theorem visible_quote (s : List UInt8) : Visible (quote s) := by
  have hbody : Visible (s.flatMap escape) := by
    intro b hb
    obtain ⟨c, -, hc⟩ := List.mem_flatMap.mp hb
    exact visible_escape c b hc
  exact .cons (by decide) (hbody.append (by intro b hb; rw [List.mem_singleton.mp hb]; decide))

theorem digit_of_mem_decimal {n b : UInt8} (hb : b ∈ decimal n) : 48 ≤ b := by
  have hall : ∀ n, (decimal n).all (fun b => decide (48 ≤ b)) = true := by
    apply forall_byte
    decide +kernel
  exact of_decide_eq_true (List.all_eq_true.mp (hall n) b hb)

theorem visible_decimal (n : UInt8) : Visible (decimal n) :=
  fun _ hb => UInt8.le_trans (by decide) (digit_of_mem_decimal hb)

theorem visible_boolean (b : Bool) : Visible (boolean b) := by
  cases b <;> decide

theorem visible_array {α : Type*} {w : α → List UInt8} (h : ∀ a, Visible (w a)) (as : List α) :
    Visible (array w as) := by
  have hbody : Visible (SelfDelimiting.separated w 44 as) := by
    cases as with
    | nil => intro b hb; cases hb
    | cons a as =>
        refine (h a).append ?_
        intro b hb
        obtain ⟨c, -, hc⟩ := List.mem_flatMap.mp hb
        exact Visible.cons (by decide) (h c) b hc
  exact .cons (by decide) (hbody.append (by intro b hb; rw [List.mem_singleton.mp hb]; decide))

/-! ## Reading back -/

/-- The byte a text of one is of. -/
def unescape : List UInt8 → UInt8
  | [b] => b
  | [92, 98] => 8
  | [92, 116] => 9
  | [92, 110] => 10
  | [92, 102] => 12
  | [92, 114] => 13
  | [92, b] => b
  | [92, 117, 48, 48, high, low] =>
      (if high = 48 then 0 else 16) + (if low < 58 then low - 48 else low - 87)
  | _ => 0

theorem unescape_escape (b : UInt8) : unescape (escape b) = b := by
  revert b
  apply forall_byte
  decide +kernel

/-- How long the text of a byte is, from its first two. -/
def escapedLength : List UInt8 → Nat
  | 92 :: 117 :: _ => 6
  | 92 :: _ => 2
  | _ => 1

theorem escapedLength_escape (b : UInt8) (rest : List UInt8) :
    escapedLength (escape b ++ rest) = (escape b).length := by
  unfold escape
  split
  · rfl
  split
  · rfl
  · next hb =>
      repeat' split
      all_goals first | rfl | skip
      -- a byte that stands for itself is not the backslash
      show escapedLength (b :: rest) = 1
      unfold escapedLength
      split
      · next heq => exact absurd (List.cons.inj heq).1 hb
      · next heq => exact absurd (List.cons.inj heq).1 hb
      · rfl

theorem selfDelimiting_escape : SelfDelimiting escape :=
  SelfDelimiting.of_length escapedLength (Function.LeftInverse.injective unescape_escape)
    escapedLength_escape

theorem selfDelimiting_quote : SelfDelimiting quote := by
  refine SelfDelimiting.literal (SelfDelimiting.repeated selfDelimiting_escape (c := 34) ?_) [34]
  apply forall_byte
  have hcons : ∀ n : Fin 256, (escape (.ofNat n.val)).head? ≠ none ∧
      (escape (.ofNat n.val)).head? ≠ some 34 := by decide +kernel
  intro n
  obtain ⟨hsome, hne⟩ := hcons n
  obtain ⟨d, hd⟩ := Option.ne_none_iff_exists'.mp hsome
  obtain ⟨l, hl⟩ := List.head?_eq_some_iff.mp hd
  exact ⟨d, l, hl, fun heq => hne (by rw [hd, heq])⟩

/-- The number a text of digits is of. -/
def ofDecimal (text : List UInt8) : UInt8 := text.foldl (fun n d => 10 * n + (d - 48)) 0

theorem ofDecimal_decimal (n : UInt8) : ofDecimal (decimal n) = n := by
  revert n
  apply forall_byte
  decide +kernel

theorem decimal_injective : Function.Injective decimal :=
  Function.LeftInverse.injective ofDecimal_decimal

theorem boolean_injective : Function.Injective boolean := by
  intro a b
  revert a b
  decide

theorem selfDelimiting_array {α : Type*} {w : α → List UInt8} (h : SelfDelimiting w)
    (hw : ∀ a, ∃ d l, w a = d :: l ∧ d ≠ 93) : SelfDelimiting (array w) :=
  (SelfDelimiting.separated_closed h (by decide) hw).literal [91]

end JsonText
