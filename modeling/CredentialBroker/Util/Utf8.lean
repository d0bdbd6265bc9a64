import Mathlib.Data.List.Basic
import Mathlib.Data.Nat.Bitwise

/-!
# Cutting UTF-8 text

A string as its bytes. Bytes below 128 are characters by themselves and no part of any other, so
text may be cut before one (`exists_append`), and a run of them reads as characters one by one
(`exists_of_isAscii`).
-/

namespace Utf8

/-- The bytes of a string. -/
def bytes (s : String) : List UInt8 := s.toUTF8.data.toList

theorem bytes_eq_flatMap (s : String) : bytes s = s.toList.flatMap String.utf8EncodeChar := by
  unfold bytes
  rw [String.toUTF8, ← String.ofList_toList (s := s), String.toByteArray_ofList, List.utf8Encode,
    List.data_toByteArray, String.ofList_toList]

theorem bytes_append (s t : String) : bytes (s ++ t) = bytes s ++ bytes t := by
  rw [bytes_eq_flatMap, bytes_eq_flatMap, bytes_eq_flatMap, String.toList_append, List.flatMap_append]

theorem bytes_injective : Function.Injective bytes := by
  intro s t h
  apply String.toByteArray_inj.mp
  apply ByteArray.ext
  exact Array.toList_inj.mp h

/-! ## Cuts -/

/-- The position before an ASCII byte is between two characters. -/
theorem isValid_of_ascii {s : String} {front rest : List UInt8} {b : UInt8}
    (h : bytes s = front ++ b :: rest) (hb : b < 128) :
    (⟨front.length⟩ : String.Pos.Raw).IsValid s := by
  have hlen : front.length < (bytes s).length := by
    rw [h]
    simp
  rw [String.Pos.Raw.isValid_iff_isUTF8FirstByte]
  right
  refine ⟨hlen, ?_⟩
  have hbyte : s.getUTF8Byte ⟨front.length⟩ hlen = (bytes s)[front.length] := rfl
  rw [hbyte]
  simp only [h, List.getElem_append_right (Nat.le_refl _), Nat.sub_self, List.getElem_cons_zero]
  left
  rw [← UInt8.toNat_inj, UInt8.toNat_and]
  show b.toNat &&& 2 ^ 7 = 0
  have hlt : b.toNat < 2 ^ 7 := UInt8.lt_iff_toNat_lt.mp hb
  rw [Nat.and_two_pow, Nat.testBit_lt_two_pow hlt]
  rfl

/-- Text is cut in two before an ASCII byte. -/
theorem exists_append {s : String} {front rest : List UInt8} {b : UInt8}
    (h : bytes s = front ++ b :: rest) (hb : b < 128) :
    ∃ t u, s = t ++ u ∧ bytes t = front ∧ bytes u = b :: rest := by
  obtain ⟨t, u, rfl, hend⟩ := String.Pos.Raw.isValid_iff_exists_append.mp (isValid_of_ascii h hb)
  rw [bytes_append] at h
  have hlen : (bytes t).length = front.length := (congrArg String.Pos.Raw.byteIdx hend).symm
  obtain ⟨ht, hu⟩ := List.append_inj h hlen
  exact ⟨t, u, rfl, ht, hu⟩

/-! ## ASCII -/

/-- The character an ASCII byte is. -/
def char (b : UInt8) : Char := Char.ofNat b.toNat

theorem toNat_char (b : UInt8) : (char b).toNat = b.toNat := by
  have hvalid : b.toNat.isValidChar := .inl (Nat.lt_trans b.toNat_lt (by decide))
  unfold char
  rw [Char.ofNat, dif_pos hvalid]
  rfl

/-- ASCII characters are a byte each. -/
theorem utf8EncodeChar_char {b : UInt8} (hb : b < 128) : String.utf8EncodeChar (char b) = [b] := by
  have hle : (char b).val.toNat ≤ 127 := by
    show (char b).toNat ≤ 127
    rw [toNat_char]
    exact Nat.le_of_lt_succ (UInt8.lt_iff_toNat_lt.mp hb)
  unfold String.utf8EncodeChar
  dsimp only
  rw [if_pos hle]
  show [UInt8.ofNat (char b).toNat] = [b]
  rw [toNat_char, UInt8.ofNat_toNat]

theorem bytes_ofList_char {bs : List UInt8} (h : ∀ b ∈ bs, b < 128) :
    bytes (String.ofList (bs.map char)) = bs := by
  rw [bytes_eq_flatMap, String.toList_ofList]
  induction bs with
  | nil => rfl
  | cons b bs ih =>
      rw [List.map_cons, List.flatMap_cons, utf8EncodeChar_char (h b List.mem_cons_self),
        ih fun c hc => h c (List.mem_cons_of_mem b hc)]
      rfl

/-- ASCII characters are written a byte each. -/
theorem bytes_of_ascii {s : String} (h : ∀ c ∈ s.toList, c.toNat < 128) :
    bytes s = s.toList.map (fun c => UInt8.ofNat c.toNat) := by
  rw [bytes_eq_flatMap]
  generalize s.toList = cs at h
  induction cs with
  | nil => rfl
  | cons c cs ih =>
      have hc : c.val.toNat ≤ 127 := Nat.le_of_lt_succ (h c List.mem_cons_self)
      rw [List.flatMap_cons, List.map_cons, ih fun d hd => h d (List.mem_cons_of_mem c hd)]
      unfold String.utf8EncodeChar
      dsimp only
      rw [if_pos hc]
      rfl

/-- ASCII bytes read as characters one by one. -/
theorem toList_of_ascii {s : String} (h : ∀ b ∈ bytes s, b < 128) :
    s.toList = (bytes s).map char := by
  have hbytes := bytes_injective (bytes_ofList_char h)
  rw [← hbytes, String.toList_ofList, hbytes]

end Utf8
