import CredentialBroker.Basic
import CredentialBroker.Util.Numeral

/-!
# Headers

A header map is the list of its fields in order, each name in lower case, as the HTTP library keeps
it: a name may have several values. Values are bytes; `toStr` is the library's reading of one as
text, which only visible ASCII and tabs have.
-/

namespace CredentialBroker

/-- The header fields of a message, with lower-case names. -/
abbrev HeaderMap := List (String × Bytes)

namespace HeaderMap

/-- All values of a name, in order. -/
def getAll (headers : HeaderMap) (name : String) : List Bytes :=
  (headers.filter (fun field => field.1 = name)).map Prod.snd

/-- The first value of a name. -/
def get (headers : HeaderMap) (name : String) : Option Bytes := (headers.getAll name).head?

def containsKey (headers : HeaderMap) (name : String) : Bool :=
  headers.any (fun field => field.1 = name)

/-- Remove every value of several names. -/
def removeAll (headers : HeaderMap) (names : List String) : HeaderMap :=
  headers.filter (fun field => field.1 ∉ names)

/-- `HeaderMap::insert`: one value of a name in place of all it had. -/
def insert (headers : HeaderMap) (name : String) (value : Bytes) : HeaderMap :=
  headers.removeAll [name] ++ [(name, value)]

/-- `HeaderValue::to_str`: a value as text. -/
def toStr (value : Bytes) : Option Bytes :=
  if value.all (fun b => (32 ≤ b && b < 127) || b = 9) then some value else none

theorem mem_getAll {headers : HeaderMap} {name : String} {value : Bytes} :
    value ∈ headers.getAll name ↔ (name, value) ∈ headers := by
  unfold getAll
  rw [List.mem_map]
  constructor
  · rintro ⟨⟨other, _⟩, hmem, rfl⟩
    rw [List.mem_filter, decide_eq_true_eq] at hmem
    obtain ⟨hmem, rfl⟩ := hmem
    exact hmem
  · intro hmem
    exact ⟨(name, value), List.mem_filter.mpr ⟨hmem, decide_eq_true rfl⟩, rfl⟩

theorem containsKey_eq_false {headers : HeaderMap} {name : String} :
    headers.containsKey name = false ↔ headers.getAll name = [] := by
  unfold containsKey getAll
  rw [List.any_eq_false, List.map_eq_nil_iff, List.filter_eq_nil_iff]

theorem getAll_append (headers headers' : HeaderMap) (name : String) :
    HeaderMap.getAll (headers ++ headers') name = headers.getAll name ++ headers'.getAll name := by
  unfold getAll
  rw [List.filter_append, List.map_append]

theorem getAll_removeAll (headers : HeaderMap) (names : List String) (name : String) :
    (headers.removeAll names).getAll name = if name ∈ names then [] else headers.getAll name := by
  unfold removeAll getAll
  rw [List.filter_filter]
  split
  · next hmem =>
      rw [List.map_eq_nil_iff, List.filter_eq_nil_iff]
      intro field _ hfield
      rw [Bool.and_eq_true, decide_eq_true_eq, decide_eq_true_eq] at hfield
      exact hfield.2 (hfield.1 ▸ hmem)
  · next hmem =>
      refine congrArg _ (List.filter_congr fun field _ => ?_)
      by_cases hname : field.1 = name
      · rw [hname]
        simp [hmem]
      · simp [hname]

theorem getAll_insert (headers : HeaderMap) (name : String) (value : Bytes) (other : String) :
    (headers.insert name value).getAll other =
      if other = name then [value] else headers.getAll other := by
  unfold insert
  rw [getAll_append, getAll_removeAll]
  by_cases hother : other = name
  · subst hother
    simp [getAll]
  · simp [getAll, hother, Ne.symm hother]

/-- What is filtered by name keeps the values of a name that passes, and none of another. -/
theorem getAll_filter (headers : HeaderMap) (p : String → Bool) (name : String) :
    HeaderMap.getAll (headers.filter fun field => p field.1) name =
      if p name then headers.getAll name else [] := by
  unfold getAll
  rw [List.filter_filter]
  split
  · next hp =>
      refine congrArg _ (List.filter_congr fun field _ => ?_)
      by_cases hname : field.1 = name
      · simp [hname, hp]
      · simp [hname]
  · next hp =>
      rw [List.map_eq_nil_iff, List.filter_eq_nil_iff]
      intro field _ hfield
      rw [Bool.and_eq_true, decide_eq_true_eq] at hfield
      exact hp (hfield.1 ▸ hfield.2)

theorem get_eq_none {headers : HeaderMap} {name : String} :
    headers.get name = none ↔ headers.getAll name = [] :=
  List.head?_eq_none_iff

theorem mem_getAll_of_get {headers : HeaderMap} {name : String} {value : Bytes}
    (h : headers.get name = some value) : value ∈ headers.getAll name :=
  List.mem_of_mem_head? h

/-- Of a name with at most one value, the first value is the only one. -/
theorem getAll_eq_toList {headers : HeaderMap} {name : String}
    (h : (headers.getAll name).length ≤ 1) :
    headers.getAll name = (headers.get name).toList := by
  unfold get
  match hvalues : headers.getAll name with
  | [] => rfl
  | [_] => rfl
  | _ :: _ :: _ =>
      rw [hvalues] at h
      exact absurd h (by simp)

/-! ## Readings of a single value -/

/-- `text`: the value of a name that has exactly one. -/
def text (headers : HeaderMap) (name : String) : Option Bytes :=
  match headers.getAll name with
  | [value] => toStr value
  | _ => none

/-- `number`, of a 64-bit integer. -/
def number (headers : HeaderMap) (name : String) : Option UInt64 :=
  (headers.text name).bind Numeral.parseU64

/-- `percent`: a finite number from 0 to `max`. -/
def percent (headers : HeaderMap) (name : String) (max : ℚ) : Option ℚ :=
  ((headers.text name).bind Numeral.parseReal64).bind (Numeral.Real64.inRange 0 max)

theorem percent_mem {headers : HeaderMap} {name : String} {max q : ℚ}
    (h : headers.percent name max = some q) : 0 ≤ q ∧ q ≤ max := by
  obtain ⟨x, -, hx⟩ := Option.bind_eq_some_iff.mp h
  exact (Numeral.Real64.inRange_eq_some.mp hx).2

end HeaderMap

end CredentialBroker
