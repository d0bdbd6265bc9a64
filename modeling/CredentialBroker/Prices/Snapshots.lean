import CredentialBroker.Prices
import CredentialBroker.Util.Utf8

/-!
# Snapshots of models

A provider dates the snapshots of a model, `-YYYYMMDD` or `-YYYY-MM-DD`, and a snapshot is priced
as its alias. `undated` finds the date by its bytes from the end of a name that may be any text and
then cuts the name there. `undated_exactly` says, over every string, that the cut is between two
characters, that the name that is left is exactly what the date was put after, and what follows for
the cost of a usage.
-/

namespace CredentialBroker

/-! ## What a snapshot's name is -/

/-- So many ASCII digits. -/
def Digits (count : Nat) (s : String) : Prop :=
  s.toList.length = count ∧ ∀ c ∈ s.toList, c.isDigit = true

/-- `model` is `name` with a date as Anthropic writes it. -/
def CompactlyDated (model name : String) : Prop :=
  ∃ date, Digits 8 date ∧ model = name ++ "-" ++ date

/-- `model` is `name` with a date as OpenAI writes it. -/
def DashedDated (model name : String) : Prop :=
  ∃ year month day, Digits 4 year ∧ Digits 2 month ∧ Digits 2 day ∧
    model = name ++ "-" ++ year ++ "-" ++ month ++ "-" ++ day

/-- `model` is a dated snapshot of `name`. -/
def SnapshotOf (model name : String) : Prop := CompactlyDated model name ∨ DashedDated model name

/-! ## Dates as bytes -/

/-- A byte that is a digit. -/
def IsDigit (b : UInt8) : Prop := 48 ≤ b ∧ b ≤ 57

theorem IsDigit.lt {b : UInt8} (h : IsDigit b) : b < 128 := UInt8.lt_of_le_of_lt h.2 (by decide)

theorem IsDigit.ne_dash {b : UInt8} (h : IsDigit b) : b ≠ dash := by
  rintro rfl
  exact absurd h.1 (by decide)

theorem isDigit_char {b : UInt8} : (Utf8.char b).isDigit = true ↔ IsDigit b := by
  have htoNat : (Utf8.char b).val.toNat = b.toNat := Utf8.toNat_char b
  simp only [Char.isDigit, Bool.and_eq_true, decide_eq_true_eq, IsDigit, ge_iff_le,
    UInt32.le_iff_toNat_le, UInt8.le_iff_toNat_le, htoNat]
  rfl

theorem toNat_lt_of_isDigit {c : Char} (h : c.isDigit = true) : c.toNat < 128 := by
  simp only [Char.isDigit, Bool.and_eq_true, decide_eq_true_eq] at h
  exact Nat.lt_of_le_of_lt (UInt32.le_iff_toNat_le.mp h.2) (by decide)

theorem isDigit_ofNat {c : Char} (h : c.isDigit = true) : IsDigit (UInt8.ofNat c.toNat) := by
  have hlt : c.toNat < 2 ^ 8 := (toNat_lt_of_isDigit h).trans (by decide)
  simp only [Char.isDigit, Bool.and_eq_true, decide_eq_true_eq] at h
  simp only [IsDigit, UInt8.le_iff_toNat_le, UInt8.toNat_ofNat_of_lt' hlt]
  exact ⟨UInt32.le_iff_toNat_le.mp h.1, UInt32.le_iff_toNat_le.mp h.2⟩

theorem utf8_append (s t : String) : utf8 (s ++ t) = utf8 s ++ utf8 t := Utf8.bytes_append s t

theorem utf8_injective : Function.Injective utf8 := Utf8.bytes_injective

theorem utf8_dash : utf8 "-" = [dash] := by decide

/-- Digits are digits, read or written. -/
theorem digits_iff {count : Nat} {s : String} :
    Digits count s ↔ (utf8 s).length = count ∧ ∀ b ∈ utf8 s, IsDigit b := by
  constructor
  · rintro ⟨hlen, hdigits⟩
    have hascii : ∀ c ∈ s.toList, c.toNat < 128 := fun c hc => toNat_lt_of_isDigit (hdigits c hc)
    have hbytes : utf8 s = s.toList.map (fun c => UInt8.ofNat c.toNat) :=
      Utf8.bytes_of_ascii hascii
    rw [hbytes]
    refine ⟨by rw [List.length_map, hlen], ?_⟩
    intro b hb
    obtain ⟨c, hc, rfl⟩ := List.mem_map.mp hb
    exact isDigit_ofNat (hdigits c hc)
  · rintro ⟨hlen, hdigits⟩
    have htext : s.toList = (utf8 s).map Utf8.char :=
      Utf8.toList_of_ascii fun b hb => (hdigits b hb).lt
    refine ⟨by rw [htext, List.length_map, hlen], ?_⟩
    intro c hc
    rw [htext] at hc
    obtain ⟨b, hb, rfl⟩ := List.mem_map.mp hc
    exact isDigit_char.mpr (hdigits b hb)

theorem exists_digits {bs : Bytes} (h : ∀ b ∈ bs, IsDigit b) :
    ∃ s, utf8 s = bs ∧ Digits bs.length s := by
  have hutf8 : utf8 (String.ofList (bs.map Utf8.char)) = bs :=
    Utf8.bytes_ofList_char fun b hb => (h b hb).lt
  refine ⟨_, hutf8, digits_iff.mpr ?_⟩
  rw [hutf8]
  exact ⟨rfl, h⟩

/-- A date of some form, checked by the positions of its dashes. -/
def WellFormed (dashes : List Nat) (date : Bytes) : Prop :=
  date.zipIdx.all (fun b =>
    if b.2 ∈ dashes then b.1 == dash else decide (48 ≤ b.1 ∧ b.1 ≤ 57)) = true

theorem wellFormed_nil_iff {date : Bytes} : WellFormed [] date ↔ ∀ b ∈ date, IsDigit b := by
  unfold WellFormed
  rw [List.all_eq_true]
  constructor
  · intro h b hb
    obtain ⟨i, hi, rfl⟩ := List.getElem_of_mem hb
    have hmem : (date[i], i) ∈ date.zipIdx := by
      rw [List.mem_zipIdx_iff_getElem?]
      simp [hi]
    simpa [IsDigit] using h _ hmem
  · rintro h ⟨b, i⟩ hmem
    have hb := h b (List.fst_mem_of_mem_zipIdx hmem)
    simpa [IsDigit] using hb

/-- The date after a dash at the end of `model` is of the form `undated` looks for, and `name` is
before it. -/
theorem undatedAs_eq_some {model name : Bytes} {len : Nat} {dashes : List Nat} :
    undatedAs model len dashes = some name ↔
      ∃ date, date.length = len ∧ WellFormed dashes date ∧ model = name ++ dash :: date := by
  unfold undatedAs
  constructor
  · intro h
    split at h
    · cases h
    · next hlen =>
        have hdrop := List.take_append_drop (model.length - (len + 1)) model
        have hlength := List.length_drop (l := model) (i := model.length - (len + 1))
        dsimp only at h
        split at h
        · cases h
        · next first date hsuffix =>
            split at h
            · next hwell =>
                obtain ⟨hfirst, hdate⟩ := Bool.and_eq_true _ _ ▸ hwell
                cases h
                rw [hsuffix] at hdrop hlength
                rw [List.length_cons] at hlength
                rw [beq_iff_eq] at hfirst
                exact ⟨date, by omega, hdate, by rw [← hfirst]; exact hdrop.symm⟩
            · cases h
  · rintro ⟨date, rfl, hdate, rfl⟩
    have hlength : (name ++ dash :: date).length = name.length + (date.length + 1) := by simp
    have hstart : (name ++ dash :: date).length - (date.length + 1) = name.length := by omega
    rw [if_neg (by omega)]
    dsimp only
    rw [hstart, List.drop_left, List.take_left]
    exact if_pos (by rw [Bool.and_eq_true]; exact ⟨beq_self_eq_true _, hdate⟩)

/-- Four digits, two and two, with dashes between them. -/
theorem wellFormed_dashes_iff {date : Bytes} :
    date.length = 10 ∧ WellFormed [4, 7] date ↔
      ∃ year month day : Bytes, date = year ++ dash :: (month ++ dash :: day) ∧
        (year.length = 4 ∧ ∀ b ∈ year, IsDigit b) ∧ (month.length = 2 ∧ ∀ b ∈ month, IsDigit b) ∧
          (day.length = 2 ∧ ∀ b ∈ day, IsDigit b) := by
  constructor
  · rintro ⟨hlen, hwell⟩
    match date, hlen with
    | [y₁, y₂, y₃, y₄, first, m₁, m₂, second, d₁, d₂], _ =>
        simp [WellFormed] at hwell
        obtain ⟨hy₁, hy₂, hy₃, hy₄, rfl, hm₁, hm₂, rfl, hd₁, hd₂⟩ := hwell
        refine ⟨[y₁, y₂, y₃, y₄], [m₁, m₂], [d₁, d₂], rfl, ⟨rfl, ?_⟩, ⟨rfl, ?_⟩, ⟨rfl, ?_⟩⟩ <;>
          simp_all [IsDigit]
  · rintro ⟨year, month, day, rfl, ⟨hyear, hyears⟩, ⟨hmonth, hmonths⟩, ⟨hday, hdays⟩⟩
    match year, month, day, hyear, hmonth, hday with
    | [y₁, y₂, y₃, y₄], [m₁, m₂], [d₁, d₂], _, _, _ =>
        simp_all [WellFormed, IsDigit]

/-! ## What `undated` cuts off -/

/-- A name is cut before its date. -/
theorem exists_name {model : String} {name date : Bytes} (h : utf8 model = name ++ dash :: date) :
    ∃ front rest, model = front ++ rest ∧ utf8 front = name ∧ utf8 rest = dash :: date :=
  Utf8.exists_append h (by decide)

theorem compactlyDated_iff {model name : String} :
    CompactlyDated model name ↔ undatedAs (utf8 model) 8 [] = some (utf8 name) := by
  rw [undatedAs_eq_some]
  constructor
  · rintro ⟨date, hdate, rfl⟩
    obtain ⟨hlen, hdigits⟩ := digits_iff.mp hdate
    refine ⟨utf8 date, hlen, wellFormed_nil_iff.mpr hdigits, ?_⟩
    rw [utf8_append, utf8_append, utf8_dash, List.append_assoc]
    rfl
  · rintro ⟨bytes, hlen, hwell, hmodel⟩
    obtain ⟨date, rfl, hdate⟩ := exists_digits (wellFormed_nil_iff.mp hwell)
    refine ⟨date, hlen ▸ hdate, utf8_injective ?_⟩
    rw [hmodel, utf8_append, utf8_append, utf8_dash, List.append_assoc]
    rfl

theorem dashedDated_iff {model name : String} :
    DashedDated model name ↔ undatedAs (utf8 model) 10 [4, 7] = some (utf8 name) := by
  rw [undatedAs_eq_some]
  constructor
  · rintro ⟨year, month, day, hyear, hmonth, hday, rfl⟩
    obtain ⟨hlen, hwell⟩ := wellFormed_dashes_iff.mpr
      ⟨_, _, _, rfl, digits_iff.mp hyear, digits_iff.mp hmonth, digits_iff.mp hday⟩
    refine ⟨_, hlen, hwell, ?_⟩
    simp only [utf8_append, utf8_dash, List.append_assoc]
    rfl
  · rintro ⟨bytes, hlen, hwell, hmodel⟩
    obtain ⟨_, _, _, rfl, ⟨hyear, hyears⟩, ⟨hmonth, hmonths⟩, ⟨hday, hdays⟩⟩ :=
      wellFormed_dashes_iff.mp ⟨hlen, hwell⟩
    obtain ⟨year, rfl, hyear'⟩ := exists_digits hyears
    obtain ⟨month, rfl, hmonth'⟩ := exists_digits hmonths
    obtain ⟨day, rfl, hday'⟩ := exists_digits hdays
    refine ⟨year, month, day, hyear ▸ hyear', hmonth ▸ hmonth', hday ▸ hday', utf8_injective ?_⟩
    rw [hmodel]
    simp only [utf8_append, utf8_dash, List.append_assoc]
    rfl

/-- No name is dated in both forms: one has a dash where the other has a digit. -/
theorem not_both_dated {model name name' : String} (h : CompactlyDated model name)
    (h' : DashedDated model name') : False := by
  obtain ⟨date, hlen, hwell, hmodel⟩ := undatedAs_eq_some.mp (compactlyDated_iff.mp h)
  obtain ⟨date', hlen', hwell', hmodel'⟩ := undatedAs_eq_some.mp (dashedDated_iff.mp h')
  obtain ⟨year, month, day, rfl, -, -, hday, -⟩ := wellFormed_dashes_iff.mp ⟨hlen', hwell'⟩
  have hsuffix : date <:+ utf8 model := ⟨utf8 name ++ [dash], by rw [hmodel]; simp⟩
  have hsuffix' : dash :: day <:+ utf8 model :=
    ⟨utf8 name' ++ dash :: (year ++ dash :: month), by rw [hmodel']; simp⟩
  have hday : (dash :: day).length ≤ date.length := by
    rw [List.length_cons, hday, hlen]
    decide
  have hmem : dash ∈ date :=
    (List.suffix_of_suffix_length_le hsuffix' hsuffix hday).subset List.mem_cons_self
  exact (wellFormed_nil_iff.mp hwell dash hmem).ne_dash rfl

theorem undated_eq_some {model name : String} :
    undated (utf8 model) = some (utf8 name) ↔ SnapshotOf model name := by
  unfold undated SnapshotOf
  cases hcompact : undatedAs (utf8 model) 8 [] with
  | none =>
      rw [compactlyDated_iff, dashedDated_iff, hcompact]
      simp
  | some bytes =>
      obtain ⟨date, -, -, hmodel⟩ := undatedAs_eq_some.mp hcompact
      obtain ⟨front, -, -, rfl, -⟩ := exists_name hmodel
      have hdated := compactlyDated_iff.mpr hcompact
      constructor
      · intro h
        rw [← utf8_injective (Option.some.inj h)]
        exact .inl hdated
      · rintro (h | h)
        · exact hcompact.symm.trans (compactlyDated_iff.mp h)
        · exact (not_both_dated hdated h).elim

/-- What is left of a dated name is text again. -/
theorem exists_of_undated {model : String} {bytes : Bytes} (h : undated (utf8 model) = some bytes) :
    ∃ name, bytes = utf8 name := by
  have hcut : ∃ len dashes, undatedAs (utf8 model) len dashes = some bytes := by
    unfold undated at h
    split at h
    · next name hcompact => exact ⟨8, [], hcompact.trans h⟩
    · exact ⟨10, [4, 7], h⟩
  obtain ⟨len, dashes, hcut⟩ := hcut
  obtain ⟨date, -, -, hmodel⟩ := undatedAs_eq_some.mp hcut
  obtain ⟨front, -, -, rfl, -⟩ := exists_name hmodel
  exact ⟨front, rfl⟩

/-! ## What it costs -/

/-- The table prices a name. -/
def InTable (model : String) : Prop := ∃ price ∈ Price.table, price.model = model

theorem find_isSome {model : String} :
    (Price.find (utf8 model)).isSome = true ↔ InTable model := by
  unfold Price.find InTable
  rw [List.find?_isSome]
  simp [utf8_injective.eq_iff]

theorem find_eq_none {model : String} : Price.find (utf8 model) = none ↔ ¬ InTable model := by
  rw [← find_isSome]
  simp

/-- No name of the table is dated. -/
theorem undated_table : ∀ price ∈ Price.table, undated (utf8 price.model) = none := by
  decide +kernel

/-- A snapshot has the price of its alias. -/
theorem ofModel_snapshot {model name : String} (h : SnapshotOf model name) (hname : InTable name) :
    Price.ofModel (utf8 model) = Price.ofModel (utf8 name) := by
  have hundated := undated_eq_some.mpr h
  have hnone : Price.find (utf8 model) = none := by
    rw [find_eq_none]
    rintro ⟨price, hprice, rfl⟩
    rw [undated_table price hprice] at hundated
    cases hundated
  obtain ⟨price, hprice⟩ := Option.isSome_iff_exists.mp (find_isSome.mpr hname)
  unfold Price.ofModel
  rw [hnone, hundated, hprice]
  exact hprice

theorem ofModel_eq_none {model : String} :
    Price.ofModel (utf8 model) = none ↔
      ¬ InTable model ∧ ∀ name, SnapshotOf model name → ¬ InTable name := by
  unfold Price.ofModel
  rw [← find_eq_none]
  cases hfind : Price.find (utf8 model) with
  | some price => simp
  | none =>
      simp only [true_and]
      constructor
      · intro h name hsnapshot
        rw [undated_eq_some.mpr hsnapshot, Option.bind_some] at h
        exact find_eq_none.mp h
      · intro h
        cases hundated : undated (utf8 model) with
        | none => rfl
        | some bytes =>
            obtain ⟨name, rfl⟩ := exists_of_undated hundated
            exact find_eq_none.mpr (h name (undated_eq_some.mp hundated))

/-- The cost of a usage is that of its model's price. -/
theorem cost_of_model {usage : Usage} {model : String} (h : usage.model = some model) :
    cost usage = (Price.ofModel (utf8 model)).map fun price =>
      roundMicros ((price.ratesFor (usage.tokens.input.satAdd usage.tokens.cacheRead)).micros
        usage) := by
  unfold cost
  rw [h]
  cases hprice : Price.ofModel (utf8 model) <;> simp [hprice]

/-! ## Every name -/

/-- What is promised of stripping a name. -/
structure StrippedExactly (model : String) : Prop where
  /-- The bytes looked at are there: a first one, and as many after it as the date has. -/
  inRange : ∀ len, len + 1 ≤ (utf8 model).length →
    ((utf8 model).drop ((utf8 model).length - (len + 1))).length = len + 1
  /-- Where the name is cut there is a character boundary. -/
  boundary : ∀ len dashes bytes, undatedAs (utf8 model) len dashes = some bytes →
    (⟨(utf8 model).length - (len + 1)⟩ : String.Pos.Raw).IsValid model ∧
      ∃ name rest, model = name ++ rest ∧ utf8 name = bytes
  /-- What is found is what the name is a snapshot of. -/
  exact : ∀ bytes, undated (utf8 model) = some bytes ↔
    ∃ name, utf8 name = bytes ∧ SnapshotOf model name
  exclusive : ∀ name name', ¬ (CompactlyDated model name ∧ DashedDated model name')
  unique : ∀ name name', SnapshotOf model name → SnapshotOf model name' → name = name'
  /-- A snapshot of a model in the table costs what the model does. -/
  priced : ∀ usage name, usage.model = some model → SnapshotOf model name → InTable name →
    cost usage = cost { usage with model := some name }
  /-- A name that is not in the table and not a snapshot of one that is has no price. -/
  unpriced : ∀ usage, usage.model = some model → ¬ InTable model →
    (∀ name, SnapshotOf model name → ¬ InTable name) → cost usage = none

/-- **Snapshot dates are stripped exactly**, of every string. -/
theorem undated_exactly (model : String) : StrippedExactly model where
  inRange := by
    intro len hlen
    rw [List.length_drop]
    omega
  boundary := by
    intro len dashes bytes h
    obtain ⟨date, rfl, -, hmodel⟩ := undatedAs_eq_some.mp h
    have hstart : (utf8 model).length - (date.length + 1) = bytes.length := by
      rw [hmodel, List.length_append, List.length_cons]
      omega
    rw [hstart]
    refine ⟨Utf8.isValid_of_ascii hmodel (by decide), ?_⟩
    obtain ⟨name, rest, hcut, hname, -⟩ := exists_name hmodel
    exact ⟨name, rest, hcut, hname⟩
  exact := by
    intro bytes
    constructor
    · intro h
      obtain ⟨name, rfl⟩ := exists_of_undated h
      exact ⟨name, rfl, undated_eq_some.mp h⟩
    · rintro ⟨name, rfl, h⟩
      exact undated_eq_some.mpr h
  exclusive := by
    rintro name name' ⟨hcompact, hdashed⟩
    exact not_both_dated hcompact hdashed
  unique := by
    intro name name' h h'
    have heq := (undated_eq_some.mpr h).symm.trans (undated_eq_some.mpr h')
    exact utf8_injective (Option.some.inj heq)
  priced := by
    intro usage name hmodel hsnapshot hname
    have hrenamed : { usage with model := some name }.model = some name := rfl
    rw [cost_of_model hmodel, cost_of_model hrenamed, ofModel_snapshot hsnapshot hname]
    rfl
  unpriced := by
    intro usage hmodel hnot hsnapshots
    rw [cost_of_model hmodel, ofModel_eq_none.mpr ⟨hnot, hsnapshots⟩]
    rfl

end CredentialBroker
