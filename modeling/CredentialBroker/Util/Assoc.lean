import Mathlib.Data.List.AList
import Mathlib.Data.String.Basic

/-!
# Finite maps with in-place updates

A finite map is Mathlib's `AList` over a constant family: a list of entries with pairwise distinct
keys. `AList` has `lookup`, `insert` and `erase`; what a program also does to a map — keep only the
entries that pass a test, change every value, change the value at one key, drop a list of keys,
count — is added here, each with the one equation about `lookup` (or about the number of entries)
that later proofs rewrite with, so none of them looks at the entry list.
-/

/-- A finite map from `K` to `V`. -/
abbrev Assoc (K V : Type*) := AList (fun _ : K => V)

namespace Assoc

variable {K V W : Type*}

/-- The number of entries. -/
def size (m : Assoc K V) : Nat := m.entries.length

/-- The number of entries whose key passes `p`. -/
def countKeys (p : K → Bool) (m : Assoc K V) : Nat := m.keys.countP p

/-- Change every value. -/
def mapVals (f : K → V → W) (m : Assoc K V) : Assoc K W :=
  ⟨m.entries.map (fun e => ⟨e.1, f e.1 e.2⟩), List.NodupKeys.map₂ f m.entries m.nodupKeys⟩

/-- Keep the entries that pass `p`. -/
def retain (p : K → V → Bool) (m : Assoc K V) : Assoc K V :=
  ⟨m.entries.filter (fun e => p e.1 e.2),
    m.nodupKeys.sublist List.filter_sublist⟩

/-- The values. -/
def values (m : Assoc K V) : List V := m.entries.map (fun e => e.2)

/-- The number of entries whose value passes `p`. -/
def countVals (p : V → Bool) (m : Assoc K V) : Nat := m.values.countP p

/-- The entries in the order of their keys. -/
def sorted [LinearOrder K] (m : Assoc K V) : List (Σ _ : K, V) :=
  m.entries.mergeSort (fun a b => decide (a.1 ≤ b.1))

variable [DecidableEq K]

/-- Change the value at `k`, if there is one. -/
def modify (k : K) (f : V → V) (m : Assoc K V) : Assoc K V :=
  m.mapVals (fun k' v => if k' = k then f v else v)

/-- Drop every key of a list. -/
def eraseAll (ks : List K) (m : Assoc K V) : Assoc K V :=
  ks.foldl (fun m k => m.erase k) m

/-! ## Lookups -/

@[simp] theorem lookup_mapVals (f : K → V → W) (m : Assoc K V) (k : K) :
    (m.mapVals f).lookup k = (m.lookup k).map (f k) :=
  List.dlookup_map₂ k

/-- Filtering a list with distinct keys filters what is found at each key. -/
private theorem dlookup_filter (p : K → V → Bool) (k : K) :
    ∀ {l : List (Σ _ : K, V)}, l.NodupKeys →
      (l.filter (fun e => p e.1 e.2)).dlookup k = (l.dlookup k).filter (p k)
  | [], _ => rfl
  | ⟨k', v⟩ :: l, h => by
    obtain ⟨hk', hl⟩ := List.nodupKeys_cons.mp h
    have ih := dlookup_filter p k hl
    by_cases hk : k = k'
    · subst hk
      rw [List.dlookup_cons_eq]
      by_cases hp : p k v
      · rw [List.filter_cons_of_pos (by simpa using hp), List.dlookup_cons_eq]
        simp [Option.filter, hp]
      · rw [List.filter_cons_of_neg (by simpa using hp), ih, List.dlookup_eq_none.mpr hk']
        simp [Option.filter, hp]
    · have hne : ∀ l : List (Σ _ : K, V), (⟨k', v⟩ :: l).dlookup k = l.dlookup k :=
        fun l => List.dlookup_cons_ne l ⟨k', v⟩ hk
      rw [hne, ← ih]
      by_cases hp : p k' v
      · rw [List.filter_cons_of_pos (by simpa using hp), hne]
      · rw [List.filter_cons_of_neg (by simpa using hp)]

@[simp] theorem lookup_retain (p : K → V → Bool) (m : Assoc K V) (k : K) :
    (m.retain p).lookup k = (m.lookup k).filter (p k) :=
  dlookup_filter p k m.nodupKeys

theorem lookup_insert_eq (m : Assoc K V) (k k' : K) (v : V) :
    (m.insert k v).lookup k' = if k' = k then some v else m.lookup k' := by
  split
  · next h => subst h; exact AList.lookup_insert m
  · next h => exact AList.lookup_insert_ne h

/-- An entry stays as it is if what is inserted is not in its place. -/
theorem lookup_insert_of_ne {m : Assoc K V} {k k' : K} {v w : V} (hk : m.lookup k ≠ some w)
    (h : m.lookup k' = some w) : (m.insert k v).lookup k' = some w := by
  have hne : k' ≠ k := by
    rintro rfl
    exact hk h
  rw [lookup_insert_eq, if_neg hne]
  exact h

/-- Putting in what is there changes nothing that is looked up. -/
theorem lookup_insert_of_eq {m : Assoc K V} {k : K} {v : V} (h : m.lookup k = some v) (k' : K) :
    (m.insert k v).lookup k' = m.lookup k' := by
  rw [lookup_insert_eq]
  split
  · next heq => rw [heq, h]
  · rfl

theorem lookup_erase_eq (m : Assoc K V) (k k' : K) :
    (m.erase k).lookup k' = if k' = k then none else m.lookup k' := by
  split
  · next h => subst h; exact AList.lookup_erase k' m
  · next h => exact AList.lookup_erase_ne h

theorem lookup_modify (m : Assoc K V) (k k' : K) (f : V → V) :
    (m.modify k f).lookup k' = if k' = k then (m.lookup k').map f else m.lookup k' := by
  unfold modify
  rw [lookup_mapVals]
  split <;> simp

theorem lookup_eraseAll (ks : List K) (m : Assoc K V) (k : K) :
    (m.eraseAll ks).lookup k = if k ∈ ks then none else m.lookup k := by
  induction ks generalizing m with
  | nil => simp [eraseAll]
  | cons k' ks ih =>
      have hstep : m.eraseAll (k' :: ks) = Assoc.eraseAll ks (m.erase k') := rfl
      rw [hstep, ih, lookup_erase_eq]
      by_cases hk : k = k' <;> by_cases hks : k ∈ ks <;> simp [hk, hks]

theorem mem_values {m : Assoc K V} {v : V} : v ∈ m.values ↔ ∃ k, m.lookup k = some v := by
  unfold values
  rw [List.mem_map]
  constructor
  · rintro ⟨⟨k, v'⟩, hmem, rfl⟩
    exact ⟨k, AList.mem_lookup_iff.mpr hmem⟩
  · rintro ⟨k, hk⟩
    exact ⟨⟨k, v⟩, AList.mem_lookup_iff.mp hk, rfl⟩

/-! ## In order -/

/-- In order, a map is what it holds at each key. -/
theorem sorted_congr [LinearOrder K] {m m' : Assoc K V} (h : ∀ k, m.lookup k = m'.lookup k) :
    m.sorted = m'.sorted := by
  have hmem : ∀ e, e ∈ m.entries ↔ e ∈ m'.entries := by
    rintro ⟨k, v⟩
    rw [← AList.mem_lookup_iff, ← AList.mem_lookup_iff, h]
  have hperm : m.sorted.Perm m'.sorted := by
    refine (List.mergeSort_perm _ _).trans (.trans ?_ (List.mergeSort_perm _ _).symm)
    exact (List.perm_ext_iff_of_nodup m.nodupKeys.nodup m'.nodupKeys.nodup).mpr hmem
  have hpairwise : ∀ n : Assoc K V, n.sorted.Pairwise (fun a b => decide (a.1 ≤ b.1) = true) := by
    intro n
    apply List.pairwise_mergeSort
    · intro a b c hab hbc
      exact decide_eq_true ((of_decide_eq_true hab).trans (of_decide_eq_true hbc))
    · intro a b
      rw [Bool.or_eq_true, decide_eq_true_eq, decide_eq_true_eq]
      exact le_total a.1 b.1
  refine hperm.eq_of_pairwise ?_ (hpairwise m) (hpairwise m')
  intro a b ha hb hab hba
  -- two entries with one key are one entry
  have hkey : a.1 = b.1 := le_antisymm (of_decide_eq_true hab) (of_decide_eq_true hba)
  have ha' := AList.mem_lookup_iff.mpr ((List.mergeSort_perm _ _).mem_iff.mp ha)
  have hb' := AList.mem_lookup_iff.mpr ((List.mergeSort_perm _ _).mem_iff.mp hb)
  rw [h, hkey] at ha'
  exact Sigma.ext hkey (heq_of_eq (Option.some.inj (ha'.symm.trans hb')))

/-! ## Counting keys -/

omit [DecidableEq K] in
theorem size_eq_countKeys (m : Assoc K V) : m.size = m.countKeys (fun _ => true) := by
  unfold size countKeys
  rw [List.countP_true]
  exact (List.length_map _).symm

omit [DecidableEq K] in
/-- The keys that split by `p` are all of them. -/
theorem size_eq_add (p : K → Bool) (m : Assoc K V) :
    m.size = m.countKeys p + m.countKeys (fun k => !p k) := by
  have hlen : m.size = m.keys.length := (List.length_map _).symm
  rw [hlen, List.length_eq_countP_add_countP p]
  simp [countKeys]

/-- Any list of the keys that pass, each once, counts them. -/
theorem countKeys_eq_length {p : K → Bool} {m : Assoc K V} {ks : List K} (hnd : ks.Nodup)
    (hks : ∀ k, k ∈ ks ↔ p k = true ∧ (m.lookup k).isSome = true) :
    m.countKeys p = ks.length := by
  unfold countKeys
  rw [List.countP_eq_length_filter]
  refine List.Perm.length_eq ((List.perm_ext_iff_of_nodup (m.keys_nodup.filter _) hnd).mpr ?_)
  intro k
  rw [List.mem_filter, hks, AList.lookup_isSome, and_comm]
  rfl

theorem keys_insert {m : Assoc K V} {k : K} (v : V) (h : m.lookup k = none) :
    (m.insert k v).keys = k :: m.keys := by
  unfold AList.keys
  rw [AList.entries_insert_of_notMem (AList.lookup_eq_none.mp h)]
  rfl

theorem keys_modify (m : Assoc K V) (k : K) (f : V → V) : (m.modify k f).keys = m.keys :=
  List.map₂_keys (fun k' v => if k' = k then f v else v) m.entries

omit [DecidableEq K] in
theorem size_eq_length_keys (m : Assoc K V) : m.size = m.keys.length := (List.length_map _).symm

theorem size_insert {m : Assoc K V} {k : K} (v : V) (h : m.lookup k = none) :
    Assoc.size (m.insert k v) = m.size + 1 := by
  rw [size_eq_length_keys, size_eq_length_keys, keys_insert v h, List.length_cons]

theorem size_modify (m : Assoc K V) (k : K) (f : V → V) : (m.modify k f).size = m.size := by
  rw [size_eq_length_keys, size_eq_length_keys, keys_modify]

/-- Filling an absent key adds one to the count if the key passes. -/
theorem countKeys_insert {p : K → Bool} {m : Assoc K V} {k : K} (v : V) (h : m.lookup k = none) :
    Assoc.countKeys p (m.insert k v) = m.countKeys p + if p k then 1 else 0 := by
  unfold countKeys
  rw [keys_insert v h, List.countP_cons]

theorem countKeys_modify (p : K → Bool) (m : Assoc K V) (k : K) (f : V → V) :
    (m.modify k f).countKeys p = m.countKeys p := by
  unfold countKeys
  rw [keys_modify]

omit [DecidableEq K] in
/-- Changing values and dropping entries leaves no more keys of any kind. -/
theorem countKeys_retain_mapVals_le (p : K → Bool) (q : K → W → Bool) (f : K → V → W)
    (m : Assoc K V) : ((m.mapVals f).retain q).countKeys p ≤ m.countKeys p := by
  have hsub : ((m.mapVals f).retain q).keys.Sublist m.keys := by
    have hmap : (m.mapVals f).keys = m.keys := List.map₂_keys f m.entries
    rw [← hmap]
    exact List.filter_sublist.map _
  exact hsub.countP_le

/-- Two maps that are inverse to each other, up to what the values carry, have as many entries. -/
theorem size_eq_of_inverse {L : Type*} [DecidableEq L] {m : Assoc K V} {n : Assoc L K} (f : V → L)
    (h : ∀ l k, n.lookup l = some k ↔ ∃ v, m.lookup k = some v ∧ f v = l) : n.size = m.size := by
  have hvalues : n.size = n.values.length := (List.length_map _).symm
  rw [hvalues, size_eq_countKeys]
  refine (countKeys_eq_length ?_ ?_).symm
  · -- an entry's key is what the other map holds at its value, so no value repeats
    unfold values
    refine (List.nodup_map_iff_inj_on (List.Nodup.of_map _ n.keys_nodup)).mpr ?_
    rintro ⟨l, k⟩ he ⟨l', k'⟩ he' hk
    obtain ⟨v, hv, rfl⟩ := (h l k).mp (AList.mem_lookup_iff.mpr he)
    obtain ⟨v', hv', rfl⟩ := (h l' k').mp (AList.mem_lookup_iff.mpr he')
    simp only at hk
    subst hk
    rw [hv, Option.some.injEq] at hv'
    rw [hv']
  · intro k
    rw [mem_values, Option.isSome_iff_exists]
    constructor
    · rintro ⟨l, hl⟩
      obtain ⟨v, hv, -⟩ := (h l k).mp hl
      exact ⟨rfl, v, hv⟩
    · rintro ⟨-, v, hv⟩
      exact ⟨f v, (h (f v) k).mpr ⟨v, hv, rfl⟩⟩

/-! ## Counting values -/

theorem countVals_eq_zero {p : V → Bool} {m : Assoc K V}
    (h : ∀ k v, m.lookup k = some v → p v = false) : m.countVals p = 0 := by
  apply List.countP_eq_zero.mpr
  intro v hv
  obtain ⟨k, hk⟩ := mem_values.mp hv
  simp [h k v hk]

theorem countVals_insert {p : V → Bool} {m : Assoc K V} {k : K} (v : V)
    (h : m.lookup k = none) :
    Assoc.countVals p (m.insert k v) = m.countVals p + if p v then 1 else 0 := by
  have hentries : (m.insert k v).entries = ⟨k, v⟩ :: m.entries :=
    AList.entries_insert_of_notMem (AList.lookup_eq_none.mp h)
  unfold countVals values
  rw [hentries, List.map_cons, List.countP_cons]

/-- Erasing an entry lowers the count by one if its value passes. -/
theorem countVals_erase {p : V → Bool} {m : Assoc K V} {k : K} {v : V}
    (h : m.lookup k = some v) :
    m.countVals p = Assoc.countVals p (m.erase k) + if p v then 1 else 0 := by
  have hmem : k ∈ m.entries.keys := AList.lookup_isSome.mp (by rw [h]; rfl)
  obtain ⟨v', l₁, l₂, hk, hl, herase⟩ := List.exists_of_kerase hmem
  have hv : v' = v := by
    have hv' : ⟨k, v'⟩ ∈ m.entries := by rw [hl]; simp
    have hlook : m.lookup k = some v' := AList.mem_lookup_iff.mpr hv'
    rw [h] at hlook
    exact (Option.some.inj hlook).symm
  have hentries : (m.erase k).entries = l₁ ++ l₂ := herase
  unfold countVals values
  rw [hentries, hl, hv]
  simp only [List.map_append, List.map_cons, List.countP_append, List.countP_cons]
  omega

/-- The count with an entry put in, whether or not there was one. -/
theorem countVals_insert_eq (p : V → Bool) (m : Assoc K V) (k : K) (v : V) :
    Assoc.countVals p (m.insert k v) =
      Assoc.countVals p (m.erase k) + if p v then 1 else 0 := by
  unfold countVals values
  rw [AList.entries_insert, List.map_cons, List.countP_cons]
  rfl

/-- Replacing a value moves the count by what the two values pass. -/
theorem countVals_replace {p : V → Bool} {m : Assoc K V} {k : K} {v : V} (w : V)
    (h : m.lookup k = some v) :
    Assoc.countVals p (m.insert k w) + (if p v then 1 else 0) =
      m.countVals p + if p w then 1 else 0 := by
  rw [countVals_insert_eq, countVals_erase h]
  omega

/-- The count with one entry taken out, if it is there. -/
theorem countVals_eq_erase_add (p : V → Bool) (m : Assoc K V) (k : K) :
    m.countVals p = Assoc.countVals p (m.erase k) + if (m.lookup k).any p then 1 else 0 := by
  cases h : m.lookup k with
  | some v => exact countVals_erase h
  | none =>
      have hentries : (m.erase k).entries = m.entries :=
        List.kerase_of_notMem_keys (AList.lookup_eq_none.mp h)
      unfold countVals values
      rw [hentries]
      rfl

/-- Changing values in place changes no count they pass alike. -/
theorem countVals_modify {p : V → Bool} {m : Assoc K V} {k : K} {f : V → V}
    (h : ∀ v, p (f v) = p v) : (m.modify k f).countVals p = m.countVals p := by
  unfold countVals values modify mapVals
  rw [List.map_map, List.countP_map, List.countP_map]
  apply List.countP_congr
  intro e _
  simp only [Function.comp]
  split <;> simp [h]

end Assoc
