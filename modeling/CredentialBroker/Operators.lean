import CredentialBroker.Basic
import CredentialBroker.Util.Checked

/-!
# Operators

Operator tokens: long-lived bearer tokens with which a person uses the injected routes outside any
registered run. A deployment's tokens file names each operator by the hash of its token, says which
injected clusters the token may use, and how many requests of it may be in flight.
-/

namespace CredentialBroker

/-- Operators a tokens file may name. -/
def maxOperators : Nat := 16

/-- An operator of the deployment. -/
structure Operator where
  name : String
  /-- The injected clusters its token may use. -/
  clusters : List String
  concurrency : Nat
  consumer : Consumer
  inFlight : Nat
  deriving DecidableEq, Repr

namespace Operator

/-- The operator as an authenticated subject, which budgets are keyed on. -/
def subject (operator : Operator) : String := "operator:" ++ operator.name

inductive Refusal where
  /-- The token is not for this cluster. -/
  | forbidden
  | busy
  deriving DecidableEq, Repr

/-- A request admitted for an operator, holding one of its slots until its response ends. -/
structure Slot where
  name : String
  consumer : Consumer
  /-- The request uses no tokens, like counting them. -/
  usageFree : Bool
  deriving DecidableEq, Repr

/-- `Operator::admit`: admit a request for `cluster` within the operator's concurrency. -/
def admitRequest (operator : Operator) (cluster : String) : Operator × Except Refusal Slot :=
  if cluster ∉ operator.clusters then (operator, .error .forbidden)
  else if operator.concurrency ≤ operator.inFlight then (operator, .error .busy)
  else
    ({ operator with inFlight := operator.inFlight + 1 },
      .ok ⟨operator.name, operator.consumer, false⟩)

/-- Only a request for one of the operator's clusters that finds a slot free is admitted. -/
theorem admit_ok {operator operator' : Operator} {cluster : String} {slot : Slot}
    (h : operator.admitRequest cluster = (operator', .ok slot)) :
    cluster ∈ operator.clusters ∧ operator.inFlight < operator.concurrency := by
  unfold admitRequest at h
  split at h
  · cases h
  · next hmem =>
      split at h
      · cases h
      · next hfree => exact ⟨not_not.mp hmem, Nat.not_le.mp hfree⟩

end Operator

/-- The operators of a deployment, by the hash of their tokens. -/
abbrev Operators (H : Type) [DecidableEq H] := Assoc H Operator

namespace Operators

/-- What every operator token starts with. -/
def tokenPrefix : Bytes := ascii "praxis-operator-"

variable {H : Type} [DecidableEq H] (hash : Bytes → H)

/-- `Operators::authenticate`: the operator a bearer token belongs to. -/
def authenticate (operators : Operators H) (token : Bytes) : Option Operator :=
  if tokenPrefix <+: token then operators.lookup (hash token) else none

variable {hash}

theorem tokenPrefix_of_authenticate {operators : Operators H} {token : Bytes}
    (h : (operators.authenticate hash token).isSome) : tokenPrefix <+: token := by
  unfold authenticate at h
  split at h
  · assumption
  · cases h

theorem lookup_of_authenticate {operators : Operators H} {token : Bytes} {operator : Operator}
    (h : operators.authenticate hash token = some operator) :
    operators.lookup (hash token) = some operator := by
  unfold authenticate at h
  split at h
  · exact h
  · cases h

/-! ## The tokens file -/

def maxNameLen : Nat := 64

def defaultConcurrency : Nat := 8

/-- An operator as the tokens file names it. -/
structure Entry where
  name : String
  /-- The SHA-256 of the whole token, prefix included, in hex. -/
  tokenSha256 : String
  clusters : List String
  concurrency : Nat := defaultConcurrency
  consumer : Consumer := .priv

structure TokensFile where
  operators : List Entry

/-- What a name of an operator is made of. -/
def namedWell (name : String) : Bool :=
  !name.toList.isEmpty && decide (name.utf8ByteSize ≤ maxNameLen) &&
    name.toList.all (fun c => c.isLower || c.isDigit || c == '-')

/-- The operator of an entry, with no request in flight. -/
def Entry.operator (entry : Entry) : Operator where
  name := entry.name
  clusters := entry.clusters
  concurrency := entry.concurrency
  consumer := entry.consumer
  inFlight := 0

/-- The operators of the entries so far, and their names. -/
structure Loading (H : Type) [DecidableEq H] where
  byHash : Operators H
  names : List String

section Parsing

-- `serde_yaml::from_str`, `hex::decode_to_slice`, and how a string is written in quotes
variable (fromYaml : String → Except String TokensFile) (decode : String → Option H)
  (quoted : String → String) (injected : List String)

/-- One entry of the tokens file. -/
def parseEntry (loading : Loading H) (entry : Entry) : Except String (Loading H) :=
  let name := entry.name
  if !namedWell name then
    .error ("operator name " ++ quoted name ++ " must be 1 to " ++ toString maxNameLen ++
      " of a-z, 0-9 and '-'")
  else
    match decode entry.tokenSha256 with
    | none => .error (name ++ ": token_sha256 must be 64 hex digits")
    | some hash =>
      if entry.concurrency = 0 then .error (name ++ ": concurrency must be positive")
      else if entry.clusters.isEmpty then .error (name ++ ": clusters must name a cluster")
      else
        match entry.clusters.find? (· ∉ injected) with
        | some cluster => .error (name ++ ": " ++ quoted cluster ++ " is not an injected cluster")
        | none =>
          if name ∈ loading.names then .error (name ++ ": named twice")
          else if (loading.byHash.lookup hash).isSome then
            .error "two operators share a token"
          else .ok ⟨loading.byHash.insert hash entry.operator, name :: loading.names⟩

/-- `Operators::parse`: the operators that the text of a tokens file names. -/
def parse (text : String) : Except String (Operators H) := do
  let file ← fromYaml text
  if maxOperators < file.operators.length then
    .error ("at most " ++ toString maxOperators ++ " operators")
  else
    let loaded ← file.operators.foldlM (parseEntry decode quoted injected) ⟨∅, []⟩
    .ok loaded.byHash

end Parsing

/-- An operator that the tokens file may name. -/
structure Valid (injected : List String) (operator : Operator) : Prop where
  named : namedWell operator.name = true
  concurrency : 0 < operator.concurrency
  clusters : operator.clusters ≠ [] ∧ ∀ cluster ∈ operator.clusters, cluster ∈ injected
  inFlight : operator.inFlight = 0

/-- What is promised of the operators of a tokens file. -/
structure Parsed (injected : List String) (operators : Operators H) : Prop where
  valid : ∀ hash operator, operators.lookup hash = some operator → Valid injected operator
  /-- No two are of one name. -/
  distinct : ∀ hash hash' operator operator', operators.lookup hash = some operator →
    operators.lookup hash' = some operator' → operator.name = operator'.name → hash = hash'
  bounded : operators.size ≤ maxOperators

/-- What the loop over the entries keeps. -/
private structure Loads (injected : List String) (before : List Entry) (loading : Loading H) :
    Prop where
  valid : ∀ hash operator, loading.byHash.lookup hash = some operator → Valid injected operator
  named : ∀ hash operator, loading.byHash.lookup hash = some operator →
    operator.name ∈ loading.names
  distinct : ∀ hash hash' operator operator', loading.byHash.lookup hash = some operator →
    loading.byHash.lookup hash' = some operator' → operator.name = operator'.name → hash = hash'
  size : loading.byHash.size = before.length

/-- What an entry that is accepted adds. -/
theorem parseEntry_ok {decode : String → Option H} {quoted : String → String}
    {injected : List String} {loading loading' : Loading H} {entry : Entry}
    (h : parseEntry decode quoted injected loading entry = .ok loading') :
    Valid injected entry.operator ∧ entry.name ∉ loading.names ∧
      ∃ hash, loading.byHash.lookup hash = none ∧
        loading' = ⟨loading.byHash.insert hash entry.operator, entry.name :: loading.names⟩ := by
  unfold parseEntry at h
  dsimp only at h
  rw [Checked.refuse_eq_ok] at h
  obtain ⟨hnamed, h⟩ := h
  split at h
  · cases h
  · next hash hhash =>
      rw [Checked.refuse_eq_ok, Checked.refuse_eq_ok] at h
      obtain ⟨hconcurrency, hclusters, h⟩ := h
      split at h
      · cases h
      · next hinjected =>
          rw [Checked.refuse_eq_ok, Checked.refuse_eq_ok] at h
          obtain ⟨hname, htoken, h⟩ := h
          cases h
          have hnamed : namedWell entry.name = true := by simpa using hnamed
          refine ⟨⟨hnamed, Nat.pos_of_ne_zero hconcurrency, ⟨?_, ?_⟩, rfl⟩, hname, hash,
            by simpa using htoken, rfl⟩
          · exact fun hnil => hclusters (List.isEmpty_iff.mpr hnil)
          · intro cluster hmem
            simpa using List.find?_eq_none.mp hinjected cluster hmem

/-- **Step.** An accepted entry is one operator more, of a new name. -/
private theorem Loads.step {decode : String → Option H} {quoted : String → String}
    {injected : List String} {before : List Entry} {loading loading' : Loading H} {entry : Entry}
    (hl : Loads injected before loading)
    (h : parseEntry decode quoted injected loading entry = .ok loading') :
    Loads injected (before ++ [entry]) loading' := by
  obtain ⟨hvalid, hname, hash, hnew, rfl⟩ := parseEntry_ok h
  have hcases : ∀ hash' operator,
      (loading.byHash.insert hash entry.operator).lookup hash' = some operator →
        hash' = hash ∧ operator = entry.operator ∨
          loading.byHash.lookup hash' = some operator := by
    intro hash' operator hlookup
    rw [Assoc.lookup_insert_eq] at hlookup
    split at hlookup
    · next heq =>
        cases hlookup
        exact .inl ⟨heq, rfl⟩
    · exact .inr hlookup
  refine ⟨?_, ?_, ?_, ?_⟩
  · intro hash' operator hlookup
    rcases hcases hash' operator hlookup with ⟨-, rfl⟩ | hold
    · exact hvalid
    · exact hl.valid hash' operator hold
  · intro hash' operator hlookup
    rcases hcases hash' operator hlookup with ⟨-, rfl⟩ | hold
    · exact List.mem_cons_self
    · exact List.mem_cons_of_mem _ (hl.named hash' operator hold)
  · intro hash₁ hash₂ operator₁ operator₂ h₁ h₂ heq
    rcases hcases hash₁ operator₁ h₁ with ⟨rfl, rfl⟩ | hold₁
    · rcases hcases hash₂ operator₂ h₂ with ⟨rfl, -⟩ | hold₂
      · rfl
      · have hold := hl.named hash₂ operator₂ hold₂
        rw [← heq] at hold
        exact absurd hold hname
    · rcases hcases hash₂ operator₂ h₂ with ⟨rfl, rfl⟩ | hold₂
      · have hold := hl.named hash₁ operator₁ hold₁
        rw [heq] at hold
        exact absurd hold hname
      · exact hl.distinct hash₁ hash₂ operator₁ operator₂ hold₁ hold₂ heq
  · rw [Assoc.size_eq_countKeys, Assoc.countKeys_insert _ hnew, if_pos rfl,
      ← Assoc.size_eq_countKeys, hl.size, List.length_append, List.length_singleton]

/-- **What a tokens file is accepted for**: at most so many operators, each well named and for
injected clusters only, no two of one name. -/
theorem parse_ok {fromYaml : String → Except String TokensFile} {decode : String → Option H}
    {quoted : String → String} {injected : List String} {text : String} {operators : Operators H}
    (h : parse fromYaml decode quoted injected text = .ok operators) :
    Parsed injected operators := by
  obtain ⟨file, -, h⟩ := Checked.bind_eq_ok.mp h
  rw [Checked.refuse_eq_ok] at h
  obtain ⟨hlength, h⟩ := h
  obtain ⟨loaded, hloaded, h⟩ := Checked.bind_eq_ok.mp h
  cases h
  have hl : Loads injected file.operators loaded := by
    refine Checked.foldlM_invariant ?_ (fun _ _ _ _ => Loads.step) hloaded
    refine ⟨?_, ?_, ?_, rfl⟩ <;> simp
  exact ⟨hl.valid, hl.distinct, hl.size ▸ Nat.not_lt.mp hlength⟩

end Operators

end CredentialBroker
