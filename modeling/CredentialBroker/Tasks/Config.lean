import CredentialBroker.Filter.Covered
import CredentialBroker.Tasks.Basic

/-!
# Building the filter

`from_config` reads the registration policy, the tokens of the operators and the budget, each in a
file of its own that a deployment may leave out, and builds the filter or says what is wrong. What it
declares in the usage registry comes last, so a filter that is refused has declared nothing.
-/

namespace CredentialBroker

/-! ## The configuration -/

def defaultRegistry : String := "default"

def defaultUsageOrigin : String := "https://cgwalters-forge.github.io"

/-- The configuration of the filter, as decoded. Of `registration`, `operators` and `budget` it has
the file. -/
structure Config where
  registry : String := defaultRegistry
  tokenHeaders : List String := ["authorization"]
  publicPaths : List String := []
  usageFreePaths : List String := []
  credentials : Assoc String CredentialMode
  usageCorsOrigins : List String := [defaultUsageOrigin]
  registration : Option String := none
  operators : Option String := none
  spend : Bool := false
  budget : Option String := none

/-- The clusters that are injected. -/
def Config.injected (config : Config) : List String :=
  config.credentials.keys.filter fun cluster =>
    config.credentials.lookup cluster = some .injected

theorem Config.mem_injected {config : Config} {cluster : String} :
    cluster ∈ config.injected ↔ config.credentials.lookup cluster = some .injected := by
  unfold Config.injected
  rw [List.mem_filter, decide_eq_true_eq, and_iff_right_iff_imp]
  intro h
  apply AList.mem_keys.mp
  rw [← AList.lookup_isSome, h]
  rfl

/-- What `from_config` takes from outside: the files, the decoders and printers of the libraries, and
how making the HTTP client goes. -/
structure Outer (H : Type) where
  files : String → Contents
  headerName : String → Except String String
  policyYaml : String → Except String PolicyFile
  tokensYaml : String → Except String Operators.TokensFile
  budgetYaml : String → Except String BudgetFile
  decode : String → Option H
  quoted : String → String
  display : ℚ → String
  client : Except String Unit

section

variable {H : Type} [DecidableEq H]

/-! ## The files -/

/-- `Operators::load`: the operators that the file at `path` names, or none if there is no such
file. -/
def Operators.load (outer : Outer H) (injected : List String) (path : String) :
    Except String (Operators H) :=
  match outer.files path with
  | .notFound => .ok ∅
  | .failed message => .error (path ++ ": " ++ message)
  | .text text =>
      (Operators.parse outer.tokensYaml outer.decode outer.quoted injected text).mapError
        (fun e => path ++ ": " ++ e)

/-- `Budget::load`: the budget in the file at `path`, if there is such a file. -/
def Budget.load (outer : Outer H) (path : String) : Except String (Option Budget) :=
  match outer.files path with
  | .notFound => .ok none
  | .failed message => .error (path ++ ": " ++ message)
  | .text text =>
      ((Budget.parse outer.budgetYaml outer.display text).map some).mapError
        (fun e => path ++ ": " ++ e)

/-- `Operators::sorted`: the operators, by name. -/
def Operators.sorted (operators : Operators H) : List Operator :=
  (operators.entries.map Sigma.snd).mergeSort fun a b => decide (a.name ≤ b.name)

/-! ## The filter -/

/-- A filter as it is built, but for the library that verifies tokens. -/
structure Built (H : Type) [DecidableEq H] where
  /-- But for the run endpoints. -/
  base : RunTokenFilter
  endpoints : LoadedEndpoints
  operators : Operators H
  /-- The name of the registry it shares. -/
  registry : String
  spend : Bool

/-- The run endpoints of a chain that has a `registration`, if it does. -/
def loadEndpoints (outer : Outer H) : Option String → Except String LoadedEndpoints
  | none => .ok .absent
  | some path =>
      (Registrar.load outer.policyYaml path (outer.files path) outer.client).map fun
      | some loaded => .serving loaded
      | none => .unconfigured

/-- The operators of a chain, if its configuration names their file. -/
def loadOperators (outer : Outer H) (injected : List String) :
    Option String → Except String (Operators H)
  | none => .ok ∅
  | some path =>
      (Operators.load outer injected path).mapError (fun e => filterName ++ ": " ++ e)

/-- The budget, likewise. -/
def loadBudget (outer : Outer H) : Option String → Except String (Option Budget)
  | none => .ok none
  | some path => (Budget.load outer path).mapError (fun e => filterName ++ ": " ++ e)

/-- `RunTokenFilter::from_config`, up to what it declares. -/
def fromConfig (outer : Outer H) (config : Config) : Except String (Built H) := do
  let tokenHeaders ← (config.tokenHeaders.mapM outer.headerName).mapError
    (fun e => filterName ++ ": invalid token_headers: " ++ e)
  if tokenHeaders.isEmpty then .error (filterName ++ ": token_headers must name a header")
  else if config.credentials.entries.isEmpty then
    .error (filterName ++ ": credentials must name a cluster")
  else
    let endpoints ← loadEndpoints outer config.registration
    let operators ← loadOperators outer config.injected config.operators
    let budget ← loadBudget outer config.budget
    .ok {
      base :=
        { tokenHeaders := tokenHeaders
          publicPaths := config.publicPaths.map utf8
          usageFreePaths := config.usageFreePaths.map utf8
          credentials := config.credentials
          usageCorsOrigins := config.usageCorsOrigins.map utf8
          endpoints := .absent
          budget := budget }
      endpoints := endpoints
      operators := operators
      registry := config.registry
      spend := config.spend }

/-- The filter with the library that verifies its tokens. -/
def Built.deployed {K : Type} (built : Built H) (jwt : JwtLibrary K) (issuedAfter : UInt64) :
    Deployed K where
  base := built.base
  endpoints := built.endpoints
  jwt := jwt
  issuedAfter := issuedAfter

/-- What it declares in the usage registry it shares. -/
def Built.declared {K : Type} (built : Built H) (d : Deployed K) (now : UInt64)
    (usage : UsageRegistry) : UsageRegistry :=
  (declarations (if built.spend then some now else none)
    (d.filter 0 fun _ => .error .unavailable).endpoints built.operators.sorted).foldl
      UsageRegistry.step usage

/-! ## What is accepted -/

/-- An operator is one that an entry of the tokens file names. -/
theorem Operators.entry_of_parse {outer : Outer H} {injected : List String} {text : String}
    {operators : Operators H}
    (h : Operators.parse outer.tokensYaml outer.decode outer.quoted injected text =
      .ok operators) :
    ∃ file, outer.tokensYaml text = .ok file ∧ ∀ hash operator,
      operators.lookup hash = some operator → ∃ entry ∈ file.operators,
        outer.decode entry.tokenSha256 = some hash ∧ operator = entry.operator := by
  obtain ⟨file, hfile, h⟩ := Checked.bind_eq_ok.mp h
  rw [Checked.refuse_eq_ok] at h
  obtain ⟨-, h⟩ := h
  obtain ⟨loaded, hloaded, h⟩ := Checked.bind_eq_ok.mp h
  cases h
  refine ⟨file, hfile, ?_⟩
  refine Checked.foldlM_invariant (P := fun before (loading : Operators.Loading H) =>
    ∀ hash operator, loading.byHash.lookup hash = some operator → ∃ entry ∈ before,
      outer.decode entry.tokenSha256 = some hash ∧ operator = entry.operator) ?_ ?_ hloaded
  · intro hash operator hoperator
    cases hoperator
  · intro before entry loading loading' hloads hparse hash operator hoperator
    have hold : loading.byHash.lookup hash = some operator → ∃ entry' ∈ before ++ [entry],
        outer.decode entry'.tokenSha256 = some hash ∧ operator = entry'.operator := by
      intro hoperator
      obtain ⟨entry', hmem, hentry'⟩ := hloads hash operator hoperator
      exact ⟨entry', List.mem_append_left _ hmem, hentry'⟩
    unfold Operators.parseEntry at hparse
    dsimp only at hparse
    rw [Checked.refuse_eq_ok] at hparse
    obtain ⟨-, hparse⟩ := hparse
    split at hparse
    · cases hparse
    · next decoded hdecoded =>
        rw [Checked.refuse_eq_ok, Checked.refuse_eq_ok] at hparse
        obtain ⟨-, -, hparse⟩ := hparse
        split at hparse
        · cases hparse
        · rw [Checked.refuse_eq_ok, Checked.refuse_eq_ok] at hparse
          obtain ⟨-, -, hparse⟩ := hparse
          cases hparse
          rw [Assoc.lookup_insert_eq] at hoperator
          split at hoperator
          · next heq =>
              cases hoperator
              exact ⟨entry, List.mem_append_right _ (List.mem_singleton.mpr rfl),
                heq ▸ hdecoded, rfl⟩
          · exact hold hoperator

/-- The operators of the tokens file, if the configuration has one. -/
def Config.Names (outer : Outer H) (config : Config) (hash : H) (entry : Operators.Entry) : Prop :=
  ∃ path text file, config.operators = some path ∧ outer.files path = .text text ∧
    outer.tokensYaml text = .ok file ∧ entry ∈ file.operators ∧
    outer.decode entry.tokenSha256 = some hash

/-- The registration policy, if the configuration has one. -/
def Config.Registers (outer : Outer H) (config : Config) (file : PolicyFile) : Prop :=
  ∃ path text, config.registration = some path ∧ outer.files path = .text text ∧
    outer.policyYaml text = .ok file

/-- What is known of a filter that was built. -/
structure BuiltFrom (outer : Outer H) (config : Config) (built : Built H) : Prop where
  tokenHeaders : built.base.tokenHeaders ≠ []
  publicPaths : built.base.publicPaths = config.publicPaths.map utf8
  credentials : built.base.credentials = config.credentials
  serving : ∀ loaded, built.endpoints = .serving loaded →
    ∃ file, config.Registers outer file ∧ file.registrar = .ok loaded
  operators : ∀ hash operator, built.operators.lookup hash = some operator →
    ∃ entry, config.Names outer hash entry ∧ operator = entry.operator
  parsed : Operators.Parsed config.injected built.operators

omit [DecidableEq H] in
theorem loadEndpoints_ok {outer : Outer H} {config : Config} {loaded : LoadedRegistrar}
    (h : loadEndpoints outer config.registration = .ok (.serving loaded)) :
    ∃ file, config.Registers outer file ∧ file.registrar = .ok loaded := by
  cases hpath : config.registration with
  | none =>
      rw [hpath] at h
      cases h
  | some path =>
      rw [hpath] at h
      unfold loadEndpoints at h
      dsimp only at h
      cases hload : Registrar.load outer.policyYaml path (outer.files path) outer.client with
      | error e =>
          rw [hload] at h
          cases h
      | ok result =>
          rw [hload] at h
          cases result with
          | none => cases h
          | some loaded' =>
              cases h
              obtain ⟨text, file, hfiles, hfile, hregistrar⟩ := Registrar.load_ok hload
              exact ⟨file, ⟨path, text, hpath, hfiles, hfile⟩, hregistrar⟩

/-- There are no operators without a tokens file. -/
theorem Operators.parsed_empty (injected : List String) :
    Operators.Parsed injected (∅ : Operators H) := by
  refine ⟨?_, ?_, Nat.zero_le _⟩
  · intro hash operator h
    cases h
  · intro hash hash' operator operator' h
    cases h

theorem loadOperators_ok {outer : Outer H} {config : Config} {operators : Operators H}
    (h : loadOperators outer config.injected config.operators = .ok operators) :
    Operators.Parsed config.injected operators ∧ ∀ hash operator,
      operators.lookup hash = some operator →
        ∃ entry, config.Names outer hash entry ∧ operator = entry.operator := by
  have hempty : Operators.Parsed config.injected (∅ : Operators H) ∧ ∀ hash operator,
      (∅ : Operators H).lookup hash = some operator →
        ∃ entry, config.Names outer hash entry ∧ operator = entry.operator := by
    refine ⟨Operators.parsed_empty _, ?_⟩
    intro hash operator hoperator
    cases hoperator
  cases hpath : config.operators with
  | none =>
      rw [hpath] at h
      cases h
      exact hempty
  | some path =>
      rw [hpath] at h
      unfold loadOperators at h
      rw [Checked.mapError_eq_ok] at h
      unfold Operators.load at h
      split at h
      · cases h
        exact hempty
      · cases h
      · next text htext =>
          rw [Checked.mapError_eq_ok] at h
          refine ⟨Operators.parse_ok h, ?_⟩
          obtain ⟨file, hfile, hentries⟩ := Operators.entry_of_parse h
          intro hash operator hoperator
          obtain ⟨entry, hmem, hdecode, heq⟩ := hentries hash operator hoperator
          exact ⟨entry, ⟨path, text, file, hpath, htext, hfile, hmem, hdecode⟩, heq⟩

/-- **What a filter is built from.** -/
theorem builtFrom_of_fromConfig {outer : Outer H} {config : Config} {built : Built H}
    (h : fromConfig outer config = .ok built) : BuiltFrom outer config built := by
  obtain ⟨tokenHeaders, -, h⟩ := Checked.bind_eq_ok.mp h
  rw [Checked.refuse_eq_ok, Checked.refuse_eq_ok] at h
  obtain ⟨htokenHeaders, -, h⟩ := h
  obtain ⟨endpoints, hendpoints, h⟩ := Checked.bind_eq_ok.mp h
  obtain ⟨operators, hoperators, h⟩ := Checked.bind_eq_ok.mp h
  obtain ⟨budget, -, h⟩ := Checked.bind_eq_ok.mp h
  cases h
  obtain ⟨hparsed, hnames⟩ := loadOperators_ok hoperators
  refine ⟨?_, rfl, rfl, ?_, hnames, hparsed⟩
  · intro hnil
    exact htokenHeaders (List.isEmpty_iff.mpr hnil)
  · rintro loaded rfl
    exact loadEndpoints_ok hendpoints

end

end CredentialBroker
