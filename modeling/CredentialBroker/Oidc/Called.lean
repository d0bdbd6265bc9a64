import CredentialBroker.Oidc.Policy
import CredentialBroker.Util.SelfDelimiting

/-!
# Which workflow file an entry names

A `job_workflow_ref` is a directory, a file, an `@` and a ref, in one string. An entry of
`called_workflows` is compared with it by stripping prefixes, although a file's name may have an
`@` of its own. What an entry that passed validation admits is still its own file and no other: the
workflow it names has no `@`, so it ends at the first one, and if that one is in the file's name
then what follows is no ref, as a name has no `/`.
-/

namespace CredentialBroker.Oidc.CalledWorkflow

/-- The entry names the workflow `file`, run at `called` as the claims say. -/
structure Names (entry : CalledWorkflow) (claims : Claims) (file called : String)
    (repositoryId ownerId : UInt64) : Prop where
  file : file = entry.workflow
  gitRef : ∀ gitRef, entry.gitRef = some gitRef → called = gitRef
  sha : ∀ sha, entry.sha = some sha → claims.jobWorkflowSha = some sha
  /-- With a commit alone, the job was called by it or by a ref that resolved to it. -/
  resolved : ∀ sha, entry.gitRef = none → entry.sha = some sha →
    called = sha ∨ refStart.toList <+: called.toList
  caller : entry.callers.any = true ∨ repositoryId ∈ entry.callers.repositoryIds ∨
    ownerId ∈ entry.callers.ownerIds
  event : ∀ events, entry.events = some events → claims.eventName ∈ events

/-- What validation says of the text of an entry. -/
structure Plain (entry : CalledWorkflow) : Prop where
  workflow : '@' ∉ entry.workflow.toList
  pinned : entry.gitRef ≠ none ∨ entry.sha ≠ none
  gitRef : ∀ gitRef, entry.gitRef = some gitRef → refStart.toList <+: gitRef.toList
  sha : ∀ sha, entry.sha = some sha → '@' ∉ sha.toList

/-- A commit id is of hexadecimal digits. -/
theorem at_notMem_of_isSha {sha : String} (h : isSha sha = true) : '@' ∉ sha.toList := by
  unfold isSha at h
  rw [Bool.and_eq_true, List.all_eq_true] at h
  intro hmem
  exact absurd (h.2 '@' hmem) (by decide)

theorem plain_of_validate {entry : CalledWorkflow} (h : entry.validate = .ok ()) :
    entry.Plain := by
  unfold validate at h
  simp only [Checked.refuse_eq_ok, Checked.then_eq_ok] at h
  obtain ⟨hplain, hpinned, hgitRef, hsha, -⟩ := h
  refine ⟨?_, ?_, ?_, ?_⟩
  · intro hmem
    rw [Bool.not_eq_true', Bool.not_eq_false, Bool.and_eq_true, Bool.not_eq_true',
      List.contains_eq_mem, decide_eq_false_iff_not] at hplain
    exact hplain.2 hmem
  · rw [Bool.and_eq_true, not_and_or] at hpinned
    exact hpinned.imp (by simp) (by simp)
  · intro gitRef hsome
    rw [hsome] at hgitRef
    simpa [startsWith] using hgitRef
  · intro sha hsome
    rw [hsome] at hsha
    exact at_notMem_of_isSha (by simpa using hsha)

theorem calledRef_eq_some {entry : CalledWorkflow} {claims : Claims} {called : List Char} :
    entry.calledRef claims = some called ↔
      claims.jobWorkflowRef.toList = entry.workflow.toList ++ '@' :: called := by
  unfold calledRef
  rw [eq_comm (b := entry.workflow.toList ++ '@' :: called),
    ← List.isPrefixOf?_eq_some_iff_append_eq]
  split
  · next called' heq => simp [heq]
  · next hother =>
      constructor
      · rintro ⟨⟩
      · intro heq
        exact absurd heq (hother called)

/-- The rest of a file's name is no ref. -/
theorem not_refStart {file : List Char} (h : '/' ∉ file) (called : List Char) :
    ¬ refStart.toList <+: file ++ '@' :: called := by
  intro hstart
  rcases List.prefix_or_prefix_of_prefix hstart (List.prefix_append file _) with hlong | hshort
  · -- the name would begin as a ref does, with a slash
    exact h (hlong.subset (by decide))
  · obtain ⟨rest, hrest⟩ := hshort
    rw [← hrest, List.prefix_append_right_inj] at hstart
    cases rest with
    | nil =>
        rw [List.append_nil] at hrest
        exact h (hrest ▸ (by decide))
    | cons c rest =>
        -- or the ref would have an `@`
        rw [(List.cons_prefix_cons.mp hstart).1] at hrest
        have hmem : '@' ∈ refStart.toList := by
          rw [← hrest]
          simp
        exact absurd hmem (by decide)

/-- No entry allows the rest of a file's name for a ref. -/
theorem refAllowed_eq_false {entry : CalledWorkflow} (hplain : entry.Plain) {file : List Char}
    (h : '/' ∉ file) (called : List Char) : entry.refAllowed (file ++ '@' :: called) = false := by
  have hmem : '@' ∈ file ++ '@' :: called := by simp
  rw [← Bool.not_eq_true]
  intro hallowed
  unfold refAllowed at hallowed
  split at hallowed
  · next gitRef hsome =>
      have hstart := hplain.gitRef gitRef hsome
      rw [← beq_iff_eq.mp hallowed] at hstart
      exact not_refStart h called hstart
  · next sha hnone hsome =>
      rcases Bool.or_eq_true _ _ ▸ hallowed with hsha | hstart
      · rw [beq_iff_eq.mp hsha] at hmem
        exact hplain.sha sha hsome hmem
      · exact not_refStart h called (List.isPrefixOf_iff_prefix.mp hstart)
  · cases hallowed

/-- What an entry allows of a token that was called at `called`. -/
theorem allows_of_calledRef {entry : CalledWorkflow} {claims : Claims} {called : List Char}
    (h : entry.calledRef claims = some called) (repositoryId ownerId : UInt64) :
    entry.allows claims repositoryId ownerId = true ↔
      entry.refAllowed called = true ∧
        (∀ sha, entry.sha = some sha → claims.jobWorkflowSha = some sha) ∧
        entry.callers.contains repositoryId ownerId = true ∧
        ∀ events, entry.events = some events → claims.eventName ∈ events := by
  unfold allows eventAllowed
  rw [h]
  simp only [Bool.and_eq_true, and_assoc]
  simp [Option.all_eq_true]

theorem refAllowed_iff {entry : CalledWorkflow} (hplain : entry.Plain) (called : String) :
    entry.refAllowed called.toList = true ↔
      (∀ gitRef, entry.gitRef = some gitRef → called = gitRef) ∧
        ∀ sha, entry.gitRef = none → entry.sha = some sha →
          called = sha ∨ refStart.toList <+: called.toList := by
  unfold refAllowed
  cases hgitRef : entry.gitRef with
  | some gitRef => simp [String.toList_inj]
  | none =>
      cases hsha : entry.sha with
      | some sha => simp [String.toList_inj]
      | none => exact absurd hplain.pinned (by simp [hgitRef, hsha])

/-- A ref that an entry allows was called from the entry's own file. -/
theorem file_of_refAllowed {entry : CalledWorkflow} (hplain : entry.Plain)
    {directory file called rest : List Char} (hdirectory : '@' ∉ directory) (hfile : '/' ∉ file)
    (h : (directory ++ file) ++ '@' :: called = entry.workflow.toList ++ '@' :: rest)
    (hallowed : entry.refAllowed rest = true) :
    directory ++ file = entry.workflow.toList ∧ called = rest := by
  by_cases hname : '@' ∈ file
  · -- the workflow ends within the file's name, and what is left of it is no ref
    obtain ⟨front, back, rfl, hfront⟩ := List.eq_append_cons_of_mem hname
    have hcut : directory ++ front ++ '@' :: (back ++ '@' :: called) =
        entry.workflow.toList ++ '@' :: rest := by
      rw [← h]
      simp
    obtain ⟨-, hrest⟩ := SelfDelimiting.append_cons_cancel
      (by simp [hdirectory, hfront]) hplain.workflow hcut
    have hback : '/' ∉ back := fun hmem => hfile (by simp [hmem])
    rw [← hrest, refAllowed_eq_false hplain hback] at hallowed
    cases hallowed
  · exact SelfDelimiting.append_cons_cancel (by simp [hdirectory, hname]) hplain.workflow h

/-- **An entry admits its own file and no other.** -/
theorem allows_iff_names (entry : CalledWorkflow) (hvalid : entry.validate = .ok ())
    (claims : Claims) (directory file called : String) (hdirectory : '@' ∉ directory.toList)
    (hfile : '/' ∉ file.toList)
    (href : claims.jobWorkflowRef = directory ++ file ++ "@" ++ called)
    (repositoryId ownerId : UInt64) :
    entry.allows claims repositoryId ownerId = true ↔
      entry.Names claims (directory ++ file) called repositoryId ownerId := by
  have hplain := plain_of_validate hvalid
  have hlist : claims.jobWorkflowRef.toList =
      (directory.toList ++ file.toList) ++ '@' :: called.toList := by
    rw [href]
    simp
  constructor
  · intro h
    cases hcalled : entry.calledRef claims with
    | none =>
        unfold allows at h
        rw [hcalled] at h
        cases h
    | some rest =>
        have hentry := calledRef_eq_some.mp hcalled
        rw [hlist] at hentry
        rw [allows_of_calledRef hcalled, Repositories.contains_iff] at h
        obtain ⟨hallowed, hsha, hcaller, hevent⟩ := h
        obtain ⟨hworkflow, hrest⟩ := file_of_refAllowed hplain hdirectory hfile hentry hallowed
        rw [← hrest, refAllowed_iff hplain] at hallowed
        refine ⟨?_, hallowed.1, hsha, hallowed.2, hcaller, hevent⟩
        apply String.toList_injective
        rw [String.toList_append, hworkflow]
  · intro h
    have hcalled : entry.calledRef claims = some called.toList := by
      rw [calledRef_eq_some, hlist, ← h.file, String.toList_append]
    rw [allows_of_calledRef hcalled, Repositories.contains_iff, refAllowed_iff hplain]
    exact ⟨⟨h.gitRef, h.resolved⟩, h.sha, h.caller, h.event⟩

/-- A workflow that is pinned by its commit, for every caller. -/
def sampleEntry : CalledWorkflow where
  workflow := "lib/agentic/.github/workflows/agent.yml"
  sha := some "0123456789abcdef0123456789abcdef01234567"
  callers := { any := true }

/-- A job that calls a workflow file at a branch that is at that commit. -/
def sampleClaims (file : String) : Claims where
  iat := 0
  jti := "jti-1"
  repository := "owner/repo"
  repositoryId := "1"
  repositoryOwnerId := "2"
  runId := "7"
  runAttempt := "1"
  checkRunId := none
  jobWorkflowRef := "lib/agentic/.github/workflows/" ++ file ++ "@" ++ "refs/heads/main"
  jobWorkflowSha := sampleEntry.sha
  workflowRef := "owner/repo/.github/workflows/agent.yml@refs/heads/main"
  eventName := "issues"
  actor := none

/-- A file is admitted, and one whose name goes on after an `@` is not. -/
theorem allows_iff_names_sample :
    sampleEntry.allows (sampleClaims "agent.yml") 1 2 = true ∧
      sampleEntry.allows (sampleClaims "agent.yml@evil.yml") 1 2 = false := by
  have hvalid : sampleEntry.validate = .ok () := by decide +kernel
  constructor
  · refine (allows_iff_names sampleEntry hvalid (sampleClaims "agent.yml") _ _ _ (by decide +kernel)
      (by decide +kernel) rfl 1 2).mpr ⟨by decide +kernel, nofun, ?_, ?_, .inl rfl, nofun⟩
    · intro sha hsha
      exact hsha
    · intro sha _ _
      exact .inr (by decide +kernel)
  · rw [← Bool.not_eq_true, allows_iff_names sampleEntry hvalid (sampleClaims "agent.yml@evil.yml")
      _ _ _ (by decide +kernel) (by decide +kernel) rfl 1 2]
    intro h
    exact absurd h.file (by decide +kernel)

end CredentialBroker.Oidc.CalledWorkflow
