import CredentialBroker.Operators
import CredentialBroker.Runs.Basic
import CredentialBroker.Util.SelfDelimiting

/-!
# Subjects

Budgets are kept by the subject of who is authenticated: a run's, by its key, or an operator's, by
its name. Both are texts put together from parts, of which some are chosen by the caller.
`subject_eq_iff` says that they are told apart nevertheless: what a subject starts with says whose
kind it is, and the ids of a proven run are decimals, which have no slash.
-/

namespace CredentialBroker

/-! ## Runs -/

/-- An id as a subject has it. -/
def decimal (id : UInt64) : List Char := id.toNat.repr.toList

theorem decimal_injective : Function.Injective decimal := by
  intro id id' h
  unfold decimal at h
  rw [Nat.toList_repr, Nat.toList_repr] at h
  have hread := congrArg (Nat.ofDigitChars 10 · 0) h
  rw [Nat.ofDigitChars_ten_toDigits, Nat.ofDigitChars_ten_toDigits] at hread
  exact UInt64.toNat_inj.mp hread

theorem slash_notMem_decimal (id : UInt64) : '/' ∉ decimal id := by
  unfold decimal
  rw [Nat.toList_repr]
  intro hmem
  exact absurd (Nat.isDigit_of_mem_toDigits (by decide) (by decide) hmem) (by decide)

/-- A proven run's subject is its ids, with slashes between them. -/
theorem toList_subject_github (repositoryId runId runAttempt : UInt64)
    (checkRunId : Option UInt64) :
    (RunKey.github repositoryId runId runAttempt checkRunId).subject.toList =
      "github-run:".toList ++ SelfDelimiting.separated decimal '/'
        (repositoryId :: runId :: runAttempt :: checkRunId.toList) := by
  unfold RunKey.subject
  cases checkRunId <;> simp [SelfDelimiting.separated, decimal]

theorem toList_subject_unproven (name : RunName) :
    (RunKey.unproven name).subject.toList = "unproven-run:".toList ++ name.name.toList := by
  unfold RunKey.subject
  simp

theorem RunKey.subject_injective : Function.Injective RunKey.subject := by
  intro key key' h
  have hlist := congrArg String.toList h
  cases key with
  | github repositoryId runId runAttempt checkRunId =>
      cases key' with
      | github repositoryId' runId' runAttempt' checkRunId' =>
          rw [toList_subject_github, toList_subject_github] at hlist
          obtain ⟨rfl, hids⟩ := SelfDelimiting.separated_inj decimal_injective
            slash_notMem_decimal (List.append_cancel_left hlist)
          simp only [List.cons.injEq] at hids
          obtain ⟨rfl, rfl, hcheck⟩ := hids
          cases checkRunId <;> cases checkRunId' <;> cases hcheck <;> rfl
      | unproven name' =>
          rw [toList_subject_github, toList_subject_unproven] at hlist
          cases hlist
  | unproven name =>
      cases key' with
      | github repositoryId' runId' runAttempt' checkRunId' =>
          rw [toList_subject_github, toList_subject_unproven] at hlist
          cases hlist
      | unproven name' =>
          rw [toList_subject_unproven, toList_subject_unproven] at hlist
          obtain ⟨name, hname⟩ := name
          obtain ⟨name', hname'⟩ := name'
          cases String.toList_injective (List.append_cancel_left hlist)
          rfl

/-! ## Every caller -/

/-- Who may be authenticated: a registered run, or an operator. -/
inductive Authenticated where
  | run (key : RunKey)
  | operator (operator : Operator)

namespace Authenticated

def subject : Authenticated → String
  | run key => key.subject
  | operator o => o.subject

/-- Callers that are one: runs of one key, or operators of one name. -/
def Same : Authenticated → Authenticated → Prop
  | run key, run key' => key = key'
  | operator o, operator o' => o.name = o'.name
  | _, _ => False

end Authenticated

theorem toList_subject_operator (operator : Operator) :
    operator.subject.toList = "operator:".toList ++ operator.name.toList := by
  simp [Operator.subject]

/-- A run's subject starts unlike an operator's. -/
theorem subject_run_ne_operator (key : RunKey) (operator : Operator) :
    key.subject ≠ operator.subject := by
  intro h
  have hlist := congrArg String.toList h
  rw [toList_subject_operator] at hlist
  cases key with
  | github repositoryId runId runAttempt checkRunId =>
      rw [toList_subject_github] at hlist
      cases hlist
  | unproven name =>
      rw [toList_subject_unproven] at hlist
      cases hlist

theorem subject_operator_iff (operator operator' : Operator) :
    operator.subject = operator'.subject ↔ operator.name = operator'.name := by
  constructor
  · intro h
    have hlist := congrArg String.toList h
    rw [toList_subject_operator, toList_subject_operator] at hlist
    exact String.toList_injective (List.append_cancel_left hlist)
  · intro h
    unfold Operator.subject
    rw [h]

/-- **No two callers share a subject.** -/
theorem subjects_apart {H : Type} [DecidableEq H] :
    (∀ caller caller' : Authenticated, caller.subject = caller'.subject ↔ caller.Same caller') ∧
      ∀ (fromYaml : String → Except String Operators.TokensFile) (decode : String → Option H)
        (quoted : String → String) (injected : List String) (text : String)
        (operators : Operators H),
        Operators.parse fromYaml decode quoted injected text = .ok operators →
          ∀ hash hash' operator operator', operators.lookup hash = some operator →
            operators.lookup hash' = some operator' →
            operator.subject = operator'.subject → hash = hash' := by
  refine ⟨?_, ?_⟩
  · intro caller caller'
    cases caller with
    | run key =>
        cases caller' with
        | run key' => exact RunKey.subject_injective.eq_iff
        | operator operator' =>
            exact iff_of_false (subject_run_ne_operator key operator') id
    | operator operator =>
        cases caller' with
        | run key' =>
            exact iff_of_false (fun h => subject_run_ne_operator key' operator h.symm) id
        | operator operator' => exact subject_operator_iff operator operator'
  · intro fromYaml decode quoted injected text operators hparse hash hash' operator operator'
      hlookup hlookup' hsubject
    exact (Operators.parse_ok hparse).distinct hash hash' operator operator' hlookup hlookup'
      ((subject_operator_iff operator operator').mp hsubject)

end CredentialBroker
