import CredentialBroker.Runs.Step

/-!
# The totals of a record

A run's record counts its responses, and only the settling of an admission changes what it has
counted. Every other call leaves the totals of a remembered run as they were, or registers its key
anew, at zero.

* `Unsettled` relates two states with only such calls between them. It is reflexive and transitive,
  so an operation made of several calls is one too.
* `totals_of_unsettled` is what that does to the totals of every run.
-/

namespace CredentialBroker

/-- The part of a run's record that counts responses. -/
structure Totals where
  requests : Nat := 0
  unmetered : Nat := 0
  tokens : Tokens := {}
  deriving DecidableEq, Repr

def RunRecord.totals (record : RunRecord) : Totals :=
  ⟨record.requests, record.unmetered, record.tokens⟩

/-- The totals, and the tokens by model. -/
structure Figures where
  totals : Totals := {}
  models : Assoc String Tokens := ∅

def RunRecord.figures (record : RunRecord) : Figures := ⟨record.totals, record.models⟩

namespace Runs

variable {H : Type}

/-- A usage is one request more, with its tokens. -/
theorem totals_add (record : RunRecord) (usage : Usage) :
    (record.add usage).totals =
      ⟨record.requests + 1, record.unmetered, record.tokens.add usage.tokens⟩ := by
  unfold RunRecord.add
  dsimp only
  split
  · rfl
  · split
    · rfl
    · split <;> rfl

@[simp] theorem figures_expire (now : Instant) (run : Run H) :
    (expire now run).record.figures = run.record.figures := by
  unfold expire; split <;> rfl

@[simp] theorem figures_endRun (unix : UInt64) (run : Run H) :
    (endRun unix run).record.figures = run.record.figures := by
  unfold endRun; split <;> rfl

@[simp] theorem figures_takeSlot (run : Run H) :
    (takeSlot run).record.figures = run.record.figures := rfl

@[simp] theorem figures_setHash (hash : H) (run : Run H) :
    (setHash hash run).record.figures = run.record.figures := rfl

variable [DecidableEq H]

/-- The call settles an admission. -/
def Call.settles (call : Call) : Bool :=
  match call.op with
  | .settle _ _ => true
  | _ => false

variable (hash : Bytes → H)

/-- One of `calls`, made in `s`, registers `key` anew. -/
def Registers (s : State H) (calls : List Call) (key : RunKey) : Prop :=
  ∃ before call after reg, calls = before ++ call :: after ∧
    granted hash ((machine hash).runFrom s before) call = some reg ∧ reg.key = key

/-- `calls` lead from `s` to `s'`, and none of them settles. -/
structure Unsettled (s : State H) (calls : List Call) (s' : State H) : Prop where
  state : s' = (machine hash).runFrom s calls
  quiet : ∀ call ∈ calls, call.settles = false

variable {hash}

namespace Unsettled

theorem nil (s : State H) : Unsettled hash s [] s := ⟨rfl, by simp⟩

theorem one (s : State H) {call : Call} (h : call.settles = false) :
    Unsettled hash s [call] ((machine hash).next s call) := by
  refine ⟨rfl, ?_⟩
  intro other hother
  rwa [List.mem_singleton.mp hother]

theorem append {s s' s'' : State H} {calls calls' : List Call} (h : Unsettled hash s calls s')
    (h' : Unsettled hash s' calls' s'') : Unsettled hash s (calls ++ calls') s'' := by
  refine ⟨?_, ?_⟩
  · rw [Mealy.runFrom_append, ← h.state, h'.state]
  · intro call hcall
    rcases List.mem_append.mp hcall with hcall | hcall
    · exact h.quiet call hcall
    · exact h'.quiet call hcall

end Unsettled

/-- A run a registration starts has counted nothing. -/
theorem figures_of_granted {s : State H} {call : Call} {reg : Registration}
    (h : granted hash s call = some reg) {run : Run H}
    (hrun : ((machine hash).next s call).runs.lookup reg.key = some run) :
    run.record.figures = {} := by
  obtain ⟨now, op⟩ := call
  change (step hash s ⟨now, op⟩).1.runs.lookup reg.key = some run at hrun
  cases op with
  | register identity limits random unix =>
      cases hk : (s.prune now).runs.lookup identity.key with
      | some old =>
          by_cases hc : old.jti ≠ some identity.jti ∨ old.record.state ≠ .active <;>
            simp [granted, Call.registration, step, register, hk, hc] at h
      | none =>
          by_cases hfull : maxRuns ≤ (s.prune now).runs.size
          · simp [granted, Call.registration, step, register, hk, hfull] at h
          · simp only [granted, Call.registration, step, register, hk, hfull, Prod.map, if_false,
              Option.isNone_none, if_true, Option.some.injEq, id] at h hrun
            subst h
            simp only [State.insert, Assoc.lookup_insert_eq, if_true, Option.some.injEq] at hrun
            rw [← hrun]
            rfl
  | registerUnproven name limits quota random unix =>
      cases hk : (s.prune now).runs.lookup (.unproven name) with
      | some old => simp [granted, Call.registration, step, registerUnproven, hk] at h
      | none =>
          by_cases hquota : quota.max ≤ (inWindow quota now (s.prune now).unproven).length
          · simp [granted, Call.registration, step, registerUnproven, hk, hquota] at h
          by_cases hfull : maxUnprovenRuns ≤ (s.prune now).runs.countKeys RunKey.isUnproven ∨
              maxRuns ≤ (s.prune now).runs.size
          · simp [granted, Call.registration, step, registerUnproven, hk, hquota, hfull] at h
          · simp only [granted, Call.registration, step, registerUnproven, hk, hquota, hfull,
              Prod.map, if_false, Option.isNone_none, Option.isSome_none, Bool.false_eq_true,
              if_true, Option.some.injEq, id] at h hrun
            subst h
            simp only [State.insert, Assoc.lookup_insert_eq, if_true, Option.some.injEq] at hrun
            rw [← hrun]
            rfl
  | _ => simp [granted, Call.registration] at h

/-- A run that is there after pruning was there before, with the same figures. -/
private theorem figures_of_prune {s : State H} {now : Instant} {k : RunKey} {run : Run H}
    (h : (s.prune now).runs.lookup k = some run) :
    ∃ old, s.runs.lookup k = some old ∧ run.record.figures = old.record.figures := by
  obtain ⟨old, hold, -, rfl⟩ := lookup_prune_eq_some.mp h
  exact ⟨old, hold, figures_expire now old⟩

/-- A change of one run that leaves its figures leaves all. -/
private theorem figures_of_modify {s : State H} {now : Instant} {key k : RunKey}
    {f : Run H → Run H} (hf : ∀ run, (f run).record.figures = run.record.figures) {run : Run H}
    (h : ((s.prune now).runs.modify key f).lookup k = some run) :
    ∃ old, s.runs.lookup k = some old ∧ run.record.figures = old.record.figures := by
  rw [Assoc.lookup_modify] at h
  split at h
  · obtain ⟨mid, hmid, rfl⟩ := Option.map_eq_some_iff.mp h
    obtain ⟨old, hold, hfigures⟩ := figures_of_prune hmid
    exact ⟨old, hold, (hf mid).trans hfigures⟩
  · exact figures_of_prune h

/-- **Step.** What a call that does not settle does to the figures of a run: it registers it, or
leaves them. -/
theorem figures_next {s : State H} {call : Call} (hquiet : call.settles = false) {k : RunKey}
    {run : Run H} (h : ((machine hash).next s call).runs.lookup k = some run) :
    ((∀ reg, granted hash s call = some reg → reg.key ≠ k) ∧
        ∃ old, s.runs.lookup k = some old ∧ run.record.figures = old.record.figures) ∨
      (∃ reg, granted hash s call = some reg ∧ reg.key = k) ∧ run.record.figures = {} := by
  have hnone : granted hash s call = none →
      ∀ reg, granted hash s call = some reg → reg.key ≠ k := by
    intro hnone reg hsome
    rw [hnone] at hsome
    cases hsome
  cases transition hash s call with
  | quiet hminted hgranted hop hadm hruns htokens =>
      rw [hruns] at h
      exact .inl ⟨hnone hgranted, figures_of_prune h⟩
  | fresh reg token fresh hcall hminted hgranted habsent hroom hterms hactive hhash hinFlight hruns
      htokens =>
      by_cases hkey : k = reg.key
      · subst hkey
        exact .inr ⟨⟨reg, hgranted, rfl⟩, figures_of_granted hgranted h⟩
      · rw [hruns, Assoc.lookup_insert_eq, if_neg hkey] at h
        refine .inl ⟨?_, figures_of_prune h⟩
        intro other hother
        rw [hgranted] at hother
        cases hother
        exact Ne.symm hkey
  | replaced key token old hminted hgranted hrun hactive hruns htokens =>
      rw [hruns] at h
      exact .inl ⟨hnone hgranted, figures_of_modify (figures_setHash _) h⟩
  | ended key unix hcall hruns htokens =>
      rw [hruns] at h
      refine .inl ⟨hnone ?_, figures_of_modify (figures_endRun unix) h⟩
      simp [granted, Call.registration, hcall]
  | taken key old hcall hrun hactive hfree hanswer hruns htokens =>
      rw [hruns] at h
      refine .inl ⟨hnone ?_, figures_of_modify figures_takeSlot h⟩
      simp [granted, Call.registration, hcall]
  | released key outcome hcall hruns htokens =>
      simp [Call.settles, hcall] at hquiet

/-- **Run.** After calls of which none settles, a remembered run has the figures it had before, or
was registered anew and has none. -/
theorem figures_of_unsettled {s s' : State H} {calls : List Call} (h : Unsettled hash s calls s')
    {k : RunKey} {run : Run H} (hrun : s'.runs.lookup k = some run) :
    (∃ old, s.runs.lookup k = some old ∧ run.record.figures = old.record.figures) ∨
      Registers hash s calls k ∧ run.record.figures = {} := by
  obtain ⟨rfl, hquiet⟩ := h
  induction calls using List.reverseRecOn generalizing run with
  | nil => exact .inl ⟨run, hrun, rfl⟩
  | append_singleton calls call ih =>
      rw [Mealy.runFrom_append] at hrun
      have hlast : call.settles = false := hquiet call (by simp)
      rcases figures_next hlast hrun with
        ⟨-, mid, hmid, hfigures⟩ | ⟨⟨reg, hgranted, hkey⟩, hfigures⟩
      · have hbefore : ∀ c ∈ calls, c.settles = false :=
          fun c hc => hquiet c (List.mem_append_left _ hc)
        rcases ih hbefore hmid with ⟨old, hold, hsame⟩ | ⟨hregisters, hzero⟩
        · exact .inl ⟨old, hold, hfigures.trans hsame⟩
        · obtain ⟨before, call', after, reg, rfl, hgranted, hkey⟩ := hregisters
          refine .inr ⟨⟨before, call', after ++ [call], reg, ?_, hgranted, hkey⟩,
            hfigures.trans hzero⟩
          rw [List.append_assoc, List.cons_append]
      · exact .inr ⟨⟨calls, call, [], reg, rfl, hgranted, hkey⟩, hfigures⟩

/-- **Only settling counts.** After calls of which none settles, a remembered run has the totals it
had before, or was registered anew and has none. -/
theorem totals_of_unsettled {s s' : State H} {calls : List Call} (h : Unsettled hash s calls s')
    {k : RunKey} {run : Run H} (hrun : s'.runs.lookup k = some run) :
    (∃ old, s.runs.lookup k = some old ∧ run.record.totals = old.record.totals) ∨
      Registers hash s calls k ∧ run.record.totals = {} := by
  rcases figures_of_unsettled h hrun with ⟨old, hold, hsame⟩ | ⟨hregisters, hzero⟩
  · exact .inl ⟨old, hold, congrArg Figures.totals hsame⟩
  · exact .inr ⟨hregisters, congrArg Figures.totals hzero⟩

end Runs

end CredentialBroker
