import CredentialBroker.Runs.Lifetime
import CredentialBroker.Runs.Tokens

/-!
# Where what the registry holds comes from

Requests that interleave come to the registry with times that may decrease, and hashes of tokens may
collide. Whatever the calls, a hash in the registry is that of a token minted for its run, since its
key was last granted a registration, and a run is on the terms of that.
-/

namespace CredentialBroker.Runs

variable {H : Type} [DecidableEq H] {hash : Bytes → H}

/-! ## Tokens -/

variable (hash) in
/-- A token was minted for `k` that has the hash `h`, and `k` was granted nothing since. -/
def MintedFor (calls : List Call) (h : H) (k : RunKey) : Prop :=
  ∃ before call token, before ++ [call] <+: calls ∧
    minted hash ((machine hash).run before) call = some (k, token) ∧ hash token = h ∧
    lastGranted hash k ((machine hash).trace (before ++ [call])) =
      lastGranted hash k ((machine hash).trace calls)

theorem MintedFor.concat {calls : List Call} {h : H} {k : RunKey} (hm : MintedFor hash calls h k)
    {call : Call}
    (hgranted : ∀ reg, granted hash ((machine hash).run calls) call = some reg → reg.key ≠ k) :
    MintedFor hash (calls ++ [call]) h k := by
  obtain ⟨before, earlier, token, hpre, hminted, hhash, hlast⟩ := hm
  refine ⟨before, earlier, token, hpre.trans (List.prefix_append _ _), hminted, hhash, ?_⟩
  rw [hlast, Mealy.trace_concat, lastGranted_concat_of_ne hgranted]

theorem mintedFor_new {calls : List Call} {call : Call} {k : RunKey} {token : Bytes}
    (hminted : minted hash ((machine hash).run calls) call = some (k, token)) :
    MintedFor hash (calls ++ [call]) (hash token) k :=
  ⟨calls, call, token, List.prefix_refl _, hminted, rfl, rfl⟩

variable (hash) in
/-- Every hash in the map is that of its run, and of a token that was minted for it. -/
structure FromMints (calls : List Call) (s : State H) : Prop where
  held : ∀ h k, s.tokens.lookup h = some k → ∃ run, s.runs.lookup k = some run ∧ run.tokenHash = h
  minted : ∀ h k, s.tokens.lookup h = some k → MintedFor hash calls h k

/-- A run that is forgotten takes its hash along. -/
theorem FromMints.prune {calls : List Call} {s : State H} (hi : FromMints hash calls s)
    (now : Instant) : FromMints hash calls (s.prune now) := by
  constructor
  · intro h k hk
    obtain ⟨hold, hretained⟩ := lookup_tokens_prune.mp hk
    obtain ⟨run, hrun, hhash⟩ := hi.held h k hold
    exact ⟨_, lookup_prune_eq_some.mpr ⟨run, hrun, hretained k run hrun hhash, rfl⟩,
      (tokenHash_expire now run).trans hhash⟩
  · intro h k hk
    exact hi.minted h k (lookup_tokens_prune.mp hk).1

/-- What keeps the hashes of the runs keeps what is known of them. -/
theorem FromMints.modify {calls : List Call} {s s' : State H} (hi : FromMints hash calls s)
    {call : Call} (hgranted : granted hash ((machine hash).run calls) call = none) {key : RunKey}
    {f : Run H → Run H} (hf : ∀ run, (f run).tokenHash = run.tokenHash)
    (hruns : s'.runs = s.runs.modify key f) (htokens : s'.tokens = s.tokens) :
    FromMints hash (calls ++ [call]) s' := by
  constructor
  · intro h k hk
    rw [htokens] at hk
    obtain ⟨run, hrun, hhash⟩ := hi.held h k hk
    rw [hruns, Assoc.lookup_modify]
    split
    · exact ⟨f run, by rw [hrun]; rfl, (hf run).trans hhash⟩
    · exact ⟨run, hrun, hhash⟩
  · intro h k hk
    rw [htokens] at hk
    apply (hi.minted h k hk).concat
    intro reg hreg
    rw [hgranted] at hreg
    cases hreg

/-- **Step.** A call leaves no hash in the map but its runs' own, each of a token minted for what
the run was granted last. -/
theorem FromMints.step {calls : List Call} (hi : FromMints hash calls ((machine hash).run calls))
    (call : Call) :
    FromMints hash (calls ++ [call]) ((machine hash).next ((machine hash).run calls) call) := by
  have hpruned := hi.prune call.now
  have hother : ∀ {k}, granted hash ((machine hash).run calls) call = none →
      ∀ reg, granted hash ((machine hash).run calls) call = some reg → reg.key ≠ k := by
    intro k hnone reg hreg
    rw [hnone] at hreg
    cases hreg
  cases transition hash ((machine hash).run calls) call with
  | quiet hminted hgranted hop hadm hruns htokens =>
      constructor
      · intro h k hk
        obtain ⟨run, hrun, hhash⟩ := hpruned.held h k (htokens ▸ hk)
        exact ⟨run, hruns ▸ hrun, hhash⟩
      · intro h k hk
        exact (hpruned.minted h k (htokens ▸ hk)).concat (hother hgranted)
  | fresh reg token run hcall hminted hgranted habsent hroom hterms hactive hhash hinFlight hruns
      htokens =>
      -- an earlier hash of the key would be of a run that is there
      have hne : ∀ h k, (((machine hash).run calls).prune call.now).tokens.lookup h = some k →
          reg.key ≠ k := by
        rintro h _ hk rfl
        obtain ⟨old, hold, -⟩ := hpruned.held h _ hk
        rw [habsent] at hold
        cases hold
      constructor
      · intro h k hk
        rw [show ((machine hash).next ((machine hash).run calls) call).runs = _ from hruns]
        rw [show ((machine hash).next ((machine hash).run calls) call).tokens = _ from htokens,
          Assoc.lookup_insert_eq] at hk
        split at hk
        · next heq =>
            cases hk
            exact ⟨run, AList.lookup_insert _, hhash.trans heq.symm⟩
        · obtain ⟨old, hold, holdHash⟩ := hpruned.held h k hk
          refine ⟨old, ?_, holdHash⟩
          rw [Assoc.lookup_insert_eq, if_neg (hne h k hk).symm]
          exact hold
      · intro h k hk
        rw [show ((machine hash).next ((machine hash).run calls) call).tokens = _ from htokens,
          Assoc.lookup_insert_eq] at hk
        split at hk
        · next heq =>
            cases hk
            rw [heq]
            exact mintedFor_new hminted
        · apply (hpruned.minted h k hk).concat
          intro reg' hreg'
          rw [hgranted] at hreg'
          cases hreg'
          exact hne h k hk
  | replaced key token run hminted hgranted hrun hactive hruns htokens =>
      constructor
      · intro h k hk
        rw [show ((machine hash).next ((machine hash).run calls) call).runs = _ from hruns,
          Assoc.lookup_modify]
        rw [show ((machine hash).next ((machine hash).run calls) call).tokens = _ from htokens,
          Assoc.lookup_insert_eq] at hk
        split at hk
        · next heq =>
            cases hk
            rw [if_pos rfl, hrun]
            exact ⟨_, rfl, heq.symm⟩
        · rw [Assoc.lookup_erase_eq] at hk
          split at hk
          · cases hk
          · next hkept =>
              obtain ⟨old, hold, holdHash⟩ := hpruned.held h k hk
              have hne : k ≠ key := by
                rintro rfl
                rw [hrun] at hold
                cases hold
                exact hkept holdHash.symm
              rw [if_neg hne]
              exact ⟨old, hold, holdHash⟩
      · intro h k hk
        rw [show ((machine hash).next ((machine hash).run calls) call).tokens = _ from htokens,
          Assoc.lookup_insert_eq] at hk
        split at hk
        · next heq =>
            cases hk
            rw [heq]
            exact mintedFor_new hminted
        · rw [Assoc.lookup_erase_eq] at hk
          split at hk
          · cases hk
          · exact (hpruned.minted h k hk).concat (hother hgranted)
  | ended key unix hcall hruns htokens =>
      exact hpruned.modify (by simp [granted, Call.registration, hcall]) (tokenHash_endRun unix)
        hruns htokens
  | taken key run hcall hrun hactive hfree hanswer hruns htokens =>
      exact hpruned.modify (by simp [granted, Call.registration, hcall]) tokenHash_takeSlot hruns
        htokens
  | released key outcome hcall hruns htokens =>
      exact hi.modify (by simp [granted, Call.registration, hcall]) (tokenHash_release outcome)
        hruns htokens

variable (hash) in
/-- **Run.** So it is whatever the calls. -/
theorem fromMints_run (calls : List Call) :
    FromMints hash calls ((machine hash).run calls) := by
  induction calls using List.reverseRecOn with
  | nil =>
      constructor
      · intro h k hk
        cases hk
      · intro h k hk
        cases hk
  | append_singleton calls call ih =>
      rw [Mealy.run_concat]
      exact ih.step call

/-! ## Terms -/

variable (hash) in
/-- Every run is on the terms of the last registration its key was granted. -/
def OnTerms (tr : List (State H × Call)) (s : State H) : Prop :=
  ∀ k run, s.runs.lookup k = some run →
    ∃ reg, lastGranted hash k tr = some reg ∧ run.terms = reg.terms

/-- **Step.** A call leaves every run on the terms of what its key was granted last. -/
theorem OnTerms.step {tr : List (State H × Call)} {s : State H} (hi : OnTerms hash tr s)
    (call : Call) : OnTerms hash (tr ++ [(s, call)]) ((machine hash).next s call) := by
  intro k run hrun
  cases keyStep hash s call k with
  | fresh reg run' hgranted hcall hkey habsent hrun' hterms =>
      rw [hrun', Option.some.injEq] at hrun
      subst hrun
      exact ⟨reg, lastGranted_concat_of_eq hgranted hkey, hterms⟩
  | kept old run' hgranted hold hrun' hterms hmoves =>
      rw [hrun', Option.some.injEq] at hrun
      subst hrun
      obtain ⟨reg, hreg, heq⟩ := hi k old hold
      exact ⟨reg, (lastGranted_concat_of_ne hgranted).trans hreg, hterms.trans heq⟩
  | absent hgranted hold hnone =>
      rw [hnone] at hrun
      cases hrun

variable (hash) in
/-- **Run.** So it is whatever the calls. -/
theorem onTerms_run (calls : List Call) :
    OnTerms hash ((machine hash).trace calls) ((machine hash).run calls) := by
  apply Mealy.invariant (m := machine hash) (G := fun _ _ => True) (P := OnTerms hash)
  · intro k run hk
    cases hk
  · intro is call hi _
    exact hi.step call
  · exact Mealy.along_true calls

/-- What a key was granted last, after more calls: what it was before, or by one of them. -/
theorem lastGranted_append {calls more : List Call} {k : RunKey} {reg : Registration}
    (h : lastGranted hash k ((machine hash).trace (calls ++ more)) = some reg) :
    lastGranted hash k ((machine hash).trace calls) = some reg ∨
      ∃ before call, before ++ [call] <+: more ∧
        granted hash ((machine hash).run (calls ++ before)) call = some reg := by
  induction more using List.reverseRecOn with
  | nil =>
      rw [List.append_nil] at h
      exact .inl h
  | append_singleton more call ih =>
      rw [← List.append_assoc, Mealy.trace_concat] at h
      by_cases hnew : ∃ reg', granted hash ((machine hash).run (calls ++ more)) call = some reg' ∧
          reg'.key = k
      · obtain ⟨reg', hgranted, hkey⟩ := hnew
        rw [lastGranted_concat_of_eq hgranted hkey] at h
        cases h
        exact .inr ⟨more, call, List.prefix_refl _, hgranted⟩
      · rw [lastGranted_concat_of_ne fun reg' hreg' hkey => hnew ⟨reg', hreg', hkey⟩] at h
        rcases ih h with hold | ⟨before, earlier, hpre, hgranted⟩
        · exact .inl hold
        · exact .inr ⟨before, earlier, hpre.trans (List.prefix_append _ _), hgranted⟩

/-- A registration that was granted was asked for. -/
theorem registration_of_granted {s : State H} {call : Call} {reg : Registration}
    (h : granted hash s call = some reg) : call.registration = some reg := by
  unfold granted at h
  split at h
  · next hreg _ =>
      split at h
      · cases h
        exact hreg
      · cases h
  · cases h

end CredentialBroker.Runs
