import CredentialBroker.Runs.Origins
import CredentialBroker.Runs.Quota
import CredentialBroker.Tasks.Linear

/-!
# On whose authority a request goes on

A request is injected for an operator of the tokens file, or for a run. A run is there because some
earlier request registered it: with a token that verified by a key of the cache, for a job of an
allowed workflow, or without proof where the configuration has a quota for that. `Effects` is what
a critical section may do to the registry and the operators, `accounted_run` the induction.
-/

namespace CredentialBroker

/-- An operator as the tokens file names it. -/
def Operator.idle (operator : Operator) : Operator := { operator with inFlight := 0 }

namespace Tasks

open Oidc RunTokenFilter

variable {H K : Type} [DecidableEq H] {hash : Bytes → H} {d : Deployed K}

/-! ## What a critical section may do -/

/-- The operators are those of before, whatever they have in flight. -/
def SameOperators (before after : Operators H) : Prop :=
  ∀ h operator, after.lookup h = some operator →
    ∃ old, before.lookup h = some old ∧ operator.idle = old.idle

theorem SameOperators.refl (operators : Operators H) : SameOperators operators operators :=
  fun _ operator h => ⟨operator, h, rfl⟩

theorem SameOperators.trans {before after last : Operators H} (h : SameOperators before after)
    (h' : SameOperators after last) : SameOperators before last := by
  intro key operator hoperator
  obtain ⟨middle, hmiddle, heq⟩ := h' key operator hoperator
  obtain ⟨old, hold, heq'⟩ := h key middle hmiddle
  exact ⟨old, hold, heq.trans heq'⟩

theorem sameOperators_release (operators : Operators H) (name : String) :
    SameOperators operators (operators.release name) := by
  intro h operator hoperator
  unfold Operators.release at hoperator
  rw [Assoc.lookup_mapVals] at hoperator
  obtain ⟨old, hold, rfl⟩ := Option.map_eq_some_iff.mp hoperator
  refine ⟨old, hold, ?_⟩
  split <;> rfl

theorem idle_admitRequest (operator : Operator) (cluster : String) :
    (operator.admitRequest cluster).1.idle = operator.idle := by
  unfold Operator.admitRequest
  split
  · rfl
  · split <;> rfl

variable (hash) in
theorem sameOperators_admitRequest (filter : RunTokenFilter) (world : World H) (out : Outside)
    (headers : HeaderMap) (cluster : String) :
    SameOperators world.operators
      (filter.admitRequest hash world out headers cluster).1.operators := by
  have hsame := SameOperators.refl world.operators
  unfold RunTokenFilter.admitRequest
  split
  · exact hsame
  · next name token htoken =>
      split
      · next operator hauth =>
          split
          · next admitted slot hadm =>
              intro h found hfound
              dsimp only at hfound
              rw [Assoc.lookup_insert_eq] at hfound
              split at hfound
              · next heq =>
                  cases hfound
                  refine ⟨operator, ?_, ?_⟩
                  · unfold Operators.authenticate at hauth
                    split at hauth
                    · exact heq ▸ hauth
                    · cases hauth
                  · have hidle := idle_admitRequest operator cluster
                    rw [hadm] at hidle
                    exact hidle
              · exact hsame h found hfound
          · exact hsame
          · exact hsame
      · split
        · exact hsame
        · split <;> exact hsame

/-- What a critical section did, if it asks for no registration but some that satisfy `P`. -/
structure Effects (P : Registration → Prop) (g g' : Gateway H K) : Prop where
  calls : ∀ call ∈ g'.calls, call ∈ g.calls ∨ ∀ reg, call.registration = some reg → P reg
  operators : SameOperators g.shared.operators g'.shared.operators

namespace Effects

variable {P : Registration → Prop} {g g' : Gateway H K}

theorem of_eq (hcalls : g'.calls = g.calls) (hoperators : g'.shared.operators = g.shared.operators) :
    Effects P g g' := by
  refine ⟨?_, hoperators ▸ SameOperators.refl _⟩
  intro call hcall
  exact .inl (hcalls ▸ hcall)

variable (hash) in
theorem made (g : Gateway H K) {call : Runs.Call}
    (hcall : ∀ reg, call.registration = some reg → P reg) : Effects P g (g.made hash call) := by
  refine ⟨?_, SameOperators.refl _⟩
  intro call' hcall'
  rcases List.mem_append.mp hcall' with hold | hnew
  · exact .inl hold
  · rw [List.mem_singleton.mp hnew]
    exact .inr hcall

end Effects

theorem Ran.effects {g g' : Gateway H K} {id : Nat} {draw : Draw} {P : Registration → Prop}
    {before : Bool} {taken : Option String} {next : Next K}
    (h : Ran hash d g id draw P before taken g' next) : Effects P g g' := by
  cases h with
  | made call _ hcall hverifying hfetching hreturning hslotless => exact .made hash g hcall
  | exceeded key operator hfound hfull hbefore =>
      refine ⟨fun call hcall => .inl hcall, ?_⟩
      intro h found hlookup
      dsimp only at hlookup
      rw [Assoc.lookup_insert_eq] at hlookup
      split at hlookup
      · next heq =>
          cases hlookup
          exact ⟨operator, heq ▸ hfound, rfl⟩
      · exact SameOperators.refl _ h found hlookup
  | returned name hbefore => exact ⟨fun call hcall => .inl hcall, sameOperators_release _ name⟩
  | operated request cluster name token operator htoken hoperator hfree hbefore =>
      refine ⟨fun call hcall => .inl hcall, ?_⟩
      have hsame := sameOperators_admitRequest hash d.base g.shared.world draw.alone
        request.headers cluster
      rw [← world_injected] at hsame
      exact hsame
  | _ => exact .of_eq rfl rfl

variable (hash d) in
theorem effects_onRequest (g : Gateway H K) (draw : Draw) (request : Request)
    (cluster : Option String) :
    Effects (AsksAtOnce d draw request) g (g.onRequest hash d draw request cluster).1 :=
  (g.ran_onRequest hash d 0 draw request cluster).effects

variable (hash d) in
theorem effects_advance (g : Gateway H K) (id : Nat) (draw : Draw) (task : Task K) :
    Effects (Asks d draw task.stage) g (g.advance hash d id draw task).1 := by
  cases hwaits : (Next.wait task.stage).fetching with
  | false => exact (g.ran_advance hash d id draw task hwaits).effects
  | true =>
      rw [g.advance_of_fetching id draw hwaits]
      exact .of_eq rfl rfl

/-! ## Who registered -/

section Entitled

variable {operators : Operators H} {usage : UsageRegistry}

variable (hash d operators usage) in
/-- What was asked of the registry, by the end of `acts`, on whose authority. -/
inductive Entitled (acts : List (Act K)) : Registration → Prop where
  /-- A token verified as a job's, of a workflow that may register, and its request came to the
  registry. -/
  | verified (arrival before : List (Act K)) (draw : Draw) (request : Request)
      (cluster : Option String) (loaded : LoadedRegistrar) (verifier : Verifier) (token : Bytes)
      (found : K) (unix : UInt64) (identity : RunIdentity) (later : Draw)
      (harrival : arrival ++ [.request draw request cluster] <+: before)
      (hregisters : Registers d request loaded verifier)
      (hbearer : bearer request.headers = some token)
      (hkeyed : Keyed d ((gateway hash d operators usage).run arrival).keyCalls
        ((gateway hash d operators usage).run before).keyCalls token (.ok found))
      (hunix : ∃ verified ∈ drawn arrival before, unix = verified.unix)
      (hidentity : d.identity verifier.policy unix token found = .ok identity)
      (hstage : ((gateway hash d operators usage).run before).tasks.lookup
        ((gateway hash d operators usage).run arrival).shared.arrived =
          some ⟨request, cluster, .registering identity⟩)
      (hlater : before ++ [.resume ((gateway hash d operators usage).run arrival).shared.arrived
        later] <+: acts) :
      Entitled acts ⟨identity.key, identity.proof, some identity.jti, identity.consumer,
        loaded.limits, later.now⟩
  /-- A request without proof, where the configuration has a quota for those. -/
  | unproven (arrival : List (Act K)) (draw : Draw) (request : Request) (cluster : Option String)
      (loaded : LoadedRegistrar) (quota : Quota) (name : RunName)
      (harrival : arrival ++ [.request draw request cluster] <+: acts)
      (hunproven : Unproven d request loaded quota name) :
      Entitled acts (unprovenRegistration draw loaded name)

theorem Entitled.mono {acts more : List (Act K)} {reg : Registration}
    (h : Entitled hash d operators usage acts reg) (hpre : acts <+: more) :
    Entitled hash d operators usage more reg := by
  cases h with
  | verified arrival before draw request cluster loaded verifier token found unix identity later
      harrival hregisters hbearer hkeyed hunix hidentity hstage hlater =>
      exact .verified arrival before draw request cluster loaded verifier token found unix identity
        later harrival hregisters hbearer hkeyed hunix hidentity hstage (hlater.trans hpre)
  | unproven arrival draw request cluster loaded quota name harrival hunproven =>
      exact .unproven arrival draw request cluster loaded quota name (harrival.trans hpre) hunproven

theorem Effects.settled {P : Registration → Prop} {g g' : Gateway H K} (h : Effects P g g')
    (id : Nat) (request : Request) (cluster : Option String) (next : Next K) :
    Effects P g (g'.settled id request cluster next).1 := by
  constructor
  · rw [Gateway.calls_settled]
    exact h.calls
  · have hsame : (g'.settled id request cluster next).1.shared.operators = g'.shared.operators := by
      cases next <;> rfl
    rw [hsame]
    exact h.operators

/-- The settling of a request registers nothing. -/
theorem registration_settling (g : Gateway H K) (id : Nat)
    (outcome : Runs.Admission → Runs.Outcome) (draw : Draw) {call : Runs.Call}
    (hcall : call ∈ g.settling id outcome draw) {reg : Registration} :
    call.registration ≠ some reg := by
  unfold Gateway.settling at hcall
  split at hcall
  · rw [List.mem_singleton.mp hcall]
    intro hreg
    cases hreg
  · cases hcall
  · cases hcall

/-- The callbacks of a request that went on. -/
theorem operators_callbacks (s : FilterState H) (id : Nat) :
    (∀ head unix, (s.onResponse id head unix).operators = s.operators) ∧
      (∀ endOfStream metadata unix,
        SameOperators s.operators (s.onResponseBody id endOfStream metadata unix).operators) ∧
      SameOperators s.operators (s.onDrop id).operators := by
  have hsame := SameOperators.refl s.operators
  refine ⟨?_, ?_, ?_⟩
  · intro head unix
    unfold FilterState.onResponse
    split <;> rfl
  · intro endOfStream metadata unix
    unfold FilterState.onResponseBody
    split
    · exact hsame
    · split
      · unfold FilterState.settle
        dsimp only
        split
        · exact hsame
        · exact sameOperators_release _ _
        · exact hsame
      · exact hsame
  · unfold FilterState.onDrop
    split
    · exact hsame
    · dsimp only
      split
      · exact hsame
      · exact sameOperators_release _ _
      · exact hsame

variable (hash d operators usage) in
/-- What holds of the registry and the operators after a run. -/
structure Accounted (acts : List (Act K)) : Prop where
  entitled : ∀ call ∈ ((gateway hash d operators usage).run acts).calls, ∀ reg,
    call.registration = some reg → Entitled hash d operators usage acts reg
  operators : SameOperators operators ((gateway hash d operators usage).run acts).shared.operators

/-- What an act does is accounted for if what it asks for is. -/
theorem Accounted.effects {acts : List (Act K)} {act : Act K} {P : Registration → Prop}
    (h : Accounted hash d operators usage acts)
    (heffects : Effects P ((gateway hash d operators usage).run acts)
      ((gateway hash d operators usage).run (acts ++ [act])))
    (hentitled : ∀ reg, P reg → Entitled hash d operators usage (acts ++ [act]) reg) :
    Accounted hash d operators usage (acts ++ [act]) := by
  refine ⟨?_, h.operators.trans heffects.operators⟩
  intro call hcall reg hreg
  rcases heffects.calls call hcall with hold | hnew
  · exact (h.entitled call hold reg hreg).mono (List.prefix_append _ _)
  · exact hentitled reg (hnew reg hreg)

/-- **Step.** An act asks for no registration without authority, and the operators stay those of the
tokens file. -/
theorem Accounted.step {acts : List (Act K)} (h : Accounted hash d operators usage acts)
    (act : Act K) : Accounted hash d operators usage (acts ++ [act]) := by
  have hpre : acts <+: acts ++ [act] := List.prefix_append _ _
  have hrun : (gateway hash d operators usage).run (acts ++ [act]) =
      (((gateway hash d operators usage).run acts).step hash d act).1 := Mealy.run_concat _ _ _
  -- an act that asks for no registration
  have hquiet : Effects (fun _ => False) ((gateway hash d operators usage).run acts)
      (((gateway hash d operators usage).run acts).step hash d act).1 →
      Accounted hash d operators usage (acts ++ [act]) := by
    intro heffects
    rw [← hrun] at heffects
    exact h.effects heffects (fun _ hnone => hnone.elim)
  cases act with
  | request draw request cluster =>
      have heffects := (effects_onRequest hash d
        ((gateway hash d operators usage).run acts).arrive draw request cluster).settled
          ((gateway hash d operators usage).run acts).shared.arrived request cluster
            (((gateway hash d operators usage).run acts).arrive.onRequest hash d draw request
              cluster).2
      apply h.effects (P := AsksAtOnce d draw request)
      · rw [hrun]
        exact ⟨heffects.calls, heffects.operators⟩
      · rintro _ ⟨loaded, quota, name, hunproven, rfl⟩
        exact .unproven acts draw request cluster loaded quota name (List.prefix_refl _)
          hunproven
  | resume id later =>
      unfold Gateway.step at hquiet hrun
      dsimp only at hquiet hrun
      cases htask : ((gateway hash d operators usage).run acts).tasks.lookup id with
      | none =>
          rw [htask] at hquiet
          exact hquiet (.of_eq rfl rfl)
      | some task =>
          rw [htask] at hrun
          dsimp only at hrun
          apply h.effects
          · rw [hrun]
            exact (effects_advance hash d _ id later task).settled _ _ _ _
          · rintro _ ⟨loaded, identity, hendpoints, hstage, rfl⟩
            obtain ⟨arrival, draw, harrival, rfl, hknown⟩ :=
              known_run hash d operators usage acts id task htask
            obtain ⟨request, cluster, stage⟩ := task
            dsimp only at hstage hknown harrival
            subst hstage
            cases hknown with
            | registering loaded' verifier token found unix _ hregisters hbearer hpermit hunix hkeyed
                hidentity =>
                rw [hregisters.endpoints] at hendpoints
                cases hendpoints
                exact .verified arrival acts draw request cluster loaded verifier token found unix
                  identity later harrival hregisters hbearer hkeyed hunix hidentity htask
                  (List.prefix_refl _)
  | fetched id keys draw =>
      apply hquiet
      obtain ⟨hshared, hcalls⟩ :=
        ((gateway hash d operators usage).run acts).step_fetched hash d id keys draw
      exact .of_eq hcalls (hshared ▸ rfl)
  | cancel id draw =>
      apply hquiet
      obtain ⟨hshared, hcalls⟩ :=
        ((gateway hash d operators usage).run acts).step_cancel hash d id draw
      exact .of_eq hcalls (hshared ▸ rfl)
  | response id head draw =>
      apply hquiet
      exact .of_eq rfl ((operators_callbacks _ id).1 head draw.unix)
  | body id endOfStream metadata draw =>
      apply hquiet
      refine ⟨?_, (operators_callbacks _ id).2.1 endOfStream metadata draw.unix⟩
      intro call hcall
      rcases List.mem_append.mp hcall with hold | hnew
      · exact .inl hold
      · right
        intro reg hreg
        split at hnew
        · exact registration_settling _ _ _ _ hnew hreg
        · cases hnew
  | drop id draw =>
      apply hquiet
      refine ⟨?_, (operators_callbacks _ id).2.2⟩
      intro call hcall
      rcases List.mem_append.mp hcall with hold | hnew
      · exact .inl hold
      · right
        intro reg hreg
        exact registration_settling _ _ _ _ hnew hreg

variable (hash d operators usage) in
/-- **Run.** So it is after any interleaving. -/
theorem accounted_run (acts : List (Act K)) : Accounted hash d operators usage acts := by
  induction acts using List.reverseRecOn with
  | nil =>
      refine ⟨?_, SameOperators.refl _⟩
      intro call hcall
      cases hcall
  | append_singleton acts act ih => exact ih.step act

/-! ## Whose request it is -/

variable (hash) in
/-- A token has the hash of one that was minted for what a registration was granted: when it was, or
since, in place of a token that was lost. -/
def Issued (calls : List Runs.Call) (reg : Registration) (token : Bytes) : Prop :=
  ∃ before call issued, before ++ [call] <+: calls ∧
    Runs.minted hash ((Runs.machine hash).run before) call = some (reg.key, issued) ∧
    hash issued = hash token ∧
    Runs.lastGranted hash reg.key ((Runs.machine hash).trace (before ++ [call])) = some reg

variable (hash) in
/-- A registration was granted by one of the calls, after those of `since`. -/
def GrantedSince (since calls : List Runs.Call) (reg : Registration) : Prop :=
  ∃ before call, since <+: before ∧ before ++ [call] <+: calls ∧
    Runs.granted hash ((Runs.machine hash).run before) call = some reg

variable (hash d operators usage) in
/-- A request that arrived after `arrival`, and drew `draw` then, has a token of `reg`, and goes on
for the run that `current` started. -/
structure OfRun (acts arrival : List (Act K)) (draw : Draw) (token : Bytes)
    (reg current : Registration) : Prop where
  issued : Issued hash ((gateway hash d operators usage).run acts).calls reg token
  entitled : Entitled hash d operators usage acts reg
  /-- It is the run of the token, or one its key was registered for anew since the request
  arrived. -/
  run : current = reg ∨ current.key = reg.key ∧ Entitled hash d operators usage acts current ∧
    GrantedSince hash ((gateway hash d operators usage).run arrival).calls
      ((gateway hash d operators usage).run acts).calls current
  time : draw.now < current.time + current.limits.ttl

variable (hash d operators usage) in
/-- Why a request to `cluster` that arrived after `arrival`, and drew `draw` then, may go on for a
subject. -/
inductive Authority (acts arrival : List (Act K)) (draw : Draw) (request : Request)
    (cluster : String) : String → Prop where
  /-- It has the token of an operator, and the tokens file lists the cluster for that. -/
  | operator (name : String) (token : Bytes) (entry : Operator)
      (hcarries : Carries d.base.tokenHeaders request.headers name token)
      (hentry : operators.authenticate hash token = some entry)
      (hcluster : cluster ∈ entry.clusters) :
      Authority acts arrival draw request cluster entry.subject
  /-- It has a token that was issued for a run, whose time is not over. -/
  | run (name : String) (token : Bytes) (reg current : Registration)
      (hcarries : Carries d.base.tokenHeaders request.headers name token)
      (hrun : OfRun hash d operators usage acts arrival draw token reg current) :
      Authority acts arrival draw request cluster reg.key.subject

/-- What a key was granted last was asked for on some authority. -/
theorem entitled_of_lastGranted {acts : List (Act K)} {calls : List Runs.Call}
    (hcalls : calls <+: ((gateway hash d operators usage).run acts).calls) {key : RunKey}
    {reg : Registration}
    (h : Runs.lastGranted hash key ((Runs.machine hash).trace calls) = some reg) :
    Entitled hash d operators usage acts reg := by
  obtain ⟨e, he, hgranted⟩ := List.mem_filterMap.mp (Runs.mem_grants_of_lastGranted h).1
  exact (accounted_run hash d operators usage acts).entitled e.2
    (hcalls.subset ((Runs.machine hash).mem_of_mem_trace he)) reg
    (Runs.registration_of_granted hgranted)

/-- A token that authenticates as a run was issued for what its key was granted last. -/
theorem issued_of_authenticate {seen acts : List (Act K)} (hseen : seen <+: acts) {token : Bytes}
    {now : Instant} {key : RunKey}
    (h : (Runs.authenticate hash ((gateway hash d operators usage).run seen).shared.runs token
      now).2 = some key) :
    ∃ reg, reg.key = key ∧
      Runs.lastGranted hash key ((Runs.machine hash).trace
        ((gateway hash d operators usage).run seen).calls) = some reg ∧
      Issued hash ((gateway hash d operators usage).run acts).calls reg token := by
  rw [(inStep_run hash d operators usage seen).registry] at h
  have hlookup := (Runs.lookup_tokens_prune.mp h).1
  have hfrom := Runs.fromMints_run hash ((gateway hash d operators usage).run seen).calls
  obtain ⟨run, hrun, -⟩ := hfrom.held _ _ hlookup
  obtain ⟨reg, hlast, -⟩ := Runs.onTerms_run hash _ key run hrun
  obtain ⟨before, call, issued, hpre, hminted, hhash, hsame⟩ := hfrom.minted _ _ hlookup
  obtain rfl := (Runs.mem_grants_of_lastGranted hlast).2
  exact ⟨reg, rfl, hlast, before, call, issued,
    hpre.trans (records_run hash d operators usage hseen).1, hminted, hhash, hsame.trans hlast⟩

/-- The run that a request comes back to: that of its token, or one registered meanwhile. -/
theorem current_of_active {start seen now : Gateway H K} {draw : Draw} {request : Request}
    {between : List Runs.Call} {name : String} {token : Bytes}
    (hstart : start.calls <+: seen.calls) (hasked : Asked d draw request start seen now between)
    (hcarries : Carries d.base.tokenHeaders request.headers name token) {key : RunKey}
    {reg current : Registration}
    (hreg : Runs.lastGranted hash key ((Runs.machine hash).trace seen.calls) = some reg)
    (hcurrent : Runs.lastGranted hash key ((Runs.machine hash).trace
      (seen.calls ++ [⟨draw.now, .authenticate token⟩] ++ between)) = some current) :
    current = reg ∨ GrantedSince hash start.calls now.calls current := by
  rw [List.append_assoc] at hcurrent
  rcases Runs.lastGranted_append hcurrent with hold | ⟨before, call, hpre, hgranted⟩
  · left
    rw [hreg] at hold
    exact (Option.some.inj hold).symm
  · cases before with
    | nil =>
        -- whose a token is grants nothing
        obtain ⟨rfl, -⟩ := List.cons_prefix_cons.mp hpre
        cases Runs.registration_of_granted hgranted
    | cons first before =>
        obtain ⟨rfl, hrest⟩ := List.cons_prefix_cons.mp hpre
        have hbetween : before ++ [call] <+: between := hrest
        right
        refine ⟨_, call, hstart.trans (List.prefix_append _ _), ?_, hgranted⟩
        cases hasked with
        | nothing hcalls => simp at hbetween
        | once other hcalls => simp at hbetween
        | twice _ other header token' _ hcarries' hcalls =>
            obtain ⟨-, rfl⟩ := hcarries.unique (carries_of_token hcarries')
            obtain ⟨rest, rfl⟩ := hbetween
            rw [hcalls]
            exact ⟨rest ++ [other], by simp⟩

/-- Who is admitted has the authority. -/
theorem authority_of_admittedAs {arrival seen now acts : List (Act K)} (harrival : arrival <+: seen)
    (hseen : seen <+: now) (hnow : now <+: acts) {draw later : Draw} {permit : Bool}
    {between : List Runs.Call} {request : Request}
    (hasked : Asked d draw request ((gateway hash d operators usage).run arrival)
      ((gateway hash d operators usage).run seen) ((gateway hash d operators usage).run now) between)
    {cluster subject : String} (unix : UInt64) (keys : String → Except OidcError K)
    (h : AdmittedAs hash (d.filter unix keys) ((gateway hash d operators usage).run
      seen).shared.world (draw.outside later permit between) request.headers cluster subject) :
    Authority hash d operators usage acts arrival draw request cluster subject := by
  have hregistry := (inStep_run hash d operators usage seen).registry
  cases h with
  | operator name token operator hcarries hauth hcluster hfree hsubject =>
      have hstarts := Operators.tokenPrefix_of_authenticate (Option.isSome_of_eq_some hauth)
      obtain ⟨entry, hentry, hidle⟩ := (accounted_run hash d operators usage seen).operators _ _
        (Operators.lookup_of_authenticate hauth)
      have hclusters : operator.idle.clusters = entry.idle.clusters := by rw [hidle]
      have hname : operator.idle.name = entry.idle.name := by rw [hidle]
      have hsame : subject = entry.subject := by
        rw [hsubject]
        exact congrArg ("operator:" ++ ·) hname
      rw [hsame]
      apply Authority.operator name token entry hcarries
      · unfold Operators.authenticate
        rw [if_pos hstarts]
        exact hentry
      · exact (congrArg (cluster ∈ ·) hclusters).mp hcluster
  | run name token key run hcarries hoperator hauth hrun hactive hfree hsubject =>
      obtain ⟨reg, rfl, hlast, hissued⟩ := issued_of_authenticate (hseen.trans hnow) hauth
      have hstate : (Runs.machine hash).runFrom (Runs.authenticate hash
          ((gateway hash d operators usage).run seen).shared.runs token draw.now).1 between =
          (Runs.machine hash).run (((gateway hash d operators usage).run seen).calls ++
            [⟨draw.now, .authenticate token⟩] ++ between) := by
        rw [Mealy.run_append, Mealy.run_concat, hregistry]
        rfl
      have hrun' : (((Runs.machine hash).runFrom (Runs.authenticate hash
          ((gateway hash d operators usage).run seen).shared.runs token draw.now).1
            between).prune draw.now).runs.lookup reg.key = some run := hrun
      rw [hstate] at hrun'
      obtain ⟨old, hold, -, rfl⟩ := Runs.lookup_prune_eq_some.mp hrun'
      obtain ⟨current, hcurrent, hterms⟩ := Runs.onTerms_run hash _ reg.key old hold
      have hentitled := entitled_of_lastGranted
        (records_run hash d operators usage (hseen.trans hnow)).1 hlast
      rw [hsubject]
      refine .run name token reg current hcarries ⟨hissued, hentitled, ?_, ?_⟩
      · rcases current_of_active (records_run hash d operators usage harrival).1 hasked hcarries
          hlast hcurrent with hsame | ⟨before, call, hsince, hcall, hgranted⟩
        · exact .inl hsame
        · right
          have hpre := hcall.trans (records_run hash d operators usage hnow).1
          refine ⟨(Runs.mem_grants_of_lastGranted hcurrent).2, ?_, before, call, hsince, hpre,
            hgranted⟩
          exact (accounted_run hash d operators usage acts).entitled call (hpre.subset (by simp))
            current (Runs.registration_of_granted hgranted)
      · have hexpires : old.expires = current.time + current.limits.ttl :=
          congrArg Terms.expires hterms
        rw [← hexpires]
        exact Runs.lt_expires_of_active hactive

/-- **On whose authority.** However the requests of a gateway interleave, one that is injected has
the token of an operator of the tokens file, for a cluster listed there, or one that was issued to a
job whose token verified, or to a run that a quota let register without, for a time that is not
over. -/
theorem authority_of_proceed {acts : List (Act K)} {act : Act K} {context : Context}
    (hreply : (((gateway hash d operators usage).run acts).step hash d act).2 =
      some (context, .ok .proceed)) :
    ∃ arrival draw request cluster,
      arrival ++ [.request draw request cluster] <+: acts ++ [act] ∧
      ((gateway hash d operators usage).run arrival).shared.arrived =
        act.about ((gateway hash d operators usage).run acts) ∧
      Forwardable request ∧
      (request.path ∈ d.base.publicPaths ∨
        (∃ name, cluster = some name ∧ d.base.credentials.lookup name = some .passThrough) ∨
        ∃ name subject, cluster = some name ∧ d.base.credentials.lookup name = some .injected ∧
          Authority hash d operators usage (acts ++ [act]) arrival draw request name subject ∧
          context.identity = some subject) := by
  obtain ⟨arrival, draw, request, cluster, harrival, habout, seen, now, hseen, hnow, hend,
    hanswered⟩ := answered_of_reply hreply
  obtain ⟨unix, keys, later, between, world, -, honce, -, hasked, -⟩ := hanswered
  obtain ⟨hforward, hproceeds⟩ := proceeds_of_onRequest honce
  refine ⟨arrival, draw, request, cluster, harrival, habout, hforward, ?_⟩
  rcases hproceeds.justified with hpublic | ⟨name, hcluster, hmode⟩ |
    ⟨name, subject, hcluster, hmode, hadmitted, hidentity⟩
  · exact .inl hpublic
  · exact .inr (.inl ⟨name, hcluster, hmode⟩)
  · exact .inr (.inr ⟨name, subject, hcluster, hmode,
      authority_of_admittedAs hseen hnow hend hasked unix keys hadmitted, hidentity⟩)

end Entitled

end Tasks

end CredentialBroker
