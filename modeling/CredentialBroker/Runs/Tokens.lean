import CredentialBroker.Runs.Step

/-!
# One live token per remembered run

The registry keeps two maps: runs by key, and keys by token hash. `Inverse` says they are mutually
inverse, and it survives every call as long as the tokens handed out have distinct hashes. With it
goes the reading of the trace that says *which* token is live: the one most recently minted for the
key. The two together decide every authentication, and show that a token once superseded — by a
retry, by a new registration, or because its run was forgotten — is dead for good.

No ordering of the calls' times is assumed anywhere here.
-/

namespace CredentialBroker.Runs

variable {H : Type} [DecidableEq H] (hash : Bytes → H)

/-! ## Minted tokens of a trace -/

/-- The tokens handed out in a trace, each with the key it is for, in order. -/
def mints (tr : List (State H × Call)) : List (RunKey × Bytes) :=
  tr.filterMap (fun e => minted hash e.1 e.2)

/-- The token most recently minted for `k`. -/
def lastMinted (k : RunKey) (tr : List (State H × Call)) : Option Bytes :=
  (((mints hash tr).filter (fun m => m.1 = k)).getLast?).map Prod.snd

/-- The hashes of the tokens handed out by a list of calls are pairwise distinct. -/
def DistinctTokens (calls : List Call) : Prop :=
  ((mints hash ((machine hash).trace calls)).map (fun m => hash m.2)).Nodup

instance (calls : List Call) : Decidable (DistinctTokens hash calls) :=
  inferInstanceAs (Decidable (List.Nodup _))

theorem mints_append (tr tr' : List (State H × Call)) :
    mints hash (tr ++ tr') = mints hash tr ++ mints hash tr' :=
  List.filterMap_append

theorem mints_cons (e : State H × Call) (tr : List (State H × Call)) :
    mints hash (e :: tr) = (minted hash e.1 e.2).toList ++ mints hash tr := by
  unfold mints
  cases h : minted hash e.1 e.2 <;> simp [h]

theorem mints_concat (tr : List (State H × Call)) (e : State H × Call) :
    mints hash (tr ++ [e]) = mints hash tr ++ (minted hash e.1 e.2).toList := by
  rw [mints_append, mints_cons]
  exact congrArg _ (List.append_nil _)

/-- The mints of a list of calls around a call that mints. -/
theorem mints_trace_split {pre post : List Call} {call : Call} {m : RunKey × Bytes}
    (h : minted hash ((machine hash).run pre) call = some m) :
    mints hash ((machine hash).trace (pre ++ call :: post)) =
      mints hash ((machine hash).trace pre) ++ m :: mints hash ((machine hash).traceFrom
        ((machine hash).next ((machine hash).run pre) call) post) := by
  rw [Mealy.trace_append, mints_append]
  show _ ++ mints hash (((machine hash).run pre, call) :: _) = _
  rw [mints_cons, h]
  rfl

/-- A call that mints for `k` makes its token the last one, any other leaves the last one. -/
theorem lastMinted_concat (k : RunKey) (tr : List (State H × Call)) (e : State H × Call) :
    lastMinted hash k (tr ++ [e]) =
      match minted hash e.1 e.2 with
      | some (k', token) => if k' = k then some token else lastMinted hash k tr
      | none => lastMinted hash k tr := by
  unfold lastMinted
  rw [mints_concat]
  cases minted hash e.1 e.2 with
  | none => simp
  | some m =>
      obtain ⟨k', token⟩ := m
      by_cases hk : k' = k <;> simp [hk, List.filter_append]

theorem mem_mints_of_lastMinted {k : RunKey} {tr : List (State H × Call)} {token : Bytes}
    (h : lastMinted hash k tr = some token) : (k, token) ∈ mints hash tr := by
  obtain ⟨⟨k', token'⟩, hlast, rfl⟩ := Option.map_eq_some_iff.mp h
  have hmem := List.mem_of_getLast? hlast
  rw [List.mem_filter, decide_eq_true_eq] at hmem
  obtain ⟨hmem, rfl⟩ := hmem
  exact hmem

/-- Distinct hashes, as a guard of each call: what it mints hashes to nothing minted before. -/
theorem along_of_distinctTokens {calls : List Call} (h : DistinctTokens hash calls) :
    (machine hash).Along (fun tr call => ∀ k token,
      minted hash ((machine hash).run (tr.map Prod.snd)) call = some (k, token) →
        ∀ m ∈ mints hash tr, hash m.2 ≠ hash token) calls := by
  rintro pre call ⟨post, rfl⟩ k token hminted m hm heq
  rw [Mealy.map_snd_trace] at hminted
  unfold DistinctTokens at h
  rw [List.append_assoc, List.singleton_append, mints_trace_split hash hminted, List.map_append,
    List.nodup_append] at h
  exact h.2.2 (hash m.2) (List.mem_map_of_mem hm) (hash token) List.mem_cons_self heq

/-! ## The two maps -/

/-- The maps of runs and of tokens are mutually inverse. -/
def Inverse (s : State H) : Prop :=
  ∀ h k, s.tokens.lookup h = some k ↔ ∃ run, s.runs.lookup k = some run ∧ run.tokenHash = h

theorem Inverse.key_eq {s : State H} (hi : Inverse s) {k k' : RunKey} {run run' : Run H}
    (hk : s.runs.lookup k = some run) (hk' : s.runs.lookup k' = some run')
    (h : run.tokenHash = run'.tokenHash) : k = k' := by
  have h₁ := (hi run'.tokenHash k).mpr ⟨run, hk, h⟩
  have h₂ := (hi run'.tokenHash k').mpr ⟨run', hk', rfl⟩
  rw [h₁] at h₂
  exact Option.some.inj h₂

/-- Pruning forgets a run and its token together. -/
theorem Inverse.prune {s : State H} (hi : Inverse s) (now : Instant) : Inverse (s.prune now) := by
  intro h k
  rw [lookup_tokens_prune, hi h k]
  constructor
  · rintro ⟨⟨run, hk, rfl⟩, hkeep⟩
    exact ⟨expire now run, lookup_prune_eq_some.mpr ⟨run, hk, hkeep k run hk rfl, rfl⟩, by simp⟩
  · rintro ⟨_, hrun, rfl⟩
    obtain ⟨run, hk, hlt, rfl⟩ := lookup_prune_eq_some.mp hrun
    refine ⟨⟨run, hk, by simp⟩, ?_⟩
    intro k' run' hk' heq
    rw [tokenHash_expire] at heq
    obtain rfl := hi.key_eq hk hk' heq.symm
    rw [hk] at hk'
    cases hk'
    exact hlt

/-- A run that changes in place and keeps its token hash stays in step. -/
theorem Inverse.modify {s s' : State H} (hi : Inverse s) {key : RunKey} {f : Run H → Run H}
    (hf : ∀ run, (f run).tokenHash = run.tokenHash) (hruns : s'.runs = s.runs.modify key f)
    (htokens : s'.tokens = s.tokens) : Inverse s' := by
  intro h k
  rw [htokens, hi h k, hruns, Assoc.lookup_modify]
  split
  · cases hk : s.runs.lookup k <;> simp [hf]
  · rfl

/-- A run inserted under an absent key with a hash of its own is in step. -/
theorem Inverse.insert {s s' : State H} (hi : Inverse s) {key : RunKey} {run : Run H}
    (habsent : s.runs.lookup key = none)
    (hnew : ∀ k run', s.runs.lookup k = some run' → run'.tokenHash ≠ run.tokenHash)
    (hruns : s'.runs = s.runs.insert key run)
    (htokens : s'.tokens = s.tokens.insert run.tokenHash key) : Inverse s' := by
  intro h k
  rw [hruns, htokens, Assoc.lookup_insert_eq, Assoc.lookup_insert_eq]
  by_cases hk : k = key
  · subst hk
    by_cases hh : h = run.tokenHash
    · simp [hh]
    · rw [if_neg hh, if_pos rfl, hi h k, habsent]
      simp [Ne.symm hh]
  · rw [if_neg hk]
    by_cases hh : h = run.tokenHash
    · subst hh
      rw [if_pos rfl]
      simp only [Option.some.injEq, Ne.symm hk, false_iff, not_exists, not_and]
      intro run' hrun'
      exact hnew k run' hrun'
    · rw [if_neg hh, hi h k]

/-- A run that gets a new hash of its own is in step. -/
theorem Inverse.replace {s s' : State H} (hi : Inverse s) {key : RunKey} {run : Run H} {new : H}
    (hrun : s.runs.lookup key = some run)
    (hnew : ∀ k run', s.runs.lookup k = some run' → run'.tokenHash ≠ new)
    (hruns : s'.runs = s.runs.modify key (setHash new))
    (htokens : s'.tokens = (s.tokens.erase run.tokenHash).insert new key) : Inverse s' := by
  intro h k
  rw [hruns, htokens, Assoc.lookup_insert_eq, Assoc.lookup_erase_eq, Assoc.lookup_modify]
  by_cases hk : k = key
  · subst hk
    rw [if_pos rfl, hrun]
    by_cases hh : h = new
    · simp [hh]
    · rw [if_neg hh]
      by_cases hold : h = run.tokenHash
      · simp [hold, Ne.symm (hold ▸ hh)]
      · rw [if_neg hold, hi h k, hrun]
        simp [Ne.symm hh, Ne.symm hold]
  · rw [if_neg hk]
    by_cases hh : h = new
    · subst hh
      rw [if_pos rfl]
      simp only [Option.some.injEq, Ne.symm hk, false_iff, not_exists, not_and]
      intro run' hrun'
      exact hnew k run' hrun'
    · rw [if_neg hh]
      by_cases hold : h = run.tokenHash
      · -- the old hash was `key`'s alone
        subst hold
        simp only [if_true, reduceCtorEq, false_iff, not_exists, not_and]
        intro run' hrun' heq
        exact hk (hi.key_eq hrun' hrun heq)
      · rw [if_neg hold, hi h k]

/-! ## The invariant -/

/-- The maps are in step, and each run carries the hash of the token last minted for its key. -/
structure TokensInStep (tr : List (State H × Call)) (s : State H) : Prop where
  inverse : Inverse s
  latest : ∀ k run, s.runs.lookup k = some run →
    ∃ token, lastMinted hash k tr = some token ∧ run.tokenHash = hash token

variable {hash}

/-- Pruning keeps the invariant: it changes no hash. -/
theorem TokensInStep.prune {tr : List (State H × Call)} {s : State H} (hi : TokensInStep hash tr s)
    (now : Instant) : TokensInStep hash tr (s.prune now) where
  inverse := hi.inverse.prune now
  latest k run hrun := by
    obtain ⟨old, hold, -, rfl⟩ := lookup_prune_eq_some.mp hrun
    simpa using hi.latest k old hold

/-- A call that mints nothing and leaves the maps alone keeps the invariant. -/
theorem TokensInStep.same {tr : List (State H × Call)} {s s' : State H} {e : State H × Call}
    (hi : TokensInStep hash tr s) (hruns : s'.runs = s.runs) (htokens : s'.tokens = s.tokens)
    (hminted : minted hash e.1 e.2 = none) : TokensInStep hash (tr ++ [e]) s' where
  inverse h k := by rw [hruns, htokens]; exact hi.inverse h k
  latest k run hrun := by
    rw [lastMinted_concat, hminted]
    exact hi.latest k run (hruns ▸ hrun)

/-- Changing runs in place without their hashes keeps the invariant, if nothing is minted. -/
theorem TokensInStep.modify {tr : List (State H × Call)} {s s' : State H} {e : State H × Call}
    (hi : TokensInStep hash tr s) {key : RunKey} {f : Run H → Run H}
    (hf : ∀ run, (f run).tokenHash = run.tokenHash) (hruns : s'.runs = s.runs.modify key f)
    (htokens : s'.tokens = s.tokens) (hminted : minted hash e.1 e.2 = none) :
    TokensInStep hash (tr ++ [e]) s' where
  inverse := hi.inverse.modify hf hruns htokens
  latest k run hrun := by
    rw [lastMinted_concat, hminted]
    rw [hruns, Assoc.lookup_modify] at hrun
    split at hrun
    · obtain ⟨old, hold, rfl⟩ := Option.map_eq_some_iff.mp hrun
      rw [hf]
      exact hi.latest k old hold
    · exact hi.latest k run hrun

/-- No run of the state carries the hash of a token that collides with none minted before. -/
theorem TokensInStep.hash_ne {tr : List (State H × Call)} {s : State H}
    (hi : TokensInStep hash tr s) {token : Bytes}
    (hnew : ∀ m ∈ mints hash tr, hash m.2 ≠ hash token) {k : RunKey} {run : Run H}
    (hk : s.runs.lookup k = some run) : run.tokenHash ≠ hash token := by
  obtain ⟨last, hlast, heq⟩ := hi.latest k run hk
  rw [heq]
  exact hnew _ (mem_mints_of_lastMinted hash hlast)

/-- **Step.** Every call whose token, if it mints one, has a hash of its own keeps the invariant. -/
theorem TokensInStep.step {tr : List (State H × Call)} {s : State H} (hi : TokensInStep hash tr s)
    (call : Call)
    (hnew : ∀ k token, minted hash s call = some (k, token) →
      ∀ m ∈ mints hash tr, hash m.2 ≠ hash token) :
    TokensInStep hash (tr ++ [(s, call)]) ((machine hash).next s call) := by
  have hp := hi.prune call.now
  cases transition hash s call with
  | quiet hminted hgranted hop hadm hruns htokens =>
      exact hp.same hruns htokens hminted
  | fresh reg token run hcall hminted hgranted habsent hroom hterms hactive hhash hfl hruns
      htokens =>
      have hne : ∀ k run', (s.prune call.now).runs.lookup k = some run' →
          run'.tokenHash ≠ hash token := fun _ _ hk => hp.hash_ne (hnew reg.key token hminted) hk
      refine ⟨hp.inverse.insert habsent (by rwa [hhash]) hruns (by rwa [hhash]), ?_⟩
      intro k run' hrun'
      rw [lastMinted_concat, hminted]
      rw [hruns, Assoc.lookup_insert_eq] at hrun'
      by_cases hk : k = reg.key
      · subst hk
        rw [if_pos rfl, Option.some.injEq] at hrun'
        subst hrun'
        exact ⟨token, if_pos rfl, hhash⟩
      · rw [if_neg hk] at hrun'
        simpa [Ne.symm hk] using hp.latest k run' hrun'
  | replaced key token run hminted hgranted hrun hactive hruns htokens =>
      have hne : ∀ k run', (s.prune call.now).runs.lookup k = some run' →
          run'.tokenHash ≠ hash token := fun _ _ hk => hp.hash_ne (hnew key token hminted) hk
      refine ⟨hp.inverse.replace hrun hne hruns htokens, ?_⟩
      intro k run' hrun'
      rw [lastMinted_concat, hminted]
      rw [hruns, Assoc.lookup_modify] at hrun'
      by_cases hk : k = key
      · subst hk
        rw [if_pos rfl, hrun, Option.map_some, Option.some.injEq] at hrun'
        subst hrun'
        exact ⟨token, if_pos rfl, rfl⟩
      · rw [if_neg hk] at hrun'
        simpa [Ne.symm hk] using hp.latest k run' hrun'
  | ended key unix hcall hruns htokens =>
      exact hp.modify (tokenHash_endRun unix) hruns htokens
        (by simp [minted, Call.registration, hcall])
  | taken key run hcall hrun hactive hfree hanswer hruns htokens =>
      exact hp.modify tokenHash_takeSlot hruns htokens
        (by simp [minted, Call.registration, hcall])
  | released key outcome hcall hruns htokens =>
      exact hi.modify (tokenHash_release outcome) hruns htokens
        (by simp [minted, Call.registration, hcall])

/-- **Run.** The invariant holds after every list of calls that mints distinct hashes. -/
theorem tokensInStep_run {calls : List Call} (h : DistinctTokens hash calls) :
    TokensInStep hash ((machine hash).trace calls) ((machine hash).run calls) := by
  refine Mealy.invariant (P := TokensInStep hash) ?_ ?_ calls (along_of_distinctTokens hash h)
  · exact ⟨fun h k => by simp [machine, State.empty], fun k run hk => by
      simp [machine, State.empty] at hk⟩
  · intro is call hi hguard
    rw [Mealy.map_snd_trace] at hguard
    exact hi.step call hguard

/-! ## Where a hash in the map comes from -/

/-- A minted token is the prefix of all run tokens and the digits of a draw. -/
theorem exists_newToken_of_minted {s : State H} {call : Call} {m : RunKey × Bytes}
    (h : minted hash s call = some m) : ∃ random, m.2 = newToken random := by
  unfold minted at h
  split at h
  · next reg token record hreg hanswer =>
      cases h
      obtain ⟨now, op⟩ := call
      cases op with
      | register identity limits random unix =>
          simp only [step, register, Prod.map_snd] at hanswer
          refine ⟨random, ?_⟩
          split at hanswer
          · split at hanswer <;> simp_all
          · split at hanswer <;> simp_all
      | registerUnproven name limits quota random unix =>
          simp only [step, registerUnproven, Prod.map_snd] at hanswer
          refine ⟨random, ?_⟩
          split at hanswer
          · simp at hanswer
          · split at hanswer
            · simp at hanswer
            · split at hanswer <;> simp_all
      | _ => simp [Call.registration] at hreg
  · cases h

/-- Every hash the registry maps to a key is that of a token it minted, distinct or not. -/
theorem exists_mint_of_token (calls : List Call) {h : H} {k : RunKey}
    (hk : ((machine hash).run calls).tokens.lookup h = some k) :
    ∃ m ∈ mints hash ((machine hash).trace calls), hash m.2 = h := by
  refine Mealy.invariant (m := machine hash) (G := fun _ _ => True)
    (P := fun tr s => ∀ h k, s.tokens.lookup h = some k → ∃ m ∈ mints hash tr, hash m.2 = h)
    ?_ ?_ calls (Mealy.along_true calls) h k hk
  · intro h k hk
    simp [machine, State.empty] at hk
  · intro is call hi _ h k hk
    have hpruned : ∀ h k, (((machine hash).run is).prune call.now).tokens.lookup h = some k →
        ∃ m ∈ mints hash ((machine hash).trace is ++ [((machine hash).run is, call)]),
          hash m.2 = h := by
      intro h k hk
      obtain ⟨m, hm, heq⟩ := hi h k (lookup_tokens_prune.mp hk).1
      exact ⟨m, by rw [mints_concat]; exact List.mem_append_left _ hm, heq⟩
    have hnew : ∀ k token, minted hash ((machine hash).run is) call = some (k, token) →
        (k, token) ∈ mints hash ((machine hash).trace is ++ [((machine hash).run is, call)]) := by
      intro k token hm
      rw [mints_concat, hm]
      exact List.mem_append_right _ List.mem_cons_self
    cases transition hash ((machine hash).run is) call with
    | quiet hminted hgranted hop hadm hruns htokens => exact hpruned h k (htokens ▸ hk)
    | fresh reg token run hcall hminted hgranted habsent hroom hterms hactive hhash hfl hruns
        htokens =>
        rw [show ((machine hash).next _ call).tokens = _ from htokens,
          Assoc.lookup_insert_eq] at hk
        split at hk
        · next heq => exact ⟨_, hnew _ _ hminted, heq.symm⟩
        · exact hpruned h k hk
    | replaced key token run hminted hgranted hrun hactive hruns htokens =>
        rw [show ((machine hash).next _ call).tokens = _ from htokens,
          Assoc.lookup_insert_eq] at hk
        split at hk
        · next heq => exact ⟨_, hnew _ _ hminted, heq.symm⟩
        · rw [Assoc.lookup_erase_eq] at hk
          split at hk
          · cases hk
          · exact hpruned h k hk
    | ended key unix hcall hruns htokens => exact hpruned h k (htokens ▸ hk)
    | taken key run hcall hrun hactive hfree hanswer hruns htokens =>
        exact hpruned h k (htokens ▸ hk)
    | released key outcome hcall hruns htokens =>
        obtain ⟨m, hm, heq⟩ := hi h k (htokens ▸ hk)
        exact ⟨m, by rw [mints_concat]; exact List.mem_append_left _ hm, heq⟩

/-! ## Superseded tokens stay dead -/

/-- A key that is registered at the end of a list of calls but not at its start was minted a token
in it. -/
theorem exists_mint_of_lookup {k : RunKey} {calls : List Call} :
    ∀ {s : State H}, s.runs.lookup k = none →
      ((machine hash).runFrom s calls).runs.lookup k ≠ none →
        ∃ token, (k, token) ∈ mints hash ((machine hash).traceFrom s calls) := by
  induction calls with
  | nil => intro s hk h; exact absurd hk h
  | cons call calls ih =>
      intro s hk h
      by_cases hm : ∃ token, minted hash s call = some (k, token)
      · obtain ⟨token, hm⟩ := hm
        exact ⟨token, List.mem_filterMap.mpr ⟨(s, call), List.mem_cons_self, hm⟩⟩
      · have hnext := lookup_none_of_no_grant hk call fun reg hreg heq => by
          obtain ⟨token, ht⟩ := minted_of_granted hreg
          exact hm ⟨token, heq ▸ ht⟩
        obtain ⟨token, hmem⟩ := ih hnext h
        obtain ⟨e, he, heq⟩ := List.mem_filterMap.mp hmem
        exact ⟨token, List.mem_filterMap.mpr ⟨e, List.mem_cons_of_mem _ he, heq⟩⟩

omit [DecidableEq H] in
/-- In a list of mints with distinct hashes, an entry whose hash is that of some key's last token is
that key's last entry. -/
private theorem last_of_hash_eq {A B : List (RunKey × Bytes)} {k k' : RunKey} {t t' : Bytes}
    (hnd : ((A ++ (k, t) :: B).map (fun m => hash m.2)).Nodup)
    (hlast : (((A ++ (k, t) :: B).filter (fun m => m.1 = k')).getLast?).map Prod.snd = some t')
    (heq : hash t = hash t') : k' = k ∧ ∀ token, (k, token) ∉ B := by
  rw [List.map_append, List.map_cons, List.nodup_append, List.nodup_cons] at hnd
  obtain ⟨-, ⟨hB, -⟩, hA⟩ := hnd
  have hnotA : ∀ m ∈ A, hash m.2 ≠ hash t := fun m hm =>
    hA _ (List.mem_map_of_mem hm) _ List.mem_cons_self
  have hnotB : ∀ m ∈ B, hash m.2 ≠ hash t := fun m hm he => hB (he ▸ List.mem_map_of_mem hm)
  obtain ⟨⟨k₀, t₀⟩, hget, rfl⟩ := Option.map_eq_some_iff.mp hlast
  have hmem := List.mem_of_getLast? hget
  rw [List.mem_filter, decide_eq_true_eq] at hmem
  obtain ⟨hmem, rfl⟩ := hmem
  -- the entry found is the one in the middle, so nothing of its key follows
  have hkt : (k₀, t₀) = (k, t) := by
    rcases List.mem_append.mp hmem with h | h
    · exact absurd heq.symm (hnotA _ h)
    · rcases List.mem_cons.mp h with h | h
      · exact h
      · exact absurd heq.symm (hnotB _ h)
  obtain ⟨rfl, rfl⟩ := Prod.mk.inj hkt
  refine ⟨rfl, ?_⟩
  intro token htoken
  have hne : B.filter (fun m => m.1 = k₀) ≠ [] := by
    intro hnil
    have := List.filter_eq_nil_iff.mp hnil _ htoken
    simp at this
  rw [List.filter_append, List.filter_cons_of_pos (by simp),
    List.getLast?_append_of_ne_nil _ (by simp), List.getLast?_cons_of_ne_nil hne] at hget
  have hmemB := (List.mem_filter.mp (List.mem_of_getLast? hget)).1
  exact hnotB _ hmemB rfl

/-- A token that still authenticates was not superseded: nothing was minted for its key after it,
and its run was there ever since. -/
theorem live_of_authenticate {pre post : List Call} {call : Call} {k k' : RunKey} {t : Bytes}
    {now : Instant} (hd : DistinctTokens hash (pre ++ call :: post))
    (hminted : minted hash ((machine hash).run pre) call = some (k, t))
    (hauth : (authenticate hash ((machine hash).run (pre ++ call :: post)) t now).2 = some k') :
    (∀ token, (k, token) ∉ mints hash ((machine hash).traceFrom
        ((machine hash).next ((machine hash).run pre) call) post)) ∧
      ((machine hash).run (pre ++ call :: post)).runs.lookup k ≠ none := by
  have hi := tokensInStep_run hd
  obtain ⟨run, hrun, hhash⟩ := ((hi.prune now).inverse (hash t) k').mp hauth
  obtain ⟨t', hlast, heq⟩ := (hi.prune now).latest k' run hrun
  unfold DistinctTokens at hd
  unfold lastMinted at hlast
  rw [mints_trace_split hash hminted] at hd hlast
  obtain ⟨rfl, hlater⟩ := last_of_hash_eq hd hlast (hhash.symm.trans heq)
  refine ⟨hlater, ?_⟩
  intro hnone
  obtain ⟨old, hold, -, -⟩ := lookup_prune_eq_some.mp hrun
  rw [hnone] at hold
  cases hold

/-- What the registry owes every list of calls that mints distinct hashes. -/
structure OneLiveToken (hash : Bytes → H) (calls : List Call) : Prop where
  /-- The two maps are mutually inverse. -/
  inverse : ∀ h k, ((machine hash).run calls).tokens.lookup h = some k ↔
    ∃ run, ((machine hash).run calls).runs.lookup k = some run ∧ run.tokenHash = h
  /-- A token authenticates a key exactly if the key is remembered and the token hashes as the one
  most recently minted for it. -/
  authenticates : ∀ token now k,
    (authenticate hash ((machine hash).run calls) token now).2 = some k ↔
      Remembered ((machine hash).run calls) k now ∧
        ∃ last, lastMinted hash k ((machine hash).trace calls) = some last ∧ hash token = hash last
  /-- So, if it collides with no minted token, exactly if it is that token. -/
  authenticates_exactly : ∀ token now k,
    (∀ m ∈ mints hash ((machine hash).trace calls), hash token = hash m.2 → token = m.2) →
      ((authenticate hash ((machine hash).run calls) token now).2 = some k ↔
        Remembered ((machine hash).run calls) k now ∧
          lastMinted hash k ((machine hash).trace calls) = some token)
  /-- Once another token is minted for its key, a token authenticates nothing. -/
  replaced_dead : ∀ pre call mid call' rest k token token' now,
    calls = pre ++ call :: (mid ++ call' :: rest) →
      minted hash ((machine hash).run pre) call = some (k, token) →
      minted hash ((machine hash).run (pre ++ call :: mid)) call' = some (k, token') →
        (authenticate hash ((machine hash).run calls) token now).2 = none
  /-- Once its run is forgotten, a token authenticates nothing, also once the key registers anew. -/
  forgotten_dead : ∀ pre call mid rest k token now,
    calls = pre ++ call :: (mid ++ rest) →
      minted hash ((machine hash).run pre) call = some (k, token) →
      ((machine hash).run (pre ++ call :: mid)).runs.lookup k = none →
        (authenticate hash ((machine hash).run calls) token now).2 = none

/-- **One live token per remembered run.** -/
theorem one_live_token (hash : Bytes → H) (calls : List Call) (hd : DistinctTokens hash calls) :
    OneLiveToken hash calls := by
  have hi := tokensInStep_run hd
  -- what authenticates is read off the invariant, at the state pruning leaves
  have hauth : ∀ token now k,
      (authenticate hash ((machine hash).run calls) token now).2 = some k ↔
        Remembered ((machine hash).run calls) k now ∧
          ∃ last, lastMinted hash k ((machine hash).trace calls) = some last ∧
            hash token = hash last := by
    intro token now k
    have hp := hi.prune now
    refine (hp.inverse (hash token) k).trans ⟨?_, ?_⟩
    · rintro ⟨run, hrun, heq⟩
      obtain ⟨last, hlast, hhash⟩ := hp.latest k run hrun
      exact ⟨Option.isSome_iff_exists.mpr ⟨run, hrun⟩, last, hlast, heq.symm.trans hhash⟩
    · rintro ⟨hrem, last, hlast, heq⟩
      obtain ⟨run, hrun⟩ := Option.isSome_iff_exists.mp hrem
      obtain ⟨last', hlast', hhash⟩ := hp.latest k run hrun
      rw [hlast] at hlast'
      cases hlast'
      exact ⟨run, hrun, hhash.trans heq.symm⟩
  refine ⟨hi.inverse, hauth, ?_, ?_, ?_⟩
  · intro token now k hcollision
    rw [hauth]
    refine and_congr_right fun _ => ⟨?_, fun hlast => ⟨token, hlast, rfl⟩⟩
    rintro ⟨last, hlast, heq⟩
    rwa [hcollision _ (mem_mints_of_lastMinted hash hlast) heq]
  · rintro pre call mid call' rest k token token' now rfl hminted hminted'
    rw [Option.eq_none_iff_forall_ne_some]
    intro k' hk'
    obtain ⟨hlater, -⟩ := live_of_authenticate hd hminted hk'
    apply hlater token'
    rw [Mealy.traceFrom_append, mints_append]
    apply List.mem_append_right _
    rw [Mealy.run_append] at hminted'
    exact List.mem_filterMap.mpr ⟨(_, call'), List.mem_cons_self, hminted'⟩
  · rintro pre call mid rest k token now rfl hminted hforgotten
    rw [Option.eq_none_iff_forall_ne_some]
    intro k' hk'
    obtain ⟨hlater, hthere⟩ := live_of_authenticate hd hminted hk'
    have happ : pre ++ call :: (mid ++ rest) = (pre ++ call :: mid) ++ rest := by simp
    rw [happ, Mealy.run_append] at hthere
    obtain ⟨token', hmem⟩ := exists_mint_of_lookup hforgotten hthere
    apply hlater token'
    rw [Mealy.traceFrom_append, mints_append]
    apply List.mem_append_right _
    rw [Mealy.run_append] at hmem
    exact hmem

/-- After a retry the lost token is dead. -/
theorem one_live_token_retry : DistinctTokens id retryCalls ∧
    (authenticate id ((machine id).run retryCalls) (newToken (sampleDraw 0)) 2).2 = none := by
  have hd : DistinctTokens id retryCalls := by decide +kernel
  refine ⟨hd, (one_live_token id retryCalls hd).replaced_dead [] _ [] _ [] sampleJob.key _
    (newToken (sampleDraw 1)) 2 rfl ?_ ?_⟩
  · decide +kernel
  · decide +kernel

end CredentialBroker.Runs
