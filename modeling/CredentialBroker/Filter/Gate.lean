import CredentialBroker.Filter.Basic
import CredentialBroker.Runs.Tokens

/-!
# The gate of `run_token`

What it takes for a request to pass the filter, whatever the configuration, the registry, the
operators and the request:

* `Carries` reads `RunTokenFilter.token` as a statement about the request: the *first* of the token
  headers it has decides, and a bad token there does not fall back to another header.
* `AdmittedAs` is everything `admitRequest` says yes to, and `Proceeds` everything `onRequest` lets
  through, each with the context it leaves. They are inverted once here, and every later fact about
  requests that go on starts from `Proceeds`.
* `Accepted` tokens are those that would authenticate anyone. Operator tokens start with a prefix
  because `authenticate` insists on it, run tokens because `newToken` writes it, so a value that
  contains neither prefix, in any case, contains no accepted token.
-/

namespace CredentialBroker

variable {H : Type} [DecidableEq H] {hash : Bytes → H}

/-! ## The token a request carries -/

/-- `name` is the first of the token headers a request has, and its first value is text that carries
`token`: as a bearer token in `authorization`, bare in any other header. -/
structure Carries (tokenHeaders : List String) (headers : HeaderMap) (name : String)
    (token : Bytes) : Prop where
  first : ∃ before after, tokenHeaders = before ++ name :: after ∧
    ∀ other ∈ before, headers.getAll other = []
  value : headers.get name =
    some (if name = "authorization" then ascii "Bearer " ++ token else token)
  text : (headers.get name).bind HeaderMap.toStr = headers.get name

private theorem toStr_eq_some {value text : Bytes} (h : HeaderMap.toStr value = some text) :
    text = value := by
  unfold HeaderMap.toStr at h
  split at h
  · exact (Option.some.inj h).symm
  · cases h

private theorem tokenIn_eq_some {name : String} {value token : Bytes}
    (h : tokenIn name value = some token) :
    value = if name = "authorization" then ascii "Bearer " ++ token else token := by
  unfold tokenIn at h
  split at h
  · next hname => rw [if_pos hname, List.isPrefixOf?_eq_some_iff_append_eq.mp h]
  · next hname => rw [if_neg hname, Option.some.inj h]

theorem carries_of_token {filter : RunTokenFilter} {headers : HeaderMap} {name : String}
    {token : Bytes} (h : filter.token headers = some (name, token)) :
    Carries filter.tokenHeaders headers name token := by
  unfold RunTokenFilter.token at h
  simp only [Option.bind_eq_bind, Option.bind_eq_some_iff, Option.pure_def, Option.some.injEq,
    Prod.mk.injEq] at h
  obtain ⟨⟨first, value⟩, hfirst, text, htext, token, htoken, rfl, rfl⟩ := h
  obtain ⟨before, name, after, hsplit, hname, hbefore⟩ := List.findSome?_eq_some_iff.mp hfirst
  obtain ⟨found, hfound, heq⟩ := Option.map_eq_some_iff.mp hname
  obtain ⟨rfl, rfl⟩ := Prod.mk.inj heq
  obtain rfl := toStr_eq_some htext
  refine ⟨⟨before, after, hsplit, ?_⟩, ?_, ?_⟩
  · intro other hother
    exact HeaderMap.get_eq_none.mp (Option.map_eq_none_iff.mp (hbefore other hother))
  · rw [hfound, ← tokenIn_eq_some htoken]
  · rw [hfound]
    exact htext

/-- A request carries one token. -/
theorem Carries.unique {tokenHeaders : List String} {headers : HeaderMap} {name name' : String}
    {token token' : Bytes} (h : Carries tokenHeaders headers name token)
    (h' : Carries tokenHeaders headers name' token') : name = name' ∧ token = token' := by
  obtain ⟨before, after, hsplit, hbefore⟩ := h.first
  obtain ⟨before', after', hsplit', hbefore'⟩ := h'.first
  -- the first header it has is where the list splits
  have hnot : ∀ {other value} {names : List String},
      (∀ other ∈ names, headers.getAll other = []) → headers.get other = some value →
        other ∉ names := by
    intro other value names hnames hvalue hmem
    rw [HeaderMap.get_eq_none.mpr (hnames other hmem)] at hvalue
    cases hvalue
  have hname : name = name' := by
    rw [hsplit] at hsplit'
    rcases List.append_eq_append_iff.mp hsplit' with ⟨rest, hleft, hright⟩ | ⟨rest, hleft, hright⟩
    · cases rest with
      | nil => exact (List.cons.inj hright).1
      | cons first rest =>
          obtain ⟨rfl, -⟩ := List.cons.inj hright
          exact absurd (hleft ▸ List.mem_append_right _ List.mem_cons_self)
            (hnot hbefore' h.value)
    · cases rest with
      | nil => exact (List.cons.inj hright).1.symm
      | cons first rest =>
          obtain ⟨rfl, -⟩ := List.cons.inj hright
          exact absurd (hleft ▸ List.mem_append_right _ List.mem_cons_self)
            (hnot hbefore h'.value)
  subst hname
  refine ⟨rfl, ?_⟩
  have hvalue := h.value.symm.trans h'.value
  split at hvalue
  · exact List.append_cancel_left (Option.some.inj hvalue)
  · exact Option.some.inj hvalue

/-! ## Admission -/

/-- Who an injected request for `cluster` may be admitted for. -/
inductive AdmittedAs (hash : Bytes → H) (filter : RunTokenFilter) (world : World H) (out : Outside)
    (headers : HeaderMap) (cluster : String) (subject : String) : Prop where
  /-- The operator the token belongs to, whose entry lists the cluster, with a slot free. -/
  | operator (name : String) (token : Bytes) (operator : Operator)
      (hcarries : Carries filter.tokenHeaders headers name token)
      (hauth : world.operators.authenticate hash token = some operator)
      (hcluster : cluster ∈ operator.clusters) (hfree : operator.inFlight < operator.concurrency)
      (hsubject : subject = operator.subject)
  /-- Of a token that is no operator's, the run it belongs to, active with a slot free when it is
  admitted. -/
  | run (name : String) (token : Bytes) (key : RunKey) (run : Run H)
      (hcarries : Carries filter.tokenHeaders headers name token)
      (hoperator : world.operators.authenticate hash token = none)
      (hauth : (Runs.authenticate hash world.runs token out.now).2 = some key)
      (hrun : (((Runs.machine hash).runFrom (Runs.authenticate hash world.runs token out.now).1
        out.between).prune out.now).runs.lookup key = some run)
      (hactive : run.record.state = .active) (hfree : run.inFlight < run.concurrency)
      (hsubject : subject = key.subject)

/-- `Runs.admitRequest` says yes to an active run with a slot free only. -/
theorem Runs.run_of_admitRequest {s s' : Runs.State H} {key : RunKey} {now : Instant}
    {admission : Runs.Admission} (h : Runs.admitRequest s key now = (s', .ok admission)) :
    ∃ run, (s.prune now).runs.lookup key = some run ∧ run.record.state = .active ∧
      run.inFlight < run.concurrency := by
  unfold Runs.admitRequest at h
  dsimp only at h
  split at h
  · cases h
  · next run hrun =>
      split at h
      · cases h
      · next hactive =>
          split at h
          · cases h
          · next hfree => exact ⟨run, hrun, not_not.mp hactive, Nat.not_le.mp hfree⟩

theorem admittedAs_of_admitRequest {filter : RunTokenFilter} {world world' : World H}
    {out : Outside} {headers : HeaderMap} {cluster subject : String} {caller : Caller}
    (h : filter.admitRequest hash world out headers cluster = (world', .ok (subject, caller))) :
    AdmittedAs hash filter world out headers cluster subject := by
  unfold RunTokenFilter.admitRequest at h
  split at h
  · cases h
  · next name token htoken =>
      have hcarries := carries_of_token htoken
      split at h
      · next operator hauth =>
          split at h
          · next admitted slot hadm =>
              obtain ⟨-, hok⟩ := Prod.mk.inj h
              cases hok
              obtain ⟨hcluster, hfree⟩ := Operator.admit_ok hadm
              exact .operator name token operator hcarries hauth hcluster hfree rfl
          · cases h
          · cases h
      · next hoperator =>
          split at h
          · cases h
          · next runs key hauth =>
              split at h
              · next runs' admission hadm =>
                  obtain ⟨-, hok⟩ := Prod.mk.inj h
                  cases hok
                  obtain ⟨run, hrun, hactive, hfree⟩ := Runs.run_of_admitRequest hadm
                  refine .run name token key run hcarries hoperator ?_ ?_ hactive hfree rfl
                  · rw [hauth]
                  · rw [hauth]
                    exact hrun
              · cases h
              · cases h

/-! ## Requests that go on -/

theorem serveUsage_ne_proceed {filter : RunTokenFilter} {request : Request}
    {get : HeaderMap → FilterAction} (hget : ∀ headers, get headers ≠ .proceed) :
    filter.serveUsage request get ≠ .proceed := by
  unfold RunTokenFilter.serveUsage
  dsimp only
  split
  · exact hget _
  · split
    · split <;> exact FilterAction.noConfusion
    · exact FilterAction.noConfusion

theorem serveGrant_ne_proceed {filter : RunTokenFilter} {usage : BrokerUsage} {now : UInt64}
    {request : Request} (headers : HeaderMap) :
    filter.serveGrant usage now request headers ≠ .proceed := by
  unfold RunTokenFilter.serveGrant
  split
  · exact FilterAction.noConfusion
  · split
    · split <;> exact FilterAction.noConfusion
    · exact FilterAction.noConfusion

theorem registerUnproven_ne_proceed {runs : Runs.State H} {quota : Quota} {limits : Limits}
    {out : Outside} {headers : HeaderMap} :
    (RunTokenFilter.registerUnproven hash runs quota limits out headers).2 ≠ .proceed := by
  unfold RunTokenFilter.registerUnproven
  split
  · exact FilterAction.noConfusion
  · split
    · split
      · exact FilterAction.noConfusion
      · dsimp only [Prod.map_snd]
        split <;> exact FilterAction.noConfusion
    · exact FilterAction.noConfusion

theorem register_ne_proceed {registrar : Registrar} {runs : Runs.State H} {out : Outside}
    {headers : HeaderMap} :
    (RunTokenFilter.register hash registrar runs out headers).2 ≠ .proceed := by
  unfold RunTokenFilter.register
  split
  · exact registerUnproven_ne_proceed
  · split
    · exact FilterAction.noConfusion
    · split
      · exact FilterAction.noConfusion
      · split
        · exact FilterAction.noConfusion
        · split
          case h_5 =>
              dsimp only [Prod.map_snd]
              split <;> exact FilterAction.noConfusion
          all_goals exact FilterAction.noConfusion

theorem serveSelf_ne_proceed {filter : RunTokenFilter} {runs : Runs.State H} {out : Outside}
    {headers : HeaderMap} {operation : Runs.State H → RunKey → Runs.State H × Option RunRecord} :
    (filter.serveSelf hash runs out headers operation).2 ≠ .proceed := by
  unfold RunTokenFilter.serveSelf
  split
  · exact FilterAction.noConfusion
  · dsimp only [Prod.map_snd]
    split <;> exact FilterAction.noConfusion

theorem serveRuns_ne_proceed {filter : RunTokenFilter} {registrar : Option Registrar}
    {runs : Runs.State H} {out : Outside} {request : Request} :
    (filter.serveRuns hash registrar runs out request).2 ≠ .proceed := by
  unfold RunTokenFilter.serveRuns
  split
  · split
    · split
      · exact register_ne_proceed
      · exact FilterAction.noConfusion
    · exact FilterAction.noConfusion
  · split
    · split
      · exact serveSelf_ne_proceed
      · split
        · exact serveSelf_ne_proceed
        · exact FilterAction.noConfusion
    · exact FilterAction.noConfusion

/-- Why a request goes on, and what the filter leaves in its context. -/
inductive Proceeds (hash : Bytes → H) (filter : RunTokenFilter) (world : World H) (out : Outside)
    (request : Request) : Option String → Context → Prop where
  /-- Its path needs no token. -/
  | publicPath (cluster : Option String) (hpath : request.path ∈ filter.publicPaths) :
      Proceeds hash filter world out request cluster { headersToRemove := filter.tokenHeaders }
  /-- Its caller's own credential goes upstream, and is no token of the gateway's. -/
  | passThrough (cluster : String)
      (hmode : filter.credentials.lookup cluster = some .passThrough)
      (hrun : ¬ Runs.tokenPrefix <:+:
        toAsciiLowercase ((request.headers.get "authorization").getD []))
      (hoperator : ¬ Operators.tokenPrefix <:+:
        toAsciiLowercase ((request.headers.get "authorization").getD [])) :
      Proceeds hash filter world out request (some cluster)
        { headersToRemove := filter.removed .passThrough
          metered := some ⟨.passThrough, none, false, none⟩ }
  /-- It is admitted for an operator or a run. -/
  | injected (cluster subject : String) (metered : Metered)
      (hmode : filter.credentials.lookup cluster = some .injected)
      (hadmitted : AdmittedAs hash filter world out request.headers cluster subject) :
      Proceeds hash filter world out request (some cluster)
        { headersToRemove := filter.removed .injected
          identity := some subject
          metered := some metered }

private theorem admit_refusal_ne_proceed {filter : RunTokenFilter} {world world' : World H}
    {out : Outside} {headers : HeaderMap} {cluster : String} {refusal : FilterAction}
    (h : filter.admitRequest hash world out headers cluster = (world', .error refusal)) :
    refusal ≠ .proceed := by
  rintro rfl
  unfold RunTokenFilter.admitRequest at h
  split at h
  · cases h
  · split at h
    · split at h <;> cases h
    · split at h
      · cases h
      · split at h <;> cases h

/-- An answer other than `proceed` is no way through. -/
private theorem answer_ne {world world' : World H} {context context' : Context}
    {action : FilterAction} (hne : action ≠ .proceed) :
    (world, context, Except.ok (ε := String) action) ≠ (world', context', .ok .proceed) := by
  intro heq
  simp only [Prod.mk.injEq, Except.ok.injEq] at heq
  exact hne heq.2.2

private theorem proceeds_of_passThrough {filter : RunTokenFilter} {world world' : World H}
    {out : Outside} {request : Request} {cluster : String} {context : Context}
    (hmode : filter.credentials.lookup cluster = some .passThrough)
    (h : filter.passThrough world request = (world', context, .ok .proceed)) :
    Proceeds hash filter world out request (some cluster) context := by
  unfold RunTokenFilter.passThrough at h
  dsimp only at h
  split at h
  · exact absurd h (answer_ne FilterAction.noConfusion)
  · next hrun =>
      split at h
      · exact absurd h (answer_ne FilterAction.noConfusion)
      · next hoperator =>
          simp only [Prod.mk.injEq, and_true] at h
          obtain ⟨-, rfl⟩ := h
          exact .passThrough cluster hmode hrun hoperator

private theorem proceeds_of_injected {filter : RunTokenFilter} {world world' : World H}
    {out : Outside} {request : Request} {cluster : String} {context : Context}
    (hmode : filter.credentials.lookup cluster = some .injected)
    (h : filter.injected hash world out request cluster = (world', context, .ok .proceed)) :
    Proceeds hash filter world out request (some cluster) context := by
  unfold RunTokenFilter.injected at h
  dsimp only at h
  split at h
  · next refusal hrefused =>
      exact absurd h (answer_ne (admit_refusal_ne_proceed hrefused))
  · next subject caller hadm =>
      split at h
      · simp at h
      · simp only [Prod.mk.injEq, and_true] at h
        obtain ⟨-, rfl⟩ := h
        exact .injected cluster subject _ hmode (admittedAs_of_admitRequest hadm)

/-- A request the filter may pass on, whatever its cluster: it is for none of the filter's own
endpoints, and has no second `Authorization`. -/
structure Forwardable (request : Request) : Prop where
  usage : request.path ≠ RunTokenFilter.usagePath
  grant : request.path ≠ RunTokenFilter.grantPath
  runs : request.path ≠ RunTokenFilter.runsPath
  underRuns : ¬ ascii "/v1/runs/" <+: request.path
  single : (request.headers.getAll "authorization").length ≤ 1

/-- **Everything that goes on.** What the filter does not answer itself or refuse for a second
`Authorization` goes on for one of three reasons. -/
theorem proceeds_of_onRequest {filter : RunTokenFilter} {world world' : World H} {out : Outside}
    {request : Request} {cluster : Option String} {context : Context}
    (h : filter.onRequest hash world out request cluster = (world', context, .ok .proceed)) :
    Forwardable request ∧ Proceeds hash filter world out request cluster context := by
  unfold RunTokenFilter.onRequest at h
  split at h
  · exact absurd h (answer_ne (serveUsage_ne_proceed fun _ => FilterAction.noConfusion))
  next husage =>
  split at h
  · exact absurd h (answer_ne (serveUsage_ne_proceed fun _ => serveGrant_ne_proceed _))
  next hgrant =>
  split at h
  · dsimp only at h
    split at h
    · exact absurd h (answer_ne FilterAction.noConfusion)
    · exact absurd h (answer_ne serveRuns_ne_proceed)
    · exact absurd h (answer_ne serveRuns_ne_proceed)
  next hruns =>
  rw [not_or] at hruns
  split at h
  · exact absurd h (answer_ne FilterAction.noConfusion)
  next hsingle =>
  refine ⟨⟨husage, hgrant, hruns.1, hruns.2, Nat.not_lt.mp hsingle⟩, ?_⟩
  split at h
  · next hpath =>
      simp only [Prod.mk.injEq, and_true] at h
      obtain ⟨-, rfl⟩ := h
      exact .publicPath cluster hpath
  -- the mode found is that of the router's cluster
  have hcluster : ∀ {name : String} {mode : CredentialMode},
      cluster.bind (fun cluster => (filter.credentials.lookup cluster).map (cluster, ·)) =
        some (name, mode) → cluster = some name ∧ filter.credentials.lookup name = some mode := by
    intro name mode hmode
    obtain ⟨_, rfl, hlookup⟩ := Option.bind_eq_some_iff.mp hmode
    obtain ⟨_, hfound, heq⟩ := Option.map_eq_some_iff.mp hlookup
    obtain ⟨rfl, rfl⟩ := Prod.mk.inj heq
    exact ⟨rfl, hfound⟩
  split at h
  · exact absurd h (answer_ne FilterAction.noConfusion)
  · next hmode =>
      obtain ⟨rfl, hlookup⟩ := hcluster hmode
      exact proceeds_of_passThrough hlookup h
  · next hmode =>
      obtain ⟨rfl, hlookup⟩ := hcluster hmode
      exact proceeds_of_injected hlookup h

/-! ## Tokens that are left -/

/-- A token the gateway would accept from anyone: an operator's, or some run's at some time. -/
def Accepted (hash : Bytes → H) (operators : Operators H) (runs : Runs.State H)
    (token : Bytes) : Prop :=
  (operators.authenticate hash token).isSome ∨
    ∃ now, (Runs.authenticate hash runs token now).2.isSome

/-- No part of `value` has the hash of a token minted by `calls` without being that token. -/
def NoCollision (hash : Bytes → H) (calls : List Runs.Call) (value : Bytes) : Prop :=
  ∀ m ∈ Runs.mints hash ((Runs.machine hash).trace calls),
    ∀ part, part <:+: value → hash part = hash m.2 → part = m.2

/-- Lower case keeps what is lower case already. -/
private theorem infix_toAsciiLowercase {part value : Bytes} (hlower : toAsciiLowercase part = part)
    (h : part <:+: value) : part <:+: toAsciiLowercase value := by
  have hmap := h.map Numeral.toLower
  rwa [show part.map Numeral.toLower = part from hlower] at hmap

/-- A run token the registry would accept is one it minted, so it starts with the prefix. -/
theorem tokenPrefix_of_authenticate {calls : List Runs.Call} {value token : Bytes} {now : Instant}
    (hcollision : NoCollision hash calls value) (hpart : token <:+: value)
    (h : (Runs.authenticate hash ((Runs.machine hash).run calls) token now).2.isSome) :
    Runs.tokenPrefix <+: token := by
  obtain ⟨key, hkey⟩ := Option.isSome_iff_exists.mp h
  have hlookup := (Runs.lookup_tokens_prune.mp hkey).1
  obtain ⟨m, hm, heq⟩ := Runs.exists_mint_of_token calls hlookup
  obtain rfl := hcollision m hm token hpart heq.symm
  obtain ⟨e, -, hminted⟩ := List.mem_filterMap.mp hm
  obtain ⟨random, hrandom⟩ := Runs.exists_newToken_of_minted hminted
  rw [hrandom]
  exact List.prefix_append _ _

/-- **A value with neither prefix holds no accepted token**, in any part of it and any case. -/
theorem not_accepted_of_no_tokenPrefix {calls : List Runs.Call} {operators : Operators H}
    {value token : Bytes} (hrun : ¬ Runs.tokenPrefix <:+: toAsciiLowercase value)
    (hoperator : ¬ Operators.tokenPrefix <:+: toAsciiLowercase value)
    (hcollision : NoCollision hash calls value) (hpart : token <:+: value) :
    ¬ Accepted hash operators ((Runs.machine hash).run calls) token := by
  rintro (hauth | ⟨now, hauth⟩)
  · have hpre := Operators.tokenPrefix_of_authenticate hauth
    exact hoperator (infix_toAsciiLowercase (by decide) (hpre.isInfix.trans hpart))
  · have hpre := tokenPrefix_of_authenticate hcollision hpart hauth
    exact hrun (infix_toAsciiLowercase (by decide) (hpre.isInfix.trans hpart))

/-- The token headers of a request that goes on are gone, but for a pass-through caller's
`Authorization`, which holds no prefix of the gateway's tokens. -/
theorem Proceeds.left {filter : RunTokenFilter} {world : World H} {out : Outside}
    {request : Request} {cluster : Option String} {context : Context}
    (h : Proceeds hash filter world out request cluster context)
    (hsingle : (request.headers.getAll "authorization").length ≤ 1) {name : String}
    (hname : name ∈ filter.tokenHeaders) {value : Bytes}
    (hvalue : value ∈ (request.headers.removeAll context.headersToRemove).getAll name) :
    ¬ Runs.tokenPrefix <:+: toAsciiLowercase value ∧
      ¬ Operators.tokenPrefix <:+: toAsciiLowercase value := by
  rw [HeaderMap.getAll_removeAll] at hvalue
  split at hvalue
  · cases hvalue
  next hkept =>
  cases h with
  | publicPath cluster hpath => exact absurd hname hkept
  | injected cluster subject metered hmode hadmitted =>
      exact absurd (List.mem_filter.mpr ⟨hname, by simp⟩) hkept
  | passThrough cluster hmode hrun hoperator =>
      have hauthorization : name = "authorization" := by
        by_contra hne
        exact hkept (List.mem_filter.mpr ⟨hname, by simp [hne]⟩)
      subst hauthorization
      rw [HeaderMap.getAll_eq_toList hsingle, Option.mem_toList] at hvalue
      rw [Option.mem_def.mp hvalue] at hrun hoperator
      exact ⟨hrun, hoperator⟩

/-! ## The gate -/

/-- Why a request may go on: it needs no token, or brings its own credential, or was admitted for an
operator or a run that becomes its identity. -/
def Justified (hash : Bytes → H) (filter : RunTokenFilter) (world : World H) (out : Outside)
    (request : Request) (cluster : Option String) (context : Context) : Prop :=
  request.path ∈ filter.publicPaths ∨
    (∃ name, cluster = some name ∧ filter.credentials.lookup name = some .passThrough) ∨
    ∃ name subject, cluster = some name ∧ filter.credentials.lookup name = some .injected ∧
      AdmittedAs hash filter world out request.headers name subject ∧
      context.identity = some subject

theorem Proceeds.justified {filter : RunTokenFilter} {world : World H} {out : Outside}
    {request : Request} {cluster : Option String} {context : Context}
    (h : Proceeds hash filter world out request cluster context) :
    Justified hash filter world out request cluster context := by
  cases h with
  | publicPath cluster hpath => exact .inl hpath
  | passThrough name hmode hrun hoperator => exact .inr (.inl ⟨name, rfl, hmode⟩)
  | injected name subject metered hmode hadmitted =>
      exact .inr (.inr ⟨name, subject, rfl, hmode, hadmitted, rfl⟩)

/-- What the filter owes every request it lets go on. -/
structure Gated (hash : Bytes → H) (filter : RunTokenFilter) (world : World H)
    (calls : List Runs.Call) (out : Outside) (request : Request) (cluster : Option String)
    (context : Context) : Prop where
  justified : Justified hash filter world out request cluster context
  /-- Once the headers to remove are removed, no part of what is left in the token headers is a
  token the gateway accepts, now or after any further calls of the registry. -/
  nothingLeft : ∀ name, name = "authorization" ∨ name ∈ filter.tokenHeaders →
    ∀ value ∈ (request.headers.removeAll context.headersToRemove).getAll name,
      ∀ later token, NoCollision hash (calls ++ later) value → token <:+: value →
        ¬ Accepted hash world.operators ((Runs.machine hash).runFrom world.runs later) token

/-- **The gate.** Whatever the configuration, the history of the registry, the operators, the other
requests and the request, a request goes on only for one of the three reasons, and without a token
of the gateway's in the headers tokens are read from. -/
theorem gated (hash : Bytes → H) (filter : RunTokenFilter)
    (hauthorization : "authorization" ∈ filter.tokenHeaders) (world : World H)
    (calls : List Runs.Call) (hruns : world.runs = (Runs.machine hash).run calls) (out : Outside)
    (request : Request) (cluster : Option String)
    (hproceed : (filter.onRequest hash world out request cluster).2.2 = .ok .proceed) :
    Gated hash filter world calls out request cluster
      (filter.onRequest hash world out request cluster).2.1 := by
  obtain ⟨hforward, hproceeds⟩ := proceeds_of_onRequest
    (show filter.onRequest hash world out request cluster = (_, _, _) from
      Prod.ext rfl (Prod.ext rfl hproceed))
  refine ⟨hproceeds.justified, ?_⟩
  · intro name hname value hvalue later token hcollision hpart
    have hmem : name ∈ filter.tokenHeaders := hname.elim (fun h => h ▸ hauthorization) id
    obtain ⟨hrun, hoperator⟩ := hproceeds.left hforward.single hmem hvalue
    rw [hruns, ← Mealy.run_append]
    exact not_accepted_of_no_tokenPrefix hrun hoperator hcollision hpart

/-- A job's request for Messages with the placeholder, its run token in `x-run-token`. -/
def sampleRequest : Request where
  method := ascii "POST"
  path := ascii "/anthropic/v1/messages"
  query := none
  headers := [("authorization", RunTokenFilter.placeholder),
    ("x-run-token", Runs.newToken (Runs.sampleDraw 1))]

/-- A gateway with the retried job's run and no operators. -/
def sampleWorld : World Bytes where
  runs := (Runs.machine id).run Runs.retryCalls
  operators := ∅
  usage := {}

def sampleOutside : Outside where
  now := 2
  later := 2
  unix := 0
  random := Runs.sampleDraw 2
  permit := true
  between := []

/-- A caller's request for Messages with a credential of its own. -/
def sampleOwnRequest : Request :=
  { sampleRequest with headers := [("authorization", ascii "Bearer sk-ant-oat01-own")] }

/-- The job's request is injected and the caller's passed through, whose `Authorization` is left. -/
theorem gated_sample :
    Gated id (.praxis .absent none) sampleWorld Runs.retryCalls sampleOutside sampleRequest
        (some "anthropic")
        ((RunTokenFilter.praxis .absent none).onRequest id sampleWorld sampleOutside sampleRequest
          (some "anthropic")).2.1 ∧
      Gated id (.praxis .absent none) sampleWorld Runs.retryCalls sampleOutside sampleOwnRequest
        (some "anthropic-pass-through")
        ((RunTokenFilter.praxis .absent none).onRequest id sampleWorld sampleOutside
          sampleOwnRequest (some "anthropic-pass-through")).2.1 ∧
      ∀ later value, NoCollision id (Runs.retryCalls ++ later) value :=
  ⟨gated id (.praxis .absent none) (by decide) sampleWorld Runs.retryCalls rfl sampleOutside
      sampleRequest (some "anthropic") (by rfl),
    gated id (.praxis .absent none) (by decide) sampleWorld Runs.retryCalls rfl sampleOutside
      sampleOwnRequest (some "anthropic-pass-through") (by rfl),
    fun _ _ _ _ _ _ heq => heq⟩

end CredentialBroker
