import CredentialBroker.Chain.Basic

/-!
# What a run of a chain leaves behind

A request that reaches the end of a chain passed every entry of it. `Passed` says, once, everything
an entry can do to the flow of a request it lets go on; from it follow, by induction over the chain,
the facts every configuration is argued with:

* no answering filter applied (`not_applies_of_run`);
* what is removed, set and added is what the entries that applied say, in order;
* the cluster, the context and the credential are those of the filters that write them, and survive
  the rest of the chain (`frame_of_run`).
-/

namespace CredentialBroker.Chain

variable {H : Type} [DecidableEq H] {hash : Bytes → H} {env : Environment H} {request : Request}

/-- **Everything an entry does** to a flow it lets go on. -/
inductive Passed (hash : Bytes → H) (env : Environment H) (request : Request) (flow : Flow H)
    (entry : Entry) : Flow H → Prop where
  | skipped (happlies : ¬ entry.Applies request) : Passed hash env request flow entry flow
  | external (happlies : entry.Applies request) (name : String)
      (hfilter : entry.filter = .external name) : Passed hash env request flow entry flow
  | router (happlies : entry.Applies request) (routes : List Route) (route : Route)
      (hfilter : entry.filter = .router routes) (hpick : pick routes request = some route) :
      Passed hash env request flow entry { flow with cluster := some route.cluster }
  | runToken (happlies : entry.Applies request) (filter : RunTokenFilter) (world : World H)
      (context : Context) (hfilter : entry.filter = .runToken filter)
      (hproceed : filter.onRequest hash flow.world env.out request flow.cluster =
        (world, context, .ok .proceed)) :
      Passed hash env request flow entry { flow with world := world, context := context }
  | pathRewrite (happlies : entry.Applies request) (stem : Bytes)
      (hfilter : entry.filter = .pathRewrite stem) :
      Passed hash env request flow entry
        { flow with path := (stem.isPrefixOf? flow.path).getD flow.path }
  | headers (happlies : entry.Applies request) (remove : List String) (set add : HeaderMap)
      (hfilter : entry.filter = .headers remove set add) :
      Passed hash env request flow entry
        { flow with
          removed := flow.removed ++ remove
          set := flow.set ++ set
          added := flow.added ++ add }
  | credentialInjection (happlies : entry.Applies request) (clusters : List Injection)
      (hfilter : entry.filter = .credentialInjection clusters)
      (credential : Option (String × Bytes))
      (hcredential : credential =
        ((clusters.find? (fun injection => some injection.cluster = flow.cluster)).map
          (fun injection => (injection.header, injection.value))).or flow.credential) :
      Passed hash env request flow entry { flow with credential := credential }
  | loadBalancer (happlies : entry.Applies request) (endpoints : Assoc String String)
      (hfilter : entry.filter = .loadBalancer endpoints) :
      Passed hash env request flow entry
        { flow with endpoint := flow.cluster.bind endpoints.lookup }

theorem passed_of_step {flow flow' : Flow H} {entry : Entry}
    (h : entry.step hash env request flow = .ok flow') :
    Passed hash env request flow entry flow' := by
  unfold Entry.step at h
  split at h
  · next happlies =>
      cases hfilter : entry.filter with
      | staticResponse rejection => simp [hfilter, Filter.apply] at h
      | external name =>
          simp only [hfilter, Filter.apply] at h
          split at h
          · cases h
          · cases h
            exact .external happlies name hfilter
      | router routes =>
          simp only [hfilter, Filter.apply] at h
          split at h
          · next route hpick =>
              cases h
              exact .router happlies routes route hfilter hpick
          · cases h
      | runToken filter =>
          simp only [hfilter, Filter.apply] at h
          split at h
          · next world context hproceed =>
              cases h
              exact .runToken happlies filter world context hfilter hproceed
          · cases h
      | pathRewrite stem =>
          simp only [hfilter, Filter.apply] at h
          cases h
          exact .pathRewrite happlies stem hfilter
      | headers remove set add =>
          simp only [hfilter, Filter.apply] at h
          cases h
          exact .headers happlies remove set add hfilter
      | credentialInjection clusters =>
          simp only [hfilter, Filter.apply] at h
          split at h
          · next injection hfind =>
              cases h
              exact .credentialInjection happlies clusters hfilter _ (by rw [hfind]; rfl)
          · next hfind =>
              cases h
              exact .credentialInjection happlies clusters hfilter _ (by rw [hfind]; rfl)
      | loadBalancer endpoints =>
          simp only [hfilter, Filter.apply] at h
          cases h
          exact .loadBalancer happlies endpoints hfilter
  · next happlies =>
      cases h
      exact .skipped happlies

/-! ### The entries without conditions that write something -/

theorem Passed.route {flow flow' : Flow H} {routes : List Route}
    (h : Passed hash env request flow ⟨[], .router routes⟩ flow') :
    ∃ route, pick routes request = some route ∧
      flow' = { flow with cluster := some route.cluster } := by
  cases h with
  | skipped happlies => exact absurd (List.forall_mem_nil _) happlies
  | router happlies routes' route hfilter hpick =>
      cases hfilter
      exact ⟨route, hpick, rfl⟩
  | _ => simp_all

theorem Passed.admission {flow flow' : Flow H} {filter : RunTokenFilter}
    (h : Passed hash env request flow ⟨[], .runToken filter⟩ flow') :
    ∃ world context, filter.onRequest hash flow.world env.out request flow.cluster =
        (world, context, .ok .proceed) ∧
      flow' = { flow with world := world, context := context } := by
  cases h with
  | skipped happlies => exact absurd (List.forall_mem_nil _) happlies
  | runToken happlies filter' world context hfilter hproceed =>
      cases hfilter
      exact ⟨world, context, hproceed, rfl⟩
  | _ => simp_all

theorem Passed.injection {flow flow' : Flow H} {clusters : List Injection}
    (h : Passed hash env request flow ⟨[], .credentialInjection clusters⟩ flow') :
    flow' = { flow with credential :=
      ((clusters.find? (fun injection => some injection.cluster = flow.cluster)).map
        (fun injection => (injection.header, injection.value))).or flow.credential } := by
  cases h with
  | skipped happlies => exact absurd (List.forall_mem_nil _) happlies
  | credentialInjection happlies clusters' hfilter credential hcredential =>
      cases hfilter
      rw [hcredential]
  | _ => simp_all

/-! ## Runs, entry by entry -/

theorem runFrom_append_ok {chain chain' : List Entry} {flow flow' : Flow H}
    (h : runFrom hash env request (chain ++ chain') flow = .ok flow') :
    ∃ mid, runFrom hash env request chain flow = .ok mid ∧
      runFrom hash env request chain' mid = .ok flow' := by
  unfold runFrom at h
  rw [List.foldlM_append] at h
  cases hmid : List.foldlM (Entry.step hash env request) flow chain with
  | error answer => rw [hmid] at h; cases h
  | ok mid => rw [hmid] at h; exact ⟨mid, hmid, h⟩

theorem runFrom_cons_ok {entry : Entry} {chain : List Entry} {flow flow' : Flow H}
    (h : runFrom hash env request (entry :: chain) flow = .ok flow') :
    ∃ mid, Passed hash env request flow entry mid ∧
      runFrom hash env request chain mid = .ok flow' := by
  unfold runFrom at h
  rw [List.foldlM_cons] at h
  cases hmid : entry.step hash env request flow with
  | error answer => rw [hmid] at h; cases h
  | ok mid => rw [hmid] at h; exact ⟨mid, passed_of_step hmid, h⟩

/-- **The invariant rule** of chains: what every entry a request passes preserves, a run does. -/
theorem runFrom_invariant {P : Flow H → Prop} {chain : List Entry}
    (step : ∀ entry ∈ chain, ∀ flow flow', Passed hash env request flow entry flow' →
      P flow → P flow') :
    ∀ {flow flow' : Flow H}, runFrom hash env request chain flow = .ok flow' →
      P flow → P flow' := by
  induction chain with
  | nil =>
      intro flow flow' h hflow
      cases h
      exact hflow
  | cons entry chain ih =>
      intro flow flow' h hflow
      obtain ⟨mid, hpassed, hrest⟩ := runFrom_cons_ok h
      apply ih (fun e he => step e (List.mem_cons_of_mem _ he)) hrest
      exact step entry List.mem_cons_self flow mid hpassed hflow

/-- A filter that answers every request it applies to. -/
def Filter.answers : Filter → Bool
  | .staticResponse _ => true
  | _ => false

/-- **No answering filter applied** to a request that passed a chain. -/
theorem not_applies_of_run {chain : List Entry} {entry : Entry} (hentry : entry ∈ chain)
    (hanswers : entry.filter.answers) :
    ∀ {flow flow' : Flow H}, runFrom hash env request chain flow = .ok flow' →
      ¬ entry.Applies request := by
  induction chain with
  | nil => cases hentry
  | cons first chain ih =>
      intro flow flow' h
      obtain ⟨mid, hpassed, hrest⟩ := runFrom_cons_ok h
      rcases List.mem_cons.mp hentry with rfl | hentry
      · cases hpassed with
        | skipped happlies => exact happlies
        | _ => simp_all [Filter.answers]
      · exact ih hentry hrest

/-! ## Headers removed, set and added -/

/-- What a filter removes. -/
def Filter.removes : Filter → List String
  | .headers remove _ _ => remove
  | _ => []

/-- What a filter sets or adds. -/
def Filter.writes : Filter → HeaderMap
  | .headers _ set add => set ++ add
  | _ => []

/-- **What a chain removes** is what the entries that applied remove. -/
theorem mem_removed_of_run {chain : List Entry} {name : String} :
    ∀ {flow flow' : Flow H}, runFrom hash env request chain flow = .ok flow' →
      (name ∈ flow'.removed ↔ name ∈ flow.removed ∨
        ∃ entry ∈ chain, entry.Applies request ∧ name ∈ entry.filter.removes) := by
  induction chain with
  | nil =>
      intro flow flow' h
      cases h
      simp
  | cons entry chain ih =>
      intro flow flow' h
      obtain ⟨mid, hpassed, hrest⟩ := runFrom_cons_ok h
      rw [ih hrest]
      have hmid : name ∈ mid.removed ↔ name ∈ flow.removed ∨
          (entry.Applies request ∧ name ∈ entry.filter.removes) := by
        cases hpassed with
        | skipped happlies => simp [happlies]
        | headers happlies remove set add hfilter => simp [happlies, hfilter, Filter.removes]
        | _ => simp_all [Filter.removes]
      rw [hmid, or_assoc, List.exists_mem_cons_iff]

/-- What a chain sets or adds is what some entry of it does. -/
theorem mem_written_of_run {chain : List Entry} {field : String × Bytes} {flow flow' : Flow H}
    (h : runFrom hash env request chain flow = .ok flow')
    (hfield : field ∈ flow'.set ++ flow'.added) :
    field ∈ flow.set ++ flow.added ∨ ∃ entry ∈ chain, field ∈ entry.filter.writes := by
  refine runFrom_invariant (P := fun mid => field ∈ mid.set ++ mid.added →
    field ∈ flow.set ++ flow.added ∨ ∃ entry ∈ chain, field ∈ entry.filter.writes)
    ?_ h Or.inl hfield
  intro entry hentry mid mid' hpassed hmid hfield
  cases hpassed with
  | headers happlies remove set add hfilter =>
      have hwrites : field ∈ entry.filter.writes ↔ field ∈ set ++ add := by
        rw [hfilter]
        rfl
      simp only [List.mem_append] at hfield hmid hwrites ⊢
      rcases hfield with (hold | hnew) | (hold | hnew)
      · exact hmid (.inl hold)
      · exact .inr ⟨entry, hentry, hwrites.mpr (.inl hnew)⟩
      · exact hmid (.inr hold)
      · exact .inr ⟨entry, hentry, hwrites.mpr (.inr hnew)⟩
  | _ => exact hmid hfield

/-! ## What survives the rest of a chain -/

/-- A filter that routes, admits or injects. -/
def Filter.steers : Filter → Bool
  | .router _ | .runToken _ | .credentialInjection _ => true
  | _ => false

/-- **Frame.** Entries that steer nothing leave the cluster, the context, the world and the
credential of a flow as they are. -/
theorem frame_of_run {chain : List Entry} (hchain : ∀ entry ∈ chain, entry.filter.steers = false)
    {flow flow' : Flow H} (h : runFrom hash env request chain flow = .ok flow') :
    flow'.cluster = flow.cluster ∧ flow'.context = flow.context ∧ flow'.world = flow.world ∧
      flow'.credential = flow.credential := by
  refine runFrom_invariant (P := fun mid => mid.cluster = flow.cluster ∧
    mid.context = flow.context ∧ mid.world = flow.world ∧ mid.credential = flow.credential) ?_ h
    ⟨rfl, rfl, rfl, rfl⟩
  intro entry hentry mid mid' hpassed hmid
  have hquiet := hchain entry hentry
  cases hpassed with
  | router happlies routes route hfilter hpick => rw [hfilter] at hquiet; cases hquiet
  | runToken happlies filter world context hfilter hproceed =>
      rw [hfilter] at hquiet; cases hquiet
  | credentialInjection happlies clusters hfilter credential hcredential =>
      rw [hfilter] at hquiet; cases hquiet
  | _ => exact hmid

/-! ## What is sent -/

namespace Flow

variable {flow : Flow H}

/-- A header the chain does not write keeps the client's values, or loses them all. -/
theorem getAll_rewritten {name : String}
    (hwritten : ∀ field ∈ flow.set ++ flow.added, field.1 ≠ name) :
    (flow.rewritten request).getAll name =
      if name ∈ flow.removals then [] else request.headers.getAll name := by
  have hnone : ∀ fields : HeaderMap, (∀ field ∈ fields, field.1 ≠ name) →
      fields.getAll name = [] := by
    intro fields hfields
    rw [List.eq_nil_iff_forall_not_mem]
    intro value hvalue
    exact hfields _ (HeaderMap.mem_getAll.mp hvalue) rfl
  have hset : name ∉ flow.set.map Prod.fst := by
    intro hmem
    obtain ⟨field, hfield, rfl⟩ := List.mem_map.mp hmem
    exact hwritten field (List.mem_append_left _ hfield) rfl
  unfold rewritten
  rw [HeaderMap.getAll_append, HeaderMap.getAll_append,
    hnone flow.set fun field hfield => hwritten field (List.mem_append_left _ hfield),
    hnone flow.added fun field hfield => hwritten field (List.mem_append_right _ hfield),
    List.append_nil, List.append_nil, HeaderMap.getAll_removeAll, if_neg hset,
    HeaderMap.getAll_removeAll]

/-- A credential is the only value of its header. -/
theorem getAll_sent_of_credential {name : String} {value : Bytes}
    (h : flow.credential = some (name, value)) : (flow.sent request).getAll name = [value] := by
  unfold sent
  rw [h]
  show HeaderMap.getAll (_ ++ _) name = _
  rw [HeaderMap.getAll_append, HeaderMap.getAll_removeAll, if_pos (List.mem_singleton.mpr rfl),
    List.nil_append]
  simp [HeaderMap.getAll]

/-- A credential leaves the other headers alone. -/
theorem getAll_sent_of_ne {name : String}
    (h : ∀ credential ∈ flow.credential, credential.1 ≠ name) :
    (flow.sent request).getAll name = (flow.rewritten request).getAll name := by
  unfold sent
  split
  · rfl
  · next header value hcredential =>
      have hne : header ≠ name := h _ hcredential
      rw [HeaderMap.getAll_append, HeaderMap.getAll_removeAll,
        if_neg (by simpa using Ne.symm hne)]
      simp [HeaderMap.getAll, hne]

end Flow

end CredentialBroker.Chain
