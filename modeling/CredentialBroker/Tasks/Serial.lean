import CredentialBroker.Tasks.Sections

/-!
# What the tasks share

The tasks share the registry, the permits and the key cache. Each is one thing to which one task
after another comes: the registry is what its calls in order make of it; every permit is there or
held by one task; and the cache is what its calls in order make of it, since a task that waits for
the key set keeps all others from it.

`Section` is what a critical section does to the three, with the stage it leads to, and `InStep` what
of them holds in every state.
-/

namespace CredentialBroker.Tasks

open Oidc RunTokenFilter

variable {H K : Type} [DecidableEq H] {hash : Bytes → H} {d : Deployed K}

/-! ## The registry -/

/-- The registry went on by calls that are on record. -/
def Follows (hash : Bytes → H) (g g' : Gateway H K) : Prop :=
  ∃ calls, g'.calls = g.calls ++ calls ∧
    g'.shared.runs = (Runs.machine hash).runFrom g.shared.runs calls

theorem Follows.of_eq {g g' : Gateway H K} (hruns : g'.shared.runs = g.shared.runs)
    (hcalls : g'.calls = g.calls) : Follows hash g g' :=
  ⟨[], by rw [hcalls, List.append_nil], hruns⟩

theorem Follows.trans {g g' g'' : Gateway H K} (h : Follows hash g g') (h' : Follows hash g' g'') :
    Follows hash g g'' := by
  obtain ⟨calls, hcalls, hruns⟩ := h
  obtain ⟨calls', hcalls', hruns'⟩ := h'
  refine ⟨calls ++ calls', ?_, ?_⟩
  · rw [hcalls', hcalls, List.append_assoc]
  · rw [hruns', hruns, Mealy.runFrom_append]

variable (hash) in
theorem follows_made (g : Gateway H K) (call : Runs.Call) : Follows hash g (g.made hash call) :=
  ⟨[call], rfl, rfl⟩

/-! ## The permits and the key cache -/

/-- What becomes of the permits, from a task that does or does not hold one. -/
inductive Permits (g g' : Gateway H K) (before : Bool) (next : Next K) : Prop where
  | kept (hpermits : g'.permits = g.permits) (hnext : next.verifying = before)
  | acquired (hpermits : g.permits.tryAcquire = some g'.permits) (hbefore : before = false)
      (hnext : next.verifying = true)
  | released (hpermits : g'.permits = g.permits.release) (hbefore : before = true)
      (reply : Reply) (hnext : next = .reply reply)

/-- What becomes of the key cache. -/
inductive Keys (g : Gateway H K) (id : Nat) (now : Instant) (g' : Gateway H K) (next : Next K) :
    Prop where
  | kept (hcache : g'.cache = g.cache) (hlocked : g'.locked = g.locked)
      (hcalls : g'.keyCalls = g.keyCalls) (hnext : next.fetching = false)
  /-- It answers at once. -/
  | called (call : KeyCall K) (hstart : call.start = now) (hfinish : call.finish = now)
      (hfree : g.locked = none) (hlocked : g'.locked = none)
      (hcache : g'.cache = (Oidc.machine K).next g.cache call)
      (hcalls : g'.keyCalls = g.keyCalls ++ [call]) (hnext : next.fetching = false)
  /-- The task begins to fetch. -/
  | begun (policy : Policy) (token : Bytes) (kid : String)
      (hfree : g.locked = none) (hlocked : g'.locked = some id)
      (hfresh : g.cache.freshKey kid now = none) (hdue : g.cache.due now = true)
      (hcache : g'.cache = { g.cache with attempted := some now })
      (hcalls : g'.keyCalls = g.keyCalls)
      (hnext : next = .wait (.fetching policy token kid now))

/-- What a critical section does to the registry, the permits and the cache. -/
structure Section (hash : Bytes → H) (g : Gateway H K) (id : Nat) (now : Instant) (before : Bool)
    (g' : Gateway H K) (next : Next K) : Prop where
  registry : Follows hash g g'
  permits : Permits g g' before next
  keys : Keys g id now g' next
  tasks : g'.tasks = g.tasks
  arrived : g'.shared.arrived = g.shared.arrived

namespace Section

variable {g g' : Gateway H K} {id : Nat} {now : Instant} {next : Next K}

/-- One that leaves the permits and the cache alone, and leads to no stage that needs either. -/
theorem of_follows (hregistry : Follows hash g g') (hpermits : g'.permits = g.permits)
    (hcache : g'.cache = g.cache) (hlocked : g'.locked = g.locked)
    (hcalls : g'.keyCalls = g.keyCalls) (htasks : g'.tasks = g.tasks)
    (harrived : g'.shared.arrived = g.shared.arrived) {before : Bool}
    (hverifying : next.verifying = before) (hfetching : next.fetching = false) :
    Section hash g id now before g' next :=
  ⟨hregistry, .kept hpermits hverifying, .kept hcache hlocked hcalls hfetching, htasks, harrived⟩

end Section

theorem Ran.toSection {g g' : Gateway H K} {id : Nat} {draw : Draw} {P : Registration → Prop}
    {before : Bool} {taken : Option String} {next : Next K}
    (h : Ran hash d g id draw P before taken g' next) :
    Section hash g id draw.now before g' next := by
  cases h with
  | apart _ hverifying hfetching hreturning hslotless =>
      exact .of_follows (.of_eq rfl rfl) rfl rfl rfl rfl rfl rfl hverifying hfetching
  | made call _ hcall hverifying hfetching hreturning hslotless =>
      exact .of_follows (follows_made hash g call) rfl rfl rfl rfl rfl rfl hverifying hfetching
  | counted admitted action hbefore =>
      exact ⟨.of_eq rfl rfl, .kept rfl hbefore.symm, .kept rfl rfl rfl rfl, rfl, rfl⟩
  | operated request cluster name token operator htoken hoperator hfree hbefore =>
      exact ⟨.of_eq rfl rfl, .kept rfl hbefore.symm, .kept rfl rfl rfl rfl, rfl, rfl⟩
  | exceeded h operator hfound hfull hbefore =>
      exact ⟨.of_eq rfl rfl, .kept rfl hbefore.symm, .kept rfl rfl rfl rfl, rfl, rfl⟩
  | returned name hbefore =>
      exact ⟨.of_eq rfl rfl, .kept rfl hbefore.symm, .kept rfl rfl rfl rfl, rfl, rfl⟩
  | acquired permits stage hpermits hverifying hfetching hreturning hbefore =>
      exact ⟨.of_eq rfl rfl, .acquired hpermits hbefore hverifying, .kept rfl rfl rfl hfetching,
        rfl, rfl⟩
  | released action hbefore =>
      exact ⟨.of_eq rfl rfl, .released rfl hbefore (answer action) rfl, .kept rfl rfl rfl rfl,
        rfl, rfl⟩
  | called call stage hstart hfinish hfree hcache hverifying hfetching hreturning =>
      exact ⟨.of_eq rfl rfl, .kept rfl hverifying,
        .called call hstart hfinish hfree hfree hcache.symm rfl hfetching, rfl, rfl⟩
  | begun policy token kid hfree hfresh hdue hbefore =>
      exact ⟨.of_eq rfl rfl, .kept rfl hbefore.symm,
        .begun policy token kid hfree rfl hfresh hdue rfl rfl rfl, rfl, rfl⟩

namespace Gateway

variable (hash d) in
theorem section_onRequest (g : Gateway H K) (id : Nat) (draw : Draw) (request : Request)
    (cluster : Option String) :
    Section hash g id draw.now false (g.onRequest hash d draw request cluster).1
      (g.onRequest hash d draw request cluster).2 :=
  (g.ran_onRequest hash d id draw request cluster).toSection

variable (hash d) in
theorem section_advance (g : Gateway H K) (id : Nat) (draw : Draw) (task : Task K)
    (hwaits : (Next.wait task.stage).fetching = false) :
    Section hash g id draw.now task.stage.verifying (g.advance hash d id draw task).1
      (g.advance hash d id draw task).2 :=
  (g.ran_advance hash d id draw task hwaits).toSection

variable (hash d) in
/-- The critical section of a task leaves the tasks to `settled`. -/
theorem tasks_advance (g : Gateway H K) (id : Nat) (draw : Draw) (task : Task K) :
    (g.advance hash d id draw task).1.tasks = g.tasks := by
  cases hwaits : (Next.wait task.stage).fetching with
  | false => exact (g.section_advance hash d id draw task hwaits).tasks
  | true => rw [g.advance_of_fetching id draw hwaits]

end Gateway

/-! ## What holds in every state -/

/-- The cache of a task that waits for the key set: it had to, and has it attempted. -/
structure Fetching (keyCalls : List (KeyCall K)) (cache : KeyCache K) (kid : String)
    (start : Instant) : Prop where
  fresh : ((Oidc.machine K).run keyCalls).freshKey kid start = none
  due : ((Oidc.machine K).run keyCalls).due start = true
  cache : cache = { (Oidc.machine K).run keyCalls with attempted := some start }

/-- The registry, the permits and the key cache are as what was asked of them says. -/
structure InStep (hash : Bytes → H) (g : Gateway H K) : Prop where
  registry : g.shared.runs = (Runs.machine hash).run g.calls
  permits : Semaphore.Accounts registrationConcurrency (fun task => task.stage.verifying) g.permits
    g.tasks
  numbered : ∀ id task, g.tasks.lookup id = some task → id < g.shared.arrived
  unlocked : g.locked = none → g.cache = (Oidc.machine K).run g.keyCalls
  /-- The lock is had by a task that waits for the key set, -/
  locked : ∀ id, g.locked = some id → ∃ request cluster policy token kid start,
    g.tasks.lookup id = some ⟨request, cluster, .fetching policy token kid start⟩ ∧
      Fetching g.keyCalls g.cache kid start
  /-- and by each such task. -/
  fetching : ∀ id request cluster policy token kid start,
    g.tasks.lookup id = some ⟨request, cluster, .fetching policy token kid start⟩ →
      g.locked = some id

/-- At most one task waits for the key set. -/
theorem InStep.fetching_unique {g : Gateway H K} (h : InStep hash g) {id id' : Nat}
    {request request' : Request} {cluster cluster' : Option String} {policy policy' : Policy}
    {token token' : Bytes} {kid kid' : String} {start start' : Instant}
    (hid : g.tasks.lookup id = some ⟨request, cluster, .fetching policy token kid start⟩)
    (hid' : g.tasks.lookup id' = some ⟨request', cluster', .fetching policy' token' kid' start'⟩) :
    id = id' := by
  have hlocked := h.fetching _ _ _ _ _ _ _ hid
  rw [h.fetching _ _ _ _ _ _ _ hid'] at hlocked
  exact (Option.some.inj hlocked).symm

/-- What the fetch of a task comes to is what the call on the cache does. -/
theorem Fetching.next {keyCalls : List (KeyCall K)} {cache : KeyCache K} {kid : String}
    {start : Instant} (h : Fetching keyCalls cache kid start) (fetch : Fetch K)
    (finish : Instant) :
    (Oidc.machine K).next ((Oidc.machine K).run keyCalls) ⟨kid, start, fetch, finish⟩ =
      match fetch with
      | .keys set => { cache with keys := set, fetched := some finish }
      | .failed | .cancelled => cache := by
  have hfresh := h.fresh
  have hdue := h.due
  rw [h.cache]
  cases fetch <;> simp [Mealy.next, Oidc.machine, Oidc.key] at hfresh hdue ⊢ <;> simp [hfresh, hdue]

/-- The task a critical section leads to, unless it answers. -/
def Next.task (request : Request) (cluster : Option String) : Next K → Option (Task K)
  | wait stage => some ⟨request, cluster, stage⟩
  | reply _ => none

/-- Only one that waits for the key set leads to a task that does. -/
theorem Next.fetching_of_task {next : Next K} {request request' : Request}
    {cluster cluster' : Option String} {policy : Policy} {token : Bytes} {kid : String}
    {start : Instant}
    (h : next.task request cluster =
      some ⟨request', cluster', .fetching policy token kid start⟩) : next.fetching = true := by
  cases next with
  | wait stage =>
      cases h
      rfl
  | reply reply => cases h

namespace Gateway

variable (g : Gateway H K) (id : Nat) (request : Request) (cluster : Option String)
  (next : Next K)

theorem lookup_settled (other : Nat) :
    (g.settled id request cluster next).1.tasks.lookup other =
      if other = id then next.task request cluster else g.tasks.lookup other := by
  cases next with
  | wait stage => exact Assoc.lookup_insert_eq _ _ _ _
  | reply reply => exact Assoc.lookup_erase_eq _ _ _

theorem runs_settled :
    (g.settled id request cluster next).1.shared.runs = g.shared.runs := by
  cases next <;> rfl

theorem calls_settled : (g.settled id request cluster next).1.calls = g.calls := by
  cases next <;> rfl

theorem cache_settled : (g.settled id request cluster next).1.cache = g.cache := by
  cases next <;> rfl

theorem locked_settled : (g.settled id request cluster next).1.locked = g.locked := by
  cases next <;> rfl

theorem keyCalls_settled : (g.settled id request cluster next).1.keyCalls = g.keyCalls := by
  cases next <;> rfl

theorem arrived_settled :
    (g.settled id request cluster next).1.shared.arrived = g.shared.arrived := by
  cases next <;> rfl

end Gateway

/-- The permits add up after a task's critical section. -/
theorem Permits.accounts {g g' : Gateway H K} {id : Nat} {before : Bool} {next : Next K}
    (h : Permits g g' before next) (htasks : g'.tasks = g.tasks)
    (haccounts : Semaphore.Accounts registrationConcurrency (fun task => task.stage.verifying)
      g.permits g.tasks)
    (hbefore : (g.tasks.lookup id).any (fun task => task.stage.verifying) = before)
    (request : Request) (cluster : Option String) :
    Semaphore.Accounts registrationConcurrency (fun task => task.stage.verifying)
      (g'.settled id request cluster next).1.permits
      (g'.settled id request cluster next).1.tasks := by
  have hstays : ∀ stage, next = .wait stage → ∀ permits : Semaphore,
      permits.available + (if stage.verifying then 1 else 0) =
        g.permits.available + (if before then 1 else 0) →
      Semaphore.Accounts registrationConcurrency (fun task : Task K => task.stage.verifying)
        permits (g.tasks.insert id ⟨request, cluster, stage⟩) := by
    intro stage _ permits hpermits
    apply haccounts.insert
    rw [hbefore]
    exact hpermits
  have hends : ∀ permits : Semaphore,
      permits.available = g.permits.available + (if before then 1 else 0) →
      Semaphore.Accounts registrationConcurrency (fun task : Task K => task.stage.verifying)
        permits (g.tasks.erase id) := by
    intro permits hpermits
    apply haccounts.erase
    rw [hbefore]
    exact hpermits
  cases h with
  | kept hpermits hnext =>
      cases next with
      | wait stage =>
          show Semaphore.Accounts _ _ g'.permits (g'.tasks.insert id _)
          rw [htasks, hpermits]
          apply hstays stage rfl
          rw [← hnext]
          rfl
      | reply reply =>
          show Semaphore.Accounts _ _ g'.permits (g'.tasks.erase id)
          rw [htasks, hpermits]
          apply hends
          rw [← hnext]
          rfl
  | acquired hpermits hfalse hnext =>
      cases next with
      | wait stage =>
          show Semaphore.Accounts _ _ g'.permits (g'.tasks.insert id _)
          rw [htasks]
          apply hstays stage rfl
          rw [hfalse, Semaphore.tryAcquire_eq_some hpermits]
          simp only [show stage.verifying = true from hnext, if_true, Bool.false_eq_true, if_false]
      | reply reply => cases hnext
  | released hpermits htrue reply hnext =>
      subst hnext
      show Semaphore.Accounts _ _ g'.permits (g'.tasks.erase id)
      rw [htasks, hpermits]
      apply hends
      rw [htrue]
      rfl

/-- **Step**, of a critical section and what the task waits for then. -/
theorem InStep.settled {g g' : Gateway H K} {id : Nat} {now : Instant} {before : Bool}
    {next : Next K} (h : InStep hash g) (hsection : Section hash g id now before g' next)
    (hid : id < g.shared.arrived)
    (hbefore : (g.tasks.lookup id).any (fun task => task.stage.verifying) = before)
    (hwaits : ∀ task, g.tasks.lookup id = some task → (Next.wait task.stage).fetching = false)
    (request : Request) (cluster : Option String) :
    InStep hash (g'.settled id request cluster next).1 := by
  have hlookup := g'.lookup_settled id request cluster next
  rw [hsection.tasks] at hlookup
  -- a task that waits for the key set is another one, unless this one begins to
  have hothers : next.fetching = false → ∀ other request' cluster' policy token kid start,
      (g'.settled id request cluster next).1.tasks.lookup other =
          some ⟨request', cluster', .fetching policy token kid start⟩ →
        other ≠ id ∧
          g.tasks.lookup other = some ⟨request', cluster', .fetching policy token kid start⟩ := by
    intro hnext other request' cluster' policy token kid start hother
    rw [hlookup] at hother
    split at hother
    · rw [Next.fetching_of_task hother] at hnext
      cases hnext
    · next hne => exact ⟨hne, hother⟩
  have hstill : ∀ other task, g.tasks.lookup other = some task →
      (Next.wait task.stage).fetching = true →
        (g'.settled id request cluster next).1.tasks.lookup other = some task := by
    intro other task hother hfetching
    rw [hlookup, if_neg]
    · exact hother
    · rintro rfl
      rw [hwaits task hother] at hfetching
      cases hfetching
  refine ⟨?_, hsection.permits.accounts hsection.tasks h.permits hbefore request cluster, ?_, ?_, ?_,
    ?_⟩
  · obtain ⟨calls, hcalls, hruns⟩ := hsection.registry
    rw [Gateway.runs_settled, Gateway.calls_settled, hcalls, hruns, h.registry, Mealy.run_append]
  · intro other task hother
    rw [Gateway.arrived_settled, hsection.arrived]
    rw [hlookup] at hother
    split at hother
    · next heq => rwa [heq]
    · exact h.numbered other task hother
  · intro hnone
    rw [Gateway.locked_settled] at hnone
    rw [Gateway.cache_settled, Gateway.keyCalls_settled]
    cases hsection.keys with
    | kept hcache hlocked hcalls hnext =>
        rw [hcache, hcalls]
        exact h.unlocked (hlocked ▸ hnone)
    | called call hstart hfinish hfree hlocked hcache hcalls hnext =>
        rw [hcache, hcalls, Mealy.run_concat, h.unlocked hfree]
    | begun policy token kid hfree hlocked hfresh hdue hcache hcalls hnext =>
        rw [hlocked] at hnone
        cases hnone
  · intro other hother
    rw [Gateway.locked_settled] at hother
    cases hsection.keys with
    | kept hcache hlocked hcalls hnext =>
        rw [hlocked] at hother
        obtain ⟨request', cluster', policy, token, kid, start, htask, hfetching⟩ :=
          h.locked other hother
        refine ⟨request', cluster', policy, token, kid, start, hstill other _ htask rfl, ?_⟩
        refine ⟨?_, ?_, ?_⟩
        · rw [Gateway.keyCalls_settled, hcalls]
          exact hfetching.fresh
        · rw [Gateway.keyCalls_settled, hcalls]
          exact hfetching.due
        · rw [Gateway.keyCalls_settled, Gateway.cache_settled, hcalls, hcache]
          exact hfetching.cache
    | called call hstart hfinish hfree hlocked hcache hcalls hnext =>
        rw [hlocked] at hother
        cases hother
    | begun policy token kid hfree hlocked hfresh hdue hcache hcalls hnext =>
        rw [hlocked, Option.some.injEq] at hother
        subst hother
        have hrun := h.unlocked hfree
        refine ⟨request, cluster, policy, token, kid, now, ?_, ?_⟩
        · rw [hlookup, if_pos rfl, hnext]
          rfl
        · refine ⟨?_, ?_, ?_⟩
          · rw [Gateway.keyCalls_settled, hcalls, ← hrun]
            exact hfresh
          · rw [Gateway.keyCalls_settled, hcalls, ← hrun]
            exact hdue
          · rw [Gateway.keyCalls_settled, Gateway.cache_settled, hcalls, hcache, hrun]
  · intro other request' cluster' policy token kid start hother
    rw [Gateway.locked_settled]
    cases hsection.keys with
    | kept hcache hlocked hcalls hnext =>
        rw [hlocked]
        exact h.fetching _ _ _ _ _ _ _ (hothers hnext _ _ _ _ _ _ _ hother).2
    | called call hstart hfinish hfree hlocked hcache hcalls hnext =>
        have hlast := h.fetching _ _ _ _ _ _ _ (hothers hnext _ _ _ _ _ _ _ hother).2
        rw [hfree] at hlast
        cases hlast
    | begun policy' token' kid' hfree hlocked hfresh hdue hcache hcalls hnext =>
        rw [hlocked]
        rw [hlookup] at hother
        split at hother
        · next heq => rw [heq]
        · have hlast := h.fetching _ _ _ _ _ _ _ hother
          rw [hfree] at hlast
          cases hlast

/-- **Step**, of a fetch that is over: the lock is free, and the cache as its call leaves it. -/
theorem InStep.fetched {g : Gateway H K} (h : InStep hash g) {id : Nat} {task : Task K}
    (htask : g.tasks.lookup id = some task) (keys : Option (Assoc String K)) (draw : Draw) :
    InStep hash (g.fetched id task keys draw) := by
  obtain ⟨request, cluster, stage⟩ := task
  unfold Gateway.fetched
  dsimp only
  split
  next policy token kid start =>
    have hlocked := h.fetching _ _ _ _ _ _ _ htask
    obtain ⟨_, _, _, _, kid', start', htask', hfetching⟩ := h.locked id hlocked
    rw [htask] at htask'
    cases htask'
    -- no other task waits for the key set, and this one no longer does
    have hnone : ∀ result : Except OidcError K,
        ∀ other request' cluster' policy' token' kid' start',
        (g.tasks.insert id ⟨request, cluster, keyed policy token result⟩).lookup other ≠
          some ⟨request', cluster', .fetching policy' token' kid' start'⟩ := by
      intro result other request' cluster' policy' token' kid' start' hother
      rw [Assoc.lookup_insert_eq] at hother
      split at hother
      · cases result <;> cases hother
      · next hne => exact hne (h.fetching_unique hother htask)
    refine ⟨h.registry, ?_, ?_, ?_, ?_, ?_⟩
    · apply h.permits.insert
      rw [htask]
      generalize KeyCache.answer _ kid draw.now = result
      cases result <;> rfl
    · intro other task' hother
      rw [Assoc.lookup_insert_eq] at hother
      split at hother
      · next heq =>
          rw [heq]
          exact h.numbered id _ htask
      · exact h.numbered other task' hother
    · intro _
      dsimp only
      rw [Mealy.run_concat, hfetching.next]
      cases keys <;> rfl
    · intro other hother
      cases hother
    · intro other request' cluster' policy' token' kid' start' hother
      exact absurd hother (hnone _ _ _ _ _ _ _ _)
  · exact h

/-- **Step**, of a task that is dropped: its permit is free, and the lock if it had that. -/
theorem InStep.cancelled {g : Gateway H K} (h : InStep hash g) {id : Nat} {task : Task K}
    (htask : g.tasks.lookup id = some task) (draw : Draw) :
    InStep hash (g.cancelled id task draw) := by
  obtain ⟨request, cluster, stage⟩ := task
  have hnumbered : ∀ other task', (g.tasks.erase id).lookup other = some task' →
      other < g.shared.arrived := by
    intro other task' hother
    rw [Assoc.lookup_erase_eq] at hother
    split at hother
    · cases hother
    · exact h.numbered other task' hother
  have hfewer : ∀ other task', (g.tasks.erase id).lookup other = some task' →
      other ≠ id ∧ g.tasks.lookup other = some task' := by
    intro other task' hother
    rw [Assoc.lookup_erase_eq] at hother
    split at hother
    · cases hother
    · next hne => exact ⟨hne, hother⟩
  unfold Gateway.cancelled
  dsimp only
  split
  next policy token kid =>
    refine ⟨h.registry, ?_, hnumbered, h.unlocked, ?_, ?_⟩
    · apply h.permits.erase
      rw [htask]
      rfl
    · intro other hother
      obtain ⟨request', cluster', policy', token', kid', start', hfetches, hfetching⟩ :=
        h.locked other hother
      refine ⟨request', cluster', policy', token', kid', start', ?_, hfetching⟩
      dsimp only
      rw [Assoc.lookup_erase_eq, if_neg]
      · exact hfetches
      · rintro rfl
        rw [htask] at hfetches
        cases hfetches
    · intro other request' cluster' policy' token' kid' start' hother
      exact h.fetching _ _ _ _ _ _ _ (hfewer _ _ hother).2
  next policy token kid start =>
    have hlocked := h.fetching _ _ _ _ _ _ _ htask
    obtain ⟨_, _, _, _, kid', start', htask', hfetching⟩ := h.locked id hlocked
    rw [htask] at htask'
    cases htask'
    refine ⟨h.registry, ?_, hnumbered, ?_, ?_, ?_⟩
    · apply h.permits.erase
      rw [htask]
      rfl
    · intro _
      dsimp only
      rw [Mealy.run_concat, hfetching.next]
    · intro other hother
      cases hother
    · intro other request' cluster' policy' token' kid' start' hother
      obtain ⟨hne, hfetches⟩ := hfewer _ _ hother
      exact absurd (h.fetching_unique hfetches htask) hne
  · exact h

/-- What a callback of a request that went on does to the registry is on record. -/
theorem InStep.callback {g : Gateway H K} (h : InStep hash g) {shared : FilterState H}
    (calls : List Runs.Call) (hruns : shared.runs = (Runs.machine hash).runFrom g.shared.runs calls)
    (harrived : shared.arrived = g.shared.arrived) :
    InStep hash { g with shared := shared, calls := g.calls ++ calls } := by
  refine ⟨?_, h.permits, ?_, h.unlocked, h.locked, h.fetching⟩
  · dsimp only
    rw [hruns, h.registry, Mealy.run_append]
  · intro id task htask
    dsimp only
    rw [harrived]
    exact h.numbered id task htask

variable (hash) in
theorem Gateway.runs_onResponseBody (g : Gateway H K) (id : Nat) (endOfStream : Bool)
    (metadata : TokenMetadata) (draw : Draw) :
    (g.shared.onResponseBody id endOfStream metadata draw.unix).runs =
        (Runs.machine hash).runFrom g.shared.runs (if endOfStream then
          g.settling id (fun admission => admission.settled (reportedUsage metadata)) draw
        else []) ∧
      (g.shared.onResponseBody id endOfStream metadata draw.unix).arrived = g.shared.arrived := by
  unfold FilterState.onResponseBody Gateway.settling
  cases hlookup : g.shared.contexts.lookup id with
  | none =>
      cases endOfStream
      · exact ⟨rfl, rfl⟩
      · exact ⟨rfl, rfl⟩
  | some metered =>
      cases endOfStream with
      | false => exact ⟨rfl, rfl⟩
      | true =>
          unfold FilterState.settle
          cases hcaller : metered.caller with
          | none => simp [hcaller, Mealy.runFrom]
          | some caller =>
              cases caller with
              | run admission => simp [hcaller, Mealy.runFrom, Mealy.next, Runs.machine, Runs.step]
              | operator slot => simp [hcaller, Mealy.runFrom]

variable (hash) in
theorem Gateway.runs_onDrop (g : Gateway H K) (id : Nat) (draw : Draw) :
    (g.shared.onDrop id).runs =
        (Runs.machine hash).runFrom g.shared.runs (g.settling id Runs.Admission.dropped draw) ∧
      (g.shared.onDrop id).arrived = g.shared.arrived := by
  unfold FilterState.onDrop Gateway.settling
  cases hlookup : g.shared.contexts.lookup id with
  | none => exact ⟨rfl, rfl⟩
  | some metered =>
      cases hcaller : metered.caller with
      | none => simp [hcaller, Mealy.runFrom]
      | some caller =>
          cases caller with
          | run admission => simp [hcaller, Mealy.runFrom, Mealy.next, Runs.machine, Runs.step]
          | operator slot => simp [hcaller, Mealy.runFrom]

theorem Gateway.runs_onResponse (g : Gateway H K) (id : Nat) (head : Option ResponseHead)
    (unix : UInt64) :
    (g.shared.onResponse id head unix).runs = g.shared.runs ∧
      (g.shared.onResponse id head unix).arrived = g.shared.arrived := by
  unfold FilterState.onResponse
  split <;> exact ⟨rfl, rfl⟩

/-- A request is given its number. -/
theorem InStep.arrive {g : Gateway H K} (h : InStep hash g) : InStep hash g.arrive := by
  refine ⟨h.registry, h.permits, ?_, h.unlocked, h.locked, h.fetching⟩
  intro id task htask
  exact Nat.lt_succ_of_lt (h.numbered id task htask)

/-- **Step.** An act leaves the registry, the permits and the key cache as what was asked of them
says. -/
theorem InStep.step {g : Gateway H K} (h : InStep hash g) (act : Act K) :
    InStep hash (g.step hash d act).1 := by
  cases act with
  | request draw request cluster =>
      have hnew : g.arrive.tasks.lookup g.shared.arrived = none := by
        rw [Option.eq_none_iff_forall_ne_some]
        intro task htask
        exact Nat.lt_irrefl _ (h.numbered _ task htask)
      apply h.arrive.settled
        (Gateway.section_onRequest hash d _ g.shared.arrived draw request cluster)
      · exact Nat.lt_succ_self _
      · rw [hnew]
        rfl
      · intro task htask
        rw [hnew] at htask
        cases htask
  | resume id draw =>
      unfold Gateway.step
      dsimp only
      split
      · exact h
      · next task htask =>
          cases hwaits : (Next.wait task.stage).fetching with
          | false =>
              apply h.settled (Gateway.section_advance hash d g id draw task hwaits)
              · exact h.numbered id task htask
              · rw [htask]
                rfl
              · intro task' htask'
                rw [htask] at htask'
                cases htask'
                exact hwaits
          | true =>
              -- it waits for what the act does not bring
              rw [g.advance_of_fetching id draw hwaits]
              show InStep hash { g with tasks := g.tasks.insert id task }
              have hsame := Assoc.lookup_insert_of_eq htask
              refine ⟨h.registry, ?_, ?_, h.unlocked, ?_, ?_⟩
              · apply h.permits.insert
                rw [htask]
                rfl
              · intro other task' hother
                exact h.numbered other task' (hsame other ▸ hother)
              · intro other hother
                obtain ⟨request, cluster, policy, token, kid, start, hfetches, hfetching⟩ :=
                  h.locked other hother
                exact ⟨request, cluster, policy, token, kid, start, (hsame other).trans hfetches,
                  hfetching⟩
              · intro other request cluster policy token kid start hother
                exact h.fetching _ _ _ _ _ _ _ ((hsame other).symm.trans hother)
  | fetched id keys draw =>
      unfold Gateway.step
      dsimp only
      split
      · exact h
      · next task htask => exact h.fetched htask keys draw
  | cancel id draw =>
      unfold Gateway.step
      dsimp only
      split
      · exact h
      · next task htask => exact h.cancelled htask draw
  | response id head draw =>
      obtain ⟨hruns, harrived⟩ := g.runs_onResponse id head draw.unix
      have hcallback := h.callback [] hruns harrived
      rwa [List.append_nil] at hcallback
  | body id endOfStream metadata draw =>
      obtain ⟨hruns, harrived⟩ := g.runs_onResponseBody hash id endOfStream metadata draw
      exact h.callback _ hruns harrived
  | drop id draw =>
      obtain ⟨hruns, harrived⟩ := g.runs_onDrop hash id draw
      exact h.callback _ hruns harrived

variable (hash d) in
/-- **Run.** So they are after any interleaving. -/
theorem inStep_run (operators : Operators H) (usage : UsageRegistry) (acts : List (Act K)) :
    InStep hash ((gateway hash d operators usage).run acts) := by
  induction acts using List.reverseRecOn with
  | nil =>
      refine ⟨rfl, Semaphore.accounts_empty _ _, ?_, fun _ => rfl, ?_, ?_⟩
      · intro id task htask
        cases htask
      · intro id hlocked
        cases hlocked
      · intro id request cluster policy token kid start htask
        cases htask
  | append_singleton acts act ih =>
      rw [Mealy.run_concat]
      exact ih.step act

/-! ## Times -/

/-- The clock does not go back. -/
def Clock (acts : List (Act K)) : Prop := acts.Pairwise fun act act' => act.draw.now ≤ act'.draw.now

/-- Calls on the key cache are one after the other, and past. -/
structure InTime (acts : List (Act K)) (g : Gateway H K) : Prop where
  timed : Timed g.keyCalls
  past : ∀ now, (∀ act ∈ acts, act.draw.now ≤ now) → ∀ call ∈ g.keyCalls, call.finish ≤ now
  begun : ∀ id request cluster policy token kid start,
    g.tasks.lookup id = some ⟨request, cluster, .fetching policy token kid start⟩ →
      (∀ call ∈ g.keyCalls, call.finish ≤ start) ∧
        ∀ now, (∀ act ∈ acts, act.draw.now ≤ now) → start ≤ now

/-- One more call, that is made after all others are over. -/
private theorem timed_concat {calls : List (KeyCall K)} (h : Timed calls) {call : KeyCall K}
    (hforward : call.start ≤ call.finish) (hafter : ∀ call' ∈ calls, call'.finish ≤ call.start) :
    Timed (calls ++ [call]) where
  forward := by
    intro call' hcall'
    rcases List.mem_append.mp hcall' with hold | hnew
    · exact h.forward call' hold
    · rw [List.mem_singleton.mp hnew]
      exact hforward
  serial := by
    rw [List.pairwise_append]
    refine ⟨h.serial, List.pairwise_singleton _ _, ?_⟩
    intro call' hcall' last hlast
    rw [List.mem_singleton.mp hlast]
    exact hafter call' hcall'

/-- Nothing came of the key cache in an act, and no task began to wait for the key set. -/
theorem InTime.same {acts : List (Act K)} {g g' : Gateway H K} (h : InTime acts g) (act : Act K)
    (hcalls : g'.keyCalls = g.keyCalls)
    (htasks : ∀ id request cluster policy token kid start,
      g'.tasks.lookup id = some ⟨request, cluster, .fetching policy token kid start⟩ →
        g.tasks.lookup id = some ⟨request, cluster, .fetching policy token kid start⟩) :
    InTime (acts ++ [act]) g' where
  timed := hcalls ▸ h.timed
  past := by
    intro now hnow
    rw [hcalls]
    exact h.past now fun act' hact' => hnow act' (List.mem_append_left _ hact')
  begun := by
    intro id request cluster policy token kid start htask
    obtain ⟨hbefore, hpast⟩ := h.begun _ _ _ _ _ _ _ (htasks _ _ _ _ _ _ _ htask)
    rw [hcalls]
    exact ⟨hbefore, fun now hnow => hpast now fun act' hact' =>
      hnow act' (List.mem_append_left _ hact')⟩

/-- A call is made in an act, and no task waits for the key set. -/
theorem InTime.call {acts : List (Act K)} {g g' : Gateway H K} (h : InTime acts g) (act : Act K)
    (call : KeyCall K) (hforward : call.start ≤ call.finish)
    (hafter : ∀ call' ∈ g.keyCalls, call'.finish ≤ call.start)
    (hfinish : call.finish = act.draw.now) (hcalls : g'.keyCalls = g.keyCalls ++ [call])
    (hnone : ∀ id request cluster policy token kid start,
      g'.tasks.lookup id ≠ some ⟨request, cluster, .fetching policy token kid start⟩) :
    InTime (acts ++ [act]) g' where
  timed := by
    rw [hcalls]
    exact timed_concat h.timed hforward hafter
  past := by
    intro now hnow call' hcall'
    rw [hcalls] at hcall'
    rcases List.mem_append.mp hcall' with hold | hnew
    · exact h.past now (fun act' hact' => hnow act' (List.mem_append_left _ hact')) call' hold
    · rw [List.mem_singleton.mp hnew, hfinish]
      exact hnow act (List.mem_append_right _ (List.mem_singleton.mpr rfl))
  begun := by
    intro id request cluster policy token kid start htask
    exact absurd htask (hnone _ _ _ _ _ _ _)

/-- **Step**, of a critical section: the order of time is kept. -/
theorem InTime.settled {acts : List (Act K)} {g g' : Gateway H K} {id : Nat} {before : Bool}
    {next : Next K} (h : InTime acts g) (hi : InStep hash g) (act : Act K)
    (hsection : Section hash g id act.draw.now before g' next)
    (htime : ∀ act' ∈ acts, act'.draw.now ≤ act.draw.now) (request : Request)
    (cluster : Option String) :
    InTime (acts ++ [act]) (g'.settled id request cluster next).1 := by
  have hlookup := g'.lookup_settled id request cluster next
  rw [hsection.tasks] at hlookup
  have hothers : next.fetching = false → ∀ other request' cluster' policy token kid start,
      (g'.settled id request cluster next).1.tasks.lookup other =
          some ⟨request', cluster', .fetching policy token kid start⟩ →
        g.tasks.lookup other = some ⟨request', cluster', .fetching policy token kid start⟩ := by
    intro hnext other request' cluster' policy token kid start hother
    rw [hlookup] at hother
    split at hother
    · rw [Next.fetching_of_task hother] at hnext
      cases hnext
    · exact hother
  have hnone : g.locked = none → ∀ other request' cluster' policy token kid start,
      g.tasks.lookup other ≠ some ⟨request', cluster', .fetching policy token kid start⟩ := by
    intro hfree other request' cluster' policy token kid start hother
    rw [hi.fetching _ _ _ _ _ _ _ hother] at hfree
    cases hfree
  cases hsection.keys with
  | kept hcache hlocked hcalls hnext =>
      apply h.same act
      · rw [Gateway.keyCalls_settled, hcalls]
      · exact hothers hnext
  | called call hstart hfinish hfree hlocked hcache hcalls hnext =>
      apply h.call act call
      · rw [hstart, hfinish]
      · rw [hstart]
        exact h.past _ htime
      · exact hfinish
      · rw [Gateway.keyCalls_settled, hcalls]
      · intro other request' cluster' policy token kid start hother
        exact hnone hfree _ _ _ _ _ _ _ (hothers hnext _ _ _ _ _ _ _ hother)
  | begun policy token kid hfree hlocked hfresh hdue hcache hcalls hnext =>
      refine ⟨?_, ?_, ?_⟩
      · rw [Gateway.keyCalls_settled, hcalls]
        exact h.timed
      · intro now hnow
        rw [Gateway.keyCalls_settled, hcalls]
        exact h.past now fun act' hact' => hnow act' (List.mem_append_left _ hact')
      · intro other request' cluster' policy' token' kid' start' hother
        rw [hlookup] at hother
        split at hother
        · subst hnext
          cases hother
          refine ⟨?_, ?_⟩
          · rw [Gateway.keyCalls_settled, hcalls]
            exact h.past _ htime
          · intro now hnow
            exact hnow act (List.mem_append_right _ (List.mem_singleton.mpr rfl))
        · exact absurd hother (hnone hfree _ _ _ _ _ _ _)

/-- **Step.** Calls on the key cache stay one after the other and past, while the clock does not go
back. -/
theorem InTime.step {acts : List (Act K)} {g : Gateway H K} (h : InTime acts g)
    (hi : InStep hash g) (act : Act K) (htime : ∀ act' ∈ acts, act'.draw.now ≤ act.draw.now) :
    InTime (acts ++ [act]) (g.step hash d act).1 := by
  cases act with
  | request draw request cluster =>
      have hsame : InTime acts g.arrive := ⟨h.timed, h.past, h.begun⟩
      exact hsame.settled hi.arrive (.request draw request cluster)
        (Gateway.section_onRequest hash d _ g.shared.arrived draw request cluster) htime request
        cluster
  | resume id draw =>
      unfold Gateway.step
      dsimp only
      split
      · exact h.same _ rfl fun _ _ _ _ _ _ _ htask => htask
      · next task htask =>
          cases hwaits : (Next.wait task.stage).fetching with
          | false =>
              exact h.settled hi (.resume id draw)
                (Gateway.section_advance hash d g id draw task hwaits) htime _ _
          | true =>
              rw [g.advance_of_fetching id draw hwaits]
              apply h.same
              · rfl
              · intro other request cluster policy token kid start hother
                exact (Assoc.lookup_insert_of_eq htask other).symm.trans hother
  | fetched id keys draw =>
      unfold Gateway.step
      dsimp only
      split
      · exact h.same _ rfl fun _ _ _ _ _ _ _ htask => htask
      · next task htask =>
          obtain ⟨request, cluster, stage⟩ := task
          have hi' := hi.fetched htask keys draw
          unfold Gateway.fetched at hi' ⊢
          dsimp only at hi' ⊢
          split
          · next policy token kid start =>
              obtain ⟨hbefore, hpast⟩ := h.begun _ _ _ _ _ _ _ htask
              refine h.call (.fetched id keys draw) _ (hpast _ htime) hbefore rfl rfl ?_
              intro other request' cluster' policy' token' kid' start' hother
              cases hi'.fetching _ _ _ _ _ _ _ hother
          · exact h.same _ rfl fun _ _ _ _ _ _ _ htask => htask
  | cancel id draw =>
      unfold Gateway.step
      dsimp only
      split
      · exact h.same _ rfl fun _ _ _ _ _ _ _ htask => htask
      · next task htask =>
          obtain ⟨request, cluster, stage⟩ := task
          have hi' := hi.cancelled htask draw
          unfold Gateway.cancelled at hi' ⊢
          dsimp only at hi' ⊢
          split
          · apply h.same
            · rfl
            · intro other request' cluster' policy token kid start hother
              have herase : (g.tasks.erase id).lookup other = _ := hother
              rw [Assoc.lookup_erase_eq] at herase
              split at herase
              · cases herase
              · exact herase
          · next policy token kid start =>
              obtain ⟨hbefore, hpast⟩ := h.begun _ _ _ _ _ _ _ htask
              refine h.call (.cancel id draw) _ (hpast _ htime) hbefore rfl rfl ?_
              intro other request' cluster' policy' token' kid' start' hother
              cases hi'.fetching _ _ _ _ _ _ _ hother
          · exact h.same _ rfl fun _ _ _ _ _ _ _ htask => htask
  | response id head draw => exact h.same _ rfl fun _ _ _ _ _ _ _ htask => htask
  | body id endOfStream metadata draw => exact h.same _ rfl fun _ _ _ _ _ _ _ htask => htask
  | drop id draw => exact h.same _ rfl fun _ _ _ _ _ _ _ htask => htask

variable (hash d) in
/-- **Run.** So they are in any run of such a clock. -/
theorem inTime_run (operators : Operators H) (usage : UsageRegistry) {acts : List (Act K)}
    (h : Clock acts) : InTime acts ((gateway hash d operators usage).run acts) := by
  induction acts using List.reverseRecOn with
  | nil =>
      refine ⟨⟨?_, List.Pairwise.nil⟩, ?_, ?_⟩
      · intro call hcall
        cases hcall
      · intro now _ call hcall
        cases hcall
      · intro id request cluster policy token kid start htask
        cases htask
  | append_singleton acts act ih =>
      obtain ⟨hacts, -, hlast⟩ := List.pairwise_append.mp h
      rw [Mealy.run_concat]
      apply (ih hacts).step (inStep_run hash d operators usage acts) act
      intro act' hact'
      exact hlast act' hact' act (List.mem_singleton.mpr rfl)

/-! ## What it comes to -/

/-- A request to register a run by a token. -/
structure Registers (d : Deployed K) (request : Request) (loaded : LoadedRegistrar)
    (verifier : Verifier) : Prop where
  endpoints : d.endpoints = .serving loaded
  path : request.path = runsPath
  method : request.method = ascii "POST"
  oidc : loaded.oidc = some verifier
  proof : loaded.unproven = none ∨ request.headers.containsKey "authorization" = true

/-- Such a request is refused for want of a permit, or waits with one. -/
theorem Gateway.onRequest_of_registers {request : Request} {loaded : LoadedRegistrar}
    {verifier : Verifier} (h : Registers d request loaded verifier) (g : Gateway H K) (draw : Draw)
    (cluster : Option String) :
    g.onRequest hash d draw request cluster =
      match g.permits.tryAcquire with
      | none => (g, .reply (answer (reject 429 "too many registrations\n")))
      | some permits =>
        ({ g with permits := permits },
          .wait <|
            match bearer request.headers with
            | none => .answering (reject 401 "OIDC token required\n")
            | some token =>
              match d.keyId token with
              | .error error => .answering (refusal error)
              | .ok kid => .locking verifier.policy token kid) := by
  have husage : request.path ≠ usagePath := by
    rw [h.path]
    decide
  have hgrant : request.path ≠ grantPath := by
    rw [h.path]
    decide
  unfold onRequest
  rw [if_neg husage, if_neg hgrant, if_pos (Or.inl h.path), h.endpoints]
  dsimp only
  unfold serveRuns
  rw [if_pos h.path, if_pos h.method]
  dsimp only
  unfold register
  split
  · next quota hquota hproof =>
      rcases h.proof with hnone | htrue
      · rw [hnone] at hquota
        cases hquota
      · rw [htrue] at hproof
        cases hproof
  · rewrite [h.oidc]
    rfl

/-- What the tasks of a gateway share is as if one after another came to it. -/
structure Serialised (hash : Bytes → H) (d : Deployed K) (operators : Operators H)
    (usage : UsageRegistry) (acts : List (Act K)) : Prop where
  /-- The registry is what its calls make of it. -/
  registry : ((gateway hash d operators usage).run acts).shared.runs =
    (Runs.machine hash).run ((gateway hash d operators usage).run acts).calls
  /-- So is the key cache, but for a task that waits for the key set; there is at most one. -/
  cache : (∀ id task, ((gateway hash d operators usage).run acts).tasks.lookup id = some task →
      (Next.wait task.stage).fetching = false) →
    ((gateway hash d operators usage).run acts).cache =
      (Oidc.machine K).run ((gateway hash d operators usage).run acts).keyCalls
  fetching : ∀ id id' task task',
    ((gateway hash d operators usage).run acts).tasks.lookup id = some task →
    ((gateway hash d operators usage).run acts).tasks.lookup id' = some task' →
    (Next.wait task.stage).fetching = true → (Next.wait task'.stage).fetching = true → id = id'
  /-- The calls on the cache are one after the other in time. -/
  timed : Clock acts → Timed ((gateway hash d operators usage).run acts).keyCalls
  /-- Each permit is there, or held by a registration being verified. -/
  permits : ((gateway hash d operators usage).run acts).permits.available +
      ((gateway hash d operators usage).run acts).tasks.countVals
        (fun task => task.stage.verifying) = registrationConcurrency
  /-- One more is refused exactly if all are held. -/
  refused : ∀ before draw request cluster loaded verifier,
    before ++ [.request draw request cluster] <+: acts → Registers d request loaded verifier →
    ((((gateway hash d operators usage).run before).step hash d
        (.request draw request cluster)).2 =
          some (answer (reject 429 "too many registrations\n")) ↔
      ((gateway hash d operators usage).run before).tasks.countVals
        (fun task => task.stage.verifying) = registrationConcurrency)
  /-- Whatever came of the tasks, nothing is held once none is left. -/
  idle : (∀ id, ((gateway hash d operators usage).run acts).tasks.lookup id = none) →
    ((gateway hash d operators usage).run acts).permits = ⟨registrationConcurrency⟩ ∧
      ((gateway hash d operators usage).run acts).locked = none

/-- **One after another.** However the requests of a gateway interleave, and wherever they are
dropped, they come to the registry, the key cache and the permits one after another. -/
theorem serialised (hash : Bytes → H) (d : Deployed K) (operators : Operators H)
    (usage : UsageRegistry) (acts : List (Act K)) : Serialised hash d operators usage acts := by
  have hi := inStep_run hash d operators usage acts
  have hfetches : ∀ {g : Gateway H K} {id : Nat} {task : Task K}, g.tasks.lookup id = some task →
      (Next.wait task.stage).fetching = true → ∃ policy token kid start,
        g.tasks.lookup id = some ⟨task.request, task.cluster, .fetching policy token kid start⟩ := by
    intro g id task htask hfetching
    obtain ⟨request, cluster, stage⟩ := task
    cases stage with
    | fetching policy token kid start => exact ⟨policy, token, kid, start, htask⟩
    | _ => cases hfetching
  refine ⟨hi.registry, ?_, ?_, ?_, hi.permits, ?_, ?_⟩
  · intro hnone
    apply hi.unlocked
    rw [Option.eq_none_iff_forall_ne_some]
    intro id hlocked
    obtain ⟨_, _, _, _, _, _, htask, -⟩ := hi.locked id hlocked
    cases hnone id _ htask
  · intro id id' task task' htask htask' hfetching hfetching'
    obtain ⟨_, _, _, _, h⟩ := hfetches htask hfetching
    obtain ⟨_, _, _, _, h'⟩ := hfetches htask' hfetching'
    exact hi.fetching_unique h h'
  · intro hclock
    exact (inTime_run hash d operators usage hclock).timed
  · intro before draw request cluster loaded verifier hbefore hregisters
    have hpermits := (inStep_run hash d operators usage before).permits
    rw [← hpermits.tryAcquire_eq_none_iff]
    unfold Gateway.step
    dsimp only
    rw [Gateway.onRequest_of_registers hregisters, show ((gateway hash d operators usage).run
      before).arrive.permits = ((gateway hash d operators usage).run before).permits from rfl]
    cases htry : ((gateway hash d operators usage).run before).permits.tryAcquire with
    | none => simp [Gateway.settled]
    | some permits => simp [Gateway.settled]
  · intro hnone
    constructor
    · have hcount := hi.permits
      have hzero : Assoc.countVals (fun task : Task K => task.stage.verifying)
          ((gateway hash d operators usage).run acts).tasks = 0 := by
        apply Assoc.countVals_eq_zero
        intro id task htask
        rw [hnone] at htask
        cases htask
      have havailable := hcount.available_of_idle hzero
      cases hpermits : ((gateway hash d operators usage).run acts).permits with
      | mk available =>
          rw [hpermits] at havailable
          rw [show available = registrationConcurrency from havailable]
    · rw [Option.eq_none_iff_forall_ne_some]
      intro id hlocked
      obtain ⟨_, _, _, _, _, _, htask, -⟩ := hi.locked id hlocked
      rw [hnone] at htask
      cases htask

end CredentialBroker.Tasks
