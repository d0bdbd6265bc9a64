import CredentialBroker.Basic
import CredentialBroker.Util.Mealy

/-!
# Trust in signing keys

`GithubOidc::key` looks a signing key up in a cache of GitHub's key set and refetches the set when
it has to. The cache is behind a mutex that a call holds to its end, so calls are serialised, and a
call reads the clock twice at most: when it has the lock, and again when a fetch it waited for is
over. Two timestamps and three thresholds decide what happens:

* `fetched`, when the keys held came: within `jwksTtl` a key held is returned at once, and past
  `jwksMaxStale` none is;
* `attempted`, when a fetch was last begun: another begins after `jwksMinRefetch` at the earliest.

The cache is a summary of the history: `Mirrors` says it holds the latest key set fetched and the
time of the latest attempt. What is promised of `key` is about that history.
-/

namespace CredentialBroker

inductive OidcError where
  | unavailable
  | workflowNotAllowed
  | malformed
  | invalid
  deriving DecidableEq, Repr

namespace Oidc

def jwksTtl : Duration := Duration.fromSecs 3600

/-- When refetching fails, cached keys stay trusted this long, and no longer. -/
def jwksMaxStale : Duration := Duration.fromSecs (24 * 3600)

/-- Unknown key ids refetch the key set, but no more often than this. -/
def jwksMinRefetch : Duration := Duration.fromSecs 60

variable {K : Type}

/-- The key set as it was last fetched. -/
structure KeyCache (K : Type) where
  keys : Assoc String K
  fetched : Option Instant
  attempted : Option Instant

/-- A cache nothing was fetched for. -/
def KeyCache.empty : KeyCache K := ⟨∅, none, none⟩

/-- How a fetch ends. -/
inductive Fetch (K : Type) where
  | keys (set : Assoc String K)
  | failed
  /-- The caller went away while it waited. -/
  | cancelled

/-- A call for a key: when it has the lock, how a fetch it makes would end, and when it lets the
lock go, which is later only for a fetch. -/
structure KeyCall (K : Type) where
  kid : String
  start : Instant
  fetch : Fetch K
  finish : Instant

/-- The key a call returns without a look at the network: one held, from a recent fetch. -/
def KeyCache.freshKey (cache : KeyCache K) (kid : String) (now : Instant) : Option K :=
  if cache.fetched.any (fun t => decide (now - t < jwksTtl)) then cache.keys.lookup kid else none

/-- Another fetch may be made. -/
def KeyCache.due (cache : KeyCache K) (now : Instant) : Bool :=
  cache.attempted.all (fun t => decide (jwksMinRefetch ≤ now - t))

/-- What a call answers from the keys held. -/
def KeyCache.answer (cache : KeyCache K) (kid : String) (now : Instant) : Except OidcError K :=
  if cache.fetched.all (fun t => decide (jwksMaxStale ≤ now - t)) then .error .unavailable
  else match cache.keys.lookup kid with
    | some key => .ok key
    | none => .error .invalid

/-- `GithubOidc::key`. A call whose caller went away answers nothing. -/
def key (cache : KeyCache K) (call : KeyCall K) : KeyCache K × Option (Except OidcError K) :=
  match cache.freshKey call.kid call.start with
  | some key => (cache, some (.ok key))
  | none =>
    if cache.due call.start then
      let cache := { cache with attempted := some call.start }
      match call.fetch with
      | .keys set =>
        let cache := { cache with keys := set, fetched := some call.finish }
        (cache, some (cache.answer call.kid call.finish))
      | .failed => (cache, some (cache.answer call.kid call.finish))
      | .cancelled => (cache, none)
    else (cache, some (cache.answer call.kid call.start))

/-- The cache of a process, from its start. -/
def machine (K : Type) : Mealy (KeyCache K) (KeyCall K) (Option (Except OidcError K)) :=
  ⟨.empty, key⟩

/-! ## The history of fetches -/

/-- A fetch that was made: begun, over, and how it ended. -/
structure Attempt (K : Type) where
  time : Instant
  ended : Instant
  outcome : Fetch K

/-- The key set an attempt brought, and when. -/
def Attempt.fetched (attempt : Attempt K) : Option (Instant × Assoc String K) :=
  match attempt.outcome with
  | .keys set => some (attempt.ended, set)
  | _ => none

/-- The fetch a call makes in a state, if it makes one. -/
def attemptOf (cache : KeyCache K) (call : KeyCall K) : Option (Attempt K) :=
  if (cache.freshKey call.kid call.start).isNone ∧ cache.due call.start = true then
    some ⟨call.start, call.finish, call.fetch⟩
  else none

/-- When a call answers: at once, or when its fetch is over. -/
def answeredAt (cache : KeyCache K) (call : KeyCall K) : Instant :=
  if (attemptOf cache call).isSome then call.finish else call.start

/-- The fetches of a history, in order. -/
def attempts (tr : List (KeyCache K × KeyCall K)) : List (Attempt K) :=
  tr.filterMap (fun e => attemptOf e.1 e.2)

/-- The key sets fetched in a history, in order. -/
def fetches (tr : List (KeyCache K × KeyCall K)) : List (Instant × Assoc String K) :=
  (attempts tr).filterMap Attempt.fetched

def lastAttempt (tr : List (KeyCache K × KeyCall K)) : Option (Attempt K) :=
  (attempts tr).getLast?

def lastFetch (tr : List (KeyCache K × KeyCall K)) : Option (Instant × Assoc String K) :=
  (fetches tr).getLast?

theorem attempts_concat (tr : List (KeyCache K × KeyCall K)) (e : KeyCache K × KeyCall K) :
    attempts (tr ++ [e]) = attempts tr ++ (attemptOf e.1 e.2).toList := by
  unfold attempts
  cases h : attemptOf e.1 e.2 <;> simp [h]

theorem fetches_concat (tr : List (KeyCache K × KeyCall K)) (e : KeyCache K × KeyCall K) :
    fetches (tr ++ [e]) = fetches tr ++ ((attemptOf e.1 e.2).bind Attempt.fetched).toList := by
  unfold fetches
  rw [attempts_concat]
  cases attemptOf e.1 e.2 with
  | none => simp
  | some a => cases h : a.fetched <;> simp [h]

/-- A fetch is the latest one once it is made; otherwise the one before stays. -/
theorem lastAttempt_concat (tr : List (KeyCache K × KeyCall K)) (e : KeyCache K × KeyCall K) :
    lastAttempt (tr ++ [e]) = (attemptOf e.1 e.2).or (lastAttempt tr) := by
  unfold lastAttempt
  rw [attempts_concat]
  cases attemptOf e.1 e.2 <;> simp

theorem lastFetch_concat (tr : List (KeyCache K × KeyCall K)) (e : KeyCache K × KeyCall K) :
    lastFetch (tr ++ [e]) = ((attemptOf e.1 e.2).bind Attempt.fetched).or (lastFetch tr) := by
  unfold lastFetch
  rw [fetches_concat]
  cases (attemptOf e.1 e.2).bind Attempt.fetched <;> simp

/-! ## The cache mirrors its history -/

/-- The cache holds the latest key set fetched, and when the latest fetch was begun. -/
structure Mirrors (tr : List (KeyCache K × KeyCall K)) (cache : KeyCache K) : Prop where
  fetched : cache.fetched = (lastFetch tr).map Prod.fst
  keys : ∀ f set, lastFetch tr = some (f, set) → cache.keys = set
  attempted : cache.attempted = (lastAttempt tr).map Attempt.time

/-- **Everything a call can do**, with its answer. -/
inductive KeyStep (cache : KeyCache K) (call : KeyCall K) : Prop where
  /-- A key held and fresh. -/
  | hit (found : K) (hfresh : cache.freshKey call.kid call.start = some found)
      (hattempt : attemptOf cache call = none) (hkey : key cache call = (cache, some (.ok found)))
  /-- Not fresh or not held, and too soon to fetch again. -/
  | held (hfresh : cache.freshKey call.kid call.start = none)
      (hsoon : cache.due call.start = false) (hattempt : attemptOf cache call = none)
      (hkey : key cache call = (cache, some (cache.answer call.kid call.start)))
  /-- A fetch that brings a key set. -/
  | fetched (set : Assoc String K) (hfresh : cache.freshKey call.kid call.start = none)
      (hdue : cache.due call.start = true)
      (hattempt : attemptOf cache call = some ⟨call.start, call.finish, .keys set⟩)
      (hkey : key cache call = (⟨set, some call.finish, some call.start⟩,
        some (KeyCache.answer ⟨set, some call.finish, some call.start⟩ call.kid call.finish)))
  /-- A fetch that brings none, and perhaps no answer either. -/
  | failed (outcome : Fetch K) (answer : Option (Except OidcError K))
      (hfresh : cache.freshKey call.kid call.start = none) (hdue : cache.due call.start = true)
      (hattempt : attemptOf cache call = some ⟨call.start, call.finish, outcome⟩)
      (houtcome : Attempt.fetched ⟨call.start, call.finish, outcome⟩ = none)
      (hanswer : ∀ result, answer = some result → result = cache.answer call.kid call.finish)
      (hkey : key cache call = (⟨cache.keys, cache.fetched, some call.start⟩, answer))

theorem keyStep (cache : KeyCache K) (call : KeyCall K) : KeyStep cache call := by
  cases hfresh : cache.freshKey call.kid call.start with
  | some found =>
      refine .hit found hfresh ?_ ?_
      · simp [attemptOf, hfresh]
      · simp [key, hfresh]
  | none =>
      cases hdue : cache.due call.start with
      | false =>
          refine .held hfresh hdue ?_ ?_
          · simp [attemptOf, hdue]
          · simp [key, hfresh, hdue]
      | true =>
          have hattempt : attemptOf cache call =
              some ⟨call.start, call.finish, call.fetch⟩ := by
            simp [attemptOf, hfresh, hdue]
          cases hfetch : call.fetch with
          | keys set =>
              refine .fetched set hfresh hdue (hfetch ▸ hattempt) ?_
              simp [key, hfresh, hdue, hfetch]
          | failed =>
              refine .failed .failed (some (cache.answer call.kid call.finish)) hfresh hdue
                (hfetch ▸ hattempt) rfl ?_ ?_
              · rintro _ ⟨⟩
                rfl
              · simp [key, hfresh, hdue, hfetch, KeyCache.answer]
          | cancelled =>
              refine .failed .cancelled none hfresh hdue (hfetch ▸ hattempt) rfl ?_ ?_
              · rintro _ ⟨⟩
              · simp [key, hfresh, hdue, hfetch]

/-- **Step.** A call keeps the cache a mirror of its history. -/
theorem Mirrors.step {tr : List (KeyCache K × KeyCall K)} {cache : KeyCache K}
    (hm : Mirrors tr cache) (call : KeyCall K) :
    Mirrors (tr ++ [(cache, call)]) ((machine K).next cache call) := by
  show Mirrors _ (key cache call).1
  cases keyStep cache call with
  | hit found hfresh hattempt hkey =>
      rw [hkey]
      refine ⟨?_, ?_, ?_⟩
      · rw [lastFetch_concat, hattempt]; exact hm.fetched
      · rw [lastFetch_concat, hattempt]; exact hm.keys
      · rw [lastAttempt_concat, hattempt]; exact hm.attempted
  | held hfresh hsoon hattempt hkey =>
      rw [hkey]
      refine ⟨?_, ?_, ?_⟩
      · rw [lastFetch_concat, hattempt]; exact hm.fetched
      · rw [lastFetch_concat, hattempt]; exact hm.keys
      · rw [lastAttempt_concat, hattempt]; exact hm.attempted
  | fetched set hfresh hdue hattempt hkey =>
      rw [hkey]
      refine ⟨?_, ?_, ?_⟩
      · rw [lastFetch_concat, hattempt]; rfl
      · rw [lastFetch_concat, hattempt]
        rintro f set' ⟨⟩
        rfl
      · rw [lastAttempt_concat, hattempt]; rfl
  | failed outcome answer hfresh hdue hattempt houtcome hanswer hkey =>
      rw [hkey]
      refine ⟨?_, ?_, ?_⟩
      · rw [lastFetch_concat, hattempt, Option.bind_some, houtcome]; exact hm.fetched
      · rw [lastFetch_concat, hattempt, Option.bind_some, houtcome]; exact hm.keys
      · rw [lastAttempt_concat, hattempt]; rfl

/-- **Run.** After every list of calls the cache mirrors its history. -/
theorem mirrors_run (calls : List (KeyCall K)) :
    Mirrors ((machine K).trace calls) ((machine K).run calls) := by
  refine Mealy.invariant (G := fun _ _ => True) (P := Mirrors) ?_ ?_ calls
    (Mealy.along_true calls)
  · exact ⟨rfl, by rintro f set ⟨⟩, rfl⟩
  · intro is call hm _
    exact hm.step call

/-! ## Answers, read off the history -/

private theorem lt_add_of_sub_lt {a b c : Nat} (h : a - b < c) : a < b + c := by omega

private theorem add_le_of_le_sub {a b c : Nat} (hc : 0 < c) (h : c ≤ a - b) : b + c ≤ a := by omega

private theorem le_sub_of_add_le {a b c : Nat} (h : b + c ≤ a) : c ≤ a - b := by omega

theorem answer_eq_ok {cache : KeyCache K} {kid : String} {now : Instant} {found : K} :
    cache.answer kid now = .ok found ↔
      (∃ f, cache.fetched = some f ∧ now < f + jwksMaxStale) ∧
        cache.keys.lookup kid = some found := by
  unfold KeyCache.answer
  cases hf : cache.fetched with
  | none => simp
  | some f =>
      by_cases hstale : jwksMaxStale ≤ now - f
      · have hle := add_le_of_le_sub (by decide) hstale
        simp [hstale, Nat.not_lt.mpr hle]
      · have hlt := lt_add_of_sub_lt (Nat.not_le.mp hstale)
        simp only [Option.all_some, hstale, decide_false, Bool.false_eq_true, if_false,
          Option.some.injEq, exists_eq_left', hlt, true_and]
        cases cache.keys.lookup kid <;> simp

theorem answer_eq_unavailable {cache : KeyCache K} {kid : String} {now : Instant} :
    cache.answer kid now = .error .unavailable ↔
      ∀ f, cache.fetched = some f → f + jwksMaxStale ≤ now := by
  unfold KeyCache.answer
  cases hf : cache.fetched with
  | none => simp
  | some f =>
      by_cases hstale : jwksMaxStale ≤ now - f
      · have hle := add_le_of_le_sub (by decide) hstale
        simp [hstale, hle]
      · have hle : ¬ f + jwksMaxStale ≤ now := fun hle => hstale (le_sub_of_add_le hle)
        simp only [Option.all_some, hstale, decide_false, Bool.false_eq_true, if_false,
          Option.some.injEq, forall_eq', hle, iff_false]
        cases cache.keys.lookup kid <;> simp

theorem freshKey_eq_some {cache : KeyCache K} {kid : String} {now : Instant} {found : K} :
    cache.freshKey kid now = some found ↔
      (∃ f, cache.fetched = some f ∧ now < f + jwksTtl) ∧ cache.keys.lookup kid = some found := by
  unfold KeyCache.freshKey
  cases hf : cache.fetched with
  | none => simp
  | some f =>
      by_cases hfresh : now - f < jwksTtl
      · simp [hfresh, lt_add_of_sub_lt hfresh]
      · have hle := add_le_of_le_sub (by decide) (Nat.not_lt.mp hfresh)
        simp [hfresh, Nat.not_lt.mpr hle]

/-- Every answer is the one the cache gives once the call is over: a fresh key would be found
there too. -/
theorem answer_eq {cache : KeyCache K} {call : KeyCall K} {result : Except OidcError K}
    (h : (key cache call).2 = some result) :
    result = ((machine K).next cache call).answer call.kid (answeredAt cache call) := by
  show result = (key cache call).1.answer call.kid _
  unfold answeredAt
  cases keyStep cache call with
  | hit found hfresh hattempt hkey =>
      rw [hkey] at h ⊢
      cases h
      obtain ⟨⟨f, hf, hlt⟩, hlookup⟩ := freshKey_eq_some.mp hfresh
      have hmax : jwksTtl ≤ jwksMaxStale := by decide
      rw [hattempt]
      exact (answer_eq_ok.mpr
        ⟨⟨f, hf, hlt.trans_le (Nat.add_le_add_left hmax f)⟩, hlookup⟩).symm
  | held hfresh hsoon hattempt hkey =>
      rw [hkey] at h ⊢
      cases h
      rw [hattempt]
      rfl
  | fetched set hfresh hdue hattempt hkey =>
      rw [hkey] at h ⊢
      cases h
      rw [hattempt]
      rfl
  | failed outcome answer hfresh hdue hattempt houtcome hanswer hkey =>
      rw [hkey] at h ⊢
      rw [hanswer result h, hattempt]
      rfl

/-! ## Times -/

/-- Calls are serialised: none has the lock before the one before it let it go. -/
structure Timed (calls : List (KeyCall K)) : Prop where
  forward : ∀ call ∈ calls, call.start ≤ call.finish
  serial : calls.Pairwise (fun c c' => c.finish ≤ c'.start)

theorem attemptOf_eq_some {cache : KeyCache K} {call : KeyCall K} {a : Attempt K}
    (h : attemptOf cache call = some a) :
    cache.due call.start = true ∧ a = ⟨call.start, call.finish, call.fetch⟩ := by
  unfold attemptOf at h
  split at h
  · next hc =>
      cases h
      exact ⟨hc.2, rfl⟩
  · cases h

/-- What a fetch brings it has when it is over. -/
theorem Attempt.ended_of_fetched {a : Attempt K} {x : Instant × Assoc String K}
    (h : a.fetched = some x) : x.1 = a.ended := by
  unfold Attempt.fetched at h
  split at h
  · cases h
    rfl
  · cases h

theorem mem_attempts {calls : List (KeyCall K)} {a : Attempt K}
    (h : a ∈ attempts ((machine K).trace calls)) :
    ∃ call ∈ calls, a = ⟨call.start, call.finish, call.fetch⟩ := by
  obtain ⟨e, he, heq⟩ := List.mem_filterMap.mp h
  exact ⟨e.2, (machine K).mem_of_mem_trace he, (attemptOf_eq_some heq).2⟩

theorem mem_fetches {calls : List (KeyCall K)} {f : Instant} {set : Assoc String K}
    (h : (f, set) ∈ fetches ((machine K).trace calls)) : ∃ call ∈ calls, call.finish = f := by
  obtain ⟨a, ha, heq⟩ := List.mem_filterMap.mp h
  obtain ⟨call, hcall, rfl⟩ := mem_attempts ha
  exact ⟨call, hcall, (Attempt.ended_of_fetched heq).symm⟩

theorem mem_of_lastFetch {tr : List (KeyCache K × KeyCall K)} {x : Instant × Assoc String K}
    (h : lastFetch tr = some x) : x ∈ fetches tr :=
  List.mem_of_getLast? h

/-- An attempt that brought a key set is the latest fetch for as long as it is the latest
attempt. -/
theorem lastFetch_of_lastAttempt {tr : List (KeyCache K × KeyCall K)} {a : Attempt K}
    {x : Instant × Assoc String K} (h : lastAttempt tr = some a) (hx : a.fetched = some x) :
    lastFetch tr = some x := by
  obtain ⟨before, hbefore⟩ := List.getLast?_eq_some_iff.mp h
  unfold lastFetch fetches
  rw [hbefore]
  simp [hx]

/-- Nothing was fetched after the last fetch. -/
theorem Timed.fetch_le {calls : List (KeyCall K)} (h : Timed calls) {f : Instant}
    {set : Assoc String K} (hlast : lastFetch ((machine K).trace calls) = some (f, set))
    {x : Instant × Assoc String K} (hx : x ∈ fetches ((machine K).trace calls)) : x.1 ≤ f := by
  have hcalls : calls.Pairwise (fun c c' => c.finish ≤ c'.finish) := by
    apply h.serial.imp_of_mem
    intro c c' _ hc' hle
    exact hle.trans (h.forward c' hc')
  have htrace : ((machine K).trace calls).Pairwise (fun e e' => e.2.finish ≤ e'.2.finish) := by
    rw [← (machine K).map_snd_trace calls, List.pairwise_map] at hcalls
    exact hcalls
  have hfetches : (fetches ((machine K).trace calls)).Pairwise (fun x y => x.1 ≤ y.1) := by
    unfold fetches attempts
    rw [List.filterMap_filterMap, List.pairwise_filterMap]
    apply htrace.imp
    intro e e' hle x hx y hy
    have hfst : ∀ {e : KeyCache K × KeyCall K} {x : Instant × Assoc String K},
        (attemptOf e.1 e.2).bind Attempt.fetched = some x → x.1 = e.2.finish := by
      intro e x hx
      obtain ⟨a, ha, hax⟩ := Option.bind_eq_some_iff.mp hx
      obtain ⟨-, rfl⟩ := attemptOf_eq_some ha
      exact Attempt.ended_of_fetched hax
    rw [hfst hx, hfst hy]
    exact hle
  obtain ⟨before, hbefore⟩ := List.getLast?_eq_some_iff.mp hlast
  rw [hbefore] at hx hfetches
  rcases List.mem_append.mp hx with hx | hx
  · exact (List.pairwise_append.mp hfetches).2.2 x hx _ (List.mem_singleton.mpr rfl)
  · rw [List.mem_singleton.mp hx]

theorem Timed.of_isPrefix {calls calls' : List (KeyCall K)} (h : Timed calls)
    (hpre : calls' <+: calls) : Timed calls' where
  forward call hcall := h.forward call (hpre.subset hcall)
  serial := h.serial.sublist hpre.sublist

/-- What was fetched before a call was fetched before it has the lock. -/
theorem Timed.fetch_le_start {pre : List (KeyCall K)} {call : KeyCall K}
    (h : Timed (pre ++ [call])) {x : Instant × Assoc String K}
    (hx : x ∈ fetches ((machine K).trace pre)) : x.1 ≤ call.start := by
  obtain ⟨c, hc, hfinish⟩ : ∃ c ∈ pre, c.finish = x.1 := mem_fetches hx
  have := (List.pairwise_append.mp h.serial).2.2 c hc call (List.mem_singleton.mpr rfl)
  rwa [hfinish] at this

/-! ## Fetches are apart -/

/-- **Step.** Fetches of a history stay apart: one more begins only if it is due. -/
theorem attempts_apart_step {tr : List (KeyCache K × KeyCall K)} {cache : KeyCache K}
    (hm : Mirrors tr cache)
    (h : (attempts tr).Pairwise (fun a a' => a.time + jwksMinRefetch ≤ a'.time))
    (call : KeyCall K) :
    (attempts (tr ++ [(cache, call)])).Pairwise
      (fun a a' => a.time + jwksMinRefetch ≤ a'.time) := by
  rw [attempts_concat]
  cases hattempt : attemptOf cache call with
  | none => simpa [hattempt] using h
  | some a =>
      obtain ⟨hdue, rfl⟩ := attemptOf_eq_some hattempt
      rw [Option.toList_some, List.pairwise_append]
      refine ⟨h, List.pairwise_singleton _ _, ?_⟩
      intro a ha _ hnew
      obtain rfl := List.mem_singleton.mp hnew
      -- every fetch before is at or before the last one, which is long enough ago
      obtain ⟨last, hlast⟩ := Option.isSome_iff_exists.mp
        (List.getLast?_isSome.mpr (List.ne_nil_of_mem ha))
      unfold KeyCache.due at hdue
      rw [hm.attempted, lastAttempt, hlast, Option.map_some, Option.all_some,
        decide_eq_true_eq] at hdue
      have hafter := add_le_of_le_sub (by decide) hdue
      obtain ⟨before, hbefore⟩ := List.getLast?_eq_some_iff.mp hlast
      rw [hbefore] at ha h
      rcases List.mem_append.mp ha with ha | ha
      · have hle := (List.pairwise_append.mp h).2.2 a ha last (List.mem_singleton.mpr rfl)
        exact hle.trans ((Nat.le_add_right _ _).trans hafter)
      · rw [List.mem_singleton.mp ha]
        exact hafter

/-- **Run.** No two fetches are begun within `jwksMinRefetch` of each other. -/
theorem attempts_apart (calls : List (KeyCall K)) :
    (attempts ((machine K).trace calls)).Pairwise
      (fun a a' => a.time + jwksMinRefetch ≤ a'.time) := by
  refine Mealy.invariant (m := machine K) (G := fun _ _ => True)
    (P := fun tr _ => (attempts tr).Pairwise (fun a a' => a.time + jwksMinRefetch ≤ a'.time))
    ?_ ?_ calls (Mealy.along_true calls)
  · exact List.Pairwise.nil
  · intro is call h _
    exact attempts_apart_step (mirrors_run is) h call

/-! ## The bounds on trust -/

/-- What the cache owes every list of calls. -/
structure BoundedTrust (calls : List (KeyCall K)) : Prop where
  /-- Two fetches are a minute apart at least. -/
  apart : (attempts ((machine K).trace calls)).Pairwise
    (fun a a' => a.time + jwksMinRefetch ≤ a'.time)
  /-- A key returned is in the latest key set fetched, less than a day ago. -/
  returned : ∀ pre call found, pre ++ [call] <+: calls →
    (key ((machine K).run pre) call).2 = some (.ok found) →
      ∃ f set, lastFetch ((machine K).trace (pre ++ [call])) = some (f, set) ∧
        set.lookup call.kid = some found ∧ f ≤ answeredAt ((machine K).run pre) call ∧
        answeredAt ((machine K).run pre) call < f + jwksMaxStale
  /-- So a key missing from a key set is not returned until a later one has it again. -/
  withdrawn : ∀ pre call before f set later, pre ++ [call] <+: calls →
    fetches ((machine K).trace (pre ++ [call])) = before ++ (f, set) :: later →
    set.lookup call.kid = none → (∀ x ∈ later, x.2.lookup call.kid = none) →
      ∀ found, (key ((machine K).run pre) call).2 ≠ some (.ok found)
  /-- A key is returned past an hour only after a fetch that failed, a minute ago at most. -/
  stale : ∀ pre call found f set, pre ++ [call] <+: calls →
    (key ((machine K).run pre) call).2 = some (.ok found) →
    lastFetch ((machine K).trace (pre ++ [call])) = some (f, set) →
    f + jwksTtl ≤ answeredAt ((machine K).run pre) call →
      ∃ a, lastAttempt ((machine K).trace (pre ++ [call])) = some a ∧ f < a.time ∧
        (answeredAt ((machine K).run pre) call < a.time + jwksMinRefetch ∨
          attemptOf ((machine K).run pre) call = some a) ∧ a.fetched = none
  /-- A call is refused for want of keys exactly if none came within the last day. -/
  unavailable : ∀ pre call result, pre ++ [call] <+: calls →
    (key ((machine K).run pre) call).2 = some result →
      (result = .error .unavailable ↔
        ∀ x ∈ fetches ((machine K).trace (pre ++ [call])),
          x.1 + jwksMaxStale ≤ answeredAt ((machine K).run pre) call)
  /-- A key that came less than an hour ago is returned without a fetch. -/
  cached : ∀ pre call f set found, pre ++ [call] <+: calls →
    lastFetch ((machine K).trace pre) = some (f, set) → set.lookup call.kid = some found →
    call.start < f + jwksTtl → attemptOf ((machine K).run pre) call = none

/-- The latest attempt brought nothing if it began after the latest fetch was over. -/
private theorem Timed.fetched_none {calls : List (KeyCall K)} (h : Timed calls) {a : Attempt K}
    (ha : lastAttempt ((machine K).trace calls) = some a) {f : Instant} {set : Assoc String K}
    (hlast : lastFetch ((machine K).trace calls) = some (f, set)) (hafter : f < a.time) :
    a.fetched = none := by
  rw [Option.eq_none_iff_forall_ne_some]
  intro x hx
  rw [lastFetch_of_lastAttempt ha hx, Option.some.injEq] at hlast
  have hended := Attempt.ended_of_fetched hx
  obtain ⟨c, hc, rfl⟩ := mem_attempts (List.mem_of_getLast? ha)
  have hforward : c.start ≤ f := by
    rw [hlast] at hended
    exact (h.forward c hc).trans_eq hended.symm
  exact absurd hafter (Nat.not_lt.mpr hforward)

/-- A key that is held and yet not fresh is of a set an hour old. -/
private theorem ttl_le_of_freshKey_eq_none {cache : KeyCache K} {kid : String} {now f : Instant}
    {found : K} (hfresh : cache.freshKey kid now = none) (hfetched : cache.fetched = some f)
    (hlookup : cache.keys.lookup kid = some found) : f + jwksTtl ≤ now := by
  by_contra hlt
  rw [freshKey_eq_some.mpr ⟨⟨f, hfetched, Nat.not_le.mp hlt⟩, hlookup⟩] at hfresh
  cases hfresh

/-- A key returned late was asked for again in vain. -/
private theorem stale_of_ok {pre : List (KeyCall K)} {call : KeyCall K} {found : K} {f : Instant}
    {set : Assoc String K} (ht : Timed (pre ++ [call]))
    (hok : (key ((machine K).run pre) call).2 = some (.ok found))
    (hlast : lastFetch ((machine K).trace (pre ++ [call])) = some (f, set))
    (hlate : f + jwksTtl ≤ answeredAt ((machine K).run pre) call) :
    ∃ a, lastAttempt ((machine K).trace (pre ++ [call])) = some a ∧ f < a.time ∧
      (answeredAt ((machine K).run pre) call < a.time + jwksMinRefetch ∨
        attemptOf ((machine K).run pre) call = some a) ∧ a.fetched = none := by
  have hm := mirrors_run pre
  rw [Mealy.trace_concat, lastFetch_concat] at hlast
  rw [Mealy.trace_concat, lastAttempt_concat]
  unfold answeredAt at hlate ⊢
  cases keyStep ((machine K).run pre) call with
  | hit found' hfresh hattempt hkey =>
      rw [hattempt] at hlast hlate
      obtain ⟨⟨f', hf', hlt⟩, -⟩ := freshKey_eq_some.mp hfresh
      rw [hm.fetched, show lastFetch _ = some (f, set) from hlast, Option.map_some,
        Option.some.injEq] at hf'
      subst hf'
      exact absurd hlate (Nat.not_le.mpr hlt)
  | held hfresh hsoon hattempt hkey =>
      rw [hattempt] at hlast hlate ⊢
      have hlast' : lastFetch ((machine K).trace pre) = some (f, set) := hlast
      -- not due, so there was an attempt, less than a minute ago
      unfold KeyCache.due at hsoon
      rw [hm.attempted] at hsoon
      cases ha : lastAttempt ((machine K).trace pre) with
      | none => simp [ha] at hsoon
      | some a =>
          rw [ha, Option.map_some, Option.all_some, decide_eq_false_iff_not, Nat.not_le] at hsoon
          have hrecent := lt_add_of_sub_lt hsoon
          have hmin : jwksMinRefetch ≤ jwksTtl := by decide
          have hafter : f < a.time := by
            have hle : f + jwksMinRefetch ≤ call.start :=
              (Nat.add_le_add_left hmin f).trans hlate
            exact Nat.lt_of_add_lt_add_right (hle.trans_lt hrecent)
          have hpre := ht.of_isPrefix (List.prefix_append _ _)
          exact ⟨a, rfl, hafter, Or.inl hrecent, hpre.fetched_none ha hlast' hafter⟩
  | fetched set' hfresh hdue hattempt hkey =>
      rw [hattempt] at hlast hlate
      cases hlast
      have hpos : 0 < jwksTtl := by decide
      exact absurd hlate (Nat.not_le.mpr (Nat.lt_add_of_pos_right hpos))
  | failed outcome answer hfresh hdue hattempt houtcome hanswer hkey =>
      rw [hattempt, Option.bind_some, houtcome] at hlast
      have hlast' : lastFetch ((machine K).trace pre) = some (f, set) := hlast
      rw [hattempt]
      refine ⟨_, rfl, ?_, Or.inr rfl, houtcome⟩
      -- the key was held all along, so the call fetched because the set was an hour old
      rw [hkey] at hok
      obtain ⟨⟨f', hf', -⟩, hlookup⟩ := answer_eq_ok.mp (hanswer _ hok).symm
      have hfetched : ((machine K).run pre).fetched = some f := by
        rw [hm.fetched, hlast']
        rfl
      have hold : f + jwksTtl ≤ call.start := ttl_le_of_freshKey_eq_none hfresh hfetched hlookup
      have hpos : 0 < jwksTtl := by decide
      exact (Nat.lt_add_of_pos_right hpos).trans_le hold

/-- The state after a call mirrors the history with it. -/
private theorem mirrors_next (pre : List (KeyCall K)) (call : KeyCall K) :
    Mirrors ((machine K).trace (pre ++ [call])) ((machine K).next ((machine K).run pre) call) := by
  rw [← Mealy.run_concat]
  exact mirrors_run (pre ++ [call])

/-- What a call fetches it has when it answers, and so it has what was fetched before. -/
private theorem Timed.fetch_le_answered {pre : List (KeyCall K)} {call : KeyCall K}
    (h : Timed (pre ++ [call])) {x : Instant × Assoc String K}
    (hx : x ∈ fetches ((machine K).trace (pre ++ [call]))) :
    x.1 ≤ answeredAt ((machine K).run pre) call := by
  rw [Mealy.trace_concat, fetches_concat] at hx
  have hforward := h.forward call (List.mem_append_right _ (List.mem_singleton.mpr rfl))
  unfold answeredAt
  rcases List.mem_append.mp hx with hx | hx
  · -- a fetch of an earlier call
    have hle := h.fetch_le_start hx
    split
    · exact hle.trans hforward
    · exact hle
  · -- the call's own fetch, over when it answers
    obtain ⟨a, ha, hfetched⟩ := Option.bind_eq_some_iff.mp (Option.mem_toList.mp hx)
    rw [show attemptOf ((machine K).run pre) call = some a from ha, Option.isSome_some, if_pos rfl]
    obtain ⟨-, rfl⟩ := attemptOf_eq_some ha
    exact (Attempt.ended_of_fetched hfetched).le

/-- A key that is returned is of the last set fetched, which is not too old. -/
private theorem returned_of_ok {pre : List (KeyCall K)} {call : KeyCall K} {found : K}
    (h : Timed (pre ++ [call])) (hok : (key ((machine K).run pre) call).2 = some (.ok found)) :
    ∃ f set, lastFetch ((machine K).trace (pre ++ [call])) = some (f, set) ∧
      set.lookup call.kid = some found ∧ f ≤ answeredAt ((machine K).run pre) call ∧
      answeredAt ((machine K).run pre) call < f + jwksMaxStale := by
  obtain ⟨⟨f, hf, hlt⟩, hlookup⟩ := answer_eq_ok.mp (answer_eq hok).symm
  rw [(mirrors_next pre call).fetched] at hf
  obtain ⟨⟨f', set⟩, hlast, rfl⟩ := Option.map_eq_some_iff.mp hf
  rw [(mirrors_next pre call).keys _ _ hlast] at hlookup
  exact ⟨f', set, hlast, hlookup, h.fetch_le_answered (mem_of_lastFetch hlast), hlt⟩

/-- **Trust in signing keys is bounded.** -/
theorem bounded_trust (calls : List (KeyCall K)) (h : Timed calls) : BoundedTrust calls := by
  refine ⟨attempts_apart calls, ?_, ?_, ?_, ?_, ?_⟩
  · intro pre call found hpre hok
    exact returned_of_ok (h.of_isPrefix hpre) hok
  · intro pre call before f set later hpre hfetches hnone hlater found hok
    obtain ⟨f', set', hlast, hlookup, -⟩ := returned_of_ok (h.of_isPrefix hpre) hok
    -- the last fetch is one of those since the key was withdrawn
    have hmem : (f', set') ∈ (f, set) :: later := by
      unfold lastFetch at hlast
      rw [hfetches, List.getLast?_append_of_ne_nil _ (List.cons_ne_nil _ _)] at hlast
      exact List.mem_of_getLast? hlast
    have hgone : set'.lookup call.kid = none := by
      rcases List.mem_cons.mp hmem with heq | hmem
      · cases heq
        exact hnone
      · exact hlater _ hmem
    rw [hgone] at hlookup
    cases hlookup
  · intro pre call found f set hpre hok hlast hlate
    exact stale_of_ok (h.of_isPrefix hpre) hok hlast hlate
  · intro pre call result hpre hresult
    have ht := h.of_isPrefix hpre
    rw [answer_eq hresult, answer_eq_unavailable, (mirrors_next pre call).fetched]
    constructor
    · intro hall x hx
      obtain ⟨⟨f, set⟩, hlast⟩ := Option.isSome_iff_exists.mp
        (List.getLast?_isSome.mpr (List.ne_nil_of_mem hx))
      have hstale := hall f (Option.map_eq_some_iff.mpr ⟨(f, set), hlast, rfl⟩)
      exact (Nat.add_le_add_right (ht.fetch_le hlast hx) _).trans hstale
    · intro hall f hf
      obtain ⟨x, hlast, rfl⟩ := Option.map_eq_some_iff.mp hf
      exact hall x (mem_of_lastFetch hlast)
  · intro pre call f set found hpre hlast hlookup hfresh
    have hm := mirrors_run pre
    have hfetched : ((machine K).run pre).fetched = some f := by
      rw [hm.fetched, hlast]
      rfl
    have hfound := freshKey_eq_some.mpr
      ⟨⟨f, hfetched, hfresh⟩, (hm.keys f set hlast).symm ▸ hlookup⟩
    unfold attemptOf
    rw [hfound]
    simp

/-- GitHub's key set fetched once, a refetch two hours later that fails, and one more call. -/
def staleCalls : List (KeyCall Nat) :=
  [⟨"kid", 0, .keys (AList.singleton "kid" 7), 1⟩,
    ⟨"kid", Duration.fromSecs 7200, .failed, Duration.fromSecs 7201⟩,
    ⟨"kid", Duration.fromSecs 7230, .failed, Duration.fromSecs 7230⟩]

/-- The key is still returned half a minute after the refetch failed, and by no new fetch. -/
theorem bounded_trust_stale : Timed staleCalls ∧ BoundedTrust staleCalls ∧
    ((machine Nat).trace staleCalls).map (fun e => (key e.1 e.2).2.map Except.toOption) =
      [some (some 7), some (some 7), some (some 7)] ∧
    (attempts ((machine Nat).trace staleCalls)).map Attempt.time =
      [0, Duration.fromSecs 7200] := by
  have ht : Timed staleCalls := by
    constructor
    · decide
    · decide
  exact ⟨ht, bounded_trust staleCalls ht, by decide +kernel, by decide +kernel⟩

end Oidc

end CredentialBroker
