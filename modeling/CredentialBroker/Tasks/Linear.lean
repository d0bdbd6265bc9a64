import CredentialBroker.Tasks.Answers

/-!
# Requests that interleave, as if one at a time

Every answer of a run is that of one `RunTokenFilter.onRequest` from a state between the arrival of
the request and its answer, with the calls of other requests only where the request comes back to a
run that it has authenticated as. No request is answered twice.
-/

namespace CredentialBroker.Tasks

open Oidc RunTokenFilter

variable {H K : Type} [DecidableEq H] {hash : Bytes → H} {d : Deployed K}

/-! ## Every answer -/

/-- The request that an act is about. -/
def Act.about (g : Gateway H K) : Act K → Nat
  | request _ _ _ => g.shared.arrived
  | resume id _ | fetched id _ _ | cancel id _ | response id _ _ | body id _ _ _ | drop id _ => id

/-- A request that is not under way any more. -/
structure Gone (g : Gateway H K) (id : Nat) : Prop where
  arrived : id < g.shared.arrived
  ended : g.tasks.lookup id = none

theorem Gateway.reply_settled {g : Gateway H K} {id : Nat} {request : Request}
    {cluster : Option String} {next : Next K} {reply : Reply}
    (h : (g.settled id request cluster next).2 = some reply) : next = .reply reply := by
  cases next with
  | wait stage => cases h
  | reply reply' =>
      cases h
      rfl

theorem Gone.settled {g : Gateway H K} {id other : Nat} (h : Gone g id) (hother : other ≠ id)
    (request : Request) (cluster : Option String) (next : Next K) :
    Gone (g.settled other request cluster next).1 id := by
  constructor
  · rw [Gateway.arrived_settled]
    exact h.arrived
  · rw [Gateway.lookup_settled, if_neg hother.symm]
    exact h.ended

variable (hash d) in
/-- **Step.** A request that is not under way any more does not come back. -/
theorem Gone.step {g : Gateway H K} {id : Nat} (h : Gone g id) (act : Act K) :
    Gone (g.step hash d act).1 id := by
  have hne : ∀ {other : Nat} {task : Task K}, g.tasks.lookup other = some task → other ≠ id := by
    rintro other task htask rfl
    rw [h.ended] at htask
    cases htask
  cases act with
  | request draw request cluster =>
      have hsection := g.arrive.section_onRequest hash d 0 draw request cluster
      have hgone : Gone (g.arrive.onRequest hash d draw request cluster).1 id := by
        constructor
        · rw [hsection.arrived]
          exact Nat.lt_succ_of_lt h.arrived
        · rw [hsection.tasks]
          exact h.ended
      exact hgone.settled (Nat.ne_of_gt h.arrived) request cluster _
  | resume other draw =>
      unfold Gateway.step
      dsimp only
      split
      · exact h
      · next task htask =>
          refine Gone.settled ?_ (hne htask) task.request task.cluster _
          cases hwaits : (Next.wait task.stage).fetching with
          | false =>
              have hsection := g.section_advance hash d other draw task hwaits
              constructor
              · rw [hsection.arrived]
                exact h.arrived
              · rw [hsection.tasks]
                exact h.ended
          | true =>
              rw [g.advance_of_fetching other draw hwaits]
              exact h
  | fetched other keys draw =>
      unfold Gateway.step Gateway.fetched
      dsimp only
      split
      · exact h
      · next task htask =>
          split
          · refine ⟨h.arrived, ?_⟩
            rw [Assoc.lookup_insert_eq, if_neg (hne htask).symm]
            exact h.ended
          · exact h
  | cancel other draw =>
      have herase : (g.tasks.erase other).lookup id = none := by
        rw [Assoc.lookup_erase_eq]
        split
        · rfl
        · exact h.ended
      unfold Gateway.step Gateway.cancelled
      dsimp only
      split
      · exact h
      · split
        · exact ⟨h.arrived, herase⟩
        · exact ⟨h.arrived, herase⟩
        · exact h
  | response other head draw =>
      have harrived := (g.runs_onResponse other head draw.unix).2
      exact ⟨harrived.symm ▸ h.arrived, h.ended⟩
  | body other endOfStream metadata draw =>
      have harrived := (g.runs_onResponseBody hash other endOfStream metadata draw).2
      exact ⟨harrived.symm ▸ h.arrived, h.ended⟩
  | drop other draw =>
      have harrived := (g.runs_onDrop hash other draw).2
      exact ⟨harrived.symm ▸ h.arrived, h.ended⟩

variable (hash d) in
/-- **Run.** It never does. -/
theorem Gone.run {operators : Operators H} {usage : UsageRegistry} {acts more : List (Act K)}
    {id : Nat} (h : Gone ((gateway hash d operators usage).run acts) id) (hpre : acts <+: more) :
    Gone ((gateway hash d operators usage).run more) id := by
  obtain ⟨rest, rfl⟩ := hpre
  induction rest using List.reverseRecOn with
  | nil => rwa [List.append_nil]
  | append_singleton rest act ih =>
      rw [← List.append_assoc, Mealy.run_concat]
      exact Gone.step hash d ih act

/-- An act that answers is the arrival of a request, or moves a task that then is gone. -/
theorem Gone.of_reply {g : Gateway H K} (hi : InStep hash g) {act : Act K} {reply : Reply}
    (hreply : (g.step hash d act).2 = some reply) :
    ¬ Gone g (act.about g) ∧ Gone (g.step hash d act).1 (act.about g) := by
  cases act with
  | request draw request cluster =>
      have hsection := g.arrive.section_onRequest hash d 0 draw request cluster
      have hnext : (g.arrive.onRequest hash d draw request cluster).2 = .reply reply :=
        Gateway.reply_settled hreply
      constructor
      · intro hgone
        exact Nat.lt_irrefl _ hgone.arrived
      · constructor
        · show g.shared.arrived < ((g.arrive.onRequest hash d draw request cluster).1.settled
            g.shared.arrived request cluster
              (g.arrive.onRequest hash d draw request cluster).2).1.shared.arrived
          rw [Gateway.arrived_settled, hsection.arrived]
          exact Nat.lt_succ_self _
        · show ((g.arrive.onRequest hash d draw request cluster).1.settled g.shared.arrived request
            cluster (g.arrive.onRequest hash d draw request cluster).2).1.tasks.lookup
              g.shared.arrived = none
          rw [Gateway.lookup_settled, if_pos rfl, hnext]
          rfl
  | resume id draw =>
      unfold Gateway.step at hreply ⊢
      dsimp only at hreply ⊢
      split at hreply
      · cases hreply
      · next task htask =>
          have hnext := Gateway.reply_settled hreply
          rw [show (Act.resume id draw).about g = id from rfl]
          constructor
          · intro hgone
            rw [hgone.ended] at htask
            cases htask
          · constructor
            · rw [Gateway.arrived_settled]
              cases hwaits : (Next.wait task.stage).fetching with
              | false =>
                  rw [(g.section_advance hash d id draw task hwaits).arrived]
                  exact hi.numbered id task htask
              | true =>
                  rw [g.advance_of_fetching id draw hwaits]
                  exact hi.numbered id task htask
            · rw [Gateway.lookup_settled, if_pos rfl, hnext]
              rfl
  | fetched id keys draw =>
      unfold Gateway.step at hreply
      dsimp only at hreply
      split at hreply <;> cases hreply
  | cancel id draw =>
      unfold Gateway.step at hreply
      dsimp only at hreply
      split at hreply <;> cases hreply
  | response id head draw => cases hreply
  | body id endOfStream metadata draw => cases hreply
  | drop id draw => cases hreply

/-- An act that answers answers the request it is about. -/
theorem answered_of_reply {operators : Operators H} {usage : UsageRegistry} {acts : List (Act K)}
    {act : Act K} {reply : Reply}
    (hreply : (((gateway hash d operators usage).run acts).step hash d act).2 = some reply) :
    ∃ arrival draw request cluster, arrival ++ [.request draw request cluster] <+: acts ++ [act] ∧
      ((gateway hash d operators usage).run arrival).shared.arrived =
        act.about ((gateway hash d operators usage).run acts) ∧
      Answered hash d operators usage (acts ++ [act]) arrival draw request cluster reply := by
  cases act with
  | request draw request cluster =>
      refine ⟨acts, draw, request, cluster, List.prefix_refl _, rfl, ?_⟩
      have hknown := nextKnown_onRequest hash d operators usage acts draw request cluster
      have hnext : (((gateway hash d operators usage).run acts).arrive.onRequest hash d draw request
          cluster).2 = .reply reply := Gateway.reply_settled hreply
      rw [hnext] at hknown
      exact hknown
  | resume id later =>
      have hrun : (gateway hash d operators usage).run (acts ++ [.resume id later]) =
          (((gateway hash d operators usage).run acts).step hash d (.resume id later)).1 :=
        Mealy.run_concat _ _ _
      unfold Gateway.step at hreply hrun
      dsimp only at hreply hrun
      split at hreply
      · cases hreply
      · next task htask =>
          rw [htask] at hrun
          obtain ⟨arrival, draw, harrival, hid, hstage⟩ := known_run hash d operators usage acts id
            task htask
          have hknown := nextKnown_advance later harrival hstage hrun
          rw [Gateway.reply_settled hreply] at hknown
          exact ⟨arrival, draw, task.request, task.cluster,
            harrival.trans (List.prefix_append _ _), hid, hknown⟩
  | fetched id keys draw =>
      unfold Gateway.step at hreply
      dsimp only at hreply
      split at hreply <;> cases hreply
  | cancel id draw =>
      unfold Gateway.step at hreply
      dsimp only at hreply
      split at hreply <;> cases hreply
  | response id head draw => cases hreply
  | body id endOfStream metadata draw => cases hreply
  | drop id draw => cases hreply

end CredentialBroker.Tasks
