import CredentialBroker.Tasks.Linear

/-!
# Every request comes to its answer

A registration may wait for the lock of the key cache and for the key set, and it holds a permit
meanwhile. `Stage.acts` is how many acts of its own a task is from its answer, and each brings it
nearer that does not find the lock taken; all others leave it where it is. So whatever else happens,
it is answered once it has had as many.
-/

namespace CredentialBroker.Tasks

open Oidc RunTokenFilter

variable {H K : Type} [DecidableEq H] {hash : Bytes → H} {d : Deployed K}

/-- How many acts of its own a task is from its answer once it has the lock or needs none. -/
def Stage.acts : Stage K → Nat
  | self _ _ | authenticated _ _ _ | returning _ | counting _ _ | answering _ => 1
  | registering _ => 2
  | decoding _ _ _ => 3
  | fetching _ _ _ _ => 4
  | locking _ _ _ => 5

/-- The act that moves a task on. -/
def Task.act (task : Task K) (id : Nat) (draw : Draw) (keys : Option (Assoc String K)) : Act K :=
  match task.stage with
  | .fetching _ _ _ _ => .fetched id keys draw
  | _ => .resume id draw

/-- The act moves a task on, and does not find the lock taken that the task needs. -/
def Gateway.moves (g : Gateway H K) (id : Nat) (act : Act K) : Bool :=
  match g.tasks.lookup id with
  | none => false
  | some task =>
    match act, task.stage with
    | .fetched other _ _, .fetching _ _ _ _ => decide (other = id)
    | .resume _ _, .fetching _ _ _ _ => false
    | .resume other _, .locking _ _ _ => decide (other = id) && g.locked.isNone
    | .resume other _, _ => decide (other = id)
    | _, _ => false

section Turns

variable {operators : Operators H} {usage : UsageRegistry}

variable (hash d operators usage) in
/-- How many of the acts that come after others move a task on. -/
def moved (id : Nat) : List (Act K) → List (Act K) → Nat
  | _, [] => 0
  | acts, act :: more =>
      (if ((gateway hash d operators usage).run acts).moves id act then 1 else 0) +
        moved id (acts ++ [act]) more

variable (hash d operators usage) in
/-- A task is answered by one of the acts that come after others. -/
def AnsweredIn (id : Nat) (acts more : List (Act K)) : Prop :=
  ∃ before act, before ++ [act] <+: more ∧
    act.about ((gateway hash d operators usage).run (acts ++ before)) = id ∧
    (((gateway hash d operators usage).run (acts ++ before)).step hash d act).2.isSome

theorem AnsweredIn.cons {id : Nat} {acts more : List (Act K)} {act : Act K}
    (h : AnsweredIn hash d operators usage id (acts ++ [act]) more) :
    AnsweredIn hash d operators usage id acts (act :: more) := by
  obtain ⟨before, last, hpre, habout, hanswers⟩ := h
  rw [List.append_assoc] at habout hanswers
  exact ⟨act :: before, last, List.cons_prefix_cons.mpr ⟨rfl, hpre⟩, habout, hanswers⟩

variable (hash d operators usage) in
/-- Each of the acts is of a task or of the one that has the lock of the key cache, and moves it on
with what `turn` has it draw. -/
def Moves (turn : List (Act K) → Draw × Option (Assoc String K)) (id : Nat)
    (acts more : List (Act K)) : Prop :=
  ∀ before act, before ++ [act] <+: more → ∃ other task,
    ((gateway hash d operators usage).run (acts ++ before)).tasks.lookup other = some task ∧
      (other = id ∨ ((gateway hash d operators usage).run (acts ++ before)).locked = some other) ∧
      act = task.act other (turn (acts ++ before)).1 (turn (acts ++ before)).2

variable {turn : List (Act K) → Draw × Option (Assoc String K)}

theorem Moves.cons {acts more : List (Act K)} {id other : Nat} {task : Task K}
    (htask : ((gateway hash d operators usage).run acts).tasks.lookup other = some task)
    (hother : other = id ∨ ((gateway hash d operators usage).run acts).locked = some other)
    (h : Moves hash d operators usage turn id
      (acts ++ [task.act other (turn acts).1 (turn acts).2]) more) :
    Moves hash d operators usage turn id acts
      (task.act other (turn acts).1 (turn acts).2 :: more) := by
  intro before act hpre
  cases before with
  | nil =>
      rw [List.nil_append] at hpre
      cases (List.cons_prefix_cons.mp hpre).1
      rw [List.append_nil]
      exact ⟨other, task, htask, hother, rfl⟩
  | cons first before =>
      obtain ⟨rfl, hrest⟩ := List.cons_prefix_cons.mp hpre
      obtain ⟨other', task', htask', hother', hact⟩ := h before act hrest
      rw [List.append_assoc] at htask' hother' hact
      exact ⟨other', task', htask', hother', hact⟩

variable (hash d operators usage turn) in
/-- A task can be answered by `n` acts, of its own and of the task that has the lock. -/
def AnswersWithin (acts : List (Act K)) (id n : Nat) : Prop :=
  ∃ more, more.length ≤ n ∧ Moves hash d operators usage turn id acts more ∧
    AnsweredIn hash d operators usage id acts more

theorem AnswersWithin.cons {acts : List (Act K)} {id other n : Nat} {task : Task K}
    (htask : ((gateway hash d operators usage).run acts).tasks.lookup other = some task)
    (hother : other = id ∨ ((gateway hash d operators usage).run acts).locked = some other)
    (h : AnswersWithin hash d operators usage turn
      (acts ++ [task.act other (turn acts).1 (turn acts).2]) id n) :
    AnswersWithin hash d operators usage turn acts id (n + 1) := by
  obtain ⟨more, hlength, hmoves, hanswered⟩ := h
  exact ⟨_ :: more, Nat.succ_le_succ hlength, hmoves.cons htask hother, hanswered.cons⟩

end Turns

end CredentialBroker.Tasks
