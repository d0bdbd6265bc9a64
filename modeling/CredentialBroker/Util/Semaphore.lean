import CredentialBroker.Util.Assoc

/-!
# Counting semaphores

A semaphore starts with as many permits as there may be holders. `tryAcquire` takes one, or refuses
if none is left, and dropping a permit puts it back.

Tasks come and go in any order, so what is promised is about all of them together: `Accounts` says
that each permit is either available or held by one of the tasks that hold one. There is a lemma for
each way the tasks change, and what follows from the account is at the end.
-/

/-- A semaphore, by the permits that are left. -/
structure Semaphore where
  available : Nat
  deriving DecidableEq, Repr

namespace Semaphore

def tryAcquire (s : Semaphore) : Option Semaphore :=
  match s.available with
  | 0 => none
  | rest + 1 => some ⟨rest⟩

/-- A permit is dropped. -/
def release (s : Semaphore) : Semaphore := ⟨s.available + 1⟩

theorem tryAcquire_eq_some {s s' : Semaphore} (h : s.tryAcquire = some s') :
    s.available = s'.available + 1 := by
  unfold tryAcquire at h
  split at h
  · cases h
  · next rest hrest =>
      cases h
      exact hrest

theorem tryAcquire_eq_none {s : Semaphore} : s.tryAcquire = none ↔ s.available = 0 := by
  unfold tryAcquire
  split
  · next h => simp [h]
  · next rest h => simp [h]

variable {K V : Type*}

/-- Of `size` permits those that are not available are held, each by one of the tasks. -/
def Accounts (size : Nat) (holds : V → Bool) (s : Semaphore) (tasks : Assoc K V) : Prop :=
  s.available + tasks.countVals holds = size

section Tasks

variable {size : Nat} {holds : V → Bool} {s s' : Semaphore}

theorem accounts_empty (size : Nat) (holds : V → Bool) :
    Accounts size holds ⟨size⟩ (∅ : Assoc K V) := rfl

variable [DecidableEq K] {tasks : Assoc K V} {k : K} {v : V}

/-- Whatever becomes of a task that goes on, if the permits left say so. -/
theorem Accounts.insert (h : Accounts size holds s tasks) (k : K) (v : V)
    (hs : s'.available + (if holds v then 1 else 0) =
      s.available + if (tasks.lookup k).any holds then 1 else 0) :
    Accounts size holds s' (tasks.insert k v) := by
  have hwith := Assoc.countVals_eq_erase_add holds tasks k
  have hnew := Assoc.countVals_insert_eq holds tasks k v
  unfold Accounts at h ⊢
  omega

/-- Whatever a task held that is over, if the permits left say so. -/
theorem Accounts.erase (h : Accounts size holds s tasks) (k : K)
    (hs : s'.available = s.available + if (tasks.lookup k).any holds then 1 else 0) :
    Accounts size holds s' (tasks.erase k) := by
  have hwith := Assoc.countVals_eq_erase_add holds tasks k
  unfold Accounts at h ⊢
  omega

/-- A new task holds the permit it took. -/
theorem Accounts.acquire (h : Accounts size holds s tasks) (hs : s.tryAcquire = some s')
    (hnew : tasks.lookup k = none) (hv : holds v = true) :
    Accounts size holds s' (tasks.insert k v) := by
  apply h.insert
  have havailable := tryAcquire_eq_some hs
  rw [hnew, hv]
  show s'.available + 1 = s.available + 0
  omega

/-- A task goes on holding its permit, or holding none. -/
theorem Accounts.keep (h : Accounts size holds s tasks) (hv : tasks.lookup k = some v) {w : V}
    (hw : holds w = holds v) : Accounts size holds s (tasks.insert k w) := by
  apply h.insert
  rw [hv, Option.any_some, hw]

/-- A task that held a permit is over, and the permit is dropped with it. -/
theorem Accounts.drop (h : Accounts size holds s tasks) (hv : tasks.lookup k = some v)
    (hholds : holds v = true) : Accounts size holds s.release (tasks.erase k) := by
  apply h.erase
  rw [hv, Option.any_some, hholds]
  rfl

end Tasks

/-! ## What follows from the account -/

variable {size : Nat} {holds : V → Bool} {s : Semaphore} {tasks : Assoc K V}

/-- A permit is refused exactly when all are held. -/
theorem Accounts.tryAcquire_eq_none_iff (h : Accounts size holds s tasks) :
    s.tryAcquire = none ↔ tasks.countVals holds = size := by
  rw [tryAcquire_eq_none]
  unfold Accounts at h
  omega

/-- Once nothing is held, every permit is there again. -/
theorem Accounts.available_of_idle (h : Accounts size holds s tasks)
    (hidle : tasks.countVals holds = 0) : s.available = size := by
  unfold Accounts at h
  omega

end Semaphore
