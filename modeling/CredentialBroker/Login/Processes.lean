import CredentialBroker.Login.AllOrNothing

/-!
# Logins and providers of one home

Any number of processes may use one `CODEX_HOME`: the provider, which serves its login, and device
logins, which install another. Each takes the lock of the home first and keeps it until it ends, and
clears away what an earlier login left staged. `CodexHome` is the home with all its processes, of
which an act moves one by one call to the file system; a call may fail, and a process be killed,
anywhere.

`installs` has one install under way at a time and nobody else at the files. That is what the lock
is for, and `Sole` says that it does it: at most one process is past it; the others do not touch a
file, but for making the lock itself; and from the moment a login makes its staging directory until
it ends, the files are those of a run of `installs`.
-/

namespace CredentialBroker.Login

open Proxy (Value)

/-! ## Processes -/

/-- What `symlink_metadata` says of `CODEX_HOME` itself, which nothing here changes. -/
structure DirMeta where
  isDir : Bool
  uid : Nat
  mode : Nat

/-- Errors of the steps around an install; what fails outside is `io`. -/
inductive HomeError where
  | io (error : IoError)
  | permissionDenied (message : String)
  | wouldBlock (message : String)
  deriving DecidableEq, Repr

inductive Program where
  | serve
  | login
  deriving DecidableEq, Repr

/-- The next step of a process. -/
inductive Stage where
  /-- `login` checks the home before `lock_home` does. -/
  | secureDir
  | secureHome
  /-- `symlink_metadata(&lock)`. -/
  | checkLock
  | openLock
  /-- `f.metadata()`. -/
  | statLock
  | tryLock
  /-- `cleanup_staging` reads the directory. -/
  | listStaging
  | checkStaging (todo : List String)
  /-- `remove_dir_all` of one it found. -/
  | removeStale (name : String) (todo : List String)
  /-- `validate_home`. -/
  | secureAgain
  /-- `symlink_metadata` of `auth.json`. -/
  | checkAuth
  | readAuth
  | serving
  | createStaging
  | chmodStaging (name : String)
  | deviceLogin (name : String)
  | readLogin (name : String)
  | syncLogin (name : String)
  | install (name : String) (phase : Phase)
  /-- `remove_dir_all` of its own, and then it returns. -/
  | removeStaging (name : String) (result : Except HomeError Unit)

namespace Stage

/-- It has opened the lock. -/
def opened : Stage → Bool
  | secureDir | secureHome | checkLock | openLock => false
  | _ => true

/-- It is past the lock. -/
def held : Stage → Bool
  | secureDir | secureHome | checkLock | openLock | statLock | tryLock => false
  | _ => true

/-- The staging directory of a login, once it is made. -/
def staging : Stage → Option String
  | chmodStaging name | deviceLogin name | readLogin name | syncLogin name | install name _
  | removeStaging name _ => some name
  | _ => none

/-- What it still is to clear away. -/
def stale : Stage → List String
  | checkStaging todo => todo
  | removeStale name todo => name :: todo
  | _ => []

/-- It has seen what there is to clear away. -/
def swept : Stage → Bool
  | listStaging => false
  | stage => stage.held

/-- The install under way. -/
def installing : Stage → Option Install
  | install name phase => some ⟨stagedPath name, phase⟩
  | _ => none

end Stage

structure Process where
  program : Program
  stage : Stage

/-- Where a process begins. -/
def Program.first : Program → Stage
  | serve => .secureHome
  | login => .secureDir

/-- What it does once the home is valid. -/
def Program.validated : Program → Stage
  | serve => .serving
  | login => .createStaging

/-- `CODEX_HOME` and the processes that use it. -/
structure CodexHome where
  /-- What is in it, but for its directories. -/
  files : Files Path
  /-- Its directories, with their owners. -/
  dirs : Assoc String Nat
  /-- The process that holds the lock. -/
  locked : Option Nat := none
  processes : Assoc Nat Process := ∅

/-- What a step comes to. -/
inductive After where
  | go (home : CodexHome) (stage : Stage)
  | ended (home : CodexHome) (result : Except HomeError Unit)

/-- What a step draws from outside; a directory is listed in any order. -/
structure Turn where
  draw : Draw
  order : List String

def lockPath : Path := [".broker.lock"]

/-- What `cleanup_staging` takes for a staging directory. -/
def isStaging (name : String) : Bool := ".auth-staging-".toList.isPrefixOf name.toList

def stagingName (stamp : Nat) : String := ".auth-staging-" ++ stamp.repr

/-- The most bytes of `auth.json` that are read. -/
def maxAuthBytes : Nat := 16 * 1024 * 1024

variable (fromSlice : Bytes → Option Value) (uid : Nat) (dir : DirMeta)

/-- `secure_dir`. -/
def secureDir : Bool :=
  dir.isDir && (dir.uid = uid || dir.uid = 0) && dir.mode &&& 0o002 = 0

/-- What `validate_home` asks of `auth.json` before it reads it. -/
def isSafeAuth (entry : Files.Entry Path) : Bool :=
  isPrivateFile uid entry && match entry with
    | .file data _ _ => data.length ≤ maxAuthBytes
    | .symlink _ | .directory => false

namespace CodexHome

/-- What is in the home by a name that `cleanup_staging` looks for. -/
def staged (home : CodexHome) : List String :=
  (home.dirs.keys ++ home.files.keys.filterMap fun path =>
    match path with
    | [name] => some name
    | _ => none).filter isStaging

/-- A file that is beneath a directory. -/
def beneath (home : CodexHome) (name : String) : Option Path :=
  home.files.keys.find? fun path => path.head? = some name

end CodexHome

/-- `secure_dir` lets a process go on. -/
def secured (home : CodexHome) (stage : Stage) : After :=
  if secureDir uid dir then .go home stage
  else .ended home (.error (.permissionDenied "path is not a private owned directory"))

/-- A step that goes through, as far as what is there lets it. -/
def Stage.proceed (pid : Nat) (program : Program) (turn : Turn) (home : CodexHome) : Stage → After
  | .secureDir => secured uid dir home .secureHome
  | .secureHome => secured uid dir home .checkLock
  | .checkLock =>
    match home.files.lookup lockPath with
    | none => .go home .openLock
    | some entry =>
      if isOwnFile uid entry then .go home .openLock
      else .ended home (.error (.permissionDenied "auth lock path is unsafe"))
  | .openLock =>
    match home.files.lookup lockPath with
    | none =>
        .go { home with files := home.files.insert lockPath (.file [] uid 0o600) } .statLock
    | some (.file _ _ _) => .go home .statLock
    -- a link is not followed, and a directory not written to
    | some _ => .ended home (.error (.io .os))
  | .statLock =>
    if (home.files.lookup lockPath).any (isPrivateFile uid) then .go home .tryLock
    else .ended home (.error (.permissionDenied
      "CODEX_HOME lock must be a private file owned by the current user"))
  | .tryLock =>
    match home.locked with
    | none => .go { home with locked := some pid } .listStaging
    | some _ => .ended home (.error (.wouldBlock "CODEX_HOME is already locked"))
  | .listStaging =>
    if turn.order.Perm home.staged then .go home (.checkStaging turn.order)
    else .go home .listStaging
  | .checkStaging [] => .go home .secureAgain
  | .checkStaging (name :: todo) =>
    if home.dirs.lookup name = some uid then .go home (.removeStale name todo)
    else .ended home (.error (.io (.invalidData "staging entry is unsafe")))
  | .removeStale name todo =>
    match home.beneath name with
    | some path => .go { home with files := home.files.erase path } (.removeStale name todo)
    | none => .go { home with dirs := home.dirs.erase name } (.checkStaging todo)
  | .secureAgain => secured uid dir home .checkAuth
  | .checkAuth =>
    match home.files.lookup authPath with
    | none => .go home program.validated
    | some entry =>
      if isSafeAuth uid entry then .go home .readAuth
      else .ended home (.error (.io (.invalidData "auth.json is unsafe")))
  | .readAuth =>
    match home.files.read authPath with
    | none => .ended home (.error (.io .os))
    | some data =>
      match validateAuthJson fromSlice data with
      | .ok () => .go home program.validated
      | .error error => .ended home (.error (.io error))
  | .serving => .go home .serving
  | .createStaging =>
    let name := stagingName turn.draw.stamp
    if (home.dirs.lookup name).isSome || (home.beneath name).isSome then
      .ended home (.error (.io .os))
    else .go { home with dirs := home.dirs.insert name uid } (.chmodStaging name)
  | .chmodStaging name => .go home (.deviceLogin name)
  | .deviceLogin name => .go home (.readLogin name)
  | .readLogin name =>
    match home.files.read (stagedPath name) with
    | none => .go home (.removeStaging name (.error (.io .os)))
    | some data =>
      match validateAuthJson fromSlice data with
      | .ok () => .go home (.syncLogin name)
      | .error error => .go home (.removeStaging name (.error (.io error)))
  | .syncLogin name => .go home (.install name .checkActive)
  | .install name phase =>
    match Login.proceed fromSlice uid home.files (stagedPath name) turn.draw phase with
    | .go files phase => .go { home with files := files } (.install name phase)
    | .done files result =>
        .go { home with files := files } (.removeStaging name (result.mapError .io))
  | .removeStaging name result =>
    match home.beneath name with
    | some path => .go { home with files := home.files.erase path } (.removeStaging name result)
    | none => .ended { home with dirs := home.dirs.erase name } result

/-- A step that fails. What `symlink_metadata` fails on is taken for absent. -/
def Stage.failed (program : Program) (home : CodexHome) : Stage → After
  | .checkLock => .go home .openLock
  | .checkAuth => .go home program.validated
  | .deviceLogin name | .readLogin name | .syncLogin name =>
      .go home (.removeStaging name (.error (.io .os)))
  | .install name phase =>
    match Login.failed home.files phase with
    | .go files phase => .go { home with files := files } (.install name phase)
    | .done files result =>
        .go { home with files := files } (.removeStaging name (result.mapError .io))
  | .removeStaging _ result => .ended home result
  | .tryLock => .ended home (.error (.wouldBlock "CODEX_HOME is already locked"))
  | _ => .ended home (.error (.io .os))

/-! ## Interleavings -/

inductive HomeAct where
  | spawn (pid : Nat) (program : Program)
  | proceed (pid : Nat) (turn : Turn)
  | fail (pid : Nat)
  | kill (pid : Nat)
  /-- The device login of a process writes what it stages. -/
  | stage (pid : Nat) (entry : Files.Entry Path)
  /-- The provider's login manager keeps what it refreshed. -/
  | refresh (pid : Nat) (entry : Files.Entry Path)

/-- Whose act it is. -/
def HomeAct.pid : HomeAct → Nat
  | spawn pid _ | proceed pid _ | fail pid | kill pid | stage pid _ | refresh pid _ => pid

namespace CodexHome

/-- A process ends, and the lock with it if it has it. -/
def forget (home : CodexHome) (pid : Nat) : CodexHome :=
  { home with
    processes := home.processes.erase pid
    locked := if home.locked = some pid then none else home.locked }

/-- A process after its step. -/
def after (pid : Nat) (program : Program) : After → CodexHome × Option (Except HomeError Unit)
  | .go home stage =>
      ({ home with processes := home.processes.insert pid ⟨program, stage⟩ }, none)
  | .ended home result => (home.forget pid, some result)

/-- One act, and what a process returns if that was its last. -/
def step (home : CodexHome) : HomeAct → CodexHome × Option (Except HomeError Unit)
  | .spawn pid program =>
    match home.processes.lookup pid with
    | some _ => (home, none)
    | none =>
        ({ home with processes := home.processes.insert pid ⟨program, program.first⟩ }, none)
  | .proceed pid turn =>
    match home.processes.lookup pid with
    | some ⟨program, stage⟩ =>
        after pid program (stage.proceed fromSlice uid dir pid program turn home)
    | none => (home, none)
  | .fail pid =>
    match home.processes.lookup pid with
    | some ⟨program, stage⟩ => after pid program (stage.failed program home)
    | none => (home, none)
  | .kill pid => (home.forget pid, none)
  | .stage pid entry =>
    match home.processes.lookup pid with
    | some ⟨_, .deviceLogin name⟩ =>
        ({ home with files := home.files.insert (stagedPath name) entry }, none)
    | _ => (home, none)
  | .refresh pid entry =>
    match home.processes.lookup pid with
    | some ⟨_, .serving⟩ => ({ home with files := home.files.insert authPath entry }, none)
    | _ => (home, none)

end CodexHome

/-- A home, from when no process uses it. -/
def processes (files : Files Path) (dirs : Assoc String Nat) :
    Mealy CodexHome HomeAct (Option (Except HomeError Unit)) :=
  ⟨{ files := files, dirs := dirs }, CodexHome.step fromSlice uid dir⟩

end CredentialBroker.Login
