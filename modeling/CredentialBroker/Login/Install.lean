import CredentialBroker.Proxy.UsageTap
import CredentialBroker.Util.Files
import CredentialBroker.Util.Mealy

/-!
# Installing a login

A device login leaves its `auth.json` in a staging directory of its own, and `install_auth` puts it
in the place of the one there is, which it copies to `auth.json.backup` before. `Phase` is where
`install_auth` is, with the locals it still reads, and each step makes one call to the file system.

`Home` is `CODEX_HOME` with the install under way. Its lock lets no more than one be. An `Act` is
the next step of the install going through or failing, or the process stopping where it is, so a
list of acts is any sequence of installs, each cut short or failing anywhere. What fails or stops
leaves its files behind for the next.
-/

namespace CredentialBroker.Login

open Proxy (Value)

/-! ## Paths -/

/-- A path under `CODEX_HOME`. -/
abbrev Path := List String

def authPath : Path := ["auth.json"]

def backupPath : Path := ["auth.json.backup"]

/-- The temporary file `atomic_write` makes for the backup. -/
def tmpPath (pid stamp : Nat) : Path :=
  ["." ++ "auth.json.backup" ++ ".tmp-" ++ pid.repr ++ "-" ++ stamp.repr]

/-- What a login leaves in its staging directory. -/
def stagedPath (staging : String) : Path := [staging, "auth.json"]

/-! ## Validation -/

/-- An error of the file system's, or one of `install_auth`'s own. -/
inductive IoError where
  | os
  | invalidData (message : String)
  | other (message : String)
  deriving DecidableEq, Repr

/-- `serde_json::Value::as_object`. -/
def asObject : Value → Option (List (String × Value))
  | .object fields => some fields
  | _ => none

/-- `serde_json::Value::as_str`. -/
def asStr : Value → Option String
  | .string s => some s
  | _ => none

variable (fromSlice : Bytes → Option Value)

/-- `validate_auth_json`. -/
def validateAuthJson (data : Bytes) : Except IoError Unit :=
  match fromSlice data with
  | none => .error (.invalidData "auth.json is not complete JSON")
  | some value =>
    match (value.pointer ["tokens"]).bind asObject with
    | none => .error (.invalidData "auth.json has no token object")
    | some tokens =>
        ["access_token", "refresh_token"].forM fun name =>
          if ((tokens.lookup name).bind asStr).all String.isEmpty then
            .error (.invalidData "auth.json has incomplete tokens")
          else .ok ()

/-! ## The steps -/

/-- The next step of `install_auth`. -/
inductive Phase where
  /-- `symlink_metadata(&auth)`. -/
  | checkActive
  | readActive
  | readStaged (old : Option Bytes)
  /-- `symlink_metadata(staged)`. -/
  | checkStaged (old : Option Bytes) (new : Bytes)
  | chmodStaged (old : Option Bytes) (new : Bytes)
  /-- `atomic_write` creates its temporary file. -/
  | createBackup (old new : Bytes)
  /-- `write_all`, with what is still to be written. -/
  | writeBackup (tmp : Path) (old rest new : Bytes)
  | fsyncBackup (tmp : Path) (old new : Bytes)
  | renameBackup (tmp : Path) (old new : Bytes)
  /-- `atomic_write` failed. -/
  | removeTmp (tmp : Path) (error : IoError)
  /-- `sync_parent` after the backup. -/
  | syncBackup (old new : Bytes)
  | renameStaged (old : Option Bytes) (new : Bytes)
  /-- `sync_parent` after the replacement. -/
  | syncActive
  deriving DecidableEq

/-- What a step comes to. -/
inductive Next where
  | go (files : Files Path) (phase : Phase)
  | done (files : Files Path) (result : Except IoError Unit)

/-- A regular file of the user's. -/
def isOwnFile (uid : Nat) : Files.Entry Path → Bool
  | .file _ owner _ => owner = uid
  | .symlink _ | .directory => false

/-- A regular file of the user's that nobody else may use. -/
def isPrivateFile (uid : Nat) : Files.Entry Path → Bool
  | .file _ owner mode => owner = uid && mode &&& 0o077 = 0
  | .symlink _ | .directory => false

/-- The error of `sync_parent`. -/
def uncertain (what : String) : IoError :=
  .other ("auth installation completed " ++ what ++
    ", but parent-directory durability is uncertain; active auth may already be the new valid " ++
    "file and auth.json.backup remains available")

/-- What a step draws from outside: the process and the time, and how many bytes a write takes. -/
structure Draw where
  pid : Nat
  stamp : Nat
  count : Nat

/-- A step that goes through, as far as the entries that are there let it. -/
def proceed (uid : Nat) (files : Files Path) (staged : Path) (draw : Draw) : Phase → Next
  | .checkActive =>
    match files.lookup authPath with
    | none => .go files (.readStaged none)
    | some entry =>
      if isPrivateFile uid entry then .go files .readActive
      else .done files (.error (.invalidData "existing auth.json is unsafe"))
  | .readActive =>
    match files.read authPath with
    | some old => .go files (.readStaged (some old))
    | none => .done files (.error .os)
  | .readStaged old =>
    match files.read staged with
    | some new =>
      match validateAuthJson fromSlice new with
      | .ok () => .go files (.checkStaged old new)
      | .error error => .done files (.error error)
    | none => .done files (.error .os)
  | .checkStaged old new =>
    match files.lookup staged with
    | some entry =>
      if isOwnFile uid entry then .go files (.chmodStaged old new)
      else .done files (.error (.invalidData "staged auth.json is unsafe"))
    | none => .done files (.error .os)
  | .chmodStaged old new =>
    match files.chmod staged 0o600 with
    | some files =>
      match old with
      | some old => .go files (.createBackup old new)
      | none => .go files (.renameStaged none new)
    | none => .done files (.error .os)
  | .createBackup old new =>
    let tmp := tmpPath draw.pid draw.stamp
    match files.createNew tmp uid 0o600 with
    | some files => .go files (.writeBackup tmp old old new)
    | none => .done files (.error .os)
  | .writeBackup tmp old rest new =>
    if rest.isEmpty then .go files (.fsyncBackup tmp old new)
    else
      .go (files.write tmp (rest.take draw.count)) (.writeBackup tmp old (rest.drop draw.count) new)
  | .fsyncBackup tmp old new => .go files (.renameBackup tmp old new)
  | .renameBackup tmp old new =>
    match files.rename tmp backupPath with
    | some files => .go files (.syncBackup old new)
    | none => .go files (.removeTmp tmp .os)
  | .removeTmp tmp error => .done ((files.remove tmp).getD files) (.error error)
  | .syncBackup old new => .go files (.renameStaged (some old) new)
  | .renameStaged _ _ =>
    match files.rename staged authPath with
    | some files => .go files .syncActive
    | none => .done files (.error .os)
  | .syncActive => .done files (.ok ())

/-- A step that fails. -/
def failed (files : Files Path) : Phase → Next
  | .writeBackup tmp _ _ _ | .fsyncBackup tmp _ _ | .renameBackup tmp _ _ =>
      .go files (.removeTmp tmp .os)
  | .removeTmp _ error => .done files (.error error)
  | .syncBackup _ _ => .done files (.error (uncertain "backup"))
  | .syncActive => .done files (.error (uncertain "auth replacement"))
  | _ => .done files (.error .os)

/-! ## Sequences of installs -/

/-- An install under way. -/
structure Install where
  staged : Path
  phase : Phase
  deriving DecidableEq

structure Home where
  files : Files Path
  install : Option Install := none

inductive Act where
  /-- What is at the staged path changes while no install is under way: a login writes it, or its
  staging directory is removed. -/
  | stage (staging : String) (entry : Option (Files.Entry Path))
  /-- `install_auth` is called. -/
  | start (staging : String)
  | proceed (draw : Draw)
  | fail
  /-- The process stops. -/
  | stop

/-- The home after a step, and what `install_auth` returns if that was its last. -/
def Home.after (home : Home) (install : Install) : Next → Home × Option (Except IoError Unit)
  | .go files phase =>
      ({ home with files := files, install := some { install with phase := phase } }, none)
  | .done files result => ({ home with files := files, install := none }, some result)

def Home.step (uid : Nat) (home : Home) : Act → Home × Option (Except IoError Unit)
  | .stage staging entry =>
    match home.install, entry with
    | some _, _ => (home, none)
    | none, some entry =>
        ({ home with files := home.files.insert (stagedPath staging) entry }, none)
    | none, none => ({ home with files := home.files.erase (stagedPath staging) }, none)
  | .start staging =>
    match home.install with
    | some _ => (home, none)
    | none => ({ home with install := some ⟨stagedPath staging, .checkActive⟩ }, none)
  | .proceed draw =>
    match home.install with
    | some install =>
        home.after install (proceed fromSlice uid home.files install.staged draw install.phase)
    | none => (home, none)
  | .fail =>
    match home.install with
    | some install => home.after install (failed home.files install.phase)
    | none => (home, none)
  | .stop => ({ home with install := none }, none)

/-- A `CODEX_HOME`, from when no install is under way. -/
def installs (uid : Nat) (files : Files Path) : Mealy Home Act (Option (Except IoError Unit)) :=
  ⟨{ files := files }, Home.step fromSlice uid⟩

end CredentialBroker.Login
