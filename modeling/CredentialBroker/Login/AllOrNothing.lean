import CredentialBroker.Login.Install

/-!
# An installation is all or nothing

Whatever installs there are, and wherever they fail or stop, `auth.json` is what it was at the
start or a whole staged file that was found valid, and `auth.json.backup` what it was at the start
or the whole of what `auth.json` was once.

* Both files change by a rename alone, and what is renamed is whole by then: `InOrder` says at each
  phase what the files contain that the phases to come rely on.
* `stepped_proceed` is the step: it leaves `auth.json`, or is the one rename over it.
-/

namespace CredentialBroker.Login

open Proxy (Value)

/-! ## What an install relies on -/

/-- The path is that of some temporary file. -/
def IsTmp (tmp : Path) : Prop := ∃ pid stamp, tmp = tmpPath pid stamp

/-- The name of a temporary file starts with a dot. -/
private theorem IsTmp.ne_of_name {tmp : Path} (h : IsTmp tmp) {name : String}
    (hname : name.toList.head? ≠ some '.') : tmp ≠ [name] := by
  obtain ⟨pid, stamp, rfl⟩ := h
  intro heq
  apply hname
  rw [← List.singleton_inj.mp heq]
  simp

theorem IsTmp.ne_auth {tmp : Path} (h : IsTmp tmp) : tmp ≠ authPath := h.ne_of_name (by decide)

theorem IsTmp.ne_backup {tmp : Path} (h : IsTmp tmp) : tmp ≠ backupPath := h.ne_of_name (by decide)

theorem IsTmp.ne_staged {tmp : Path} (h : IsTmp tmp) (staging : String) :
    tmp ≠ stagedPath staging := by
  obtain ⟨pid, stamp, rfl⟩ := h
  intro heq
  cases heq

theorem staged_ne_auth (staging : String) : stagedPath staging ≠ authPath := by
  intro heq
  cases heq

theorem staged_ne_backup (staging : String) : stagedPath staging ≠ backupPath := by
  intro heq
  cases heq

/-- `auth.json` contains `old`, or is absent if that is none. -/
def ActiveIs (files : Files Path) : Option Bytes → Prop
  | some old => files.Holds authPath old
  | none => files.lookup authPath = none

/-- `auth.json` and the staged file are as they were read. -/
structure AsRead (files : Files Path) (staged : Path) (old : Option Bytes) (new : Bytes) :
    Prop where
  active : ActiveIs files old
  staged : files.Holds staged new

/-- What the files contain while an install is in a phase. -/
def InOrder (files : Files Path) (staged : Path) : Phase → Prop
  | .checkActive | .syncActive => True
  | .readActive => ∃ old, files.Holds authPath old
  | .readStaged old => ActiveIs files old
  | .checkStaged old new => ActiveIs files old ∧ files.read staged = some new
  | .chmodStaged old new => AsRead files staged old new
  | .createBackup old new => AsRead files staged (some old) new
  | .writeBackup tmp old rest new =>
      AsRead files staged (some old) new ∧ IsTmp tmp ∧
        ∃ written, files.Holds tmp written ∧ written ++ rest = old
  | .fsyncBackup tmp old new | .renameBackup tmp old new =>
      AsRead files staged (some old) new ∧ IsTmp tmp ∧ files.Holds tmp old
  | .removeTmp tmp _ => IsTmp tmp
  | .syncBackup old new => AsRead files staged (some old) new ∧ files.Holds backupPath old
  | .renameStaged old new =>
      AsRead files staged old new ∧ ∀ active, old = some active → files.Holds backupPath active

/-- The staged contents that a phase knows to be valid. -/
def Phase.accepted : Phase → Option Bytes
  | checkStaged _ new | chmodStaged _ new | createBackup _ new | writeBackup _ _ _ new
  | fsyncBackup _ _ new | renameBackup _ _ new | syncBackup _ new | renameStaged _ new => some new
  | checkActive | readActive | readStaged _ | removeTmp _ _ | syncActive => none

theorem ActiveIs.congr {files files' : Files Path} {old : Option Bytes} (h : ActiveIs files old)
    (heq : files'.lookup authPath = files.lookup authPath) : ActiveIs files' old := by
  cases old with
  | some old => exact Files.Holds.congr h heq
  | none => exact heq.trans h

theorem AsRead.congr {files files' : Files Path} {staged : Path} {old : Option Bytes} {new : Bytes}
    (h : AsRead files staged old new)
    (hactive : files'.lookup authPath = files.lookup authPath)
    (hstaged : files'.lookup staged = files.lookup staged) : AsRead files' staged old new :=
  ⟨h.active.congr hactive, h.staged.congr hstaged⟩

/-! ## What a step does -/

def Next.files : Next → Files Path
  | go files _ | done files _ => files

/-- The install is over, or goes on in order. -/
def Next.InOrder (staged : Path) : Next → Prop
  | go files phase => Login.InOrder files staged phase
  | done _ _ => True

/-- The next step, if it goes through, puts the staged file in the place of `auth.json`. -/
def replacing (files : Files Path) (staged : Path) : Phase → Bool
  | .renameStaged _ _ => (files.rename staged authPath).isSome
  | _ => false

/-- `auth.json` stays, and its backup does as well or becomes its copy. -/
structure Quiet (files files' : Files Path) : Prop where
  active : files'.lookup authPath = files.lookup authPath
  backup : files'.lookup backupPath = files.lookup backupPath ∨
    ∃ old, files.Holds authPath old ∧ files'.Holds backupPath old

/-- `new` takes the place of `auth.json`, of which there is a copy if it is there. -/
structure Replaced (files files' : Files Path) (new : Bytes) : Prop where
  active : files'.Holds authPath new
  backup : files'.lookup backupPath = files.lookup backupPath
  saved : ∀ entry, files.lookup authPath = some entry →
    ∃ old, files.Holds authPath old ∧ files.Holds backupPath old

/-- **Everything a step can do** to the two files. -/
inductive Stepped (files : Files Path) (staged : Path) (phase : Phase) (files' : Files Path) : Prop
  | quiet (hreplacing : replacing files staged phase = false) (hquiet : Quiet files files')
  | replaced (new : Bytes) (haccepted : phase.accepted = some new)
      (hreplacing : replacing files staged phase = true) (hreplaced : Replaced files files' new)

theorem Quiet.refl (files : Files Path) : Quiet files files := ⟨rfl, .inl rfl⟩

/-- A change elsewhere. -/
theorem Quiet.of_onlyAt {files files' : Files Path} {path : Path} (h : Files.OnlyAt path files files')
    (hactive : path ≠ authPath) (hbackup : path ≠ backupPath) : Quiet files files' :=
  ⟨h authPath hactive.symm, .inl (h backupPath hbackup.symm)⟩

theorem Quiet.of_staged {files files' : Files Path} {staging : String}
    (h : Files.OnlyAt (stagedPath staging) files files') : Quiet files files' :=
  .of_onlyAt h (staged_ne_auth staging) (staged_ne_backup staging)

theorem Quiet.of_tmp {files files' : Files Path} {tmp : Path} (h : Files.OnlyAt tmp files files')
    (htmp : IsTmp tmp) : Quiet files files' :=
  .of_onlyAt h htmp.ne_auth htmp.ne_backup

/-- What happens to a temporary file does not matter to what was read. -/
theorem AsRead.of_tmp {files files' : Files Path} {staging : String} {old : Option Bytes}
    {new : Bytes} (h : AsRead files (stagedPath staging) old new) {tmp : Path}
    (honly : Files.OnlyAt tmp files files') (htmp : IsTmp tmp) :
    AsRead files' (stagedPath staging) old new :=
  h.congr (honly _ htmp.ne_auth.symm) (honly _ (htmp.ne_staged staging).symm)

variable {fromSlice : Bytes → Option Value} {uid : Nat}

/-- A step that changes no file. -/
private theorem stepped_of_files_eq {files : Files Path} {staged : Path} {phase : Phase}
    (hreplacing : replacing files staged phase = false) {next : Next} (hfiles : next.files = files)
    (hnext : next.InOrder staged) :
    next.InOrder staged ∧ Stepped files staged phase next.files :=
  ⟨hnext, .quiet hreplacing (hfiles ▸ Quiet.refl files)⟩

/-- `symlink_metadata` finds a file before it is read. -/
private theorem holds_of_isPrivateFile {files : Files Path} {path : Path} {entry : Files.Entry Path}
    (hentry : files.lookup path = some entry) (h : isPrivateFile uid entry = true) :
    ∃ data, files.Holds path data := by
  cases entry with
  | file data owner mode => exact ⟨data, owner, mode, hentry⟩
  | symlink target => cases h
  | directory => cases h

/-- What was read at a path that is a file's is what the file contains. -/
private theorem holds_of_isOwnFile {files : Files Path} {path : Path} {entry : Files.Entry Path}
    (hentry : files.lookup path = some entry) (h : isOwnFile uid entry = true) {data : Bytes}
    (hread : files.read path = some data) : files.Holds path data := by
  cases entry with
  | file other owner mode =>
      have hholds : files.Holds path other := ⟨owner, mode, hentry⟩
      have heq := hholds.read
      rw [hread] at heq
      cases heq
      exact hholds
  | symlink target => cases h
  | directory => cases h

/-- The backup takes the place of the one there was. -/
private theorem backedUp {files files' : Files Path} {staging : String} {tmp : Path}
    {old new : Bytes} (hread : AsRead files (stagedPath staging) (some old) new) (htmp : IsTmp tmp)
    (hheld : files.Holds tmp old) (h : files.rename tmp backupPath = some files') :
    AsRead files' (stagedPath staging) (some old) new ∧ files'.Holds backupPath old ∧
      Quiet files files' := by
  have hactive : files'.lookup authPath = files.lookup authPath :=
    Files.lookup_rename_of_ne h htmp.ne_auth.symm (by decide)
  have hstaged := Files.lookup_rename_of_ne h (htmp.ne_staged staging).symm
    (staged_ne_backup staging)
  have hbackup := hheld.rename h
  exact ⟨hread.congr hactive hstaged, hbackup, hactive, .inr ⟨old, hread.active, hbackup⟩⟩

/-- The staged file takes the place of `auth.json`, which was copied if it is there. -/
private theorem replaced_of_rename {files files' : Files Path} {staging : String}
    {old : Option Bytes} {new : Bytes} (hread : AsRead files (stagedPath staging) old new)
    (hsaved : ∀ active, old = some active → files.Holds backupPath active)
    (h : files.rename (stagedPath staging) authPath = some files') : Replaced files files' new := by
  refine ⟨hread.staged.rename h, ?_, ?_⟩
  · exact Files.lookup_rename_of_ne h (staged_ne_backup staging).symm (by decide)
  · intro entry hentry
    cases old with
    | none =>
        rw [show files.lookup authPath = none from hread.active] at hentry
        cases hentry
    | some old => exact ⟨old, hread.active, hsaved old rfl⟩

variable (fromSlice uid) in
/-- **Step.** A phase leaves the next one in order, and replaces the live file only by what was
accepted. -/
theorem stepped_proceed {files : Files Path} {staging : String} {phase : Phase}
    (h : InOrder files (stagedPath staging) phase) (draw : Draw) :
    (proceed fromSlice uid files (stagedPath staging) draw phase).InOrder (stagedPath staging) ∧
      Stepped files (stagedPath staging) phase
        (proceed fromSlice uid files (stagedPath staging) draw phase).files := by
  cases phase with
  | checkActive =>
      unfold proceed
      dsimp only
      split
      · next habsent => exact stepped_of_files_eq rfl rfl habsent
      · next entry hentry =>
          split
          · next hprivate => exact stepped_of_files_eq rfl rfl (holds_of_isPrivateFile hentry hprivate)
          · exact stepped_of_files_eq rfl rfl trivial
  | readActive =>
      obtain ⟨old, hold⟩ := h
      simp only [proceed, hold.read]
      exact stepped_of_files_eq rfl rfl hold
  | readStaged old =>
      unfold proceed
      dsimp only
      split
      · next new hnew =>
          split
          · exact stepped_of_files_eq rfl rfl ⟨h, hnew⟩
          · exact stepped_of_files_eq rfl rfl trivial
      · exact stepped_of_files_eq rfl rfl trivial
  | checkStaged old new =>
      unfold proceed
      dsimp only
      split
      · next entry hentry =>
          split
          · next hown => exact stepped_of_files_eq rfl rfl ⟨h.1, holds_of_isOwnFile hentry hown h.2⟩
          · exact stepped_of_files_eq rfl rfl trivial
      · exact stepped_of_files_eq rfl rfl trivial
  | chmodStaged old new =>
      unfold proceed
      dsimp only
      split
      · next files' hfiles =>
          obtain ⟨honly, hstaged⟩ := h.staged.chmod hfiles
          have hquiet := Quiet.of_staged honly
          have hread : AsRead files' (stagedPath staging) old new :=
            ⟨h.active.congr hquiet.active, hstaged⟩
          cases old with
          | some old => exact ⟨hread, .quiet rfl hquiet⟩
          | none => exact ⟨⟨hread, nofun⟩, .quiet rfl hquiet⟩
      · exact stepped_of_files_eq rfl rfl trivial
  | createBackup old new =>
      unfold proceed
      dsimp only
      split
      · next files' hfiles =>
          obtain ⟨honly, hcreated⟩ := Files.createNew_eq_some hfiles
          have htmp : IsTmp (tmpPath draw.pid draw.stamp) := ⟨_, _, rfl⟩
          exact ⟨⟨h.of_tmp honly htmp, htmp, [], hcreated, rfl⟩, .quiet rfl (.of_tmp honly htmp)⟩
      · exact stepped_of_files_eq rfl rfl trivial
  | writeBackup tmp old rest new =>
      obtain ⟨hread, htmp, written, hwritten, hold⟩ := h
      unfold proceed
      dsimp only
      split
      · next hempty =>
          rw [List.isEmpty_iff.mp hempty, List.append_nil] at hold
          exact stepped_of_files_eq rfl rfl ⟨hread, htmp, hold ▸ hwritten⟩
      · have honly := Files.onlyAt_write files tmp (rest.take draw.count)
        refine ⟨⟨hread.of_tmp honly htmp, htmp, _, hwritten.write _, ?_⟩,
          .quiet rfl (.of_tmp honly htmp)⟩
        rw [List.append_assoc, List.take_append_drop]
        exact hold
  | fsyncBackup tmp old new => exact stepped_of_files_eq rfl rfl h
  | renameBackup tmp old new =>
      obtain ⟨hread, htmp, hheld⟩ := h
      unfold proceed
      dsimp only
      split
      · next files' hfiles =>
          obtain ⟨hread', hbackup, hquiet⟩ := backedUp hread htmp hheld hfiles
          exact ⟨⟨hread', hbackup⟩, .quiet rfl hquiet⟩
      · exact stepped_of_files_eq rfl rfl htmp
  | removeTmp tmp error =>
      unfold proceed
      dsimp only
      cases hfiles : files.remove tmp with
      | none => exact stepped_of_files_eq rfl rfl trivial
      | some files' => exact ⟨trivial, .quiet rfl (.of_tmp (Files.onlyAt_remove hfiles) h)⟩
  | syncBackup old new =>
      refine stepped_of_files_eq rfl rfl ⟨h.1, ?_⟩
      intro active hactive
      cases hactive
      exact h.2
  | renameStaged old new =>
      unfold proceed
      dsimp only
      split
      · next files' hfiles =>
          refine ⟨trivial, .replaced new rfl ?_ (replaced_of_rename h.1 h.2 hfiles)⟩
          simp [replacing, hfiles]
      · next hfiles => exact stepped_of_files_eq (by simp [replacing, hfiles]) rfl trivial
  | syncActive => exact stepped_of_files_eq rfl rfl trivial

/-- A step that fails changes no file. -/
theorem stepped_failed {files : Files Path} {staged : Path} {phase : Phase}
    (h : InOrder files staged phase) :
    (failed files phase).InOrder staged ∧ Quiet files (failed files phase).files := by
  cases phase with
  | writeBackup tmp old rest new => exact ⟨h.2.1, Quiet.refl files⟩
  | fsyncBackup tmp old new => exact ⟨h.2.1, Quiet.refl files⟩
  | renameBackup tmp old new => exact ⟨h.2.1, Quiet.refl files⟩
  | _ => exact ⟨trivial, Quiet.refl files⟩

variable (fromSlice uid)

/-- What is known to be valid after a step was before, or is what the step read. -/
theorem accepted_proceed (files : Files Path) (staged : Path) (draw : Draw) (phase : Phase)
    {files' : Files Path} {phase' : Phase} {new : Bytes}
    (h : proceed fromSlice uid files staged draw phase = .go files' phase')
    (hnew : phase'.accepted = some new) :
    phase.accepted = some new ∨
      (∃ old, phase = .readStaged old) ∧ files.read staged = some new ∧
        validateAuthJson fromSlice new = .ok () := by
  cases phase with
  | readStaged old =>
      simp only [proceed] at h
      split at h
      · next read hread =>
          split at h
          · next hvalid =>
              cases h
              cases hnew
              exact .inr ⟨⟨old, rfl⟩, hread, hvalid⟩
          · cases h
      · cases h
  | _ =>
      -- every other phase hands on what it knows, or nothing
      simp only [proceed] at h
      repeat' split at h
      all_goals
        first
          | cases h; exact .inl hnew
          | cases h; cases hnew
          | cases h

theorem accepted_failed (files : Files Path) (phase : Phase) {files' : Files Path} {phase' : Phase}
    (h : failed files phase = .go files' phase') : phase'.accepted = none := by
  cases phase <;> cases h <;> rfl

/-! ## Sequences of installs -/

/-- The staged contents that a step reads and finds valid. -/
def accepts (event : Home × Act) : Option Bytes :=
  match event.1.install, event.2 with
  | some ⟨staged, .readStaged _⟩, .proceed _ =>
      (event.1.files.read staged).filter fun new => (validateAuthJson fromSlice new).toBool
  | _, _ => none

/-- An act puts a staged file in the place of `auth.json`. -/
def replaces (event : Home × Act) : Bool :=
  match event.1.install, event.2 with
  | some install, .proceed _ => replacing event.1.files install.staged install.phase
  | _, _ => false

/-- Some install has read this at its staged path and found it valid. -/
def Accepted (events : List (Home × Act)) (new : Bytes) : Prop :=
  ∃ event ∈ events, accepts fromSlice event = some new

/-- What holds of an install under way. -/
structure Underway (events : List (Home × Act)) (files : Files Path) (install : Install) :
    Prop where
  staged : ∃ staging, install.staged = stagedPath staging
  inOrder : InOrder files install.staged install.phase
  accepted : ∀ new, install.phase.accepted = some new → Accepted fromSlice events new

/-- What an act does to the two files. -/
inductive Acted (events : List (Home × Act)) (home : Home) (act : Act) (files' : Files Path) : Prop
  | quiet (hreplaces : replaces (home, act) = false) (hquiet : Quiet home.files files')
  | replaced (new : Bytes) (haccepted : Accepted fromSlice events new)
      (hreplaces : replaces (home, act) = true) (hreplaced : Replaced home.files files' new)

/-- What an act comes to: an install that is under way still is in order, and the two files changed
in one of the ways they may. -/
structure Steps (events : List (Home × Act)) (home : Home) (act : Act) (home' : Home) : Prop where
  underway : ∀ install, home'.install = some install →
    Underway fromSlice (events ++ [(home, act)]) home'.files install
  acted : Acted fromSlice events home act home'.files

variable {fromSlice uid}

theorem Accepted.concat {events : List (Home × Act)} {new : Bytes}
    (h : Accepted fromSlice events new) (event : Home × Act) :
    Accepted fromSlice (events ++ [event]) new := by
  obtain ⟨earlier, hmem, haccepts⟩ := h
  exact ⟨earlier, List.mem_append_left _ hmem, haccepts⟩

theorem Underway.concat {events : List (Home × Act)} {files : Files Path} {install : Install}
    (h : Underway fromSlice events files install) (event : Home × Act) :
    Underway fromSlice (events ++ [event]) files install :=
  ⟨h.staged, h.inOrder, fun new hnew => (h.accepted new hnew).concat event⟩

theorem files_after (home : Home) (install : Install) (next : Next) :
    (home.after install next).1.files = next.files := by
  cases next <;> rfl

/-- An install that goes on is in order if its next phase is. -/
private theorem underway_after {events : List (Home × Act)} {home : Home} {install : Install}
    {next : Next} (hstaged : ∃ staging, install.staged = stagedPath staging)
    (hnext : next.InOrder install.staged)
    (haccepted : ∀ files' phase' new, next = .go files' phase' → phase'.accepted = some new →
      Accepted fromSlice events new) (install' : Install)
    (h : (home.after install next).1.install = some install') :
    Underway fromSlice events (home.after install next).1.files install' := by
  cases next with
  | go files' phase' =>
      cases h
      exact ⟨hstaged, hnext, fun new => haccepted files' phase' new rfl⟩
  | done files' result => cases h

/-- **Step**, of the install under way: it goes on in order, or ends. -/
private theorem steps_proceed {events : List (Home × Act)} {home : Home} {install : Install}
    (hinstall : home.install = some install)
    (h : Underway fromSlice events home.files install) (draw : Draw) :
    Steps fromSlice events home (.proceed draw)
      (home.after install
        (proceed fromSlice uid home.files install.staged draw install.phase)).1 := by
  obtain ⟨⟨staging, hstaged⟩, hinOrder, haccepted⟩ := h
  obtain ⟨staged, phase⟩ := install
  cases hstaged
  obtain ⟨hnext, hstepped⟩ := stepped_proceed fromSlice uid hinOrder draw
  have hreplaces : replaces (home, .proceed draw) =
      replacing home.files (stagedPath staging) phase := by
    simp only [replaces, hinstall]
    rfl
  refine ⟨underway_after ⟨staging, rfl⟩ hnext ?_, ?_⟩
  · intro files' phase' new hgo hnew
    rcases accepted_proceed fromSlice uid _ _ draw _ hgo hnew with
      hold | ⟨⟨old, hphase⟩, hread, hvalid⟩
    · exact (haccepted new hold).concat _
    · refine ⟨(home, .proceed draw), List.mem_append_right _ (List.mem_singleton.mpr rfl), ?_⟩
      cases hphase
      simp [accepts, hinstall, hread, hvalid, Except.toBool]
  · rw [files_after]
    cases hstepped with
    | quiet hreplacing hquiet => exact .quiet (hreplaces.trans hreplacing) hquiet
    | replaced new hnew hreplacing hreplaced =>
        exact .replaced new (haccepted new hnew) (hreplaces.trans hreplacing) hreplaced

private theorem replaces_of_ne {home : Home} {act : Act} (h : ∀ draw, act ≠ .proceed draw) :
    replaces (home, act) = false := by
  unfold replaces
  split
  · next hact => exact absurd hact (h _)
  · rfl

private theorem steps_fail {events : List (Home × Act)} {home : Home} {install : Install}
    (h : Underway fromSlice events home.files install) :
    Steps fromSlice events home .fail
      (home.after install (failed home.files install.phase)).1 := by
  obtain ⟨hnext, hquiet⟩ := stepped_failed h.inOrder
  refine ⟨underway_after h.staged hnext ?_, .quiet (replaces_of_ne nofun) ?_⟩
  · intro files' phase' new hgo hnew
    rw [accepted_failed _ _ hgo] at hnew
    cases hnew
  · rw [files_after]
    exact hquiet

/-- An act that changes no file, and lets the install go on or be over. -/
private theorem steps_same {events : List (Home × Act)} {home : Home} {act : Act}
    (h : ∀ install, home.install = some install → Underway fromSlice events home.files install)
    (hreplaces : replaces (home, act) = false) (install : Option Install)
    (hinstall : ∀ i, install = some i → home.install = some i) :
    Steps fromSlice events home act { home with install := install } :=
  ⟨fun i hi => (h i (hinstall i hi)).concat _, .quiet hreplaces (Quiet.refl _)⟩

/-- A change at a staged path, when no install is under way. -/
private theorem steps_stage {events : List (Home × Act)} {home : Home} {staging : String}
    {entry : Option (Files.Entry Path)} {files' : Files Path}
    (h : Files.OnlyAt (stagedPath staging) home.files files') :
    Steps fromSlice events home (.stage staging entry) { files := files' } := by
  refine ⟨?_, .quiet (replaces_of_ne nofun) ?_⟩
  · intro install hsome
    cases hsome
  · exact .of_staged h

/-- **Step.** Whatever the next act, an install under way stays in order, and the two files change
in one of the ways they may. -/
theorem steps_step {events : List (Home × Act)} {home : Home}
    (h : ∀ install, home.install = some install → Underway fromSlice events home.files install)
    (act : Act) : Steps fromSlice events home act (home.step fromSlice uid act).1 := by
  -- an act that finds nothing to do leaves the home as it is
  have hidle : replaces (home, act) = false → Steps fromSlice events home act home :=
    fun hreplaces => steps_same h hreplaces home.install fun _ hi => hi
  cases act with
  | stage staging entry =>
      cases hinstall : home.install with
      | some install =>
          simp only [Home.step, hinstall]
          exact hidle (replaces_of_ne nofun)
      | none =>
          cases entry with
          | some entry =>
              simp only [Home.step, hinstall]
              exact steps_stage (Files.onlyAt_insert _ _ _)
          | none =>
              simp only [Home.step, hinstall]
              exact steps_stage (Files.onlyAt_erase _ _)
  | start staging =>
      cases hinstall : home.install with
      | some install =>
          simp only [Home.step, hinstall]
          exact hidle (replaces_of_ne nofun)
      | none =>
          simp only [Home.step, hinstall]
          refine ⟨?_, .quiet (replaces_of_ne nofun) (Quiet.refl _)⟩
          intro install hsome
          cases hsome
          exact ⟨⟨staging, rfl⟩, trivial, nofun⟩
  | proceed draw =>
      cases hinstall : home.install with
      | some install =>
          simp only [Home.step, hinstall]
          exact steps_proceed hinstall (h install hinstall) draw
      | none =>
          simp only [Home.step, hinstall]
          exact hidle (by simp only [replaces, hinstall])
  | fail =>
      cases hinstall : home.install with
      | some install =>
          simp only [Home.step, hinstall]
          exact steps_fail (h install hinstall)
      | none =>
          simp only [Home.step, hinstall]
          exact hidle (replaces_of_ne nofun)
  | stop =>
      have hreplaces : replaces (home, Act.stop) = false := replaces_of_ne nofun
      exact steps_same h hreplaces none nofun

variable (fromSlice uid) (files : Files Path)

/-- **Run.** An install under way is in order, whatever came before. -/
theorem underway_run (acts : List Act) : ∀ install,
    ((installs fromSlice uid files).run acts).install = some install →
      Underway fromSlice ((installs fromSlice uid files).trace acts)
        ((installs fromSlice uid files).run acts).files install := by
  induction acts using List.reverseRecOn with
  | nil =>
      intro install hinstall
      cases hinstall
  | append_singleton acts act ih =>
      rw [Mealy.trace_concat, Mealy.run_concat]
      exact (steps_step ih act).underway

/-- What the next act does after any others. -/
theorem acted_run (acts : List Act) (act : Act) :
    Acted fromSlice ((installs fromSlice uid files).trace acts)
      ((installs fromSlice uid files).run acts) act
      ((installs fromSlice uid files).run (acts ++ [act])).files := by
  rw [Mealy.run_concat]
  exact (steps_step (underway_run fromSlice uid files acts) act).acted

/-! ## What is promised -/

/-- `auth.json` contained this once. -/
def Once (acts : List Act) (old : Bytes) : Prop :=
  ∃ before after, acts = before ++ after ∧
    ((installs fromSlice uid files).run before).files.Holds authPath old

/-- The backup is the one there was, or all of what was `auth.json` once. -/
def BackupWhole (acts : List Act) : Prop :=
  ∀ entry, ((installs fromSlice uid files).run acts).files.lookup backupPath = some entry →
    files.lookup backupPath = some entry ∨
      ∃ old, ((installs fromSlice uid files).run acts).files.Holds backupPath old ∧
        Once fromSlice uid files acts old

/-- What is promised of `auth.json` and its backup after `acts`, if `files` was there before. -/
structure AllOrNothing (acts : List Act) : Prop where
  /-- Where there is no `auth.json` there was none, and none was installed. -/
  absent : ((installs fromSlice uid files).run acts).files.lookup authPath = none →
    files.lookup authPath = none ∧
      ∀ event ∈ (installs fromSlice uid files).trace acts, replaces event = false
  /-- It is the one there was, or all of a staged file that was valid. -/
  active : ∀ entry, ((installs fromSlice uid files).run acts).files.lookup authPath = some entry →
    files.lookup authPath = some entry ∨
      ∃ new, Accepted fromSlice ((installs fromSlice uid files).trace acts) new ∧
        ((installs fromSlice uid files).run acts).files.Holds authPath new
  /-- Until a staged file takes its place, it stays. -/
  unchanged : ∀ before after, acts = before ++ after →
    (∀ event ∈ (installs fromSlice uid files).traceFrom
      ((installs fromSlice uid files).run before) after, replaces event = false) →
    ((installs fromSlice uid files).run acts).files.lookup authPath =
      ((installs fromSlice uid files).run before).files.lookup authPath
  /-- When one is replaced, the backup contains just what it does. -/
  saved : ∀ before act after, acts = before ++ act :: after →
    replaces ((installs fromSlice uid files).run before, act) = true →
    ∀ entry, ((installs fromSlice uid files).run before).files.lookup authPath = some entry →
      ∃ old, ((installs fromSlice uid files).run before).files.Holds authPath old ∧
        ((installs fromSlice uid files).run before).files.Holds backupPath old ∧
        ((installs fromSlice uid files).run (before ++ [act])).files.Holds backupPath old
  backup : BackupWhole fromSlice uid files acts

private theorem absent_run (acts : List Act)
    (h : ((installs fromSlice uid files).run acts).files.lookup authPath = none) :
    files.lookup authPath = none ∧
      ∀ event ∈ (installs fromSlice uid files).trace acts, replaces event = false := by
  induction acts using List.reverseRecOn with
  | nil => exact ⟨h, nofun⟩
  | append_singleton acts act ih =>
      cases acted_run fromSlice uid files acts act with
      | quiet hreplaces hquiet =>
          rw [hquiet.active] at h
          obtain ⟨hnone, hbefore⟩ := ih h
          refine ⟨hnone, ?_⟩
          intro event hevent
          rw [Mealy.trace_concat] at hevent
          rcases List.mem_append.mp hevent with hevent | hevent
          · exact hbefore event hevent
          · rw [List.mem_singleton.mp hevent]
            exact hreplaces
      | replaced new haccepted hreplaces hreplaced =>
          obtain ⟨owner, mode, hactive⟩ := hreplaced.active
          rw [hactive] at h
          cases h

private theorem active_run (acts : List Act) (entry : Files.Entry Path)
    (h : ((installs fromSlice uid files).run acts).files.lookup authPath = some entry) :
    files.lookup authPath = some entry ∨
      ∃ new, Accepted fromSlice ((installs fromSlice uid files).trace acts) new ∧
        ((installs fromSlice uid files).run acts).files.Holds authPath new := by
  induction acts using List.reverseRecOn with
  | nil => exact .inl h
  | append_singleton acts act ih =>
      rw [Mealy.trace_concat]
      cases acted_run fromSlice uid files acts act with
      | quiet hreplaces hquiet =>
          rcases ih (hquiet.active ▸ h) with hold | ⟨new, haccepted, hactive⟩
          · exact .inl hold
          · exact .inr ⟨new, haccepted.concat _, hactive.congr hquiet.active⟩
      | replaced new haccepted hreplaces hreplaced =>
          exact .inr ⟨new, haccepted.concat _, hreplaced.active⟩

private theorem unchanged_run (before after : List Act)
    (h : ∀ event ∈ (installs fromSlice uid files).traceFrom
      ((installs fromSlice uid files).run before) after, replaces event = false) :
    ((installs fromSlice uid files).run (before ++ after)).files.lookup authPath =
      ((installs fromSlice uid files).run before).files.lookup authPath := by
  induction after using List.reverseRecOn with
  | nil => rw [List.append_nil]
  | append_singleton after act ih =>
      rw [Mealy.traceFrom_append] at h
      have hearlier := ih fun event hevent => h event (List.mem_append_left _ hevent)
      have hlast :
          replaces ((installs fromSlice uid files).run (before ++ after), act) = false := by
        rw [Mealy.run_append]
        exact h _ (List.mem_append_right _ (List.mem_singleton.mpr rfl))
      rw [← List.append_assoc, ← hearlier]
      cases acted_run fromSlice uid files (before ++ after) act with
      | quiet hreplaces hquiet => exact hquiet.active
      | replaced new haccepted hreplaces hreplaced =>
          rw [hlast] at hreplaces
          cases hreplaces

private theorem backup_run (acts : List Act) : BackupWhole fromSlice uid files acts := by
  induction acts using List.reverseRecOn with
  | nil => exact fun entry => .inl
  | append_singleton acts act ih =>
      -- a backup that stays is what it was before
      have hkept : ((installs fromSlice uid files).run (acts ++ [act])).files.lookup backupPath =
          ((installs fromSlice uid files).run acts).files.lookup backupPath →
          BackupWhole fromSlice uid files (acts ++ [act]) := by
        intro heq entry h
        rcases ih entry (heq ▸ h) with hold | ⟨old, hbackup, before, after, rfl, hactive⟩
        · exact .inl hold
        · refine .inr ⟨old, hbackup.congr heq, before, after ++ [act], ?_, hactive⟩
          exact List.append_assoc _ _ _
      cases acted_run fromSlice uid files acts act with
      | quiet hreplaces hquiet =>
          rcases hquiet.backup with heq | ⟨old, hactive, hbackup⟩
          · exact hkept heq
          · exact fun entry _ => .inr ⟨old, hbackup, acts, [act], rfl, hactive⟩
      | replaced new haccepted hreplaces hreplaced => exact hkept hreplaced.backup

/-- **Login installation is all or nothing**, for every sequence of installs, each cut short or
failing anywhere. -/
theorem all_or_nothing (acts : List Act) : AllOrNothing fromSlice uid files acts := by
  refine ⟨absent_run fromSlice uid files acts, active_run fromSlice uid files acts, ?_, ?_,
    backup_run fromSlice uid files acts⟩
  · rintro before after rfl
    exact unchanged_run fromSlice uid files before after
  · intro before act after _ hreplaces entry hentry
    cases acted_run fromSlice uid files before act with
    | quiet hquiet =>
        rw [hreplaces] at hquiet
        cases hquiet
    | replaced new haccepted _ hreplaced =>
        obtain ⟨old, hactive, hbackup⟩ := hreplaced.saved entry hentry
        exact ⟨old, hactive, hbackup, hbackup.congr hreplaced.backup⟩

/-- The steps of an install over an `auth.json` of one byte, each going through. -/
def wholeInstall : List Act := .replicate 13 (.proceed ⟨1, 1, 1⟩)

/-- An install that stops once its backup is in place leaves `auth.json`, and the next replaces it.
-/
example :
    let fromSlice : Bytes → Option Value := fun _ =>
      some (.object [("tokens", .object
        [("access_token", .string "new"), ("refresh_token", .string "refresh")])])
    let home := installs fromSlice 0 (AList.insert authPath (.file [1] 0 0o600) ∅)
    let staged : List Act := [.stage ".auth-staging-1" (some (.file [2] 0 0o600)),
      .start ".auth-staging-1"]
    let stopped := home.run (staged ++ wholeInstall.take 10 ++ [.stop])
    let replaced := home.runFrom stopped (staged ++ wholeInstall)
    (stopped.files.read authPath, stopped.files.read backupPath) = (some [1], some [1]) ∧
      (replaced.files.read authPath, replaced.files.read backupPath) = (some [2], some [1]) := by
  decide +kernel

end CredentialBroker.Login
