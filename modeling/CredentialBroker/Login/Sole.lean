import CredentialBroker.Login.Processes

/-!
# The lock makes logins take turns

`Sole` holds of a home after any acts of its processes. Its parts need each other: that one process
at most is past the lock rests on the lock file staying where it is, which an install could remove
if the paths it works at were other than they are; and that an install is in order rests on nobody
else being at the files.

* `Turned` says what the step of one process does to the home, stage by stage.
* `Sole.goesOn` and `Sole.ends` are the two ways it can go, seen by the others.
* `alone_proceed` and `alone_failed` follow the login that is past the lock, as a run of `installs`.
-/

namespace CredentialBroker.Login

open Proxy (Value)

variable {fromSlice : Bytes → Option Value} {uid : Nat} {dir : DirMeta}

/-! ## What an install leaves alone -/

/-- An install makes and changes files at four kinds of paths. -/
structure Elsewhere (staged path : Path) : Prop where
  auth : path ≠ authPath
  backup : path ≠ backupPath
  tmp : ¬ IsTmp path
  staged : path ≠ staged

theorem lookup_proceed {files : Files Path} {staged path : Path} {phase : Phase}
    (h : InOrder files staged phase) (hpath : Elsewhere staged path) (draw : Draw) :
    (proceed fromSlice uid files staged draw phase).files.lookup path = files.lookup path := by
  cases phase with
  | checkActive =>
      rw [proceed]
      split
      · rfl
      · split <;> rfl
  | readActive =>
      rw [proceed]
      split <;> rfl
  | readStaged old =>
      rw [proceed]
      split
      · split <;> rfl
      · rfl
  | checkStaged old new =>
      rw [proceed]
      split
      · split <;> rfl
      · rfl
  | chmodStaged old new =>
      rw [proceed]
      split
      · next files' hset =>
          have honly := (h.staged.chmod hset).1 path hpath.staged
          split <;> exact honly
      · rfl
  | createBackup old new =>
      rw [proceed]
      split
      · next files' hcreated =>
          apply (Files.createNew_eq_some hcreated).1 path
          rintro rfl
          exact hpath.tmp ⟨_, _, rfl⟩
      · rfl
  | writeBackup tmp old rest new =>
      rw [proceed]
      split
      · rfl
      · apply Files.onlyAt_write files tmp _ path
        rintro rfl
        exact hpath.tmp h.2.1
  | fsyncBackup tmp old new => rfl
  | renameBackup tmp old new =>
      rw [proceed]
      split
      · next files' hmoved =>
          refine Files.lookup_rename_of_ne hmoved ?_ hpath.backup
          rintro rfl
          exact hpath.tmp h.2.1
      · rfl
  | removeTmp tmp error =>
      show ((files.remove tmp).getD files).lookup path = files.lookup path
      cases hremoved : files.remove tmp with
      | none => rfl
      | some files' =>
          apply Files.onlyAt_remove hremoved path
          rintro rfl
          exact hpath.tmp h
  | syncBackup old new => rfl
  | renameStaged old new =>
      rw [proceed]
      split
      · next files' hmoved => exact Files.lookup_rename_of_ne hmoved hpath.staged hpath.auth
      · rfl
  | syncActive => rfl

theorem files_failed (files : Files Path) (phase : Phase) : (failed files phase).files = files := by
  cases phase <;> rfl

/-! ## Names -/

/-- What is at or beneath a staging directory is no file of an install's, but for the one staged. -/
theorem elsewhere_of_head {name : String} (hname : isStaging name = true) {path : Path}
    (hpath : path.head? = some name) {staging : String} (hne : path ≠ stagedPath staging) :
    Elsewhere (stagedPath staging) path := by
  have hhead : ∀ other : String, other.toList.take 6 ≠ ".auth-".toList → path ≠ [other] := by
    rintro other hother rfl
    apply hother
    cases hpath
    obtain ⟨rest, hrest⟩ := List.isPrefixOf_iff_prefix.mp hname
    rw [← hrest]
    rfl
  refine ⟨hhead _ (by decide), hhead _ (by decide), ?_, hne⟩
  rintro ⟨pid, stamp, rfl⟩
  refine hhead _ ?_ rfl
  simp

/-- The lock is no file of an install's. -/
theorem elsewhere_lockPath (name : String) : Elsewhere (stagedPath name) lockPath := by
  refine ⟨by decide, by decide, ?_, ?_⟩
  · rintro ⟨pid, stamp, heq⟩
    have hlist := congrArg (fun path : Path => path.head?.map fun name => name.toList.take 2) heq
    simp [lockPath, tmpPath] at hlist
  · intro heq
    cases heq

theorem isStaging_stagingName (stamp : Nat) : isStaging (stagingName stamp) = true := by
  unfold isStaging stagingName
  rw [String.toList_append]
  exact List.isPrefixOf_iff_prefix.mpr (List.prefix_append _ _)

/-! ## The invariant -/

/-- The lock is there to be taken. -/
def LockMade (files : Files Path) : Prop := ∃ data, files.Holds lockPath data

theorem LockMade.of_lookup {files files' : Files Path} (h : LockMade files)
    (heq : files'.lookup lockPath = files.lookup lockPath) : LockMade files' := by
  obtain ⟨data, hdata⟩ := h
  exact ⟨data, hdata.congr heq⟩

theorem mem_staged {home : CodexHome} {name : String} :
    name ∈ home.staged ↔ isStaging name = true ∧
      ((home.dirs.lookup name).isSome = true ∨ (home.files.lookup [name]).isSome = true) := by
  unfold CodexHome.staged
  rw [List.mem_filter, and_comm, List.mem_append, List.mem_filterMap, AList.lookup_isSome,
    AList.lookup_isSome]
  refine and_congr_right fun _ => or_congr Iff.rfl ?_
  constructor
  · rintro ⟨path, hmem, heq⟩
    split at heq
    · cases heq
      exact hmem
    · cases heq
  · intro hmem
    exact ⟨[name], hmem, rfl⟩

/-- What a step of a login that goes through is to its install. -/
def Stage.proceedAct (home : CodexHome) (draw : Draw) : Stage → Option Act
  | syncLogin name => some (.start name)
  | install _ _ => some (.proceed draw)
  | removeStaging name _ => if (home.beneath name).isSome then some (.stage name none) else none
  | _ => none

/-- What one that fails is. -/
def Stage.failAct : Stage → Option Act
  | install _ _ => some .fail
  | _ => none

/-- What the device login's writing is. -/
def Stage.stageAct (entry : Files.Entry Path) : Stage → Option Act
  | deviceLogin name => some (.stage name (some entry))
  | _ => none

/-- What an event is to the install of a process, if it is that process's. -/
def installAct (pid : Nat) (event : CodexHome × HomeAct) : Option Act :=
  if event.2.pid = pid then
    ((event.1.processes.lookup pid).map Process.stage).bind fun stage => match event.2 with
      | .proceed _ turn => stage.proceedAct event.1 turn.draw
      | .fail _ => stage.failAct
      | .stage _ entry => stage.stageAct entry
      | .spawn _ _ | .kill _ | .refresh _ _ => none
  else none

theorem installAct_of_ne {home : CodexHome} {act : HomeAct} {pid : Nat} (h : act.pid ≠ pid) :
    installAct pid (home, act) = none :=
  if_neg h

theorem installAct_of_lookup {home : CodexHome} (act : HomeAct) {process : Process}
    (h : home.processes.lookup act.pid = some process) :
    installAct act.pid (home, act) = match act with
      | .proceed _ turn => process.stage.proceedAct home turn.draw
      | .fail _ => process.stage.failAct
      | .stage _ entry => process.stage.stageAct entry
      | .spawn _ _ | .kill _ | .refresh _ _ => none := by
  unfold installAct
  rw [if_pos rfl]
  dsimp only
  rw [h]
  cases act <;> rfl

theorem installAct_of_lookup_none {home : CodexHome} {act : HomeAct}
    (h : home.processes.lookup act.pid = none) : installAct act.pid (home, act) = none := by
  unfold installAct
  rw [if_pos rfl]
  dsimp only
  rw [h]
  rfl

variable (fromSlice uid dir) in
/-- Right after `before` the process makes its staging directory, and it has not ended since. -/
structure StagesSince (files : Files Path) (dirs : Assoc String Nat) (acts : List HomeAct)
    (pid : Nat) (name : String) (before : List HomeAct) : Prop where
  creating : (((processes fromSlice uid dir files dirs).run before).processes.lookup pid).map
    Process.stage = some .createStaging
  made : ∃ turn, before ++ [.proceed pid turn] <+: acts
  since : ∀ later, later <+: acts → before.length < later.length →
    ((((processes fromSlice uid dir files dirs).run later).processes.lookup pid).map
      Process.stage).bind Stage.staging = some name

variable (fromSlice uid dir) in
/-- A login by itself: since it made its staging directory the files are those of a run of
`installs`, of its own acts. -/
structure Alone (files : Files Path) (dirs : Assoc String Nat) (acts : List HomeAct)
    (home : CodexHome) (pid : Nat) (stage : Stage) (name : String) : Prop where
  named : isStaging name = true
  /-- There is nothing in its staging directory but what is staged. -/
  only : ∀ path, (home.files.lookup path).isSome = true → path.head? = some name →
    path = stagedPath name
  installs : ∃ before, StagesSince fromSlice uid dir files dirs acts pid name before ∧
    (installs fromSlice uid ((processes fromSlice uid dir files dirs).run before).files).run
        ((((processes fromSlice uid dir files dirs).trace acts).drop before.length).filterMap
          (installAct pid)) =
      ⟨home.files, stage.installing⟩

variable (fromSlice uid dir) in
/-- One process at most is past the lock, and a login that is has the files to itself. -/
structure Sole (files : Files Path) (dirs : Assoc String Nat) (acts : List HomeAct)
    (home : CodexHome) : Prop where
  past : ∀ pid process, home.processes.lookup pid = some process → process.stage.held = true →
    home.locked = some pid
  holder : ∀ pid, home.locked = some pid →
    ∃ process, home.processes.lookup pid = some process ∧ process.stage.held = true
  opened : ∀ pid process, home.processes.lookup pid = some process →
    process.stage.opened = true → LockMade home.files
  stale : ∀ pid process, home.processes.lookup pid = some process →
    ∀ name ∈ process.stage.stale, isStaging name = true
  swept : ∀ pid process, home.processes.lookup pid = some process → process.stage.swept = true →
    ∀ name ∈ home.staged, process.stage.staging = some name ∨ name ∈ process.stage.stale
  alone : ∀ pid process name, home.processes.lookup pid = some process →
    process.stage.staging = some name →
    Alone fromSlice uid dir files dirs acts home pid process.stage name

/-- What a process has of it. -/
structure Own (home : CodexHome) (stage : Stage) : Prop where
  opened : stage.opened = true → LockMade home.files
  stale : ∀ name ∈ stage.stale, isStaging name = true
  swept : stage.swept = true →
    ∀ name ∈ home.staged, stage.staging = some name ∨ name ∈ stage.stale

theorem Stage.held_of_staging {stage : Stage} {name : String} (h : stage.staging = some name) :
    stage.held = true := by
  cases stage <;> first | rfl | cases h

theorem Stage.held_of_swept {stage : Stage} (h : stage.swept = true) : stage.held = true := by
  cases stage <;> first | rfl | cases h

theorem Stage.opened_of_held {stage : Stage} (h : stage.held = true) : stage.opened = true := by
  cases stage <;> first | rfl | cases h

theorem Sole.own {files : Files Path} {dirs : Assoc String Nat} {acts : List HomeAct}
    {home : CodexHome} (h : Sole fromSlice uid dir files dirs acts home) {pid : Nat}
    {process : Process} (hp : home.processes.lookup pid = some process) :
    Own home process.stage :=
  ⟨h.opened pid process hp, h.stale pid process hp, h.swept pid process hp⟩

/-- An install under way is in order. -/
theorem Alone.inOrder {files : Files Path} {dirs : Assoc String Nat} {acts : List HomeAct}
    {home : CodexHome} {pid : Nat} {name : String} {phase : Phase}
    (h : Alone fromSlice uid dir files dirs acts home pid (.install name phase) name) :
    InOrder home.files (stagedPath name) phase := by
  obtain ⟨before, -, hrun⟩ := h.installs
  have hunder := underway_run fromSlice uid ((processes fromSlice uid dir files dirs).run before).files
    ((((processes fromSlice uid dir files dirs).trace acts).drop before.length).filterMap
      (installAct pid)) ⟨stagedPath name, phase⟩ (by rw [hrun]; rfl)
  have horder := hunder.inOrder
  rw [hrun] at horder
  exact horder

/-! ## What a step of one process may do -/

/-- What the step of a process that is not past the lock leaves alone, and any step the lock. -/
structure Spares (home home' : CodexHome) (stage : Stage) : Prop where
  dirs : stage.held = false → home'.dirs = home.dirs
  files : stage.held = false → home'.files = home.files ∨ ¬ LockMade home.files
  keeps : LockMade home.files → LockMade home'.files

/-- A process goes on. -/
structure GoesOn (home home' : CodexHome) (pid : Nat) (stage stage' : Stage) : Prop extends
    Spares home home' stage where
  others : ∀ other, other ≠ pid →
    home'.processes.lookup other = home.processes.lookup other
  own : (home'.processes.lookup pid).map Process.stage = some stage'
  locked : (home'.locked = home.locked ∧ stage'.held = stage.held) ∨
    (home.locked = none ∧ home'.locked = some pid ∧ stage.held = false ∧ stage'.held = true)

/-- A process ends. -/
structure Ends (home home' : CodexHome) (pid : Nat) (stage : Stage) : Prop extends
    Spares home home' stage where
  others : ∀ other, other ≠ pid →
    home'.processes.lookup other = home.processes.lookup other
  own : home'.processes.lookup pid = none
  locked : home'.locked = if home.locked = some pid then none else home.locked

section Moves

variable {files : Files Path} {dirs : Assoc String Nat} {acts : List HomeAct} {act : HomeAct}
  {home home' : CodexHome} {pid : Nat} {stage stage' : Stage} {name : String}

/-- A process that still has its staging directory has it since as long. -/
theorem StagesSince.concat {before : List HomeAct}
    (h : StagesSince fromSlice uid dir files dirs acts pid name before)
    (hnow : ((((processes fromSlice uid dir files dirs).run (acts ++ [act])).processes.lookup
      pid).map Process.stage).bind Stage.staging = some name) :
    StagesSince fromSlice uid dir files dirs (acts ++ [act]) pid name before := by
  obtain ⟨turn, hturn⟩ := h.made
  refine ⟨h.creating, ⟨turn, hturn.trans (List.prefix_append _ _)⟩, ?_⟩
  intro later hlater hlength
  rcases List.prefix_concat_iff.mp hlater with rfl | hlater
  · exact hnow
  · exact h.since later hlater hlength

/-- The process is at a stage after an act, which is the last so far. -/
structure At (fromSlice : Bytes → Option Value) (uid : Nat) (dir : DirMeta) (files : Files Path)
    (dirs : Assoc String Nat) (acts : List HomeAct) (home : CodexHome) (pid : Nat)
    (stage : Stage) : Prop where
  run : home = (processes fromSlice uid dir files dirs).run acts
  stage : (home.processes.lookup pid).map Process.stage = some stage

/-- What an act is to the install extends its run. -/
theorem Alone.extend (h : Alone fromSlice uid dir files dirs acts home pid stage name)
    (hhome : home = (processes fromSlice uid dir files dirs).run acts)
    (hat : At fromSlice uid dir files dirs (acts ++ [act]) home' pid stage')
    (hstaging : stage'.staging = some name)
    (honly : ∀ path, (home'.files.lookup path).isSome = true → path.head? = some name →
      path = stagedPath name)
    (hstep : (installAct pid (home, act)).elim ⟨home.files, stage.installing⟩
        (fun act => (Home.step fromSlice uid ⟨home.files, stage.installing⟩ act).1) =
      ⟨home'.files, stage'.installing⟩) :
    Alone fromSlice uid dir files dirs (acts ++ [act]) home' pid stage' name := by
  obtain ⟨before, hsince, hrun⟩ := h.installs
  have hnow : ((((processes fromSlice uid dir files dirs).run (acts ++ [act])).processes.lookup
      pid).map Process.stage).bind Stage.staging = some name := by
    rw [← hat.run, hat.stage]
    exact hstaging
  refine ⟨h.named, honly, before, hsince.concat hnow, ?_⟩
  have hlength : before.length ≤ ((processes fromSlice uid dir files dirs).trace acts).length := by
    have hmap := congrArg List.length ((processes fromSlice uid dir files dirs).map_snd_trace acts)
    rw [List.length_map] at hmap
    rw [hmap]
    obtain ⟨turn, hturn⟩ := hsince.made
    exact ((List.prefix_append _ _).trans hturn).length_le
  rw [Mealy.trace_concat, List.drop_append_of_le_length hlength, List.filterMap_append, ← hhome]
  cases hact : installAct pid (home, act) with
  | none =>
      rw [hact] at hstep
      rw [List.filterMap_cons_none hact, List.filterMap_nil, List.append_nil, hrun]
      exact hstep
  | some install =>
      rw [hact] at hstep
      rw [List.filterMap_cons_some hact, List.filterMap_nil, Mealy.run_concat, hrun]
      exact hstep

/-- Another process is at its step, and the files stay. -/
theorem Alone.other (h : Alone fromSlice uid dir files dirs acts home pid stage name)
    (hhome : home = (processes fromSlice uid dir files dirs).run acts)
    (hat : At fromSlice uid dir files dirs (acts ++ [act]) home' pid stage)
    (hstaging : stage.staging = some name)
    (hfiles : home'.files = home.files) (hact : installAct pid (home, act) = none) :
    Alone fromSlice uid dir files dirs (acts ++ [act]) home' pid stage name := by
  apply h.extend hhome hat hstaging
  · rw [hfiles]
    exact h.only
  · rw [hact, hfiles]
    rfl

/-- What another process may have done to the files, while one is past the lock. -/
theorem Sole.files_eq (h : Sole fromSlice uid dir files dirs acts home)
    (hspares : Spares home home' stage) (hpid : stage.held = true → home.locked = some pid)
    {other : Nat} {process : Process} (hother : home.processes.lookup other = some process)
    (hheld : process.stage.held = true) (hne : other ≠ pid) :
    stage.held = false ∧ home'.dirs = home.dirs ∧ home'.files = home.files := by
  have hlocked := h.past other process hother hheld
  have hnot : stage.held = false := by
    cases hstage : stage.held with
    | false => rfl
    | true =>
        have hsame := hpid hstage
        rw [hlocked] at hsame
        exact absurd (Option.some.inj hsame) hne
  have hmade := h.opened other process hother (Stage.opened_of_held hheld)
  exact ⟨hnot, hspares.dirs hnot, (hspares.files hnot).resolve_right (not_not.mpr hmade)⟩

/-- What holds of another process still does. -/
theorem Sole.other (h : Sole fromSlice uid dir files dirs acts home)
    (hhome : home = (processes fromSlice uid dir files dirs).run acts)
    (hhome' : home' = (processes fromSlice uid dir files dirs).run (acts ++ [act]))
    (hspares : Spares home home' stage) (hpid : stage.held = true → home.locked = some pid)
    (hact : act.pid = pid) {other : Nat} {process : Process}
    (hother : home.processes.lookup other = some process)
    (hother' : home'.processes.lookup other = some process) (hne : other ≠ pid) :
    Own home' process.stage ∧ ∀ name, process.stage.staging = some name →
      Alone fromSlice uid dir files dirs (acts ++ [act]) home' other process.stage name := by
  refine ⟨⟨?_, h.stale other process hother, ?_⟩, ?_⟩
  · intro hopened
    exact hspares.keeps (h.opened other process hother hopened)
  · intro hswept name hname
    obtain ⟨-, hdirs, hfiles⟩ :=
      h.files_eq hspares hpid hother (Stage.held_of_swept hswept) hne
    apply h.swept other process hother hswept name
    rw [mem_staged] at hname ⊢
    rwa [hdirs, hfiles] at hname
  · intro name hstaging
    obtain ⟨-, -, hfiles⟩ :=
      h.files_eq hspares hpid hother (Stage.held_of_staging hstaging) hne
    have hat : At fromSlice uid dir files dirs (acts ++ [act]) home' other process.stage :=
      ⟨hhome', congrArg (Option.map Process.stage) hother'⟩
    exact (h.alone other process name hother hstaging).other hhome hat hstaging hfiles
      (installAct_of_ne (hact.trans_ne hne.symm))

/-- **Step**, of a process that goes on: `Sole` is kept. -/
theorem Sole.goesOn (h : Sole fromSlice uid dir files dirs acts home)
    (hhome : home = (processes fromSlice uid dir files dirs).run acts)
    (hhome' : home' = (processes fromSlice uid dir files dirs).run (acts ++ [act]))
    (hp : ∀ process, home.processes.lookup pid = some process → process.stage = stage)
    (hpid : stage.held = true → home.locked = some pid)
    (hgoes : GoesOn home home' pid stage stage') (hact : act.pid = pid) (hown : Own home' stage')
    (halone : ∀ name, stage'.staging = some name →
      Alone fromSlice uid dir files dirs (acts ++ [act]) home' pid stage' name) :
    Sole fromSlice uid dir files dirs (acts ++ [act]) home' := by
  obtain ⟨process', hprocess', rfl⟩ := Option.map_eq_some_iff.mp hgoes.own
  -- every process is this one, or as it was
  have hcases : ∀ other process₁, home'.processes.lookup other = some process₁ →
      (other = pid ∧ process₁ = process') ∨
        (other ≠ pid ∧ home.processes.lookup other = some process₁) := by
    intro other process₁ hother
    by_cases heq : other = pid
    · subst heq
      rw [hprocess'] at hother
      exact .inl ⟨rfl, (Option.some.inj hother).symm⟩
    · rw [hgoes.others other heq] at hother
      exact .inr ⟨heq, hother⟩
  refine ⟨?_, ?_, ?_, ?_, ?_, ?_⟩
  · intro other process₁ hother hheld
    rcases hcases other process₁ hother with ⟨rfl, rfl⟩ | ⟨hne, hother⟩
    · rcases hgoes.locked with ⟨hsame, hstays⟩ | ⟨-, htaken, -, -⟩
      · rw [hsame]
        exact hpid (hstays ▸ hheld)
      · exact htaken
    · have hlocked := h.past other process₁ hother hheld
      rcases hgoes.locked with ⟨hsame, -⟩ | ⟨hfree, -, -, -⟩
      · rw [hsame]
        exact hlocked
      · rw [hfree] at hlocked
        cases hlocked
  · intro other hother
    rcases hgoes.locked with ⟨hsame, hstays⟩ | ⟨-, htaken, -, hheld⟩
    · rw [hsame] at hother
      obtain ⟨process₁, hprocess₁, hheld⟩ := h.holder other hother
      by_cases heq : other = pid
      · subst heq
        rw [hp process₁ hprocess₁] at hheld
        exact ⟨process', hprocess', hstays.trans hheld⟩
      · exact ⟨process₁, (hgoes.others other heq).trans hprocess₁, hheld⟩
    · rw [htaken] at hother
      cases hother
      exact ⟨process', hprocess', hheld⟩
  · intro other process₁ hother
    rcases hcases other process₁ hother with ⟨rfl, rfl⟩ | ⟨hne, hbefore⟩
    · exact hown.opened
    · exact (h.other hhome hhome' hgoes.toSpares hpid hact hbefore hother hne).1.opened
  · intro other process₁ hother
    rcases hcases other process₁ hother with ⟨rfl, rfl⟩ | ⟨hne, hother⟩
    · exact hown.stale
    · exact h.stale other process₁ hother
  · intro other process₁ hother
    rcases hcases other process₁ hother with ⟨rfl, rfl⟩ | ⟨hne, hbefore⟩
    · exact hown.swept
    · exact (h.other hhome hhome' hgoes.toSpares hpid hact hbefore hother hne).1.swept
  · intro other process₁ name hother
    rcases hcases other process₁ hother with ⟨rfl, rfl⟩ | ⟨hne, hbefore⟩
    · exact halone name
    · exact (h.other hhome hhome' hgoes.toSpares hpid hact hbefore hother hne).2 name

/-- **Step**, of a process that ends: `Sole` is kept without it. -/
theorem Sole.ends (h : Sole fromSlice uid dir files dirs acts home)
    (hhome : home = (processes fromSlice uid dir files dirs).run acts)
    (hhome' : home' = (processes fromSlice uid dir files dirs).run (acts ++ [act]))
    (hends : Ends home home' pid stage) (hpid : stage.held = true → home.locked = some pid)
    (hact : act.pid = pid) :
    Sole fromSlice uid dir files dirs (acts ++ [act]) home' := by
  have hcases : ∀ other process, home'.processes.lookup other = some process →
      other ≠ pid ∧ home.processes.lookup other = some process := by
    intro other process hother
    have hne : other ≠ pid := by
      rintro rfl
      rw [hends.own] at hother
      cases hother
    exact ⟨hne, (hends.others other hne).symm.trans hother⟩
  refine ⟨?_, ?_, ?_, ?_, ?_, ?_⟩
  · intro other process hother hheld
    obtain ⟨hne, hother⟩ := hcases other process hother
    have hlocked := h.past other process hother hheld
    rw [hends.locked, hlocked, if_neg]
    intro heq
    exact hne (Option.some.inj heq)
  · intro other hother
    rw [hends.locked] at hother
    split at hother
    · cases hother
    · next hkept =>
        obtain ⟨process, hprocess, hheld⟩ := h.holder other hother
        have hne : other ≠ pid := by
          rintro rfl
          exact hkept hother
        exact ⟨process, (hends.others other hne).trans hprocess, hheld⟩
  · intro other process hother
    obtain ⟨hne, hbefore⟩ := hcases other process hother
    exact (h.other hhome hhome' hends.toSpares hpid hact hbefore hother hne).1.opened
  · intro other process hother
    exact h.stale other process (hcases other process hother).2
  · intro other process hother
    obtain ⟨hne, hbefore⟩ := hcases other process hother
    exact (h.other hhome hhome' hends.toSpares hpid hact hbefore hother hne).1.swept
  · intro other process name hother
    obtain ⟨hne, hbefore⟩ := hcases other process hother
    exact (h.other hhome hhome' hends.toSpares hpid hact hbefore hother hne).2 name

end Moves

/-! ## What each step does -/

/-- What a step comes to, for the invariant. -/
def Turned (home : CodexHome) (pid : Nat) (stage : Stage) : After → Prop
  | .go home' stage' =>
      Spares home home' stage ∧ home'.processes = home.processes ∧
        ((home'.locked = home.locked ∧ stage'.held = stage.held) ∨
          (home.locked = none ∧ home'.locked = some pid ∧ stage.held = false ∧
            stage'.held = true)) ∧
        Own home' stage'
  | .ended home' _ =>
      Spares home home' stage ∧ home'.processes = home.processes ∧ home'.locked = home.locked

section Turns

variable {home home' : CodexHome} {pid : Nat} {program : Program} {stage stage' : Stage}

theorem Spares.refl (home : CodexHome) (stage : Stage) : Spares home home stage :=
  ⟨fun _ => rfl, fun _ => .inl rfl, id⟩

/-- A process past the lock may change all but the lock. -/
theorem Spares.of_held (hheld : stage.held = true)
    (hlock : LockMade home.files → LockMade home'.files) : Spares home home' stage := by
  refine ⟨?_, ?_, hlock⟩
  · intro hnot
    rw [hheld] at hnot
    cases hnot
  · intro hnot
    rw [hheld] at hnot
    cases hnot

theorem turned_ended (home : CodexHome) (pid : Nat) (stage : Stage)
    (result : Except HomeError Unit) : Turned home pid stage (.ended home result) :=
  ⟨.refl home stage, rfl, rfl⟩

/-- A step that only looks. -/
theorem turned_looking (hown : Own home stage) (hheld : stage'.held = stage.held)
    (hopened : stage'.opened = true → stage.opened = true)
    (hstaging : stage'.staging = stage.staging) (hstale : stage'.stale = stage.stale)
    (hswept : stage'.swept = true → stage.swept = true) :
    Turned home pid stage (.go home stage') := by
  refine ⟨.refl home stage, rfl, .inl ⟨rfl, hheld⟩, ?_, ?_, ?_⟩
  · intro h
    exact hown.opened (hopened h)
  · rw [hstale]
    exact hown.stale
  · rw [hstaging, hstale]
    intro h
    exact hown.swept (hswept h)

theorem turned_secured (hown : Own home stage) (hheld : stage'.held = stage.held)
    (hopened : stage'.opened = true → stage.opened = true)
    (hstaging : stage'.staging = stage.staging) (hstale : stage'.stale = stage.stale)
    (hswept : stage'.swept = true → stage.swept = true) :
    Turned home pid stage (secured uid dir home stage') := by
  unfold secured
  split
  · exact turned_looking hown hheld hopened hstaging hstale hswept
  · exact turned_ended home pid stage _

theorem turned_validated (hown : Own home stage) (hheld : stage.held = true)
    (hstaging : stage.staging = none) (hstale : stage.stale = []) (hswept : stage.swept = true) :
    Turned home pid stage (.go home program.validated) := by
  have hopened := Stage.opened_of_held hheld
  cases program with
  | serve =>
      exact turned_looking hown hheld.symm (fun _ => hopened) hstaging.symm hstale.symm fun _ => hswept
  | login =>
      exact turned_looking hown hheld.symm (fun _ => hopened) hstaging.symm hstale.symm fun _ => hswept

/-- Files that are erased are none of those that are left. -/
theorem mem_staged_of_erase {path : Path} {name : String}
    (h : name ∈ ({ home with files := home.files.erase path } : CodexHome).staged) :
    name ∈ home.staged := by
  rw [mem_staged] at h ⊢
  refine ⟨h.1, h.2.imp_right fun hfile => ?_⟩
  rw [Assoc.lookup_erase_eq] at hfile
  split at hfile
  · cases hfile
  · exact hfile

theorem head_of_beneath {name : String} {path : Path} (h : home.beneath name = some path) :
    path.head? = some name := by
  have hfound := List.find?_some h
  exact of_decide_eq_true hfound

/-- Nothing is at or beneath a directory that is found empty. -/
theorem lookup_of_beneath {name : String} (h : home.beneath name = none) {path : Path}
    (hpath : path.head? = some name) : home.files.lookup path = none := by
  have hnot := List.find?_eq_none.mp h path
  rw [AList.lookup_eq_none]
  intro hmem
  exact hnot hmem (decide_eq_true hpath)

/-- The lock is not what is cleared away. -/
theorem lockMade_erase {name : String} (hname : isStaging name = true) {path : Path}
    (hpath : path.head? = some name) (h : LockMade home.files) :
    LockMade (home.files.erase path) := by
  apply h.of_lookup
  apply Files.onlyAt_erase home.files path lockPath
  rintro rfl
  cases hpath
  revert hname
  decide

theorem turned_proceed (hown : Own home stage)
    (horder : ∀ name phase, stage = .install name phase →
      InOrder home.files (stagedPath name) phase)
    (hnamed : ∀ name, stage.staging = some name → isStaging name = true) (turn : Turn) :
    Turned home pid stage (stage.proceed fromSlice uid dir pid program turn home) := by
  cases stage with
  | secureDir => exact turned_secured hown rfl id rfl rfl id
  | secureHome => exact turned_secured hown rfl id rfl rfl id
  | checkLock =>
      rw [Stage.proceed]
      split
      · exact turned_looking hown rfl id rfl rfl id
      · split
        · exact turned_looking hown rfl id rfl rfl id
        · exact turned_ended home pid _ _
  | openLock =>
      rw [Stage.proceed]
      split
      · next hnone =>
          -- the lock is made, by a process that is not past it
          have hnot : ¬ LockMade home.files := by
            rintro ⟨data, owner, mode, hlookup⟩
            rw [hnone] at hlookup
            cases hlookup
          refine ⟨⟨fun _ => rfl, fun _ => .inr hnot, fun h => absurd h hnot⟩, rfl, .inl ⟨rfl, rfl⟩,
            ?_, nofun, nofun⟩
          intro _
          exact ⟨[], uid, 0o600, AList.lookup_insert _⟩
      · next data owner mode hlookup =>
          refine ⟨.refl home _, rfl, .inl ⟨rfl, rfl⟩, ?_, nofun, nofun⟩
          intro _
          exact ⟨data, owner, mode, hlookup⟩
      · exact turned_ended home pid _ _
  | statLock =>
      rw [Stage.proceed]
      split
      · exact turned_looking hown rfl id rfl rfl id
      · exact turned_ended home pid _ _
  | tryLock =>
      rw [Stage.proceed]
      split
      · next hfree =>
          exact ⟨⟨fun _ => rfl, fun _ => .inl rfl, id⟩, rfl, .inr ⟨hfree, rfl, rfl, rfl⟩,
            hown.opened, nofun, nofun⟩
      · exact turned_ended home pid _ _
  | listStaging =>
      rw [Stage.proceed]
      split
      · next hperm =>
          refine ⟨.refl home _, rfl, .inl ⟨rfl, rfl⟩, hown.opened, ?_, ?_⟩
          · intro name hname
            exact (mem_staged.mp (hperm.mem_iff.mp hname)).1
          · intro _ name hname
            exact .inr (hperm.mem_iff.mpr hname)
      · exact turned_looking hown rfl id rfl rfl id
  | checkStaging todo =>
      cases todo with
      | nil => exact turned_looking hown rfl id rfl rfl id
      | cons name todo =>
          rw [Stage.proceed]
          split
          · exact turned_looking hown rfl id rfl rfl id
          · exact turned_ended home pid _ _
  | removeStale name todo =>
      have hname := hown.stale name List.mem_cons_self
      rw [Stage.proceed]
      split
      · next path hpath =>
          have hkeeps := fun h : LockMade home.files => lockMade_erase hname (head_of_beneath hpath) h
          refine ⟨.of_held rfl hkeeps, rfl, .inl ⟨rfl, rfl⟩, fun h => hkeeps (hown.opened h),
            hown.stale, ?_⟩
          intro hswept other hother
          exact hown.swept hswept other (mem_staged_of_erase hother)
      · next hnone =>
          refine ⟨.of_held rfl id, rfl, .inl ⟨rfl, rfl⟩, hown.opened,
            fun other hother => hown.stale other (List.mem_cons_of_mem _ hother), ?_⟩
          intro _ other hother
          right
          -- the directory that was removed is not there any more
          rw [mem_staged] at hother
          have hne : other ≠ name := by
            rintro rfl
            rcases hother.2 with hdir | hfile
            · rw [AList.lookup_erase] at hdir
              cases hdir
            · rw [show home.files.lookup [other] = none from lookup_of_beneath hnone rfl] at hfile
              cases hfile
          have hbefore : other ∈ home.staged := by
            rw [mem_staged]
            refine ⟨hother.1, hother.2.imp_left fun hdir => ?_⟩
            rwa [Assoc.lookup_erase_eq, if_neg hne] at hdir
          rcases hown.swept rfl other hbefore with hstaging | hstale
          · cases hstaging
          · exact (List.mem_cons.mp hstale).resolve_left hne
  | secureAgain => exact turned_secured hown rfl id rfl rfl id
  | checkAuth =>
      rw [Stage.proceed]
      split
      · exact turned_validated hown rfl rfl rfl rfl
      · split
        · exact turned_looking hown rfl id rfl rfl id
        · exact turned_ended home pid _ _
  | readAuth =>
      rw [Stage.proceed]
      split
      · exact turned_ended home pid _ _
      · split
        · exact turned_validated hown rfl rfl rfl rfl
        · exact turned_ended home pid _ _
  | serving => exact turned_looking hown rfl id rfl rfl id
  | createStaging =>
      rw [Stage.proceed]
      split
      · exact turned_ended home pid _ _
      · refine ⟨.of_held rfl id, rfl, .inl ⟨rfl, rfl⟩, hown.opened, nofun, ?_⟩
        intro _ name hname
        left
        rw [mem_staged] at hname
        by_cases heq : name = stagingName turn.draw.stamp
        · rw [heq]
          rfl
        · have hbefore : name ∈ home.staged := by
            rw [mem_staged]
            refine ⟨hname.1, hname.2.imp_left fun hdir => ?_⟩
            rwa [Assoc.lookup_insert_eq, if_neg heq] at hdir
          rcases hown.swept rfl name hbefore with hstaging | hstale
          · cases hstaging
          · cases hstale
  | chmodStaging name => exact turned_looking hown rfl id rfl rfl id
  | deviceLogin name => exact turned_looking hown rfl id rfl rfl id
  | readLogin name =>
      rw [Stage.proceed]
      split
      · exact turned_looking hown rfl id rfl rfl id
      · split
        · exact turned_looking hown rfl id rfl rfl id
        · exact turned_looking hown rfl id rfl rfl id
  | syncLogin name => exact turned_looking hown rfl id rfl rfl id
  | install name phase =>
      have hinstall : ∀ next, proceed fromSlice uid home.files (stagedPath name) turn.draw phase =
          next → ∀ stage', stage'.held = true → stage'.staging = some name → stage'.stale = [] →
          Turned home pid (.install name phase)
            (.go { home with files := next.files } stage') := by
        rintro next rfl stage' hheld hstaging hstale
        have hlock : (proceed fromSlice uid home.files (stagedPath name) turn.draw
            phase).files.lookup lockPath = home.files.lookup lockPath :=
          lookup_proceed (horder name phase rfl) (elsewhere_lockPath name) turn.draw
        have hkeeps : LockMade home.files → LockMade (proceed fromSlice uid home.files
            (stagedPath name) turn.draw phase).files := fun h => h.of_lookup hlock
        refine ⟨.of_held rfl hkeeps, rfl, .inl ⟨rfl, hheld⟩, fun _ => hkeeps (hown.opened rfl),
          by simp [hstale], ?_⟩
        intro _ other hother
        rw [hstaging, hstale]
        rw [mem_staged] at hother
        have hsingle : Elsewhere (stagedPath name) [other] :=
          elsewhere_of_head hother.1 rfl (by intro heq; cases heq)
        apply hown.swept rfl other
        rw [mem_staged]
        refine ⟨hother.1, hother.2.imp_right fun hfile => ?_⟩
        rwa [lookup_proceed (horder name phase rfl) hsingle turn.draw] at hfile
      rw [Stage.proceed]
      split
      · next files phase' hnext => exact hinstall _ hnext (.install name phase') rfl rfl rfl
      · next files result hnext => exact hinstall _ hnext (.removeStaging name _) rfl rfl rfl
  | removeStaging name result =>
      have hname := hnamed name rfl
      rw [Stage.proceed]
      split
      · next path hpath =>
          have hkeeps := fun h : LockMade home.files => lockMade_erase hname (head_of_beneath hpath) h
          refine ⟨.of_held rfl hkeeps, rfl, .inl ⟨rfl, rfl⟩, fun h => hkeeps (hown.opened h), nofun,
            ?_⟩
          intro hswept other hother
          exact hown.swept hswept other (mem_staged_of_erase hother)
      · exact ⟨.of_held rfl id, rfl, rfl⟩

theorem turned_failed (hown : Own home stage) :
    Turned home pid stage (stage.failed program home) := by
  cases stage with
  | checkLock => exact turned_looking hown rfl id rfl rfl id
  | checkAuth => exact turned_validated hown rfl rfl rfl rfl
  | deviceLogin name => exact turned_looking hown rfl id rfl rfl id
  | readLogin name => exact turned_looking hown rfl id rfl rfl id
  | syncLogin name => exact turned_looking hown rfl id rfl rfl id
  | install name phase =>
      have hfiles := files_failed home.files phase
      rw [Stage.failed]
      split
      · next files phase' hnext =>
          rw [hnext] at hfiles
          cases hfiles
          exact turned_looking hown rfl id rfl rfl id
      · next files result hnext =>
          rw [hnext] at hfiles
          cases hfiles
          exact turned_looking hown rfl id rfl rfl id
  | _ => exact turned_ended home pid _ _

end Turns

/-! ## A login by itself -/

section Logins

variable {files : Files Path} {dirs : Assoc String Nat} {acts : List HomeAct}
  {home home' : CodexHome} {pid : Nat} {program : Program} {stage stage' : Stage} {name : String}

/-- A login begins when it makes its staging directory. -/
theorem alone_createStaging (hhome : home = (processes fromSlice uid dir files dirs).run acts)
    {process : Process} (hp : home.processes.lookup pid = some process)
    (hstage : process.stage = .createStaging) (turn : Turn)
    (hempty : home.beneath name = none) (hname : isStaging name = true)
    (hat : At fromSlice uid dir files dirs (acts ++ [.proceed pid turn]) home' pid
      (.chmodStaging name))
    (hfiles : home'.files = home.files) :
    Alone fromSlice uid dir files dirs (acts ++ [.proceed pid turn]) home' pid
      (.chmodStaging name) name := by
  obtain ⟨program, stage⟩ := process
  cases hstage
  refine ⟨hname, ?_, acts, ⟨?_, ⟨turn, List.prefix_refl _⟩, ?_⟩, ?_⟩
  · intro path hpath hhead
    rw [hfiles, lookup_of_beneath hempty hhead] at hpath
    cases hpath
  · rw [← hhome, hp]
    rfl
  · intro later hlater hlength
    rcases List.prefix_concat_iff.mp hlater with rfl | hearlier
    · rw [← hat.run, hat.stage]
      rfl
    · exact absurd hearlier.length_le (Nat.not_le.mpr hlength)
  · have hlength : ((processes fromSlice uid dir files dirs).trace acts).length = acts.length := by
      have hmap :=
        congrArg List.length ((processes fromSlice uid dir files dirs).map_snd_trace acts)
      rwa [List.length_map] at hmap
    have hact : installAct pid (home, .proceed pid turn) = none :=
      installAct_of_lookup (.proceed pid turn) hp
    rw [Mealy.trace_concat, List.drop_append_of_le_length hlength.ge, ← hlength, List.drop_length,
      List.nil_append, ← hhome, List.filterMap_cons_none hact, List.filterMap_nil, hfiles]
    rfl

/-- The files stay, and no install is under way. -/
theorem Alone.of_files_eq (h : Alone fromSlice uid dir files dirs acts home pid stage name)
    (hhome : home = (processes fromSlice uid dir files dirs).run acts) {act : HomeAct}
    (hat : At fromSlice uid dir files dirs (acts ++ [act]) home' pid stage')
    (hstaging : stage'.staging = some name)
    (hact : installAct pid (home, act) = none) (hfiles : home'.files = home.files)
    (hinstalling : stage'.installing = stage.installing) :
    Alone fromSlice uid dir files dirs (acts ++ [act]) home' pid stage' name := by
  apply h.extend hhome hat hstaging
  · rw [hfiles]
    exact h.only
  · rw [hact, hfiles, hinstalling]
    rfl

/-- The install that is under way after a step of it. -/
def Next.installing (staged : Path) : Next → Option Install
  | go _ phase => some ⟨staged, phase⟩
  | done _ _ => none

/-- An install goes on or is over. -/
theorem Alone.after (h : Alone fromSlice uid dir files dirs acts home pid stage name)
    (hhome : home = (processes fromSlice uid dir files dirs).run acts) {act : HomeAct}
    {install : Act} {phase : Phase} {next : Next}
    (hat : At fromSlice uid dir files dirs (acts ++ [act]) home' pid stage')
    (hstaging : stage'.staging = some name)
    (hact : installAct pid (home, act) = some install)
    (hstage : stage = .install name phase)
    (hstep : Home.step fromSlice uid ⟨home.files, some ⟨stagedPath name, phase⟩⟩ install =
      Home.after ⟨home.files, some ⟨stagedPath name, phase⟩⟩ ⟨stagedPath name, phase⟩ next)
    (hkept : ∀ path, Elsewhere (stagedPath name) path →
      next.files.lookup path = home.files.lookup path)
    (hfiles : home'.files = next.files)
    (hinstalling : stage'.installing = next.installing (stagedPath name)) :
    Alone fromSlice uid dir files dirs (acts ++ [act]) home' pid stage' name := by
  subst hstage
  apply h.extend hhome hat hstaging
  · intro path hpath hhead
    by_contra hne
    rw [hfiles, hkept path (elsewhere_of_head h.named hhead hne)] at hpath
    exact hne (h.only path hpath hhead)
  · rw [hact, hfiles, hinstalling]
    show (Home.step fromSlice uid ⟨home.files, some ⟨stagedPath name, phase⟩⟩ install).1 = _
    rw [hstep]
    cases next <;> rfl

theorem staging_validated (program : Program) : program.validated.staging = none := by
  cases program <;> rfl

/-- A process without a staging directory makes one in one step alone. -/
theorem staging_proceed {turn : Turn} (hnone : stage.staging = none)
    (hne : stage ≠ .createStaging)
    (hgo : stage.proceed fromSlice uid dir pid program turn home = .go home' stage') :
    stage'.staging = none := by
  have hsecured : ∀ next : Stage, next.staging = none → secured uid dir home next = .go home' stage' →
      stage'.staging = none := by
    intro next hnext hgo
    unfold secured at hgo
    split at hgo
    · cases hgo
      exact hnext
    · cases hgo
  cases stage with
  | secureDir => exact hsecured _ rfl hgo
  | secureHome => exact hsecured _ rfl hgo
  | secureAgain => exact hsecured _ rfl hgo
  | createStaging => exact absurd rfl hne
  | chmodStaging name => cases hnone
  | deviceLogin name => cases hnone
  | readLogin name => cases hnone
  | syncLogin name => cases hnone
  | install name phase => cases hnone
  | removeStaging name result => cases hnone
  | serving =>
      cases hgo
      rfl
  | checkStaging todo =>
      cases todo with
      | nil =>
          cases hgo
          rfl
      | cons name todo =>
          rw [Stage.proceed] at hgo
          split at hgo <;> cases hgo
          rfl
  | checkAuth =>
      rw [Stage.proceed] at hgo
      split at hgo
      · cases hgo
        exact staging_validated program
      · split at hgo <;> cases hgo
        rfl
  | readAuth =>
      rw [Stage.proceed] at hgo
      split at hgo
      · cases hgo
      · split at hgo <;> cases hgo
        exact staging_validated program
  | checkLock =>
      rw [Stage.proceed] at hgo
      split at hgo
      · cases hgo
        rfl
      · split at hgo <;> cases hgo
        rfl
  | openLock =>
      rw [Stage.proceed] at hgo
      split at hgo <;> cases hgo <;> rfl
  | statLock =>
      rw [Stage.proceed] at hgo
      split at hgo <;> cases hgo
      rfl
  | tryLock =>
      rw [Stage.proceed] at hgo
      split at hgo <;> cases hgo
      rfl
  | listStaging =>
      rw [Stage.proceed] at hgo
      split at hgo <;> cases hgo <;> rfl
  | removeStale name todo =>
      rw [Stage.proceed] at hgo
      split at hgo <;> cases hgo <;> rfl

theorem alone_proceed (h : ∀ name, stage.staging = some name →
      Alone fromSlice uid dir files dirs acts home pid stage name)
    (hhome : home = (processes fromSlice uid dir files dirs).run acts)
    (hp : home.processes.lookup pid = some ⟨program, stage⟩) (turn : Turn)
    {home₁ : CodexHome}
    (hgo : stage.proceed fromSlice uid dir pid program turn home = .go home₁ stage')
    (hat : At fromSlice uid dir files dirs (acts ++ [.proceed pid turn]) home' pid stage')
    (hfiles : home'.files = home₁.files) (hname : stage'.staging = some name) :
    Alone fromSlice uid dir files dirs (acts ++ [.proceed pid turn]) home' pid stage' name := by
  have hact : installAct pid (home, .proceed pid turn) = stage.proceedAct home turn.draw :=
    installAct_of_lookup (.proceed pid turn) hp
  -- no other step makes a staging directory
  have hfrom : stage.staging = none → stage = .createStaging := by
    intro hnone
    by_contra hne
    have hstaging := staging_proceed hnone hne hgo
    rw [hname] at hstaging
    cases hstaging
  cases stage with
  | createStaging =>
      rw [Stage.proceed] at hgo
      split at hgo
      · cases hgo
      · next hfree =>
          cases hgo
          cases hname
          rw [Bool.or_eq_true, not_or] at hfree
          apply alone_createStaging hhome hp rfl turn
          · simpa using hfree.2
          · exact isStaging_stagingName _
          · exact hat
          · exact hfiles
  | chmodStaging staging =>
      cases hgo
      cases hname
      exact (h _ rfl).of_files_eq hhome hat rfl hact hfiles rfl
  | deviceLogin staging =>
      cases hgo
      cases hname
      exact (h _ rfl).of_files_eq hhome hat rfl hact hfiles rfl
  | readLogin staging =>
      rw [Stage.proceed] at hgo
      split at hgo
      · cases hgo
        cases hname
        exact (h _ rfl).of_files_eq hhome hat rfl hact hfiles rfl
      · split at hgo
        · cases hgo
          cases hname
          exact (h _ rfl).of_files_eq hhome hat rfl hact hfiles rfl
        · cases hgo
          cases hname
          exact (h _ rfl).of_files_eq hhome hat rfl hact hfiles rfl
  | syncLogin staging =>
      cases hgo
      cases hname
      apply (h _ rfl).extend hhome hat rfl
      · rw [hfiles]
        exact (h _ rfl).only
      · rw [hact, hfiles]
        rfl
  | install staging phase =>
      have hkept : ∀ path, Elsewhere (stagedPath staging) path →
          (proceed fromSlice uid home.files (stagedPath staging) turn.draw phase).files.lookup path =
            home.files.lookup path :=
        fun path hpath => lookup_proceed (h _ rfl).inOrder hpath turn.draw
      rw [Stage.proceed] at hgo
      split at hgo
      · next files' phase' hnext =>
          cases hgo
          cases hname
          apply (h _ rfl).after hhome hat rfl hact rfl rfl hkept
          · rw [hfiles, hnext]
            rfl
          · rw [hnext]
            rfl
      · next files' result hnext =>
          cases hgo
          cases hname
          apply (h _ rfl).after hhome hat rfl hact rfl rfl hkept
          · rw [hfiles, hnext]
            rfl
          · rw [hnext]
            rfl
  | removeStaging staging result =>
      rw [Stage.proceed] at hgo
      split at hgo
      · next path hpath =>
          cases hgo
          cases hname
          -- what is removed is what was staged
          have hstaged : path = stagedPath name := by
            refine (h _ rfl).only path ?_ (head_of_beneath hpath)
            exact AList.lookup_isSome.mpr (List.mem_of_find?_eq_some hpath)
          subst hstaged
          apply (h _ rfl).extend hhome hat rfl
          · intro path hsome hhead
            rw [hfiles, Assoc.lookup_erase_eq] at hsome
            split at hsome
            · cases hsome
            · exact (h _ rfl).only path hsome hhead
          · have hremoves : Stage.proceedAct home turn.draw (.removeStaging name result) =
                some (.stage name none) := by
              show (if (home.beneath name).isSome then some (Act.stage name none) else none) = _
              rw [hpath]
              rfl
            rw [hact, hremoves, hfiles]
            rfl
      · cases hgo
  | _ => cases hfrom rfl

theorem alone_failed (h : ∀ name, stage.staging = some name →
      Alone fromSlice uid dir files dirs acts home pid stage name)
    (hhome : home = (processes fromSlice uid dir files dirs).run acts)
    (hp : home.processes.lookup pid = some ⟨program, stage⟩) {home₁ : CodexHome}
    (hgo : stage.failed program home = .go home₁ stage')
    (hat : At fromSlice uid dir files dirs (acts ++ [.fail pid]) home' pid stage')
    (hfiles : home'.files = home₁.files) (hname : stage'.staging = some name) :
    Alone fromSlice uid dir files dirs (acts ++ [.fail pid]) home' pid stage' name := by
  have hact : installAct pid (home, .fail pid) = stage.failAct :=
    installAct_of_lookup (.fail pid) hp
  cases stage with
  | checkLock =>
      cases hgo
      cases hname
  | checkAuth =>
      cases hgo
      rw [staging_validated] at hname
      cases hname
  | deviceLogin staging =>
      cases hgo
      cases hname
      exact (h _ rfl).of_files_eq hhome hat rfl hact hfiles rfl
  | readLogin staging =>
      cases hgo
      cases hname
      exact (h _ rfl).of_files_eq hhome hat rfl hact hfiles rfl
  | syncLogin staging =>
      cases hgo
      cases hname
      exact (h _ rfl).of_files_eq hhome hat rfl hact hfiles rfl
  | install staging phase =>
      have hkept : ∀ path, Elsewhere (stagedPath staging) path →
          (failed home.files phase).files.lookup path = home.files.lookup path := by
        intro path _
        rw [files_failed]
      rw [Stage.failed] at hgo
      split at hgo
      · next files' phase' hnext =>
          cases hgo
          cases hname
          apply (h _ rfl).after hhome hat rfl hact rfl rfl hkept
          · rw [hfiles, hnext]
            rfl
          · rw [hnext]
            rfl
      · next files' result hnext =>
          cases hgo
          cases hname
          apply (h _ rfl).after hhome hat rfl hact rfl rfl hkept
          · rw [hfiles, hnext]
            rfl
          · rw [hnext]
            rfl
  | _ => cases hgo

end Logins

/-! ## Whole runs -/

section Runs

variable {files : Files Path} {dirs : Assoc String Nat} {acts : List HomeAct}
  {home : CodexHome} {pid : Nat} {program : Program} {stage : Stage}

/-- **Step**, of a process whose step comes to `after`. -/
theorem Sole.after (h : Sole fromSlice uid dir files dirs acts home)
    (hhome : home = (processes fromSlice uid dir files dirs).run acts)
    (hp : home.processes.lookup pid = some ⟨program, stage⟩) {after : After} {act : HomeAct}
    (hhome' : (CodexHome.after pid program after).1 =
      (processes fromSlice uid dir files dirs).run (acts ++ [act]))
    (hturned : Turned home pid stage after) (hact : act.pid = pid)
    (halone : ∀ home₁ stage', after = .go home₁ stage' → ∀ home' : CodexHome,
      At fromSlice uid dir files dirs (acts ++ [act]) home' pid stage' →
      home'.files = home₁.files → ∀ name, stage'.staging = some name →
      Alone fromSlice uid dir files dirs (acts ++ [act]) home' pid stage' name) :
    Sole fromSlice uid dir files dirs (acts ++ [act]) (CodexHome.after pid program after).1 := by
  cases after with
  | go home₁ stage' =>
      obtain ⟨hspares, hprocesses, hlocked, hown⟩ := hturned
      have hgoes : GoesOn home (CodexHome.after pid program (.go home₁ stage')).1 pid stage stage' := by
        refine ⟨⟨hspares.dirs, hspares.files, hspares.keeps⟩, ?_, ?_, hlocked⟩
        · intro other hne
          show (home₁.processes.insert pid _).lookup other = _
          rw [hprocesses, AList.lookup_insert_ne hne]
        · show ((home₁.processes.insert pid _).lookup pid).map Process.stage = _
          rw [AList.lookup_insert]
          rfl
      have hsame : ∀ process, home.processes.lookup pid = some process → process.stage = stage := by
        intro process hprocess
        rw [hp] at hprocess
        cases hprocess
        rfl
      apply h.goesOn hhome hhome' hsame (h.past pid _ hp) hgoes hact
      · exact ⟨hown.opened, hown.stale, hown.swept⟩
      · intro name hname
        exact halone home₁ stage' rfl (CodexHome.after pid program (.go home₁ stage')).1
          ⟨hhome', hgoes.own⟩ rfl name hname
  | ended home₁ result =>
      obtain ⟨hspares, hprocesses, hlocked⟩ := hturned
      have hends : Ends home (CodexHome.after pid program (.ended home₁ result)).1 pid stage := by
        refine ⟨⟨hspares.dirs, hspares.files, hspares.keeps⟩, ?_, ?_, ?_⟩
        · intro other hne
          show (home₁.processes.erase pid).lookup other = _
          rw [hprocesses, AList.lookup_erase_ne hne]
        · exact AList.lookup_erase _ _
        · show (if home₁.locked = some pid then none else home₁.locked) = _
          rw [hlocked]
      exact h.ends hhome hhome' hends (h.past pid _ hp) hact

/-- An act that changes nothing. -/
theorem Sole.idle (h : Sole fromSlice uid dir files dirs acts home)
    (hhome : home = (processes fromSlice uid dir files dirs).run acts) {act : HomeAct}
    (hhome' : home = (processes fromSlice uid dir files dirs).run (acts ++ [act]))
    (hact : installAct act.pid (home, act) = none) :
    Sole fromSlice uid dir files dirs (acts ++ [act]) home := by
  refine ⟨h.past, h.holder, h.opened, h.stale, h.swept, ?_⟩
  intro other process name hother hstaging
  have hat : At fromSlice uid dir files dirs (acts ++ [act]) home other process.stage :=
    ⟨hhome', congrArg (Option.map Process.stage) hother⟩
  apply (h.alone other process name hother hstaging).other hhome hat hstaging rfl
  by_cases hpid : act.pid = other
  · rwa [← hpid]
  · exact installAct_of_ne hpid

/-- The process past the lock has a file changed from outside. -/
theorem Sole.outside (h : Sole fromSlice uid dir files dirs acts home)
    (hhome : home = (processes fromSlice uid dir files dirs).run acts)
    (hp : home.processes.lookup pid = some ⟨program, stage⟩) (hheld : stage.held = true)
    {path : Path} (entry : Files.Entry Path) (hlock : path ≠ lockPath)
    (hsingle : ∀ name, isStaging name = true → path ≠ [name]) {act : HomeAct}
    (hhome' : { home with files := home.files.insert path entry } =
      (processes fromSlice uid dir files dirs).run (acts ++ [act])) (hact : act.pid = pid)
    (halone : ∀ name, stage.staging = some name →
      Alone fromSlice uid dir files dirs (acts ++ [act])
        { home with files := home.files.insert path entry } pid stage name) :
    Sole fromSlice uid dir files dirs (acts ++ [act])
      { home with files := home.files.insert path entry } := by
  have hkeeps : LockMade home.files → LockMade (home.files.insert path entry) :=
    fun hmade => hmade.of_lookup (Files.onlyAt_insert home.files path entry lockPath hlock.symm)
  have hown := h.own hp
  have hsame : ∀ process, home.processes.lookup pid = some process → process.stage = stage := by
    intro process hprocess
    rw [hp] at hprocess
    cases hprocess
    rfl
  have hgoes : GoesOn home { home with files := home.files.insert path entry } pid stage stage :=
    ⟨.of_held hheld hkeeps, fun _ _ => rfl, congrArg (Option.map Process.stage) hp,
      .inl ⟨rfl, rfl⟩⟩
  apply h.goesOn hhome hhome' hsame (h.past pid _ hp) hgoes hact
  · refine ⟨fun hopened => hkeeps (hown.opened hopened), hown.stale, ?_⟩
    intro hswept name hname
    apply hown.swept hswept name
    rw [mem_staged] at hname ⊢
    refine ⟨hname.1, hname.2.imp_right fun hfile => ?_⟩
    rwa [Files.onlyAt_insert home.files path entry [name] (hsingle name hname.1).symm] at hfile
  · exact halone

/-- A process that begins is not past the lock. -/
theorem Sole.spawned (h : Sole fromSlice uid dir files dirs acts home)
    (hhome : home = (processes fromSlice uid dir files dirs).run acts)
    (hhome' : { home with processes := home.processes.insert pid ⟨program, program.first⟩ } =
      (processes fromSlice uid dir files dirs).run (acts ++ [.spawn pid program]))
    (hnone : home.processes.lookup pid = none) :
    Sole fromSlice uid dir files dirs (acts ++ [.spawn pid program])
      { home with processes := home.processes.insert pid ⟨program, program.first⟩ } := by
  have hfirst : program.first.held = false ∧ program.first.opened = false ∧
      program.first.stale = [] ∧ program.first.swept = false ∧
      program.first.staging = none := by
    cases program <;> exact ⟨rfl, rfl, rfl, rfl, rfl⟩
  obtain ⟨hheld, hopened, hstale, hswept, hstaging⟩ := hfirst
  have hgoes : GoesOn home { home with
      processes := home.processes.insert pid ⟨program, program.first⟩ } pid
      program.first program.first := by
    refine ⟨⟨fun _ => rfl, fun _ => .inl rfl, id⟩, ?_, ?_, .inl ⟨rfl, rfl⟩⟩
    · intro other hne
      exact AList.lookup_insert_ne hne
    · show ((home.processes.insert pid _).lookup pid).map Process.stage = _
      rw [AList.lookup_insert]
      rfl
  apply h.goesOn hhome hhome' _ _ hgoes rfl
  · exact ⟨by simp [hopened], by simp [hstale], by simp [hswept]⟩
  · intro name hname
    rw [hstaging] at hname
    cases hname
  · intro process hprocess
    rw [hnone] at hprocess
    cases hprocess
  · intro hpast
    rw [hheld] at hpast
    cases hpast

/-- A process that is killed leaves the lock. -/
theorem Sole.killed (h : Sole fromSlice uid dir files dirs acts home)
    (hhome : home = (processes fromSlice uid dir files dirs).run acts)
    (hhome' : home.forget pid = (processes fromSlice uid dir files dirs).run (acts ++ [.kill pid])) :
    Sole fromSlice uid dir files dirs (acts ++ [.kill pid]) (home.forget pid) := by
  have hothers : ∀ other, other ≠ pid →
      (home.forget pid).processes.lookup other = home.processes.lookup other :=
    fun other hne => AList.lookup_erase_ne hne
  cases hp : home.processes.lookup pid with
  | none =>
      have hends : Ends home (home.forget pid) pid .secureDir :=
        ⟨⟨fun _ => rfl, fun _ => .inl rfl, id⟩, hothers, AList.lookup_erase _ _, rfl⟩
      exact h.ends hhome hhome' hends nofun rfl
  | some process =>
      have hends : Ends home (home.forget pid) pid process.stage :=
        ⟨⟨fun _ => rfl, fun _ => .inl rfl, id⟩, hothers, AList.lookup_erase _ _, rfl⟩
      exact h.ends hhome hhome' hends (h.past pid process hp) rfl

/-- **Step.** Whatever one process does next, the lock, the stages of the others and the home stay
as `Sole` says. -/
theorem Sole.step (h : Sole fromSlice uid dir files dirs acts home)
    (hhome : home = (processes fromSlice uid dir files dirs).run acts) (act : HomeAct) :
    Sole fromSlice uid dir files dirs (acts ++ [act]) (home.step fromSlice uid dir act).1 := by
  have hhome' : (home.step fromSlice uid dir act).1 =
      (processes fromSlice uid dir files dirs).run (acts ++ [act]) := by
    rw [Mealy.run_concat, ← hhome]
    rfl
  revert hhome'
  cases act with
  | spawn pid program =>
      rw [CodexHome.step]
      split
      · next process hp =>
          intro hhome'
          exact h.idle hhome hhome' (installAct_of_lookup (.spawn pid program) hp)
      · next hnone =>
          intro hhome'
          exact h.spawned hhome hhome' hnone
  | proceed pid turn =>
      rw [CodexHome.step]
      split
      · next program stage hp =>
          intro hhome'
          have halone := fun name => h.alone pid ⟨program, stage⟩ name hp
          refine h.after hhome hp hhome' ?_ rfl ?_
          · apply turned_proceed (h.own hp)
            · rintro name phase rfl
              exact (halone name rfl).inOrder
            · intro name hname
              exact (halone name hname).named
          · intro home₁ stage' hgo home' hat hfiles name hname
            exact alone_proceed halone hhome hp turn hgo hat hfiles hname
      · next hnone =>
          intro hhome'
          exact h.idle hhome hhome' (installAct_of_lookup_none hnone)
  | fail pid =>
      rw [CodexHome.step]
      split
      · next program stage hp =>
          intro hhome'
          have halone := fun name => h.alone pid ⟨program, stage⟩ name hp
          refine h.after hhome hp hhome' (turned_failed (h.own hp)) rfl ?_
          intro home₁ stage' hgo home' hat hfiles name hname
          exact alone_failed halone hhome hp hgo hat hfiles hname
      · next hnone =>
          intro hhome'
          exact h.idle hhome hhome' (installAct_of_lookup_none hnone)
  | kill pid =>
      rw [CodexHome.step]
      intro hhome'
      exact h.killed hhome hhome'
  | stage pid entry =>
      rw [CodexHome.step]
      split
      · next program name hp =>
          intro hhome'
          have halone := h.alone pid _ name hp rfl
          have hact : installAct pid (home, .stage pid entry) = some (.stage name (some entry)) :=
            installAct_of_lookup (.stage pid entry) hp
          refine h.outside hhome hp rfl entry ?_ ?_ hhome' rfl ?_
          · intro heq
            cases heq
          · intro other _ heq
            cases heq
          · intro other hother
            cases hother
            apply halone.extend hhome ⟨hhome', congrArg (Option.map Process.stage) hp⟩ rfl
            · intro path hpath hhead
              by_contra hne
              rw [Files.onlyAt_insert home.files _ entry path hne] at hpath
              exact hne (halone.only path hpath hhead)
            · rw [hact]
              rfl
      · next hnot =>
          intro hhome'
          apply h.idle hhome hhome'
          cases hp : home.processes.lookup pid with
          | none => exact installAct_of_lookup_none hp
          | some process =>
              rw [installAct_of_lookup (.stage pid entry) hp]
              obtain ⟨program, stage⟩ := process
              cases stage with
              | deviceLogin name => exact absurd hp (hnot program name)
              | _ => rfl
  | refresh pid entry =>
      rw [CodexHome.step]
      split
      · next program hp =>
          intro hhome'
          refine h.outside hhome hp rfl entry (by decide) ?_ hhome' rfl ?_
          · rintro name hname heq
            obtain rfl := List.singleton_inj.mp heq
            revert hname
            decide
          · intro name hname
            cases hname
      · intro hhome'
        apply h.idle hhome hhome'
        cases hp : home.processes.lookup pid with
        | none => exact installAct_of_lookup_none hp
        | some process => exact installAct_of_lookup (.refresh pid entry) hp

/-- **Run.** So they are however the processes interleave. -/
theorem sole_run (files : Files Path) (dirs : Assoc String Nat) (acts : List HomeAct) :
    Sole fromSlice uid dir files dirs acts ((processes fromSlice uid dir files dirs).run acts) := by
  induction acts using List.reverseRecOn with
  | nil =>
      refine ⟨?_, nofun, ?_, ?_, ?_, ?_⟩
      · intro pid process hp
        cases hp
      · intro pid process hp
        cases hp
      · intro pid process hp
        cases hp
      · intro pid process hp
        cases hp
      · intro pid process name hp
        cases hp
  | append_singleton acts act ih =>
      rw [Mealy.run_concat]
      exact ih.step rfl act

/-- What an act leaves alone, by where the process is whose act it is. -/
theorem Sole.spares (h : Sole fromSlice uid dir files dirs acts home) (act : HomeAct) :
    ∃ stage : Stage, (stage.held = true → home.locked = some act.pid) ∧
      Spares home (home.step fromSlice uid dir act).1 stage := by
  have hidle : ∃ stage : Stage, (stage.held = true → home.locked = some act.pid) ∧
      Spares home home stage := ⟨.secureDir, nofun, .refl home _⟩
  have hafter : ∀ pid program stage after, act.pid = pid →
      home.processes.lookup pid = some ⟨program, stage⟩ → Turned home pid stage after →
      ∃ stage : Stage, (stage.held = true → home.locked = some act.pid) ∧
        Spares home (CodexHome.after pid program after).1 stage := by
    rintro pid program stage after rfl hp hturned
    refine ⟨stage, h.past act.pid _ hp, ?_⟩
    cases after with
    | go home₁ stage' => exact ⟨hturned.1.dirs, hturned.1.files, hturned.1.keeps⟩
    | ended home₁ result => exact ⟨hturned.1.dirs, hturned.1.files, hturned.1.keeps⟩
  cases act with
  | spawn pid program =>
      rw [CodexHome.step]
      split
      · exact hidle
      · exact ⟨.secureDir, nofun, fun _ => rfl, fun _ => .inl rfl, id⟩
  | proceed pid turn =>
      rw [CodexHome.step]
      split
      · next program stage hp =>
          apply hafter pid program stage _ rfl hp
          apply turned_proceed (h.own hp)
          · rintro name phase rfl
            exact (h.alone pid _ name hp rfl).inOrder
          · intro name hname
            exact (h.alone pid _ name hp hname).named
      · exact hidle
  | fail pid =>
      rw [CodexHome.step]
      split
      · next program stage hp =>
          exact hafter pid program stage _ rfl hp (turned_failed (h.own hp))
      · exact hidle
  | kill pid => exact ⟨.secureDir, nofun, fun _ => rfl, fun _ => .inl rfl, id⟩
  | stage pid entry =>
      rw [CodexHome.step]
      split
      · next program name hp =>
          refine ⟨.deviceLogin name, h.past pid _ hp, .of_held rfl fun hmade => ?_⟩
          apply hmade.of_lookup
          apply Files.onlyAt_insert
          intro heq
          cases heq
      · exact hidle
  | refresh pid entry =>
      rw [CodexHome.step]
      split
      · next program hp =>
          refine ⟨.serving, h.past pid _ hp, .of_held rfl fun hmade => ?_⟩
          apply hmade.of_lookup
          exact Files.onlyAt_insert _ _ _ _ (by decide)
      · exact hidle

variable (fromSlice uid dir) in
/-- What the lock gives the processes of a home. -/
structure OneAtATime (files : Files Path) (dirs : Assoc String Nat) (acts : List HomeAct) :
    Prop where
  exclusive : ∀ pid pid' process process',
    ((processes fromSlice uid dir files dirs).run acts).processes.lookup pid = some process →
    ((processes fromSlice uid dir files dirs).run acts).processes.lookup pid' = some process' →
    process.stage.held = true → process'.stage.held = true → pid = pid'
  /-- While one is past the lock, no other changes a file or a directory. -/
  undisturbed : ∀ before act, before ++ [act] <+: acts → ∀ pid process,
    ((processes fromSlice uid dir files dirs).run before).processes.lookup pid = some process →
    process.stage.held = true → act.pid ≠ pid →
    ((processes fromSlice uid dir files dirs).run (before ++ [act])).files =
        ((processes fromSlice uid dir files dirs).run before).files ∧
      ((processes fromSlice uid dir files dirs).run (before ++ [act])).dirs =
        ((processes fromSlice uid dir files dirs).run before).dirs
  /-- Once it has cleaned up, nothing is staged but what it stages itself. -/
  swept : ∀ pid process,
    ((processes fromSlice uid dir files dirs).run acts).processes.lookup pid = some process →
    process.stage.swept = true → process.stage.stale = [] →
    ∀ name ∈ ((processes fromSlice uid dir files dirs).run acts).staged,
      process.stage.staging = some name
  /-- From when a login makes its staging directory until it ends, the home is one of `installs`,
  from the files there were then and by the login's own acts. -/
  login : ∀ pid process name,
    ((processes fromSlice uid dir files dirs).run acts).processes.lookup pid = some process →
    process.stage.staging = some name →
    ∃ before, StagesSince fromSlice uid dir files dirs acts pid name before ∧
      (installs fromSlice uid ((processes fromSlice uid dir files dirs).run before).files).run
          ((((processes fromSlice uid dir files dirs).trace acts).drop before.length).filterMap
            (installAct pid)) =
        ⟨((processes fromSlice uid dir files dirs).run acts).files, process.stage.installing⟩

/-- **Logins and providers take turns.** However any number of them interleave, fail and are killed,
one at a time is past the lock, and a login that is runs as `installs` does. -/
theorem one_at_a_time (fromSlice : Bytes → Option Value) (uid : Nat) (dir : DirMeta)
    (files : Files Path) (dirs : Assoc String Nat) (acts : List HomeAct) :
    OneAtATime fromSlice uid dir files dirs acts where
  exclusive := by
    intro pid pid' process process' hp hp' hheld hheld'
    have hsole : Sole fromSlice uid dir files dirs acts _ := sole_run files dirs acts
    have hlocked := hsole.past pid process hp hheld
    rw [hsole.past pid' process' hp' hheld'] at hlocked
    exact (Option.some.inj hlocked).symm
  undisturbed := by
    intro before act _ pid process hp hheld hne
    have hsole : Sole fromSlice uid dir files dirs before _ := sole_run files dirs before
    obtain ⟨stage, hpid, hspares⟩ := hsole.spares act
    obtain ⟨-, hdirs, hfiles⟩ := hsole.files_eq hspares hpid hp hheld (Ne.symm hne)
    rw [Mealy.run_concat]
    exact ⟨hfiles, hdirs⟩
  swept := by
    intro pid process hp hswept hstale name hname
    have hsole : Sole fromSlice uid dir files dirs acts _ := sole_run files dirs acts
    rcases hsole.swept pid process hp hswept name hname with hstaging | hmem
    · exact hstaging
    · rw [hstale] at hmem
      cases hmem
  login := by
    intro pid process name hp hstaging
    have hsole : Sole fromSlice uid dir files dirs acts _ := sole_run files dirs acts
    exact (hsole.alone pid process name hp hstaging).installs

end Runs

end CredentialBroker.Login
