import CredentialBroker.Util.Assoc

/-!
# A file system

What a few calls do to the entries at the paths of a file system, or that they refuse. Each call is
atomic; a program that makes several of them may be stopped between any two, so what is to be all or
nothing must be one call. `rename` is: it puts a whole file where another was.

Of a path only its entry is kept. That its parent is there, and what a directory contains, is not;
accordingly only a file or a link is renamed or removed.

`Holds` says what a file contains and `OnlyAt` that nothing changes but at one path; for each call
there is what it does at its own paths, and that it does nothing elsewhere.
-/

/-- What is at a path. -/
inductive Files.Entry (P : Type*) where
  | file (data : List UInt8) (uid mode : Nat)
  | symlink (target : P)
  | directory
  deriving DecidableEq

/-- The entries, by path. -/
abbrev Files (P : Type*) := Assoc P (Files.Entry P)

namespace Files

variable {P : Type*}

/-- The entry is a directory. -/
def Entry.isDir : Entry P → Bool
  | directory => true
  | _ => false

def Entry.setMode (mode : Nat) : Entry P → Entry P
  | file data uid _ => file data uid mode
  | entry => entry

def Entry.write (more : List UInt8) : Entry P → Entry P
  | file data uid mode => file (data ++ more) uid mode
  | entry => entry

/-- Links followed before a path is refused for a loop. -/
def maxLinks : Nat := 40

variable [DecidableEq P]

/-- The path that links lead to. -/
def resolve (files : Files P) : Nat → P → Option P
  | 0, _ => none
  | links + 1, path =>
    match files.lookup path with
    | some (.symlink target) => files.resolve links target
    | some _ => some path
    | none => none

/-- All that a file contains, or the file a link leads to. -/
def read (files : Files P) (path : P) : Option (List UInt8) :=
  match (files.resolve maxLinks path).bind files.lookup with
  | some (.file data _ _) => some data
  | _ => none

/-- Set the mode of a file, or of what a link leads to. -/
def chmod (files : Files P) (path : P) (mode : Nat) : Option (Files P) :=
  (files.resolve maxLinks path).map fun path => files.modify path (Entry.setMode mode)

/-- Create a file that is not there. -/
def createNew (files : Files P) (path : P) (uid mode : Nat) : Option (Files P) :=
  match files.lookup path with
  | some _ => none
  | none => some (files.insert path (.file [] uid mode))

/-- Write to an open file. -/
def write (files : Files P) (path : P) (more : List UInt8) : Files P :=
  files.modify path (Entry.write more)

/-- Move what is at one path to another, over what is there. -/
def rename (files : Files P) (src dst : P) : Option (Files P) :=
  match files.lookup src with
  | none => none
  | some entry =>
    if entry.isDir || (files.lookup dst).any Entry.isDir then none
    else some ((files.erase src).insert dst entry)

/-- Remove a file or a link. -/
def remove (files : Files P) (path : P) : Option (Files P) :=
  match files.lookup path with
  | none => none
  | some entry => if entry.isDir then none else some (files.erase path)

/-! ## What a file contains -/

/-- At the path is a file with these contents. -/
def Holds (files : Files P) (path : P) (data : List UInt8) : Prop :=
  ∃ uid mode, files.lookup path = some (.file data uid mode)

variable {files files' : Files P} {path other src dst : P} {data more : List UInt8}
  {uid mode : Nat}

/-- The entry is a file with these contents, and so holds no others. -/
theorem Holds.unique (h : files.Holds path data) (h' : files.Holds path more) : data = more := by
  obtain ⟨uid, mode, h⟩ := h
  obtain ⟨uid', mode', h'⟩ := h'
  rw [h] at h'
  cases h'
  rfl

theorem Holds.congr (h : files.Holds path data) (heq : files'.lookup path = files.lookup path) :
    files'.Holds path data := by
  obtain ⟨uid, mode, h⟩ := h
  exact ⟨uid, mode, heq.trans h⟩

/-- A file is read as it is. -/
theorem Holds.read (h : files.Holds path data) : files.read path = some data := by
  obtain ⟨uid, mode, h⟩ := h
  have hpath : files.resolve maxLinks path = some path := by
    simp only [maxLinks, resolve, h]
  simp [Files.read, hpath, h]

theorem Holds.resolve (h : files.Holds path data) : files.resolve maxLinks path = some path := by
  obtain ⟨uid, mode, h⟩ := h
  simp only [maxLinks, Files.resolve, h]

/-! ## The calls -/

/-- Nothing changes but at one path. -/
def OnlyAt (path : P) (files files' : Files P) : Prop :=
  ∀ other, other ≠ path → files'.lookup other = files.lookup other

theorem onlyAt_insert (files : Files P) (path : P) (entry : Entry P) :
    OnlyAt path files (files.insert path entry) := by
  intro other hne
  rw [Assoc.lookup_insert_eq, if_neg hne]

theorem onlyAt_erase (files : Files P) (path : P) : OnlyAt path files (files.erase path) := by
  intro other hne
  rw [Assoc.lookup_erase_eq, if_neg hne]

theorem onlyAt_modify (files : Files P) (path : P) (f : Entry P → Entry P) :
    OnlyAt path files (files.modify path f) := by
  intro other hne
  rw [Assoc.lookup_modify, if_neg hne]

/-- A file is created empty. -/
theorem createNew_eq_some (h : files.createNew path uid mode = some files') :
    OnlyAt path files files' ∧ files'.Holds path [] := by
  unfold createNew at h
  split at h
  · cases h
  · cases h
    exact ⟨onlyAt_insert _ _ _, uid, mode, AList.lookup_insert _⟩

theorem onlyAt_write (files : Files P) (path : P) (more : List UInt8) :
    OnlyAt path files (files.write path more) :=
  onlyAt_modify files path _

/-- What is written comes after what the file contained. -/
theorem Holds.write (h : files.Holds path data) (more : List UInt8) :
    (files.write path more).Holds path (data ++ more) := by
  obtain ⟨uid, mode, h⟩ := h
  refine ⟨uid, mode, (Assoc.lookup_modify _ _ _ _).trans ?_⟩
  rw [if_pos rfl, h]
  rfl

/-- Of a file only its own mode is set. -/
theorem Holds.chmod (h : files.Holds path data) (hset : files.chmod path mode = some files') :
    OnlyAt path files files' ∧ files'.Holds path data := by
  unfold Files.chmod at hset
  rw [h.resolve] at hset
  cases hset
  obtain ⟨uid, old, h⟩ := h
  refine ⟨onlyAt_modify _ _ _, uid, mode, (Assoc.lookup_modify _ _ _ _).trans ?_⟩
  rw [if_pos rfl, h]
  rfl

/-- A file that is renamed is whole at its new path. -/
theorem Holds.rename (h : files.Holds src data) (hmoved : files.rename src dst = some files') :
    files'.Holds dst data := by
  obtain ⟨uid, mode, h⟩ := h
  simp only [Files.rename, h] at hmoved
  split at hmoved
  · cases hmoved
  · cases hmoved
    exact ⟨uid, mode, AList.lookup_insert _⟩

theorem lookup_rename_of_ne (h : files.rename src dst = some files') {other : P}
    (hsrc : other ≠ src) (hdst : other ≠ dst) : files'.lookup other = files.lookup other := by
  unfold Files.rename at h
  split at h
  · cases h
  · split at h
    · cases h
    · cases h
      exact (onlyAt_insert _ _ _ other hdst).trans (onlyAt_erase _ _ other hsrc)

theorem onlyAt_remove (h : files.remove path = some files') : OnlyAt path files files' := by
  unfold remove at h
  split at h
  · cases h
  · split at h
    · cases h
    · cases h
      exact onlyAt_erase _ _

end Files
