import CredentialBroker.Usage.Restart
import CredentialBroker.Util.Mealy

/-!
# Keeping the usage state file

The thread of `keep_state` writes the windows of every registry as they change: it waits for
`dirty`, sleeps, clears `dirty`, reads the windows one registry after another, writes them to a
temporary file and renames that over the old one. Meanwhile captures go on. Each changes its
registry under that registry's lock and calls `changed()` later, and any of that may fall between
any two steps of the writer.

* `dirty` is cleared before the windows are read, so a capture whose `changed()` came before is
  read, and one whose `changed()` is still to come sets `dirty` again: what an attempt writes is
  current unless another attempt is due (`InOrder`).
* The path changes by a rename alone, so whoever reads it sees what was there at the start or all
  that one attempt had to write.
* An attempt that fails leaves `dirty` cleared. If no other change comes, nothing is written, and
  the newest windows are not in the file: `kept_iff` says that this is the only way to lose them,
  and `lostWrite` is a run that does.
-/

namespace CredentialBroker

/-- Whether a response reports any window, so that the state file is to be written. -/
def Capture.changes (capture : Capture) : Bool :=
  match capture.provider with
  | .anthropic =>
      (anthropicWindow capture.headers "5h" capture.now).isSome ||
        (anthropicWindow capture.headers "7d" capture.now).isSome
  | .codex =>
      (codexWindow capture.headers "primary" capture.now).isSome ||
        (codexWindow capture.headers "secondary" capture.now).isSome
  | .mistral => false

/-! ## The writer and what it shares -/

/-- Where the writer's thread is. -/
inductive Phase where
  /-- Waiting for a change. -/
  | waiting
  | sleeping
  /-- `dirty` is cleared, and the windows are read next. -/
  | cleared
  /-- Reading the windows: the registries still to be read, and what was read of the others. -/
  | reading (todo : List String) (taken : Assoc String Windows)
  /-- Writing the temporary file: what goes into it, and how much of that is still to be written. -/
  | writing (snapshot : Assoc String Windows) (rest : Bytes)

/-- What an attempt that has read the windows is to write. -/
def Phase.attempt : Phase → Option (Assoc String Windows)
  | reading [] taken => some taken
  | writing snapshot _ => some snapshot
  | _ => none

/-- The writer, the registries and the two files. -/
structure StateWriter where
  /-- The windows loaded at the start, by registry, until it is named. -/
  restored : Assoc String Windows
  registries : Registries
  /-- Captures that have changed their registry and not called `changed()` yet. -/
  unannounced : Nat
  dirty : Bool
  phase : Phase
  /-- What is at the path. -/
  file : Option Bytes
  temporary : Option Bytes
  /-- Every registry that a capture has changed so far; nothing reads it. -/
  changed : List String

inductive WriterAct where
  /-- `BrokerUsage::named`. -/
  | named (name : String)
  /-- A capture changes its registry. -/
  | capture (name : String) (capture : Capture)
  /-- `StateWriter::changed`, by a capture that changed its registry before. -/
  | changed
  /-- The writer sees that `dirty` is set. -/
  | wake
  /-- It has slept and clears `dirty`. -/
  | clear
  /-- `all_windows` locks the map of registries, whose order is any. -/
  | lock (order : List String)
  /-- It reads the next registry's windows. -/
  | read
  /-- `write_state` creates the temporary file. -/
  | create
  /-- It writes some more bytes to it. -/
  | write (count : Nat)
  /-- It renames the temporary file, all written and synced, to the path. -/
  | rename
  /-- `write_state` fails, and the loop goes on. -/
  | fail

/-- A registry's windows, if it is named. -/
def StateWriter.current (s : StateWriter) (name : String) : Option Windows :=
  (s.registries.lookup name).map BrokerUsage.windows

variable (encode : StateFile → Bytes)

/-- One step. An act that does not fit where the writer is leaves all as it is. -/
def StateWriter.step (s : StateWriter) : WriterAct → StateWriter
  | .named name =>
    match s.phase, s.registries.lookup name with
    -- the map of registries is locked while it is read
    | .reading (_ :: _) _, _ => s
    | _, some _ => s
    | _, none =>
      let usage := match s.restored.lookup name with
        | some windows => ({} : BrokerUsage).restore windows
        | none => {}
      { s with
        registries := s.registries.insert name usage
        restored := s.restored.erase name }
  | .capture name capture =>
    match s.registries.lookup name with
    | none => s
    | some usage =>
      let s := { s with registries := s.registries.insert name (usage.captureAt capture) }
      if capture.changes then
        { s with unannounced := s.unannounced + 1, changed := name :: s.changed }
      else s
  | .changed =>
    match s.unannounced with
    | 0 => s
    | others + 1 => { s with unannounced := others, dirty := true }
  | .wake =>
    match s.phase, s.dirty with
    | .waiting, true => { s with phase := .sleeping }
    | _, _ => s
  | .clear =>
    match s.phase with
    | .sleeping => { s with phase := .cleared, dirty := false }
    | _ => s
  | .lock order =>
    match s.phase with
    | .cleared => if order.Perm s.registries.keys then { s with phase := .reading order ∅ } else s
    | _ => s
  | .read =>
    match s.phase with
    | .reading (name :: todo) taken =>
      match s.current name with
      | some windows => { s with phase := .reading todo (taken.insert name windows) }
      | none => { s with phase := .reading todo taken }
    | _ => s
  | .create =>
    match s.phase with
    | .reading [] taken =>
        { s with phase := .writing taken (writeState encode taken), temporary := some [] }
    | _ => s
  | .write count =>
    match s.phase, s.temporary with
    | .writing snapshot rest, some written =>
        { s with
          phase := .writing snapshot (rest.drop count)
          temporary := some (written ++ rest.take count) }
    | _, _ => s
  | .rename =>
    match s.phase with
    | .writing _ [] => { s with phase := .waiting, file := s.temporary, temporary := none }
    | _ => s
  | .fail => if s.phase.attempt.isSome then { s with phase := .waiting } else s

/-- What a gateway starts with: what is at the two paths, and the windows it loaded. -/
structure Start where
  file : Option Bytes
  temporary : Option Bytes
  restored : Assoc String Windows

/-- The writer from the start on. -/
def stateWriter (start : Start) : Mealy StateWriter WriterAct Unit :=
  ⟨⟨start.restored, ∅, 0, false, .waiting, start.file, start.temporary, []⟩,
    fun s act => (s.step encode act, ())⟩

/-- Where any interleaving of captures and the writer's steps leads to. -/
def Start.run (start : Start) (acts : List WriterAct) : StateWriter :=
  (stateWriter encode start).run acts

/-! ## What is promised -/

/-- No attempt is due, and no capture is about to make one so. -/
structure StateWriter.Idle (s : StateWriter) : Prop where
  waiting : s.phase = .waiting
  clean : s.dirty = false
  announced : s.unannounced = 0

/-- The file holds `windows` of a registry. -/
def Holds (file : Option Bytes) (name : String) (windows : Option Windows) : Prop :=
  ∃ snapshot, file = some (writeState encode snapshot) ∧ snapshot.lookup name = windows

/-- What was read of the registries that were named when reading began, but for those of `todo`: of
each the windows it had at some moment. -/
structure Taken (start : Start) (acts : List WriterAct) (todo : List String)
    (taken : Assoc String Windows) : Prop where
  windows : ∀ name windows, taken.lookup name = some windows →
    ∃ pre, pre <+: acts ∧ (start.run encode pre).current name = some windows
  registries : ∃ pre, pre <+: acts ∧ ∀ name,
    (name ∈ todo ∨ (taken.lookup name).isSome = true) ↔
      ((start.run encode pre).current name).isSome = true

/-- A complete snapshot of the registries. -/
abbrev Complete (start : Start) (acts : List WriterAct) (snapshot : Assoc String Windows) : Prop :=
  Taken encode start acts [] snapshot

/-- No update is lost, and no reader sees half a file. -/
structure Kept (start : Start) (acts : List WriterAct) : Prop where
  nothing_lost : ∀ pre, pre <+: acts → (start.run encode pre).Idle →
    ∀ name ∈ (start.run encode pre).changed,
      Holds encode (start.run encode pre).file name ((start.run encode pre).current name)
  never_torn : ∀ pre, pre <+: acts →
    (start.run encode pre).file = start.file ∨ ∃ snapshot, Complete encode start pre snapshot ∧
      (start.run encode pre).file = some (writeState encode snapshot)

/-- Another attempt will be made: `dirty` is set, or a capture is still to set it. -/
def StateWriter.Pending (s : StateWriter) : Prop := s.dirty = true ∨ 0 < s.unannounced

/-- An attempt that fails does so with another to come, or with nothing to write that the file does
not have. -/
def WriterAct.Harmless (s : StateWriter) : WriterAct → Prop
  | .fail => s.Pending ∨ ∀ snapshot, s.phase.attempt = some snapshot →
      ∀ name ∈ s.changed, Holds encode s.file name (snapshot.lookup name)
  | _ => True

/-! ## Captures -/

/-- A response that reports no window changes none. -/
theorem windows_captureAt_of_changes {usage : BrokerUsage} {capture : Capture}
    (h : capture.changes = false) : (usage.captureAt capture).windows = usage.windows := by
  unfold Capture.changes at h
  unfold BrokerUsage.captureAt
  cases hprovider : capture.provider with
  | anthropic =>
      simp only [hprovider, Bool.or_eq_false_iff, Option.isSome_eq_false_iff, Option.isNone_iff_eq_none]
        at h
      have hattributed : usage.windows.attributed = fun index =>
          if index = 0 then usage.windows.attributed 0
          else if index = 1 then usage.windows.attributed 1
          else usage.windows.attributed index := by
        funext index
        split
        · next h0 => rw [h0]
        · split
          · next h1 => rw [h1]
          · rfl
      simp only [Windows.captureAnthropic, readAnthropic, h.1, h.2, chargeSlot, ← hattributed]
  | codex =>
      simp only [hprovider, Bool.or_eq_false_iff, Option.isSome_eq_false_iff, Option.isNone_iff_eq_none]
        at h
      have hattributed : usage.windows.attributed = fun index =>
          if index = 2 then usage.windows.attributed 2
          else if index = 3 then usage.windows.attributed 3
          else usage.windows.attributed index := by
        funext index
        split
        · next h2 => rw [h2]
        · split
          · next h3 => rw [h3]
          · rfl
      simp only [Windows.captureCodex, readCodex, h.1, h.2, chargeSlot, ← hattributed]
  | mistral => rfl

variable {encode}

/-- What the acts of captures leave as it is. -/
structure Undisturbed (s s' : StateWriter) : Prop where
  phase : s'.phase = s.phase
  file : s'.file = s.file
  temporary : s'.temporary = s.temporary
  dirty : s.dirty = true → s'.dirty = true
  pending : s.Pending → s'.Pending
  /-- A registry stays named, -/
  named : ∀ name, (s.current name).isSome = true → (s'.current name).isSome = true
  changed : (∀ name ∈ s.changed, (s.current name).isSome = true) →
    ∀ name ∈ s'.changed, (s'.current name).isSome = true
  /-- and what it changes is announced. -/
  announced : s'.Pending ∨ s'.changed = s.changed ∧
    ∀ name, (s.current name).isSome = true → s'.current name = s.current name

theorem Undisturbed.refl (s : StateWriter) : Undisturbed s s :=
  ⟨rfl, rfl, rfl, id, id, fun _ => id, id, .inr ⟨rfl, fun _ _ => rfl⟩⟩

theorem undisturbed_named (s : StateWriter) (name : String) :
    Undisturbed s (s.step encode (.named name)) := by
  have hinsert : s.registries.lookup name = none → ∀ usage : BrokerUsage,
      Undisturbed s { s with
        registries := s.registries.insert name usage
        restored := s.restored.erase name } := by
    intro hnone usage
    have hcurrent : ∀ other, (s.current other).isSome = true →
        ((s.registries.insert name usage).lookup other).map BrokerUsage.windows =
          s.current other := by
      intro other hother
      rw [Assoc.lookup_insert_eq]
      split
      · next heq =>
          subst heq
          unfold StateWriter.current at hother
          rw [hnone] at hother
          cases hother
      · rfl
    refine ⟨rfl, rfl, rfl, id, id, ?_, ?_, .inr ⟨rfl, hcurrent⟩⟩
    · intro other hother
      show (((s.registries.insert name usage).lookup other).map BrokerUsage.windows).isSome = true
      rw [hcurrent other hother]
      exact hother
    · intro hchanged other hother
      show (((s.registries.insert name usage).lookup other).map BrokerUsage.windows).isSome = true
      rw [hcurrent other (hchanged other hother)]
      exact hchanged other hother
  rw [StateWriter.step]
  split
  · exact .refl s
  · exact .refl s
  · next hnone _ => exact hinsert hnone _

theorem undisturbed_capture (s : StateWriter) (name : String) (capture : Capture) :
    Undisturbed s (s.step encode (.capture name capture)) := by
  rw [StateWriter.step]
  split
  · exact .refl s
  · next usage husage =>
      have hcurrent : ∀ other,
          ((s.registries.insert name (usage.captureAt capture)).lookup other).map
              BrokerUsage.windows =
            if other = name then some (usage.captureAt capture).windows else s.current other := by
        intro other
        rw [Assoc.lookup_insert_eq]
        split <;> rfl
      have hnamed : ∀ other, (s.current other).isSome = true →
          (((s.registries.insert name (usage.captureAt capture)).lookup other).map
            BrokerUsage.windows).isSome = true := by
        intro other hother
        rw [hcurrent]
        split
        · rfl
        · exact hother
      dsimp only
      split
      · -- windows change, and what is changed is announced later
        refine ⟨rfl, rfl, rfl, id, ?_, hnamed, ?_, .inl (.inr (Nat.succ_pos _))⟩
        · intro _
          exact .inr (Nat.succ_pos _)
        · intro hchanged other hother
          rcases List.mem_cons.mp hother with rfl | hother
          · show (((s.registries.insert other (usage.captureAt capture)).lookup other).map
              BrokerUsage.windows).isSome = true
            rw [AList.lookup_insert]
            rfl
          · exact hnamed other (hchanged other hother)
      · next hkeeps =>
          -- no window changes, so what is current stays so
          refine ⟨rfl, rfl, rfl, id, id, hnamed, ?_, .inr ⟨rfl, ?_⟩⟩
          · intro hchanged other hother
            exact hnamed other (hchanged other hother)
          · intro other hother
            refine (hcurrent other).trans ?_
            split
            · next heq =>
                rw [windows_captureAt_of_changes (by simpa using hkeeps), heq]
                unfold StateWriter.current
                rw [husage]
                rfl
            · rfl

theorem undisturbed_changed (s : StateWriter) : Undisturbed s (s.step encode .changed) := by
  rw [StateWriter.step]
  split
  · exact .refl s
  · exact ⟨rfl, rfl, rfl, fun _ => rfl, fun _ => .inl rfl, fun _ => id, id, .inl (.inl rfl)⟩

/-! ## The invariant -/

theorem Taken.mono {start : Start} {acts acts' : List WriterAct} {todo : List String}
    {taken : Assoc String Windows} (h : Taken encode start acts todo taken) (hle : acts <+: acts') :
    Taken encode start acts' todo taken := by
  obtain ⟨pre, hpre, hregistries⟩ := h.registries
  refine ⟨?_, pre, hpre.trans hle, hregistries⟩
  intro name windows hw
  obtain ⟨pre, hpre, hcurrent⟩ := h.windows name windows hw
  exact ⟨pre, hpre.trans hle, hcurrent⟩

variable (encode) in
/-- Whatever fails, an attempt is to write what is current, unless another is due. -/
structure InOrder (start : Start) (acts : List WriterAct) (s : StateWriter) : Prop where
  changed : ∀ name ∈ s.changed, (s.current name).isSome = true
  sleeping : s.phase = .sleeping → s.dirty = true
  reading : ∀ todo taken, s.phase = .reading todo taken →
    Taken encode start acts todo taken ∧ (∀ name ∈ todo, (s.current name).isSome = true) ∧
      (s.Pending ∨ ∀ name ∈ s.changed, name ∈ todo ∨ taken.lookup name = s.current name)
  writing : ∀ snapshot rest, s.phase = .writing snapshot rest →
    Complete encode start acts snapshot ∧
      (∃ written, s.temporary = some written ∧ written ++ rest = writeState encode snapshot) ∧
      (s.Pending ∨ ∀ name ∈ s.changed, snapshot.lookup name = s.current name)
  file : s.file = start.file ∨
    ∃ snapshot, Complete encode start acts snapshot ∧ s.file = some (writeState encode snapshot)

/-- What holds of the current windows of what was changed still does, or another attempt is due. -/
theorem Undisturbed.covers {s s' : StateWriter} (hu : Undisturbed s s')
    (hchanged : ∀ name ∈ s.changed, (s.current name).isSome = true)
    {P : String → Option Windows → Prop}
    (h : s.Pending ∨ ∀ name ∈ s.changed, P name (s.current name)) :
    s'.Pending ∨ ∀ name ∈ s'.changed, P name (s'.current name) := by
  rcases h with hpending | hcovers
  · exact .inl (hu.pending hpending)
  · refine hu.announced.imp_right ?_
    rintro ⟨heq, hcurrent⟩ name hname
    rw [heq] at hname
    rw [hcurrent name (hchanged name hname)]
    exact hcovers name hname

/-- What captures do puts nothing out of order. -/
theorem InOrder.undisturbed {start : Start} {acts acts' : List WriterAct} {s s' : StateWriter}
    (h : InOrder encode start acts s) (hle : acts <+: acts') (hu : Undisturbed s s') :
    InOrder encode start acts' s' := by
  refine ⟨hu.changed h.changed, ?_, ?_, ?_, ?_⟩
  · intro hphase
    exact hu.dirty (h.sleeping (hu.phase ▸ hphase))
  · intro todo taken hphase
    obtain ⟨htaken, hnamed, hcovers⟩ := h.reading todo taken (hu.phase ▸ hphase)
    exact ⟨htaken.mono hle, fun name hname => hu.named name (hnamed name hname),
      hu.covers (P := fun name windows => name ∈ todo ∨ taken.lookup name = windows) h.changed
        hcovers⟩
  · intro snapshot rest hphase
    obtain ⟨hcomplete, hwritten, hcovers⟩ := h.writing snapshot rest (hu.phase ▸ hphase)
    rw [hu.temporary]
    exact ⟨hcomplete.mono hle, hwritten,
      hu.covers (P := fun name windows => snapshot.lookup name = windows) h.changed hcovers⟩
  · rw [hu.file]
    exact h.file.imp_right fun ⟨snapshot, hcomplete, hfile⟩ =>
      ⟨snapshot, hcomplete.mono hle, hfile⟩

section Steps

variable {start : Start} {acts : List WriterAct} {s : StateWriter}

private theorem le_concat (act : WriterAct) : acts <+: acts ++ [act] := List.prefix_append _ _

/-- What was at the path stays one of what may be there. -/
private theorem file_mono (h : InOrder encode start acts s) (act : WriterAct) :
    s.file = start.file ∨ ∃ snapshot, Complete encode start (acts ++ [act]) snapshot ∧
      s.file = some (writeState encode snapshot) :=
  h.file.imp_right fun ⟨snapshot, hcomplete, hfile⟩ =>
    ⟨snapshot, hcomplete.mono (le_concat act), hfile⟩

theorem InOrder.wake (h : InOrder encode start acts s) :
    InOrder encode start (acts ++ [.wake]) (s.step encode .wake) := by
  rw [StateWriter.step]
  split
  · next hdirty =>
      refine ⟨h.changed, fun _ => hdirty, ?_, ?_, file_mono h _⟩
      · rintro todo taken ⟨⟩
      · rintro snapshot rest ⟨⟩
  · exact h.undisturbed (le_concat _) (.refl s)

theorem InOrder.clear (h : InOrder encode start acts s) :
    InOrder encode start (acts ++ [.clear]) (s.step encode .clear) := by
  rw [StateWriter.step]
  split
  · refine ⟨h.changed, ?_, ?_, ?_, file_mono h _⟩
    · rintro ⟨⟩
    · rintro todo taken ⟨⟩
    · rintro snapshot rest ⟨⟩
  · exact h.undisturbed (le_concat _) (.refl s)

/-- Every registry that was changed is one to be read. -/
theorem InOrder.lock (h : InOrder encode start acts s) (hs : s = start.run encode acts)
    (order : List String) :
    InOrder encode start (acts ++ [.lock order]) (s.step encode (.lock order)) := by
  have hkeys : order.Perm s.registries.keys → ∀ name, name ∈ order ↔
      (s.current name).isSome = true := by
    intro hperm name
    unfold StateWriter.current
    rw [hperm.mem_iff, Option.isSome_map, AList.lookup_isSome]
    rfl
  rw [StateWriter.step]
  split
  · split
    · next hperm =>
        refine ⟨h.changed, ?_, ?_, ?_, file_mono h _⟩
        · rintro ⟨⟩
        · rintro todo taken ⟨⟩
          refine ⟨⟨?_, acts, le_concat _, ?_⟩, fun name hname => (hkeys hperm name).mp hname, ?_⟩
          · intro name windows hw
            cases hw
          · intro name
            rw [← hs, ← hkeys hperm]
            simp
          · exact .inr fun name hname => .inl ((hkeys hperm name).mpr (h.changed name hname))
        · rintro snapshot rest ⟨⟩
    · exact h.undisturbed (le_concat _) (.refl s)
  · exact h.undisturbed (le_concat _) (.refl s)

theorem InOrder.read (h : InOrder encode start acts s) (hs : s = start.run encode acts) :
    InOrder encode start (acts ++ [.read]) (s.step encode .read) := by
  rw [StateWriter.step]
  split
  · next name todo taken hphase =>
      obtain ⟨htaken, hnamed, hcovers⟩ := h.reading _ _ hphase
      split
      · next windows hwindows =>
          refine ⟨h.changed, ?_, ?_, ?_, file_mono h _⟩
          · rintro ⟨⟩
          · rintro todo' taken' ⟨⟩
            refine ⟨⟨?_, ?_⟩, fun other hother => hnamed other (List.mem_cons_of_mem _ hother), ?_⟩
            · intro other windows' hw
              rw [Assoc.lookup_insert_eq] at hw
              split at hw
              · next heq =>
                  refine ⟨acts, le_concat _, ?_⟩
                  rw [← hs, heq, hwindows, hw]
              · exact (htaken.mono (le_concat _)).windows other windows' hw
            · obtain ⟨pre, hpre, hregistries⟩ := htaken.registries
              refine ⟨pre, hpre.trans (le_concat _), ?_⟩
              intro other
              rw [← hregistries, Assoc.lookup_insert_eq]
              by_cases heq : other = name
              · simp [heq]
              · simp [heq]
            · -- the registry read is off the list, with its current windows taken
              refine hcovers.imp_right fun hcovers other hother => ?_
              rw [Assoc.lookup_insert_eq]
              by_cases heq : other = name
              · rw [if_pos heq, heq]
                exact .inr hwindows.symm
              · rw [if_neg heq]
                refine (hcovers other hother).imp_left fun hmem => ?_
                exact (List.mem_cons.mp hmem).resolve_left heq
          · rintro snapshot rest ⟨⟩
      · next hnone =>
          -- every registry on the list has windows
          have hsome := hnamed name List.mem_cons_self
          rw [hnone] at hsome
          cases hsome
  · exact h.undisturbed (le_concat _) (.refl s)

theorem InOrder.create (h : InOrder encode start acts s) :
    InOrder encode start (acts ++ [.create]) (s.step encode .create) := by
  rw [StateWriter.step]
  split
  · next taken hphase =>
      obtain ⟨htaken, -, hcovers⟩ := h.reading _ _ hphase
      refine ⟨h.changed, ?_, ?_, ?_, file_mono h _⟩
      · rintro ⟨⟩
      · rintro todo' taken' ⟨⟩
      · rintro snapshot rest ⟨⟩
        refine ⟨htaken.mono (le_concat _), ⟨[], rfl, rfl⟩, ?_⟩
        refine hcovers.imp_right fun hcovers name hname => ?_
        exact (hcovers name hname).resolve_left List.not_mem_nil
  · exact h.undisturbed (le_concat _) (.refl s)

theorem InOrder.write (h : InOrder encode start acts s) (count : Nat) :
    InOrder encode start (acts ++ [.write count]) (s.step encode (.write count)) := by
  rw [StateWriter.step]
  split
  · next snapshot rest written hphase htemporary =>
      obtain ⟨hcomplete, ⟨written', hwritten, htext⟩, hcovers⟩ := h.writing _ _ hphase
      rw [htemporary] at hwritten
      cases hwritten
      refine ⟨h.changed, ?_, ?_, ?_, file_mono h _⟩
      · rintro ⟨⟩
      · rintro todo taken ⟨⟩
      · rintro snapshot' rest' ⟨⟩
        refine ⟨hcomplete.mono (le_concat _), ⟨_, rfl, ?_⟩, hcovers⟩
        rw [List.append_assoc, List.take_append_drop, htext]
  · exact h.undisturbed (le_concat _) (.refl s)

/-- What an attempt renames to the path is all that it had to write. -/
theorem InOrder.rename (h : InOrder encode start acts s) :
    InOrder encode start (acts ++ [.rename]) (s.step encode .rename) := by
  rw [StateWriter.step]
  split
  · next snapshot hphase =>
      obtain ⟨hcomplete, ⟨written, hwritten, htext⟩, hcovers⟩ := h.writing _ _ hphase
      rw [List.append_nil] at htext
      refine ⟨h.changed, ?_, ?_, ?_, .inr ⟨snapshot, hcomplete.mono (le_concat _), ?_⟩⟩
      · rintro ⟨⟩
      · rintro todo taken ⟨⟩
      · rintro snapshot' rest' ⟨⟩
      · rw [← htext]
        exact hwritten
  · exact h.undisturbed (le_concat _) (.refl s)

theorem InOrder.fail (h : InOrder encode start acts s) :
    InOrder encode start (acts ++ [.fail]) (s.step encode .fail) := by
  rw [StateWriter.step]
  split
  · refine ⟨h.changed, ?_, ?_, ?_, file_mono h _⟩
    · rintro ⟨⟩
    · rintro todo taken ⟨⟩
    · rintro snapshot rest ⟨⟩
  · exact h.undisturbed (le_concat _) (.refl s)

/-- **Step.** Whatever fails, an attempt stays one to write what is current, unless another is
due. -/
theorem InOrder.step (h : InOrder encode start acts s) (hs : s = start.run encode acts)
    (act : WriterAct) : InOrder encode start (acts ++ [act]) (s.step encode act) := by
  cases act with
  | named name => exact h.undisturbed (le_concat _) (undisturbed_named s name)
  | capture name capture => exact h.undisturbed (le_concat _) (undisturbed_capture s name capture)
  | changed => exact h.undisturbed (le_concat _) (undisturbed_changed s)
  | wake => exact h.wake
  | clear => exact h.clear
  | lock order => exact h.lock hs order
  | read => exact h.read hs
  | create => exact h.create
  | write count => exact h.write count
  | rename => exact h.rename
  | fail => exact h.fail

/-- What an attempt that has read the windows is to write is current, unless another is due. -/
theorem InOrder.attempt (h : InOrder encode start acts s) {snapshot : Assoc String Windows}
    (hattempt : s.phase.attempt = some snapshot) :
    s.Pending ∨ ∀ name ∈ s.changed, snapshot.lookup name = s.current name := by
  unfold Phase.attempt at hattempt
  split at hattempt
  · next taken hphase =>
      cases hattempt
      obtain ⟨-, -, hcovers⟩ := h.reading _ _ hphase
      refine hcovers.imp_right fun hcovers name hname => ?_
      exact (hcovers name hname).resolve_left List.not_mem_nil
  · next taken rest hphase =>
      cases hattempt
      exact (h.writing _ _ hphase).2.2
  · cases hattempt

end Steps

/-! ## Whole runs -/

theorem Start.run_concat (start : Start) (acts : List WriterAct) (act : WriterAct) :
    start.run encode (acts ++ [act]) = (start.run encode acts).step encode act :=
  Mealy.run_concat _ _ _

/-- **Run.** So it is whenever the process ends. -/
theorem inOrder_run (start : Start) (acts : List WriterAct) :
    InOrder encode start acts (start.run encode acts) := by
  induction acts using List.reverseRecOn with
  | nil =>
      refine ⟨?_, ?_, ?_, ?_, .inl rfl⟩
      · intro name hname
        cases hname
      · intro hphase
        cases hphase
      · intro todo taken hphase
        cases hphase
      · intro snapshot rest hphase
        cases hphase
  | append_singleton acts act ih =>
      rw [Start.run_concat]
      exact ih.step rfl act

variable (encode) in
/-- While the writer waits, what is current is in the file, unless an attempt is due. -/
def StateWriter.Settled (s : StateWriter) : Prop :=
  s.phase = .waiting → s.Pending ∨ ∀ name ∈ s.changed, Holds encode s.file name (s.current name)

theorem StateWriter.Settled.undisturbed {s s' : StateWriter} (h : s.Settled encode)
    (hchanged : ∀ name ∈ s.changed, (s.current name).isSome = true) (hu : Undisturbed s s') :
    s'.Settled encode := by
  intro hphase
  rw [hu.file]
  exact hu.covers (P := fun name windows => Holds encode s.file name windows) hchanged
    (h (hu.phase ▸ hphase))

/-- **Step.** A step that loses nothing leaves nothing out of the file. -/
theorem StateWriter.Settled.step {start : Start} {acts : List WriterAct} {s : StateWriter}
    (h : s.Settled encode) (hi : InOrder encode start acts s) {act : WriterAct}
    (hharmless : act.Harmless encode s) : (s.step encode act).Settled encode := by
  cases act with
  | named name => exact h.undisturbed hi.changed (undisturbed_named s name)
  | capture name capture => exact h.undisturbed hi.changed (undisturbed_capture s name capture)
  | changed => exact h.undisturbed hi.changed (undisturbed_changed s)
  | wake =>
      rw [StateWriter.step]
      split
      · rintro ⟨⟩
      · exact h
  | clear =>
      rw [StateWriter.step]
      split
      · rintro ⟨⟩
      · exact h
  | lock order =>
      rw [StateWriter.step]
      split
      · split
        · rintro ⟨⟩
        · exact h
      · exact h
  | read =>
      rw [StateWriter.step]
      split
      · split <;> rintro ⟨⟩
      · exact h
  | create =>
      rw [StateWriter.step]
      split
      · rintro ⟨⟩
      · exact h
  | write count =>
      rw [StateWriter.step]
      split
      · rintro ⟨⟩
      · exact h
  | rename =>
      rw [StateWriter.step]
      split
      · next snapshot hphase =>
          intro _
          obtain ⟨-, ⟨written, hwritten, htext⟩, hcovers⟩ := hi.writing _ _ hphase
          rw [List.append_nil] at htext
          refine hcovers.imp_right fun hcovers name hname => ⟨snapshot, ?_, hcovers name hname⟩
          rw [← htext]
          exact hwritten
      · exact h
  | fail =>
      rw [StateWriter.step]
      split
      · next hsome =>
          intro _
          obtain ⟨snapshot, hattempt⟩ := Option.isSome_iff_exists.mp hsome
          -- the file already has what the attempt was to write, and that is current
          rcases hharmless with hpending | hholds
          · exact .inl hpending
          · refine (hi.attempt hattempt).imp_right fun hcurrent name hname => ?_
            have hname' := hholds snapshot hattempt name hname
            rwa [hcurrent name hname] at hname'
      · exact h

/-- A run whose failures all lose nothing leaves nothing out of the file. -/
theorem settled_run (start : Start) (acts : List WriterAct)
    (h : ∀ pre act, pre ++ [act] <+: acts → act.Harmless encode (start.run encode pre)) :
    (start.run encode acts).Settled encode := by
  induction acts using List.reverseRecOn with
  | nil =>
      intro _
      refine .inr fun name hname => ?_
      cases hname
  | append_singleton acts act ih =>
      rw [Start.run_concat]
      refine (ih fun pre act' hpre => h pre act' (hpre.trans (List.prefix_append _ _))).step
        (inOrder_run start acts) (h acts act (List.prefix_refl _))

theorem StateWriter.Idle.not_pending {s : StateWriter} (h : s.Idle) : ¬ s.Pending := by
  rintro (hdirty | hcount)
  · rw [h.clean] at hdirty
    cases hdirty
  · rw [h.announced] at hcount
    exact Nat.lt_irrefl 0 hcount

/-- **No update is lost exactly as long as** every attempt that fails does so with another to come,
or with nothing to write that the file does not have. -/
theorem kept_iff (encode : StateFile → Bytes) (start : Start) (acts : List WriterAct) :
    Kept encode start acts ↔
      ∀ pre act, pre ++ [act] <+: acts → act.Harmless encode (start.run encode pre) := by
  constructor
  · intro h pre act hpre
    cases act with
    | fail =>
        have hi : InOrder encode start pre _ := inOrder_run start pre
        refine or_iff_not_imp_left.mpr fun hquiet snapshot hattempt name hname => ?_
        -- the failed attempt leaves the writer idle
        have hnext : start.run encode (pre ++ [.fail]) =
            { start.run encode pre with phase := .waiting } := by
          rw [Start.run_concat, StateWriter.step, hattempt]
          rfl
        have hidle : (start.run encode (pre ++ [.fail])).Idle := by
          rw [hnext]
          refine ⟨rfl, ?_, ?_⟩
          · exact Bool.eq_false_iff.mpr fun hdirty => hquiet (.inl hdirty)
          · exact Nat.eq_zero_of_not_pos fun hcount => hquiet (.inr hcount)
        have hholds := h.nothing_lost _ hpre hidle name (by rw [hnext]; exact hname)
        rw [hnext] at hholds
        rw [(hi.attempt hattempt).resolve_left hquiet name hname]
        exact hholds
    | _ => trivial
  · intro h
    refine ⟨?_, ?_⟩
    · intro pre hpre hidle
      have hsettled := settled_run start pre fun pre' act hpre' => h pre' act (hpre'.trans hpre)
      exact (hsettled hidle.waiting).resolve_left hidle.not_pending
    · intro pre _
      exact (inOrder_run start pre).file

/-- What a response says of the short window. -/
def sampleCapture : Capture := ⟨.codex, .pub, samplePrimary "10" "600", 1000⟩

/-- One capture, and an attempt to write that fails. -/
def lostWrite : List WriterAct :=
  [.named "default", .capture "default" sampleCapture, .changed, .wake, .clear, .lock ["default"],
    .read, .fail]

/-- Without a file at first there is none after it, and the writer waits for another change. -/
private theorem not_kept_of_lostWrite (encode : StateFile → Bytes) :
    ¬ Kept encode ⟨none, none, ∅⟩ lostWrite := by
  intro h
  have hchanges : sampleCapture.changes = true := by decide +kernel
  have hcapture : Start.run encode ⟨none, none, ∅⟩ [.named "default",
        .capture "default" sampleCapture] =
      ⟨∅, (AList.singleton "default" {}).insert "default" (({} : BrokerUsage).captureAt
        sampleCapture), 1, false, .waiting, none, none, ["default"]⟩ := by
    show (StateWriter.step encode ⟨∅, AList.singleton "default" {}, 0, false, .waiting, none, none,
      []⟩ (.capture "default" sampleCapture)) = _
    simp only [StateWriter.step, hchanges, if_true]
    rfl
  have hrun : Start.run encode ⟨none, none, ∅⟩ lostWrite =
      ⟨∅, (AList.singleton "default" {}).insert "default" (({} : BrokerUsage).captureAt
        sampleCapture), 0, false, .waiting, none, none, ["default"]⟩ := by
    show (stateWriter encode ⟨none, none, ∅⟩).runFrom (Start.run encode ⟨none, none, ∅⟩
      [.named "default", .capture "default" sampleCapture]) [.changed, .wake, .clear,
        .lock ["default"], .read, .fail] = _
    rw [hcapture]
    rfl
  obtain ⟨snapshot, hfile, -⟩ := h.nothing_lost lostWrite (List.prefix_refl _)
    (by rw [hrun]; exact ⟨rfl, rfl, rfl⟩) "default" (by rw [hrun]; exact List.mem_cons_self)
  rw [hrun] at hfile
  cases hfile

/-- Whatever is to be written, then: nothing of it is. -/
theorem not_kept_lostWrite : ∃ encode, ¬ Kept encode ⟨none, none, ∅⟩ lostWrite :=
  ⟨fun _ => [], not_kept_of_lostWrite _⟩

end CredentialBroker
