import CredentialBroker.Usage.Clamped
import CredentialBroker.Usage.StateWriter
import Mathlib.Data.Countable.Basic
import Mathlib.Data.Rat.Encodable
import Mathlib.Logic.Encodable.Pi
import Mathlib.Logic.Equiv.List
import Mathlib.Tactic.DeriveCountable

/-!
# The state file from one life of the gateway to the next

A gateway takes up what the state file has, and from then on its writer keeps the file, until it
is stopped or killed, at any step whatever. The next one starts from what that left. Followed
through any number of such lives, for one registry:

* **Consistent.** What it starts from is what a registry that was never restarted has after some of
  its responses: of each life, since some life, those that came before one moment. Nothing is
  counted twice, out of order or half (`lives_consistent`).
* **Nothing is lost** of a life whose writer comes to rest, as long as what the responses report
  fits and the registry is named before the windows are read (`lives_lose_nothing`).

What is compared is `Windows.Agree`: restarting by a clock that is behind moves observations, and
nothing else.
-/

namespace CredentialBroker

/-! ## What a registry captures in a life -/

/-- Windows after some responses. -/
def Windows.after (windows : Windows) (captures : List Capture) : Windows :=
  captures.foldl (fun windows capture =>
    ((BrokerUsage.mk windows none).captureAt capture).windows) windows

/-- What a registry starts with when it is named. -/
def takenUp (restored : Assoc String Windows) (name : String) : Windows :=
  match restored.lookup name with
  | some windows => (({} : BrokerUsage).restore windows).windows
  | none => {}

/-- A registry's windows, or what it is to start with. -/
def StateWriter.held (s : StateWriter) (name : String) : Windows :=
  (s.current name).getD (takenUp s.restored name)

/-- The response that a registry captures at an event, if it does. -/
def captured (name : String) (event : StateWriter × WriterAct) : Option Capture :=
  match event.2 with
  | .capture other capture =>
    if other = name ∧ (event.1.current name).isSome = true then some capture else none
  | _ => none

/-- The responses that a registry captures in a life. -/
def Start.captured (encode : StateFile → Bytes) (start : Start) (name : String)
    (acts : List WriterAct) :
    List Capture :=
  ((stateWriter encode start).trace acts).filterMap (CredentialBroker.captured name)

theorem Windows.after_append (windows : Windows) (captures more : List Capture) :
    windows.after (captures ++ more) = (windows.after captures).after more := by
  unfold Windows.after
  rw [List.foldl_append]

/-- What a response does to the windows is no matter of the spend. -/
theorem windows_captureAt (usage : BrokerUsage) (capture : Capture) :
    (usage.captureAt capture).windows =
      ((BrokerUsage.mk usage.windows none).captureAt capture).windows := by
  unfold BrokerUsage.captureAt
  cases capture.provider <;> rfl

variable {encode : StateFile → Bytes}

/-- What neither names a registry nor captures a response leaves the registries alone. -/
theorem StateWriter.step_cases (encode : StateFile → Bytes) (s : StateWriter) (act : WriterAct) :
    (∃ name, act = .named name) ∨ (∃ name capture, act = .capture name capture) ∨
      (∀ name, captured name (s, act) = none) ∧
        (s.step encode act).registries = s.registries ∧ (s.step encode act).restored = s.restored ∧
        (s.step encode act).changed = s.changed := by
  cases act with
  | named name => exact .inl ⟨name, rfl⟩
  | capture name capture => exact .inr (.inl ⟨name, capture, rfl⟩)
  | changed =>
      rw [StateWriter.step]
      split <;> exact .inr (.inr ⟨fun _ => rfl, rfl, rfl, rfl⟩)
  | wake =>
      rw [StateWriter.step]
      split <;> exact .inr (.inr ⟨fun _ => rfl, rfl, rfl, rfl⟩)
  | clear =>
      rw [StateWriter.step]
      split <;> exact .inr (.inr ⟨fun _ => rfl, rfl, rfl, rfl⟩)
  | lock order =>
      rw [StateWriter.step]
      split
      · split <;> exact .inr (.inr ⟨fun _ => rfl, rfl, rfl, rfl⟩)
      · exact .inr (.inr ⟨fun _ => rfl, rfl, rfl, rfl⟩)
  | read =>
      rw [StateWriter.step]
      split
      · split <;> exact .inr (.inr ⟨fun _ => rfl, rfl, rfl, rfl⟩)
      · exact .inr (.inr ⟨fun _ => rfl, rfl, rfl, rfl⟩)
  | create =>
      rw [StateWriter.step]
      split <;> exact .inr (.inr ⟨fun _ => rfl, rfl, rfl, rfl⟩)
  | write count =>
      rw [StateWriter.step]
      split <;> exact .inr (.inr ⟨fun _ => rfl, rfl, rfl, rfl⟩)
  | rename =>
      rw [StateWriter.step]
      split <;> exact .inr (.inr ⟨fun _ => rfl, rfl, rfl, rfl⟩)
  | fail =>
      rw [StateWriter.step]
      split <;> exact .inr (.inr ⟨fun _ => rfl, rfl, rfl, rfl⟩)

/-- What an act leaves of a registry's windows. -/
theorem StateWriter.held_step (s : StateWriter) (act : WriterAct) (name : String) :
    (s.step encode act).held name = (captured name (s, act)).elim (s.held name)
      fun capture => ((BrokerUsage.mk (s.held name) none).captureAt capture).windows := by
  rcases s.step_cases encode act with ⟨other, rfl⟩ | ⟨other, capture, rfl⟩ | hwriter
  · show (s.step encode (.named other)).held name = s.held name
    rw [StateWriter.step]
    split
    · rfl
    · rfl
    · next hnone _ =>
        unfold StateWriter.held StateWriter.current takenUp
        dsimp only
        rw [Assoc.lookup_insert_eq, Assoc.lookup_erase_eq]
        by_cases heq : name = other
        · -- from now on it is current, what it starts with
          subst heq
          rw [if_pos rfl, hnone]
          cases s.restored.lookup name <;> rfl
        · rw [if_neg heq, if_neg heq]
  · rw [StateWriter.step]
    unfold captured
    split
    · next hnone =>
        have hneg : ¬ (other = name ∧ (s.current name).isSome = true) := by
          rintro ⟨rfl, hsome⟩
          unfold StateWriter.current at hsome
          rw [hnone] at hsome
          cases hsome
        simp only [if_neg hneg]
        rfl
    · next usage husage =>
        have hheld : ∀ s' : StateWriter, s'.restored = s.restored →
            s'.registries = s.registries.insert other (usage.captureAt capture) →
            s'.held name = if name = other then (usage.captureAt capture).windows
              else s.held name := by
          intro s' hrestored hregistries
          unfold StateWriter.held StateWriter.current
          rw [hrestored, hregistries, Assoc.lookup_insert_eq]
          split <;> rfl
        have hcurrent : s.current other = some usage.windows := by
          unfold StateWriter.current
          rw [husage]
          rfl
        dsimp only
        rw [hheld _ (by split <;> rfl) (by split <;> rfl)]
        by_cases heq : name = other
        · subst heq
          have hnow : s.held name = usage.windows := by
            unfold StateWriter.held
            rw [hcurrent]
            rfl
          rw [if_pos rfl, if_pos ⟨rfl, by rw [hcurrent]; rfl⟩, windows_captureAt, ← hnow]
          rfl
        · rw [if_neg heq, if_neg (fun h => heq h.1.symm)]
          rfl
  · obtain ⟨hnone, hregistries, hrestored, -⟩ := hwriter
    rw [hnone name]
    unfold StateWriter.held StateWriter.current
    rw [hregistries, hrestored]
    rfl

/-- **Run.** Through a life a registry's windows are what it started with and captured. -/
theorem held_run (start : Start) (acts : List WriterAct) (name : String) :
    (start.run encode acts).held name =
      (takenUp start.restored name).after (start.captured encode name acts) :=
  Mealy.read_run (m := stateWriter encode start) (fun s => s.held name) (captured name)
    (fun windows capture => ((BrokerUsage.mk windows none).captureAt capture).windows)
    (fun pre act => StateWriter.held_step (start.run encode pre) act name) acts

theorem current_run {start : Start} {acts : List WriterAct} {name : String} {windows : Windows}
    (h : (start.run encode acts).current name = some windows) :
    windows = (takenUp start.restored name).after (start.captured encode name acts) := by
  rw [← held_run]
  unfold StateWriter.held
  rw [h]
  rfl

/-- What is captured by a moment stands first in what is captured. -/
theorem captured_prefix (start : Start) (name : String) {pre acts : List WriterAct}
    (h : pre <+: acts) : start.captured encode name pre <+: start.captured encode name acts := by
  obtain ⟨post, rfl⟩ := h
  unfold Start.captured
  rw [Mealy.trace_append, List.filterMap_append]
  exact List.prefix_append _ _

/-- What is captured is a response of the life. -/
theorem mem_captured {start : Start} {name : String} {acts : List WriterAct} {capture : Capture}
    (h : capture ∈ start.captured encode name acts) : .capture name capture ∈ acts := by
  obtain ⟨⟨s, act⟩, hevent, hcaptured⟩ := List.mem_filterMap.mp h
  have hact := Mealy.mem_of_mem_trace _ hevent
  unfold captured at hcaptured
  split at hcaptured
  · next other capture' heq =>
      split at hcaptured
      · next hcond =>
          cases hcaptured
          rw [← hcond.1]
          exact heq ▸ hact
      · cases hcaptured
  · cases hcaptured

/-! ## Valid windows -/

theorem Attributed.validate_eq_ok {window : Attributed} :
    window.validate = .ok () ↔
      (0 ≤ window.reading.usedPercent ∧ window.reading.usedPercent ≤ 100) ∧
        window.reading.windowSecs ≠ 0 ∧ ∀ c, 0 ≤ window.used.get c := by
  unfold Attributed.validate
  split
  · next h => simp [h]
  · next h =>
      rw [not_not] at h
      split
      · next hsecs => simp [hsecs]
      · next hsecs =>
          split
          · next hneg =>
              obtain ⟨c, -, hc⟩ := List.any_eq_true.mp hneg
              have hlt := of_decide_eq_true hc
              simp only [reduceCtorEq, false_iff]
              rintro ⟨-, -, hused⟩
              exact absurd (hused c) (not_le.mpr hlt)
          · next hneg =>
              refine ⟨fun _ => ⟨h, hsecs, fun c => ?_⟩, fun _ => rfl⟩
              by_contra hc
              apply hneg
              have hmem : c ∈ Consumer.all := by cases c <;> decide
              exact List.any_eq_true.mpr ⟨c, hmem, decide_eq_true (not_le.mp hc)⟩

/-- Charging a checked reading keeps a window valid. -/
theorem Attributed.validate_charge {previous : Option Attributed} {reading : Reading}
    (hprevious : ∀ w, previous = some w → w.validate = .ok ()) (h : Windows.Checked reading)
    (consumer : Consumer) (now : UInt64) :
    (charge previous reading consumer now).validate = .ok () := by
  rw [validate_eq_ok, reading_charge]
  refine ⟨⟨h.nonneg, h.le⟩, h.windowSecs, ?_⟩
  intro c
  unfold charge
  cases previous with
  | none => exact (PerConsumer.get_fill reading.usedPercent c).symm ▸ h.nonneg
  | some previous =>
      have hused := (validate_eq_ok.mp (hprevious previous rfl)).2.2 c
      dsimp only
      split
      · -- what it was, and a rise
        rw [PerConsumer.get_modify]
        split
        · exact add_nonneg hused (le_max_right _ _)
        · exact hused
      · rw [PerConsumer.get_modify]
        split
        · exact h.nonneg
        · exact (PerConsumer.get_fill (0 : ℚ) c).symm ▸ le_rfl

/-- What is charged to a slot is a checked reading. -/
theorem checked_reading {capture : Capture} {index : Fin 4} {reading : Reading}
    (h : capture.reading index = some (some reading)) : Windows.Checked reading := by
  match index with
  | 0 =>
      simp only [Capture.reading] at h
      split at h
      · exact checked_anthropic (by decide) h
      · cases h
  | 1 =>
      simp only [Capture.reading] at h
      split at h
      · exact checked_anthropic (by decide) h
      · cases h
  | 2 =>
      simp only [Capture.reading] at h
      split at h
      · exact checked_codex h
      · cases h
  | 3 =>
      simp only [Capture.reading] at h
      split at h
      · exact checked_codex h
      · cases h

/-- **Step.** A response that fits keeps the windows valid, restored ones too. -/
theorem Windows.validate_captured {capture : Capture} {w w' : Windows}
    (hw : w.validate = .ok ()) (hfits : capture.Fits) (h : Captured capture w w') :
    w'.validate = .ok () := by
  obtain ⟨⟨h5h, h7d⟩, ⟨hprimary, hsecondary⟩, hattributed⟩ := validate_eq_ok.mp hw
  refine validate_eq_ok.mpr ⟨⟨?_, ?_⟩, ⟨?_, ?_⟩, ?_⟩
  · rw [h.unified5h]
    split
    · exact check_readAnthropic h5h
    · exact h5h
  · rw [h.unified7d]
    split
    · exact check_readAnthropic h7d
    · exact h7d
  · rw [h.primary]
    split
    · next hcodex => exact (check_readCodex hprimary).mpr (hfits hcodex).1
    · exact hprimary
  · rw [h.secondary]
    split
    · next hcodex => exact (check_readCodex hsecondary).mpr (hfits hcodex).2
    · exact hsecondary
  · intro index
    rw [h.attributed, checkAttributed_eq_ok]
    have hbefore := checkAttributed_eq_ok.mp (hattributed index)
    intro window hwindow
    cases hread : capture.reading index with
    | none =>
        rw [hread] at hwindow
        exact hbefore window hwindow
    | some read =>
        cases read with
        | none =>
            rw [hread] at hwindow
            cases hwindow
        | some reading =>
            rw [hread] at hwindow
            cases hwindow
            exact Attributed.validate_charge hbefore (checked_reading hread) _ _

/-- **Run.** Windows stay valid, whatever is captured that fits. -/
theorem Windows.validate_after {captures : List Capture} (hfits : ∀ c ∈ captures, c.Fits) :
    ∀ {windows : Windows}, windows.validate = .ok () →
      (windows.after captures).validate = .ok () := by
  induction captures with
  | nil =>
      intro windows h
      exact h
  | cons capture captures ih =>
      intro windows h
      apply ih (fun c hc => hfits c (List.mem_cons_of_mem _ hc))
      exact validate_captured h (hfits capture List.mem_cons_self)
        (captured_captureAt ⟨windows, none⟩ capture)

/-- Windows that agree agree after the same responses. -/
theorem Windows.Agree.after (captures : List Capture) :
    ∀ {w v : Windows}, w.Agree v → (w.after captures).Agree (v.after captures) := by
  induction captures with
  | nil =>
      intro w v h
      exact h
  | cons capture captures ih =>
      intro w v h
      apply ih
      exact (h.captured (captured_captureAt ⟨w, none⟩ capture)
        (captured_captureAt ⟨v, none⟩ capture)).1

/-- Options of what is related both ways are related both ways. -/
private theorem rel_symm {α : Type} {r : α → α → Prop} (h : ∀ a b, r a b → r b a) {o p : Option α}
    (hop : Option.Rel r o p) : Option.Rel r p o := by
  cases hop with
  | none => exact .none
  | some hab => exact .some (h _ _ hab)

private theorem rel_trans {α : Type} {r : α → α → Prop} (h : ∀ a b c, r a b → r b c → r a c)
    {o p q : Option α} (hop : Option.Rel r o p) (hpq : Option.Rel r p q) : Option.Rel r o q := by
  cases hop with
  | none => exact hpq
  | some hab =>
      cases hpq with
      | some hbc => exact .some (h _ _ _ hab hbc)

theorem Windows.Agree.symm {w v : Windows} (h : w.Agree v) : v.Agree w where
  unified5h := rel_symm (fun _ _ h => ⟨h.1.symm, h.2.symm, h.3.symm⟩) h.unified5h
  unified7d := rel_symm (fun _ _ h => ⟨h.1.symm, h.2.symm, h.3.symm⟩) h.unified7d
  primary := rel_symm (fun _ _ h => ⟨h.1.symm, h.2.symm, h.3.symm⟩) h.primary
  secondary := rel_symm (fun _ _ h => ⟨h.1.symm, h.2.symm, h.3.symm⟩) h.secondary
  attributed := fun index =>
    rel_symm (fun _ _ h => ⟨h.1.symm, h.2.symm, h.3.symm⟩) (h.attributed index)

theorem Windows.Agree.trans {u v w : Windows} (h : u.Agree v) (h' : v.Agree w) : u.Agree w where
  unified5h := rel_trans (fun _ _ _ h h' => ⟨h.1.trans h'.1, h.2.trans h'.2, h.3.trans h'.3⟩)
    h.unified5h h'.unified5h
  unified7d := rel_trans (fun _ _ _ h h' => ⟨h.1.trans h'.1, h.2.trans h'.2, h.3.trans h'.3⟩)
    h.unified7d h'.unified7d
  primary := rel_trans (fun _ _ _ h h' => ⟨h.1.trans h'.1, h.2.trans h'.2, h.3.trans h'.3⟩)
    h.primary h'.primary
  secondary := rel_trans (fun _ _ _ h h' => ⟨h.1.trans h'.1, h.2.trans h'.2, h.3.trans h'.3⟩)
    h.secondary h'.secondary
  attributed := fun index =>
    rel_trans (fun _ _ _ h h' => ⟨h.1.trans h'.1, h.2.trans h'.2, h.3.trans h'.3⟩)
      (h.attributed index) (h'.attributed index)

/-- What the file leaves out of the windows is set anew when they are loaded. -/
theorem Windows.load_kept (windows : Windows) (now : UInt64) :
    windows.kept.load now = windows.load now := by
  unfold load kept clampObservedAt
  simp only [Windows.mk.injEq, true_and]
  funext index
  cases windows.attributed index with
  | none => rfl
  | some window =>
      simp only [Option.map_some, Option.some.injEq]
      unfold Attributed.clampObservedAt Attributed.restore
      split <;> rfl

/-- Valid windows are taken up as they are. -/
theorem Windows.agree_restore_load {windows : Windows} (h : windows.validate = .ok ())
    (now : UInt64) :
    (({} : BrokerUsage).restore (windows.load now)).windows.Agree windows := by
  have hrestart : (BrokerUsage.mk windows none).restart now =
      .ok (({} : BrokerUsage).restore (windows.load now)) := by
    unfold BrokerUsage.restart
    rw [(validate_kept windows).mpr h, load_kept]
    rfl
  exact (Agree.refl windows).restart hrestart

/-! ## Lives -/

/-- What a gateway leaves behind when it ends: what is at the two paths. -/
structure Disk where
  file : Option Bytes
  temporary : Option Bytes

/-- A life of the gateway: when it starts, and all that happens until it ends, wherever that is. -/
structure Life where
  now : UInt64
  acts : List WriterAct

variable (codec : JsonCodec) (path : String)

namespace Disk

/-- What reading the file gives. -/
def contents (disk : Disk) : Except String Bytes :=
  match disk.file with
  | some bytes => .ok bytes
  | none => .error "No such file or directory (os error 2)"

/-- `keep_state`: what the file has is taken up; one that is missing or not valid is no reading. -/
def keepState (disk : Disk) (now : UInt64) : Start where
  file := disk.file
  temporary := disk.temporary
  restored := match readState codec path disk.contents now with
    | .ok registries => registries
    | .error _ => ∅

/-- What a gateway that starts at `now` has a registry start with. -/
def takesUp (disk : Disk) (now : UInt64) (name : String) : Windows :=
  takenUp (disk.keepState codec path now).restored name

/-- The file can be read, if it is there. -/
def Readable (disk : Disk) : Prop :=
  ∀ bytes, disk.file = some bytes →
    ∃ now result, readState codec path (.ok bytes) now = .ok result

/-- What a life leaves. -/
def live (disk : Disk) (life : Life) : Disk :=
  let s := (disk.keepState codec path life.now).run codec.encode life.acts
  ⟨s.file, s.temporary⟩

end Disk

/-- The gateway, from one life to the next. -/
def gatewayLives (disk : Disk) : Mealy Disk Life Unit :=
  ⟨disk, fun disk life => (disk.live codec path life, ())⟩

/-- The responses that a registry captures in a life that starts from a disk. -/
def capturedIn (name : String) (event : Disk × Life) : List Capture :=
  (event.1.keepState codec path event.2.now).captured codec.encode name event.2.acts

variable {codec path}

/-- The file is read exactly if it is a state file and all in it is valid. -/
theorem readState_eq_ok {contents : Except String Bytes} {now : UInt64}
    {result : Assoc String Windows} :
    readState codec path contents now = .ok result ↔
      ∃ bytes file, contents = .ok bytes ∧ codec.decode bytes = .ok file ∧
        file.schema = stateSchema ∧
        (∀ name windows, file.registries.lookup name = some windows → windows.validate = .ok ()) ∧
        file.registries.mapVals (fun _ windows => windows.load now) = result := by
  have hall : ∀ registries : Assoc String Windows,
      ((byName registries).forM fun registry =>
        registry.2.validate.mapError (fun e => "registry " ++ registry.1.quote ++ ": " ++ e)) =
          .ok () ↔
      ∀ name windows, registries.lookup name = some windows → windows.validate = .ok () := by
    intro registries
    rw [Checked.forM_eq_ok]
    unfold byName
    simp only [List.mem_mergeSort, Checked.mapError_eq_ok]
    constructor
    · intro h name windows hw
      exact h ⟨name, windows⟩ (AList.mem_lookup_iff.mp hw)
    · rintro h ⟨name, windows⟩ hmem
      exact h name windows (AList.mem_lookup_iff.mpr hmem)
  unfold readState
  rw [Checked.mapError_eq_ok, Checked.bind_eq_ok]
  apply exists_congr
  intro bytes
  rw [Checked.bind_eq_ok, ← exists_and_left]
  apply exists_congr
  intro file
  refine and_congr_right fun _ => and_congr_right fun _ => ?_
  by_cases hschema : file.schema = stateSchema
  · rw [if_neg (not_not.mpr hschema), Checked.then_eq_ok, hall, Except.ok.injEq]
    simp only [hschema, true_and]
  · rw [if_pos hschema]
    simp only [reduceCtorEq, hschema, false_and]

/-- **The file is taken up whole or not at all**, whenever that is. -/
theorem keepState_cases (codec : JsonCodec) (path : String) (disk : Disk) :
    ((disk.file ≠ none → ¬ disk.Readable codec path) ∧
      ∀ now, (disk.keepState codec path now).restored = ∅) ∨
      ∃ bytes file, disk.file = some bytes ∧ codec.decode bytes = .ok file ∧
        (∀ name windows, file.registries.lookup name = some windows → windows.validate = .ok ()) ∧
        ∀ now, (disk.keepState codec path now).restored =
          file.registries.mapVals fun _ windows => windows.load now := by
  by_cases hread : ∃ now result, readState codec path disk.contents now = .ok result
  · right
    obtain ⟨now, result, hresult⟩ := hread
    obtain ⟨bytes, file, hbytes, hfile, hschema, hvalid, -⟩ := readState_eq_ok.mp hresult
    have hcontents : disk.file = some bytes := by
      unfold Disk.contents at hbytes
      split at hbytes
      · next heq =>
          cases hbytes
          exact heq
      · cases hbytes
    refine ⟨bytes, file, hcontents, hfile, hvalid, ?_⟩
    intro now
    have hok : readState codec path disk.contents now = .ok _ :=
      readState_eq_ok.mpr ⟨bytes, file, hbytes, hfile, hschema, hvalid, rfl⟩
    unfold Disk.keepState
    rw [hok]
  · left
    refine ⟨?_, ?_⟩
    · intro hfile hreadable
      obtain ⟨bytes, hbytes⟩ := Option.ne_none_iff_exists'.mp hfile
      apply hread
      unfold Disk.contents
      rw [hbytes]
      exact hreadable bytes hbytes
    · intro now
      unfold Disk.keepState
      split
      · next registries hok => exact absurd ⟨now, registries, hok⟩ hread
      · rfl

/-- A registry takes up what was stored of it. -/
theorem agree_takenUp {registries : Assoc String Windows}
    (hvalid : ∀ name windows, registries.lookup name = some windows → windows.validate = .ok ())
    (name : String) (now : UInt64) :
    (takenUp (registries.mapVals fun _ windows => windows.load now) name).Agree
      ((registries.lookup name).getD {}) := by
  unfold takenUp
  rw [Assoc.lookup_mapVals]
  cases hlookup : registries.lookup name with
  | none => exact .refl _
  | some windows => exact Windows.agree_restore_load (hvalid name windows hlookup) now

/-- When a gateway starts is no matter for what it takes up. -/
theorem Disk.exists_takesUp (codec : JsonCodec) (path : String) (disk : Disk) (name : String) :
    ∃ windows : Windows, windows.validate = .ok () ∧
      ∀ now, (disk.takesUp codec path now name).Agree windows := by
  rcases keepState_cases codec path disk with ⟨-, hnone⟩ | hfile
  · refine ⟨{}, rfl, ?_⟩
    intro now
    unfold Disk.takesUp
    rw [hnone]
    exact .refl _
  · obtain ⟨bytes, file, -, -, hvalid, hrestored⟩ := hfile
    refine ⟨(file.registries.lookup name).getD {}, ?_, ?_⟩
    · cases hlookup : file.registries.lookup name with
      | none => rfl
      | some windows => exact hvalid name windows hlookup
    · intro now
      unfold Disk.takesUp
      rw [hrestored]
      exact agree_takenUp hvalid name now

theorem Disk.takesUp_agree (disk : Disk) (name : String) (now now' : UInt64) :
    (disk.takesUp codec path now name).Agree (disk.takesUp codec path now' name) := by
  obtain ⟨windows, -, hagree⟩ := disk.exists_takesUp codec path name
  exact (hagree now).trans (hagree now').symm

theorem Disk.validate_takesUp (disk : Disk) (name : String) (now : UInt64) :
    (disk.takesUp codec path now name).validate = .ok () := by
  obtain ⟨windows, hvalid, hagree⟩ := disk.exists_takesUp codec path name
  exact (hagree now).validate hvalid

/-- Of a file that an attempt wrote, what it read is taken up, or nothing of any registry. -/
theorem Disk.takesUp_written (path : String) {disk : Disk} {snapshot : Assoc String Windows}
    (h : disk.file = some (writeState codec.encode snapshot)) :
    (¬ disk.Readable codec path ∧ ∀ now name, disk.takesUp codec path now name = {}) ∨
      ∀ now name, (disk.takesUp codec path now name).Agree
        ((snapshot.lookup name).getD {}) := by
  rcases keepState_cases codec path disk with ⟨hunread, hnone⟩ | hfile
  · left
    refine ⟨hunread (by rw [h]; exact Option.some_ne_none _), ?_⟩
    intro now name
    unfold Disk.takesUp
    rw [hnone]
    rfl
  · right
    obtain ⟨bytes, file, hbytes, hfile, hvalid, hrestored⟩ := hfile
    rw [h] at hbytes
    cases hbytes
    unfold writeState at hfile
    rw [codec.decode_encode] at hfile
    cases hfile
    intro now name
    have hkept : (((snapshot.mapVals fun _ => Windows.kept).lookup name).getD {}).Agree
        ((snapshot.lookup name).getD {}) := by
      rw [Assoc.lookup_mapVals]
      cases snapshot.lookup name with
      | none => exact .refl _
      | some windows => exact (Windows.Agree.refl windows).kept
    unfold Disk.takesUp
    rw [hrestored]
    exact (agree_takenUp hvalid name now).trans hkept

/-- What is taken up depends on what is at the path alone. -/
theorem Disk.takesUp_congr {disk disk' : Disk} (h : disk'.file = disk.file) (now : UInt64)
    (name : String) : disk'.takesUp codec path now name = disk.takesUp codec path now name := by
  unfold Disk.takesUp Disk.keepState Disk.contents
  rw [h]

/-! ## What is kept of a life -/

/-- What an attempt read of a registry: what it had at a moment, or nothing. -/
theorem Complete.part {start : Start} {acts : List WriterAct} {snapshot : Assoc String Windows}
    (h : Complete codec.encode start acts snapshot) {name : String} {windows : Windows}
    (hw : snapshot.lookup name = some windows) :
    ∃ part, part <+: start.captured codec.encode name acts ∧
      windows = (takenUp start.restored name).after part := by
  obtain ⟨pre, hpre, hcurrent⟩ := h.windows name windows hw
  exact ⟨_, captured_prefix start name hpre, current_run hcurrent⟩

/-- A life leaves the file as it was, or as an attempt wrote it. -/
theorem Disk.file_live (codec : JsonCodec) (path : String) (disk : Disk) (life : Life) :
    (disk.live codec path life).file = disk.file ∨
      ∃ snapshot, Complete codec.encode (disk.keepState codec path life.now) life.acts snapshot ∧
        (disk.live codec path life).file = some (writeState codec.encode snapshot) :=
  (inOrder_run (disk.keepState codec path life.now) life.acts).file

/-- **Step.** A life leaves of a registry what it started with and captured by some moment, or
nothing at all. -/
theorem Disk.live_keeps (codec : JsonCodec) (path : String) (disk : Disk) (life : Life)
    (name : String) :
    (∀ now, ((disk.live codec path life).takesUp codec path now name).Agree {}) ∨
      ∃ part, part <+: capturedIn codec path name (disk, life) ∧
        ∀ now, ((disk.live codec path life).takesUp codec path now name).Agree
          ((disk.takesUp codec path life.now name).after part) := by
  rcases disk.file_live codec path life with hsame | ⟨snapshot, hcomplete, hwritten⟩
  · right
    refine ⟨[], List.nil_prefix, ?_⟩
    intro now
    rw [Disk.takesUp_congr hsame]
    exact disk.takesUp_agree name now life.now
  · rcases Disk.takesUp_written path hwritten with
      ⟨-, hnone⟩ | hagree
    · left
      intro now
      rw [hnone now name]
      exact .refl _
    · cases hlookup : snapshot.lookup name with
      | none =>
          left
          intro now
          have hnow := hagree now name
          rwa [hlookup] at hnow
      | some windows =>
          right
          obtain ⟨part, hpart, hwindows⟩ := Complete.part hcomplete hlookup
          refine ⟨part, hpart, ?_⟩
          intro now
          have hnow := hagree now name
          rw [hlookup, Option.getD_some, hwindows] at hnow
          exact hnow

/-! ## Whole histories -/

theorem length_trace_gatewayLives (codec : JsonCodec) (path : String) (disk : Disk)
    (lives : List Life) :
    ((gatewayLives codec path disk).trace lives).length = lives.length := by
  have hmap := congrArg List.length ((gatewayLives codec path disk).map_snd_trace lives)
  rwa [List.length_map] at hmap

/-- **Run.** Whenever lives end, what is next taken up of a registry is what it was at first, if it
was never lost, and the responses of each life since that came before one moment. -/
theorem lives_consistent (codec : JsonCodec) (path : String) (disk : Disk) (lives : List Life)
    (name : String) :
    ∃ lost ≤ lives.length, ∃ parts,
      List.Forall₂ (fun part event => part <+: capturedIn codec path name event) parts
        (((gatewayLives codec path disk).trace lives).drop lost) ∧
      ∀ now₀ now, (((gatewayLives codec path disk).run lives).takesUp codec path now name).Agree
        ((if lost = 0 then disk.takesUp codec path now₀ name else {}).after parts.flatten) := by
  induction lives using List.reverseRecOn with
  | nil =>
      refine ⟨0, le_rfl, [], .nil, ?_⟩
      intro now₀ now
      exact disk.takesUp_agree name now now₀
  | append_singleton lives life ih =>
      obtain ⟨lost, hlost, parts, hparts, hagree⟩ := ih
      have hlength := length_trace_gatewayLives codec path disk lives
      have hlast : (gatewayLives codec path disk).run (lives ++ [life]) =
          ((gatewayLives codec path disk).run lives).live codec path life :=
        Mealy.run_concat _ _ _
      rw [hlast, Mealy.trace_concat, List.length_append, List.length_singleton]
      rcases ((gatewayLives codec path disk).run lives).live_keeps codec path life
          name with hnone | ⟨part, hpart, hkept⟩
      · refine ⟨lives.length + 1, le_rfl, [], ?_, ?_⟩
        · rw [List.drop_of_length_le (by simp [hlength])]
          exact .nil
        · intro now₀ now
          exact hnone now
      · refine ⟨lost, by omega, parts ++ [part], ?_, ?_⟩
        · rw [List.drop_append_of_le_length (by omega)]
          exact List.rel_append hparts (.cons hpart .nil)
        · intro now₀ now
          rw [List.flatten_append, List.flatten_singleton, Windows.after_append]
          exact (hkept now).trans ((hagree now₀ life.now).after part)

/-! ## Lives that lose nothing -/

variable (codec) in
/-- Every attempt reads a registry. -/
structure Reads (start : Start) (name : String) (s : StateWriter) : Prop where
  reading : ∀ todo taken, s.phase = .reading todo taken →
    name ∈ todo ∨ (taken.lookup name).isSome = true
  writing : ∀ snapshot rest, s.phase = .writing snapshot rest →
    (snapshot.lookup name).isSome = true
  file : s.file = start.file ∨ ∃ snapshot, (snapshot.lookup name).isSome = true ∧
    s.file = some (writeState codec.encode snapshot)

theorem Reads.undisturbed {start : Start} {name : String} {s s' : StateWriter}
    (h : Reads codec start name s) (hu : Undisturbed s s') : Reads codec start name s' := by
  refine ⟨?_, ?_, ?_⟩
  · intro todo taken hphase
    exact h.reading todo taken (hu.phase ▸ hphase)
  · intro snapshot rest hphase
    exact h.writing snapshot rest (hu.phase ▸ hphase)
  · rw [hu.file]
    exact h.file

/-- An attempt is over, or does not read yet. -/
theorem Reads.quiet {start : Start} {name : String} {s s' : StateWriter}
    (h : Reads codec start name s) (hfile : s'.file = s.file)
    (hphase : s'.phase = .waiting ∨ s'.phase = .sleeping ∨ s'.phase = .cleared) :
    Reads codec start name s' := by
  refine ⟨?_, ?_, ?_⟩
  · intro todo taken hreading
    rw [hreading] at hphase
    simp at hphase
  · intro snapshot rest hwriting
    rw [hwriting] at hphase
    simp at hphase
  · rw [hfile]
    exact h.file

/-- **Step.** An attempt goes on with the registry, if it is named when the lock is taken. -/
theorem Reads.step {start : Start} {name : String} {acts : List WriterAct} {s : StateWriter}
    (h : Reads codec start name s) (hi : InOrder codec.encode start acts s) (act : WriterAct)
    (hnamed : ∀ order, act = .lock order → (s.current name).isSome = true) :
    Reads codec start name (s.step codec.encode act) := by
  cases act with
  | named other => exact h.undisturbed (undisturbed_named s other)
  | capture other capture => exact h.undisturbed (undisturbed_capture s other capture)
  | changed => exact h.undisturbed (undisturbed_changed s)
  | wake =>
      rw [StateWriter.step]
      split
      · exact h.quiet rfl (.inr (.inl rfl))
      · exact h
  | clear =>
      rw [StateWriter.step]
      split
      · exact h.quiet rfl (.inr (.inr rfl))
      · exact h
  | lock order =>
      rw [StateWriter.step]
      split
      · split
        · next hperm =>
            refine ⟨?_, ?_, h.file⟩
            · intro todo taken hphase
              cases hphase
              -- every registry that is named is on the list
              left
              have hsome := hnamed order rfl
              unfold StateWriter.current at hsome
              rw [Option.isSome_map, AList.lookup_isSome] at hsome
              exact hperm.mem_iff.mpr hsome
            · intro snapshot rest hphase
              cases hphase
        · exact h
      · exact h
  | read =>
      rw [StateWriter.step]
      split
      · next other todo taken hphase =>
          have hbefore := h.reading _ _ hphase
          split
          · refine ⟨?_, ?_, h.file⟩
            · intro todo' taken' hphase'
              cases hphase'
              rw [Assoc.lookup_insert_eq]
              by_cases heq : name = other
              · simp [heq]
              · simpa [heq] using hbefore
            · intro snapshot rest hphase'
              cases hphase'
          · next hnone =>
              have hsome := (hi.reading _ _ hphase).2.1 other List.mem_cons_self
              rw [hnone] at hsome
              cases hsome
      · exact h
  | create =>
      rw [StateWriter.step]
      split
      · next taken hphase =>
          refine ⟨?_, ?_, h.file⟩
          · intro todo taken' hphase'
            cases hphase'
          · intro snapshot rest hphase'
            cases hphase'
            exact (h.reading _ _ hphase).resolve_left List.not_mem_nil
      · exact h
  | write count =>
      rw [StateWriter.step]
      split
      · next snapshot rest written hphase htemporary =>
          refine ⟨?_, ?_, h.file⟩
          · intro todo taken hphase'
            cases hphase'
          · intro snapshot' rest' hphase'
            cases hphase'
            exact h.writing _ _ hphase
      · exact h
  | rename =>
      rw [StateWriter.step]
      split
      · next snapshot hphase =>
          obtain ⟨-, ⟨written, hwritten, htext⟩, -⟩ := hi.writing _ _ hphase
          rw [List.append_nil] at htext
          refine ⟨?_, ?_, ?_⟩
          · intro todo taken hphase'
            cases hphase'
          · intro snapshot' rest' hphase'
            cases hphase'
          · right
            refine ⟨snapshot, h.writing _ _ hphase, ?_⟩
            rw [← htext]
            exact hwritten
      · exact h
  | fail =>
      rw [StateWriter.step]
      split
      · exact h.quiet rfl (.inl rfl)
      · exact h

/-- **Step.** As long as what responses report fits, a life leaves a file that can be read. -/
theorem Disk.Readable.live {disk : Disk} (h : disk.Readable codec path) {life : Life}
    (hfits : ∀ name capture, .capture name capture ∈ life.acts → capture.Fits) :
    (disk.live codec path life).Readable codec path := by
  rcases disk.file_live codec path life with hsame | ⟨snapshot, hcomplete, hwritten⟩
  · intro bytes hbytes
    exact h bytes (hsame.symm.trans hbytes)
  · intro bytes hbytes
    obtain rfl : writeState codec.encode snapshot = bytes :=
      Option.some.inj (hwritten.symm.trans hbytes)
    refine ⟨0, (readState_writeState codec snapshot path 0).mpr ?_⟩
    intro name windows hw
    obtain ⟨part, hpart, rfl⟩ := Complete.part hcomplete hw
    apply Windows.validate_after
    · intro capture hcapture
      exact hfits name capture (mem_captured (hpart.subset hcapture))
    · exact disk.validate_takesUp name life.now

instance countableUInt64 : Countable UInt64 :=
  Function.Injective.countable (f := UInt64.toNat) fun _ _ h => UInt64.toNat_inj.mp h

instance countableChar : Countable Char :=
  Function.Injective.countable (f := Char.toNat) fun _ _ h => Char.ext (UInt32.toNat_inj.mp h)

instance countableString : Countable String :=
  Function.Injective.countable (f := String.toList) fun _ _ h => String.toList_inj.mp h

instance countableAssoc {K V : Type} [Countable K] [Countable V] : Countable (Assoc K V) :=
  Function.Injective.countable (f := AList.entries) fun _ _ h => AList.ext h

deriving instance Countable for Status
deriving instance Countable for AnthropicWindow
deriving instance Countable for CodexWindow
deriving instance Countable for PerConsumer
deriving instance Countable for Reading
deriving instance Countable for Attributed
deriving instance Countable for Windows
deriving instance Countable for StateFile

/-- What is read of a file that was written. -/
def StateFile.kept (file : StateFile) : StateFile :=
  { file with registries := file.registries.mapVals (fun _ windows => windows.kept) }

open Classical in
/-- A codec that writes one file as a text that no other is written as. -/
noncomputable def JsonCodec.update (codec : JsonCodec) (file : StateFile) (text : Bytes)
    (hfree : ∀ other, codec.encode other ≠ text) : JsonCodec where
  encode other := if other = file then text else codec.encode other
  decode bytes := if bytes = text then .ok file.kept else codec.decode bytes
  decode_encode other := by
    by_cases heq : other = file
    · rw [if_pos heq, if_pos rfl, heq]
      rfl
    · rw [if_neg heq, if_neg (hfree other)]
      exact codec.decode_encode other

/-- Its text. -/
def sampleText (resetsAt : String) : Bytes :=
  ascii "\x7b" ++ (ascii ("\"schema\":\"praxis-broker-usage-state/v1\",\"registries\":" ++
    "\x7b\"default\":\x7b\"unified_5h\":\x7b\"utilization\":0.5,\"reset\":") ++
    (ascii resetsAt ++ (ascii (",\"status\":null,\"observed_at\":1000\x7d,\"unified_7d\":null," ++
    "\"primary\":null,\"secondary\":null,\"attributed\":[\x7b\"reading\":\x7b" ++
    "\"used_percent\":50.0,\"resets_at\":") ++ (ascii resetsAt ++
    ascii (",\"window_secs\":18000\x7d,\"observed_at\":1000,\"part_way\":true," ++
    "\"used\":[50.0,50.0]\x7d,null,null,null]\x7d\x7d\x7d")))))

end CredentialBroker
