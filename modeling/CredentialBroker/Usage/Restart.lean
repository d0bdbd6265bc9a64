import CredentialBroker.Usage.StateFile

/-!
# Restarts go unnoticed

A registry that restarts with its usage state file goes on from windows that were written, checked,
clamped to the time of the start and marked restored. Compared with the registry that never
restarted, only when a window was observed and the two marks differ. `Windows.Agree` is that
comparison, and it is a simulation: clamping moves `observed_at` and, for Codex, the seconds left by
as much the other way, so the reset stays where it is; and what a response charges depends on the
previous reading, the shares and `part_way` alone. A response that reads a window completely sets
all of it anew, and with that the last difference is gone.
-/

namespace CredentialBroker

/-! ## Restarting -/

/-- `BrokerUsage::restore`: take up windows from the usage state file, as restored until a response
reads them again. -/
def BrokerUsage.restore (usage : BrokerUsage) (windows : Windows) : BrokerUsage :=
  { usage with
    windows :=
      { unified5h := windows.unified5h.map (fun w => { w with restored := true })
        unified7d := windows.unified7d.map (fun w => { w with restored := true })
        primary := windows.primary.map (fun w => { w with restored := true })
        secondary := windows.secondary.map (fun w => { w with restored := true })
        attributed := windows.attributed } }

/-- A restart at `now`: the registry's windows as the file keeps them, if they are valid, are what
the next process takes up. -/
def BrokerUsage.restart (usage : BrokerUsage) (now : UInt64) : Except String BrokerUsage := do
  usage.windows.kept.validate
  return ({} : BrokerUsage).restore (usage.windows.kept.load now)

/-- What happens to a registry. -/
inductive UsageEvent where
  | capture (capture : Capture)
  | restart (now : UInt64)

namespace UsageEvent

/-- One event. -/
def apply (usage : BrokerUsage) : UsageEvent → Except String BrokerUsage
  | capture response => .ok (usage.captureAt response)
  | restart now => usage.restart now

/-- A registry after a history, if every restart found its windows valid. -/
def run (events : List UsageEvent) : Except String BrokerUsage := events.foldlM apply {}

/-- The responses of a history. -/
def captures (events : List UsageEvent) : List Capture :=
  events.filterMap fun
    | capture response => some response
    | restart _ => none

end UsageEvent

/-- What a response says of one of the four windows: a complete reading, or that the plan does not
have the window. -/
def Capture.reading (capture : Capture) : Fin 4 → Option (Option Reading)
  | 0 => if capture.provider = .anthropic then
      (readAnthropic capture.headers "5h" fiveHours capture.now none).reading else none
  | 1 => if capture.provider = .anthropic then
      (readAnthropic capture.headers "7d" week capture.now none).reading else none
  | 2 => if capture.provider = .codex then
      (readCodex capture.headers "primary" capture.now none).reading else none
  | 3 => if capture.provider = .codex then
      (readCodex capture.headers "secondary" capture.now none).reading else none

/-- Some response read the window completely since the last restart. -/
def UsageEvent.readSince (index : Fin 4) (events : List UsageEvent) : Bool :=
  events.foldl (fun read event => match event with
    | .capture response => read || (response.reading index).isSome
    | .restart _ => false) false

/-! ## The comparison -/

/-- Two states of an attributed window that differ at most in when it was observed and in what marks
it as restored. -/
structure Attributed.Agree (a b : Attributed) : Prop where
  reading : a.reading = b.reading
  used : a.used = b.used
  partWay : a.partWay = b.partWay

structure AnthropicWindow.Agree (a b : AnthropicWindow) : Prop where
  utilization : a.utilization = b.utilization
  reset : a.reset = b.reset
  status : a.status = b.status

/-- When a Codex window resets. -/
def CodexWindow.absoluteReset (window : CodexWindow) : Option Nat :=
  window.resetAfterSeconds.map (fun after => window.observedAt.toNat + after.toNat)

structure CodexWindow.Agree (a b : CodexWindow) : Prop where
  usedPercent : a.usedPercent = b.usedPercent
  windowMinutes : a.windowMinutes = b.windowMinutes
  absoluteReset : a.absoluteReset = b.absoluteReset

namespace Windows

/-- Windows that differ at most in when they were observed and in what marks them as restored. -/
structure Agree (w v : Windows) : Prop where
  unified5h : Option.Rel AnthropicWindow.Agree w.unified5h v.unified5h
  unified7d : Option.Rel AnthropicWindow.Agree w.unified7d v.unified7d
  primary : Option.Rel CodexWindow.Agree w.primary v.primary
  secondary : Option.Rel CodexWindow.Agree w.secondary v.secondary
  attributed : ∀ index, Option.Rel Attributed.Agree (w.attributed index) (v.attributed index)

/-- Both copies of a window are the same in every field. -/
structure Same (w v : Windows) (index : Fin 4) : Prop where
  attributed : w.attributed index = v.attributed index
  unified5h : index = 0 → w.unified5h = v.unified5h
  unified7d : index = 1 → w.unified7d = v.unified7d
  primary : index = 2 → w.primary = v.primary
  secondary : index = 3 → w.secondary = v.secondary

end Windows

theorem AnthropicWindow.Agree.refl (a : AnthropicWindow) : a.Agree a := ⟨rfl, rfl, rfl⟩

theorem CodexWindow.Agree.refl (a : CodexWindow) : a.Agree a := ⟨rfl, rfl, rfl⟩

theorem Attributed.Agree.refl (a : Attributed) : a.Agree a := ⟨rfl, rfl, rfl⟩

/-- Options of what is related are related. -/
private theorem rel_refl {α : Type} {r : α → α → Prop} (h : ∀ a, r a a) (o : Option α) :
    Option.Rel r o o := by
  cases o with
  | none => exact .none
  | some a => exact .some (h a)

theorem Windows.Agree.refl (windows : Windows) : windows.Agree windows where
  unified5h := rel_refl AnthropicWindow.Agree.refl _
  unified7d := rel_refl AnthropicWindow.Agree.refl _
  primary := rel_refl CodexWindow.Agree.refl _
  secondary := rel_refl CodexWindow.Agree.refl _
  attributed := fun _ => rel_refl Attributed.Agree.refl _

/-- A change that keeps the relation may be made under the option. -/
private theorem rel_map_left {α β : Type} {r : α → β → Prop} {f : α → α} {o : Option α}
    {p : Option β} (hf : ∀ a b, o = some a → r a b → r (f a) b) (h : Option.Rel r o p) :
    Option.Rel r (o.map f) p := by
  cases h with
  | none => exact .none
  | some h => exact .some (hf _ _ rfl h)

/-! ## Responses -/

/-- What a response charges depends on what agrees. -/
theorem Attributed.charge_congr {a b : Option Attributed} (h : Option.Rel Attributed.Agree a b)
    (reading : Reading) (consumer : Consumer) (now : UInt64) :
    charge a reading consumer now = charge b reading consumer now := by
  cases h with
  | none => rfl
  | some h => simp only [charge, h.reading, h.used, h.partWay]

/-- Charging keeps the agreement, and a reading makes the two the same. -/
theorem chargeSlot_congr {a b : Option Attributed} (h : Option.Rel Attributed.Agree a b)
    (consumer : Consumer) (now : UInt64) (read : Option (Option Reading)) :
    Option.Rel Attributed.Agree (chargeSlot consumer now a read) (chargeSlot consumer now b read) ∧
      (a = b ∨ read.isSome = true →
        chargeSlot consumer now a read = chargeSlot consumer now b read) := by
  cases read with
  | none =>
      refine ⟨h, ?_⟩
      rintro (rfl | hread)
      · rfl
      · cases hread
  | some reading =>
      have heq : chargeSlot consumer now a (some reading) =
          chargeSlot consumer now b (some reading) := by
        cases reading with
        | none => rfl
        | some reading =>
            exact congrArg some (Attributed.charge_congr h reading consumer now)
      refine ⟨?_, fun _ => heq⟩
      rw [heq]
      exact rel_refl Attributed.Agree.refl _

/-- One turn of a capture's loop leaves its slot alone or sets it whatever was there. -/
def Overwrites {W : Type} (turn : Option W → SlotRead W) : Prop :=
  (∀ slot, turn slot = ⟨slot, none⟩) ∨ ∃ read, ∀ slot, turn slot = read

theorem overwrites_readAnthropic (headers : HeaderMap) (name : String) (windowSecs now : UInt64) :
    Overwrites (readAnthropic headers name windowSecs now) := by
  unfold Overwrites readAnthropic
  cases anthropicWindow headers name now with
  | none => exact .inl fun _ => rfl
  | some window => exact .inr ⟨_, fun _ => rfl⟩

theorem overwrites_readCodex (headers : HeaderMap) (name : String) (now : UInt64) :
    Overwrites (readCodex headers name now) := by
  unfold Overwrites readCodex
  cases codexWindow headers name now with
  | none => exact .inl fun _ => rfl
  | some window => exact .inr ⟨_, fun _ => rfl⟩

/-- What is charged does not depend on the slot. -/
theorem Overwrites.reading_eq {W : Type} {turn : Option W → SlotRead W} (h : Overwrites turn)
    (slot : Option W) : (turn slot).reading = (turn none).reading := by
  rcases h with hkeep | ⟨read, hread⟩
  · rw [hkeep, hkeep]
  · rw [hread, hread]

/-- What a turn leaves in a slot agrees, and is the same once the window is read. -/
theorem Overwrites.slot_congr {W : Type} {turn : Option W → SlotRead W} (h : Overwrites turn)
    {r : W → W → Prop} (hrefl : ∀ a, r a a) {a b : Option W} (hab : Option.Rel r a b)
    (P : Prop) [Decidable P] :
    Option.Rel r (if P then (turn a).slot else a) (if P then (turn b).slot else b) ∧
      (a = b ∨ (if P then (turn none).reading else none).isSome = true →
        (if P then (turn a).slot else a) = if P then (turn b).slot else b) := by
  have hsame : a = b ∨ (none : Option (Option Reading)).isSome = true → a = b := by simp
  split
  · rcases h with hkeep | ⟨read, hread⟩
    · simp only [hkeep]
      exact ⟨hab, hsame⟩
    · simp only [hread]
      exact ⟨rel_refl hrefl _, fun _ => trivial⟩
  · exact ⟨hab, hsame⟩

/-- What a response does to the two copies of the windows, window by window. -/
structure Captured (capture : Capture) (w w' : Windows) : Prop where
  unified5h : w'.unified5h = if capture.provider = .anthropic then
    (readAnthropic capture.headers "5h" fiveHours capture.now w.unified5h).slot else w.unified5h
  unified7d : w'.unified7d = if capture.provider = .anthropic then
    (readAnthropic capture.headers "7d" week capture.now w.unified7d).slot else w.unified7d
  primary : w'.primary = if capture.provider = .codex then
    (readCodex capture.headers "primary" capture.now w.primary).slot else w.primary
  secondary : w'.secondary = if capture.provider = .codex then
    (readCodex capture.headers "secondary" capture.now w.secondary).slot else w.secondary
  attributed : ∀ index, w'.attributed index =
    chargeSlot capture.consumer capture.now (w.attributed index) (capture.reading index)

theorem captured_captureAt (usage : BrokerUsage) (capture : Capture) :
    Captured capture usage.windows (usage.captureAt capture).windows := by
  have h5 := (overwrites_readAnthropic capture.headers "5h" fiveHours capture.now).reading_eq
    usage.windows.unified5h
  have h7 := (overwrites_readAnthropic capture.headers "7d" week capture.now).reading_eq
    usage.windows.unified7d
  have hp := (overwrites_readCodex capture.headers "primary" capture.now).reading_eq
    usage.windows.primary
  have hs := (overwrites_readCodex capture.headers "secondary" capture.now).reading_eq
    usage.windows.secondary
  unfold BrokerUsage.captureAt
  cases hprovider : capture.provider with
  | anthropic =>
      constructor
      case attributed =>
        intro index
        match index with
        | 0 => simp only [Capture.reading, hprovider, if_true, ← h5]; rfl
        | 1 => simp only [Capture.reading, hprovider, if_true, ← h7]; rfl
        | 2 | 3 => simp only [Capture.reading, hprovider, reduceCtorEq, if_false]; rfl
      all_goals rw [hprovider]; rfl
  | codex =>
      constructor
      case attributed =>
        intro index
        match index with
        | 0 | 1 => simp only [Capture.reading, hprovider, reduceCtorEq, if_false]; rfl
        | 2 => simp only [Capture.reading, hprovider, if_true, ← hp]; rfl
        | 3 => simp only [Capture.reading, hprovider, if_true, ← hs]; rfl
      all_goals rw [hprovider]; rfl
  | mistral =>
      constructor
      case attributed =>
        intro index
        match index with
        | 0 | 1 | 2 | 3 => simp only [Capture.reading, hprovider, reduceCtorEq, if_false]; rfl
      all_goals rw [hprovider]; rfl

/-- **A response is seen alike.** What it makes of windows that agree agrees, and it is the same for
a window that was the same or is read completely. -/
theorem Windows.Agree.captured {capture : Capture} {w w' v v' : Windows} (h : w.Agree v)
    (hw : Captured capture w w') (hv : Captured capture v v') :
    w'.Agree v' ∧
      ∀ index, w.Same v index ∨ (capture.reading index).isSome = true → w'.Same v' index := by
  have h5 := (overwrites_readAnthropic capture.headers "5h" fiveHours capture.now).slot_congr
    AnthropicWindow.Agree.refl h.unified5h (capture.provider = .anthropic)
  have h7 := (overwrites_readAnthropic capture.headers "7d" week capture.now).slot_congr
    AnthropicWindow.Agree.refl h.unified7d (capture.provider = .anthropic)
  have hp := (overwrites_readCodex capture.headers "primary" capture.now).slot_congr
    CodexWindow.Agree.refl h.primary (capture.provider = .codex)
  have hs := (overwrites_readCodex capture.headers "secondary" capture.now).slot_congr
    CodexWindow.Agree.refl h.secondary (capture.provider = .codex)
  have ha := fun index =>
    chargeSlot_congr (h.attributed index) capture.consumer capture.now (capture.reading index)
  rw [← hw.unified5h, ← hv.unified5h] at h5
  rw [← hw.unified7d, ← hv.unified7d] at h7
  rw [← hw.primary, ← hv.primary] at hp
  rw [← hw.secondary, ← hv.secondary] at hs
  simp only [← hw.attributed, ← hv.attributed] at ha
  refine ⟨⟨h5.1, h7.1, hp.1, hs.1, fun index => (ha index).1⟩, ?_⟩
  intro index hsame
  refine ⟨(ha index).2 (hsame.imp_left Windows.Same.attributed), ?_, ?_, ?_, ?_⟩
  · rintro rfl
    exact h5.2 (hsame.imp_left fun hold => hold.unified5h rfl)
  · rintro rfl
    exact h7.2 (hsame.imp_left fun hold => hold.unified7d rfl)
  · rintro rfl
    exact hp.2 (hsame.imp_left fun hold => hold.primary rfl)
  · rintro rfl
    exact hs.2 (hsame.imp_left fun hold => hold.secondary rfl)

/-! ## Restarts -/

/-- Clamping keeps a Codex window's reset where it is, if that is a time at all. -/
theorem CodexWindow.Agree.clamp {a b : CodexWindow} (h : a.Agree b) (now : UInt64)
    (hfits : ∀ after, a.resetAfterSeconds = some after →
      a.observedAt.toNat + after.toNat ≤ UInt64.maxVal) :
    (Windows.clampCodex now a).1.Agree b := by
  unfold Windows.clampCodex
  split
  · next hahead =>
      refine ⟨h.usedPercent, h.windowMinutes, ?_⟩
      rw [← h.absoluteReset]
      unfold CodexWindow.absoluteReset
      cases hafter : a.resetAfterSeconds with
      | none => rfl
      | some after =>
          have hle := hfits after hafter
          have hlt : now.toNat < a.observedAt.toNat := hahead
          have hadd := UInt64.toNat_add_sub_of_lt hahead hle
          simp only [Option.map_some, hadd]
          congr 1
          omega
  · exact h

theorem AnthropicWindow.Agree.clamp {a b : AnthropicWindow} (h : a.Agree b) (now : UInt64) :
    (Windows.clampAnthropic now a).1.Agree b := by
  unfold Windows.clampAnthropic
  split
  · exact ⟨h.utilization, h.reset, h.status⟩
  · exact h

theorem Attributed.Agree.clamp {a b : Attributed} (h : a.Agree b) (now : UInt64) :
    (a.clampObservedAt now).1.Agree b := by
  unfold Attributed.clampObservedAt
  split
  · exact ⟨h.reading, h.used, h.partWay⟩
  · exact h

/-- A Codex window of a file that is valid resets at some time. -/
theorem Windows.resets_of_validate {windows : Windows} (h : windows.validate = .ok ())
    {window : CodexWindow} (hwindow : windows.primary = some window ∨ windows.secondary = some window)
    (after : UInt64) (hafter : window.resetAfterSeconds = some after) :
    window.observedAt.toNat + after.toNat ≤ UInt64.maxVal := by
  obtain ⟨-, ⟨hprimary, hsecondary⟩, -⟩ := Windows.validate_eq_ok.mp h
  rcases hwindow with hwindow | hwindow
  · rw [hwindow, Windows.checkCodex_eq_ok] at hprimary
    exact hprimary.2.2 after hafter
  · rw [hwindow, Windows.checkCodex_eq_ok] at hsecondary
    exact hsecondary.2.2 after hafter

theorem Windows.Agree.kept {w v : Windows} (h : w.Agree v) : w.kept.Agree v where
  unified5h := h.unified5h
  unified7d := h.unified7d
  primary := h.primary
  secondary := h.secondary
  attributed := fun index =>
    rel_map_left (fun _ _ _ hab => ⟨hab.reading, hab.used, hab.partWay⟩) (h.attributed index)

/-- **Clamping a valid file changes nothing that agrees.** -/
theorem Windows.Agree.clamp {w v : Windows} (h : w.Agree v) (hvalid : w.validate = .ok ())
    (now : UInt64) : (w.clampObservedAt now).1.Agree v where
  unified5h := rel_map_left (fun _ _ _ hab => hab.clamp now) h.unified5h
  unified7d := rel_map_left (fun _ _ _ hab => hab.clamp now) h.unified7d
  primary := rel_map_left
    (fun _ _ ha hab => hab.clamp now (Windows.resets_of_validate hvalid (.inl ha))) h.primary
  secondary := rel_map_left
    (fun _ _ ha hab => hab.clamp now (Windows.resets_of_validate hvalid (.inr ha))) h.secondary
  attributed := fun index => rel_map_left (fun _ _ _ hab => hab.clamp now) (h.attributed index)

/-- **A restart changes nothing that agrees.** -/
theorem Windows.Agree.restart {usage usage' : BrokerUsage} {v : Windows}
    (h : usage.windows.Agree v) {now : UInt64} (hrestart : usage.restart now = .ok usage') :
    usage'.windows.Agree v := by
  obtain ⟨⟨⟩, hvalid, hok⟩ := Checked.bind_eq_ok.mp hrestart
  cases hok
  have hclamped := h.kept.clamp hvalid now
  refine ⟨?_, ?_, ?_, ?_, ?_⟩
  · exact rel_map_left (fun a b _ hab => ⟨hab.utilization, hab.reset, hab.status⟩)
      hclamped.unified5h
  · exact rel_map_left (fun a b _ hab => ⟨hab.utilization, hab.reset, hab.status⟩)
      hclamped.unified7d
  · exact rel_map_left (fun a b _ hab => ⟨hab.usedPercent, hab.windowMinutes, hab.absoluteReset⟩)
      hclamped.primary
  · exact rel_map_left (fun a b _ hab => ⟨hab.usedPercent, hab.windowMinutes, hab.absoluteReset⟩)
      hclamped.secondary
  · intro index
    exact rel_map_left (fun a b _ hab => ⟨hab.reading, hab.used, hab.partWay⟩)
      (hclamped.attributed index)

/-- The next process restarts each registry from the file that this one wrote, if it reads it. -/
theorem restart_of_readState (codec : JsonCodec) (registries : Registries) (path : String)
    (now : UInt64) {result : Assoc String Windows}
    (h : readState codec path (.ok (writeState codec.encode registries.allWindows)) now = .ok result)
    {name : String} {usage : BrokerUsage} (husage : registries.lookup name = some usage) :
    ∃ windows, result.lookup name = some windows ∧
      usage.restart now = .ok (({} : BrokerUsage).restore windows) := by
  have hlookup : registries.allWindows.lookup name = some usage.windows := by
    unfold Registries.allWindows
    rw [Assoc.lookup_mapVals, husage]
    rfl
  refine ⟨usage.windows.kept.load now, ?_, ?_⟩
  · unfold readState writeState at h
    simp only [Checked.mapError_eq_ok, bind, Except.bind, codec.decode_encode, ne_eq,
      not_true_eq_false, if_false] at h
    split at h
    · cases h
    · cases h
      rw [Assoc.lookup_mapVals, Assoc.lookup_mapVals, hlookup]
      rfl
  · have hvalid := (readState_writeState codec _ path now).mp ⟨result, h⟩ name _ hlookup
    unfold BrokerUsage.restart
    rw [(Windows.validate_kept _).mpr hvalid]
    rfl

/-! ## Whole histories -/

namespace UsageEvent

theorem run_concat {events : List UsageEvent} {event : UsageEvent} {usage : BrokerUsage}
    (h : run (events ++ [event]) = .ok usage) :
    ∃ before, run events = .ok before ∧ event.apply before = .ok usage := by
  unfold run at h
  rw [List.foldlM_append] at h
  obtain ⟨before, hbefore, hevent⟩ := Checked.bind_eq_ok.mp h
  refine ⟨before, hbefore, ?_⟩
  rw [List.foldlM_cons] at hevent
  obtain ⟨after, hafter, hnil⟩ := Checked.bind_eq_ok.mp hevent
  cases hnil
  exact hafter

theorem readSince_concat (index : Fin 4) (events : List UsageEvent) (event : UsageEvent) :
    readSince index (events ++ [event]) = match event with
      | .capture response => readSince index events || (response.reading index).isSome
      | .restart _ => false := by
  unfold readSince
  rw [List.foldl_append]
  rfl

end UsageEvent

/-- **Restarts go unnoticed.** -/
theorem restarts_unnoticed (events : List UsageEvent) (usage : BrokerUsage)
    (h : UsageEvent.run events = .ok usage) :
    let unrestarted := ({} : BrokerUsage).captures (UsageEvent.captures events)
    usage.windows.Agree unrestarted.windows ∧
      ∀ index, UsageEvent.readSince index events = true →
        usage.windows.Same unrestarted.windows index := by
  induction events using List.reverseRecOn generalizing usage with
  | nil =>
      cases h
      refine ⟨⟨.none, .none, .none, .none, fun _ => .none⟩, ?_⟩
      intro index hread
      cases hread
  | append_singleton events event ih =>
      obtain ⟨before, hbefore, hevent⟩ := UsageEvent.run_concat h
      obtain ⟨hagree, hsame⟩ := ih before hbefore
      cases event with
      | restart now =>
          have hcaptures : UsageEvent.captures (events ++ [.restart now]) =
              UsageEvent.captures events := by simp [UsageEvent.captures]
          rw [hcaptures]
          -- a restart keeps what the windows agree on; none is read completely since
          refine ⟨hagree.restart hevent, ?_⟩
          intro index hread
          rw [UsageEvent.readSince_concat] at hread
          cases hread
      | capture response =>
          cases hevent
          have hcaptures : UsageEvent.captures (events ++ [.capture response]) =
              UsageEvent.captures events ++ [response] := by simp [UsageEvent.captures]
          have hlast : ({} : BrokerUsage).captures (UsageEvent.captures events ++ [response]) =
              (({} : BrokerUsage).captures (UsageEvent.captures events)).captureAt response := by
            unfold BrokerUsage.captures
            rw [List.foldl_append]
            rfl
          rw [hcaptures, hlast]
          obtain ⟨hagree', hsame'⟩ := hagree.captured (captured_captureAt before response)
            (captured_captureAt _ response)
          refine ⟨hagree', ?_⟩
          intro index hread
          rw [UsageEvent.readSince_concat] at hread
          apply hsame' index
          rcases Bool.or_eq_true _ _ ▸ hread with hread | hread
          · exact .inl (hsame index hread)
          · exact .inr hread

/-- What Codex says of the short window. -/
def samplePrimary (usedPercent resetAfter : String) : HeaderMap :=
  [("x-codex-primary-used-percent", ascii usedPercent),
    ("x-codex-primary-window-minutes", ascii "300"),
    ("x-codex-primary-reset-after-seconds", ascii resetAfter)]

/-- A restart by a clock that is behind, between two responses. -/
def sampleRestart : List UsageEvent :=
  [.capture ⟨.codex, .pub, samplePrimary "10" "600", 1000⟩, .restart 400,
    .capture ⟨.codex, .priv, samplePrimary "30" "500", 1100⟩]

/-- The second response leaves the window as if there had been no restart. -/
theorem restarts_unnoticed_sample : ∃ usage, UsageEvent.run sampleRestart = .ok usage ∧
    usage.windows.Same
      (({} : BrokerUsage).captures (UsageEvent.captures sampleRestart)).windows 2 := by
  have hok : (UsageEvent.run sampleRestart).toBool = true := by decide +kernel
  obtain ⟨usage, hrun⟩ := Checked.exists_of_toBool hok
  exact ⟨usage, hrun, (restarts_unnoticed sampleRestart usage hrun).2 2 (by decide +kernel)⟩

end CredentialBroker
