import CredentialBroker.Usage.Restart

/-!
# The window shown and the window granted on

A registry has two copies of each window: the slot that `/usage` shows, which takes whatever a
response says, and the attributed window that grants are made on, which takes complete readings
only. `ShownAnthropic` and `ShownCodex` say how the copies go together: a slot that is complete is
of the same response as the attributed window. Every response keeps that, as a slot is set as a
whole, and so does a restart, which clamps both copies by the same time.
-/

namespace CredentialBroker

@[simp] theorem observedAt_charge (previous : Option Attributed) (reading : Reading)
    (consumer : Consumer) (now : UInt64) :
    (Attributed.charge previous reading consumer now).observedAt = now := by
  unfold Attributed.charge
  split
  · split <;> rfl
  · rfl

/-- An attributed window is of one response that read it so. -/
structure Attributed.OfResponse (window : Attributed) (observedAt : UInt64) (reading : Reading) :
    Prop where
  observedAt : window.observedAt = observedAt
  reading : window.reading = reading

/-- The two copies of one of Anthropic's windows. -/
structure ShownAnthropic (windowSecs : UInt64) (slot : Option AnthropicWindow)
    (attributed : Option Attributed) : Prop where
  complete : ∀ window utilization reset, slot = some window →
    window.utilization = some utilization → window.reset = some reset →
      ∃ a, attributed = some a ∧
        a.OfResponse window.observedAt ⟨utilization * 100, reset, windowSecs⟩
  shown : attributed.isSome = true → slot.isSome = true

/-- The two copies of one of Codex's windows. -/
structure ShownCodex (slot : Option CodexWindow) (attributed : Option Attributed) : Prop where
  complete : ∀ window usedPercent minutes after, slot = some window →
    window.usedPercent = some usedPercent → window.windowMinutes = some minutes →
    window.resetAfterSeconds = some after →
      ∃ a, attributed = some a ∧
        a.OfResponse window.observedAt
          ⟨usedPercent, window.observedAt.satAdd after, minutes.satMul 60⟩
  shown : attributed.isSome = true → slot.isSome = true

/-- The two copies of each window, by its index. -/
structure Windows.Shown (windows : Windows) : Prop where
  unified5h : ShownAnthropic fiveHours windows.unified5h (windows.attributed 0)
  unified7d : ShownAnthropic week windows.unified7d (windows.attributed 1)
  primary : ShownCodex windows.primary (windows.attributed 2)
  secondary : ShownCodex windows.secondary (windows.attributed 3)

/-! ## Responses -/

/-- Charging a slot what was read leaves it there. -/
private theorem ofResponse_chargeSlot (consumer : Consumer) (now : UInt64)
    (attributed : Option Attributed) (reading : Reading) :
    ∃ a, chargeSlot consumer now attributed (some (some reading)) = some a ∧
      a.OfResponse now reading :=
  ⟨_, rfl, observedAt_charge _ _ _ _, reading_charge _ _ _ _⟩

theorem observedAt_anthropicWindow {headers : HeaderMap} {name : String} {now : UInt64}
    {window : AnthropicWindow} (h : anthropicWindow headers name now = some window) :
    window.observedAt = now := by
  unfold anthropicWindow at h
  dsimp only at h
  split at h
  · cases h
    rfl
  · cases h

theorem ShownAnthropic.read {windowSecs : UInt64} {slot : Option AnthropicWindow}
    {attributed : Option Attributed} (h : ShownAnthropic windowSecs slot attributed)
    (headers : HeaderMap) (name : String) (consumer : Consumer) (now : UInt64) :
    ShownAnthropic windowSecs (readAnthropic headers name windowSecs now slot).slot
      (chargeSlot consumer now attributed (readAnthropic headers name windowSecs now slot).reading)
    := by
  unfold readAnthropic
  cases hwindow : anthropicWindow headers name now with
  | none => exact h
  | some window =>
      refine ⟨?_, fun _ => rfl⟩
      rintro _ utilization reset ⟨⟩ hutilization hreset
      have hreading : window.reading windowSecs =
          some ⟨utilization * 100, reset, windowSecs⟩ := by
        rw [AnthropicWindow.reading, hutilization, hreset]
      dsimp only
      rw [hreading, observedAt_anthropicWindow hwindow]
      exact ofResponse_chargeSlot consumer now attributed _

theorem ShownCodex.read {slot : Option CodexWindow} {attributed : Option Attributed}
    (h : ShownCodex slot attributed) (headers : HeaderMap) (name : String) (consumer : Consumer)
    (now : UInt64) :
    ShownCodex (readCodex headers name now slot).slot
      (chargeSlot consumer now attributed (readCodex headers name now slot).reading) := by
  unfold readCodex
  cases hwindow : codexWindow headers name now with
  | none => exact h
  | some window =>
      dsimp only
      split
      · -- the plan does not have the window, and both copies are gone
        refine ⟨?_, ?_⟩
        · rintro _ _ _ _ ⟨⟩
        · rintro ⟨⟩
      · refine ⟨?_, fun _ => rfl⟩
        rintro _ usedPercent minutes after ⟨⟩ hused hminutes hafter
        have hobserved := (codexWindow_eq_some hwindow).2.2.2
        have hreading : window.reading now =
            some ⟨usedPercent, now.satAdd after, minutes.satMul 60⟩ := by
          rw [CodexWindow.reading, hused, hminutes, hafter]
        dsimp only
        rw [hreading, hobserved]
        exact ofResponse_chargeSlot consumer now attributed _

/-- **Step.** A response keeps the copies together. -/
theorem Windows.Shown.captureAt {usage : BrokerUsage} (h : usage.windows.Shown)
    (capture : Capture) : (usage.captureAt capture).windows.Shown := by
  unfold BrokerUsage.captureAt
  split
  · exact ⟨h.unified5h.read _ _ _ _, h.unified7d.read _ _ _ _, h.primary, h.secondary⟩
  · exact ⟨h.unified5h, h.unified7d, h.primary.read _ _ _ _, h.secondary.read _ _ _ _⟩
  · exact h

/-! ## Restarts -/

/-- An attributed window as loaded from the file at `now`. -/
private def loaded (now : UInt64) (window : Attributed) : Attributed :=
  let kept : Attributed := { window with restored := false, loadedAt := 0 }
  (kept.clampObservedAt now).1.restore now

/-- Loaded, it is of the same response, as observed no later than now. -/
private theorem ofResponse_loaded {window : Attributed} {observedAt : UInt64} {reading : Reading}
    (h : window.OfResponse observedAt reading) (now : UInt64) :
    (loaded now window).OfResponse (if now < observedAt then now else observedAt) reading := by
  obtain ⟨rfl, rfl⟩ := h
  unfold loaded Attributed.clampObservedAt
  dsimp only
  split
  · exact ⟨rfl, rfl⟩
  · exact ⟨rfl, rfl⟩

theorem ShownAnthropic.load {windowSecs : UInt64} {slot : Option AnthropicWindow}
    {attributed : Option Attributed} (h : ShownAnthropic windowSecs slot attributed)
    (now : UInt64) :
    ShownAnthropic windowSecs
      ((slot.map fun w => (Windows.clampAnthropic now w).1).map
        fun w => { w with restored := true })
      (attributed.map (loaded now)) := by
  refine ⟨?_, ?_⟩
  · intro window utilization reset hwindow hutilization hreset
    rw [Option.map_map, Option.map_eq_some_iff] at hwindow
    obtain ⟨old, hold, rfl⟩ := hwindow
    have hclamp : ((Windows.clampAnthropic now old).1.utilization = old.utilization ∧
        (Windows.clampAnthropic now old).1.reset = old.reset) ∧
        (Windows.clampAnthropic now old).1.observedAt =
          if now < old.observedAt then now else old.observedAt := by
      unfold Windows.clampAnthropic
      split
      · exact ⟨⟨rfl, rfl⟩, rfl⟩
      · exact ⟨⟨rfl, rfl⟩, rfl⟩
    obtain ⟨⟨hutil, hres⟩, hobserved⟩ := hclamp
    obtain ⟨a, ha, hof⟩ := h.complete old utilization reset hold (hutil.symm.trans hutilization)
      (hres.symm.trans hreset)
    refine ⟨loaded now a, by rw [ha]; rfl, ?_⟩
    show (loaded now a).OfResponse (Windows.clampAnthropic now old).1.observedAt _
    rw [hobserved]
    exact ofResponse_loaded hof now
  · simpa using h.shown

/-- Moving the observation back moves the seconds left up, and the reset stays. -/
private theorem satAdd_clamped {now observedAt after : UInt64} (hahead : now < observedAt)
    (hfits : observedAt.toNat + after.toNat ≤ UInt64.maxVal) :
    now.satAdd (after + (observedAt - now)) = observedAt.satAdd after := by
  have hlt : now.toNat < observedAt.toNat := hahead
  rw [← UInt64.toNat_inj, UInt64.toNat_satAdd, UInt64.toNat_satAdd,
    UInt64.toNat_add_sub_of_lt hahead hfits]
  omega

theorem ShownCodex.load {slot : Option CodexWindow} {attributed : Option Attributed}
    (h : ShownCodex slot attributed) (now : UInt64)
    (hfits : ∀ window, slot = some window → ∀ after, window.resetAfterSeconds = some after →
      window.observedAt.toNat + after.toNat ≤ UInt64.maxVal) :
    ShownCodex
      ((slot.map fun w => (Windows.clampCodex now w).1).map fun w => { w with restored := true })
      (attributed.map (loaded now)) := by
  refine ⟨?_, ?_⟩
  · intro window usedPercent minutes after hwindow hused hminutes hafter
    rw [Option.map_map, Option.map_eq_some_iff] at hwindow
    obtain ⟨old, hold, rfl⟩ := hwindow
    dsimp only [Function.comp_apply] at hused hminutes hafter ⊢
    unfold Windows.clampCodex at hused hminutes hafter ⊢
    by_cases hahead : now < old.observedAt
    · simp only [if_pos hahead] at hused hminutes hafter ⊢
      obtain ⟨before, hbefore, rfl⟩ := Option.map_eq_some_iff.mp hafter
      obtain ⟨a, ha, hof⟩ := h.complete old usedPercent minutes before hold hused hminutes hbefore
      have hloaded := ofResponse_loaded hof now
      rw [if_pos hahead] at hloaded
      refine ⟨loaded now a, by rw [ha]; rfl, ?_⟩
      rwa [satAdd_clamped hahead (hfits old hold before hbefore)]
    · simp only [if_neg hahead] at hused hminutes hafter ⊢
      obtain ⟨a, ha, hof⟩ := h.complete old usedPercent minutes after hold hused hminutes hafter
      have hloaded := ofResponse_loaded hof now
      rw [if_neg hahead] at hloaded
      exact ⟨loaded now a, by rw [ha]; rfl, hloaded⟩
  · simpa using h.shown

/-- **Step.** A restart keeps the copies together. -/
theorem Windows.Shown.restart {usage usage' : BrokerUsage} (h : usage.windows.Shown) {now : UInt64}
    (hrestart : usage.restart now = .ok usage') : usage'.windows.Shown := by
  obtain ⟨⟨⟩, hvalid, hok⟩ := Checked.bind_eq_ok.mp hrestart
  cases hok
  rw [Windows.validate_kept, Windows.validate_eq_ok] at hvalid
  obtain ⟨-, ⟨hprimary, hsecondary⟩, -⟩ := hvalid
  have hattributed : ∀ index,
      (({} : BrokerUsage).restore (usage.windows.kept.load now)).windows.attributed index =
        (usage.windows.attributed index).map (loaded now) := by
    intro index
    simp only [BrokerUsage.restore, Windows.load, Windows.clampObservedAt, Windows.kept,
      Option.map_map]
    rfl
  refine ⟨?_, ?_, ?_, ?_⟩
  · rw [hattributed]
    exact h.unified5h.load now
  · rw [hattributed]
    exact h.unified7d.load now
  · rw [hattributed]
    refine h.primary.load now fun window hwindow => ?_
    rw [hwindow, Windows.checkCodex_eq_ok] at hprimary
    exact hprimary.2.2
  · rw [hattributed]
    refine h.secondary.load now fun window hwindow => ?_
    rw [hwindow, Windows.checkCodex_eq_ok] at hsecondary
    exact hsecondary.2.2

/-- **The window shown and the window granted on agree**, after any history of responses and of
restarts that found their windows valid. -/
theorem shown_run (events : List UsageEvent) (usage : BrokerUsage)
    (h : UsageEvent.run events = .ok usage) : usage.windows.Shown := by
  induction events using List.reverseRecOn generalizing usage with
  | nil =>
      cases h
      have hnone : ∀ windowSecs, ShownAnthropic windowSecs none none :=
        fun _ => ⟨fun _ _ _ hslot => (nomatch hslot), fun hsome => (nomatch hsome)⟩
      have hnone' : ShownCodex none none :=
        ⟨fun _ _ _ _ hslot => (nomatch hslot), fun hsome => (nomatch hsome)⟩
      exact ⟨hnone _, hnone _, hnone', hnone'⟩
  | append_singleton events event ih =>
      obtain ⟨before, hbefore, hevent⟩ := UsageEvent.run_concat h
      cases event with
      | capture response =>
          cases hevent
          exact (ih before hbefore).captureAt response
      | restart now => exact (ih before hbefore).restart hevent

/-- The clock of a restart is behind the response before it, and both copies are observed then. -/
theorem shown_run_sample : ∃ usage, UsageEvent.run (sampleRestart.take 2) = .ok usage ∧
    ∃ a, usage.windows.attributed 2 = some a ∧ a.OfResponse 400 ⟨10, 1600, 18000⟩ := by
  have hok : (UsageEvent.run (sampleRestart.take 2)).toBool = true := by decide +kernel
  have hprimary : (UsageEvent.run (sampleRestart.take 2)).map (·.windows.primary) =
      .ok (some ⟨some 10, some 300, some 1200, 400, true⟩) := by decide +kernel
  obtain ⟨usage, hrun⟩ := Checked.exists_of_toBool hok
  rw [hrun] at hprimary
  have hslot : usage.windows.primary = some ⟨some 10, some 300, some 1200, 400, true⟩ := by
    injection hprimary
  obtain ⟨a, ha, hof⟩ :=
    (shown_run _ usage hrun).primary.complete _ 10 300 1200 hslot rfl rfl rfl
  exact ⟨usage, hrun, a, ha, hof⟩

end CredentialBroker
