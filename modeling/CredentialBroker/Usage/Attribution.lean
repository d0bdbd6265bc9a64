import CredentialBroker.Usage.Basic
import CredentialBroker.Budget.Ledger

/-!
# Every captured window is a ledger

Whatever headers come, a response does one of three things to each attributed window: nothing,
forget it because the plan does not have it, or charge it a reading that was checked on the way in.
So after any history of captures each window is the `ledger` of the readings since it was last
forgotten, and what is known of ledgers holds of it.
-/

namespace CredentialBroker

namespace Windows

/-- A reading that the header checks let through. -/
structure Checked (reading : Reading) : Prop where
  nonneg : 0 ≤ reading.usedPercent
  le : reading.usedPercent ≤ 100
  windowSecs : reading.windowSecs ≠ 0

/-- Each attributed window is the ledger of some checked readings. -/
def Ledgered (windows : Windows) : Prop :=
  ∀ index, ∃ steps : List Observation,
    (∀ o ∈ steps, Checked o.reading) ∧ windows.attributed index = ledger steps

end Windows

open Windows

/-- What a window read from Anthropic's headers has of them. -/
theorem anthropicWindow_eq_some {headers : HeaderMap} {name : String} {now : UInt64}
    {window : AnthropicWindow} (h : anthropicWindow headers name now = some window) :
    window.utilization =
      headers.percent ("anthropic-ratelimit-unified-" ++ name ++ "-utilization") 1 := by
  unfold anthropicWindow at h
  dsimp only at h
  split at h
  · cases h
    rfl
  · cases h

/-- What a window read from Codex's headers has of them. -/
theorem codexWindow_eq_some {headers : HeaderMap} {name : String} {now : UInt64}
    {window : CodexWindow} (h : codexWindow headers name now = some window) :
    window.usedPercent = headers.percent ("x-codex-" ++ name ++ "-used-percent") 100 ∧
      window.windowMinutes = headers.number ("x-codex-" ++ name ++ "-window-minutes") ∧
      window.resetAfterSeconds = headers.number ("x-codex-" ++ name ++ "-reset-after-seconds") ∧
      window.observedAt = now := by
  unfold codexWindow at h
  dsimp only at h
  split at h
  · cases h
    exact ⟨rfl, rfl, rfl, rfl⟩
  · cases h

theorem checked_anthropic {headers : HeaderMap} {name : String} {windowSecs now : UInt64}
    {slot : Option AnthropicWindow} {reading : Reading} (hsecs : windowSecs ≠ 0)
    (h : (readAnthropic headers name windowSecs now slot).reading = some (some reading)) :
    Checked reading := by
  unfold readAnthropic at h
  split at h
  · cases h
  · next window hwindow =>
      have hreading : window.reading windowSecs = some reading := by simpa using h
      unfold AnthropicWindow.reading at hreading
      split at hreading
      · next utilization resetsAt hutil hreset =>
          cases hreading
          obtain ⟨hnonneg, hle⟩ :=
            HeaderMap.percent_mem ((anthropicWindow_eq_some hwindow).symm.trans hutil)
          exact ⟨by dsimp only; linarith, by dsimp only; linarith, hsecs⟩
      · cases hreading

theorem checked_codex {headers : HeaderMap} {name : String} {now : UInt64}
    {slot : Option CodexWindow} {reading : Reading}
    (h : (readCodex headers name now slot).reading = some (some reading)) : Checked reading := by
  unfold readCodex at h
  split at h
  · cases h
  · next window hwindow =>
      split at h
      · cases h
      · next hminutes =>
          have hreading : window.reading now = some reading := by simpa using h
          unfold CodexWindow.reading at hreading
          split at hreading
          · next usedPercent minutes after hused hmin hafter =>
              cases hreading
              obtain ⟨hnonneg, hle⟩ :=
                HeaderMap.percent_mem ((codexWindow_eq_some hwindow).1.symm.trans hused)
              refine ⟨hnonneg, hle, fun hzero => hminutes ?_⟩
              -- a length of no seconds would be one of no minutes
              have hnat : min (minutes.toNat * 60) UInt64.maxVal = 0 := by
                have := congrArg UInt64.toNat hzero
                rwa [UInt64.toNat_satMul] at this
              have hmax : 0 < UInt64.maxVal := by decide
              have hnone : minutes.toNat = (0 : UInt64).toNat := by
                show minutes.toNat = 0
                omega
              rw [hmin, UInt64.toNat.inj hnone]
          · cases hreading

/-- Charging a slot appends to its ledger, or starts one. -/
theorem exists_ledger_chargeSlot {window : Option Attributed} {consumer : Consumer} {now : UInt64}
    {read : Option (Option Reading)}
    (hread : ∀ reading, read = some (some reading) → Checked reading)
    (h : ∃ steps : List Observation, (∀ o ∈ steps, Checked o.reading) ∧ window = ledger steps) :
    ∃ steps : List Observation, (∀ o ∈ steps, Checked o.reading) ∧
      chargeSlot consumer now window read = ledger steps := by
  match read, hread with
  | none, _ => exact h
  | some none, _ => exact ⟨[], by simp, rfl⟩
  | some (some reading), hread =>
      obtain ⟨steps, hsteps, rfl⟩ := h
      refine ⟨steps ++ [⟨reading, consumer, now⟩], ?_, ?_⟩
      · intro o ho
        rcases List.mem_append.mp ho with ho | ho
        · exact hsteps o ho
        · rw [List.mem_singleton.mp ho]
          exact hread reading rfl
      · rw [ledger_concat]
        rfl

/-- **Step.** A response keeps every window a ledger. -/
theorem Windows.Ledgered.captureAt {usage : BrokerUsage} (h : usage.windows.Ledgered)
    (capture : Capture) : (usage.captureAt capture).windows.Ledgered := by
  unfold BrokerUsage.captureAt
  split
  · intro index
    dsimp only [Windows.captureAnthropic]
    split
    · exact exists_ledger_chargeSlot (fun _ => checked_anthropic (by decide)) (h 0)
    · split
      · exact exists_ledger_chargeSlot (fun _ => checked_anthropic (by decide)) (h 1)
      · exact h index
  · intro index
    dsimp only [Windows.captureCodex]
    split
    · exact exists_ledger_chargeSlot (fun _ => checked_codex) (h 2)
    · split
      · exact exists_ledger_chargeSlot (fun _ => checked_codex) (h 3)
      · exact h index
  · exact h

/-- A registry after a history of responses. -/
def BrokerUsage.captures (usage : BrokerUsage) (captures : List Capture) : BrokerUsage :=
  captures.foldl BrokerUsage.captureAt usage

/-- **Run.** After any history of responses every window is a ledger. -/
theorem ledgered_captures (captures : List Capture) :
    ∀ {usage : BrokerUsage}, usage.windows.Ledgered →
      (usage.captures captures).windows.Ledgered := by
  induction captures with
  | nil =>
      intro usage h
      exact h
  | cons capture captures ih =>
      intro usage h
      exact ih (h.captureAt capture)

/-- A registry that has read nothing. -/
theorem ledgered_empty (spend : Option Spend) : (BrokerUsage.mk {} spend).windows.Ledgered :=
  fun _ => ⟨[], by simp, rfl⟩

theorem Windows.Ledgered.sound {windows : Windows} (h : windows.Ledgered) {index : Fin 4}
    {window : Attributed} (hw : windows.attributed index = some window) : Sound window := by
  obtain ⟨steps, hsteps, heq⟩ := h index
  exact ledger_sound (fun o ho => ⟨(hsteps o ho).nonneg, (hsteps o ho).le⟩) (heq.symm.trans hw)

/-- A window that readings led to was read with a length, and not restored. -/
theorem Windows.Ledgered.fresh {windows : Windows} (h : windows.Ledgered) {index : Fin 4}
    {window : Attributed} (hw : windows.attributed index = some window) :
    window.reading.windowSecs ≠ 0 ∧ window.restored = false ∧ window.loadedAt = 0 := by
  obtain ⟨steps, hsteps, heq⟩ := h index
  obtain ⟨last, hlast, hreading⟩ := ledger_eq_some (heq.symm.trans hw)
  refine ⟨hreading ▸ (hsteps last (List.mem_of_getLast? hlast)).windowSecs, ?_⟩
  rw [heq] at hw
  obtain ⟨pre, rfl⟩ := List.getLast?_eq_some_iff.mp hlast
  rw [ledger_concat, Option.some.injEq] at hw
  subst hw
  unfold Attributed.charge
  split
  · split <;> exact ⟨rfl, rfl⟩
  · exact ⟨rfl, rfl⟩

end CredentialBroker
