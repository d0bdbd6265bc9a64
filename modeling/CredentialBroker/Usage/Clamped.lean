import CredentialBroker.Usage.Restart

/-!
# Clamping a restored file

A host whose clock starts behind reads a state file from the future. Clamping takes each window
that was stored as observed later as observed now. A Codex window stores its reset as seconds from
then, so these grow by as much as the observation moves back, and that they cannot overflow rests
on what validation checked before.

The three kinds of windows are one here, `StoredWindow`, by the slot they are in, and `ClampedBack`
is all that is promised of every slot.
-/

namespace CredentialBroker

/-! ## Slots -/

/-- A window of the state file. -/
inductive StoredWindow where
  | anthropic (window : AnthropicWindow)
  | codex (window : CodexWindow)
  | attributed (window : Attributed)
  deriving DecidableEq

namespace StoredWindow

def observedAt : StoredWindow → UInt64
  | anthropic window => window.observedAt
  | codex window => window.observedAt
  | attributed window => window.observedAt

/-- A window as observed no later than `now`. -/
def clamp (now : UInt64) : StoredWindow → StoredWindow
  | anthropic window => anthropic (Windows.clampAnthropic now window).1
  | codex window => codex (Windows.clampCodex now window).1
  | attributed window => attributed (window.clampObservedAt now).1

theorem clamp_of_le {now : UInt64} {window : StoredWindow} (h : window.observedAt ≤ now) :
    window.clamp now = window := by
  have hnot : ¬ now < window.observedAt := UInt64.not_lt.mpr h
  cases window with
  | anthropic w =>
      exact congrArg (fun p : AnthropicWindow × Option UInt64 => anthropic p.1) (if_neg hnot)
  | codex w => exact congrArg (fun p : CodexWindow × Option UInt64 => codex p.1) (if_neg hnot)
  | attributed w =>
      exact congrArg (fun p : Attributed × Option UInt64 => attributed p.1) (if_neg hnot)

theorem observedAt_clamp_of_lt {now : UInt64} {window : StoredWindow}
    (h : now < window.observedAt) : (window.clamp now).observedAt = now := by
  cases window with
  | anthropic w =>
      exact congrArg (fun p : AnthropicWindow × Option UInt64 => p.1.observedAt) (if_pos h)
  | codex w => exact congrArg (fun p : CodexWindow × Option UInt64 => p.1.observedAt) (if_pos h)
  | attributed w =>
      exact congrArg (fun p : Attributed × Option UInt64 => p.1.observedAt) (if_pos h)

theorem observedAt_clamp_le (now : UInt64) (window : StoredWindow) :
    (window.clamp now).observedAt ≤ now := by
  by_cases h : now < window.observedAt
  · rw [observedAt_clamp_of_lt h]
    exact UInt64.le_refl now
  · rw [clamp_of_le (UInt64.not_lt.mp h)]
    exact UInt64.not_lt.mp h

/-- Clamping changes a window exactly if it was observed later. -/
theorem clamp_eq_self {now : UInt64} {window : StoredWindow} :
    window.clamp now = window ↔ window.observedAt ≤ now := by
  constructor
  · intro h
    rw [← h]
    exact observedAt_clamp_le now window
  · exact clamp_of_le

end StoredWindow

/-- Where the state file keeps a window. -/
inductive WindowSlot where
  | unified5h
  | unified7d
  | primary
  | secondary
  | attributed (index : Fin 4)
  deriving DecidableEq

namespace WindowSlot

/-- What messages call it. -/
def name : WindowSlot → String
  | unified5h => "unified_5h"
  | unified7d => "unified_7d"
  | primary => "primary"
  | secondary => "secondary"
  | attributed index => "attributed[" ++ toString index.val ++ "]"

/-- All of them, in the order of the file. -/
def all : List WindowSlot :=
  unified5h :: unified7d :: primary :: secondary :: (List.finRange 4).map attributed

end WindowSlot

namespace Windows

/-- The window in a slot. -/
def inSlot (windows : Windows) : WindowSlot → Option StoredWindow
  | .unified5h => windows.unified5h.map .anthropic
  | .unified7d => windows.unified7d.map .anthropic
  | .primary => windows.primary.map .codex
  | .secondary => windows.secondary.map .codex
  | .attributed index => (windows.attributed index).map .attributed

/-- Clamping is of every slot by itself. -/
theorem inSlot_clamp (windows : Windows) (now : UInt64) (slot : WindowSlot) :
    (windows.clampObservedAt now).1.inSlot slot =
      (windows.inSlot slot).map (StoredWindow.clamp now) := by
  cases slot <;> simp [inSlot, clampObservedAt, Function.comp_def, StoredWindow.clamp]

theorem ext_inSlot {w v : Windows} (h : ∀ slot, w.inSlot slot = v.inSlot slot) : w = v := by
  obtain ⟨w5h, w7d, wprimary, wsecondary, wattributed⟩ := w
  obtain ⟨v5h, v7d, vprimary, vsecondary, vattributed⟩ := v
  have hanthropic : Function.Injective StoredWindow.anthropic :=
    fun _ _ => StoredWindow.anthropic.inj
  have hcodex : Function.Injective StoredWindow.codex := fun _ _ => StoredWindow.codex.inj
  have hcharged : Function.Injective StoredWindow.attributed :=
    fun _ _ => StoredWindow.attributed.inj
  have h5h : w5h = v5h := Option.map_injective hanthropic (h .unified5h)
  have h7d : w7d = v7d := Option.map_injective hanthropic (h .unified7d)
  have hprimary : wprimary = vprimary := Option.map_injective hcodex (h .primary)
  have hsecondary : wsecondary = vsecondary := Option.map_injective hcodex (h .secondary)
  have hattributed : wattributed = vattributed := by
    funext index
    exact Option.map_injective hcharged (h (.attributed index))
  rw [h5h, h7d, hprimary, hsecondary, hattributed]

/-- What clamping reports of a slot: its name and the stored time, if it changes the window. -/
def reportOf (windows : Windows) (now : UInt64) (slot : WindowSlot) : Option (String × UInt64) :=
  (windows.inSlot slot).bind fun window =>
    if window.clamp now = window then none else some (slot.name, window.observedAt)

theorem reportOf_eq (windows : Windows) (now : UInt64) (slot : WindowSlot) :
    windows.reportOf now slot =
      (windows.inSlot slot).bind fun window =>
        if now < window.observedAt then some (slot.name, window.observedAt) else none := by
  unfold reportOf
  congr 1
  funext window
  simp only [StoredWindow.clamp_eq_self]
  by_cases h : now < window.observedAt
  · rw [if_pos h, if_neg (UInt64.not_le.mpr h)]
  · rw [if_neg h, if_pos (UInt64.not_lt.mp h)]

/-- What the code reports of a window under its name. -/
private theorem clamped_eq {W : Type} {clamp : W → W × Option UInt64} {observedAt : W → UInt64}
    {now : UInt64}
    (h : ∀ w, (clamp w).2 = if now < observedAt w then some (observedAt w) else none)
    (name : String) (window : Option W) :
    clamped name clamp window =
      (window.bind fun w =>
        if now < observedAt w then some (name, observedAt w) else none).toList := by
  unfold clamped
  cases window with
  | none => rfl
  | some w =>
      rw [Option.bind_some, Option.bind_some, h w]
      split <;> rfl

/-- **The list is of the windows that change**, slot by slot. -/
theorem clampObservedAt_snd (windows : Windows) (now : UInt64) :
    (windows.clampObservedAt now).2 = WindowSlot.all.filterMap (windows.reportOf now) := by
  have hanthropic : ∀ w : AnthropicWindow, (clampAnthropic now w).2 =
      if now < w.observedAt then some w.observedAt else none := by
    intro w
    unfold clampAnthropic
    split <;> rfl
  have hcodex : ∀ w : CodexWindow, (clampCodex now w).2 =
      if now < w.observedAt then some w.observedAt else none := by
    intro w
    unfold clampCodex
    split <;> rfl
  have hattributed : ∀ w : Attributed, (w.clampObservedAt now).2 =
      if now < w.observedAt then some w.observedAt else none := by
    intro w
    unfold Attributed.clampObservedAt
    split <;> rfl
  rw [List.filterMap_eq_flatMap_toList]
  simp only [WindowSlot.all, List.flatMap_cons, List.flatMap_map, reportOf_eq, clampObservedAt,
    List.append_assoc, clamped_eq hanthropic, clamped_eq hcodex, clamped_eq hattributed, inSlot,
    Option.bind_map]
  rfl

/-! ## What is promised -/

theorem inSlot_clamp_eq_some {windows : Windows} {now : UInt64} {slot : WindowSlot}
    {window : StoredWindow} (h : (windows.clampObservedAt now).1.inSlot slot = some window) :
    ∃ stored, windows.inSlot slot = some stored ∧ stored.clamp now = window :=
  Option.map_eq_some_iff.mp (windows.inSlot_clamp now slot ▸ h)

theorem checkAnthropic_of_agree {name : String} {a b : Option AnthropicWindow}
    (h : Option.Rel AnthropicWindow.Agree a b) (hb : checkAnthropic name b = .ok ()) :
    checkAnthropic name a = .ok () := by
  cases h with
  | none => exact hb
  | some h =>
      unfold checkAnthropic at hb ⊢
      rw [Option.bind_some] at hb ⊢
      rw [h.utilization]
      exact hb

theorem checkCodex_of_agree {name : String} {a b : Option CodexWindow}
    (h : Option.Rel CodexWindow.Agree a b) (hb : checkCodex name b = .ok ()) :
    checkCodex name a = .ok () := by
  cases h with
  | none => exact hb
  | some h =>
      obtain ⟨hused, hminutes, hresets⟩ := checkCodex_eq_ok.mp hb
      rw [← h.usedPercent] at hused
      rw [← h.windowMinutes] at hminutes
      refine checkCodex_eq_ok.mpr ⟨hused, hminutes, ?_⟩
      intro after hafter
      have habsolute := h.absoluteReset
      unfold CodexWindow.absoluteReset at habsolute
      rw [hafter, Option.map_some] at habsolute
      obtain ⟨after', hafter', hsame⟩ := Option.map_eq_some_iff.mp habsolute.symm
      rw [← hsame]
      exact hresets after' hafter'

theorem validate_of_agree {a b : Attributed} (h : a.Agree b) : a.validate = b.validate := by
  unfold Attributed.validate
  rw [h.reading, h.used]

theorem checkAttributed_of_agree {index : Fin 4} {a b : Option Attributed}
    (h : Option.Rel Attributed.Agree a b) (hb : checkAttributed index b = .ok ()) :
    checkAttributed index a = .ok () := by
  cases h with
  | none => exact hb
  | some h =>
      rw [checkAttributed_eq_ok] at hb ⊢
      rintro _ ⟨⟩
      rw [validate_of_agree h]
      exact hb _ rfl

/-- What agrees with a valid file is valid. -/
theorem Agree.validate {w v : Windows} (h : w.Agree v) (hv : v.validate = .ok ()) :
    w.validate = .ok () := by
  obtain ⟨⟨h5h, h7d⟩, ⟨hprimary, hsecondary⟩, hattributed⟩ := validate_eq_ok.mp hv
  refine validate_eq_ok.mpr ⟨⟨?_, ?_⟩, ⟨?_, ?_⟩, ?_⟩
  · exact checkAnthropic_of_agree h.unified5h h5h
  · exact checkAnthropic_of_agree h.unified7d h7d
  · exact checkCodex_of_agree h.primary hprimary
  · exact checkCodex_of_agree h.secondary hsecondary
  · intro index
    exact checkAttributed_of_agree (h.attributed index) (hattributed index)

/-- Clamped windows are clamped. -/
theorem clampObservedAt_again (windows : Windows) {now later : UInt64} (h : now ≤ later) :
    (windows.clampObservedAt now).1.clampObservedAt later =
      ((windows.clampObservedAt now).1, []) := by
  have hle : ∀ slot window, (windows.clampObservedAt now).1.inSlot slot = some window →
      window.observedAt ≤ later := by
    intro slot window hwindow
    obtain ⟨stored, -, rfl⟩ := inSlot_clamp_eq_some hwindow
    exact UInt64.le_trans (stored.observedAt_clamp_le now) h
  apply Prod.ext
  · apply ext_inSlot
    intro slot
    rw [inSlot_clamp]
    cases hwindow : (windows.clampObservedAt now).1.inSlot slot with
    | none => rfl
    | some window => rw [Option.map_some, StoredWindow.clamp_of_le (hle slot window hwindow)]
  · rw [clampObservedAt_snd, List.filterMap_eq_nil_iff]
    intro slot _
    unfold reportOf
    rw [Option.bind_eq_none_iff]
    intro window hwindow
    rw [if_pos (StoredWindow.clamp_of_le (hle slot window hwindow))]

/-- What is promised of clamping a valid file. -/
structure ClampedBack (windows : Windows) (now : UInt64) : Prop where
  /-- Nothing under- or overflows: a Codex window that is ahead is so by a difference, and the
  seconds to its reset have room for it. -/
  arithmetic : ∀ window, windows.primary = some window ∨ windows.secondary = some window →
    now < window.observedAt →
      (window.observedAt - now).toNat + now.toNat = window.observedAt.toNat ∧
        ∀ after, window.resetAfterSeconds = some after →
          after.toNat + (window.observedAt - now).toNat ≤ UInt64.maxVal
  observed : ∀ slot window, (windows.clampObservedAt now).1.inSlot slot = some window →
    window.observedAt ≤ now
  unchanged : ∀ slot window, windows.inSlot slot = some window → window.observedAt ≤ now →
    (windows.clampObservedAt now).1.inSlot slot = some window
  /-- Readings, absolute resets and charges are as they were. -/
  agree : (windows.clampObservedAt now).1.Agree windows
  /-- The list names the windows that change, each once, with when they were stored as observed. -/
  reported : (windows.clampObservedAt now).2 = WindowSlot.all.filterMap fun slot =>
    (windows.inSlot slot).bind fun window =>
      if (windows.clampObservedAt now).1.inSlot slot = some window then none
      else some (slot.name, window.observedAt)
  valid : (windows.clampObservedAt now).1.validate = .ok ()
  again : ∀ later, now ≤ later → (windows.clampObservedAt now).1.clampObservedAt later =
    ((windows.clampObservedAt now).1, [])

/-- **Clamping only moves observations back.** -/
theorem clamps_back (windows : Windows) (h : windows.validate = .ok ()) (now : UInt64) :
    windows.ClampedBack now where
  arithmetic := by
    intro window hwindow hahead
    have hlt : now.toNat < window.observedAt.toNat := hahead
    have hsub : (window.observedAt - now).toNat = window.observedAt.toNat - now.toNat :=
      UInt64.toNat_sub_of_le _ _ (UInt64.le_of_lt hahead)
    refine ⟨by omega, ?_⟩
    intro after hafter
    have hfits := resets_of_validate h hwindow after hafter
    omega
  observed := by
    intro slot window hwindow
    obtain ⟨stored, -, rfl⟩ := inSlot_clamp_eq_some hwindow
    exact stored.observedAt_clamp_le now
  unchanged := by
    intro slot window hwindow hle
    rw [inSlot_clamp, hwindow, Option.map_some, StoredWindow.clamp_of_le hle]
  agree := (Agree.refl windows).clamp h now
  reported := by
    rw [clampObservedAt_snd]
    congr 1
    funext slot
    unfold reportOf
    rw [inSlot_clamp]
    cases windows.inSlot slot with
    | none => rfl
    | some window => simp only [Option.bind_some, Option.map_some, Option.some.injEq]
  valid := ((Agree.refl windows).clamp h now).validate h
  again := fun _ hlater => clampObservedAt_again windows hlater

/-- A file with one window that is ahead of a clock at 400 and one that is not. -/
def sampleAhead : Windows where
  unified5h := some ⟨some (1 / 2), some 9000, none, 300, false⟩
  primary := some ⟨some 10, some 300, some 60, 1000, false⟩

/-- The one that is ahead is clamped, and then resets 660 seconds from now. -/
theorem clamps_back_sample :
    sampleAhead.ClampedBack 400 ∧
      (sampleAhead.clampObservedAt 400).2 = [("primary", 1000)] ∧
      (sampleAhead.clampObservedAt 400).1.primary =
        some ⟨some 10, some 300, some 660, 400, false⟩ := by
  have hvalid : sampleAhead.validate = .ok () := by decide +kernel
  exact ⟨clamps_back sampleAhead hvalid 400, by decide +kernel, by decide +kernel⟩

end Windows

end CredentialBroker
