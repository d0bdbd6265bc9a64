import CredentialBroker.Usage.Attribution
import CredentialBroker.Util.Checked

/-!
# Reading back the usage state file

The file is written from whatever responses reported, and read back only if every number in it
passes `Windows.validate`, all registries together. The two sides agree on everything but the two
numbers a Codex response gives as integers: the length of a window in minutes and the seconds to its
reset are kept as they came, while the reader wants them to fit in 64 bits as seconds and as a time.
`Capture.Fits` is that condition on a response, and `reads_back_iff` says that it is the whole of
it; `overflowing` is a response that breaks it, and with it the file.
-/

namespace CredentialBroker

/-! ## What validation asks -/

/-- Some value of an option fails a test. -/
private theorem any_not_decide {α : Type} {P : α → Prop} [DecidablePred P] {o : Option α} :
    o.any (fun x => !decide (P x)) = true ↔ ¬ ∀ x, o = some x → P x := by
  cases o <;> simp

namespace Windows

theorem validate_eq_ok {windows : Windows} :
    windows.validate = .ok () ↔
      (checkAnthropic "unified_5h" windows.unified5h = .ok () ∧
        checkAnthropic "unified_7d" windows.unified7d = .ok ()) ∧
      (checkCodex "primary" windows.primary = .ok () ∧
        checkCodex "secondary" windows.secondary = .ok ()) ∧
      ∀ index, checkAttributed index (windows.attributed index) = .ok () := by
  unfold validate
  rw [Checked.then_eq_ok, Checked.then_eq_ok, Checked.then_eq_ok, Checked.then_eq_ok,
    Checked.forM_eq_ok]
  simp only [List.mem_finRange, forall_const]
  tauto

theorem checkAnthropic_eq_ok {name : String} {window : Option AnthropicWindow} :
    checkAnthropic name window = .ok () ↔
      ∀ u, window.bind AnthropicWindow.utilization = some u → 0 ≤ u ∧ u ≤ 1 := by
  unfold checkAnthropic
  simp only [any_not_decide]
  split
  · next h => simp only [reduceCtorEq, h]
  · next h => simpa only [true_iff, not_not] using h

theorem checkCodex_eq_ok {name : String} {window : CodexWindow} :
    checkCodex name (some window) = .ok () ↔
      (∀ u, window.usedPercent = some u → 0 ≤ u ∧ u ≤ 100) ∧
      (∀ m, window.windowMinutes = some m → m ≠ 0 ∧ m.toNat * 60 ≤ UInt64.maxVal) ∧
      (∀ a, window.resetAfterSeconds = some a →
        window.observedAt.toNat + a.toNat ≤ UInt64.maxVal) := by
  have hminutes :
      (window.windowMinutes.any (fun n => n = 0 || (n.checkedMul 60).isNone) = true) ↔
        ¬ ∀ m, window.windowMinutes = some m → m ≠ 0 ∧ m.toNat * 60 ≤ UInt64.maxVal := by
    cases window.windowMinutes with
    | none => simp
    | some m =>
        rw [Option.any_some, Bool.or_eq_true, decide_eq_true_eq, UInt64.checkedMul_isNone]
        simp [or_iff_not_imp_left]
  have hafter :
      (window.resetAfterSeconds.any (fun n => (window.observedAt.checkedAdd n).isNone) = true) ↔
        ¬ ∀ a, window.resetAfterSeconds = some a →
          window.observedAt.toNat + a.toNat ≤ UInt64.maxVal := by
    cases window.resetAfterSeconds with
    | none => simp
    | some a =>
        rw [Option.any_some, UInt64.checkedAdd_isNone]
        simp
  unfold checkCodex
  simp only [any_not_decide, hminutes, hafter]
  split
  · next h => simp [h]
  · next h =>
      rw [not_not] at h
      split
      · next h' => simp [h']
      · next h' =>
          rw [not_not] at h'
          split
          · next h'' => simp [h'']
          · next h'' =>
              rw [not_not] at h''
              simp only [true_iff]
              exact ⟨h, h', h''⟩

theorem checkAttributed_eq_ok {index : Fin 4} {window : Option Attributed} :
    checkAttributed index window = .ok () ↔ ∀ w, window = some w → w.validate = .ok () := by
  cases window with
  | none => simp [checkAttributed]
  | some w =>
      unfold checkAttributed
      rw [Checked.mapError_eq_ok]
      simp

/-- Ledgers pass. -/
theorem Ledgered.check {windows : Windows} (h : windows.Ledgered) (index : Fin 4) :
    checkAttributed index (windows.attributed index) = .ok () :=
  checkAttributed_eq_ok.mpr fun _ hw => (h.sound hw).validate (h.fresh hw).1

end Windows

open Windows

/-! ## Responses that fit -/

/-- A Codex response whose numbers for one window fit: the plan does not have the window, or its
length fits in seconds and its reset in a time. -/
def FitsWindow (headers : HeaderMap) (now : UInt64) (name : String) : Prop :=
  headers.number ("x-codex-" ++ name ++ "-window-minutes") = some 0 ∨
    (∀ m, headers.number ("x-codex-" ++ name ++ "-window-minutes") = some m →
      m.toNat * 60 ≤ UInt64.maxVal) ∧
    (∀ a, headers.number ("x-codex-" ++ name ++ "-reset-after-seconds") = some a →
      now.toNat + a.toNat ≤ UInt64.maxVal)

/-- A response whose numbers fit. -/
def Capture.Fits (capture : Capture) : Prop :=
  capture.provider = .codex →
    FitsWindow capture.headers capture.now "primary" ∧
      FitsWindow capture.headers capture.now "secondary"

theorem check_readAnthropic {label : String} {headers : HeaderMap} {name : String}
    {windowSecs now : UInt64} {slot : Option AnthropicWindow}
    (h : checkAnthropic label slot = .ok ()) :
    checkAnthropic label (readAnthropic headers name windowSecs now slot).slot = .ok () := by
  unfold readAnthropic
  split
  · exact h
  · next window hwindow =>
      rw [checkAnthropic_eq_ok]
      intro u hu
      exact HeaderMap.percent_mem ((anthropicWindow_eq_some hwindow).symm.trans hu)

/-- No window is read exactly if no header of it is. -/
theorem codexWindow_eq_none {headers : HeaderMap} {name : String} {now : UInt64}
    (h : codexWindow headers name now = none) :
    headers.number ("x-codex-" ++ name ++ "-window-minutes") = none ∧
      headers.number ("x-codex-" ++ name ++ "-reset-after-seconds") = none := by
  unfold codexWindow at h
  dsimp only at h
  split at h
  · cases h
  · next hnone =>
      rw [Bool.or_eq_true, Bool.or_eq_true, not_or, not_or] at hnone
      exact ⟨by simpa using hnone.1.2, by simpa using hnone.2⟩

/-- What a response leaves in a Codex slot is valid exactly if it was or is told anew, and fits. -/
theorem check_readCodex {label : String} {headers : HeaderMap} {name : String} {now : UInt64}
    {slot : Option CodexWindow} (h : checkCodex label slot = .ok ()) :
    checkCodex label (readCodex headers name now slot).slot = .ok () ↔
      FitsWindow headers now name := by
  unfold readCodex FitsWindow
  split
  · next hnone =>
      obtain ⟨hminutes, hafter⟩ := codexWindow_eq_none hnone
      rw [hminutes, hafter]
      simp [h]
  · next window hwindow =>
      obtain ⟨hused, hminutes, hafter, hobserved⟩ := codexWindow_eq_some hwindow
      split
      · next hzero =>
          rw [hminutes] at hzero
          simp [hzero, checkCodex]
      · next hzero =>
          rw [hminutes] at hzero
          rw [checkCodex_eq_ok, hused, hminutes, hafter, hobserved]
          constructor
          · rintro ⟨-, hm, ha⟩
            exact Or.inr ⟨fun m hm' => (hm m hm').2, ha⟩
          · rintro (hzero' | ⟨hm, ha⟩)
            · exact absurd hzero' hzero
            · refine ⟨fun u hu => HeaderMap.percent_mem hu, fun m hm' => ⟨?_, hm m hm'⟩, ha⟩
              rintro rfl
              exact hzero hm'

/-- **Step.** After a response the windows are valid, if they were, exactly if it fits. -/
theorem validate_captureAt {usage : BrokerUsage} (hledgered : usage.windows.Ledgered)
    (h : usage.windows.validate = .ok ()) (capture : Capture) :
    (usage.captureAt capture).windows.validate = .ok () ↔ capture.Fits := by
  have hnext := hledgered.captureAt capture
  obtain ⟨⟨h5, h7⟩, ⟨hp, hs⟩, -⟩ := validate_eq_ok.mp h
  rw [validate_eq_ok]
  unfold Capture.Fits
  unfold BrokerUsage.captureAt at hnext ⊢
  cases hprovider : capture.provider with
  | anthropic =>
      rw [hprovider] at hnext
      simp only [reduceCtorEq, false_implies, iff_true]
      exact ⟨⟨check_readAnthropic h5, check_readAnthropic h7⟩, ⟨hp, hs⟩, hnext.check⟩
  | codex =>
      rw [hprovider] at hnext
      simp only [forall_const]
      constructor
      · rintro ⟨-, ⟨hp', hs'⟩, -⟩
        exact ⟨(check_readCodex hp).mp hp', (check_readCodex hs).mp hs'⟩
      · rintro ⟨hfp, hfs⟩
        exact ⟨⟨h5, h7⟩, ⟨(check_readCodex hp).mpr hfp, (check_readCodex hs).mpr hfs⟩, hnext.check⟩
  | mistral =>
      rw [hprovider] at hnext
      simp only [reduceCtorEq, false_implies, iff_true]
      exact ⟨⟨h5, h7⟩, ⟨hp, hs⟩, hnext.check⟩

/-! ## Registries and their file -/

/-- The usage registries of a gateway, by name. -/
abbrev Registries := Assoc String BrokerUsage

/-- A response counted in a named registry, which is made when it is first named. -/
def Registries.capture (registries : Registries) (event : String × Capture) : Registries :=
  registries.insert event.1 (((registries.lookup event.1).getD {}).captureAt event.2)

/-- The registries after a history of responses, from none. -/
def Registries.run (events : List (String × Capture)) : Registries :=
  events.foldl Registries.capture ∅

/-- `all_windows`. -/
def Registries.allWindows (registries : Registries) : Assoc String Windows :=
  registries.mapVals (fun _ usage => usage.windows)

theorem Registries.run_concat (events : List (String × Capture)) (event : String × Capture) :
    Registries.run (events ++ [event]) = (Registries.run events).capture event := by
  unfold Registries.run
  rw [List.foldl_append]
  rfl

/-- What a capture changes: its own registry. -/
theorem Registries.lookup_capture (registries : Registries) (event : String × Capture)
    (name : String) :
    (registries.capture event).lookup name =
      if name = event.1 then some (((registries.lookup event.1).getD {}).captureAt event.2)
      else registries.lookup name :=
  Assoc.lookup_insert_eq _ _ _ _

/-- Whether an attributed window is valid does not depend on what the file leaves out of it. -/
theorem Windows.validate_kept (windows : Windows) :
    windows.kept.validate = .ok () ↔ windows.validate = .ok () := by
  rw [validate_eq_ok, validate_eq_ok]
  refine and_congr_right fun _ => and_congr_right fun _ => forall_congr' fun index => ?_
  unfold Windows.kept
  dsimp only
  cases windows.attributed index <;> rfl

/-- **The file is read back exactly if all that is in it is valid.** -/
theorem readState_writeState (codec : JsonCodec) (registries : Assoc String Windows) (path : String)
    (now : UInt64) :
    (∃ result, readState codec path (.ok (writeState codec.encode registries)) now = .ok result) ↔
      ∀ name windows, registries.lookup name = some windows → windows.validate = .ok () := by
  have hall : ((byName (registries.mapVals fun _ windows => windows.kept)).forM fun registry =>
        registry.2.validate.mapError (fun e => "registry " ++ registry.1.quote ++ ": " ++ e)) =
          .ok () ↔
      ∀ name windows, registries.lookup name = some windows → windows.validate = .ok () := by
    rw [Checked.forM_eq_ok]
    constructor
    · intro h name windows hw
      have hmem : (⟨name, windows.kept⟩ : Σ _ : String, Windows) ∈
          byName (registries.mapVals fun _ windows => windows.kept) := by
        unfold byName
        rw [List.mem_mergeSort]
        apply AList.mem_lookup_iff.mp
        rw [Assoc.lookup_mapVals, hw]
        rfl
      have hvalid := h _ hmem
      rwa [Checked.mapError_eq_ok, Windows.validate_kept] at hvalid
    · rintro h ⟨name, kept⟩ hmem
      unfold byName at hmem
      rw [List.mem_mergeSort] at hmem
      have hlookup := AList.mem_lookup_iff.mpr hmem
      rw [Assoc.lookup_mapVals, Option.mem_def, Option.map_eq_some_iff] at hlookup
      obtain ⟨windows, hw, rfl⟩ := hlookup
      rw [Checked.mapError_eq_ok, Windows.validate_kept]
      exact h name windows hw
  rw [← hall]
  unfold readState writeState
  simp only [Checked.mapError_eq_ok, bind, Except.bind, codec.decode_encode, ne_eq, not_true_eq_false,
    if_false]
  constructor
  · rintro ⟨result, hresult⟩
    split at hresult
    · cases hresult
    · next hloop => exact hloop
  · intro hloop
    rw [hloop]
    exact ⟨_, rfl⟩

/-- Each registry's windows are ledgers, whatever responses came. -/
theorem ledgered_run (events : List (String × Capture)) {name : String} {usage : BrokerUsage}
    (h : (Registries.run events).lookup name = some usage) : usage.windows.Ledgered := by
  induction events using List.reverseRecOn generalizing name usage with
  | nil => cases h
  | append_singleton events event ih =>
      rw [Registries.run_concat, Registries.lookup_capture] at h
      split at h
      · rw [Option.some.injEq] at h
        subst h
        refine Windows.Ledgered.captureAt ?_ event.2
        cases hold : (Registries.run events).lookup event.1 with
        | none => exact ledgered_empty none
        | some old => exact ih hold
      · exact ih h

/-- What a history of responses leaves to be read back at the next start. -/
structure ReadsBack (events : List (String × Capture)) : Prop where
  /-- At every moment every registry's windows are valid, -/
  valid : ∀ pre, pre <+: events → ∀ name usage,
    (Registries.run pre).lookup name = some usage → usage.windows.validate = .ok ()
  /-- so that the file written then is read. -/
  reads : ∀ pre, pre <+: events → ∀ (codec : JsonCodec) (path : String) (now : UInt64),
    ∃ result, readState codec path
      (.ok (writeState codec.encode (Registries.run pre).allWindows)) now = .ok result

/-- Valid registries stay so exactly as long as the responses fit. -/
private theorem valid_iff (events : List (String × Capture)) :
    (∀ pre, pre <+: events → ∀ name usage,
        (Registries.run pre).lookup name = some usage → usage.windows.validate = .ok ()) ↔
      ∀ event ∈ events, event.2.Fits := by
  induction events using List.reverseRecOn with
  | nil =>
      simp only [List.not_mem_nil, false_implies, implies_true, iff_true]
      intro pre hpre name usage h
      rw [List.prefix_nil.mp hpre] at h
      cases h
  | append_singleton events event ih =>
      simp only [List.prefix_concat_iff, List.mem_append, List.mem_singleton]
      -- the registry of the last response, before and after it
      have hlast : (∀ name usage, (Registries.run events).lookup name = some usage →
            usage.windows.validate = .ok ()) →
          ((∀ name usage, (Registries.run (events ++ [event])).lookup name = some usage →
            usage.windows.validate = .ok ()) ↔ event.2.Fits) := by
        intro hbefore
        have hstep : ((((Registries.run events).lookup event.1).getD {}).captureAt
            event.2).windows.validate = .ok () ↔ event.2.Fits := by
          cases hold : (Registries.run events).lookup event.1 with
          | none => exact validate_captureAt (ledgered_empty none) rfl event.2
          | some old =>
              exact validate_captureAt (ledgered_run events hold) (hbefore _ _ hold) event.2
        rw [← hstep, Registries.run_concat]
        constructor
        · intro h
          apply h event.1 _
          rw [Registries.lookup_capture, if_pos rfl]
        · intro h name usage hlookup
          rw [Registries.lookup_capture] at hlookup
          split at hlookup
          · rw [Option.some.injEq] at hlookup
            exact hlookup ▸ h
          · exact hbefore name usage hlookup
      constructor
      · intro h
        have hbefore := ih.mp fun pre hpre => h pre (Or.inr hpre)
        rintro e (he | rfl)
        · exact hbefore e he
        · exact (hlast (h events (Or.inr (List.prefix_refl _)))).mp (h _ (Or.inl rfl))
      · intro h
        have hbefore := ih.mpr fun e he => h e (Or.inl he)
        rintro pre (rfl | hpre)
        · exact (hlast (hbefore events (List.prefix_refl _))).mpr (h event (Or.inr rfl))
        · exact hbefore pre hpre

/-- **A gateway reads back every file it writes exactly as long as** the numbers of the Codex
responses it captures fit. -/
theorem reads_back_iff (events : List (String × Capture)) :
    ReadsBack events ↔ ∀ event ∈ events, event.2.Fits := by
  rw [← valid_iff]
  refine ⟨ReadsBack.valid, fun h => ⟨h, fun pre hpre codec path now => ?_⟩⟩
  rw [readState_writeState]
  intro name windows hw
  unfold Registries.allWindows at hw
  rw [Assoc.lookup_mapVals, Option.map_eq_some_iff] at hw
  obtain ⟨usage, husage, rfl⟩ := hw
  exact h pre hpre name usage husage

/-- A response that says a window is as many minutes long as 64 bits hold. -/
def overflowing : List (String × Capture) :=
  [("default", ⟨.codex, .priv,
    [("x-codex-primary-window-minutes", ascii "18446744073709551615")], 1700000000⟩)]

/-- What it leaves is not read back. -/
theorem not_reads_back_overflowing : ¬ ReadsBack overflowing := by
  intro h
  have hvalid := h.valid overflowing (List.prefix_refl _) "default" _ rfl
  have herror : ((({} : BrokerUsage).captureAt ⟨.codex, .priv,
      [("x-codex-primary-window-minutes", ascii "18446744073709551615")],
        1700000000⟩).windows.validate) =
      .error "primary.window_minutes must be positive and fit in seconds" := by decide +kernel
  exact absurd (herror.symm.trans hvalid) (by simp)

end CredentialBroker
