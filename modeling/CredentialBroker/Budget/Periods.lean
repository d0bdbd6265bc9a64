import CredentialBroker.Budget.Basic
import CredentialBroker.Util.Binary64
import Mathlib.Data.List.Chain
import Mathlib.Data.List.Induction

/-!
# Periods of a window, and the local clock

A window has periods: while one lasts, its readings announce the same reset and do not fall, and the
readings of a later one announce a later reset. `Attributed.charge` does not look at that. It tells
a reset by the local clock, from the reset that the previous reading announced, so what it charges
belongs to the reading's period only as far as the clock agrees.

Percentages are binary64 numbers here, so every sum and difference is rounded.

* `ChargedToPeriods` is what charging by period would keep: after the first period, exactly the
  latest reading is charged, and nothing of an earlier period, up to a rounding for each reading, or
  to none if the readings are `Coarse`; and within a period no charge is lost.
* `charged_to_periods` says when it is kept: wherever the clock disagrees, the disagreement is
  `Harmless`; exactly then, if the readings are `Coarse`.
* `toExact_ledger`: if they are, and the clock does no harm, the window is the one that
  `CredentialBroker.Attributed.charge` makes of the same readings in exact rationals.
-/

namespace CredentialBroker

namespace Rounded

open Binary64

/-! ## Attribution, in binary64 -/

/-- What one response said of one window, for the whole account. -/
structure Reading where
  usedPercent : F64
  resetsAt : UInt64
  windowSecs : UInt64
  deriving DecidableEq

/-- A window's latest reading and what each consumer used of it since it last reset, in percent of
the window. -/
structure Attributed where
  reading : Reading
  observedAt : UInt64
  /-- The gateway first read this window part-way used, so whose that use was is unknown until it
  resets. -/
  partWay : Bool
  /-- Loaded from the usage state file, and not read since. -/
  restored : Bool
  /-- When the state file was read. -/
  loadedAt : UInt64
  used : PerConsumer F64
  deriving DecidableEq

/-- `Attributed::charge`: the window after `reading`, taken at `now` from a response to `consumer`'s
request, follows `previous`. -/
def Attributed.charge (previous : Option Attributed) (reading : Reading) (consumer : Consumer)
    (now : UInt64) : Attributed :=
  match previous with
  | some previous =>
    if now < previous.reading.resetsAt then
      let rise := reading.usedPercent - previous.reading.usedPercent
      ⟨reading, now, previous.partWay, false, 0, previous.used.modify consumer (· + max rise 0)⟩
    else
      -- reset since the previous reading: all of it is since then
      ⟨reading, now, false, false, 0,
        (PerConsumer.fill 0).modify consumer (fun _ => reading.usedPercent)⟩
  | none =>
    ⟨reading, now, decide (0 < reading.usedPercent.val), false, 0, .fill reading.usedPercent⟩

/-- A reading, whose response carried it, and when. -/
structure Observation where
  reading : Reading
  consumer : Consumer
  now : UInt64
  deriving DecidableEq

/-- A window after a sequence of readings, from none. -/
def ledger (steps : List Observation) : Option Attributed :=
  steps.foldl (fun window o => some (.charge window o.reading o.consumer o.now)) none

theorem ledger_concat (steps : List Observation) (o : Observation) :
    ledger (steps ++ [o]) = some (.charge (ledger steps) o.reading o.consumer o.now) := by
  unfold ledger
  rw [List.foldl_append]
  rfl

@[simp] theorem reading_charge (previous : Option Attributed) (reading : Reading)
    (consumer : Consumer) (now : UInt64) :
    (Attributed.charge previous reading consumer now).reading = reading := by
  unfold Attributed.charge
  split
  · split <;> rfl
  · rfl

/-! ## Readings by period -/

/-- The next reading of the same period. -/
def SamePeriod (p o : Observation) : Prop :=
  o.reading.resetsAt = p.reading.resetsAt ∧ p.reading.usedPercent.val ≤ o.reading.usedPercent.val

/-- The first reading of a later period: its reset is at least a window's length later. -/
def LaterPeriod (p o : Observation) : Prop :=
  p.reading.resetsAt < o.reading.resetsAt ∧
    p.reading.resetsAt.toNat + o.reading.windowSecs.toNat ≤ o.reading.resetsAt.toNat

theorem LaterPeriod.ne {p o : Observation} (h : LaterPeriod p o) :
    o.reading.resetsAt ≠ p.reading.resetsAt := by
  intro heq
  have hlt := h.1
  rw [heq] at hlt
  exact absurd hlt (UInt64.lt_irrefl _)

/-- The readings of one window, period by period. -/
structure Periodic (steps : List Observation) : Prop where
  windowSecs : ∀ o ∈ steps, ∀ o' ∈ steps, o.reading.windowSecs = o'.reading.windowSecs
  /-- Readings of a whole account are percentages. -/
  inRange : ∀ o ∈ steps, 0 ≤ o.reading.usedPercent.val ∧ o.reading.usedPercent.val ≤ 100
  chain : steps.IsChain fun p o => SamePeriod p o ∨ LaterPeriod p o

/-- A reading in whole `2 ^ -46`ths of a percent, as any in whole percents: nothing up to 100 is
rounded then. -/
def Coarse (o : Observation) : Prop := IsMultiple (-46) o.reading.usedPercent.val

/-- What charging each period apart keeps, after every reading. -/
structure ChargedToPeriods (steps : List Observation) : Prop where
  /-- After the first period just the latest reading is charged, up to a rounding for each reading
  and one for the sum, and it is clear to whom. -/
  exact : ∀ pre o first window, pre ++ [o] <+: steps → steps.head? = some first →
    first.reading.resetsAt < o.reading.resetsAt → ledger (pre ++ [o]) = some window →
      Within (pre.length + 2) (window.used.get .pub + window.used.get .priv).val
          o.reading.usedPercent.val ∧
        window.partWay = false
  /-- Just the latest reading, if none needs rounding. -/
  coarse : (∀ o ∈ steps, Coarse o) → ∀ pre o first window, pre ++ [o] <+: steps →
    steps.head? = some first → first.reading.resetsAt < o.reading.resetsAt →
      ledger (pre ++ [o]) = some window →
        window.used.get .pub + window.used.get .priv = o.reading.usedPercent
  /-- Within a period nobody's use falls. -/
  grows : ∀ pre p o window window', pre ++ [p, o] <+: steps → SamePeriod p o →
    ledger (pre ++ [p]) = some window → ledger (pre ++ [p, o]) = some window' →
      ∀ c, (window.used.get c).val ≤ (window'.used.get c).val

/-! ## The clock -/

/-- The consumer that is not `c`. -/
def other : Consumer → Consumer
  | .pub => .priv
  | .priv => .pub

theorem eq_or_eq_other (c c' : Consumer) : c' = c ∨ c' = other c := by
  cases c <;> cases c' <;> decide

/-- By the local clock, `o` came before the reset that `p` announced exactly if it is of the same
period. -/
def Timely (p o : Observation) : Prop :=
  o.now < p.reading.resetsAt ↔ o.reading.resetsAt = p.reading.resetsAt

/-- An untimely reading of a later period came before the reset by the clock. -/
theorem LaterPeriod.early {p o : Observation} (h : LaterPeriod p o) (huntimely : ¬ Timely p o) :
    o.now < p.reading.resetsAt := by
  by_contra hnot
  exact huntimely (iff_of_false hnot h.ne)

/-- A reading that the clock mistakes for one of a later period, when only its own consumer used
anything, and no more than is read; or for one of the same period, when it is no lower than the last
but for `n` roundings, and it is clear who used what. -/
def Harmless (n : ℕ) (window : Attributed) (o : Observation) : Prop :=
  if o.reading.resetsAt = window.reading.resetsAt then
    (window.used.get (other o.consumer)).val = 0 ∧
      (window.used.get o.consumer).val ≤ o.reading.usedPercent.val
  else
    window.reading.usedPercent.val * shrink n ≤ o.reading.usedPercent.val * stretch n ∧
      window.partWay = false

/-- Every reading but the first is timely, or its untimeliness harmless. -/
def ClockHarmless (steps : List Observation) : Prop :=
  ∀ pre p o window, pre ++ [p, o] <+: steps → ledger (pre ++ [p]) = some window →
    Timely p o ∨ Harmless 0 window o

/-- The same, where a reading of a later period may be lower than the last one by what rounding
makes of so many readings. -/
def ClockNearlyHarmless (steps : List Observation) : Prop :=
  ∀ pre p o window, pre ++ [p, o] <+: steps → ledger (pre ++ [p]) = some window →
    Timely p o ∨ Harmless (pre.length + 3) window o

/-! ## One reading -/

namespace Attributed

variable {window : Attributed} {o : Observation}

/-- The window after `o`. -/
def after (window : Attributed) (o : Observation) : Attributed :=
  .charge (some window) o.reading o.consumer o.now

@[simp] theorem reading_after (window : Attributed) (o : Observation) :
    (window.after o).reading = o.reading :=
  reading_charge _ _ _ _

/-- The two figures together, as exact numbers. -/
def total (window : Attributed) : ℚ :=
  (window.used.get .pub).val + (window.used.get .priv).val

theorem total_eq (window : Attributed) (c : Consumer) :
    window.total = (window.used.get c).val + (window.used.get (other c)).val := by
  cases c with
  | pub => rfl
  | priv => exact add_comm _ _

/-- What a reading is charged with that comes before the announced reset. -/
def charged (window : Attributed) (o : Observation) : F64 :=
  max (o.reading.usedPercent - window.reading.usedPercent) 0

theorem charged_nonneg (window : Attributed) (o : Observation) : 0 ≤ (window.charged o).val := by
  unfold charged
  rw [F64.val_max]
  exact le_max_right _ _

/-- A reading that is no lower is charged with its rise. -/
theorem charged_rise (h : window.reading.usedPercent.val ≤ o.reading.usedPercent.val) :
    (window.charged o).val = (o.reading.usedPercent - window.reading.usedPercent).val := by
  unfold charged
  rw [F64.val_max, F64.val_zero, max_eq_left (F64.val_sub_nonneg h)]

/-- A reading that is lower is charged with nothing. -/
theorem charged_fall (h : o.reading.usedPercent.val ≤ window.reading.usedPercent.val) :
    window.charged o = 0 := by
  apply F64.ext
  unfold charged
  rw [F64.val_max, F64.val_zero, max_eq_right (F64.val_sub_nonpos h)]

/-- What a reading before the announced reset does. -/
theorem after_early (h : o.now < window.reading.resetsAt) :
    (window.after o).partWay = window.partWay ∧
      (window.after o).used.get o.consumer = window.used.get o.consumer + window.charged o ∧
      (window.after o).used.get (other o.consumer) = window.used.get (other o.consumer) := by
  unfold after
  rw [charge, if_pos h]
  refine ⟨rfl, ?_, ?_⟩
  · rw [PerConsumer.get_modify, if_pos rfl]
    rfl
  · rw [PerConsumer.get_modify, if_neg (by cases o.consumer <;> decide)]

/-- What a reading after it does. -/
theorem after_late (h : ¬ o.now < window.reading.resetsAt) :
    (window.after o).partWay = false ∧
      (window.after o).used.get o.consumer = o.reading.usedPercent ∧
      (window.after o).used.get (other o.consumer) = 0 := by
  unfold after
  rw [charge, if_neg h]
  refine ⟨rfl, ?_, ?_⟩
  · rw [PerConsumer.get_modify, if_pos rfl]
  · rw [PerConsumer.get_modify, if_neg (by cases o.consumer <;> decide), PerConsumer.get_fill]

/-- Before the announced reset nobody's use falls. -/
theorem le_after (h : o.now < window.reading.resetsAt) (c : Consumer) :
    (window.used.get c).val ≤ ((window.after o).used.get c).val := by
  obtain ⟨-, hown, hother⟩ := after_early h
  rcases eq_or_eq_other o.consumer c with rfl | rfl
  · rw [hown]
    exact F64.le_add _ (window.charged_nonneg o)
  · rw [hother]

/-- After it, just the reading is charged. -/
theorem total_late (h : ¬ o.now < window.reading.resetsAt) :
    (window.after o).total = o.reading.usedPercent.val := by
  obtain ⟨-, hown, hother⟩ := after_late h
  rw [total_eq _ o.consumer, hown, hother, F64.val_zero, add_zero]

/-- Before it, the charge is added, up to a rounding. -/
theorem total_early (h : o.now < window.reading.resetsAt)
    (hused : ∀ c, 0 ≤ (window.used.get c).val) :
    Within 1 (window.after o).total (window.total + (window.charged o).val) := by
  obtain ⟨-, hown, hother⟩ := after_early h
  have hcharged := window.charged_nonneg o
  have hsum := F64.within_add (add_nonneg (hused o.consumer) hcharged)
  have hkeeps := (Within.refl (window.used.get (other o.consumer)).val).mono
    (hused (other o.consumer)) (Nat.zero_le 1)
  rw [total_eq _ o.consumer, total_eq window o.consumer, hown, hother, add_right_comm]
  exact hsum.add hkeeps

/-- Before it, a reading that is lower changes no figure. -/
theorem total_fall (h : o.now < window.reading.resetsAt)
    (hle : o.reading.usedPercent.val ≤ window.reading.usedPercent.val) :
    (window.after o).total = window.total := by
  obtain ⟨-, hown, hother⟩ := after_early h
  rw [total_eq _ o.consumer, total_eq window o.consumer, hown, hother, charged_fall hle,
    F64.add_zero_eq]

end Attributed

/-! ## What holds of any window -/

/-- What holds of any window that `n` readings led to. -/
structure Sound (n : ℕ) (window : Attributed) : Prop where
  reading_nonneg : 0 ≤ window.reading.usedPercent.val
  used_nonneg : ∀ c, 0 ≤ (window.used.get c).val
  /-- Together the two figures cover the reading, up to a rounding for each. -/
  covers : AtLeast n window.total window.reading.usedPercent.val

section

variable {n : ℕ} {window : Attributed} {o : Observation}

/-- A rise is charged up to a rounding. -/
theorem Attributed.within_charged
    (h : window.reading.usedPercent.val ≤ o.reading.usedPercent.val) :
    Within 1 (window.charged o).val
      (o.reading.usedPercent.val - window.reading.usedPercent.val) := by
  rw [Attributed.charged_rise h]
  exact F64.within_sub h

/-- One more reading of a sound window leaves it sound, whatever the clock and the reading. -/
theorem Sound.after (h : Sound n window) (hn : 1 ≤ n) (ho : 0 ≤ o.reading.usedPercent.val) :
    Sound (n + 1) (window.after o) := by
  by_cases hearly : o.now < window.reading.resetsAt
  · refine ⟨by simpa using ho, fun c => (h.used_nonneg c).trans (Attributed.le_after hearly c), ?_⟩
    rw [Attributed.reading_after]
    rcases le_total window.reading.usedPercent.val o.reading.usedPercent.val with hrise | hfall
    · have hcharged := (Attributed.within_charged hrise).atLeast.mono (sub_nonneg.mpr hrise) hn
      have hsum := h.covers.add hcharged
      rw [add_sub_cancel] at hsum
      rw [add_comm n]
      exact (Attributed.total_early hearly h.used_nonneg).atLeast.trans hsum
    · rw [Attributed.total_fall hearly hfall]
      have hless := mul_le_mul_of_nonneg_right hfall (shrink_pos n).le
      exact AtLeast.mono (hless.trans h.covers) ho n.le_succ
  · obtain ⟨-, hown, hother⟩ := Attributed.after_late hearly
    refine ⟨by simpa using ho, ?_, ?_⟩
    · intro c
      rcases eq_or_eq_other o.consumer c with rfl | rfl
      · rw [hown]
        exact ho
      · rw [hother, F64.val_zero]
    · rw [Attributed.total_late hearly, Attributed.reading_after]
      exact atLeast_of_le ho le_rfl

/-- The first reading. -/
theorem sound_first (h : 0 ≤ o.reading.usedPercent.val) :
    Sound 1 (.charge none o.reading o.consumer o.now) := by
  refine ⟨h, fun c => ?_, ?_⟩
  · rw [Attributed.charge, PerConsumer.get_fill]
    exact h
  · exact atLeast_of_le h (le_add_of_nonneg_left h)

end

theorem ledger_pair (pre : List Observation) (p o : Observation) {window : Attributed}
    (h : ledger (pre ++ [p]) = some window) :
    ledger (pre ++ [p, o]) = some (window.after o) := by
  have hsplit : pre ++ [p, o] = (pre ++ [p]) ++ [o] := by simp
  rw [hsplit, ledger_concat, h]
  rfl

theorem reading_ledger {pre : List Observation} {p : Observation} {window : Attributed}
    (h : ledger (pre ++ [p]) = some window) : window.reading = p.reading := by
  rw [ledger_concat, Option.some.injEq] at h
  rw [← h, reading_charge]

theorem exists_ledger (pre : List Observation) (p : Observation) :
    ∃ window, ledger (pre ++ [p]) = some window :=
  ⟨_, ledger_concat pre p⟩

theorem prefix_pair (pre : List Observation) (p o : Observation) : pre ++ [p] <+: pre ++ [p, o] :=
  ⟨[o], by simp⟩

/-- **Induction** over the readings of a window: what holds after the first, and is kept by each that
follows, holds after them all. -/
theorem ledger_induction
    {motive : ∀ steps window, ledger steps = some window → Prop}
    (first : ∀ o, motive [o] (.charge none o.reading o.consumer o.now) rfl)
    (next : ∀ pre p o window (hwindow : ledger (pre ++ [p]) = some window),
      motive (pre ++ [p]) window hwindow →
        motive (pre ++ [p, o]) (window.after o) (ledger_pair pre p o hwindow))
    {steps : List Observation} {window : Attributed} (hwindow : ledger steps = some window) :
    motive steps window hwindow := by
  induction steps using List.reverseRecOn generalizing window with
  | nil => cases hwindow
  | append_singleton steps o ih =>
      rcases List.eq_nil_or_concat steps with rfl | ⟨pre, p, hsteps⟩
      · cases hwindow
        exact first o
      · rw [List.concat_eq_append] at hsteps
        subst hsteps
        have hpair : pre ++ [p] ++ [o] = pre ++ [p, o] := by simp
        obtain ⟨before, hbefore⟩ := exists_ledger pre p
        have hafter := (hpair ▸ hwindow).symm.trans (ledger_pair pre p o hbefore)
        obtain rfl := Option.some.inj hafter
        have hnext := next pre p o before hbefore (ih hbefore)
        revert hwindow
        rw [hpair]
        exact fun _ => hnext

/-- Every window that readings led to is sound. -/
theorem sound_ledger {steps : List Observation}
    (h : ∀ o ∈ steps, 0 ≤ o.reading.usedPercent.val) {window : Attributed}
    (hwindow : ledger steps = some window) : Sound steps.length window := by
  revert h
  induction hwindow using ledger_induction with
  | first o =>
      intro h
      exact sound_first (h o (by simp))
  | next pre p o window _ ih =>
      intro h
      have hsound := ih fun a ha => h a ((prefix_pair pre p o).subset ha)
      rw [List.length_append] at hsound ⊢
      exact hsound.after (Nat.le_add_left 1 _) (h o (by simp))

/-! ## What holds while the clock does no harm -/

/-- What is kept while every reading is timely or harmless. -/
structure Accounted (first : Observation) (n : ℕ) (window : Attributed) : Prop
    extends Sound n window where
  /-- If it is clear who used what, no more than the reading is charged, up to a rounding for each,
  -/
  exact : window.partWay = false → AtMost n window.total window.reading.usedPercent.val
  /-- If it is not, both are charged something, -/
  both : window.partWay = true → ∀ c, 0 < (window.used.get c).val
  /-- and the first period lasts. -/
  first : window.partWay = true → window.reading.resetsAt = first.reading.resetsAt

section

variable {first p o : Observation} {n : ℕ} {window : Attributed}

/-- A first reading makes it clear who used what only if that is nothing. -/
theorem total_first (h : 0 ≤ o.reading.usedPercent.val)
    (hclear : (Attributed.charge none o.reading o.consumer o.now).partWay = false) :
    (Attributed.charge none o.reading o.consumer o.now).total = o.reading.usedPercent.val := by
  have hzero : o.reading.usedPercent.val = 0 := by
    have hle : ¬ 0 < o.reading.usedPercent.val := of_decide_eq_false hclear
    exact le_antisymm (not_lt.mp hle) h
  simp [Attributed.charge, Attributed.total, hzero]

/-- The first reading. -/
private theorem accounted_first (h : 0 ≤ o.reading.usedPercent.val) :
    Accounted o 1 (.charge none o.reading o.consumer o.now) := by
  refine ⟨sound_first h, ?_, ?_, fun _ => rfl⟩
  · intro hclear
    rw [total_first h hclear]
    exact (Within.refl _).atMost.mono h (Nat.zero_le 1)
  · intro hpartWay c
    rw [Attributed.charge, PerConsumer.get_fill]
    exact of_decide_eq_true hpartWay

/-- A reading after the announced reset makes it clear who used what. -/
private theorem accounted_late (h : Sound n (window.after o))
    (hlate : ¬ o.now < window.reading.resetsAt) : Accounted first n (window.after o) := by
  have hclear := (Attributed.after_late hlate).1
  refine ⟨h, ?_, ?_, ?_⟩
  · intro _
    rw [Attributed.total_late hlate, Attributed.reading_after]
    have hreading := h.reading_nonneg
    rw [Attributed.reading_after] at hreading
    exact AtMost.mono (Within.refl _).atMost hreading n.zero_le
  · intro hnot
    rw [hclear] at hnot
    cases hnot
  · intro hnot
    rw [hclear] at hnot
    cases hnot

/-- A rise before it is charged on top of what is accounted for. -/
private theorem Accounted.rise (h : Accounted first n window) (hn : 1 ≤ n)
    (hearly : o.now < window.reading.resetsAt) (hclear : window.partWay = false)
    (hrise : window.reading.usedPercent.val ≤ o.reading.usedPercent.val) :
    AtMost (n + 1) (window.after o).total o.reading.usedPercent.val := by
  have hcharged := (Attributed.within_charged hrise).atMost.mono (sub_nonneg.mpr hrise) hn
  have hsum := (h.exact hclear).add hcharged
  rw [add_sub_cancel] at hsum
  rw [add_comm n]
  exact (Attributed.total_early hearly h.used_nonneg).atMost.trans hsum

/-- A timely or harmless reading that the clock takes for one of the same period is no lower. -/
private theorem rise_of_early (hreading : window.reading = p.reading)
    (hlink : SamePeriod p o ∨ LaterPeriod p o) (hgood : Timely p o ∨ Harmless 0 window o)
    (hearly : o.now < window.reading.resetsAt) :
    window.reading.usedPercent.val ≤ o.reading.usedPercent.val := by
  rcases hlink with hsame | hlater
  · exact hreading ▸ hsame.2
  · rcases hgood with htimely | hharmless
    · exact absurd (htimely.mp (hreading ▸ hearly)) hlater.ne
    · unfold Harmless at hharmless
      rw [if_neg (hreading ▸ hlater.ne)] at hharmless
      simpa [shrink, stretch] using hharmless.1

/-- Within a period, a timely or harmless reading keeps what is accounted for, and nobody's use
falls. -/
private theorem Accounted.same (h : Accounted first n window) (hn : 1 ≤ n)
    (hreading : window.reading = p.reading) (hsame : SamePeriod p o)
    (hgood : Timely p o ∨ Harmless 0 window o) :
    Accounted first (n + 1) (window.after o) ∧
      ∀ c, (window.used.get c).val ≤ ((window.after o).used.get c).val := by
  have hle : window.reading.usedPercent.val ≤ o.reading.usedPercent.val := hreading ▸ hsame.2
  have hsound := h.toSound.after hn (o := o) (h.reading_nonneg.trans hle)
  by_cases hearly : o.now < window.reading.resetsAt
  · have hpartWay := (Attributed.after_early hearly).1
    refine ⟨⟨hsound, ?_, ?_, ?_⟩, Attributed.le_after hearly⟩
    · intro hclear
      rw [Attributed.reading_after]
      exact h.rise hn hearly (hpartWay ▸ hclear) hle
    · intro hnot c
      exact (h.both (hpartWay ▸ hnot) c).trans_le (Attributed.le_after hearly c)
    · intro hnot
      rw [Attributed.reading_after, hsame.1, ← hreading]
      exact h.first (hpartWay ▸ hnot)
  · -- the clock takes it for a later period's, and only its own consumer used anything
    refine ⟨accounted_late hsound hearly, ?_⟩
    obtain ⟨-, hown, hother⟩ := Attributed.after_late hearly
    obtain ⟨hzero, hup⟩ : (window.used.get (other o.consumer)).val = 0 ∧
        (window.used.get o.consumer).val ≤ o.reading.usedPercent.val := by
      rcases hgood with htimely | hharmless
      · exact absurd (hreading ▸ htimely.mpr hsame.1) hearly
      · unfold Harmless at hharmless
        rwa [if_pos (hreading ▸ hsame.1)] at hharmless
    intro c
    rcases eq_or_eq_other o.consumer c with rfl | rfl
    · rw [hown]
      exact hup
    · rw [hzero, hother, F64.val_zero]

/-- A timely or harmless reading of a later period keeps what is accounted for, and makes clear who
used what. -/
private theorem Accounted.later (h : Accounted first n window) (hn : 1 ≤ n)
    (hreading : window.reading = p.reading) (hlater : LaterPeriod p o)
    (ho : 0 ≤ o.reading.usedPercent.val) (hgood : Timely p o ∨ Harmless 0 window o) :
    Accounted first (n + 1) (window.after o) ∧ (window.after o).partWay = false := by
  have hsound := h.toSound.after hn ho
  by_cases hearly : o.now < window.reading.resetsAt
  · -- the clock takes it for the same period's, which has been charged what it was read
    have hle := rise_of_early hreading (.inr hlater) hgood hearly
    have hclear : window.partWay = false := by
      rcases hgood with htimely | hharmless
      · exact absurd (htimely.mp (hreading ▸ hearly)) hlater.ne
      · unfold Harmless at hharmless
        rw [if_neg (hreading ▸ hlater.ne)] at hharmless
        exact hharmless.2
    have hafter : (window.after o).partWay = false :=
      (Attributed.after_early hearly).1.trans hclear
    refine ⟨⟨hsound, ?_, ?_, ?_⟩, hafter⟩
    · intro _
      rw [Attributed.reading_after]
      exact h.rise hn hearly hclear hle
    · intro hnot
      rw [hafter] at hnot
      cases hnot
    · intro hnot
      rw [hafter] at hnot
      cases hnot
  · exact ⟨accounted_late hsound hearly, (Attributed.after_late hearly).1⟩

end

/-! ## Coarse readings -/

/-- What is kept besides, while no reading needs rounding. -/
structure Unrounded (window : Attributed) : Prop where
  reading : IsMultiple (-46) window.reading.usedPercent.val
  used : ∀ c, IsMultiple (-46) (window.used.get c).val
  le : ∀ c, (window.used.get c).val ≤ window.reading.usedPercent.val
  exact : window.partWay = false → window.total = window.reading.usedPercent.val

/-- A coarse percentage is not rounded. -/
theorem round_percent {x : ℚ} (h : IsMultiple (-46) x) (hx : 0 ≤ x) (hle : x ≤ 100) :
    Binary64.round x = x := by
  refine round_of_isMultiple (e := -46) (by decide) ?_ h
  rw [abs_of_nonneg hx]
  exact hle.trans (by norm_num)

section

variable {window : Attributed} {o : Observation}

private theorem unrounded_first (ho : Coarse o) (h : 0 ≤ o.reading.usedPercent.val) :
    Unrounded (.charge none o.reading o.consumer o.now) := by
  refine ⟨ho, fun c => ?_, fun c => ?_, ?_⟩
  · rw [Attributed.charge, PerConsumer.get_fill]
    exact ho
  · rw [Attributed.charge, PerConsumer.get_fill]
  · exact total_first h

/-- The charge of a coarse reading that is no lower is added as it is. -/
private theorem Unrounded.val_charged (h : Unrounded window) {n : ℕ} (hsound : Sound n window)
    (ho : Coarse o) (hrange : 0 ≤ o.reading.usedPercent.val ∧ o.reading.usedPercent.val ≤ 100)
    (hle : window.reading.usedPercent.val ≤ o.reading.usedPercent.val) :
    (window.used.get o.consumer + window.charged o).val = (window.used.get o.consumer).val +
      (o.reading.usedPercent.val - window.reading.usedPercent.val) := by
  have hreading := hsound.reading_nonneg
  have hused := hsound.used_nonneg o.consumer
  have hup := h.le o.consumer
  have hcharged : (window.charged o).val =
      o.reading.usedPercent.val - window.reading.usedPercent.val := by
    rw [Attributed.charged_rise hle, F64.val_sub]
    exact round_percent (ho.sub h.reading) (by linarith) (by linarith)
  rw [F64.val_add, hcharged]
  exact round_percent ((h.used o.consumer).add (ho.sub h.reading)) (by linarith) (by linarith)

/-- A coarse reading that is no lower, where it counts, leaves nothing rounded. -/
private theorem Unrounded.after (h : Unrounded window) {n : ℕ} (hsound : Sound n window)
    (ho : Coarse o) (hrange : 0 ≤ o.reading.usedPercent.val ∧ o.reading.usedPercent.val ≤ 100)
    (hrise : o.now < window.reading.resetsAt →
      window.reading.usedPercent.val ≤ o.reading.usedPercent.val) :
    Unrounded (window.after o) := by
  by_cases hearly : o.now < window.reading.resetsAt
  · obtain ⟨hpartWay, hown, hother⟩ := Attributed.after_early hearly
    have hle := hrise hearly
    have hsum := h.val_charged hsound ho hrange hle
    refine ⟨by rwa [Attributed.reading_after], ?_, ?_, ?_⟩
    · intro c
      rcases eq_or_eq_other o.consumer c with rfl | rfl
      · rw [hown, hsum]
        exact (h.used o.consumer).add (ho.sub h.reading)
      · rw [hother]
        exact h.used _
    · intro c
      rw [Attributed.reading_after]
      rcases eq_or_eq_other o.consumer c with rfl | rfl
      · rw [hown, hsum]
        have hup := h.le o.consumer
        linarith
      · rw [hother]
        exact (h.le _).trans hle
    · intro hclear
      have hexact := h.exact (hpartWay ▸ hclear)
      rw [Attributed.total_eq _ o.consumer] at hexact
      rw [Attributed.total_eq _ o.consumer, hown, hother, hsum, Attributed.reading_after]
      linarith
  · obtain ⟨-, hown, hother⟩ := Attributed.after_late hearly
    refine ⟨by rwa [Attributed.reading_after], ?_, ?_, ?_⟩
    · intro c
      rcases eq_or_eq_other o.consumer c with rfl | rfl
      · rw [hown]
        exact ho
      · rw [hother]
        exact ⟨0, by simp⟩
    · intro c
      rw [Attributed.reading_after]
      rcases eq_or_eq_other o.consumer c with rfl | rfl
      · rw [hown]
      · rw [hother]
        exact hrange.1
    · intro _
      rw [Attributed.total_late hearly, Attributed.reading_after]

end

/-! ## All readings -/

theorem Periodic.of_prefix {steps steps' : List Observation} (h : Periodic steps)
    (hpre : steps' <+: steps) : Periodic steps' where
  windowSecs o ho o' ho' := h.windowSecs o (hpre.subset ho) o' (hpre.subset ho')
  inRange o ho := h.inRange o (hpre.subset ho)
  chain := h.chain.prefix hpre

theorem ClockHarmless.of_prefix {steps steps' : List Observation} (h : ClockHarmless steps)
    (hpre : steps' <+: steps) : ClockHarmless steps' :=
  fun pre p o window hpair => h pre p o window (hpair.trans hpre)

/-- The last two readings are of one period, or of two. -/
theorem Periodic.link {pre : List Observation} {p o : Observation}
    (h : Periodic (pre ++ [p, o])) : SamePeriod p o ∨ LaterPeriod p o := by
  simpa using (List.isChain_append.mp h.chain).2.1

theorem Periodic.sound {steps : List Observation} (h : Periodic steps) {window : Attributed}
    (hwindow : ledger steps = some window) : Sound steps.length window :=
  sound_ledger (fun o ho => (h.inRange o ho).1) hwindow

theorem exists_head? (pre : List Observation) (p : Observation) :
    ∃ first, (pre ++ [p]).head? = some first :=
  Option.isSome_iff_exists.mp (List.isSome_head?.mpr (by simp))

theorem head?_prefix_eq {pre steps : List Observation} {o first : Observation}
    (hpre : pre ++ [o] <+: steps) (h : steps.head? = some first) :
    (pre ++ [o]).head? = some first := by
  obtain ⟨rest, rfl⟩ := hpre
  rw [← h]
  simp [List.head?_append]

/-- While every reading is timely or harmless, what is charged is accounted for. -/
theorem accounted_ledger {steps : List Observation} (h : Periodic steps)
    (hclock : ClockHarmless steps) {first : Observation} (hfirst : steps.head? = some first)
    {window : Attributed} (hwindow : ledger steps = some window) :
    Accounted first steps.length window := by
  revert h hclock hfirst
  induction hwindow using ledger_induction with
  | first o =>
      intro h _ hfirst
      cases hfirst
      exact accounted_first (h.inRange _ (by simp)).1
  | next pre p o window hwindow ih =>
      intro h hclock hfirst
      have hpre := prefix_pair pre p o
      have hk := ih (h.of_prefix hpre) (hclock.of_prefix hpre) (head?_prefix_eq hpre hfirst)
      have hgood := hclock pre p o window List.prefix_rfl hwindow
      have hreading := reading_ledger hwindow
      rw [List.length_append] at hk ⊢
      rcases h.link with hsame | hlater
      · exact (hk.same (Nat.le_add_left 1 _) hreading hsame hgood).1
      · exact (hk.later (Nat.le_add_left 1 _) hreading hlater (h.inRange o (by simp)).1 hgood).1

/-- While no reading needs rounding besides, nothing is rounded. -/
theorem unrounded_ledger {steps : List Observation} (h : Periodic steps)
    (hclock : ClockHarmless steps) (hcoarse : ∀ o ∈ steps, Coarse o) {window : Attributed}
    (hwindow : ledger steps = some window) : Unrounded window := by
  revert h hclock hcoarse
  induction hwindow using ledger_induction with
  | first o =>
      intro h _ hcoarse
      exact unrounded_first (hcoarse o (by simp)) (h.inRange o (by simp)).1
  | next pre p o window hwindow ih =>
      intro h hclock hcoarse
      have hpre := prefix_pair pre p o
      have hk := ih (h.of_prefix hpre) (hclock.of_prefix hpre)
        fun a ha => hcoarse a (hpre.subset ha)
      exact hk.after ((h.of_prefix hpre).sound hwindow) (hcoarse o (by simp))
        (h.inRange o (by simp)) (rise_of_early (reading_ledger hwindow) h.link
          (hclock pre p o window List.prefix_rfl hwindow))

/-! ## In exact numbers -/

/-- The reading in exact numbers. -/
def Reading.toExact (reading : Reading) : CredentialBroker.Reading :=
  ⟨reading.usedPercent.val, reading.resetsAt, reading.windowSecs⟩

/-- The window in exact numbers. -/
def Attributed.toExact (window : Attributed) : CredentialBroker.Attributed :=
  ⟨window.reading.toExact, window.observedAt, window.partWay, window.restored, window.loadedAt,
    ⟨window.used.ofPublic.val, window.used.ofPrivate.val⟩⟩

/-- The window after a sequence of readings in exact numbers, from none. -/
def exactLedger (steps : List Observation) : Option CredentialBroker.Attributed :=
  steps.foldl (fun window o => some (.charge window o.reading.toExact o.consumer o.now)) none

/-- Where nothing is rounded, a reading does what it does in exact numbers. -/
private theorem Unrounded.toExact_after {window : Attributed} {o : Observation}
    (h : Unrounded window) {n : ℕ} (hsound : Sound n window) (ho : Coarse o)
    (hrange : 0 ≤ o.reading.usedPercent.val ∧ o.reading.usedPercent.val ≤ 100)
    (hrise : o.now < window.reading.resetsAt →
      window.reading.usedPercent.val ≤ o.reading.usedPercent.val) :
    (window.after o).toExact =
      .charge (some window.toExact) o.reading.toExact o.consumer o.now := by
  unfold Attributed.after Attributed.charge CredentialBroker.Attributed.charge
  dsimp only
  rw [show window.toExact.reading.resetsAt = window.reading.resetsAt from rfl]
  by_cases hearly : o.now < window.reading.resetsAt
  · have hle := hrise hearly
    have hsum := h.val_charged hsound ho hrange hle
    have hmax : max (o.reading.usedPercent.val - window.reading.usedPercent.val) 0 =
        o.reading.usedPercent.val - window.reading.usedPercent.val :=
      max_eq_left (sub_nonneg.mpr hle)
    rw [if_pos hearly, if_pos hearly,
      show o.reading.toExact.usedPercent - window.toExact.reading.usedPercent =
        o.reading.usedPercent.val - window.reading.usedPercent.val from rfl, hmax]
    -- only what is charged to the consumer is more than copied
    unfold Attributed.toExact
    congr 1
    cases hconsumer : o.consumer with
    | pub =>
        rw [hconsumer] at hsum
        exact congrArg (fun own => PerConsumer.mk own window.used.ofPrivate.val) hsum
    | priv =>
        rw [hconsumer] at hsum
        exact congrArg (fun own => PerConsumer.mk window.used.ofPublic.val own) hsum
  · rw [if_neg hearly, if_neg hearly]
    cases o.consumer <;> rfl

/-- **While no reading needs rounding, the exact numbers are those of the code.** -/
theorem toExact_ledger {steps : List Observation} (h : Periodic steps)
    (hclock : ClockHarmless steps) (hcoarse : ∀ o ∈ steps, Coarse o) {window : Attributed}
    (hwindow : ledger steps = some window) : exactLedger steps = some window.toExact := by
  revert h hclock hcoarse
  induction hwindow using ledger_induction with
  | first o =>
      intro _ _ _
      rfl
  | next pre p o window hwindow ih =>
      intro h hclock hcoarse
      have hpre := prefix_pair pre p o
      have hearlier : ∀ a ∈ pre ++ [p], Coarse a := fun a ha => hcoarse a (hpre.subset ha)
      have hk := ih (h.of_prefix hpre) (hclock.of_prefix hpre) hearlier
      have hun := unrounded_ledger (h.of_prefix hpre) (hclock.of_prefix hpre) hearlier hwindow
      have hsplit : pre ++ [p, o] = (pre ++ [p]) ++ [o] := by simp
      unfold exactLedger at hk ⊢
      rw [hsplit, List.foldl_append, hk, hun.toExact_after ((h.of_prefix hpre).sound hwindow)
        (hcoarse o (by simp)) (h.inRange o (by simp)) (rise_of_early (reading_ledger hwindow) h.link
          (hclock pre p o window List.prefix_rfl hwindow))]
      rfl

/-- A reading of a later period announces a later reset than the first. -/
theorem Periodic.first_lt {pre : List Observation} {p o first : Observation}
    (h : Periodic (pre ++ [p, o])) (hfirst : (pre ++ [p]).head? = some first)
    (hlater : LaterPeriod p o) : first.reading.resetsAt < o.reading.resetsAt := by
  have hchain : (pre ++ [p]).IsChain fun a b =>
      a.reading.resetsAt.toNat ≤ b.reading.resetsAt.toNat := by
    have hpre : pre ++ [p] <+: pre ++ [p, o] := prefix_pair pre p o
    apply (h.of_prefix hpre).chain.imp
    rintro a b (hsame | hlater)
    · rw [hsame.1]
    · exact (UInt64.lt_iff_toNat_lt.mp hlater.1).le
  have hle : first.reading.resetsAt.toNat ≤ p.reading.resetsAt.toNat := by
    cases pre with
    | nil =>
        cases hfirst
        exact le_rfl
    | cons other pre =>
        cases hfirst
        have : IsTrans Observation fun a b =>
            a.reading.resetsAt.toNat ≤ b.reading.resetsAt.toNat := ⟨fun _ _ _ => le_trans⟩
        exact (List.pairwise_cons.mp (List.isChain_iff_pairwise.mp hchain)).1 p (by simp)
  exact UInt64.lt_iff_toNat_lt.mpr (hle.trans_lt (UInt64.lt_iff_toNat_lt.mp hlater.1))

/-- The sum of the two figures is their total, up to a rounding. -/
theorem Sound.within_sum {n : ℕ} {window : Attributed} (h : Sound n window) :
    Within 1 (window.used.get .pub + window.used.get .priv).val window.total :=
  F64.within_add (add_nonneg (h.used_nonneg .pub) (h.used_nonneg .priv))

/-- After the first period it is clear who used what. -/
private theorem Accounted.clear {first o : Observation} {n : ℕ} {window : Attributed}
    (h : Accounted first n window) (hreading : window.reading = o.reading)
    (hlater : first.reading.resetsAt < o.reading.resetsAt) : window.partWay = false := by
  rw [Bool.eq_false_iff]
  intro hpartWay
  have hsame := h.first hpartWay
  rw [hreading] at hsame
  rw [hsame] at hlater
  exact absurd hlater (UInt64.lt_irrefl _)

/-- While every reading is timely or harmless, use is charged to its period. -/
private theorem ClockHarmless.charged {steps : List Observation} (hclock : ClockHarmless steps)
    (h : Periodic steps) : ChargedToPeriods steps := by
  refine ⟨?_, ?_, ?_⟩
  · intro pre o first window hpre hfirst hlater hwindow
    have hk := accounted_ledger (h.of_prefix hpre) (hclock.of_prefix hpre)
      (head?_prefix_eq hpre hfirst) hwindow
    have hreading := reading_ledger hwindow
    have hclear := hk.clear hreading hlater
    have hsum := hk.within_sum.trans ⟨hk.covers, hk.exact hclear⟩
    rw [List.length_append, List.length_singleton, hreading] at hsum
    have hcount : 1 + (pre.length + 1) = pre.length + 2 := by omega
    exact ⟨hcount ▸ hsum, hclear⟩
  · intro hcoarse pre o first window hpre hfirst hlater hwindow
    have hperiodic := h.of_prefix hpre
    have hreading := reading_ledger hwindow
    have hk := accounted_ledger hperiodic (hclock.of_prefix hpre) (head?_prefix_eq hpre hfirst)
      hwindow
    have hun := unrounded_ledger hperiodic (hclock.of_prefix hpre)
      (fun a ha => hcoarse a (hpre.subset ha)) hwindow
    have hexact := hun.exact (hk.clear hreading hlater)
    apply F64.ext
    rw [F64.val_add]
    calc Binary64.round ((window.used.get .pub).val + (window.used.get .priv).val)
        = Binary64.round o.reading.usedPercent.val := by rw [← hreading, ← hexact, Attributed.total]
      _ = o.reading.usedPercent.val := o.reading.usedPercent.round_val
  · intro pre p o window window' hpre hsame hwindow hwindow'
    have hlast : pre ++ [p] <+: steps := (prefix_pair pre p o).trans hpre
    obtain ⟨first, hfirst⟩ := exists_head? pre p
    have hk := accounted_ledger (h.of_prefix hlast) (hclock.of_prefix hlast) hfirst hwindow
    rw [ledger_pair pre p o hwindow, Option.some.injEq] at hwindow'
    subst hwindow'
    have hgood := hclock pre p o window hpre hwindow
    exact (hk.same (by simp) (reading_ledger hwindow) hsame hgood).2

/-- If use is charged to its period, every reading was timely or harmless, but for roundings. -/
private theorem ChargedToPeriods.harmless {steps : List Observation} (hc : ChargedToPeriods steps)
    (h : Periodic steps) : ClockNearlyHarmless steps := by
  intro pre p o window hpre hwindow
  have hreading := reading_ledger hwindow
  have hafter := ledger_pair pre p o hwindow
  have hperiodic := h.of_prefix hpre
  have hlast : pre ++ [p] <+: pre ++ [p, o] := prefix_pair pre p o
  have hsound := (hperiodic.of_prefix hlast).sound hwindow
  have ho := (hperiodic.inRange o (by simp)).1
  refine or_iff_not_imp_left.mpr fun huntimely => ?_
  unfold Harmless
  rcases hperiodic.link with hsame | hlater
  · have hlate : ¬ o.now < window.reading.resetsAt := by
      rw [hreading]
      exact fun hlt => huntimely ⟨fun _ => hsame.1, fun _ => hlt⟩
    obtain ⟨-, hown, hother⟩ := Attributed.after_late hlate
    have hgrows := hc.grows pre p o window _ hpre hsame hwindow hafter
    rw [if_pos (hreading ▸ hsame.1)]
    constructor
    · -- what the other consumer used is gone, and it may not fall
      have hle := hgrows (other o.consumer)
      rw [hother, F64.val_zero] at hle
      exact le_antisymm hle (hsound.used_nonneg _)
    · have hle := hgrows o.consumer
      rwa [hown] at hle
  · have hearly : o.now < window.reading.resetsAt := hreading ▸ hlater.early huntimely
    obtain ⟨hpartWay, -, -⟩ := Attributed.after_early hearly
    rw [if_neg (hreading ▸ hlater.ne)]
    obtain ⟨first, hfirst⟩ : ∃ first, steps.head? = some first := by
      obtain ⟨rest, rfl⟩ := hpre
      exact Option.isSome_iff_exists.mp (List.isSome_head?.mpr (by simp))
    have hsplit : pre ++ [p, o] = (pre ++ [p]) ++ [o] := by simp
    obtain ⟨hexact, hclear⟩ := hc.exact (pre ++ [p]) o first _ (hsplit ▸ hpre) hfirst
      (hperiodic.first_lt (head?_prefix_eq (hlast.trans hpre) hfirst) hlater) (hsplit ▸ hafter)
    refine ⟨?_, hpartWay ▸ hclear⟩
    rw [List.length_append, List.length_singleton] at hexact
    rcases le_total window.reading.usedPercent.val o.reading.usedPercent.val with hrise | hfall
    · have hleast := atLeast_of_le (n := pre.length + 3) hsound.reading_nonneg hrise
      exact le_trans hleast (AtMost.mono (Within.refl _).atMost ho (Nat.zero_le _))
    · -- what was charged covers the last reading, and all of it is still charged
      have hsum := (hperiodic.sound hafter).within_sum.atLeast
      rw [Attributed.total_fall hearly hfall] at hsum
      have hcovers := hsum.trans hsound.covers
      rw [List.length_append, List.length_singleton] at hcovers
      have hmore := hcovers.mono (n := pre.length + 3) hsound.reading_nonneg (by omega)
      exact le_trans hmore hexact.atMost

theorem ChargedToPeriods.of_prefix {steps steps' : List Observation} (hc : ChargedToPeriods steps)
    (hcoarse : ∀ o ∈ steps, Coarse o) (hpre : steps' <+: steps) : ChargedToPeriods steps' := by
  have hhead : ∀ {pre : List Observation} {o first : Observation}, pre ++ [o] <+: steps' →
      steps'.head? = some first → steps.head? = some first := by
    intro pre o first h hfirst
    obtain ⟨rest, rfl⟩ := hpre
    rw [List.head?_append, hfirst]
    rfl
  refine ⟨?_, ?_, ?_⟩
  · intro pre o first window h hfirst
    exact hc.exact pre o first window (h.trans hpre) (hhead h hfirst)
  · intro _ pre o first window h hfirst
    exact hc.coarse hcoarse pre o first window (h.trans hpre) (hhead h hfirst)
  · intro pre p o window window' h
    exact hc.grows pre p o window window' (h.trans hpre)

/-- A coarse reading that the clock mistakes for one of the same period is no lower, if just it is
charged after it. -/
private theorem Unrounded.rise_of_exact {window : Attributed} {o : Observation}
    (h : Unrounded window) (hearly : o.now < window.reading.resetsAt)
    (hclear : window.partWay = false)
    (hexact : (window.after o).used.get .pub + (window.after o).used.get .priv =
      o.reading.usedPercent) : window.reading.usedPercent.val ≤ o.reading.usedPercent.val := by
  by_contra hfall
  -- nothing was charged, so that all of the last reading still is
  have hsum : Binary64.round window.reading.usedPercent.val = o.reading.usedPercent.val := by
    rw [← hexact, F64.val_add, ← h.exact hclear,
      ← Attributed.total_fall hearly (not_le.mp hfall).le]
    rfl
  rw [window.reading.usedPercent.round_val] at hsum
  exact hfall hsum.le

/-- If use is charged to its period and no reading needs rounding, every reading was timely or
harmless. -/
private theorem ChargedToPeriods.harmless_of_coarse {steps : List Observation}
    (hc : ChargedToPeriods steps) (h : Periodic steps) (hcoarse : ∀ o ∈ steps, Coarse o) :
    ClockHarmless steps := by
  induction steps using List.reverseRecOn with
  | nil =>
      intro pre p o window hpre
      exact absurd hpre.length_le (by simp)
  | append_singleton steps last ih =>
      have hinit : steps <+: steps ++ [last] := List.prefix_append _ _
      have hclock := ih (hc.of_prefix hcoarse hinit) (h.of_prefix hinit)
        fun o ho => hcoarse o (hinit.subset ho)
      intro pre p o window hpre hwindow
      rcases List.prefix_concat_iff.mp hpre with heq | hearlier
      · have hsplit : pre ++ [p, o] = (pre ++ [p]) ++ [o] := by simp
        rw [hsplit] at heq
        obtain ⟨rfl, hlast⟩ := List.append_inj' heq rfl
        obtain rfl := List.singleton_inj.mp hlast
        have hperiodic : Periodic (pre ++ [p, o]) := hsplit ▸ h
        have hreading := reading_ledger hwindow
        refine or_iff_not_imp_left.mpr fun huntimely => ?_
        have hnearly := (hc.harmless h pre p o window hpre hwindow).resolve_left huntimely
        unfold Harmless at hnearly ⊢
        by_cases hsame : o.reading.resetsAt = window.reading.resetsAt
        · rw [if_pos hsame] at hnearly ⊢
          exact hnearly
        · rw [if_neg hsame] at hnearly ⊢
          have hlater : LaterPeriod p o :=
            hperiodic.link.resolve_left fun hp => hsame (hreading ▸ hp.1)
          have hearly : o.now < window.reading.resetsAt := hreading ▸ hlater.early huntimely
          obtain ⟨first, hfirst⟩ := exists_head? pre p
          have hexact := hc.coarse hcoarse (pre ++ [p]) o first _ List.prefix_rfl
            (by rw [List.head?_append, hfirst]; rfl)
            (hperiodic.first_lt hfirst hlater) (hsplit ▸ ledger_pair pre p o hwindow)
          have hun := unrounded_ledger (h.of_prefix hinit) hclock
            (fun a ha => hcoarse a (hinit.subset ha)) hwindow
          refine ⟨?_, hnearly.2⟩
          simpa [shrink, stretch] using hun.rise_of_exact hearly hnearly.2 hexact
      · exact hclock pre p o window hearlier hwindow

/-- **When use is charged to the period it belongs to**: wherever the local clock takes a reading
for one of another period, the reading is harmless; and, but for what rounding makes of the
readings, only then. Of coarse readings nothing is rounded, and it is exactly then. -/
theorem charged_to_periods (steps : List Observation) (h : Periodic steps) :
    (ClockHarmless steps → ChargedToPeriods steps) ∧
      (ChargedToPeriods steps → ClockNearlyHarmless steps) ∧
        ((∀ o ∈ steps, Coarse o) → ChargedToPeriods steps → ClockHarmless steps) :=
  ⟨fun hclock => hclock.charged h, fun hc => hc.harmless h,
    fun hcoarse hc => hc.harmless_of_coarse h hcoarse⟩

/-- A fifth of a percent and then nine tenths: what is charged is off by a rounding. -/
example : F64.ofRat (2 / 10) + (F64.ofRat (9 / 10) - F64.ofRat (2 / 10)) ≠ F64.ofRat (9 / 10) := by
  decide +kernel

/-- Two readings of the five-hour window, of one period and of the next, the second at `now` by the
local clock. -/
def nextPeriodAt (now : UInt64) : List Observation :=
  [⟨⟨.ofInt 40 (by decide), 18000, 18000⟩, .pub, 1000⟩,
    ⟨⟨.ofInt 1 (by decide), 36000, 18000⟩, .priv, now⟩]

theorem periodic_nextPeriodAt (now : UInt64) : Periodic (nextPeriodAt now) := by
  refine ⟨?_, ?_, ?_⟩
  · intro o ho o' ho'
    simp only [nextPeriodAt, List.mem_cons, List.not_mem_nil, or_false] at ho ho'
    rcases ho with rfl | rfl <;> rcases ho' with rfl | rfl <;> rfl
  · intro o ho
    simp only [nextPeriodAt, List.mem_cons, List.not_mem_nil, or_false] at ho
    rcases ho with rfl | rfl <;> norm_num [F64.ofInt]
  · refine List.isChain_pair.mpr (.inr ⟨?_, ?_⟩)
    · show (18000 : UInt64) < 36000
      decide
    · show (18000 : UInt64).toNat + (18000 : UInt64).toNat ≤ (36000 : UInt64).toNat
      decide

/-- By a clock a second behind, what was used of the first period stays charged in the second. -/
theorem not_charged_nextPeriodAt :
    Periodic (nextPeriodAt 17999) ∧ ¬ ChargedToPeriods (nextPeriodAt 17999) := by
  refine ⟨periodic_nextPeriodAt 17999, fun hc => ?_⟩
  have hexact := hc.exact [⟨⟨.ofInt 40 (by decide), 18000, 18000⟩, .pub, 1000⟩] _ _ _
    List.prefix_rfl rfl (by decide) rfl
  exact absurd hexact.2 (by decide +kernel)

/-- By a clock that is right, nothing of it does. -/
theorem charged_to_periods_sample :
    Periodic (nextPeriodAt 18000) ∧ ChargedToPeriods (nextPeriodAt 18000) := by
  refine ⟨periodic_nextPeriodAt 18000,
    (charged_to_periods _ (periodic_nextPeriodAt 18000)).1 ?_⟩
  intro pre p o window hpre _
  have hlength : pre = [] := by
    have hle := hpre.length_le
    simp only [nextPeriodAt, List.length_append, List.length_cons, List.length_nil] at hle
    exact List.eq_nil_of_length_eq_zero (by omega)
  subst hlength
  obtain ⟨rest, hrest⟩ := hpre
  cases hrest
  exact .inl (by unfold Timely; decide)

end Rounded

end CredentialBroker
