import CredentialBroker.Usage.Listed

/-!
# What spend reveals

Once grants exist, `/usage` shows the public consumer's spend and nothing that the private
consumer's changes. `publicView` is all that this spend depends on: a settlement of a private payer
leaves it as it is, what any other call makes of it depends on it alone, and so it is the same for a
history as for the history without its private settlements (`Mealy.view_run_purge`).

That the operators shown are the public consumer's is what the listed operators' consumers are for.
They are kept under the other lock than the weeks, so it holds only as long as every operator keeps
its consumer (`UsageCall.Keeps`).
-/

namespace CredentialBroker

/-! ## The two kinds of call -/

/-- Operators keep the consumers `consumerOf`, and their payers carry them. -/
def UsageCall.Keeps (consumerOf : String → Consumer) : UsageCall → Prop
  | .declareOperator operator consumer => consumer = consumerOf operator
  | .settleSpend payer _ _ _ =>
      ∀ operator, payer.operator = some operator → payer.consumer = consumerOf operator
  | _ => True

/-- The calls that make the public consumer's spend what it is. -/
def UsageCall.isPublicSpend : UsageCall → Bool
  | .meterSpend _ => true
  | .declareOperator _ _ => true
  | .settleSpend payer _ _ _ => decide (payer.consumer = .pub)
  | _ => false

/-! ## What the public consumer's spend depends on -/

/-- The public consumer's weeks. -/
@[ext] structure PublicWeeks where
  since : UInt64
  runs : Week
  operators : String → Option Week

/-- The operators listed, which of them are public, and the public consumer's weeks. -/
@[ext] structure PublicView where
  listed : List String
  publicOperators : Finset String
  spend : Option PublicWeeks

def SpendWeeks.publicWeeks (consumerOf : String → Consumer) (spend : SpendWeeks) : PublicWeeks where
  since := spend.since
  runs := spend.runs.get .pub
  operators := fun name => if consumerOf name = .pub then spend.operators.lookup name else none

def UsageRegistry.publicView (consumerOf : String → Consumer) (r : UsageRegistry) : PublicView where
  listed := r.snapshot.operators.keys
  publicOperators := r.snapshot.publicOperators
  spend := r.spend.map (SpendWeeks.publicWeeks consumerOf)

variable {consumerOf : String → Consumer}

/-- The public view of spend is read off the public weeks. -/
theorem SpendWeeks.view_congr {s t : SpendWeeks} {operators : Finset String}
    (hpublic : ∀ name ∈ operators, consumerOf name = .pub)
    (h : s.publicWeeks consumerOf = t.publicWeeks consumerOf) (hour : Nat) :
    s.view hour (some operators) = t.view hour (some operators) := by
  obtain ⟨hsince, hruns, hweeks⟩ := PublicWeeks.ext_iff.mp h
  simp only [publicWeeks] at hsince hruns
  have hshown : (s.operators.retain fun name _ => decide (name ∈ operators)).sorted =
      (t.operators.retain fun name _ => decide (name ∈ operators)).sorted := by
    apply Assoc.sorted_congr
    intro name
    rw [Assoc.lookup_retain, Assoc.lookup_retain]
    by_cases hname : name ∈ operators
    · have hweek := congrFun hweeks name
      simp only [publicWeeks, hpublic name hname, if_true] at hweek
      rw [hweek]
    · simp [hname]
  unfold view
  simp only [Option.isNone_some, Option.all_some, Bool.false_eq_true, if_false, hsince, hruns,
    hshown]

/-! ## One call -/

/-- A private payer's charge leaves the public weeks alone. -/
theorem SpendWeeks.publicWeeks_charge_private {spend : SpendWeeks} {payer : Payer}
    (hpayer : payer.consumer = .priv)
    (hkeeps : ∀ operator, payer.operator = some operator → payer.consumer = consumerOf operator)
    (hour : Nat) (charge : Charge) :
    (spend.charge payer hour charge).publicWeeks consumerOf = spend.publicWeeks consumerOf := by
  ext1
  · exact since_charge spend payer hour charge
  · simp only [publicWeeks, runs_charge, hpayer]
    split
    · exact PerConsumer.get_modify _ _ _ _
    · rfl
  · funext name
    simp only [publicWeeks, lookup_operators_charge]
    by_cases hname : payer.operator = some name
    · have hprivate : consumerOf name = .priv := (hkeeps name hname).symm.trans hpayer
      simp [hprivate]
    · simp [hname]

/-- What a charge makes of the public weeks depends on them alone. -/
theorem SpendWeeks.publicWeeks_charge_congr {s t : SpendWeeks}
    (h : s.publicWeeks consumerOf = t.publicWeeks consumerOf) (payer : Payer) (hour : Nat)
    (charge : Charge) :
    (s.charge payer hour charge).publicWeeks consumerOf =
      (t.charge payer hour charge).publicWeeks consumerOf := by
  obtain ⟨hsince, hruns, hweeks⟩ := PublicWeeks.ext_iff.mp h
  simp only [publicWeeks] at hsince hruns
  ext1
  · simp only [publicWeeks, since_charge, hsince]
  · simp only [publicWeeks, runs_charge]
    split
    · simp only [PerConsumer.get_modify, hruns]
    · exact hruns
  · funext name
    have hname := congrFun hweeks name
    simp only [publicWeeks, lookup_operators_charge] at hname ⊢
    by_cases hpublic : consumerOf name = .pub
    · simp only [hpublic, if_true] at hname ⊢
      rw [hname]
    · simp only [hpublic, if_false]

/-- What listing an operator makes of the public weeks depends on them alone. -/
theorem SpendWeeks.publicWeeks_list_congr {s t : SpendWeeks}
    (h : s.publicWeeks consumerOf = t.publicWeeks consumerOf) (operator : String) :
    SpendWeeks.publicWeeks consumerOf { s with operators := s.operators.insert operator [] } =
      SpendWeeks.publicWeeks consumerOf
        { t with operators := t.operators.insert operator [] } := by
  obtain ⟨hsince, hruns, hweeks⟩ := PublicWeeks.ext_iff.mp h
  ext1
  · exact hsince
  · exact hruns
  · funext name
    have hname := congrFun hweeks name
    simp only [publicWeeks, Assoc.lookup_insert_eq] at hname ⊢
    by_cases hoperator : name = operator
    · simp only [hoperator, if_true]
    · simp only [hoperator, if_false]
      exact hname

/-- A change that makes equal public weeks of equal ones does so whether or not spend is metered. -/
theorem map_publicWeeks_congr {s t : Option SpendWeeks} {f : SpendWeeks → SpendWeeks}
    (h : s.map (SpendWeeks.publicWeeks consumerOf) = t.map (SpendWeeks.publicWeeks consumerOf))
    (hf : ∀ {s t : SpendWeeks}, s.publicWeeks consumerOf = t.publicWeeks consumerOf →
      (f s).publicWeeks consumerOf = (f t).publicWeeks consumerOf) :
    (s.map f).map (SpendWeeks.publicWeeks consumerOf) =
      (t.map f).map (SpendWeeks.publicWeeks consumerOf) := by
  cases s with
  | none => rw [Option.map_eq_none_iff.mp h.symm]
  | some s =>
      obtain ⟨u, rfl, hweeks⟩ := Option.map_eq_some_iff.mp h.symm
      exact congrArg some (hf hweeks.symm)

/-- A call that is not one of the public consumer's leaves the view as it is. -/
theorem UsageRegistry.publicView_hidden (r : UsageRegistry) {call : UsageCall}
    (hkeeps : call.Keeps consumerOf) (hhidden : call.isPublicSpend = false) :
    (r.step call).publicView consumerOf = r.publicView consumerOf := by
  cases call with
  | meterSpend now => cases hhidden
  | declareOperator operator consumer => cases hhidden
  | settleSpend payer usage success now =>
      have hpayer : payer.consumer = .priv := by
        cases hconsumer : payer.consumer with
        | pub => simp [UsageCall.isPublicSpend, hconsumer] at hhidden
        | priv => rfl
      simp only [UsageRegistry.step, settleSpendAt]
      split
      · rfl
      · next charge _ =>
          ext1
          · rfl
          · rfl
          · simp only [publicView, Option.map_map]
            congr 1
            funext spend
            exact SpendWeeks.publicWeeks_charge_private hpayer hkeeps _ charge
  | settleOperator operator usage success =>
      ext1
      · exact Assoc.keys_modify _ _ _
      · rfl
      · rfl
  | settle provider usage success => rfl
  | declareUnproven => rfl
  | unprovenRegistration admitted => rfl
  | settleUnproven usage success => rfl
  | capture capture => rfl

theorem UsageRegistry.isSome_lookup_operators {r t : UsageRegistry}
    (h : r.snapshot.operators.keys = t.snapshot.operators.keys) (operator : String) :
    (r.snapshot.operators.lookup operator).isSome =
      (t.snapshot.operators.lookup operator).isSome := by
  rw [Bool.eq_iff_iff, AList.lookup_isSome, AList.lookup_isSome]
  show operator ∈ r.snapshot.operators.keys ↔ operator ∈ t.snapshot.operators.keys
  rw [h]

theorem UsageRegistry.size_operators {r t : UsageRegistry}
    (h : r.snapshot.operators.keys = t.snapshot.operators.keys) :
    r.snapshot.operators.size = t.snapshot.operators.size := by
  rw [Assoc.size_eq_length_keys, Assoc.size_eq_length_keys, h]

theorem UsageRegistry.publicView_markOperator {r t : UsageRegistry}
    (h : r.publicView consumerOf = t.publicView consumerOf) (operator : String)
    (consumer : Consumer) :
    (r.markOperator operator consumer).publicView consumerOf =
      (t.markOperator operator consumer).publicView consumerOf := by
  obtain ⟨hlisted, hpublic, hspend⟩ := PublicView.ext_iff.mp h
  simp only [publicView] at hpublic
  ext1
  · exact hlisted
  · simp only [publicView, markOperator, hpublic]
  · exact hspend

theorem UsageRegistry.publicView_listOperator {r t : UsageRegistry}
    (h : r.publicView consumerOf = t.publicView consumerOf) {operator : String}
    (hr : r.snapshot.operators.lookup operator = none)
    (ht : t.snapshot.operators.lookup operator = none) :
    (r.listOperator operator).publicView consumerOf =
      (t.listOperator operator).publicView consumerOf := by
  obtain ⟨hlisted, hpublic, hspend⟩ := PublicView.ext_iff.mp h
  ext1
  · show (r.snapshot.operators.insert operator {}).keys =
      (t.snapshot.operators.insert operator {}).keys
    rw [Assoc.keys_insert _ hr, Assoc.keys_insert _ ht]
    exact congrArg (operator :: ·) hlisted
  · exact hpublic
  · exact map_publicWeeks_congr hspend fun hweeks =>
      SpendWeeks.publicWeeks_list_congr hweeks operator

/-- Declaring an operator makes of the view what the view says. -/
theorem UsageRegistry.publicView_declareOperator {r t : UsageRegistry}
    (h : r.publicView consumerOf = t.publicView consumerOf) (operator : String)
    (consumer : Consumer) :
    (r.declareOperator operator consumer).publicView consumerOf =
      (t.declareOperator operator consumer).publicView consumerOf := by
  have hlisted : r.snapshot.operators.keys = t.snapshot.operators.keys :=
    congrArg PublicView.listed h
  unfold declareOperator
  rw [isSome_lookup_operators hlisted, size_operators hlisted]
  split
  · exact publicView_markOperator h operator consumer
  · next hnew =>
      split
      · exact h
      · have ht : t.snapshot.operators.lookup operator = none := by simpa using hnew
        have hr : r.snapshot.operators.lookup operator = none := by
          rw [← isSome_lookup_operators hlisted] at hnew
          simpa using hnew
        exact publicView_markOperator (publicView_listOperator h hr ht) operator consumer

theorem UsageRegistry.publicView_meterSpendAt {r t : UsageRegistry}
    (h : r.publicView consumerOf = t.publicView consumerOf) (now : UInt64) :
    (r.meterSpendAt now).publicView consumerOf = (t.meterSpendAt now).publicView consumerOf := by
  obtain ⟨hlisted, hpublic, hspend⟩ := PublicView.ext_iff.mp h
  simp only [publicView] at hspend
  unfold meterSpendAt
  cases hr : r.spend with
  | some s =>
      rw [hr] at hspend
      obtain ⟨u, hu, -⟩ := Option.map_eq_some_iff.mp hspend.symm
      rw [hu]
      exact h
  | none =>
      rw [hr] at hspend
      rw [Option.map_eq_none_iff.mp hspend.symm]
      ext1
      · exact hlisted
      · exact hpublic
      · refine congrArg some ?_
        ext1
        · rfl
        · rfl
        · funext name
          have hname := isSome_lookup_operators hlisted name
          simp only [SpendWeeks.publicWeeks, Assoc.lookup_mapVals]
          split
          · cases hl : r.snapshot.operators.lookup name <;>
              cases hl' : t.snapshot.operators.lookup name <;> simp_all
          · rfl

theorem UsageRegistry.publicView_settleSpendAt {r t : UsageRegistry}
    (h : r.publicView consumerOf = t.publicView consumerOf) (payer : Payer) (usage : Option Usage)
    (success : Bool) (now : UInt64) :
    (r.settleSpendAt payer usage success now).publicView consumerOf =
      (t.settleSpendAt payer usage success now).publicView consumerOf := by
  obtain ⟨hlisted, hpublic, hspend⟩ := PublicView.ext_iff.mp h
  unfold settleSpendAt
  split
  · exact h
  · next charge _ =>
      ext1
      · exact hlisted
      · exact hpublic
      · exact map_publicWeeks_congr hspend fun hweeks =>
          SpendWeeks.publicWeeks_charge_congr hweeks payer _ charge

/-- What a call makes of the view depends on the view alone. -/
theorem UsageRegistry.publicView_step {r t : UsageRegistry}
    (h : r.publicView consumerOf = t.publicView consumerOf) (call : UsageCall) :
    (r.step call).publicView consumerOf = (t.step call).publicView consumerOf := by
  obtain ⟨hlisted, hpublic, hspend⟩ := PublicView.ext_iff.mp h
  cases call with
  | meterSpend now => exact publicView_meterSpendAt h now
  | settleSpend payer usage success now => exact publicView_settleSpendAt h payer usage success now
  | declareOperator operator consumer => exact publicView_declareOperator h operator consumer
  | settleOperator operator usage success =>
      ext1
      · exact (Assoc.keys_modify _ _ _).trans (hlisted.trans (Assoc.keys_modify _ _ _).symm)
      · exact hpublic
      · exact hspend
  | settle provider usage success => exact h
  | declareUnproven => exact h
  | unprovenRegistration admitted => exact h
  | settleUnproven usage success => exact h
  | capture capture => exact h

/-- The spend shown once grants exist is read off the view. -/
theorem UsageRegistry.spend_congr {r t : UsageRegistry}
    (hpublic : ∀ name ∈ r.snapshot.publicOperators, consumerOf name = .pub)
    (h : r.publicView consumerOf = t.publicView consumerOf) (now : UInt64) :
    (r.snapshotAt now true).spend = (t.snapshotAt now true).spend := by
  obtain ⟨-, hoperators, hspend⟩ := PublicView.ext_iff.mp h
  simp only [publicView] at hoperators hspend
  simp only [snapshotAt, if_true, ← hoperators]
  cases hr : r.spend with
  | none =>
      rw [hr] at hspend
      rw [Option.map_eq_none_iff.mp hspend.symm]
  | some s =>
      rw [hr] at hspend
      obtain ⟨u, hu, hweeks⟩ := Option.map_eq_some_iff.mp hspend.symm
      rw [hu]
      exact congrArg some (SpendWeeks.view_congr hpublic hweeks.symm _)

/-! ## Whole histories -/

/-- The operators listed as public are the public consumer's: they were declared so, and keep their
consumer. -/
theorem consumerOf_publicOperators (startedAt : UInt64) (calls : List UsageCall)
    (hkeeps : ∀ call ∈ calls, call.Keeps consumerOf) :
    ∀ name ∈ ((usageRegistry startedAt).run calls).snapshot.publicOperators,
      consumerOf name = .pub := by
  intro name hname
  have hstep := OperatorLists.inStep_run calls
  rw [← lists_run startedAt calls] at hstep
  obtain ⟨-, hlast⟩ := (hstep.publics name).mp hname
  obtain ⟨call, hcall, hdeclares⟩ := List.mem_filterMap.mp (List.mem_of_getLast? hlast)
  have hkept := hkeeps call hcall
  cases call with
  | declareOperator operator consumer =>
      obtain ⟨rfl, heq⟩ := Option.ite_none_right_eq_some.mp hdeclares
      exact hkept.symm.trans (Option.some.inj heq)
  | _ => cases hdeclares

/-- A history shows the spend that it shows without the calls that are not the public consumer's. -/
theorem spend_run_purge (startedAt : UInt64) (calls : List UsageCall)
    (hkeeps : ∀ call ∈ calls, call.Keeps consumerOf) (now : UInt64) :
    (((usageRegistry startedAt).run calls).snapshotAt now true).spend =
      (((usageRegistry startedAt).run (calls.filter UsageCall.isPublicSpend)).snapshotAt now
        true).spend := by
  have hview := (usageRegistry startedAt).view_run_purge (UsageRegistry.publicView consumerOf)
    UsageCall.isPublicSpend (UsageCall.Keeps consumerOf)
    (fun r call hcall hhidden => r.publicView_hidden hcall hhidden)
    (fun r t call _ h => UsageRegistry.publicView_step h call) calls hkeeps
  exact UsageRegistry.spend_congr (consumerOf_publicOperators startedAt calls hkeeps) hview now

/-- **Spend is the public consumer's alone.** Two histories that agree on what meters, declares and
charges the public consumer show the same spend once grants exist. -/
theorem public_spend_only (startedAt : UInt64) (calls calls' : List UsageCall)
    (consumerOf consumerOf' : String → Consumer)
    (hkeeps : ∀ call ∈ calls, call.Keeps consumerOf)
    (hkeeps' : ∀ call ∈ calls', call.Keeps consumerOf')
    (hpublic : calls.filter UsageCall.isPublicSpend = calls'.filter UsageCall.isPublicSpend)
    (now : UInt64) :
    (((usageRegistry startedAt).run calls).snapshotAt now true).spend =
      (((usageRegistry startedAt).run calls').snapshotAt now true).spend := by
  rw [spend_run_purge startedAt calls hkeeps, spend_run_purge startedAt calls' hkeeps', hpublic]

/-- Metered spend, an operator of each consumer, and a response to the public one. -/
def samplePublicCalls : List UsageCall :=
  [.meterSpend 0, .declareOperator "board" .pub, .declareOperator "lab" .priv,
    .settleSpend ⟨some "board", .pub, some .mistral⟩ none true 3600]

/-- Responses to a private run and to the private operator. -/
def samplePrivateCalls : List UsageCall :=
  [.settleSpend ⟨none, .priv, some .codex⟩ none true 3600,
    .settleSpend ⟨some "lab", .priv, some .anthropic⟩ none true 7200]

/-- The private responses do not show. -/
theorem public_spend_only_sample :
    (((usageRegistry 0).run samplePublicCalls).snapshotAt 7200 true).spend =
      (((usageRegistry 0).run (samplePublicCalls ++ samplePrivateCalls)).snapshotAt 7200
        true).spend := by
  have hkeeps : ∀ call ∈ samplePublicCalls ++ samplePrivateCalls,
      call.Keeps (fun name => if name = "lab" then .priv else .pub) := by
    simp [samplePublicCalls, samplePrivateCalls, UsageCall.Keeps]
  exact public_spend_only 0 _ _ _ _ (fun call hcall => hkeeps call (List.mem_append_left _ hcall))
    hkeeps rfl 7200

end CredentialBroker
