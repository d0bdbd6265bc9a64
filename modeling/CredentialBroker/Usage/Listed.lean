import CredentialBroker.Usage.Registry

/-!
# The operators a registry lists

An operator is in two maps and perhaps a set: the snapshot has its counts, spend its week, and the
snapshot the names of those that are public. Spend may be metered before an operator is declared or
after, an operator may be declared again for another consumer, and a declaration is refused once
there are too many.

`OperatorLists` is what the three have in them, without the figures. Declaring and metering act on
it alone (`lists_run`), so what holds of the lists in every history is proved of it, and
`operators_in_step` adds that neither of the two touches a figure.
-/

namespace CredentialBroker

/-! ## The lists -/

/-- Which operators are listed, how many, which are public, and which have a week of spend, if
spend is metered. -/
@[ext] structure OperatorLists where
  listed : String → Bool
  size : Nat
  publics : Finset String
  weeks : Option (String → Bool)

namespace OperatorLists

/-- No operator is listed, and no spend metered. -/
def empty : OperatorLists := ⟨fun _ => false, 0, ∅, none⟩

/-- One operator more. -/
def list (lists : OperatorLists) (operator : String) : OperatorLists where
  listed := fun name => decide (name = operator) || lists.listed name
  size := lists.size + 1
  publics := lists.publics
  weeks := lists.weeks.map fun weeks name => decide (name = operator) || weeks name

def mark (lists : OperatorLists) (operator : String) (consumer : Consumer) : OperatorLists :=
  { lists with
    publics :=
      if consumer = .pub then insert operator lists.publics else lists.publics.erase operator }

/-- A declaration: refused if the operator is new and there is no room. -/
def declare (lists : OperatorLists) (operator : String) (consumer : Consumer) : OperatorLists :=
  if lists.listed operator then lists.mark operator consumer
  else if maxListedOperators ≤ lists.size then lists
  else (lists.list operator).mark operator consumer

/-- Metering starts with a week for each operator that is listed. -/
def meter (lists : OperatorLists) : OperatorLists :=
  { lists with weeks := some (lists.weeks.getD lists.listed) }

def step (lists : OperatorLists) : UsageCall → OperatorLists
  | .meterSpend _ => lists.meter
  | .declareOperator operator consumer => lists.declare operator consumer
  | _ => lists

end OperatorLists

/-- The lists of a registry, from when it is first named. -/
def operatorLists : Mealy OperatorLists UsageCall Unit :=
  ⟨.empty, fun lists call => (lists.step call, ())⟩

/-! ## The registry's -/

namespace UsageRegistry

/-- What the registry lists. -/
def lists (r : UsageRegistry) : OperatorLists where
  listed := fun name => (r.snapshot.operators.lookup name).isSome
  size := r.snapshot.operators.size
  publics := r.snapshot.publicOperators
  weeks := r.spend.map fun spend name => (spend.operators.lookup name).isSome

theorem lists_markOperator (r : UsageRegistry) (operator : String) (consumer : Consumer) :
    (r.markOperator operator consumer).lists = r.lists.mark operator consumer := rfl

theorem lists_listOperator (r : UsageRegistry) {operator : String}
    (h : r.snapshot.operators.lookup operator = none) :
    (r.listOperator operator).lists = r.lists.list operator := by
  have hinsert : ∀ {α : Type} (m : Assoc String α) (a : α) (name : String),
      ((m.insert operator a).lookup name).isSome =
        (decide (name = operator) || (m.lookup name).isSome) := by
    intro α m a name
    rw [Assoc.lookup_insert_eq]
    by_cases hname : name = operator <;> simp [hname]
  refine OperatorLists.ext ?_ ?_ rfl ?_
  · funext name
    exact hinsert _ _ name
  · exact Assoc.size_insert ({} : Counts) h
  · show (r.spend.map _).map _ = (r.spend.map _).map _
    rw [Option.map_map, Option.map_map]
    congr 1
    funext spend name
    exact hinsert _ _ name

theorem lists_declareOperator (r : UsageRegistry) (operator : String) (consumer : Consumer) :
    (r.declareOperator operator consumer).lists = r.lists.declare operator consumer := by
  unfold declareOperator OperatorLists.declare
  show _ = if (r.snapshot.operators.lookup operator).isSome = true then _
    else if maxListedOperators ≤ r.snapshot.operators.size then _ else _
  split
  · rfl
  · next hnew =>
      split
      · rfl
      · rw [lists_markOperator, lists_listOperator r (Option.not_isSome_iff_eq_none.mp hnew)]

theorem lists_meterSpendAt (r : UsageRegistry) (now : UInt64) :
    (r.meterSpendAt now).lists = r.lists.meter := by
  unfold meterSpendAt
  split
  · next spend hspend =>
      refine OperatorLists.ext rfl rfl rfl ?_
      simp [lists, OperatorLists.meter, hspend]
  · next hspend =>
      refine OperatorLists.ext rfl rfl rfl ?_
      simp [lists, OperatorLists.meter, hspend]

theorem lists_settleSpendAt (r : UsageRegistry) (payer : Payer) (usage : Option Usage)
    (success : Bool) (now : UInt64) :
    (r.settleSpendAt payer usage success now).lists = r.lists := by
  unfold settleSpendAt
  split
  · rfl
  · refine OperatorLists.ext rfl rfl rfl ?_
    show (r.spend.map _).map _ = r.spend.map _
    rw [Option.map_map]
    congr 1
    funext spend name
    show ((spend.charge _ _ _).operators.lookup name).isSome = _
    rw [SpendWeeks.lookup_operators_charge]
    split
    · rw [Option.isSome_map]
    · rfl

theorem lists_settleOperator (r : UsageRegistry) (operator : String) (usage : Option Usage)
    (success : Bool) : (r.settleOperator operator usage success).lists = r.lists := by
  refine OperatorLists.ext ?_ ?_ rfl rfl
  · funext name
    show ((r.snapshot.operators.modify operator _).lookup name).isSome = _
    rw [Assoc.lookup_modify]
    split
    · rw [Option.isSome_map]
      rfl
    · rfl
  · exact Assoc.size_modify _ _ _

/-- **Refinement, one call.** -/
theorem lists_step (r : UsageRegistry) (call : UsageCall) :
    (r.step call).lists = r.lists.step call := by
  cases call with
  | meterSpend now => exact r.lists_meterSpendAt now
  | settleSpend payer usage success now => exact r.lists_settleSpendAt payer usage success now
  | declareOperator operator consumer => exact r.lists_declareOperator operator consumer
  | settleOperator operator usage success => exact r.lists_settleOperator operator usage success
  | settle provider usage success => rfl
  | declareUnproven => rfl
  | unprovenRegistration admitted => rfl
  | settleUnproven usage success => rfl
  | capture capture => rfl

end UsageRegistry

/-- **Refinement.** What a registry lists after any history is what the declarations and the
metering in it make of the lists. -/
theorem lists_run (startedAt : UInt64) (calls : List UsageCall) :
    ((usageRegistry startedAt).run calls).lists = operatorLists.run calls :=
  Mealy.view_run (m := usageRegistry startedAt) operatorLists UsageRegistry.lists rfl
    UsageRegistry.lists_step calls

/-! ## What holds of the lists -/

/-- Whom a call declares an operator for, if it declares it. -/
def UsageCall.declares (name : String) : UsageCall → Option Consumer
  | .declareOperator operator consumer => if operator = name then some consumer else none
  | _ => none

/-- Whom an operator was last declared for. -/
def lastDeclared (name : String) (calls : List UsageCall) : Option Consumer :=
  (calls.filterMap (UsageCall.declares name)).getLast?

theorem lastDeclared_concat (name : String) (calls : List UsageCall) (call : UsageCall) :
    lastDeclared name (calls ++ [call]) =
      (call.declares name).or (lastDeclared name calls) := by
  unfold lastDeclared
  rw [List.filterMap_append]
  cases hdeclares : call.declares name with
  | none => simp [hdeclares]
  | some consumer => simp [hdeclares]

namespace OperatorLists

/-- What a declaration does: the operator is listed already, there is no room, or it is listed now.
-/
inductive Declared (lists : OperatorLists) (operator : String) (consumer : Consumer) :
    OperatorLists → Prop where
  | again (hlisted : lists.listed operator = true) :
      Declared lists operator consumer (lists.mark operator consumer)
  | refused (hnew : lists.listed operator = false) (hfull : maxListedOperators ≤ lists.size) :
      Declared lists operator consumer lists
  | listed (hnew : lists.listed operator = false) (hroom : lists.size < maxListedOperators) :
      Declared lists operator consumer ((lists.list operator).mark operator consumer)

theorem declared (lists : OperatorLists) (operator : String) (consumer : Consumer) :
    Declared lists operator consumer (lists.declare operator consumer) := by
  unfold declare
  split
  · next hlisted => exact .again hlisted
  · next hnew =>
      split
      · next hfull => exact .refused (Bool.not_eq_true _ ▸ hnew) hfull
      · next hroom => exact .listed (Bool.not_eq_true _ ▸ hnew) (Nat.not_le.mp hroom)

theorem mem_publics_mark (lists : OperatorLists) (operator : String) (consumer : Consumer)
    (name : String) :
    name ∈ (lists.mark operator consumer).publics ↔
      if name = operator then consumer = .pub else name ∈ lists.publics := by
  unfold mark
  by_cases hname : name = operator <;> cases consumer <;> simp [hname]

/-- Every declaration of an operator found the list full. -/
def NoRoom (name : String) (calls : List UsageCall) : Prop :=
  ∀ before consumer after, calls = before ++ .declareOperator name consumer :: after →
    maxListedOperators ≤ (operatorLists.run before).size

theorem noRoom_concat {name : String} {calls : List UsageCall} {call : UsageCall}
    (h : NoRoom name calls)
    (hlast : ∀ consumer, call = .declareOperator name consumer →
      maxListedOperators ≤ (operatorLists.run calls).size) :
    NoRoom name (calls ++ [call]) := by
  intro before consumer after hsplit
  rcases List.eq_nil_or_concat after with rfl | ⟨after, last, rfl⟩
  · obtain ⟨rfl, hcall⟩ := List.append_inj' hsplit rfl
    cases hcall
    exact hlast consumer rfl
  · rw [List.concat_eq_append, ← List.cons_append, ← List.append_assoc] at hsplit
    obtain ⟨rfl, -⟩ := List.append_inj' hsplit rfl
    exact h before consumer after rfl

/-- What holds of the lists after `calls`. -/
structure InStep (calls : List UsageCall) (lists : OperatorLists) : Prop where
  /-- Once spend is metered, it has a week for exactly the operators that are listed. -/
  weeks : ∀ weeks, lists.weeks = some weeks → weeks = lists.listed
  bounded : lists.size ≤ maxListedOperators
  publics : ∀ name, name ∈ lists.publics ↔
    lists.listed name = true ∧ lastDeclared name calls = some .pub
  noRoom : ∀ name, lists.listed name = false → NoRoom name calls

theorem inStep_empty : InStep [] .empty := by
  refine ⟨nofun, Nat.zero_le _, ?_, ?_⟩
  · intro name
    simp [empty]
  · intro name _ before consumer after h
    simp at h

/-- A call that is no declaration leaves the listed and the public operators. -/
theorem InStep.other {calls : List UsageCall} {lists : OperatorLists} (h : InStep calls lists)
    {call : UsageCall} (hcall : ∀ name, call.declares name = none)
    {weeks : Option (String → Bool)} (hweeks : ∀ w, weeks = some w → w = lists.listed) :
    InStep (calls ++ [call]) { lists with weeks := weeks } := by
  refine ⟨hweeks, h.bounded, ?_, ?_⟩
  · intro name
    rw [lastDeclared_concat, hcall, Option.none_or]
    exact h.publics name
  · intro name hname
    refine noRoom_concat (h.noRoom name hname) fun consumer heq => ?_
    have hnone := hcall name
    rw [heq, UsageCall.declares, if_pos rfl] at hnone
    cases hnone

/-- A declaration of an operator that is listed by then. -/
theorem InStep.mark {calls : List UsageCall} {lists : OperatorLists} (h : InStep calls lists)
    {operator : String} (hlisted : lists.listed operator = true) (consumer : Consumer) :
    InStep (calls ++ [.declareOperator operator consumer]) (lists.mark operator consumer) := by
  refine ⟨h.weeks, h.bounded, ?_, ?_⟩
  · intro name
    rw [mem_publics_mark, lastDeclared_concat]
    show _ ↔ lists.listed name = true ∧ _
    by_cases hname : name = operator
    · subst hname
      simp [UsageCall.declares, hlisted]
    · simp [UsageCall.declares, Ne.symm hname, hname, h.publics name]
  · intro name hname
    refine noRoom_concat (h.noRoom name hname) fun consumer' heq => ?_
    cases heq
    rw [show lists.listed operator = false from hname] at hlisted
    cases hlisted

/-- The first declaration of an operator, if there is room. -/
theorem InStep.list {calls : List UsageCall} {lists : OperatorLists} (h : InStep calls lists)
    {operator : String} (hroom : lists.size < maxListedOperators) (consumer : Consumer) :
    InStep (calls ++ [.declareOperator operator consumer])
      ((lists.list operator).mark operator consumer) := by
  refine ⟨?_, hroom, ?_, ?_⟩
  · intro weeks hweeks
    obtain ⟨old, hold, rfl⟩ := Option.map_eq_some_iff.mp hweeks
    rw [h.weeks old hold]
    rfl
  · intro name
    rw [mem_publics_mark, lastDeclared_concat]
    show _ ↔ (decide (name = operator) || lists.listed name) = true ∧ _
    by_cases hname : name = operator
    · simp [UsageCall.declares, hname]
    · have hold : name ∈ (lists.list operator).publics ↔ _ := h.publics name
      simp [UsageCall.declares, Ne.symm hname, hname, hold]
  · intro name hname
    have hne : name ≠ operator ∧ lists.listed name = false := by
      have hor : (decide (name = operator) || lists.listed name) = false := hname
      simpa using hor
    refine noRoom_concat (h.noRoom name hne.2) fun consumer' heq => ?_
    cases heq
    exact absurd rfl hne.1

/-- A declaration that is refused: the operator is not listed, and was not before. -/
theorem InStep.refuse {calls : List UsageCall} (h : InStep calls (operatorLists.run calls))
    {operator : String} (hnew : (operatorLists.run calls).listed operator = false)
    (hfull : maxListedOperators ≤ (operatorLists.run calls).size) (consumer : Consumer) :
    InStep (calls ++ [.declareOperator operator consumer]) (operatorLists.run calls) := by
  refine ⟨h.weeks, h.bounded, ?_, ?_⟩
  · intro name
    rw [lastDeclared_concat, h.publics name]
    by_cases hname : operator = name
    · subst hname
      simp [hnew]
    · simp [UsageCall.declares, hname]
  · intro name hname
    exact noRoom_concat (h.noRoom name hname) fun _ _ => hfull

/-- **Run.** The lists are bounded, and say what was declared, after any calls. -/
theorem inStep_run (calls : List UsageCall) : InStep calls (operatorLists.run calls) := by
  induction calls using List.reverseRecOn with
  | nil => exact inStep_empty
  | append_singleton calls call ih =>
      rw [Mealy.run_concat]
      cases call with
      | declareOperator operator consumer =>
          show InStep _ ((operatorLists.run calls).declare operator consumer)
          have hdeclared := (operatorLists.run calls).declared operator consumer
          generalize (operatorLists.run calls).declare operator consumer = lists at hdeclared ⊢
          cases hdeclared with
          | again hlisted => exact ih.mark hlisted consumer
          | refused hnew hfull => exact ih.refuse hnew hfull consumer
          | listed hnew hroom => exact ih.list hroom consumer
      | meterSpend now =>
          refine ih.other (fun _ => rfl) ?_
          intro weeks hweeks
          cases hold : (operatorLists.run calls).weeks with
          | none =>
              rw [hold, Option.getD_none] at hweeks
              exact (Option.some.inj hweeks).symm
          | some old =>
              rw [hold, Option.getD_some] at hweeks
              rw [← Option.some.inj hweeks]
              exact ih.weeks old hold
      | _ => exact ih.other (fun _ => rfl) ih.weeks

end OperatorLists

/-! ## Figures -/

/-- No figure of `r` is another in `r'`: not an operator's counts or its week, nor any other week,
nor when metering began. -/
structure UsageRegistry.FiguresKept (r r' : UsageRegistry) : Prop where
  counts : ∀ name counts, r.snapshot.operators.lookup name = some counts →
    r'.snapshot.operators.lookup name = some counts
  spend : ∀ spend, r.spend = some spend → ∃ spend', r'.spend = some spend' ∧
    spend'.toSpend = spend.toSpend ∧ spend'.runs = spend.runs ∧
      ∀ name week, spend.operators.lookup name = some week →
        spend'.operators.lookup name = some week

/-- A call declares an operator or meters spend. -/
def UsageCall.setsUp : UsageCall → Bool
  | .declareOperator _ _ | .meterSpend _ => true
  | _ => false

namespace UsageRegistry

theorem FiguresKept.refl (r : UsageRegistry) : r.FiguresKept r :=
  ⟨fun _ _ h => h, fun spend h => ⟨spend, h, rfl, rfl, fun _ _ hweek => hweek⟩⟩

theorem FiguresKept.mark {r r' : UsageRegistry} (h : r.FiguresKept r') (operator : String)
    (consumer : Consumer) : r.FiguresKept (r'.markOperator operator consumer) :=
  ⟨h.counts, h.spend⟩

/-- A new operator is listed beside the others. -/
theorem FiguresKept.listOperator {r : UsageRegistry} {operator : String}
    (hnew : r.snapshot.operators.lookup operator = none)
    (hweeks : ∀ spend, r.spend = some spend → spend.operators.lookup operator = none) :
    r.FiguresKept (r.listOperator operator) := by
  refine ⟨?_, ?_⟩
  · intro name counts hcounts
    show (r.snapshot.operators.insert operator {}).lookup name = some counts
    have hne : name ≠ operator := by
      rintro rfl
      rw [hnew] at hcounts
      cases hcounts
    rw [Assoc.lookup_insert_eq, if_neg hne]
    exact hcounts
  · intro spend hspend
    refine ⟨_, congrArg (Option.map _) hspend, rfl, rfl, ?_⟩
    intro name week hweek
    have hne : name ≠ operator := by
      rintro rfl
      rw [hweeks spend hspend] at hweek
      cases hweek
    show (spend.operators.insert operator []).lookup name = some week
    rw [Assoc.lookup_insert_eq, if_neg hne]
    exact hweek

/-- **Step.** Declaring and metering reset nothing. -/
theorem FiguresKept.step {r : UsageRegistry}
    (hkeys : ∀ spend, r.spend = some spend → ∀ name,
      (spend.operators.lookup name).isSome = (r.snapshot.operators.lookup name).isSome)
    {call : UsageCall} (h : call.setsUp = true) : r.FiguresKept (r.step call) := by
  cases call with
  | declareOperator operator consumer =>
      show r.FiguresKept (r.declareOperator operator consumer)
      unfold declareOperator
      split
      · exact (FiguresKept.refl r).mark operator consumer
      · next hnew =>
          split
          · exact .refl r
          · rw [Option.not_isSome_iff_eq_none] at hnew
            refine (FiguresKept.listOperator hnew fun spend hspend => ?_).mark operator consumer
            rw [← Option.not_isSome_iff_eq_none, hkeys spend hspend operator, hnew]
            simp
  | meterSpend now =>
      show r.FiguresKept (r.meterSpendAt now)
      unfold meterSpendAt
      split
      · exact .refl r
      · next hnone =>
          refine ⟨fun _ _ hcounts => hcounts, fun spend hspend => ?_⟩
          rw [hnone] at hspend
          cases hspend
  | _ => cases h

end UsageRegistry

/-! ## Every history -/

/-- What is promised of a registry after `calls`. -/
structure OperatorsInStep (startedAt : UInt64) (calls : List UsageCall) (r : UsageRegistry) :
    Prop where
  /-- Once spend is metered, it has a week for exactly the operators that have counts. -/
  keys : ∀ spend, r.spend = some spend → ∀ name,
    (spend.operators.lookup name).isSome = (r.snapshot.operators.lookup name).isSome
  bounded : r.snapshot.operators.size ≤ maxListedOperators
  /-- The public operators are those that are listed and were last declared public. -/
  publics : ∀ name, name ∈ r.snapshot.publicOperators ↔
    (r.snapshot.operators.lookup name).isSome = true ∧ lastDeclared name calls = some .pub
  kept : ∀ call, call.setsUp = true → r.FiguresKept (r.step call)
  /-- What an operator spends is charged to its week, unless it is not listed and every declaration
  of it found the list full. -/
  charged : ∀ spend payer name usage success charge now, r.spend = some spend →
    payer.operator = some name → Charge.of usage success = some charge →
      (∃ week charged, spend.operators.lookup name = some week ∧
        (r.settleSpendAt payer usage success now).spend = some charged ∧
        charged.operators.lookup name = some (week.add (now.toNat / 3600) charge)) ∨
      (r.snapshot.operators.lookup name = none ∧
        ∀ before consumer after, calls = before ++ .declareOperator name consumer :: after →
          maxListedOperators ≤ ((usageRegistry startedAt).run before).snapshot.operators.size)

/-- **Operator lists stay in step**, in every history. -/
theorem operators_in_step (startedAt : UInt64) (calls : List UsageCall) :
    OperatorsInStep startedAt calls ((usageRegistry startedAt).run calls) := by
  have hlists : ∀ calls, ((usageRegistry startedAt).run calls).lists = operatorLists.run calls :=
    lists_run startedAt
  have hstep := OperatorLists.inStep_run calls
  rw [← hlists calls] at hstep
  generalize (usageRegistry startedAt).run calls = r at hstep ⊢
  have hkeys : ∀ spend, r.spend = some spend → ∀ name,
      (spend.operators.lookup name).isSome = (r.snapshot.operators.lookup name).isSome := by
    intro spend hspend name
    exact congrFun (hstep.weeks _ (congrArg (Option.map _) hspend)) name
  refine ⟨hkeys, hstep.bounded, hstep.publics, fun call hcall => .step hkeys hcall, ?_⟩
  intro spend payer name usage success charge now hspend hpayer hcharge
  cases hweek : spend.operators.lookup name with
  | some week =>
      left
      have hcharged : (r.settleSpendAt payer usage success now).spend =
          some (spend.charge payer (now.toNat / 3600) charge) := by
        unfold UsageRegistry.settleSpendAt
        rw [hcharge, hspend]
        rfl
      refine ⟨week, _, rfl, hcharged, ?_⟩
      rw [SpendWeeks.lookup_operators_charge, if_pos hpayer, hweek, Option.map_some]
  | none =>
      right
      have hname := hkeys spend hspend name
      rw [hweek, Option.isSome_none] at hname
      refine ⟨Option.not_isSome_iff_eq_none.mp (by rw [← hname]; simp), ?_⟩
      intro before consumer after hsplit
      have hfull := hstep.noRoom name hname.symm before consumer after hsplit
      rw [← hlists before] at hfull
      exact hfull

end CredentialBroker
