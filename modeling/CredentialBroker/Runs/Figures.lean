import CredentialBroker.Runs.Totals

/-!
# What a record shows

An admission ends in one of two ways, settled or dropped, and what it leaves in the record of its
run depends on what it was told of the response. `Settlement` is one such end.

* `Recorded` says what a record has to show for a list of settlements, in terms of the list, and
  `Recorded.add` is its step: one settlement more.
* `ModelsOf` is the part of it about models, of which a record keeps the first only, each complete.
* `Recorded.totals_eq` says what does not depend on the order of the settlements.
-/

namespace CredentialBroker

/-- Each field of `total` is the sum of the parts', up to the largest value. -/
def Tokens.SumOf (total : Tokens) (parts : List Tokens) : Prop :=
  ∀ field ∈ [Tokens.input, Tokens.cacheRead, Tokens.output, Tokens.reasoning, Tokens.total],
    (field total).toNat = min (parts.map fun part => (field part).toNat).sum UInt64.maxVal

namespace Runs

/-! ## Settlements -/

/-- How an admission ends. -/
inductive Ended where
  | settled (reported : Option Usage)
  | dropped
  deriving DecidableEq

/-- An admission that ended. -/
structure Settlement where
  admission : Admission
  ended : Ended
  deriving DecidableEq

namespace Settlement

/-- The usage it reports, unless the request uses none. -/
def usage (settlement : Settlement) : Option Usage :=
  if settlement.admission.usageFree then none
  else
    match settlement.ended with
    | .settled reported => reported
    | .dropped => none

/-- Upstream answered with success, and no usage was reported of a request that uses some. -/
def isUnmetered (settlement : Settlement) : Bool :=
  settlement.admission.success && !settlement.admission.usageFree &&
    (match settlement.ended with
    | .settled reported => reported.isNone
    | .dropped => true)

/-- The outcome that the registry is given. -/
def outcome (settlement : Settlement) : Outcome :=
  match settlement.ended with
  | .settled reported => settlement.admission.settled reported
  | .dropped => settlement.admission.dropped

/-- What the registry is given says the same. -/
theorem outcome_eq (settlement : Settlement) :
    settlement.outcome =
      match settlement.usage with
      | some usage => .metered usage
      | none => if settlement.isUnmetered then .unmetered else .failed := by
  obtain ⟨⟨key, consumer, success, usageFree⟩, ended⟩ := settlement
  cases usageFree <;> cases success <;> rcases ended with (_ | usage) | _ <;> rfl

/-- A response whose usage is reported is not unmetered. -/
theorem isUnmetered_of_usage {settlement : Settlement} {usage : Usage}
    (h : settlement.usage = some usage) : settlement.isUnmetered = false := by
  obtain ⟨⟨key, consumer, success, usageFree⟩, ended⟩ := settlement
  cases usageFree with
  | true => cases h
  | false =>
      cases ended with
      | dropped => cases h
      | settled reported =>
          cases (show reported = some usage from h)
          exact Bool.and_false _

end Settlement

/-! ## What a record shows -/

/-- The usages that were reported, in order. -/
def usages (settlements : List Settlement) : List Usage := settlements.filterMap Settlement.usage

/-- The first models that were reported, as many as a record keeps. -/
def firstModels (usages : List Usage) : List String :=
  (usages.filterMap Usage.model).eraseDups.take maxModels

/-- The tokens of the usages of one model. -/
def tokensOf (usages : List Usage) (model : String) : List Tokens :=
  (usages.filter fun usage => usage.model = some model).map Usage.tokens

/-- The models shown are the first that were reported, each with all it used. -/
structure ModelsOf (usages : List Usage) (models : Assoc String Tokens) : Prop where
  names : ∀ model, (models.lookup model).isSome = true ↔ model ∈ firstModels usages
  total : ∀ model total, models.lookup model = some total →
    total.SumOf (tokensOf usages model)

/-- A record shows these settlements. -/
structure Recorded (settlements : List Settlement) (record : RunRecord) : Prop where
  requests : record.requests = (usages settlements).length
  unmetered : record.unmetered = settlements.countP Settlement.isUnmetered
  tokens : record.tokens.SumOf ((usages settlements).map Usage.tokens)
  models : ModelsOf (usages settlements) record.models

end Runs

/-! ## Sums -/

theorem Tokens.sumOf_nil : ({} : Tokens).SumOf [] := by
  intro field hfield
  simp only [List.mem_cons, List.not_mem_nil, or_false] at hfield
  rcases hfield with rfl | rfl | rfl | rfl | rfl <;> rfl

theorem Tokens.SumOf.concat {total : Tokens} {parts : List Tokens} (h : total.SumOf parts)
    (part : Tokens) : (total.add part).SumOf (parts ++ [part]) := by
  intro field hfield
  have hparts := h field hfield
  have hadd : field (total.add part) = (field total).satAdd (field part) := by
    simp only [List.mem_cons, List.not_mem_nil, or_false] at hfield
    rcases hfield with rfl | rfl | rfl | rfl | rfl <;> rfl
  rw [hadd, UInt64.toNat_satAdd, hparts, List.map_append, List.sum_append, List.map_singleton,
    List.sum_singleton]
  omega

theorem Tokens.sumOf_singleton (part : Tokens) : part.SumOf [part] := by
  intro field _
  rw [List.map_singleton, List.sum_singleton]
  exact (Nat.min_eq_left (Nat.le_of_lt_succ (field part).toNat_lt)).symm

/-- The order of the parts makes no difference. -/
theorem Tokens.SumOf.unique {total total' : Tokens} {parts parts' : List Tokens}
    (h : total.SumOf parts) (h' : total'.SumOf parts') (hperm : parts.Perm parts') :
    total = total' := by
  have heq : ∀ field ∈ [Tokens.input, Tokens.cacheRead, Tokens.output, Tokens.reasoning,
      Tokens.total], field total = field total' := by
    intro field hfield
    apply UInt64.toNat_inj.mp
    rw [h field hfield, h' field hfield, (hperm.map _).sum_nat]
  obtain ⟨input, cacheRead, output, reasoning, sum⟩ := total
  obtain ⟨input', cacheRead', output', reasoning', sum'⟩ := total'
  simp only [List.forall_mem_cons] at heq
  obtain ⟨rfl, rfl, rfl, rfl, rfl, -⟩ := heq
  rfl

namespace Runs

/-! ## Names that are kept -/

private theorem eraseDups_concat (names : List String) (name : String) :
    (names ++ [name]).eraseDups =
      if name ∈ names then names.eraseDups else names.eraseDups ++ [name] := by
  rw [List.eraseDups_append]
  by_cases hmem : name ∈ names
  · rw [if_pos hmem]
    simp [List.removeAll, hmem]
  · rw [if_neg hmem]
    simp [List.removeAll, hmem, List.eraseDups_cons]

private theorem nodup_eraseDups (names : List String) : names.eraseDups.Nodup := by
  induction names using List.reverseRecOn with
  | nil => exact List.nodup_nil
  | append_singleton names name ih =>
      rw [eraseDups_concat]
      split
      · exact ih
      · next hmem =>
          rw [List.nodup_append]
          refine ⟨ih, List.nodup_singleton _, ?_⟩
          intro a ha b hb heq
          rw [List.mem_singleton.mp hb] at heq
          exact hmem (List.mem_eraseDups.mp (heq ▸ ha))

theorem nodup_firstModels (usages : List Usage) : (firstModels usages).Nodup :=
  (nodup_eraseDups _).sublist (List.take_sublist _ _)

/-- A usage of no model brings none. -/
theorem firstModels_concat_none {usages : List Usage} {usage : Usage} (h : usage.model = none) :
    firstModels (usages ++ [usage]) = firstModels usages := by
  unfold firstModels
  rw [List.filterMap_append]
  simp [h]

/-- A model that is reported comes to those kept if it is new and there is room. -/
theorem firstModels_concat_some (usages : List Usage) {usage : Usage} {model : String}
    (h : usage.model = some model) :
    firstModels (usages ++ [usage]) =
      if model ∉ firstModels usages ∧ (firstModels usages).length < maxModels then
        firstModels usages ++ [model]
      else firstModels usages := by
  unfold firstModels
  rw [List.filterMap_append, show [usage].filterMap Usage.model = [model] by simp [h],
    eraseDups_concat, List.length_take]
  generalize usages.filterMap Usage.model = names
  by_cases hroom : names.eraseDups.length < maxModels
  · rw [List.take_of_length_le hroom.le]
    by_cases hmem : model ∈ names
    · have hkept : model ∈ names.eraseDups := List.mem_eraseDups.mpr hmem
      rw [if_pos hmem, if_neg fun h => h.1 hkept, List.take_of_length_le hroom.le]
    · have hnew : model ∉ names.eraseDups := fun h => hmem (List.mem_eraseDups.mp h)
      rw [if_neg hmem, if_pos ⟨hnew, by omega⟩, List.take_of_length_le]
      rw [List.length_append, List.length_singleton]
      exact hroom
  · -- full: what comes is beyond the first
    rw [if_neg (show ¬ (_ ∧ _) from fun h => by omega)]
    split
    · rfl
    · rw [List.take_append_of_le_length (Nat.not_lt.mp hroom)]

/-! ## The step -/

theorem ModelsOf.nil : ModelsOf [] ∅ := by
  refine ⟨?_, ?_⟩
  · intro model
    simp [firstModels]
  · intro model total h
    simp at h

theorem ModelsOf.size_eq {usages : List Usage} {models : Assoc String Tokens}
    (h : ModelsOf usages models) : models.size = (firstModels usages).length := by
  rw [Assoc.size_eq_countKeys]
  apply Assoc.countKeys_eq_length (nodup_firstModels usages)
  intro model
  rw [h.names model]
  simp

theorem tokensOf_concat_of_eq (usages : List Usage) {usage : Usage} {model : String}
    (h : usage.model = some model) :
    tokensOf (usages ++ [usage]) model = tokensOf usages model ++ [usage.tokens] := by
  unfold tokensOf
  rw [List.filter_append, List.map_append]
  simp [h]

theorem tokensOf_concat_of_ne (usages : List Usage) {usage : Usage} {model : String}
    (h : usage.model ≠ some model) :
    tokensOf (usages ++ [usage]) model = tokensOf usages model := by
  unfold tokensOf
  rw [List.filter_append, List.map_append]
  simp [h]

/-- A model that is not among many was not reported. -/
theorem tokensOf_eq_nil {usages : List Usage} {model : String}
    (h : model ∉ firstModels usages) (hroom : (firstModels usages).length < maxModels) :
    tokensOf usages model = [] := by
  unfold tokensOf
  rw [List.map_eq_nil_iff, List.filter_eq_nil_iff]
  intro usage hmem hmodel
  rw [decide_eq_true_eq] at hmodel
  unfold firstModels at h hroom
  rw [List.length_take] at hroom
  rw [List.take_of_length_le (by omega)] at h
  exact h (List.mem_eraseDups.mpr (List.mem_filterMap.mpr ⟨usage, hmem, hmodel⟩))

/-- What a usage makes of the models shown. -/
theorem models_add (record : RunRecord) (usage : Usage) :
    (record.add usage).models =
      match usage.model with
      | none => record.models
      | some model =>
        match record.models.lookup model with
        | some tokens => record.models.insert model (tokens.add usage.tokens)
        | none =>
          if record.models.size < maxModels then record.models.insert model usage.tokens
          else record.models := by
  unfold RunRecord.add
  dsimp only
  cases usage.model with
  | none => rfl
  | some model =>
      dsimp only
      cases record.models.lookup model with
      | some tokens => rfl
      | none =>
          dsimp only
          split <;> rfl

/-- A usage is shown with its model. -/
private theorem ModelsOf.set {usages : List Usage} {models : Assoc String Tokens}
    (h : ModelsOf usages models) {usage : Usage} {model : String} {total : Tokens}
    (hmodel : usage.model = some model)
    (hnames : ∀ other, other ∈ firstModels (usages ++ [usage]) ↔
      other = model ∨ other ∈ firstModels usages)
    (htotal : total.SumOf (tokensOf usages model ++ [usage.tokens])) :
    ModelsOf (usages ++ [usage]) (models.insert model total) := by
  refine ⟨?_, ?_⟩
  · intro other
    rw [hnames, Assoc.lookup_insert_eq]
    by_cases hother : other = model
    · simp [hother]
    · rw [if_neg hother, h.names other]
      simp [hother]
  · intro other total' hlookup
    rw [Assoc.lookup_insert_eq] at hlookup
    by_cases hother : other = model
    · subst hother
      rw [if_pos rfl] at hlookup
      cases hlookup
      rw [tokensOf_concat_of_eq usages hmodel]
      exact htotal
    · rw [if_neg hother] at hlookup
      rw [tokensOf_concat_of_ne usages (by simpa [hmodel] using Ne.symm hother)]
      exact h.total other total' hlookup

/-- A usage that is not shown leaves the models as they are. -/
private theorem ModelsOf.skip {usages : List Usage} {models : Assoc String Tokens}
    (h : ModelsOf usages models) {usage : Usage}
    (hnames : firstModels (usages ++ [usage]) = firstModels usages)
    (hmodel : ∀ model, usage.model = some model → model ∉ firstModels usages) :
    ModelsOf (usages ++ [usage]) models := by
  refine ⟨?_, ?_⟩
  · rw [hnames]
    exact h.names
  · intro model total hlookup
    have hmem : model ∈ firstModels usages := (h.names model).mp (by rw [hlookup]; rfl)
    rw [tokensOf_concat_of_ne usages fun heq => hmodel model heq hmem]
    exact h.total model total hlookup

/-- **Step.** A usage of a model that is shown is added to it, one of a new model shows it if there
is room, and any other changes nothing. -/
theorem ModelsOf.add {usages : List Usage} {record : RunRecord}
    (h : ModelsOf usages record.models) (usage : Usage) :
    ModelsOf (usages ++ [usage]) (record.add usage).models := by
  rw [models_add]
  cases hmodel : usage.model with
  | none => exact h.skip (firstModels_concat_none hmodel) (by simp [hmodel])
  | some model =>
      have hconcat := firstModels_concat_some usages hmodel
      have hlookup := h.names model
      dsimp only
      cases hshown : record.models.lookup model with
      | some tokens =>
          have hmem : model ∈ firstModels usages := hlookup.mp (by rw [hshown]; rfl)
          rw [if_neg fun hnew => hnew.1 hmem] at hconcat
          apply h.set hmodel
          · intro other
            rw [hconcat]
            constructor
            · exact .inr
            · rintro (rfl | hother)
              · exact hmem
              · exact hother
          · exact (h.total model tokens hshown).concat usage.tokens
      | none =>
          have hnew : model ∉ firstModels usages := by
            intro hmem
            rw [hshown] at hlookup
            cases hlookup.mpr hmem
          rw [h.size_eq]
          dsimp only
          split
          · next hroom =>
              rw [if_pos ⟨hnew, hroom⟩] at hconcat
              apply h.set hmodel
              · intro other
                rw [hconcat, List.mem_append, List.mem_singleton, or_comm]
              · rw [tokensOf_eq_nil hnew hroom]
                exact Tokens.sumOf_singleton usage.tokens
          · next hfull =>
              rw [if_neg fun hroom => hfull hroom.2] at hconcat
              refine h.skip hconcat fun other heq => ?_
              rw [hmodel] at heq
              cases heq
              exact hnew

theorem usages_concat_some {settlements : List Settlement} {settlement : Settlement} {usage : Usage}
    (h : settlement.usage = some usage) :
    usages (settlements ++ [settlement]) = usages settlements ++ [usage] := by
  unfold usages
  rw [List.filterMap_append]
  simp [h]

theorem usages_concat_none (settlements : List Settlement) {settlement : Settlement}
    (h : settlement.usage = none) :
    usages (settlements ++ [settlement]) = usages settlements := by
  unfold usages
  rw [List.filterMap_append]
  simp [h]

/-- **Step.** A record shows one settlement more once its outcome is recorded. -/
theorem Recorded.add {settlements : List Settlement} {record : RunRecord}
    (h : Recorded settlements record) (settlement : Settlement) :
    Recorded (settlements ++ [settlement]) (settlement.outcome.record record) := by
  rw [settlement.outcome_eq]
  cases husage : settlement.usage with
  | some usage =>
      obtain ⟨hrequests, hunmetered, htokens⟩ := Totals.mk.inj (totals_add record usage)
      refine ⟨?_, ?_, ?_, ?_⟩
      · rw [usages_concat_some husage, List.length_append, ← h.requests]
        exact hrequests
      · rw [List.countP_append, ← h.unmetered, List.countP_singleton,
          settlement.isUnmetered_of_usage husage]
        exact hunmetered
      · rw [usages_concat_some husage, List.map_append]
        show (record.add usage).tokens.SumOf _
        rw [htokens]
        exact h.tokens.concat usage.tokens
      · rw [usages_concat_some husage]
        exact h.models.add usage
  | none =>
      have hkept := usages_concat_none settlements husage
      dsimp only
      split
      · next hunmetered =>
          refine ⟨hkept ▸ h.requests, ?_, hkept ▸ h.tokens, hkept ▸ h.models⟩
          rw [List.countP_append, ← h.unmetered, List.countP_singleton, if_pos hunmetered]
          rfl
      · next hfailed =>
          refine ⟨hkept ▸ h.requests, ?_, hkept ▸ h.tokens, hkept ▸ h.models⟩
          rw [List.countP_append, ← h.unmetered, List.countP_singleton, if_neg hfailed]
          rfl

theorem Recorded.fresh {record : RunRecord} (h : record.figures = {}) : Recorded [] record := by
  have hrequests : record.requests = 0 := congrArg (Totals.requests ∘ Figures.totals) h
  have hunmetered : record.unmetered = 0 := congrArg (Totals.unmetered ∘ Figures.totals) h
  have htokens : record.tokens = {} := congrArg (Totals.tokens ∘ Figures.totals) h
  have hmodels : record.models = ∅ := congrArg Figures.models h
  refine ⟨hrequests, hunmetered, ?_, ?_⟩
  · rw [htokens]
    exact Tokens.sumOf_nil
  · rw [hmodels]
    exact ModelsOf.nil

/-- A record with the same figures shows the same. -/
theorem Recorded.congr {settlements : List Settlement} {record record' : RunRecord}
    (h : Recorded settlements record) (heq : record'.figures = record.figures) :
    Recorded settlements record' := by
  have hrequests : record'.requests = record.requests :=
    congrArg (Totals.requests ∘ Figures.totals) heq
  have hunmetered : record'.unmetered = record.unmetered :=
    congrArg (Totals.unmetered ∘ Figures.totals) heq
  have htokens : record'.tokens = record.tokens := congrArg (Totals.tokens ∘ Figures.totals) heq
  have hmodels : record'.models = record.models := congrArg Figures.models heq
  exact ⟨hrequests ▸ h.requests, hunmetered ▸ h.unmetered, htokens ▸ h.tokens, hmodels ▸ h.models⟩

/-- What is added up does not depend on the order of the settlements. -/
theorem Recorded.totals_eq {settlements settlements' : List Settlement}
    {record record' : RunRecord} (h : Recorded settlements record)
    (h' : Recorded settlements' record') (hperm : settlements.Perm settlements') :
    record.totals = record'.totals := by
  have husages := hperm.filterMap Settlement.usage
  have hrequests : record.requests = record'.requests := by
    rw [h.requests, h'.requests]
    exact husages.length_eq
  have hunmetered : record.unmetered = record'.unmetered := by
    rw [h.unmetered, h'.unmetered, hperm.countP_eq]
  have htokens := h.tokens.unique h'.tokens (husages.map Usage.tokens)
  unfold RunRecord.totals
  rw [hrequests, hunmetered, htokens]

end Runs

end CredentialBroker
