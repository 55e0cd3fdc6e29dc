import SemanticCi.Verification.Repair.Outcomes
import SemanticCi.Verification.Repair.Plan
import SemanticCi.Verification.Repair.RoundTrip
import SemanticCi.Verification.SetOperators

/-! The JSON of a repair plan: it is restored and written again as it was, it holds every
instruction with its evidence, and it says which evidence was an object and which an array. -/

namespace SemanticCi.Repair

open SemanticCi.Python SemanticCi.Framework SemanticCi.Compiler SemanticCi.Operators
  SemanticCi.Evaluator SemanticCi.Report ExceptRules

/-! ## The evidence of a result -/

/-- What the plan relies on in the evidence of a result. -/
structure EvidenceShape (ev : Evidence) : Prop where
  nodup : (ev.map Prod.fst).Nodup
  encoded : ∀ item ∈ ev, Encoded item.2
  tuples : ∀ item ∈ ev, item.1 ∈ ["added", "removed", "missing", "extra"] →
    ∃ items, item.2 = .tuple items

theorem evidenceValue_of_mem {ev : Evidence} (hnodup : (ev.map Prod.fst).Nodup)
    {item : String × PyValue} (h : item ∈ ev) : evidenceValue ev item.1 = some item.2 := by
  have hmem : item ∈ (OrderedDict.ofPairs ev).entries := by
    rwa [OrderedDict.entries_ofPairs hnodup]
  exact OrderedDict.get?_eq_some_of_mem hmem

theorem mem_of_evidenceValue {ev : Evidence} {key : String} {w : PyValue}
    (h : evidenceValue ev key = some w) : (key, w) ∈ ev := by
  rw [evidenceValue, OrderedDict.get?_ofPairs] at h
  obtain ⟨pair, hpair, rfl⟩ := Option.map_eq_some_iff.mp h
  have hkey : pair.1 = key := by simpa using List.find?_some hpair
  have hmem := List.mem_reverse.mp (List.mem_of_find?_eq_some hpair)
  rwa [← hkey]

theorem encoded_getD {ev : Evidence} (h : ∀ item ∈ ev, Encoded item.2) (key : String) :
    Encoded ((evidenceValue ev key).getD PyValue.none) := by
  cases hvalue : evidenceValue ev key with
  | none => exact .scalar _
  | some w => exact h _ (mem_of_evidenceValue hvalue)

theorem encoded_asTuple {ev : Evidence} (h : ∀ item ∈ ev, Encoded item.2) (key : String) :
    ∀ x ∈ asTuple (evidenceValue ev key), Encoded x := by
  cases hvalue : evidenceValue ev key with
  | none => simp [asTuple]
  | some w =>
      have hw := h _ (mem_of_evidenceValue hvalue)
      intro x hx
      cases w with
      | scalar s =>
          cases s with
          | none => simp [asTuple] at hx
          | _ =>
              obtain rfl := List.mem_singleton.mp hx
              exact hw
      | seq kind items => exact hw.members rfl x hx
      | dict items => cases hw
      | set items => cases hw

theorem encodedEvidence_extra {ev : Evidence} (h : EvidenceShape ev) :
    EncodedEvidence (extraEvidence ev) := by
  have hperm := List.perm_insertionSort (fun a b : String × PyValue => a.1 ≤ b.1)
    (ev.filter fun item => item.1 ∉ namedEvidenceKeys)
  constructor
  · apply sorted_sortPairs
    exact (List.filter_sublist.map _).nodup h.nodup
  · intro item hitem
    exact h.encoded item (List.mem_of_mem_filter (hperm.mem_iff.mp hitem))

/-! ## Instructions as JSON -/

/-- `payload[key]`. -/
def jsonField (payload : PyValue) (key : String) : Option PyValue :=
  match payload with
  | .dict items => payloadGet? items key
  | _ => none

/-- Where an instruction shows the evidence of a key. -/
def jsonEvidence (payload : PyValue) (key : String) : Option PyValue :=
  if key ∈ namedEvidenceKeys then jsonField payload key
  else (jsonField payload "extra_evidence").bind (jsonField · key)

/-- The fields that an instruction takes over from a result. -/
def resultFields (r : ConstraintResult) : List (String × PyValue) :=
  [("constraint_id", .str r.constraintId), ("source", .str r.source.value),
    ("kind", .str (kindValue r.kind)), ("target", .str r.target.text),
    ("operator", .str r.operator.value), ("severity", .str (severityValue r.severity)),
    ("unknown_policy", .str (unknownPolicyValue r.unknownPolicy)),
    ("status", .str (resultStatusValue r.status)),
    ("error_code", optionalText (r.errorCode.map (·.value))),
    ("unknown_cause", optionalText (r.unknownCause.map causeValue)),
    ("repair_code", .str (resolveRepairCode r).value)]

/-- The instruction of a result, with its fields and all of its evidence. -/
structure InstructionJson (r : ConstraintResult) (payload : PyValue) : Prop where
  fields : ∀ entry ∈ resultFields r, jsonField payload entry.1 = some entry.2
  category : ∃ c, category r = some c ∧ jsonField payload "category" = some (.str c.value)
  message : ∃ text, message r (resolveRepairCode r) = .ok text ∧
    jsonField payload "message" = some (.str text)
  evidence : ∀ item ∈ r.evidence,
    jsonEvidence payload item.1 = some (jsonCanonicalValue item.2)

theorem jsonField_serialize {i : StoredInstruction} {key : String} {value : PyValue}
    (h : (key, value) ∈ instructionEntries i) :
    jsonField (serializeInstruction i) key = some value :=
  payloadGet?_of_mem (nodup_instructionEntries i) h

section Instruction

variable {r : ConstraintResult} {c : RepairCategory} {text : String}

/-- The instruction of a result under a category, with this message. -/
def instructionOf (r : ConstraintResult) (c : RepairCategory) (text : String) :
    RepairInstruction where
  constraintId := r.constraintId
  source := r.source
  kind := r.kind
  target := r.target
  operator := r.operator
  severity := r.severity
  unknownPolicy := r.unknownPolicy
  status := r.status
  errorCode := r.errorCode
  repairCode := resolveRepairCode r
  category := c
  message := text
  observed := (evidenceValue r.evidence "observed").getD PyValue.none
  expected := (evidenceValue r.evidence "expected").getD PyValue.none
  added := asTuple (evidenceValue r.evidence "added")
  removed := asTuple (evidenceValue r.evidence "removed")
  missing := asTuple (evidenceValue r.evidence "missing")
  extra := asTuple (evidenceValue r.evidence "extra")
  extraEvidence := extraEvidence r.evidence
  unknownCause := r.unknownCause

theorem encodedInstruction_of_shape (h : EvidenceShape r.evidence) :
    EncodedInstruction (instructionOf r c text).stored where
  observed := encoded_getD h.encoded _
  expected := encoded_getD h.encoded _
  added := encoded_asTuple h.encoded _
  removed := encoded_asTuple h.encoded _
  missing := encoded_asTuple h.encoded _
  extra := encoded_asTuple h.encoded _
  extraEvidence := encodedEvidence_extra h

/-- A tuple in one of the four slots is written as it is. -/
theorem json_asTuple (h : EvidenceShape r.evidence) {item : String × PyValue}
    (hitem : item ∈ r.evidence) (hkey : item.1 ∈ ["added", "removed", "missing", "extra"]) :
    (.list ((asTuple (evidenceValue r.evidence item.1)).map jsonCanonicalValue) : PyValue) =
      jsonCanonicalValue item.2 := by
  obtain ⟨items, hitems⟩ := h.tuples item hitem hkey
  rw [evidenceValue_of_mem h.nodup hitem, hitems, asTuple, json_tuple]

/-- The evidence is found again. -/
theorem jsonEvidence_of_mem (h : EvidenceShape r.evidence) {item : String × PyValue}
    (hitem : item ∈ r.evidence) :
    jsonEvidence (serializeInstruction (instructionOf r c text).stored) item.1 =
      some (jsonCanonicalValue item.2) := by
  have hvalue := evidenceValue_of_mem h.nodup hitem
  rw [jsonEvidence]
  split
  · next hnamed =>
      have hcases : (item.1 = "observed" ∨ item.1 = "expected") ∨
          item.1 ∈ ["added", "removed", "missing", "extra"] := by
        simpa [namedEvidenceKeys, or_assoc] using hnamed
      rcases hcases with hscalar | htuple
      · apply jsonField_serialize
        rcases hscalar with hkey | hkey
        · rw [hkey] at hvalue ⊢
          simp [instructionEntries, RepairInstruction.stored, instructionOf, hvalue]
        · rw [hkey] at hvalue ⊢
          simp [instructionEntries, RepairInstruction.stored, instructionOf, hvalue]
      · rw [← json_asTuple h hitem htuple]
        apply jsonField_serialize
        simp only [List.mem_cons, List.not_mem_nil, or_false] at htuple
        rcases htuple with hkey | hkey | hkey | hkey <;>
          simp [instructionEntries, RepairInstruction.stored, instructionOf, hkey]
  · next hnamed =>
      have hextra := encodedEvidence_extra h
      have hnodup := nodup_of_sorted hextra.sorted
      have hmem : item ∈ extraEvidence r.evidence := by
        rw [extraEvidence, List.mem_insertionSort]
        exact List.mem_filter.mpr ⟨hitem, by simpa using hnamed⟩
      have hfield : jsonField (serializeInstruction (instructionOf r c text).stored)
          "extra_evidence" = some (pairsToDict (extraEvidence r.evidence)) := by
        apply jsonField_serialize
        simp [instructionEntries, RepairInstruction.stored, instructionOf]
      rw [hfield, Option.bind_some, pairsToDict, dictOf_eq (by simpa [Function.comp_def] using hnodup)]
      refine payloadGet?_of_mem (by simpa [Function.comp_def] using hnodup) ?_
      exact List.mem_map.mpr ⟨item, hmem, rfl⟩

theorem instructionJson_of_shape (h : EvidenceShape r.evidence) (hcategory : category r = some c)
    (htext : message r (resolveRepairCode r) = .ok text) :
    InstructionJson r (serializeInstruction (instructionOf r c text).stored) where
  fields := by
    simp only [resultFields, List.forall_mem_cons]
    refine ⟨?_, ?_, ?_, ?_, ?_, ?_, ?_, ?_, ?_, ?_, ?_, by simp⟩ <;>
      exact jsonField_serialize
        (by simp [instructionEntries, RepairInstruction.stored, instructionOf])
  category := ⟨c, hcategory, jsonField_serialize
    (by simp [instructionEntries, RepairInstruction.stored, instructionOf])⟩
  message := ⟨text, htext, jsonField_serialize
    (by simp [instructionEntries, RepairInstruction.stored, instructionOf])⟩
  evidence _ hitem := jsonEvidence_of_mem h hitem

end Instruction

/-! ## The plan as JSON -/

/-- What the emitter makes of the results. -/
theorem mapM_instructionOrNone (results : List ConstraintResult) :
    ∃ instructions, results.mapM instructionOrNone = .ok instructions ∧
      List.Forall₂ (fun r i => ∃ c text, category r = some c ∧
          message r (resolveRepairCode r) = .ok text ∧ i = instructionOf r c text)
        (results.filter fun r => Actionable r) (instructions.filterMap id) := by
  induction results with
  | nil => exact ⟨[], rfl, .nil⟩
  | cons r rest ih =>
      obtain ⟨instructions, hok, hrest⟩ := ih
      by_cases hactionable : Actionable r
      · obtain ⟨c, hc⟩ := Option.isSome_iff_exists.mp ((category_isSome_iff r).mpr hactionable)
        obtain ⟨text, htext⟩ := message_ok r (resolveRepairCode r)
        have hr : instructionOrNone r = .ok (some (instructionOf r c text)) := by
          rw [instructionOrNone, categoryOrNone_eq, hc, ok_bind]
          simp only [instruction, htext, ok_bind]
          rfl
        refine ⟨some (instructionOf r c text) :: instructions,
          by simp [List.mapM_cons, hr, hok], ?_⟩
        simpa [List.filter_cons, hactionable] using And.intro ⟨c, hc, text, htext, rfl⟩ hrest
      · have hnone : category r = none := by
          rw [← Option.not_isSome_iff_eq_none, category_isSome_iff]
          exact hactionable
        have hr : instructionOrNone r = .ok none := by
          rw [instructionOrNone, categoryOrNone_eq, hnone, ok_bind]
          rfl
        refine ⟨none :: instructions, by simp [List.mapM_cons, hr, hok], ?_⟩
        simpa [List.filter_cons, hactionable] using hrest

/-- The plan of a verdict is written with these JSON instructions, and what is restored from
there is written again as it was. -/
def RoundTrips (verdict : Verdict) (payloads : List PyValue) : Prop :=
  ∃ plan restored, emitRepairPlan verdict = .ok plan ∧
    serializeRepairPlan plan.stored =
      textDict [("result", .str (verdictValue verdict.result)), ("instructions", .list payloads)] ∧
    deserializeRepairPlan (serializeRepairPlan plan.stored) = .ok restored ∧
    serializeRepairPlan restored = serializeRepairPlan plan.stored

/-- One JSON instruction for each result that asks for one. -/
structure WrittenPlan (verdict : Verdict) (payloads : List PyValue) : Prop where
  roundTrips : RoundTrips verdict payloads
  instructions : List.Forall₂ InstructionJson (verdict.results.filter fun r => Actionable r)
    payloads

theorem exists_writtenPlan {verdict : Verdict}
    (hshape : ∀ r ∈ verdict.results, EvidenceShape r.evidence) :
    ∃ payloads, WrittenPlan verdict payloads := by
  obtain ⟨instructions, hok, hfor⟩ := mapM_instructionOrNone verdict.results
  let plan : RepairPlan := ⟨verdict.result, instructions.filterMap id⟩
  have hemit : emitRepairPlan verdict = .ok plan := by
    rw [emitRepairPlan, hok]
    rfl
  have hencoded : ∀ i ∈ plan.stored.instructions, EncodedInstruction i := by
    intro i hi
    obtain ⟨j, hj, rfl⟩ := List.mem_map.mp hi
    obtain ⟨r, hr, c, text, -, -, rfl⟩ := exists_of_mem_forall₂ hfor hj
    exact encodedInstruction_of_shape (hshape r (List.mem_of_mem_filter hr))
  obtain ⟨restored, hrestored, hsame⟩ := deserializeRepairPlan_serialize hencoded
  refine ⟨plan.stored.instructions.map serializeInstruction,
    ⟨⟨plan, restored, hemit, rfl, hrestored, hsame⟩, ?_⟩⟩
  rw [RepairPlan.stored, List.map_map, List.forall₂_map_right_iff]
  have hshape' : ∀ r ∈ verdict.results.filter fun r => Actionable r, EvidenceShape r.evidence :=
    fun r hr => hshape r (List.mem_of_mem_filter hr)
  refine ((List.forall₂_and_left _ _).mpr ⟨hshape', hfor⟩).imp ?_
  rintro r i ⟨hr, c, text, hc, htext, rfl⟩
  exact instructionJson_of_shape hr hc htext

end SemanticCi.Repair
