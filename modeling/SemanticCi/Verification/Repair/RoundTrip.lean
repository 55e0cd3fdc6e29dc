import SemanticCi.Verification.Repair.Encoding

/-! A stored plan with encoded evidence is restored from its JSON, and written again as the
same JSON. -/

namespace SemanticCi.Repair

open SemanticCi.Python SemanticCi.Framework SemanticCi.Compiler SemanticCi.Operators
  SemanticCi.Evaluator SemanticCi.Report ExceptRules

/-! ## Payloads -/

theorem payloadGet?_of_mem {entries : List (String × PyValue)}
    (hnodup : (entries.map Prod.fst).Nodup) {key : String} {value : PyValue}
    (h : (key, value) ∈ entries) :
    payloadGet? (entries.map fun entry => (.str entry.1, entry.2)) key = some value := by
  simp [payloadGet?, List.find?_map, find?_key_of_mem hnodup h]

theorem required_of_get? {payload : List (PyScalar × PyValue)} {key : String} {value : PyValue}
    (h : payloadGet? payload key = some value) : required payload key = .ok value := by
  rw [required, h]

/-- An enumeration reads its own texts. -/
theorem enumOf_text {α : Type} {name : String} {members : List α} {text : α → String}
    (hnodup : (members.map text).Nodup) {a : α} (ha : a ∈ members) :
    enumOf name members text (.str (text a)) = .ok a := by
  have hfind : (members.find? fun member => spells (.str (text a)) (text member)) = some a := by
    induction members with
    | nil => cases ha
    | cons member members ih =>
        obtain ⟨hnotin, hnodup⟩ := List.nodup_cons.mp hnodup
        rcases List.mem_cons.mp ha with rfl | ha
        · simp [spells]
        · have hne : text a ≠ text member := by
            intro heq
            exact hnotin (heq ▸ List.mem_map_of_mem ha)
          rw [List.find?_cons_of_neg (by simpa [spells] using hne)]
          exact ih hnodup ha
  rw [enumOf, hfind]

theorem enumOf_source (source : ConstraintSource) :
    enumOf "ConstraintSource" [.template, .user] ConstraintSource.value (.str source.value) =
      .ok source :=
  enumOf_text (by decide) (by cases source <;> simp)

theorem enumOf_kind (kind : ConstraintKind) :
    enumOf "ConstraintKind" [.state, .delta, .repair] kindValue (.str (kindValue kind)) =
      .ok kind :=
  enumOf_text (by decide) (by cases kind <;> simp)

theorem enumOf_operator (operator : Operator) :
    enumOf "Operator"
      [.equals, .notEquals, .equalsBaseline, .notEqualsBaseline, .includesAll, .includesAny,
        .excludesAll, .subsetOf, .supersetOf, .supersetOfBaseline, .noNewItems,
        .noRemovedItems, .lessThan, .lessThanOrEqual, .greaterThan, .greaterThanOrEqual,
        .withinRange, .unchanged, .changed, .changedOnlyIn] Operator.value
      (.str operator.value) = .ok operator :=
  enumOf_text (by decide +kernel) (by cases operator <;> simp)

theorem enumOf_severity (severity : Severity) :
    enumOf "Severity" [.hard, .soft, .info] severityValue (.str (severityValue severity)) =
      .ok severity :=
  enumOf_text (by decide) (by cases severity <;> simp)

theorem enumOf_unknownPolicy (policy : UnknownPolicy) :
    enumOf "UnknownPolicy" [.fail, .repair, .warn, .ignore] unknownPolicyValue
      (.str (unknownPolicyValue policy)) = .ok policy :=
  enumOf_text (by decide) (by cases policy <;> simp)

theorem enumOf_status (status : ResultStatus) :
    enumOf "ResultStatus" [.satisfied, .violated, .unknown, .skipped] resultStatusValue
      (.str (resultStatusValue status)) = .ok status :=
  enumOf_text (by decide) (by cases status <;> simp)

theorem enumOf_category (category : RepairCategory) :
    enumOf "RepairCategory" [.fixRequired, .suggested, .info, .unresolved] RepairCategory.value
      (.str category.value) = .ok category :=
  enumOf_text (by decide) (by cases category <;> simp)

theorem enumOf_result (result : VerdictResult) :
    enumOf "VerdictResult" [VerdictResult.pass, .repair, .fail] verdictValue
      (.str (verdictValue result)) = .ok result :=
  enumOf_text (by decide) (by cases result <;> simp)

/-! ## Instructions -/

/-- Evidence with sorted keys and encoded values. -/
structure EncodedEvidence (evidence : Evidence) : Prop where
  sorted : (evidence.map Prod.fst).Pairwise (· < ·)
  encoded : ∀ item ∈ evidence, Encoded item.2

structure EncodedInstruction (i : StoredInstruction) : Prop where
  observed : Encoded i.observed
  expected : Encoded i.expected
  added : ∀ x ∈ i.added, Encoded x
  removed : ∀ x ∈ i.removed, Encoded x
  missing : ∀ x ∈ i.missing, Encoded x
  extra : ∀ x ∈ i.extra, Encoded x
  extraEvidence : EncodedEvidence i.extraEvidence

theorem nodup_instructionEntries (i : StoredInstruction) :
    ((instructionEntries i).map Prod.fst).Nodup := by
  have hkeys : (instructionEntries i).map Prod.fst =
      ["constraint_id", "source", "kind", "target", "operator", "severity", "unknown_policy",
        "status", "error_code", "unknown_cause", "repair_code", "category", "message",
        "observed", "expected", "added", "removed", "missing", "extra", "extra_evidence"] := rfl
  rw [hkeys]
  decide

theorem restoreExtraEvidence_of_encoded {payload : List (PyScalar × PyValue)} {ev : Evidence}
    (hev : EncodedEvidence ev)
    (hget : payloadGet? payload "extra_evidence" = some (pairsToDict ev)) :
    ∃ rs : Evidence, restoreExtraEvidence payload = .ok rs ∧ pairsToDict rs = pairsToDict ev := by
  have hnodup := nodup_of_sorted hev.sorted
  have hdict : pairsToDict ev = textDict (ev.map fun e => (e.1, jsonCanonicalValue e.2)) := by
    rw [pairsToDict, dictOf_eq]
    simpa [Function.comp_def] using hnodup
  have hmapM : ∃ rs : Evidence,
      ((ev.map fun e => (e.1, jsonCanonicalValue e.2)).map strKey).mapM
          (fun item => do return (keyText item.1, ← restoreJson item.2)) =
        (.ok rs : Except RestoreError Evidence) ∧
      rs.map (fun r => (r.1, jsonCanonicalValue r.2)) =
        ev.map fun e => (e.1, jsonCanonicalValue e.2) := by
    have hencoded := hev.encoded
    clear hev hget hnodup hdict
    induction ev with
    | nil => exact ⟨[], rfl, rfl⟩
    | cons e ev ih =>
        obtain ⟨he, hev⟩ := List.forall_mem_cons.mp hencoded
        obtain ⟨r, hr, hrj⟩ := he.restores
        obtain ⟨rs, hrs, hrsj⟩ := ih hev
        refine ⟨(e.1, r) :: rs, ?_, by simp [hrj, hrsj]⟩
        rw [List.map_cons, List.map_cons, List.mapM_cons, hrs]
        simp only [ok_bind, strKey, hr, keyText, pure_eq_ok]
  obtain ⟨rs, hrs, hrsj⟩ := hmapM
  have hsorted := sortedItems_of_sorted (ev.map fun e => (e.1, jsonCanonicalValue e.2))
    (by simpa [Function.comp_def] using hev.sorted)
  refine ⟨rs, ?_, by rw [pairsToDict, pairsToDict, hrsj]⟩
  rw [restoreExtraEvidence, required_of_get? hget, hdict, ok_bind, textDict]
  have hitems : (ev.map fun e => (e.1, jsonCanonicalValue e.2)).map
      (fun entry => (PyScalar.str entry.1, entry.2)) =
      (ev.map fun e => (e.1, jsonCanonicalValue e.2)).map strKey := rfl
  simp only [hitems, hsorted, ok_bind]
  exact hrs

theorem tupleField_of_encoded {payload : List (PyScalar × PyValue)} {key : String}
    {items : List PyValue} (h : ∀ x ∈ items, Encoded x)
    (hget : payloadGet? payload key = some (.list (items.map jsonCanonicalValue))) :
    ∃ rs, tupleField payload key = .ok rs ∧
      rs.map jsonCanonicalValue = items.map jsonCanonicalValue := by
  obtain ⟨rs, hrs, hrsj⟩ := restoreList_of_restores (items.map jsonCanonicalValue)
    (List.forall_mem_map.mpr fun x hx => (h x hx).restores)
  exact ⟨rs, by rw [tupleField, required_of_get? hget]; exact hrs, hrsj⟩

theorem restoreField_of_encoded {payload : List (PyScalar × PyValue)} {key : String}
    {w : PyValue} (h : Encoded w)
    (hget : payloadGet? payload key = some (jsonCanonicalValue w)) :
    ∃ r, restoreField payload key = .ok r ∧ jsonCanonicalValue r = jsonCanonicalValue w := by
  obtain ⟨r, hr, hrj⟩ := h.restores
  exact ⟨r, by rw [restoreField, hget]; exact hr, hrj⟩

theorem optionalStr_text (text : Option String) :
    optionalStr (some (optionalText text)) = text := by
  cases text <;> rfl

theorem optionalUnknownCause_text (cause : Option UnknownCause) :
    optionalUnknownCause (some (optionalText (cause.map causeValue))) = .ok cause := by
  rcases cause with _ | (_ | _ | _ | _) <;> rfl

/-- An instruction is restored, and written again in the same way. -/
theorem deserializeInstruction_serialize {i : StoredInstruction} (h : EncodedInstruction i) :
    ∃ i', deserializeInstruction (serializeInstruction i) = .ok i' ∧
      serializeInstruction i' = serializeInstruction i := by
  have hget {key : String} {value : PyValue} (hmem : (key, value) ∈ instructionEntries i) :=
    payloadGet?_of_mem (nodup_instructionEntries i) hmem
  have hreq {key : String} {value : PyValue} (hmem : (key, value) ∈ instructionEntries i) :=
    required_of_get? (hget hmem)
  obtain ⟨observed, hobserved, hobservedj⟩ := restoreField_of_encoded h.observed
    (@hget "observed" _ (by simp [instructionEntries]))
  obtain ⟨expected, hexpected, hexpectedj⟩ := restoreField_of_encoded h.expected
    (@hget "expected" _ (by simp [instructionEntries]))
  obtain ⟨added, hadded, haddedj⟩ := tupleField_of_encoded h.added
    (@hget "added" _ (by simp [instructionEntries]))
  obtain ⟨removed, hremoved, hremovedj⟩ := tupleField_of_encoded h.removed
    (@hget "removed" _ (by simp [instructionEntries]))
  obtain ⟨missing, hmissing, hmissingj⟩ := tupleField_of_encoded h.missing
    (@hget "missing" _ (by simp [instructionEntries]))
  obtain ⟨extra, hextra, hextraj⟩ := tupleField_of_encoded h.extra
    (@hget "extra" _ (by simp [instructionEntries]))
  obtain ⟨evidence, hevidence, hevidencej⟩ := restoreExtraEvidence_of_encoded h.extraEvidence
    (hget (by simp [instructionEntries]))
  let i' : StoredInstruction :=
    { i with observed, expected, added, removed, missing, extra, extraEvidence := evidence }
  refine ⟨i', ?_, ?_⟩
  · have hid := @hreq "constraint_id" (.str i.constraintId) (by simp [instructionEntries])
    have hsource := @hreq "source" (.str i.source.value) (by simp [instructionEntries])
    have hkind := @hreq "kind" (.str (kindValue i.kind)) (by simp [instructionEntries])
    have htarget := @hreq "target" (.str i.target) (by simp [instructionEntries])
    have hoperator := @hreq "operator" (.str i.operator.value) (by simp [instructionEntries])
    have hseverity := @hreq "severity" (.str (severityValue i.severity))
      (by simp [instructionEntries])
    have hpolicy := @hreq "unknown_policy" (.str (unknownPolicyValue i.unknownPolicy))
      (by simp [instructionEntries])
    have hstatus := @hreq "status" (.str (resultStatusValue i.status))
      (by simp [instructionEntries])
    have herror := @hget "error_code" (optionalText i.errorCode) (by simp [instructionEntries])
    have hcause := @hget "unknown_cause" (optionalText (i.unknownCause.map causeValue))
      (by simp [instructionEntries])
    have hcode := @hreq "repair_code" (.str i.repairCode) (by simp [instructionEntries])
    have hcategory := @hreq "category" (.str i.category.value) (by simp [instructionEntries])
    have hmessage := @hreq "message" (.str i.message) (by simp [instructionEntries])
    rw [serializeInstruction, textDict, deserializeInstruction]
    simp only [hid, hsource, hkind, htarget, hoperator, hseverity, hpolicy, hstatus, herror,
      hcause, hcode, hcategory, hmessage, hobserved, hexpected, hadded, hremoved, hmissing,
      hextra, hevidence, enumOf_source, enumOf_kind, enumOf_operator, enumOf_severity,
      enumOf_unknownPolicy, enumOf_status, enumOf_category, optionalStr_text,
      optionalUnknownCause_text, ok_bind, pyText, pure_eq_ok]
    rfl
  · rw [serializeInstruction, serializeInstruction]
    simp only [instructionEntries, i', hobservedj, hexpectedj, haddedj, hremovedj, hmissingj,
      hextraj, hevidencej]

/-! ## Plans -/

theorem mapM_deserialize {instructions : List StoredInstruction}
    (h : ∀ i ∈ instructions, EncodedInstruction i) :
    ∃ restored, (instructions.map serializeInstruction).mapM deserializeInstruction =
        .ok restored ∧
      restored.map serializeInstruction = instructions.map serializeInstruction := by
  induction instructions with
  | nil => exact ⟨[], rfl, rfl⟩
  | cons i instructions ih =>
      obtain ⟨hi, hrest⟩ := List.forall_mem_cons.mp h
      obtain ⟨i', hi', hsame⟩ := deserializeInstruction_serialize hi
      obtain ⟨restored, hrestored, hsames⟩ := ih hrest
      exact ⟨i' :: restored, by simp [List.mapM_cons, hi', hrestored], by simp [hsame, hsames]⟩

theorem deserializeRepairPlan_serialize {plan : StoredPlan}
    (h : ∀ i ∈ plan.instructions, EncodedInstruction i) :
    ∃ plan', deserializeRepairPlan (serializeRepairPlan plan) = .ok plan' ∧
      serializeRepairPlan plan' = serializeRepairPlan plan := by
  obtain ⟨restored, hrestored, hsame⟩ := mapM_deserialize h
  have hnodup : (([("result", .str (verdictValue plan.result)),
      ("instructions", .list (plan.instructions.map serializeInstruction))] :
      List (String × PyValue)).map Prod.fst).Nodup := by
    simp
  have hresult := required_of_get? (payloadGet?_of_mem hnodup (List.mem_cons_self ..))
  have hinstructions := required_of_get?
    (payloadGet?_of_mem hnodup (List.mem_cons_of_mem _ (List.mem_singleton.mpr rfl)))
  refine ⟨{ result := plan.result, instructions := restored }, ?_, ?_⟩
  · rw [serializeRepairPlan, textDict, deserializeRepairPlan]
    simp only [hresult, hinstructions, ok_bind, enumOf_result, hrestored, pure_eq_ok]
  · rw [serializeRepairPlan, serializeRepairPlan, hsame]

end SemanticCi.Repair
