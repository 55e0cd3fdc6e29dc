import SemanticCi.Library.ExceptRules
import SemanticCi.Model.CodexSecurity

/-! What validates as a raw finding, and that the group of a finding without an ordinal is the
group of what it validates to. -/

namespace SemanticCi.Sensor

open ExceptRules Python Ssp Report

variable {laxInt : LaxInt} {fields : LoadedObject}

/-! ### Fields -/

theorem forbidExtra_eq_ok_iff {known : List String} {done : Unit} :
    forbidExtra known fields = .ok done ↔ ∀ field ∈ fields, field.1 ∈ known := by
  unfold forbidExtra
  split
  next field hfind =>
    have hmem := List.mem_of_find?_eq_some hfind
    have hextra := List.find?_some hfind
    refine ⟨fun h => (by cases h), fun h => ?_⟩
    simp [h field hmem] at hextra
  next hfind => simpa using hfind

theorem nonEmptyText_eq_ok_iff {key : String} {text : { text : String // text ≠ "" }} :
    nonEmptyText fields key = .ok text ↔ fields.get? key = some (.str text) := by
  obtain ⟨text, htext⟩ := text
  unfold nonEmptyText
  split
  next value hget =>
    by_cases hvalue : value = "" <;> simp [hget, hvalue, Ne.symm htext]
  next hget => exact ⟨fun h => (by cases h), fun h => absurd h (hget text)⟩

theorem modulePathField_eq_ok_iff {path : { text : String // text ≠ "" ∧ posixPath text = text }} :
    modulePathField fields = .ok path ↔ ∃ text, text ≠ "" ∧
      fields.get? "module_path" = some (.str text) ∧ posixPath text = path := by
  simp only [modulePathField, bind_eq_ok_iff, nonEmptyText_eq_ok_iff, pure_eq_ok,
    Except.ok.injEq, Subtype.exists, Subtype.ext_iff, exists_prop, ne_eq]

theorem defaultText_eq_ok_iff {key text : String} :
    defaultText fields key = .ok text ↔ (fields.get? key).getD (.str "") = .str text := by
  unfold defaultText
  split
  next hget => simp [hget]
  next value hget => simp [hget]
  next hnone hget =>
    cases hvalue : fields.get? key with
    | none => exact absurd hvalue hnone
    | some value =>
      refine ⟨fun h => (by cases h), fun h => ?_⟩
      exact absurd (hvalue.trans (congrArg some h)) (hget text)

theorem literalField_eq_ok_iff {α : Type} {text : α → String} {members : List α}
    (htext : Function.Injective text) (hall : ∀ member, member ∈ members) {key : String}
    {member : α} : literalField text members fields key = .ok member ↔
      fields.get? key = some (.str (text member)) := by
  unfold literalField
  split
  next value hget =>
    rw [hget]
    split
    next found hfound =>
      have hvalue : text found = value := by simpa using List.find?_some hfound
      rw [← hvalue, Except.ok.injEq, Option.some.injEq, LoadedValue.str.injEq]
      exact htext.eq_iff.symm
    next hnone =>
      rw [List.find?_eq_none] at hnone
      have hne := hnone member (hall member)
      simp only [decide_eq_true_eq] at hne
      refine ⟨fun h => (by cases h), fun h => ?_⟩
      exact absurd (LoadedValue.str.inj (Option.some.inj h)).symm hne
  next hget => exact ⟨fun h => (by cases h), fun h => absurd h (hget _)⟩

theorem intField_eq_ok_iff {least : ℤ} {key : String} {i : { i : ℤ // least ≤ i }} :
    intField laxInt least fields key = .ok i ↔ (fields.get? key).bind laxInt = some i.1 := by
  obtain ⟨i, hi⟩ := i
  unfold intField
  split
  next j hj =>
    rw [hj]
    by_cases hle : least ≤ j
    · simp [hle]
    · have hne : j ≠ i := fun heq => hle (heq ▸ hi)
      simp [hle, hne]
  next hnone => simp [hnone]

theorem anchorKindText_injective : Function.Injective LLMAnchorKind.text := by
  intro a b h
  cases a <;> cases b <;> first | rfl | exact absurd h (by decide)

theorem securitySeverityText_injective : Function.Injective securitySeverityText := by
  intro a b h
  cases a <;> cases b <;> first | rfl | exact absurd h (by decide)

theorem mem_anchorKinds (kind : LLMAnchorKind) : kind ∈ anchorKinds := by
  cases kind <;> decide

theorem mem_severities (severity : SecuritySeverity) : severity ∈ severities := by
  cases severity <;> decide

/-! ### Findings -/

/-- The fields of a mapping give a raw finding. -/
structure Validated (laxInt : LaxInt) (fields : LoadedObject) (raw : RawLLMFinding) : Prop where
  keys : ∀ field ∈ fields, field.1 ∈ rawFindingKeys
  findingClass : fields.get? "finding_class" = some (.str raw.findingClass)
  modulePath : ∃ text, text ≠ "" ∧ fields.get? "module_path" = some (.str text) ∧
    posixPath text = raw.modulePath
  qualifiedName : fields.get? "qualified_name" = some (.str raw.qualifiedName)
  anchorKind : fields.get? "anchor_kind" = some (.str raw.anchorKind.text)
  expectedProperty :
    (fields.get? "expected_property").getD (.str "") = .str raw.expectedProperty
  ordinal : (fields.get? "ordinal").bind laxInt = some (raw.ordinal : ℤ)
  severity : fields.get? "severity" = some (.str (securitySeverityText raw.severity))
  message : (fields.get? "message").getD (.str "") = .str raw.message
  sourceSpan : sourceSpanField laxInt fields = .ok raw.sourceSpan

theorem modelValidate_eq_ok_iff {raw : RawLLMFinding} :
    RawLLMFinding.modelValidate laxInt fields = .ok raw ↔ Validated laxInt fields raw := by
  simp only [RawLLMFinding.modelValidate, bind_eq_ok_iff, forbidExtra_eq_ok_iff,
    nonEmptyText_eq_ok_iff, modulePathField_eq_ok_iff, defaultText_eq_ok_iff,
    literalField_eq_ok_iff anchorKindText_injective mem_anchorKinds,
    literalField_eq_ok_iff securitySeverityText_injective mem_severities, intField_eq_ok_iff]
  constructor
  · rintro ⟨_, hkeys, findingClass, hclass, modulePath, hpath, name, hname, kind, hkind,
      property, hproperty, ordinal, hordinal, severity, hseverity, message, hmessage, span, hspan,
      hbuilt⟩
    split at hbuilt
    next =>
      cases hbuilt
      have hnat : ((ordinal.1.toNat : ℕ) : ℤ) = ordinal.1 := Int.toNat_of_nonneg ordinal.2
      rw [← hnat] at hordinal
      exact ⟨hkeys, hclass, hpath, hname, hkind, hproperty, hordinal, hseverity, hmessage, hspan⟩
    next => cases hbuilt
  · intro h
    refine ⟨(), h.keys, ⟨_, raw.findingClass_ne⟩, h.findingClass,
      ⟨_, raw.modulePath_ne, raw.modulePath_posix⟩, h.modulePath, ⟨_, raw.qualifiedName_ne⟩,
      h.qualifiedName, _, h.anchorKind, _, h.expectedProperty,
      ⟨raw.ordinal, Int.natCast_nonneg _⟩, h.ordinal, _, h.severity, _, h.message, _,
      h.sourceSpan, ?_⟩
    rw [dif_pos raw.absence_iff]
    rfl

/-! ### Ordinals -/

/-- A finding with an ordinal filled in. -/
def filledIn (fields : LoadedObject) (ordinal : ℕ) : LoadedObject :=
  fields ++ [("ordinal", .int ordinal)]

theorem get?_filledIn {ordinal : ℕ} {key : String} (h : key ≠ "ordinal") :
    (filledIn fields ordinal).get? key = fields.get? key := by
  have hnone : [(("ordinal", .int ordinal) : String × LoadedValue)].find?
      (fun item => item.1 = key) = none := by simp [h.symm]
  rw [LoadedObject.get?, filledIn, List.find?_append, hnone, Option.or_none, LoadedObject.get?]

theorem get?_filledIn_ordinal {ordinal : ℕ} (h : hasOrdinal fields = false) :
    (filledIn fields ordinal).get? "ordinal" = some (.int ordinal) := by
  have hnone : fields.find? (fun item => item.1 = "ordinal") = none := by
    simpa [hasOrdinal, LoadedObject.get?] using h
  rw [LoadedObject.get?, filledIn, List.find?_append, hnone, Option.none_or]
  rfl

def RawLLMFinding.withOrdinal (raw : RawLLMFinding) (ordinal : ℕ) : RawLLMFinding :=
  { raw with ordinal }

@[simp] theorem groupFromRaw_withOrdinal (raw : RawLLMFinding) (ordinal : ℕ) :
    groupFromRaw (raw.withOrdinal ordinal) = groupFromRaw raw := rfl

section Filled

variable {raw : RawLLMFinding} {n : ℕ}

/-- Where one ordinal can be filled in, every other can. -/
theorem Validated.refill (hlax : ∀ i, laxInt (.int i) = some i)
    (hnone : hasOrdinal fields = false) (h : Validated laxInt (filledIn fields n) raw) (m : ℕ) :
    Validated laxInt (filledIn fields m) (raw.withOrdinal m) := by
  have hget {key : String} (hkey : key ≠ "ordinal") :
      (filledIn fields m).get? key = (filledIn fields n).get? key := by
    rw [get?_filledIn hkey, get?_filledIn hkey]
  constructor
  · intro field hfield
    rcases List.mem_append.mp hfield with hmem | hmem
    · exact h.keys field (List.mem_append_left _ hmem)
    · obtain rfl := List.mem_singleton.mp hmem
      exact (by decide : "ordinal" ∈ rawFindingKeys)
  · exact (hget (by decide)).trans h.findingClass
  · rw [hget (by decide)]
    exact h.modulePath
  · exact (hget (by decide)).trans h.qualifiedName
  · exact (hget (by decide)).trans h.anchorKind
  · rw [hget (by decide)]
    exact h.expectedProperty
  · rw [get?_filledIn_ordinal hnone, Option.bind_some, hlax]
    rfl
  · exact (hget (by decide)).trans h.severity
  · rw [hget (by decide)]
    exact h.message
  · rw [sourceSpanField, hget (by decide)]
    exact h.sourceSpan

/-! ### Groups -/

theorem groupText_eq_ok (index : ℕ) {key text : String} (h : fields.get? key = some (.str text)) :
    groupText fields index key = .ok (if key = "module_path" then posixPath text else text) := by
  simp only [groupText, h]

/-- The group read from the mapping is the group of the model, where the mapping validates. -/
theorem Validated.groupFromMapping_eq (index : ℕ) (h : Validated laxInt (filledIn fields n) raw) :
    groupFromMapping fields index = .ok (groupFromRaw raw) := by
  have hget {key : String} {value : Option LoadedValue} (hkey : key ≠ "ordinal")
      (hvalue : (filledIn fields n).get? key = value) : fields.get? key = value :=
    (get?_filledIn hkey).symm.trans hvalue
  obtain ⟨path, -, hpath, hposix⟩ := h.modulePath
  have hclass := groupText_eq_ok index (hget (by decide) h.findingClass)
  have hmodule := groupText_eq_ok index (hget (by decide) hpath)
  have hname := groupText_eq_ok index (hget (by decide) h.qualifiedName)
  have hkind := groupText_eq_ok index (hget (by decide) h.anchorKind)
  have hproperty : groupText fields index "expected_property" = .ok raw.expectedProperty := by
    have hvalue := h.expectedProperty
    rw [get?_filledIn (by decide)] at hvalue
    cases hfield : fields.get? "expected_property" with
    | none =>
      rw [hfield, Option.getD_none, LoadedValue.str.injEq] at hvalue
      simp [groupText, hfield, ← hvalue]
    | some value =>
      rw [hfield, Option.getD_some] at hvalue
      exact groupText_eq_ok index (hfield.trans (congrArg some hvalue))
  rw [if_neg (by decide)] at hclass hname hkind
  rw [if_pos rfl, hposix] at hmodule
  simp only [groupFromMapping, hclass, hmodule, hname, hkind, hproperty, ok_bind]
  rfl

end Filled

end SemanticCi.Sensor
