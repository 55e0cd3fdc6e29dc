import SemanticCi.Model.DeltaOverlay
import SemanticCi.Verification.Delta.Computed
import SemanticCi.Verification.SetOperators

/-! What the records of a state or a delta hold under the keys that the Match Schema allows: texts
and `None`, so a normalized record matches when the observed one has its very values. -/

namespace SemanticCi.Operators

open SemanticCi.Python SemanticCi.StateSchema SemanticCi.Framework SemanticCi.Matching
  SemanticCi.PathResolver SemanticCi.Delta SemanticCi.DeltaOverlay

/-! ## Plain values -/

inductive TextOrNull : JsonValue → Prop where
  | null : TextOrNull .null
  | str (s) : TextOrNull (.str s)

theorem TextOrNull.ofOption (text : Option String) : TextOrNull (.ofOption .str text) := by
  cases text with
  | none => exact .null
  | some s => exact .str s

/-- Against a text or `None`, equality is identity. -/
theorem TextOrNull.equalValues_iff {x y : JsonValue} (hy : TextOrNull y) :
    EqualValues x y ↔ x = y := by
  rw [Operators.equalValues_iff]
  cases hy <;> cases x <;> simp [jsonNorm]

/-- The record holds texts and `None` under the keys. -/
def PlainAt (keys : List String) (record : JsonMapping) : Prop :=
  ∀ key ∈ keys, ∀ value, fieldValue record key = some value → TextOrNull value

/-- A collection of records that are plain at the keys. -/
def PlainRecords (keys : List String) (value : JsonValue) : Prop :=
  ∃ items, value = .array items ∧
    ∀ item ∈ items, ∃ record, item = .object record ∧ PlainAt keys record

theorem recordMatches_iff_of_plainAt {keys : List String} {expected observed : JsonMapping}
    (hkeys : ∀ p ∈ expected, p.1 ∈ keys) (h : PlainAt keys observed) :
    RecordMatches expected observed ↔ ∀ p ∈ expected, fieldValue observed p.1 = some p.2 := by
  refine forall_congr' fun p => imp_congr_right fun hp => ?_
  constructor
  · rintro ⟨value, hvalue, hequal⟩
    rw [(h p.1 (hkeys p hp) value hvalue).equalValues_iff] at hequal
    rw [hvalue, hequal]
  · intro hvalue
    exact ⟨p.2, hvalue, (h p.1 (hkeys p hp) p.2 hvalue).equalValues_iff.mpr rfl⟩

/-- A record of a normalized list matches an observed record that is plain at the allowed keys
when each of its values stands there. -/
theorem ExpectedList.itemMatches_iff {target : TargetPath} {operator : Operator}
    (hop : operator ∈ collectionOperators) (expected : ExpectedList target operator)
    {schema : MatchSchema} (hschema : schemaForTarget target = some schema)
    {es os : JsonMapping} (he : .object es ∈ expected.items)
    (hplain : PlainAt schema.allowedKeys os) :
    ItemMatches (.object es) (.object os) ↔ ∀ p ∈ es, fieldValue os p.1 = some p.2 := by
  obtain ⟨-, schema', hschema', hallowed⟩ := expected.record_allowed hop he
  obtain rfl := Option.some.inj (hschema.symm.trans hschema')
  exact recordMatches_iff_of_plainAt hallowed hplain

/-! ## The records -/

theorem plainAt_of_fields {keys : List String} {record : JsonMapping}
    (h : ∀ f ∈ record, f.1 ∈ keys ∨ f.1 = "from_" → TextOrNull f.2) : PlainAt keys record := by
  have hget {key : String} {value : JsonValue} (hkey : key ∈ keys ∨ key = "from_")
      (hvalue : JsonValue.get? record key = some value) : TextOrNull value := by
    obtain ⟨f, hf, rfl⟩ := Option.map_eq_some_iff.mp hvalue
    have hname : f.1 = key := by simpa using List.find?_some hf
    exact h f (List.mem_of_find?_eq_some hf) (hname ▸ hkey)
  intro key hkey value hvalue
  rw [fieldValue, Option.or_eq_some_iff] at hvalue
  rcases hvalue with hvalue | ⟨-, hvalue⟩
  · exact hget (.inl hkey) hvalue
  · split at hvalue
    · exact hget (.inr rfl) hvalue
    · cases hvalue

theorem plainRecords_array {keys : List String} {items : List JsonValue}
    (h : ∀ item ∈ items, ∃ record, item = .object record ∧ PlainAt keys record) :
    PlainRecords keys (.array items) := ⟨items, rfl, h⟩

theorem plainRecords_map {α : Type} {keys : List String} {dump : α → JsonMapping}
    (h : ∀ x, PlainAt keys (dump x)) (xs : List α) :
    PlainRecords keys (.array (xs.map fun x => .object (dump x))) := by
  apply plainRecords_array
  intro item hitem
  obtain ⟨x, -, rfl⟩ := List.mem_map.mp hitem
  exact ⟨dump x, rfl, h x⟩

theorem PlainRecords.publicApiEntries {keys : List String} {items : List JsonValue}
    (h : PlainRecords keys (.array items)) : PlainRecords keys (publicApiEntries (.array items)) := by
  obtain ⟨items', heq, hitems⟩ := h
  cases heq
  exact plainRecords_array fun item hitem => hitems item (List.mem_filter.mp hitem).1

theorem plainAt_api (e : APISurfaceEntry) : PlainAt apiSchema.allowedKeys e.dump := by
  apply plainAt_of_fields
  simp [APISurfaceEntry.dump, MatchSchema.allowedKeys, apiSchema, TextOrNull.str,
    TextOrNull.ofOption]

theorem plainAt_effect (e : EffectEntry) : PlainAt effectSchema.allowedKeys e.dump := by
  apply plainAt_of_fields
  simp [EffectEntry.dump, MatchSchema.allowedKeys, effectSchema, TextOrNull.str]

theorem plainAt_import (e : ImportEntry) : PlainAt importSchema.allowedKeys e.dump := by
  apply plainAt_of_fields
  simp [ImportEntry.dump, MatchSchema.allowedKeys, importSchema, TextOrNull.str,
    TextOrNull.ofOption]

theorem plainAt_importByAlias (e : ImportEntry) :
    PlainAt importSchema.allowedKeys e.dumpByAlias := by
  apply plainAt_of_fields
  simp [ImportEntry.dumpByAlias, MatchSchema.allowedKeys, importSchema, TextOrNull.str,
    TextOrNull.ofOption]

theorem plainAt_apiVariant (e : APISurfaceEntry) :
    PlainAt apiSchema.allowedKeys (e.dump.filter fun item => item.1 ≠ "decorators") := by
  apply plainAt_of_fields
  simp [APISurfaceEntry.dump, MatchSchema.allowedKeys, apiSchema, TextOrNull.str,
    TextOrNull.ofOption]

theorem plainRecords_apiAdded (b c : List APISurfaceEntry) :
    PlainRecords apiSchema.allowedKeys (.array (apiSurfaceDelta b c).added) := by
  apply plainRecords_array
  intro item hitem
  obtain ⟨e, -, -, rfl⟩ := (mem_apiAdded b c item).mp hitem
  exact ⟨_, rfl, plainAt_apiVariant e⟩

theorem plainRecords_apiRemoved (b c : List APISurfaceEntry) :
    PlainRecords apiSchema.allowedKeys (.array (apiSurfaceDelta b c).removed) := by
  apply plainRecords_array
  intro item hitem
  obtain ⟨e, -, -, rfl⟩ := (mem_apiRemoved b c item).mp hitem
  exact ⟨_, rfl, plainAt_apiVariant e⟩

theorem plainRecords_apiChanged (b c : List APISurfaceEntry) :
    PlainRecords apiChangedSchema.allowedKeys (.array (apiSurfaceDelta b c).changed) := by
  apply plainRecords_array
  intro item hitem
  obtain ⟨key, -, -, -, rfl⟩ := (mem_apiChanged b c item).mp hitem
  refine ⟨_, rfl, plainAt_of_fields ?_⟩
  simp [MatchSchema.allowedKeys, apiChangedSchema, TextOrNull.str]

theorem plainRecords_decorators (pairs : List (String ×ₗ String)) :
    PlainRecords decoratorSchema.allowedKeys (.array (pairs.map decoratorRecord)) := by
  apply plainRecords_map
  intro pair
  apply plainAt_of_fields
  simp [TextOrNull.str]

theorem plainAt_rename (e : RenameEntry) : PlainAt renameSchema.allowedKeys e.dump := by
  apply plainAt_of_fields
  simp [RenameEntry.dump, TextOrNull.str]

/-! ## What a target with a Match Schema resolves to -/

theorem mem_schemas {target : TargetPath} {schema : MatchSchema}
    (h : schemaForTarget target = some schema) : (target, schema) ∈ schemas := by
  obtain ⟨front, back, hschemas, -⟩ := List.lookup_eq_some_iff.mp h
  simp [hschemas]

/-- The four targets of a state that have a Match Schema, and those of a delta. -/
theorem schema_cases {target : TargetPath} {schema : MatchSchema}
    (h : schemaForTarget target = some schema) :
    (target, schema) ∈ [(["api_surface"], apiSchema), (["api_surface_public"], apiSchema),
        (["effects"], effectSchema), (["imports"], importSchema)] ∨
      (target, schema) ∈ [(["api_surface_delta", "added"], apiSchema),
        (["api_surface_delta", "removed"], apiSchema),
        (["api_surface_delta", "removed_public"], apiSchema),
        (["api_surface_delta", "changed"], apiChangedSchema),
        (["effect_changes", "added"], effectSchema), (["effect_changes", "removed"], effectSchema),
        (["decorators_delta", "added"], decoratorSchema),
        (["decorators_delta", "removed"], decoratorSchema),
        (["imports_delta", "added"], importSchema), (["imports_delta", "removed"], importSchema),
        (["renames"], renameSchema)] := by
  have hmem := mem_schemas h
  simp only [schemas, List.mem_cons, List.not_mem_nil, or_false] at hmem ⊢
  tauto

/-- In a state, a target with a Match Schema holds records that are plain at the allowed keys. -/
theorem plainRecords_resolveState {target : TargetPath} {schema : MatchSchema}
    (hschema : schemaForTarget target = some schema) (s : CodeState) {value : JsonValue}
    (hvalue : resolveState s target = some value) : PlainRecords schema.allowedKeys value := by
  rcases schema_cases hschema with hmem | hmem
  · simp only [List.mem_cons, Prod.mk.injEq, List.not_mem_nil, or_false] at hmem
    rcases hmem with ⟨rfl, rfl⟩ | ⟨rfl, rfl⟩ | ⟨rfl, rfl⟩ | ⟨rfl, rfl⟩
    · obtain rfl := Option.some.inj hvalue
      exact plainRecords_map plainAt_api s.apiSurface
    · rw [resolveState_apiSurfacePublic] at hvalue
      obtain rfl := Option.some.inj hvalue
      exact plainRecords_map plainAt_api _
    · obtain rfl := Option.some.inj hvalue
      exact plainRecords_map plainAt_effect s.effects
    · obtain rfl := Option.some.inj hvalue
      exact plainRecords_map plainAt_import s.imports
  · have hnone : resolveState s target = none := by
      simp only [List.mem_cons, Prod.mk.injEq, List.not_mem_nil, or_false] at hmem
      rcases hmem with ⟨rfl, -⟩ | ⟨rfl, -⟩ | ⟨rfl, -⟩ | ⟨rfl, -⟩ | ⟨rfl, -⟩ | ⟨rfl, -⟩ | ⟨rfl, -⟩ |
        ⟨rfl, -⟩ | ⟨rfl, -⟩ | ⟨rfl, -⟩ | ⟨rfl, -⟩ <;> rfl
    rw [hnone] at hvalue
    cases hvalue

/-- So does one of a computed delta, whatever git adds to it. -/
theorem plainRecords_resolveDelta {target : TargetPath} {schema : MatchSchema}
    (hschema : schemaForTarget target = some schema) (b c : CodeState) (filesTouched : ℤ)
    (locDelta : LocDelta) (renames : List RenameEntry) {value : JsonValue}
    (hvalue : resolveDelta (overlayDelta (computeCodeStateDelta b c) filesTouched locDelta renames)
      target = some value) : PlainRecords schema.allowedKeys value := by
  rcases schema_cases hschema with hmem | hmem
  · have hnone : resolveDelta (overlayDelta (computeCodeStateDelta b c) filesTouched locDelta
        renames) target = none := by
      simp only [List.mem_cons, Prod.mk.injEq, List.not_mem_nil, or_false] at hmem
      rcases hmem with ⟨rfl, -⟩ | ⟨rfl, -⟩ | ⟨rfl, -⟩ | ⟨rfl, -⟩ <;> rfl
    rw [hnone] at hvalue
    cases hvalue
  · simp only [List.mem_cons, Prod.mk.injEq, List.not_mem_nil, or_false] at hmem
    rcases hmem with ⟨rfl, rfl⟩ | ⟨rfl, rfl⟩ | ⟨rfl, rfl⟩ | ⟨rfl, rfl⟩ | ⟨rfl, rfl⟩ | ⟨rfl, rfl⟩ |
      ⟨rfl, rfl⟩ | ⟨rfl, rfl⟩ | ⟨rfl, rfl⟩ | ⟨rfl, rfl⟩ | ⟨rfl, rfl⟩ <;>
      obtain rfl := Option.some.inj hvalue
    · exact plainRecords_apiAdded b.apiSurface c.apiSurface
    · exact plainRecords_apiRemoved b.apiSurface c.apiSurface
    · exact (plainRecords_apiRemoved b.apiSurface c.apiSurface).publicApiEntries
    · exact plainRecords_apiChanged b.apiSurface c.apiSurface
    · exact plainRecords_map plainAt_effect _
    · exact plainRecords_map plainAt_effect _
    · exact plainRecords_decorators _
    · exact plainRecords_decorators _
    · exact plainRecords_map plainAt_importByAlias _
    · exact plainRecords_map plainAt_importByAlias _
    · exact plainRecords_map plainAt_rename renames

end SemanticCi.Operators
