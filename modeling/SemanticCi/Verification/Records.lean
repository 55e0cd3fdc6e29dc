import SemanticCi.Verification.Canonical
import SemanticCi.Model.PathResolver

/-! Records in canonical form: the fields of a record are read back from its normal form, so
two records with one normal form agree on their fields. -/

namespace SemanticCi.Operators

open SemanticCi.Python SemanticCi.StateSchema SemanticCi.PathResolver

/-! ## Fields of a mapping -/

/-- Sorting by key keeps the first entry of every key in front of the others. -/
theorem find?_sortPairs {α : Type} (items : List (String × α)) (key : String) :
    (sortPairs items).find? (fun p => p.1 = key) = items.find? fun p => p.1 = key := by
  have hinsert (p : String × α) (sorted : List (String × α)) :
      (sorted.orderedInsert (fun a b => a.1 ≤ b.1) p).find? (fun q => q.1 = key) =
        (p :: sorted).find? fun q => q.1 = key := by
    induction sorted with
    | nil => rfl
    | cons q rest ih =>
        rw [List.orderedInsert]
        split
        · rfl
        · rename_i hle
          by_cases hp : p.1 = key
          · have hq : q.1 ≠ key := by
              rintro rfl
              exact hle hp.le
            simp only [List.find?_cons, hq, decide_false, ih, hp, decide_true]
          · simp only [List.find?_cons, ih, hp, decide_false]
  induction items with
  | nil => rfl
  | cons p rest ih =>
      have hcons : sortPairs (p :: rest) =
          (sortPairs rest).orderedInsert (fun a b => a.1 ≤ b.1) p := rfl
      rw [hcons, hinsert]
      simp only [List.find?_cons, ih]

/-- Two mappings with one canonical form agree on every key. -/
theorem get?_of_jsonNorm_eq {xs ys : JsonMapping} (h : jsonNorm (.object xs) = jsonNorm (.object ys))
    (key : String) :
    (JsonValue.get? xs key).map jsonNorm = (JsonValue.get? ys key).map jsonNorm := by
  have hinj : Function.Injective fun p : String × Norm =>
      Norm.tuple [.scalar (.str p.1), p.2] := by
    rintro ⟨k, v⟩ ⟨k', v'⟩ hp
    simpa using hp
  have hlookup (items : JsonMapping) : (JsonValue.get? items key).map jsonNorm =
      ((sortPairs (items.map fun q => (q.1, jsonNorm q.2))).find? fun q => q.1 = key).map
        Prod.snd := by
    rw [find?_sortPairs, List.find?_map, Option.map_map, JsonValue.get?, Option.map_map]
    rfl
  rw [jsonNorm_object, jsonNorm_object] at h
  rw [hlookup, hlookup, List.map_injective_iff.mpr hinj (Norm.tuple.inj h)]

/-! ## Field values -/

theorem ofInt_injective : Function.Injective Dyadic.ofInt := by
  intro i j h
  have hcast (k : ℤ) : (Dyadic.ofInt k).toRat = k := Dyadic.toRat_intCast k
  have hrat := congrArg Dyadic.toRat h
  rw [hcast, hcast] at hrat
  exact_mod_cast hrat

@[simp] theorem jsonNorm_ofOption_str_inj (a b : Option String) :
    jsonNorm (.ofOption .str a) = jsonNorm (.ofOption .str b) ↔ a = b := by
  cases a <;> cases b <;> simp [JsonValue.ofOption]

@[simp] theorem jsonNorm_ofOption_int_inj (a b : Option ℤ) :
    jsonNorm (.ofOption .int a) = jsonNorm (.ofOption .int b) ↔ a = b := by
  cases a <;> cases b <;> simp [JsonValue.ofOption, ofInt_injective.eq_iff]

theorem jsonNorm_strings (items : List String) :
    jsonNorm (.strings items) = .tuple (items.map fun s => .scalar (.str s)) := by
  simp [JsonValue.strings, Function.comp_def]

@[simp] theorem jsonNorm_strings_inj (xs ys : List String) :
    jsonNorm (.strings xs) = jsonNorm (.strings ys) ↔ xs = ys := by
  have hinj : Function.Injective fun s => Norm.scalar (.str s) := by
    intro s t hst
    simpa using hst
  rw [jsonNorm_strings, jsonNorm_strings, Norm.tuple.injEq, (List.map_injective_iff.mpr hinj).eq_iff]

@[simp] theorem jsonNorm_records {α : Type} (dump : α → JsonMapping) (entries : List α) :
    jsonNorm (records dump entries) =
      .tuple (entries.map fun e => jsonNorm (.object (dump e))) := by
  simp [records, Function.comp_def]

/-! ## Records -/

/-- The field of an object that shows as `v` on one side shows as `v` on the other. -/
theorem field_eq_of_jsonNorm_eq {xs ys : JsonMapping}
    (h : jsonNorm (.object xs) = jsonNorm (.object ys)) (key : String) {v w : JsonValue}
    (hv : JsonValue.get? xs key = some v) (hw : JsonValue.get? ys key = some w) :
    jsonNorm v = jsonNorm w := by
  have hget := get?_of_jsonNorm_eq h key
  rw [hv, hw] at hget
  exact Option.some.inj hget

/-- The canonical form of an API record loses nothing. -/
theorem apiSurfaceEntry_norm_inj {a b : APISurfaceEntry}
    (h : jsonNorm (.object a.dump) = jsonNorm (.object b.dump)) : a = b := by
  have hfield := field_eq_of_jsonNorm_eq h
  have hfqn : a.fqn = b.fqn := by simpa using hfield "fqn" rfl rfl
  have hkind : a.kind = b.kind := by simpa using hfield "kind" rfl rfl
  have hsignature : a.signature = b.signature := by simpa using hfield "signature" rfl rfl
  have hvisibility : a.visibility = b.visibility := by
    simpa using hfield "visibility" rfl rfl
  have hdecorators : a.decorators = b.decorators := by
    simpa using hfield "decorators" rfl rfl
  cases a
  cases b
  simp_all

theorem importEntry_norm_inj {a b : ImportEntry}
    (h : jsonNorm (.object a.dump) = jsonNorm (.object b.dump)) : a = b := by
  have hfield := field_eq_of_jsonNorm_eq h
  have hmodule : a.module = b.module := by simpa using hfield "module" rfl rfl
  have hfrom : a.from_ = b.from_ := by simpa using hfield "from_" rfl rfl
  have hsymbols : a.symbols = b.symbols := by simpa using hfield "symbols" rfl rfl
  cases a
  cases b
  simp_all

theorem complexityEntry_norm_inj {a b : ComplexityEntry}
    (h : jsonNorm (.object a.dump) = jsonNorm (.object b.dump)) : a = b := by
  have hfield := field_eq_of_jsonNorm_eq h
  have hfqn : a.fqn = b.fqn := by simpa using hfield "fqn" rfl rfl
  have hcyclomatic : a.cyclomatic = b.cyclomatic := by
    simpa using hfield "cyclomatic" rfl rfl
  have hcognitive : a.cognitive = b.cognitive := by simpa using hfield "cognitive" rfl rfl
  cases a
  cases b
  simp_all

theorem testSurfaceEntry_norm_inj {a b : TestSurfaceEntry}
    (h : jsonNorm (.object a.dump) = jsonNorm (.object b.dump)) : a = b := by
  have hfield := field_eq_of_jsonNorm_eq h
  have hfile : a.testFile = b.testFile := by simpa using hfield "test_file" rfl rfl
  have hfunction : a.testFunction = b.testFunction := by
    simpa using hfield "test_function" rfl rfl
  have hasserts : a.asserts = b.asserts := by simpa using hfield "asserts" rfl rfl
  have hcount : a.parametrizeCount = b.parametrizeCount := by
    simpa using hfield "parametrize_count" rfl rfl
  cases a
  cases b
  simp_all

theorem moduleGraphEntry_norm_inj {a b : ModuleGraphEntry}
    (h : jsonNorm (.object a.dump) = jsonNorm (.object b.dump)) : a = b := by
  have hfield := field_eq_of_jsonNorm_eq h
  have hmodule : a.module = b.module := by simpa using hfield "module" rfl rfl
  have himports : a.imports = b.imports := by simpa using hfield "imports" rfl rfl
  have himportedBy : a.importedBy = b.importedBy := by
    simpa using hfield "imported_by" rfl rfl
  cases a
  cases b
  simp_all

theorem effectClass_value_injective : Function.Injective EffectClass.value := by
  intro a b h
  cases a <;> cases b <;> simp_all [EffectClass.value]

/-- Equal canonical forms of two effects: the evidence is only determined up to equality. -/
theorem effectEntry_norm_fields {a b : EffectEntry}
    (h : jsonNorm (.object a.dump) = jsonNorm (.object b.dump)) :
    a.fqn = b.fqn ∧ a.effectClass = b.effectClass ∧
      jsonNorm a.evidence = jsonNorm b.evidence := by
  have hfield := field_eq_of_jsonNorm_eq h
  refine ⟨by simpa using hfield "fqn" rfl rfl, effectClass_value_injective ?_,
    hfield "evidence" rfl rfl⟩
  simpa using hfield "effect_class" rfl rfl

/-! ## The public API -/

/-- The public records of an API surface. -/
def publicEntries (entries : List APISurfaceEntry) : List APISurfaceEntry :=
  entries.filter fun e => e.visibility = some "public"

theorem isPublic_dump (e : APISurfaceEntry) :
    isPublic (.object e.dump) = decide (e.visibility = some "public") := by
  have hfield : field (.object e.dump) "visibility" = some (.ofOption .str e.visibility) := rfl
  rw [isPublic, hfield]
  cases e.visibility <;> simp [JsonValue.ofOption]

theorem publicApiEntries_records (entries : List APISurfaceEntry) :
    publicApiEntries (records APISurfaceEntry.dump entries) =
      records APISurfaceEntry.dump (publicEntries entries) := by
  simp only [records, publicApiEntries, List.filter_map, publicEntries]
  congr 2
  exact List.filter_congr fun e _ => isPublic_dump e

theorem resolveState_apiSurfacePublic (s : CodeState) :
    resolveState s ["api_surface_public"] =
      some (records APISurfaceEntry.dump (publicEntries s.apiSurface)) := by
  rw [← publicApiEntries_records]
  rfl

end SemanticCi.Operators
