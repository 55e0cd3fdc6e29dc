import SemanticCi.Verification.Canonical
import SemanticCi.Model.PathResolver
import SemanticCi.Model.PathSchema

/-! What a target resolves to: values follow the annotation of their field, so the category
that the compiler derives from the annotations describes every resolved value. -/

namespace SemanticCi.PathResolver

open SemanticCi.Python SemanticCi.StateSchema SemanticCi.Framework SemanticCi.Compiler

/-! ## Values that follow their annotation -/

mutual

def Conforms : Annotation → JsonValue → Prop
  | .str, v => ∃ s, v = .str s
  | .int, v => ∃ i, v = .int i
  | .float, v => ∃ d, v = .float d
  | .bool, v => ∃ b, v = .bool b
  | .any, _ => True
  | .mapping, v => ∃ items, v = .object items
  | .tupleOf _, v => ∃ items, v = .array items
  | .optional inner, v => v = .null ∨ Conforms inner v
  | .model fields, v => ∃ items, v = .object items ∧ ConformsFields fields items

/-- A dump lists the fields of its model in order. -/
def ConformsFields : List (String × Annotation) → JsonMapping → Prop
  | [], items => items = []
  | (name, ann) :: rest, items =>
      ∃ v tail, items = (name, v) :: tail ∧ Conforms ann v ∧ ConformsFields rest tail

end

theorem conforms_ofOption {α : Type} {f : α → JsonValue} {ann : Annotation}
    (h : ∀ a, Conforms ann (f a)) (value : Option α) :
    Conforms (.optional ann) (.ofOption f value) := by
  cases value with
  | none => exact .inl rfl
  | some a => exact .inr (h a)

theorem conforms_records {α : Type} (dump : α → JsonMapping) (entries : List α)
    (element : Annotation) : Conforms (.tupleOf element) (records dump entries) := ⟨_, rfl⟩

theorem conforms_array (items : List JsonValue) (element : Annotation) :
    Conforms (.tupleOf element) (.array items) := ⟨_, rfl⟩

theorem conforms_object (items : JsonMapping) : Conforms .mapping (.object items) := ⟨_, rfl⟩

theorem conforms_int (i : ℤ) : Conforms .int (.int i) := ⟨_, rfl⟩

theorem conforms_float (d : Dyadic) : Conforms .float (.float d) := ⟨_, rfl⟩

theorem conformsFields_cons {name : String} {ann : Annotation} {v : JsonValue}
    {fields : List (String × Annotation)} {items : JsonMapping} (hv : Conforms ann v)
    (hrest : ConformsFields fields items) :
    ConformsFields ((name, ann) :: fields) ((name, v) :: items) :=
  ⟨v, items, rfl, hv, hrest⟩

theorem codeState_conforms (s : CodeState) : ConformsFields CodeState.modelFields s.dump := by
  unfold CodeState.modelFields CodeState.dump
  iterate 8 refine conformsFields_cons (conforms_records ..) ?_
  refine conformsFields_cons (conforms_ofOption (fun _ => conforms_records ..) _) ?_
  refine conformsFields_cons (conforms_records ..) ?_
  iterate 2 refine conformsFields_cons (conforms_ofOption conforms_object _) ?_
  rfl

theorem codeStateDelta_conforms (d : CodeStateDelta) :
    ConformsFields CodeStateDelta.modelFields d.dump := by
  have hsymbol (s : SymbolDelta) : Conforms (.model [("added", .tupleOf .any),
      ("removed", .tupleOf .any), ("changed", .tupleOf .any)]) (.object s.dump) :=
    ⟨_, rfl, conformsFields_cons (conforms_array ..) (conformsFields_cons (conforms_array ..)
      (conformsFields_cons (conforms_array ..) rfl))⟩
  have hpair (a b : List JsonValue) : Conforms (.model [("added", .tupleOf .any),
      ("removed", .tupleOf .any)]) (.object [("added", .array a), ("removed", .array b)]) :=
    ⟨_, rfl, conformsFields_cons (conforms_array ..) (conformsFields_cons (conforms_array ..) rfl)⟩
  have hints (m n : String) (a b : ℤ) :
      Conforms (.model [(m, .int), (n, .int)]) (.object [(m, .int a), (n, .int b)]) :=
    ⟨_, rfl, conformsFields_cons (conforms_int _) (conformsFields_cons (conforms_int _) rfl)⟩
  have hcoverage (c : CoverageDelta) : Conforms (.model [("line", .optional .float),
      ("branch", .optional .float)]) (.object c.dump) :=
    ⟨_, rfl, conformsFields_cons (conforms_ofOption conforms_float _)
      (conformsFields_cons (conforms_ofOption conforms_float _) rfl)⟩
  have htests (t : TestSurfaceDelta) : Conforms (.model [("new_files", .tupleOf .str),
      ("new_cases", .tupleOf .str), ("removed_cases", .tupleOf .str)]) (.object t.dump) :=
    ⟨_, rfl, conformsFields_cons (conforms_array ..) (conformsFields_cons (conforms_array ..)
      (conformsFields_cons (conforms_array ..) rfl))⟩
  unfold CodeStateDelta.modelFields CodeStateDelta.dump
  iterate 2 refine conformsFields_cons (hsymbol _) ?_
  refine conformsFields_cons (conforms_array ..) (conformsFields_cons (hpair ..) ?_)
  refine conformsFields_cons (hints ..) (conformsFields_cons (hpair ..) ?_)
  refine conformsFields_cons (hints ..) (conformsFields_cons (htests _) ?_)
  refine conformsFields_cons (conforms_ofOption hcoverage _) ?_
  refine conformsFields_cons (conforms_int _) (conformsFields_cons (hints ..) ?_)
  refine conformsFields_cons (conforms_records ..) ?_
  iterate 2 refine conformsFields_cons (conforms_ofOption conforms_object _) ?_
  rfl

theorem get?_cons (name : String) (v : JsonValue) (items : JsonMapping) (key : String) :
    JsonValue.get? ((name, v) :: items) key =
      if name = key then some v else JsonValue.get? items key := by
  by_cases h : name = key <;> simp [JsonValue.get?, h]

/-- A declared field is there, and its value follows the annotation. -/
theorem ConformsFields.get? {fields : List (String × Annotation)} {items : JsonMapping}
    (h : ConformsFields fields items) {name : String} {ann : Annotation}
    (hfield : fields.lookup name = some ann) :
    ∃ v, JsonValue.get? items name = some v ∧ Conforms ann v := by
  induction fields generalizing items with
  | nil => cases hfield
  | cons entry rest ih =>
      obtain ⟨first, a⟩ := entry
      obtain ⟨v, tail, rfl, hv, htail⟩ := h
      by_cases hname : name = first
      · subst hname
        simp only [List.lookup_cons_self, Option.some.injEq] at hfield
        subst hfield
        exact ⟨v, by simp [get?_cons], hv⟩
      · have hbeq : (name == first) = false := by simpa using hname
        rw [List.lookup_cons, hbeq] at hfield
        obtain ⟨w, hw, hconforms⟩ := ih htail hfield
        exact ⟨w, by rw [get?_cons, if_neg (Ne.symm hname), hw], hconforms⟩

/-! ## Resolution follows the annotations -/

/-- The annotation that a path leads to. -/
def annotationAt : Annotation → List String → Option Annotation
  | ann, [] => some ann
  | .model fields, segment :: rest =>
      match fields.lookup segment with
      | some ann => annotationAt ann rest
      | none => none
  | .optional (.model fields), segment :: rest =>
      match fields.lookup segment with
      | some ann => annotationAt ann rest
      | none => none
  | _, _ :: _ => none

/-- The delta paths that a projection answers instead of a field. -/
def projectionPaths : List (List String) :=
  ["api_surface_delta", "removed_public"] :: flatProjectionAliases.map Prod.fst

theorem lookup_flatProjectionAliases {upTo : List String} (h : upTo ∉ projectionPaths) :
    flatProjectionAliases.lookup upTo = none := by
  rw [List.lookup_eq_none_iff]
  intro p hp
  have hne : upTo ≠ p.1 := fun heq =>
    h (by rw [heq]; exact List.mem_cons_of_mem _ (List.mem_map_of_mem hp))
  simpa using hne

/-- Away from the projections a segment of an object is a plain lookup. -/
theorem resolveSegment_object {isState : Bool} {items : JsonMapping} {upTo : List String}
    {segment : String} (hstate : isState = true → segment ≠ "api_surface_public")
    (hplain : upTo ∉ projectionPaths) :
    resolveSegment isState (.object items) upTo segment = JsonValue.get? items segment := by
  have hremoved : upTo ≠ ["api_surface_delta", "removed_public"] := fun h =>
    hplain (by rw [h]; exact List.mem_cons_self)
  have hpublic : ¬ (isState = true ∧ segment = "api_surface_public") := fun h =>
    hstate h.1 h.2
  simp only [resolveSegment, if_neg hpublic, hremoved, false_and, if_false,
    lookup_flatProjectionAliases hplain]

/-- Every resolved value follows the annotation at the end of its path. -/
theorem resolveFrom_conforms {isState : Bool} {ann final : Annotation} {v w : JsonValue}
    {seen path : List String} (hv : Conforms ann v)
    (hstate : isState = true → path.head? ≠ some "api_surface_public")
    (hplain : ∀ front, front <+: path → seen ++ front ∉ projectionPaths)
    (hpath : annotationAt ann path = some final)
    (hw : resolveFrom isState v seen path = some w) : Conforms final w := by
  induction path generalizing isState ann v seen with
  | nil =>
      cases hpath
      cases hw
      exact hv
  | cons segment rest ih =>
      have hhead : seen ++ [segment] ∉ projectionPaths := hplain [segment] (by simp)
      have htail : ∀ front, front <+: rest → seen ++ [segment] ++ front ∉ projectionPaths := by
        intro front hfront
        simpa using hplain (segment :: front) (by simpa using hfront)
      have hsegment : isState = true → segment ≠ "api_surface_public" := by
        intro hs
        simpa using hstate hs
      have hstep (fields : List (String × Annotation)) (items : JsonMapping)
          (hfields : ConformsFields fields items)
          (hnext : (match fields.lookup segment with
            | some ann => annotationAt ann rest
            | none => none) = some final)
          (hitems : resolveFrom isState (.object items) seen (segment :: rest) = some w) :
          Conforms final w := by
        cases hlookup : fields.lookup segment with
        | none => rw [hlookup] at hnext; cases hnext
        | some field =>
            rw [hlookup] at hnext
            obtain ⟨next, hget, hconforms⟩ := hfields.get? hlookup
            rw [resolveFrom, resolveSegment_object hsegment hhead, hget] at hitems
            exact ih hconforms (by simp) htail hnext hitems
      cases ann with
      | model fields =>
          obtain ⟨items, rfl, hfields⟩ := hv
          exact hstep fields items hfields hpath hw
      | optional inner =>
          cases inner with
          | model fields =>
              rcases hv with rfl | ⟨items, rfl, hfields⟩
              · cases hw
              · exact hstep fields items hfields hpath hw
          | _ => cases hpath
      | _ => cases hpath

/-! ## Categories describe resolved values -/

/-- What a value that is not null looks like in its category. -/
def FitsCategory (category : TargetCategory) (v : JsonValue) : Prop :=
  (category ∈ collectionCategories → ∃ items, v = .array items) ∧
    (category = .scalarNumber → ∃ n, v.toPy.asNumber? = some n)

theorem fitsCategory_array {category : TargetCategory} (hcategory : category ≠ .scalarNumber)
    (items : List JsonValue) : FitsCategory category (.array items) :=
  ⟨fun _ => ⟨items, rfl⟩, fun h => absurd h hcategory⟩

theorem fitsCategory_of_neither {category : TargetCategory}
    (hcollection : category ∉ collectionCategories) (hnumber : category ≠ .scalarNumber)
    (v : JsonValue) : FitsCategory category v :=
  ⟨fun h => absurd h hcollection, fun h => absurd h hnumber⟩

theorem Conforms.fitsCategory {ann : Annotation} {v : JsonValue}
    (h : Conforms ann v) : v = .null ∨ FitsCategory (annotationCategory ann) v := by
  have hbase (base : Annotation) (h : Conforms base v)
      (hunwrap : unwrapNullable ann = base) :
      FitsCategory (annotationCategory ann) v := by
    rw [annotationCategory, hunwrap]
    cases base with
    | int =>
        obtain ⟨i, rfl⟩ := h
        exact ⟨fun hno => absurd hno (by decide), fun _ => ⟨_, rfl⟩⟩
    | float =>
        obtain ⟨d, rfl⟩ := h
        exact ⟨fun hno => absurd hno (by decide), fun _ => ⟨_, rfl⟩⟩
    | tupleOf element =>
        obtain ⟨items, rfl⟩ := h
        refine fitsCategory_array ?_ items
        simp only [collectionCategory]
        split <;> decide
    | _ => exact fitsCategory_of_neither (by simp [collectionCategories]) (by simp) v
  cases ann with
  | optional inner => exact h.imp id fun h => hbase inner h rfl
  | _ => exact .inr (hbase _ h rfl)

/-- How a closed path is answered: by a projection, or by the field at the end of it. -/
def AnsweredBy (root : Annotation) (projections : List (List String)) (path : List String) :
    Prop :=
  (path ∈ projections ∧ categoryForTarget path ≠ .scalarNumber) ∨
    ((∀ front ∈ path.inits, front ∉ projectionPaths) ∧ path.head? ≠ some "api_surface_public" ∧
      (annotationAt root path).map annotationCategory = some (categoryForTarget path))

instance (root : Annotation) (projections : List (List String)) (path : List String) :
    Decidable (AnsweredBy root projections path) := by
  unfold AnsweredBy
  infer_instance

/-- The paths of the delta proper. -/
def deltaTargetPaths : List TargetPath :=
  walkFieldPaths [] CodeStateDelta.modelFields ++ deltaFlatProjectionAliases

theorem deltaTargetPaths_answered : ∀ path ∈ deltaTargetPaths, isOpenPath path = false →
    AnsweredBy (.model CodeStateDelta.modelFields) projectionPaths path := by
  decide +kernel

theorem stateTargetPaths_answered : ∀ path ∈ validStateTargetPaths, isOpenPath path = false →
    path.length = 1 ∧ AnsweredBy (.model CodeState.modelFields) codeStateAliases path := by
  decide +kernel

theorem closed_category : ∀ path ∈ validDeltaTargetPaths, isOpenPath path = false →
    categoryForTarget path ≠ .unknownOpen := by
  decide +kernel

theorem resolveDelta_projection (d : CodeStateDelta) : ∀ path ∈ projectionPaths,
    ∃ items, resolveDelta d path = some (.array items) := by
  simp only [projectionPaths, flatProjectionAliases, List.map_cons, List.map_nil, List.mem_cons,
    List.not_mem_nil, or_false, forall_eq_or_imp, forall_eq]
  exact ⟨⟨_, rfl⟩, ⟨_, rfl⟩, ⟨_, rfl⟩, ⟨_, rfl⟩⟩

/-- A closed delta target that resolves gives a value of its category, or `None`. -/
theorem resolveDelta_fits {d : CodeStateDelta} {path : TargetPath} {v : JsonValue}
    (hpath : path ∈ deltaTargetPaths) (hclosed : isOpenPath path = false)
    (h : resolveDelta d path = some v) :
    v = .null ∨ FitsCategory (categoryForTarget path) v := by
  rcases deltaTargetPaths_answered path hpath hclosed with ⟨hprojection, hnumber⟩ | ⟨hplain, -, hat⟩
  · obtain ⟨items, hitems⟩ := resolveDelta_projection d path hprojection
    rw [hitems] at h
    cases h
    exact .inr (fitsCategory_array hnumber items)
  · obtain ⟨final, hfinal, hcategory⟩ := Option.map_eq_some_iff.mp hat
    have hroot : Conforms (.model CodeStateDelta.modelFields) (.object d.dump) :=
      ⟨_, rfl, codeStateDelta_conforms d⟩
    rw [← hcategory]
    refine Conforms.fitsCategory (resolveFrom_conforms hroot (by simp)
      (fun front hfront => ?_) hfinal h)
    simpa using hplain front ((List.mem_inits _ _).mpr hfront)

/-- A closed state target always resolves, to a value of its category or `None`. -/
theorem resolveState_fits (s : CodeState) {path : TargetPath}
    (hpath : path ∈ validStateTargetPaths) (hclosed : isOpenPath path = false) :
    ∃ v, resolveState s path = some v ∧
      (v = .null ∨ FitsCategory (categoryForTarget path) v) := by
  obtain ⟨hlength, hanswer⟩ := stateTargetPaths_answered path hpath hclosed
  obtain ⟨name, rfl⟩ := List.length_eq_one_iff.mp hlength
  rcases hanswer with ⟨halias, hnumber⟩ | ⟨hplain, hpublic, hat⟩
  · obtain rfl : name = "api_surface_public" := by simpa [codeStateAliases] using halias
    exact ⟨_, rfl, .inr (fitsCategory_array hnumber _)⟩
  · obtain ⟨final, hfinal, hcategory⟩ := Option.map_eq_some_iff.mp hat
    have hlookup : CodeState.modelFields.lookup name = some final := by
      simp only [annotationAt] at hfinal
      split at hfinal
      · rename_i heq
        cases hfinal
        exact heq
      · cases hfinal
    obtain ⟨v, hget, hconforms⟩ := (codeState_conforms s).get? hlookup
    have hname : name ≠ "api_surface_public" := by simpa using hpublic
    refine ⟨v, ?_, ?_⟩
    · have hsegment : resolveSegment true (.object s.dump) [name] name =
          JsonValue.get? s.dump name :=
        resolveSegment_object (fun _ => hname) (hplain [name] (by simp))
      simp only [resolveState, resolveFrom, List.nil_append, hsegment, hget]
    · rw [← hcategory]
      exact hconforms.fitsCategory

end SemanticCi.PathResolver
