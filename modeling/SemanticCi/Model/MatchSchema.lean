import SemanticCi.Model.ConstraintTypes
import SemanticCi.Python.Difflib

/-! The Match Schema: which keys an expected record may name for a target, and when an
expected item matches an observed one. -/

namespace SemanticCi.Matching

open SemanticCi.Python SemanticCi.Framework

def collectionOperators : List Operator :=
  [.includesAll, .includesAny, .excludesAll, .subsetOf, .supersetOf]

structure MatchSchema where
  target : TargetPath
  requiredKey : String
  optionalKeys : List String
  forbiddenKeys : List (String × String)
  requiredAnyKeys : List String := []

def MatchSchema.allowedKeys (schema : MatchSchema) : List String :=
  schema.requiredKey :: schema.optionalKeys

/-- `MatchSchemaError`, or a Python error that escapes while the message is built. -/
inductive MatchSchemaError where
  | schema (message : String)
  | crash (error : PyError)

def apiSchema : MatchSchema where
  target := ["api_surface"]
  requiredKey := "fqn"
  optionalKeys := ["kind", "visibility"]
  forbiddenKeys :=
    [("signature", "signature is extractor-format coupling and is not stable policy input")]

def apiChangedSchema : MatchSchema where
  target := ["api_surface_delta", "changed"]
  requiredKey := "fqn"
  optionalKeys := ["kind"]
  forbiddenKeys :=
    [("signature", "signature is extractor-format coupling and is not stable policy input"),
      ("visibility", "visibility is nested under before/after in changed API delta records; " ++
        "top-level matching supports only fqn and kind"),
      ("before", "before is extractor-format coupling and is not stable policy input"),
      ("after", "after is extractor-format coupling and is not stable policy input")]

def effectSchema : MatchSchema where
  target := ["effects"]
  requiredKey := "fqn"
  optionalKeys := ["effect_class"]
  forbiddenKeys :=
    [("confidence", "confidence is an extractor-dependent score; exact equality is unsafe"),
      ("evidence", "evidence is extractor-format coupling and is not stable policy input")]
  requiredAnyKeys := ["fqn", "effect_class"]

def decoratorSchema : MatchSchema where
  target := ["decorators_delta"]
  requiredKey := "decorator"
  optionalKeys := ["decorator_leaf", "fqn"]
  forbiddenKeys := []
  requiredAnyKeys := ["decorator", "decorator_leaf"]

def importSchema : MatchSchema where
  target := ["imports"]
  requiredKey := "module"
  optionalKeys := ["from"]
  forbiddenKeys :=
    [("symbols", "symbols is list-valued; exact equality is a partial-match footgun")]

def renameSchema : MatchSchema where
  target := ["renames"]
  requiredKey := "old_path"
  optionalKeys := ["new_path"]
  forbiddenKeys := []
  requiredAnyKeys := ["old_path", "new_path"]

def schemas : List (TargetPath × MatchSchema) :=
  [(["api_surface"], apiSchema),
    (["api_surface_public"], apiSchema),
    (["api_surface_delta", "added"], apiSchema),
    (["api_surface_delta", "removed"], apiSchema),
    (["api_surface_delta", "removed_public"], apiSchema),
    (["api_surface_delta", "changed"], apiChangedSchema),
    (["effects"], effectSchema),
    (["effect_changes", "added"], effectSchema),
    (["effect_changes", "removed"], effectSchema),
    (["decorators_delta", "added"], decoratorSchema),
    (["decorators_delta", "removed"], decoratorSchema),
    (["imports"], importSchema),
    (["imports_delta", "added"], importSchema),
    (["imports_delta", "removed"], importSchema),
    (["renames"], renameSchema)]

def schemaForTarget (target : TargetPath) : Option MatchSchema := schemas.lookup target

/-! ## Normalizing the expected literal -/

/-- A key of the record among `keys`, as a string. -/
def stringKeys (item : List (PyScalar × PyValue)) (keys : List String) : List String :=
  (keys.filter fun key => item.any fun entry => entry.1 = .str key).insertionSort (· ≤ ·)

/-- The keys of the record that the schema does not allow. -/
def unknownKeys (schema : MatchSchema) (item : List (PyScalar × PyValue)) :
    List (PyScalar × PyValue) :=
  item.filter fun entry => !(schema.allowedKeys.any fun key => entry.1 = .str key)

/-- The error of a key that the schema does not allow. Looking for keys that come close raises
when the key is neither a text nor bytes. -/
def unknownKeyError (target : TargetPath) (schema : MatchSchema) (key : PyScalar) :
    MatchSchemaError :=
  let allowed := schema.allowedKeys.insertionSort (· ≤ ·)
  let message := s!"unknown match key {key.repr} for target {strRepr target.text}. " ++
    "Allowed keys: " ++ ", ".intercalate allowed ++ "."
  match key with
  | .str word => .schema (message ++ Difflib.didYouMean
      (Difflib.getCloseMatches word allowed 3 (2 / 5)))
  | .other kind _ => if kind = "bytes" then .schema message else .crash .typeError
  | _ => .crash .typeError

def normalizeRecord (target : TargetPath) (schema : MatchSchema)
    (item : List (PyScalar × PyValue)) : Except MatchSchemaError PyValue :=
  match stringKeys item (schema.forbiddenKeys.map Prod.fst) with
  | key :: _ =>
      .error (.schema (s!"forbidden match key {strRepr key} for target {strRepr target.text}: " ++
        (schema.forbiddenKeys.lookup key).getD ""))
  | [] =>
      match sortByKey (unknownKeys schema item) with
      | .error e => .error (.crash e)
      | .ok ((key, _) :: _) => .error (unknownKeyError target schema key)
      | .ok [] =>
          let required :=
            if schema.requiredAnyKeys = [] then [schema.requiredKey] else schema.requiredAnyKeys
          if stringKeys item required = [] then
            if 1 < required.length then
              .error (.schema (s!"partial match for target {strRepr target.text} requires one of: " ++
                ", ".intercalate (required.insertionSort (· ≤ ·))))
            else
              .error (.schema (s!"partial match for target {strRepr target.text} requires key " ++
                strRepr schema.requiredKey))
          else
            match sortByKey item with
            | .error e => .error (.crash e)
            | .ok sorted => .ok (.dict sorted)

private def noSchema (target : TargetPath) : MatchSchemaError :=
  .schema (s!"partial dict expected is not supported for target {strRepr target.text}; " ++
    "no Match Schema is registered")

/-- One item of an expected list. -/
def normalizeItem (target : TargetPath) (item : PyValue) : Except MatchSchemaError PyValue :=
  match item, schemaForTarget target with
  | .dict _, none => .error (noSchema target)
  | .dict entries, some schema => normalizeRecord target schema entries
  | .scalar (.str s), some schema => .ok (.dict [(.str schema.requiredKey, .str s)])
  | item, _ => .ok item

def normalizeCollectionExpected (target : TargetPath) (operator : Operator) (expected : PyValue) :
    Except MatchSchemaError PyValue :=
  if operator ∉ collectionOperators then .ok expected
  else
    match expected with
    | .seq _ [] =>
        if operator = .excludesAll then
          .error (.schema "excludes_all with empty expected is a no-op deny gate")
        else if operator = .includesAny then
          .error (.schema "includes_any with empty expected can never be satisfied")
        else .ok expected
    | .dict entries =>
        match schemaForTarget target with
        | none => .error (noSchema target)
        | some schema => do return .tuple [← normalizeRecord target schema entries]
    | .seq _ items => do return .list (← items.mapM (normalizeItem target))
    | _ => .ok expected

/-! ## Matching

Both sides have been canonicalized when they meet here, so a mapping is a tuple of pairs:
any nonempty list of two-element lists reads as one. -/

/-- The two halves of a two-element list or tuple. -/
def pair? : PyValue → Option (PyValue × PyValue)
  | .seq _ [k, v] => some (k, v)
  | _ => none

/-- `dict(pairs)`: a later pair replaces the value of an earlier one with an equal key. -/
def dictOfPairs (pairs : List (PyValue × PyValue)) : List (PyValue × PyValue) :=
  pairs.foldl (fun acc p =>
    if acc.any fun q => q.1.eq p.1 then acc.map fun q => if q.1.eq p.1 then (q.1, p.2) else q
    else acc ++ [p]) []

def lookup (mapping : List (PyValue × PyValue)) (key : PyValue) : Option PyValue :=
  (mapping.find? fun p => p.1.eq key).map Prod.snd

/-- `_normalized_mapping`: `from_` is also visible as `from`. -/
def normalizedMapping (mapping : List (PyValue × PyValue)) : List (PyValue × PyValue) :=
  match lookup mapping (.str "from_"), lookup mapping (.str "from") with
  | some value, none => mapping ++ [(.str "from", value)]
  | _, _ => mapping

def mappingView : PyValue → Option (List (PyValue × PyValue))
  | .seq _ (item :: rest) =>
      ((item :: rest).mapM pair?).map fun pairs => normalizedMapping (dictOfPairs pairs)
  | _ => none

def matchItem (expected observed : PyValue) : Bool :=
  match mappingView expected, mappingView observed with
  | some expectedMap, some observedMap =>
      expectedMap.all fun p =>
        match lookup observedMap p.1 with
        | some value => value.eq p.2
        | none => false
  | _, _ => expected.eq observed

end SemanticCi.Matching
