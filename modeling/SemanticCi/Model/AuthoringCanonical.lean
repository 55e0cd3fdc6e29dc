import SemanticCi.Python.Identifier

/-! The identifiers that the authoring layer admits (`authoring/canonical.py`). -/

namespace SemanticCi.Authoring

open SemanticCi.Python

variable (u : Unicode)

/-- `is_canonical_fqn`. -/
def isCanonicalFqn (value : String) : Bool :=
  if value = "" ∨ hasSubstring "::" value ∨ '.' ∉ value.toList then false
  else if ".".toList.isPrefixOf value.toList ∨ ".".toList.isSuffixOf value.toList then false
  else (splitOn '.' value).all u.isidentifier

/-- The names of the last check of `is_canonical_test_id`. -/
def isTestFunction (parts : List String) : Bool :=
  match parts with
  | [test] => "test_".toList.isPrefixOf test.toList
  | [cls, test] => "Test".toList.isPrefixOf cls.toList && "test_".toList.isPrefixOf test.toList
  | _ => false

/-- `is_canonical_test_id`. -/
def isCanonicalTestId (value : String) : Bool :=
  match partitionColons value.toList with
  | none => false
  | some (path, name) =>
    if path = [] ∨ name = [] ∨ ' ' ∈ path ∨ ' ' ∈ name then false
    else if '\\' ∈ path ∨ "/".toList.isPrefixOf path ∨ ¬ ".py".toList.isSuffixOf path then false
    else if (path.splitOn '/').any fun seg => seg ∈ ["".toList, ".".toList, "..".toList] then false
    else
      let parts := (splitColons name).map String.ofList
      if ¬ parts.all u.isidentifier then false else isTestFunction parts

end SemanticCi.Authoring
