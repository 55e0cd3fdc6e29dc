import SemanticCi.Library.OrderedDict
import SemanticCi.Model.PackageTree
import SemanticCi.Model.StateSchema
import Mathlib.Data.Prod.Lex

/-! The API surface of a module (`api_surface/python_api_extractor.py`). -/

namespace SemanticCi.Extraction

open SemanticCi.Python SemanticCi.Python.Ast SemanticCi.StateSchema OrderedDict

/-- `ast.unparse` and `str.isupper`. -/
structure Stdlib where
  unparse : Node → String
  isupper : String → Bool

/-- `_iter_module_scope_statements`. -/
def iterModuleScopeStatements (stmts : List Node) : List Node :=
  scanModuleScope (fun
    | stmt@(.functionDef ..) => [stmt]
    | stmt@(.classDef ..) => [stmt]
    | stmt@(.assign ..) => [stmt]
    | stmt@(.annAssign ..) => [stmt]
    | _ => []) stmts

/-- `ast.Expr(value=ast.Constant(value=Ellipsis))`, with the locations of its parent. -/
def ellipsisBody (pos : Pos) : List Node :=
  [.other "Expr" [] (some pos) [.other "Constant" ["Ellipsis"] (some pos) []]]

/-- What `_render_signature` leaves of a definition. -/
def stripped : Node → Node
  | .functionDef pos isAsync name args _ _ returns typeParams =>
    .functionDef pos isAsync name args (ellipsisBody pos) [] returns typeParams
  | .classDef pos name bases keywords _ _ typeParams =>
    .classDef pos name bases keywords (ellipsisBody pos) [] typeParams
  | n => n

/-- `_visibility_for_leaf_name`. -/
def visibilityForLeafName (name : String) : String :=
  if 4 < name.length ∧ "__".toList.isPrefixOf name.toList ∧ "__".toList.isSuffixOf name.toList then
    "dunder"
  else if "_".toList.isPrefixOf name.toList then "private"
  else "public"

/-- `_is_overload_decorator`. -/
def isOverloadDecorator : Node → Bool
  | .name _ id => id = "overload"
  | .attributeRef _ _ attr => attr = "overload"
  | .call _ func _ _ => isOverloadDecorator func
  | _ => false

/-- `_decorator_name`. -/
def decoratorName : Node → Option String
  | .name _ id => some id
  | .attributeRef _ value attr =>
    match decoratorName value with
    | some base => some (if base = "" then attr else base ++ "." ++ attr)
    | none => some attr
  | .call _ func _ _ => decoratorName func
  | _ => none

/-- `_decorator_names`. -/
def decoratorNames (decorators : List Node) : List String :=
  (decorators.filterMap decoratorName).filter (· ≠ "")

/-- `_SurfaceCandidate`. -/
structure SurfaceCandidate where
  entry : APISurfaceEntry
  preserveSignatureDuplicates : Bool := false

/-- `_candidate`. -/
def candidate (fqn kind : String) (signature : Option String) (leafName : String)
    (decorators : List String) (preserveSignatureDuplicates : Bool) : SurfaceCandidate where
  entry :=
    { fqn := fqn
      kind := kind
      signature := signature
      visibility := some (visibilityForLeafName leafName)
      decorators := decorators }
  preserveSignatureDuplicates := preserveSignatureDuplicates

/-- The candidate of a function below `owner`, under one of the two kinds. -/
def functionCandidates (lib : Stdlib) (owner asyncKind kind : String) (stmt : Node) :
    List SurfaceCandidate :=
  match stmt with
  | .functionDef _ isAsync name _ _ decoratorList _ _ =>
    [candidate (joinFqn [owner, name]) (if isAsync then asyncKind else kind)
      (some (lib.unparse (stripped stmt))) name (decoratorNames decoratorList)
      (decoratorList.any isOverloadDecorator)]
  | _ => []

/-- `_extract_class_methods`. -/
def extractClassMethods (lib : Stdlib) (classFqn : String) (body : List Node) :
    List SurfaceCandidate :=
  body.flatMap (functionCandidates lib classFqn "async_method" "method")

/-- `_constant_targets`. -/
def constantTargets : Node → List String
  | .assign _ targets _ => targets.filterMap fun
    | .name _ id => some id
    | _ => none
  | .annAssign _ (.name _ id) _ (some _) => [id]
  | _ => []

/-- `_extract_constants`. -/
def extractConstants (lib : Stdlib) (moduleFqn : String) (stmt : Node) : List SurfaceCandidate :=
  ((constantTargets stmt).filter fun id => lib.isupper id).map fun id =>
    candidate (joinFqn [moduleFqn, id]) "constant" none id [] false

/-- The body of the loop of `extract_python_api_surface`. -/
def surfaceCandidates (lib : Stdlib) (moduleFqn : String) (stmt : Node) : List SurfaceCandidate :=
  match stmt with
  | .functionDef .. => functionCandidates lib moduleFqn "async_function" "function" stmt
  | .classDef _ name _ _ body decoratorList _ =>
    let classFqn := joinFqn [moduleFqn, name]
    candidate classFqn "class" (some (lib.unparse (stripped stmt))) name
        (decoratorNames decoratorList) false ::
      extractClassMethods lib classFqn body
  | _ => extractConstants lib moduleFqn stmt

/-- `_dedupe_key`. -/
def dedupeKey (c : SurfaceCandidate) : List String :=
  if c.preserveSignatureDuplicates then
    [c.entry.fqn, c.entry.kind, c.entry.signature.getD "", c.entry.visibility.getD ""]
  else [c.entry.fqn, c.entry.kind]

/-- `_sort_entries`. -/
def sortSurfaceEntries (entries : List APISurfaceEntry) : List APISurfaceEntry :=
  let sortKey := fun (entry : APISurfaceEntry) =>
    (toLex (entry.fqn, toLex (entry.kind, entry.signature.getD "")) :
      String ×ₗ String ×ₗ String)
  entries.insertionSort fun a b => sortKey a ≤ sortKey b

/-- `extract_python_api_surface`. -/
def extractPythonApiSurface (lib : Stdlib) (moduleFqn : String) (tree : Node) :
    List APISurfaceEntry :=
  let candidates := (iterModuleScopeStatements (moduleBody tree)).flatMap
    (surfaceCandidates lib moduleFqn)
  sortSurfaceEntries ((indexBy dedupeKey candidates).values.map (·.entry))

/-- The loop of `extract_python_api_surface_from_paths`. -/
def apiSurfaceOfFiles (lib : Stdlib) (root : Root) (files : List SourceFile) :
    List APISurfaceEntry :=
  sortSurfaceEntries (files.flatMap fun file =>
    extractPythonApiSurface lib (moduleFqnFromPath root file.path) file.tree)

/-- `extract_python_api_surface_from_paths`. -/
def extractPythonApiSurfaceFromPaths (lib : Stdlib) (root : Root) (paths : List SourceFile) :
    List APISurfaceEntry :=
  apiSurfaceOfFiles lib root (expandPythonPaths root paths)

end SemanticCi.Extraction
