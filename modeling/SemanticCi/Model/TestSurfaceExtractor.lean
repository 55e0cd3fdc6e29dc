import SemanticCi.Model.ComplexityExtractor
import Mathlib.Data.Prod.Lex

/-! The tests of a module under pytest's naming convention
(`test_surface/python_test_surface_extractor.py`). -/

namespace SemanticCi.Extraction

open SemanticCi.Python SemanticCi.Python.Ast SemanticCi.StateSchema OrderedDict

/-- What a node adds to `_AssertCounter.value`. -/
def assertHere : Node → ℕ
  | .assert .. => 1
  | _ => 0

/-- The nodes that `_AssertCounter` visits from a node. -/
def assertNext : Node → List Node
  | .functionDef .. => []
  | .classDef .. => []
  | .assert .. => []
  | n => n.children

theorem mem_children_of_mem_assertNext {c n : Node} (h : c ∈ assertNext n) : c ∈ n.children := by
  cases n with
  | functionDef => simp [assertNext] at h
  | classDef => simp [assertNext] at h
  | assert => simp [assertNext] at h
  | _ => exact h

/-- `_AssertCounter`. -/
def assertCounter : Visitor Unit Node ℕ where
  here _ n := [assertHere n]
  next _ n := (assertNext n).map fun c => ((), c)
  descends := by
    intro _ n step hstep
    obtain ⟨c, hc, rfl⟩ := List.mem_map.mp hstep
    exact Node.sizeOf_lt_of_mem_children (mem_children_of_mem_assertNext hc)

/-- `_count_asserts`. -/
def countAsserts (body : List Node) : ℕ := (body.flatMap (assertCounter.run ())).sum

/-- `_is_parametrize_func`. -/
def isParametrizeFunc : Node → Bool
  | .name _ id => id = "parametrize"
  | .attributeRef _ _ attr => attr = "parametrize"
  | _ => false

/-- The value of `argvalues=`. -/
def argvaluesKeyword : Node → Option Node
  | .keyword _ (some "argvalues") value => some value
  | _ => none

/-- `_argvalues_argument`. -/
def argvaluesArgument (args keywords : List Node) : Option Node :=
  match args[1]? with
  | some argvalues => some argvalues
  | none => keywords.findSome? argvaluesKeyword

/-- `_static_case_count`. -/
def staticCaseCount : Node → Option ℕ
  | .list _ elts => some elts.length
  | .tuple _ elts => some elts.length
  | _ => none

/-- The case count of a decorator: nothing for another decorator, `some none` for one whose
cases are not known. -/
def decoratorCases : Node → Option (Option ℕ)
  | .call _ func args keywords =>
    if isParametrizeFunc func then some ((argvaluesArgument args keywords).bind staticCaseCount)
    else none
  | _ => none

/-- `_parametrize_count`. -/
def parametrizeCount (decoratorList : List Node) : Option ℕ :=
  match (decoratorList.filterMap decoratorCases).mapM id with
  | none => none
  | some [] => none
  | some counts => some counts.prod

/-- `_entry_for_test`, of a function whose name starts with `test_`. -/
def testEntries (testFile owner : String) : Node → List TestSurfaceEntry
  | .functionDef _ _ name _ body decoratorList _ _ =>
    if "test_".toList.isPrefixOf name.toList then
      [{ testFile := testFile
         testFunction := owner ++ name
         asserts := some (countAsserts body)
         parametrizeCount := (parametrizeCount decoratorList).map fun count => (count : ℤ) }]
    else []
  | _ => []

/-- The body of the loop of `extract_python_test_surface`. -/
def definitionTests (testFile : String) : Node → List TestSurfaceEntry
  | .classDef _ name _ _ body _ _ =>
    if "Test".toList.isPrefixOf name.toList then
      body.flatMap (testEntries testFile (name ++ "::"))
    else []
  | stmt => testEntries testFile "" stmt

/-- `_stable_entries`. -/
def stableTestEntries (entries : List TestSurfaceEntry) : List TestSurfaceEntry :=
  let testKey := fun (entry : TestSurfaceEntry) =>
    (toLex (entry.testFile, entry.testFunction) : String ×ₗ String)
  (indexBy testKey entries).values.insertionSort fun a b => testKey a ≤ testKey b

/-- `extract_python_test_surface`. -/
def extractPythonTestSurface (testFile : String) (tree : Node) : List TestSurfaceEntry :=
  stableTestEntries
    ((iterModuleScopeDefinitions (moduleBody tree)).flatMap (definitionTests testFile))

/-- The loop of `extract_python_test_surface_from_paths`: a test file is named relative to the
root. -/
def testSurfaceOfFiles (files : List SourceFile) : List TestSurfaceEntry :=
  stableTestEntries (files.flatMap fun file =>
    extractPythonTestSurface file.path.text file.tree)

/-- `extract_python_test_surface_from_paths`. -/
def extractPythonTestSurfaceFromPaths (root : Root) (paths : List SourceFile) :
    List TestSurfaceEntry :=
  testSurfaceOfFiles (expandPythonPaths root paths)

end SemanticCi.Extraction
