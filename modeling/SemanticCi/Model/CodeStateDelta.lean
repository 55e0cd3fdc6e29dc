import SemanticCi.Library.OrderedDict
import SemanticCi.Model.StateSchema
import Mathlib.Data.Prod.Lex

/-! The delta of two code states: keyed differences of the record collections and the sums
over the complexity records. -/

namespace SemanticCi.Delta

open SemanticCi.Python SemanticCi.StateSchema OrderedDict

/-! ## Keys -/

/-- `(fqn, kind)`. -/
def apiKey (entry : APISurfaceEntry) : String ×ₗ String := toLex (entry.fqn, entry.kind)

def apiVariantKey (entry : APISurfaceEntry) : String ×ₗ String ×ₗ String ×ₗ String :=
  toLex (entry.fqn, toLex (entry.kind,
    toLex (entry.signature.getD "", entry.visibility.getD "")))

/-- `_effect_resolved_call`. -/
def effectResolvedCall (entry : EffectEntry) : String :=
  match entry.evidence with
  | .object items =>
      match JsonValue.get? items "resolved_call" with
      | some (.str resolvedCall) => resolvedCall
      | _ => ""
  | _ => ""

def effectKey (entry : EffectEntry) : String ×ₗ String ×ₗ String :=
  toLex (entry.fqn, toLex (entry.effectClass.value, effectResolvedCall entry))

def importKey (entry : ImportEntry) : String ×ₗ String ×ₗ List String :=
  toLex (entry.module,
    toLex (entry.from_.getD "", entry.symbols.insertionSort fun a b => a ≤ b))

def complexityKey (entry : ComplexityEntry) : String := entry.fqn

def testSurfaceKey (entry : TestSurfaceEntry) : String ×ₗ String :=
  toLex (entry.testFile, entry.testFunction)

def testCaseId (entry : TestSurfaceEntry) : String := entry.testFile ++ "::" ++ entry.testFunction

def moduleEdges (entries : List ModuleGraphEntry) : List (String ×ₗ String) :=
  entries.flatMap fun entry => entry.imports.map fun imported => toLex (entry.module, imported)

/-! ## API surface -/

/-- `_api_variant_dump`: the record without its decorators. -/
def apiVariantDump (entry : APISurfaceEntry) : JsonValue :=
  .object (entry.dump.filter fun item => item.1 ≠ "decorators")

def sortApiEntries (entries : List APISurfaceEntry) : List APISurfaceEntry :=
  entries.insertionSort fun a b => apiVariantKey a ≤ apiVariantKey b

/-- What `_api_group_dumps` compares: a dump shows everything but the decorators. -/
def apiGroupShape (entries : List APISurfaceEntry) :
    List (String × String × Option String × Option String) :=
  (sortApiEntries entries).map fun e => (e.fqn, e.kind, e.signature, e.visibility)

def apiChangedPayload (entries : List APISurfaceEntry) (forceList : Bool) : JsonValue :=
  match forceList, (sortApiEntries entries).map apiVariantDump with
  | false, dump :: _ => dump
  | _, dumps => .array dumps

def apiChangedEntry (key : String ×ₗ String) (baseline candidate : List APISurfaceEntry) :
    JsonValue :=
  let forceList := baseline.length ≠ 1 ∨ candidate.length ≠ 1
  .object [("fqn", .str (ofLex key).1), ("kind", .str (ofLex key).2),
    ("before", apiChangedPayload baseline forceList),
    ("after", apiChangedPayload candidate forceList)]

def apiSurfaceDelta (baseline candidate : List APISurfaceEntry) : SymbolDelta :=
  let base := groupBy apiKey baseline
  let cand := groupBy apiKey candidate
  { added := (missingValues cand base).flatMap fun group =>
      (sortApiEntries group).map apiVariantDump
    removed := (missingValues base cand).flatMap fun group =>
      (sortApiEntries group).map apiVariantDump
    changed := (sortedCommonKeys base cand).filterMap fun key =>
      let before := (base.get? key).getD []
      let after := (cand.get? key).getD []
      if apiGroupShape before ≠ apiGroupShape after then
        some (apiChangedEntry key before after)
      else none }

/-! ## Decorators -/

def publicDecoratorPairs (entries : List APISurfaceEntry) : List (String ×ₗ String) :=
  (entries.filter fun entry => entry.visibility = some "public").flatMap fun entry =>
    entry.decorators.map fun decorator => toLex (entry.fqn, decorator)

/-- `decorator.rsplit(".", maxsplit=1)[-1]`. -/
def decoratorLeaf (decorator : String) : String :=
  String.ofList (decorator.toList.reverse.takeWhile (· ≠ '.')).reverse

def decoratorRecord (pair : String ×ₗ String) : JsonValue :=
  .object [("fqn", .str (ofLex pair).1), ("decorator", .str (ofLex pair).2),
    ("decorator_leaf", .str (decoratorLeaf (ofLex pair).2))]

def decoratorsDelta (baseline candidate : List APISurfaceEntry) : SymbolDelta where
  added := (sortedDifference (publicDecoratorPairs candidate)
    (publicDecoratorPairs baseline)).map decoratorRecord
  removed := (sortedDifference (publicDecoratorPairs baseline)
    (publicDecoratorPairs candidate)).map decoratorRecord

/-! ## Effects, imports, complexity and tests -/

def effectChanges (baseline candidate : List EffectEntry) : EffectChanges :=
  let base := indexBy effectKey baseline
  let cand := indexBy effectKey candidate
  { added := (missingValues cand base).map fun entry => .object entry.dump
    removed := (missingValues base cand).map fun entry => .object entry.dump }

def importsDelta (baseline candidate : List ImportEntry) : ImportDelta :=
  let base := indexBy importKey baseline
  let cand := indexBy importKey candidate
  { added := (missingValues cand base).map fun entry => .object entry.dumpByAlias
    removed := (missingValues base cand).map fun entry => .object entry.dumpByAlias }

/-- `_sum_complexity`. -/
def sumComplexity (field : ComplexityEntry → Option ℤ) (entries : List ComplexityEntry) : ℤ :=
  (entries.map fun entry => (field entry).getD 0).sum

def complexityDelta (baseline candidate : List ComplexityEntry) : ComplexityDelta where
  cyclomatic := sumComplexity (·.cyclomatic) candidate - sumComplexity (·.cyclomatic) baseline
  cognitive := sumComplexity (·.cognitive) candidate - sumComplexity (·.cognitive) baseline

def testSurfaceDelta (baseline candidate : List TestSurfaceEntry) : TestSurfaceDelta where
  newFiles := sortedDifference (candidate.map (·.testFile)) (baseline.map (·.testFile))
  newCases := sortedDifference (candidate.map testCaseId) (baseline.map testCaseId)
  removedCases := sortedDifference (baseline.map testCaseId) (candidate.map testCaseId)

/-! ## Details under `python_specific` -/

def edgeValue (edge : String ×ₗ String) : JsonValue :=
  .array [.str (ofLex edge).1, .str (ofLex edge).2]

def moduleGraphDelta (baseline candidate : List ModuleGraphEntry) : Option JsonMapping :=
  let addedEdges := sortedDifference (moduleEdges candidate) (moduleEdges baseline)
  let removedEdges := sortedDifference (moduleEdges baseline) (moduleEdges candidate)
  if addedEdges = [] ∧ removedEdges = [] then none
  else some [("added_edges", .array (addedEdges.map edgeValue)),
    ("removed_edges", .array (removedEdges.map edgeValue))]

/-- The records of both sides under the keys they share, where `differs`. -/
def changedPairs {K T : Type} [DecidableEq K] [LE K] [DecidableLE K] (base cand : OrderedDict K T)
    (differs : T → T → Bool) : List (T × T) :=
  (sortedCommonKeys base cand).filterMap fun key =>
    match base.get? key, cand.get? key with
    | some before, some after => if differs before after then some (before, after) else none
    | _, _ => none

def complexityChanges (baseline candidate : List ComplexityEntry) : Option JsonMapping :=
  let base := indexBy complexityKey baseline
  let cand := indexBy complexityKey candidate
  let added := missingValues cand base
  let removed := missingValues base cand
  let changed := changedPairs base cand fun before after =>
    before.cyclomatic ≠ after.cyclomatic ∨ before.cognitive ≠ after.cognitive
  if added = [] ∧ removed = [] ∧ changed = [] then none
  else some [("added", records ComplexityEntry.dump added),
    ("removed", records ComplexityEntry.dump removed),
    ("changed", .array (changed.map fun (before, after) => .object
      [("fqn", .str before.fqn), ("before", .object before.dump),
        ("after", .object after.dump)]))]

def testSurfaceChanges (baseline candidate : List TestSurfaceEntry) : Option JsonMapping :=
  let base := indexBy testSurfaceKey baseline
  let cand := indexBy testSurfaceKey candidate
  let changed := changedPairs base cand fun before after =>
    before.asserts ≠ after.asserts ∨ before.parametrizeCount ≠ after.parametrizeCount
  if changed = [] then none
  else some [("changed", .array (changed.map fun (before, after) => .object
    [("test_file", .str before.testFile), ("test_function", .str before.testFunction),
      ("before", .object before.dump), ("after", .object after.dump)]))]

/-- `_build_python_specific`: the details that are not empty, in a fixed order. -/
def buildPythonSpecific (baseline candidate : CodeState) : Option JsonMapping :=
  let detail := fun (name : String) (value : Option JsonMapping) =>
    (value.map fun items => (name, JsonValue.object items)).toList
  let details := detail "module_graph_delta"
      (moduleGraphDelta baseline.moduleGraph candidate.moduleGraph) ++
    detail "complexity_changes" (complexityChanges baseline.complexity candidate.complexity) ++
    detail "test_surface_changes"
      (testSurfaceChanges baseline.testSurface candidate.testSurface)
  if details = [] then none else some details

/-! ## The whole delta -/

def computeCodeStateDelta (baseline candidate : CodeState) : CodeStateDelta where
  apiSurfaceDelta := apiSurfaceDelta baseline.apiSurface candidate.apiSurface
  decoratorsDelta := decoratorsDelta baseline.apiSurface candidate.apiSurface
  effectChanges := effectChanges baseline.effects candidate.effects
  importsDelta := importsDelta baseline.imports candidate.imports
  complexityDelta := complexityDelta baseline.complexity candidate.complexity
  testSurfaceDelta := testSurfaceDelta baseline.testSurface candidate.testSurface
  pythonSpecific := buildPythonSpecific baseline candidate

end SemanticCi.Delta
