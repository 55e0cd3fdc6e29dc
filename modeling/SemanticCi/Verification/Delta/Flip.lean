import SemanticCi.Verification.Delta.Computed

/-! Swapping the two states flips the delta. -/

namespace SemanticCi.Delta

open SemanticCi.Python SemanticCi.StateSchema OrderedDict

/-! ### The flip of a delta -/

/-- Exchange the values of two fields. -/
def swapFields (a b : String) (items : JsonMapping) : JsonMapping :=
  items.map fun item =>
    if item.1 = a then (a, (JsonValue.get? items b).getD .null)
    else if item.1 = b then (b, (JsonValue.get? items a).getD .null)
    else item

def flipRecord : JsonValue → JsonValue
  | .object items => .object (swapFields "before" "after" items)
  | value => value

def flipRecords : JsonValue → JsonValue
  | .array items => .array (items.map flipRecord)
  | value => value

/-- The flip of one `python_specific` detail. -/
def flipDetail (items : JsonMapping) : JsonMapping :=
  (swapFields "added_edges" "removed_edges" (swapFields "added" "removed" items)).map
    fun item => (item.1, if item.1 = "changed" then flipRecords item.2 else item.2)

def flipDetailValue : JsonValue → JsonValue
  | .object items => .object (flipDetail items)
  | value => value

def flipSymbolDelta (d : SymbolDelta) : SymbolDelta where
  added := d.removed
  removed := d.added
  changed := d.changed.map flipRecord

/-- `d'` is `d` seen from the other state. There is no list of removed test files, so the
new ones have no counterpart. -/
structure Flips (d d' : CodeStateDelta) : Prop where
  apiSurface : d'.apiSurfaceDelta = flipSymbolDelta d.apiSurfaceDelta
  decorators : d'.decoratorsDelta = flipSymbolDelta d.decoratorsDelta
  effects : d'.effectChanges = ⟨d.effectChanges.removed, d.effectChanges.added⟩
  imports : d'.importsDelta = ⟨d.importsDelta.removed, d.importsDelta.added⟩
  complexity : d'.complexityDelta =
    ⟨-d.complexityDelta.cyclomatic, -d.complexityDelta.cognitive⟩
  newCases : d'.testSurfaceDelta.newCases = d.testSurfaceDelta.removedCases
  removedCases : d'.testSurfaceDelta.removedCases = d.testSurfaceDelta.newCases
  details : d'.pythonSpecific =
    d.pythonSpecific.map fun items => items.map fun item => (item.1, flipDetailValue item.2)
  subkeys : ∀ name, (d'.pythonSpecific.bind (JsonValue.get? · name)).isSome =
    (d.pythonSpecific.bind (JsonValue.get? · name)).isSome

/-! ### API surface and decorators -/

theorem apiChangedEntry_flip (key : String ×ₗ String) (b c : List APISurfaceEntry) :
    apiChangedEntry key c b = flipRecord (apiChangedEntry key b c) := by
  have hforce : (decide (c.length ≠ 1 ∨ b.length ≠ 1)) = decide (b.length ≠ 1 ∨ c.length ≠ 1) := by
    simp only [or_comm]
  simp [apiChangedEntry, flipRecord, swapFields, JsonValue.get?, hforce]

theorem apiSurfaceDelta_flip (b c : List APISurfaceEntry) :
    apiSurfaceDelta c b = flipSymbolDelta (apiSurfaceDelta b c) := by
  have hchanged : (apiSurfaceDelta c b).changed =
      (apiSurfaceDelta b c).changed.map flipRecord := by
    simp only [apiSurfaceDelta, List.map_filterMap]
    rw [sortedCommonKeys_comm]
    refine List.filterMap_congr fun key _ => ?_
    by_cases hdiff : apiGroupShape (((groupBy apiKey b).get? key).getD []) =
        apiGroupShape (((groupBy apiKey c).get? key).getD [])
    · rw [if_neg (not_not_intro hdiff), if_neg (not_not_intro hdiff.symm)]
      rfl
    · rw [if_pos hdiff, if_pos (Ne.symm hdiff), apiChangedEntry_flip]
      rfl
  rw [flipSymbolDelta, ← hchanged]
  rfl

theorem decoratorsDelta_flip (b c : List APISurfaceEntry) :
    decoratorsDelta c b = flipSymbolDelta (decoratorsDelta b c) := rfl

/-! ### Complexity -/

theorem complexityDelta_flip (b c : List ComplexityEntry) :
    complexityDelta c b =
      ⟨-(complexityDelta b c).cyclomatic, -(complexityDelta b c).cognitive⟩ := by
  simp only [complexityDelta, Int.neg_sub]

/-! ### Details under `python_specific` -/

theorem moduleGraphDelta_flip (b c : List ModuleGraphEntry) :
    moduleGraphDelta c b = (moduleGraphDelta b c).map flipDetail := by
  simp only [moduleGraphDelta]
  by_cases hempty : sortedDifference (moduleEdges c) (moduleEdges b) = [] ∧
      sortedDifference (moduleEdges b) (moduleEdges c) = []
  · rw [if_pos hempty, if_pos hempty.symm]
    rfl
  · rw [if_neg hempty, if_neg fun h => hempty h.symm]
    simp [flipDetail, swapFields, JsonValue.get?]

section ChangedPairs

variable {K T : Type} [DecidableEq K] [LE K] [DecidableLE K] [Std.Total fun a b : K => a ≤ b]
  [IsTrans K fun a b => a ≤ b] [Std.Antisymm fun a b : K => a ≤ b]

theorem changedPairs_flip (base cand : OrderedDict K T) {differs : T → T → Bool}
    (hsymm : ∀ x y, differs x y = differs y x) :
    changedPairs cand base differs = (changedPairs base cand differs).map Prod.swap := by
  simp only [changedPairs, List.map_filterMap]
  rw [sortedCommonKeys_comm]
  refine List.filterMap_congr fun key _ => ?_
  cases hbase : base.get? key with
  | none => cases cand.get? key <;> rfl
  | some before =>
    cases hcand : cand.get? key with
    | none => rfl
    | some after =>
      simp only [hsymm after before]
      split <;> rfl

end ChangedPairs

/-- The two records of a changed pair share their key. -/
theorem key_eq_of_mem_changedPairs {K T : Type} [DecidableEq K] [LE K] [DecidableLE K]
    {key : T → K} {left right : List T} {differs : T → T → Bool} {pair : T × T}
    (h : pair ∈ changedPairs (indexBy key left) (indexBy key right) differs) :
    key pair.1 = key pair.2 := by
  obtain ⟨k, -, hk⟩ := List.mem_filterMap.mp h
  rw [get?_indexBy, get?_indexBy] at hk
  cases hleft : left.find? fun r => key r = k with
  | none => simp [hleft] at hk
  | some before =>
    cases hright : right.find? fun r => key r = k with
    | none => simp [hleft, hright] at hk
    | some after =>
      have hbefore : key before = k := by simpa using List.find?_some hleft
      have hafter : key after = k := by simpa using List.find?_some hright
      simp only [hleft, hright] at hk
      split at hk
      · cases hk
        rw [hbefore, hafter]
      · cases hk

theorem changedRecords_flip {T : Type} {changed : List (T × T)} {record : T × T → JsonValue}
    (h : ∀ pair ∈ changed, record pair.swap = flipRecord (record pair)) :
    (changed.map Prod.swap).map record = (changed.map record).map flipRecord := by
  rw [List.map_map, List.map_map]
  exact List.map_congr_left h

theorem complexityChanges_flip (b c : List ComplexityEntry) :
    complexityChanges c b = (complexityChanges b c).map flipDetail := by
  have hpairs := @changedPairs_flip _ _ _ _ _ _ _ _ (indexBy complexityKey b)
    (indexBy complexityKey c) (fun before after =>
      before.cyclomatic ≠ after.cyclomatic ∨ before.cognitive ≠ after.cognitive)
    (fun x y => by simp only [ne_comm])
  unfold complexityChanges
  simp only [hpairs]
  have hsame := @key_eq_of_mem_changedPairs _ _ _ _ _ complexityKey b c fun before after =>
    before.cyclomatic ≠ after.cyclomatic ∨ before.cognitive ≠ after.cognitive
  generalize missingValues (indexBy complexityKey c) (indexBy complexityKey b) = added
  generalize missingValues (indexBy complexityKey b) (indexBy complexityKey c) = removed
  generalize changedPairs (indexBy complexityKey b) (indexBy complexityKey c) _ = changed at *
  by_cases hempty : added = [] ∧ removed = [] ∧ changed = []
  · obtain ⟨rfl, rfl, rfl⟩ := hempty
    rfl
  · have hswapped : ¬(removed = [] ∧ added = [] ∧ changed.map Prod.swap = []) := by
      simpa [and_left_comm] using hempty
    rw [if_neg hempty, if_neg hswapped, changedRecords_flip]
    · simp [flipDetail, swapFields, JsonValue.get?, flipRecords]
    · intro pair hpair
      have hfqn : pair.1.fqn = pair.2.fqn := @hsame pair hpair
      simp [flipRecord, swapFields, JsonValue.get?, hfqn]

theorem testSurfaceChanges_flip (b c : List TestSurfaceEntry) :
    testSurfaceChanges c b = (testSurfaceChanges b c).map flipDetail := by
  have hpairs := @changedPairs_flip _ _ _ _ _ _ _ _ (indexBy testSurfaceKey b)
    (indexBy testSurfaceKey c) (fun before after =>
      before.asserts ≠ after.asserts ∨ before.parametrizeCount ≠ after.parametrizeCount)
    (fun x y => by simp only [ne_comm])
  unfold testSurfaceChanges
  simp only [hpairs]
  have hsame := @key_eq_of_mem_changedPairs _ _ _ _ _ testSurfaceKey b c fun before after =>
    before.asserts ≠ after.asserts ∨ before.parametrizeCount ≠ after.parametrizeCount
  generalize changedPairs (indexBy testSurfaceKey b) (indexBy testSurfaceKey c) _ = changed at *
  by_cases hempty : changed = []
  · subst hempty
    rfl
  · have hswapped : changed.map Prod.swap ≠ [] := by simpa using hempty
    rw [if_neg hempty, if_neg hswapped, changedRecords_flip]
    · simp [flipDetail, swapFields, JsonValue.get?, flipRecords]
    · intro pair hpair
      have hkey := Prod.mk.inj (toLex.injective (@hsame pair hpair))
      simp [flipRecord, swapFields, JsonValue.get?, hkey.1, hkey.2]

theorem detailItem_flip (name : String) (value : Option JsonMapping) :
    detailItem name (value.map flipDetail) =
      (detailItem name value).map fun item => (item.1, flipDetailValue item.2) := by
  cases value <;> rfl

theorem details_flip (b c : CodeState) :
    details c b = (details b c).map fun item => (item.1, flipDetailValue item.2) := by
  simp only [details, moduleGraphDelta_flip b.moduleGraph, complexityChanges_flip b.complexity,
    testSurfaceChanges_flip b.testSurface, detailItem_flip, List.map_append]

theorem buildPythonSpecific_flip (b c : CodeState) :
    buildPythonSpecific c b = (buildPythonSpecific b c).map fun items =>
      items.map fun item => (item.1, flipDetailValue item.2) := by
  rw [buildPythonSpecific_eq, buildPythonSpecific_eq, details_flip]
  by_cases hempty : details b c = []
  · simp [hempty]
  · simp [hempty]

theorem get?_map_isSome (items : JsonMapping) (f : JsonValue → JsonValue) (name : String) :
    (JsonValue.get? (items.map fun item => (item.1, f item.2)) name).isSome =
      (JsonValue.get? items name).isSome := by
  simp [JsonValue.get?, List.find?_map, Function.comp_def]

/-! ### The whole delta -/

theorem computeCodeStateDelta_flips (b c : CodeState) :
    Flips (computeCodeStateDelta b c) (computeCodeStateDelta c b) where
  apiSurface := apiSurfaceDelta_flip ..
  decorators := decoratorsDelta_flip ..
  effects := rfl
  imports := rfl
  complexity := complexityDelta_flip ..
  newCases := rfl
  removedCases := rfl
  details := buildPythonSpecific_flip b c
  subkeys := by
    intro name
    simp only [computeCodeStateDelta, buildPythonSpecific_flip b c]
    cases buildPythonSpecific b c with
    | none => rfl
    | some items => exact get?_map_isSome items flipDetailValue name

/-- A state does not differ from itself, and swapping two states flips their delta. -/
theorem computeCodeStateDelta_antisymmetric :
    (∀ s, computeCodeStateDelta s s = {}) ∧
      ∀ b c, Flips (computeCodeStateDelta b c) (computeCodeStateDelta c b) :=
  ⟨computeCodeStateDelta_self, computeCodeStateDelta_flips⟩

end SemanticCi.Delta
