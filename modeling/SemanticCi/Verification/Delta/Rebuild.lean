import Mathlib.Data.Multiset.AddSub
import SemanticCi.Verification.Delta.Computed

/-! A delta applied to its baseline gives back the candidate, up to what the keys ignore. -/

namespace SemanticCi.Delta

open SemanticCi.Python SemanticCi.StateSchema OrderedDict

/-! ### Reading a delta -/

/-- `(fqn, kind, signature, visibility)`. -/
abbrev Variant := String × String × Option String × Option String

def variant (entry : APISurfaceEntry) : Variant :=
  (entry.fqn, entry.kind, entry.signature, entry.visibility)

def readString : Option JsonValue → Option String
  | some (.str text) => some text
  | _ => none

def readField (value : JsonValue) (name : String) : Option JsonValue :=
  match value with
  | .object items => JsonValue.get? items name
  | _ => none

def readText (value : JsonValue) (name : String) : String :=
  (readString (readField value name)).getD ""

def readArray : Option JsonValue → List JsonValue
  | some (.array items) => items
  | _ => []

def readVariant (value : JsonValue) : Variant :=
  (readText value "fqn", readText value "kind", readString (readField value "signature"),
    readString (readField value "visibility"))

/-- A payload is one record or a list of records. -/
def payloadVariants : Option JsonValue → List Variant
  | some (.array items) => items.map readVariant
  | some value => [readVariant value]
  | none => []

def changedVariants (side : String) (changed : List JsonValue) : List Variant :=
  changed.flatMap fun value => payloadVariants (readField value side)

/-- `(fqn, kind)` of a variant. -/
def groupOf (v : Variant) : String ×ₗ String := toLex (v.1, v.2.1)

def readGroup (value : JsonValue) : String ×ₗ String :=
  toLex (readText value "fqn", readText value "kind")

def readEffectKey (value : JsonValue) : String ×ₗ String ×ₗ String :=
  toLex (readText value "fqn", toLex (readText value "effect_class",
    (readField ((readField value "evidence").getD .null) "resolved_call" |> readString).getD ""))

def readImportKey (value : JsonValue) : String ×ₗ String ×ₗ List String :=
  toLex (readText value "module", toLex (readText value "from",
    ((readArray (readField value "symbols")).filterMap fun s => readString (some s)).insertionSort
      fun a b => a ≤ b))

def readEdge : JsonValue → Option (String ×ₗ String)
  | .array [.str source, .str target] => some (toLex (source, target))
  | _ => none

/-- The edges under `python_specific.module_graph_delta`. -/
def deltaEdges (side : String) (d : CodeStateDelta) : List (String ×ₗ String) :=
  (readArray (d.pythonSpecific.bind fun items =>
    (JsonValue.get? items "module_graph_delta").bind fun detail => readField detail side)).filterMap
      readEdge

/-! ### Replaying it -/

/-- The keys of a list of records. -/
def keySet {T K : Type} (key : T → K) (records : List T) : Set K := {k | ∃ r ∈ records, key r = k}

/-- The keys after the change are those before it without the removed and with the added
ones, and nothing is both. -/
structure Replays {K : Type} (before after added removed : Set K) : Prop where
  rebuilt : after = before \ removed ∪ added
  disjoint : Disjoint added removed

/-- The delta carries all that separates the states `b` and `c`. -/
structure Rebuilds (b c : CodeState) (d : CodeStateDelta) : Prop where
  variants : (↑(c.apiSurface.map variant) : Multiset Variant) =
    ↑(b.apiSurface.map variant) - ↑(d.apiSurfaceDelta.removed.map readVariant) -
      ↑(changedVariants "before" d.apiSurfaceDelta.changed) +
      ↑(changedVariants "after" d.apiSurfaceDelta.changed) +
      ↑(d.apiSurfaceDelta.added.map readVariant)
  groups : Disjoint (keySet readGroup d.apiSurfaceDelta.added)
    (keySet readGroup d.apiSurfaceDelta.removed)
  changedGroups : Disjoint (keySet readGroup d.apiSurfaceDelta.changed)
    (keySet readGroup d.apiSurfaceDelta.added ∪ keySet readGroup d.apiSurfaceDelta.removed)
  effects : Replays (keySet effectKey b.effects) (keySet effectKey c.effects)
    (keySet readEffectKey d.effectChanges.added) (keySet readEffectKey d.effectChanges.removed)
  imports : Replays (keySet importKey b.imports) (keySet importKey c.imports)
    (keySet readImportKey d.importsDelta.added) (keySet readImportKey d.importsDelta.removed)
  tests : Replays (keySet testCaseId b.testSurface) (keySet testCaseId c.testSurface)
    (keySet id d.testSurfaceDelta.newCases) (keySet id d.testSurfaceDelta.removedCases)
  edges : Replays {edge | edge ∈ moduleEdges b.moduleGraph} {edge | edge ∈ moduleEdges c.moduleGraph}
    {edge | edge ∈ deltaEdges "added_edges" d} {edge | edge ∈ deltaEdges "removed_edges" d}

/-! ### Dumps are read back -/

@[simp] theorem readString_str (text : String) : readString (some (.str text)) = some text := rfl

@[simp] theorem readString_ofOption (text : Option String) :
    readString (some (.ofOption .str text)) = text := by
  cases text <;> rfl

theorem readVariant_apiVariantDump (entry : APISurfaceEntry) :
    readVariant (apiVariantDump entry) = variant entry := by
  simp [readVariant, readText, readField, apiVariantDump, APISurfaceEntry.dump, JsonValue.get?,
    variant]

theorem readGroup_apiVariantDump (entry : APISurfaceEntry) :
    readGroup (apiVariantDump entry) = apiKey entry := by
  simp [readGroup, readText, readField, apiVariantDump, APISurfaceEntry.dump, JsonValue.get?,
    apiKey]

theorem readGroup_apiChangedEntry (key : String ×ₗ String) (b c : List APISurfaceEntry) :
    readGroup (apiChangedEntry key b c) = key := by
  simp [readGroup, readText, readField, apiChangedEntry, JsonValue.get?]

theorem readEffectKey_dump (entry : EffectEntry) :
    readEffectKey (.object entry.dump) = effectKey entry := by
  have hcall : (readString (readField entry.evidence "resolved_call")).getD "" =
      effectResolvedCall entry := by
    rw [effectResolvedCall]
    cases entry.evidence with
    | object items =>
      simp only [readField]
      cases JsonValue.get? items "resolved_call" with
      | none => rfl
      | some value => cases value <;> rfl
    | _ => rfl
  rw [effectKey, ← hcall]
  simp [readEffectKey, readText, readField, EffectEntry.dump, JsonValue.get?]

theorem readImportKey_dump (entry : ImportEntry) :
    readImportKey (.object entry.dumpByAlias) = importKey entry := by
  have hsymbols : (fun s => readString (some s)) ∘ JsonValue.str = some := rfl
  simp [readImportKey, readText, readField, ImportEntry.dumpByAlias, JsonValue.get?, importKey,
    readArray, JsonValue.strings, List.filterMap_map, hsymbols]

/-! ### API surface -/

theorem groupOf_mem_shape {entries : List APISurfaceEntry} {key : String ×ₗ String} {v : Variant}
    (h : v ∈ apiGroupShape (entries.filter fun e => apiKey e = key)) : groupOf v = key := by
  obtain ⟨e, he, rfl⟩ := List.mem_map.mp h
  have hmem := (sortApiEntries_perm _).mem_iff.mp he
  exact of_decide_eq_true (List.mem_filter.mp hmem).2

/-- The variants under one key, counted in the sorted group. -/
theorem count_shape (entries : List APISurfaceEntry) (v : Variant) :
    (apiGroupShape (entries.filter fun e => apiKey e = groupOf v)).count v =
      (entries.map variant).count v := by
  have hperm : (apiGroupShape (entries.filter fun e => apiKey e = groupOf v)).Perm
      ((entries.filter fun e => apiKey e = groupOf v).map variant) :=
    (sortApiEntries_perm _).map _
  rw [hperm.count_eq]
  simp only [List.count_eq_countP, List.countP_map, List.countP_filter]
  refine List.countP_congr fun e _ => ?_
  simp only [Function.comp_apply, beq_iff_eq, Bool.and_eq_true, decide_eq_true_eq,
    and_iff_left_iff_imp]
  rintro rfl
  rfl

theorem count_eq_zero_of_missing {entries : List APISurfaceEntry} {v : Variant}
    (h : groupOf v ∉ (groupBy apiKey entries).keys) : (entries.map variant).count v = 0 := by
  rw [List.count_eq_zero]
  rintro hv
  obtain ⟨e, he, rfl⟩ := List.mem_map.mp hv
  exact h ((mem_keys_groupBy apiKey entries _).mpr ⟨e, he, rfl⟩)

theorem map_readVariant_missing (left right : List APISurfaceEntry) :
    ((missingValues (groupBy apiKey left) (groupBy apiKey right)).flatMap fun group =>
        (sortApiEntries group).map apiVariantDump).map readVariant =
      (sortedMissingKeys (groupBy apiKey left) (groupBy apiKey right)).flatMap fun key =>
        apiGroupShape (left.filter fun e => apiKey e = key) := by
  rw [List.map_flatMap, flatMap_missingValues_groupBy]
  · simp [apiGroupShape, Function.comp_def, readVariant_apiVariantDump, variant]
  · rfl

theorem count_missing (left right : List APISurfaceEntry) (v : Variant) :
    (((missingValues (groupBy apiKey left) (groupBy apiKey right)).flatMap fun group =>
        (sortApiEntries group).map apiVariantDump).map readVariant).count v =
      if groupOf v ∈ (groupBy apiKey left).keys ∧ groupOf v ∉ (groupBy apiKey right).keys
        then (left.map variant).count v else 0 := by
  have hkeyed : ∀ key, ∀ v ∈ apiGroupShape (left.filter fun e => apiKey e = key),
      groupOf v = key := fun _ _ => groupOf_mem_shape
  rw [map_readVariant_missing, count_flatMap_keyed hkeyed (nodup_sortedMissingKeys _ _),
    count_shape]
  simp only [mem_sortedMissingKeys]

theorem payloadVariants_changed (entries : List APISurfaceEntry) {forceList : Bool}
    (h : forceList = false → entries.length = 1) :
    payloadVariants (some (apiChangedPayload entries forceList)) = apiGroupShape entries := by
  have hshape : ((sortApiEntries entries).map apiVariantDump).map readVariant =
      apiGroupShape entries := by
    simp [apiGroupShape, Function.comp_def, readVariant_apiVariantDump, variant]
  cases forceList with
  | true => exact hshape
  | false =>
    have hlength : (sortApiEntries entries).length = 1 := by
      rw [(sortApiEntries_perm entries).length_eq, h rfl]
    obtain ⟨entry, hentry⟩ := List.length_eq_one_iff.mp hlength
    rw [← hshape]
    simp only [apiChangedPayload, hentry]
    rfl

/-- A changed group keeps its payloads on either side. -/
theorem payloadVariants_apiChangedEntry (key : String ×ₗ String) (b c : List APISurfaceEntry) :
    payloadVariants (readField (apiChangedEntry key b c) "before") = apiGroupShape b ∧
      payloadVariants (readField (apiChangedEntry key b c) "after") = apiGroupShape c := by
  have hforce : decide (b.length ≠ 1 ∨ c.length ≠ 1) = false → b.length = 1 ∧ c.length = 1 := by
    simp
  constructor
  · simp only [apiChangedEntry, readField, JsonValue.get?]
    exact payloadVariants_changed b fun h => (hforce h).1
  · simp only [apiChangedEntry, readField, JsonValue.get?]
    exact payloadVariants_changed c fun h => (hforce h).2

/-- The shared keys whose groups differ. -/
def changedKeys (b c : List APISurfaceEntry) : List (String ×ₗ String) :=
  (sortedCommonKeys (groupBy apiKey b) (groupBy apiKey c)).filter fun key =>
    apiGroupShape (b.filter fun e => apiKey e = key) ≠
      apiGroupShape (c.filter fun e => apiKey e = key)

theorem apiChanged_eq (b c : List APISurfaceEntry) :
    (apiSurfaceDelta b c).changed = (changedKeys b c).map fun key =>
      apiChangedEntry key (b.filter fun e => apiKey e = key)
        (c.filter fun e => apiKey e = key) := by
  simp only [apiSurfaceDelta, changedKeys, getD_groupBy]
  rw [← List.filterMap_eq_map, List.filterMap_filter]
  refine List.filterMap_congr fun key _ => ?_
  split <;> simp_all

theorem changedVariants_eq (b c : List APISurfaceEntry) :
    changedVariants "before" (apiSurfaceDelta b c).changed =
        (changedKeys b c).flatMap (fun key => apiGroupShape (b.filter fun e => apiKey e = key)) ∧
      changedVariants "after" (apiSurfaceDelta b c).changed =
        (changedKeys b c).flatMap fun key => apiGroupShape (c.filter fun e => apiKey e = key) := by
  simp only [changedVariants, apiChanged_eq, List.flatMap_map,
    (payloadVariants_apiChangedEntry _ _ _).1, (payloadVariants_apiChangedEntry _ _ _).2,
    and_self]

theorem nodup_changedKeys (b c : List APISurfaceEntry) : (changedKeys b c).Nodup :=
  (nodup_sortedCommonKeys _ _).filter _

theorem count_changed (entries : List APISurfaceEntry) {keys : List (String ×ₗ String)}
    (hkeys : keys.Nodup) (v : Variant) :
    (keys.flatMap fun key => apiGroupShape (entries.filter fun e => apiKey e = key)).count v =
      if groupOf v ∈ keys then (entries.map variant).count v else 0 := by
  have hkeyed : ∀ key, ∀ v ∈ apiGroupShape (entries.filter fun e => apiKey e = key),
      groupOf v = key := fun _ _ => groupOf_mem_shape
  rw [count_flatMap_keyed hkeyed hkeys, count_shape]
  by_cases h : groupOf v ∈ keys <;> simp [h]

/-- A shared key whose groups do not differ holds every variant equally often. -/
theorem count_eq_of_unchanged {b c : List APISurfaceEntry} {v : Variant}
    (h : groupOf v ∉ changedKeys b c) (hb : groupOf v ∈ (groupBy apiKey b).keys)
    (hc : groupOf v ∈ (groupBy apiKey c).keys) :
    (b.map variant).count v = (c.map variant).count v := by
  have hsame : apiGroupShape (b.filter fun e => apiKey e = groupOf v) =
      apiGroupShape (c.filter fun e => apiKey e = groupOf v) := by
    by_contra hdiff
    exact h (List.mem_filter.mpr ⟨(mem_sortedCommonKeys _ _ _).mpr ⟨hb, hc⟩, by simpa using hdiff⟩)
  rw [← count_shape b, ← count_shape c, hsame]

theorem coe_count (v : Variant) (vs : List Variant) :
    (↑vs : Multiset Variant).count v = vs.count v := by
  rw [Multiset.coe_count]
  congr 1
  exact lawful_beq_subsingleton _ _

theorem rebuild_variants (b c : List APISurfaceEntry) :
    (↑(c.map variant) : Multiset Variant) =
      ↑(b.map variant) - ↑((apiSurfaceDelta b c).removed.map readVariant) -
        ↑(changedVariants "before" (apiSurfaceDelta b c).changed) +
        ↑(changedVariants "after" (apiSurfaceDelta b c).changed) +
        ↑((apiSurfaceDelta b c).added.map readVariant) := by
  ext v
  have hadded := count_missing c b v
  have hremoved := count_missing b c v
  have hbefore := count_changed b (nodup_changedKeys b c) v
  have hafter := count_changed c (nodup_changedKeys b c) v
  have hcommon : groupOf v ∈ changedKeys b c →
      groupOf v ∈ (groupBy apiKey b).keys ∧ groupOf v ∈ (groupBy apiKey c).keys := fun h =>
    (mem_sortedCommonKeys _ _ _).mp (List.mem_of_mem_filter h)
  have hzero := @count_eq_zero_of_missing b v
  have hzero' := @count_eq_zero_of_missing c v
  have hsame := @count_eq_of_unchanged b c v
  rw [(changedVariants_eq b c).1, (changedVariants_eq b c).2]
  simp only [Multiset.count_add, Multiset.count_sub, coe_count]
  rw [hbefore, hafter]
  change (c.map variant).count v = _ - List.count v (((missingValues (groupBy apiKey b)
    (groupBy apiKey c)).flatMap fun group => (sortApiEntries group).map apiVariantDump).map
      readVariant) - _ + _ + List.count v (((missingValues (groupBy apiKey c)
    (groupBy apiKey b)).flatMap fun group => (sortApiEntries group).map apiVariantDump).map
      readVariant)
  rw [hadded, hremoved]
  -- the key is on one side only, changed, or shared and unchanged
  split_ifs <;> grind

/-! ### Keyed dimensions -/

theorem replays_indexBy {T K : Type} [DecidableEq K] [LE K] [DecidableLE K] (key : T → K)
    {dump : T → JsonValue} {read : JsonValue → K} (hread : ∀ r, read (dump r) = key r)
    (b c : List T) :
    Replays (keySet key b) (keySet key c)
      (keySet read ((missingValues (indexBy key c) (indexBy key b)).map dump))
      (keySet read ((missingValues (indexBy key b) (indexBy key c)).map dump)) := by
  have hmissing : ∀ (left right : List T) (k : K),
      k ∈ keySet read ((missingValues (indexBy key left) (indexBy key right)).map dump) ↔
        k ∈ keySet key left ∧ k ∉ keySet key right := by
    intro left right k
    simp only [keySet, Set.mem_ofPred_eq, List.mem_map]
    constructor
    · rintro ⟨_, ⟨r, hr, rfl⟩, hk⟩
      obtain ⟨habsent, hfind⟩ := (mem_missingValues_indexBy key left _ r).mp hr
      rw [mem_keys_indexBy, ← hread r, hk] at habsent
      exact ⟨⟨r, List.mem_of_find?_eq_some hfind, by rw [← hread r, hk]⟩, habsent⟩
    · rintro ⟨⟨r, hr, rfl⟩, habsent⟩
      have hsome : (left.find? fun s => key s = key r).isSome := by
        rw [List.find?_isSome]
        exact ⟨r, hr, by simp⟩
      obtain ⟨s, hs⟩ := Option.isSome_iff_exists.mp hsome
      have hkey : key s = key r := by simpa using List.find?_some hs
      refine ⟨dump s, ⟨s, ?_, rfl⟩, (hread s).trans hkey⟩
      rw [mem_missingValues_indexBy, mem_keys_indexBy, hkey]
      exact ⟨habsent, hs⟩
  refine ⟨?_, ?_⟩
  · ext k
    simp only [Set.mem_union, Set.mem_sdiff, hmissing]
    tauto
  · rw [Set.disjoint_left]
    intro k hadded hremoved
    rw [hmissing] at hadded hremoved
    exact hadded.2 hremoved.1

theorem replays_sortedDifference {K : Type} [DecidableEq K] [LE K] [DecidableLE K] (b c : List K) :
    Replays {k | k ∈ b} {k | k ∈ c} {k | k ∈ sortedDifference c b}
      {k | k ∈ sortedDifference b c} := by
  refine ⟨?_, ?_⟩
  · ext k
    simp only [Set.mem_union, Set.mem_sdiff, Set.mem_ofPred_eq, mem_sortedDifference]
    tauto
  · rw [Set.disjoint_left]
    intro k hadded hremoved
    simp only [Set.mem_ofPred_eq, mem_sortedDifference] at hadded hremoved
    exact hadded.2 hremoved.1

/-! ### The edges of the module graph -/

theorem filterMap_readEdge (edges : List (String ×ₗ String)) :
    edges.filterMap (fun edge => readEdge (edgeValue edge)) = edges :=
  List.filterMap_some ..

theorem deltaEdges_eq (b c : CodeState) :
    deltaEdges "added_edges" (computeCodeStateDelta b c) =
        sortedDifference (moduleEdges c.moduleGraph) (moduleEdges b.moduleGraph) ∧
      deltaEdges "removed_edges" (computeCodeStateDelta b c) =
        sortedDifference (moduleEdges b.moduleGraph) (moduleEdges c.moduleGraph) := by
  have hdetail : ((computeCodeStateDelta b c).pythonSpecific.bind fun items =>
      JsonValue.get? items "module_graph_delta") =
        (moduleGraphDelta b.moduleGraph c.moduleGraph).map .object := by
    rw [pythonSpecific_detail, (get?_details b c).1]
  simp only [deltaEdges, ← Option.bind_assoc, hdetail, moduleGraphDelta]
  by_cases hempty : sortedDifference (moduleEdges c.moduleGraph) (moduleEdges b.moduleGraph) = [] ∧
      sortedDifference (moduleEdges b.moduleGraph) (moduleEdges c.moduleGraph) = []
  · simp [hempty.1, hempty.2, readArray]
  · simp only [if_neg hempty, Option.map_some, Option.bind_some, readField, JsonValue.get?]
    simp [readArray, List.filterMap_map, filterMap_readEdge]

/-! ### The whole delta -/

theorem groups_disjoint (b c : List APISurfaceEntry) :
    Disjoint (keySet readGroup (apiSurfaceDelta b c).added)
      (keySet readGroup (apiSurfaceDelta b c).removed) := by
  rw [Set.disjoint_left]
  rintro key ⟨_, hadded, rfl⟩ ⟨_, hremoved, hkey⟩
  obtain ⟨e, he, -, rfl⟩ := (mem_apiAdded b c _).mp hadded
  obtain ⟨f, -, hmissing, rfl⟩ := (mem_apiRemoved b c _).mp hremoved
  rw [readGroup_apiVariantDump, readGroup_apiVariantDump] at hkey
  exact hmissing e he hkey.symm

theorem changedGroups_disjoint (b c : List APISurfaceEntry) :
    Disjoint (keySet readGroup (apiSurfaceDelta b c).changed)
      (keySet readGroup (apiSurfaceDelta b c).added ∪
        keySet readGroup (apiSurfaceDelta b c).removed) := by
  rw [Set.disjoint_left]
  rintro _ ⟨_, hchanged, rfl⟩ hother
  obtain ⟨key, ⟨e, he, hekey⟩, ⟨f, hf, hfkey⟩, -, rfl⟩ := (mem_apiChanged b c _).mp hchanged
  rw [readGroup_apiChangedEntry] at hother
  rcases hother with ⟨_, hadded, hkey⟩ | ⟨_, hremoved, hkey⟩
  · obtain ⟨g, -, hmissing, rfl⟩ := (mem_apiAdded b c _).mp hadded
    rw [readGroup_apiVariantDump] at hkey
    exact hmissing e he (hekey.trans hkey.symm)
  · obtain ⟨g, -, hmissing, rfl⟩ := (mem_apiRemoved b c _).mp hremoved
    rw [readGroup_apiVariantDump] at hkey
    exact hmissing f hf (hfkey.trans hkey.symm)

theorem computeCodeStateDelta_rebuilds (b c : CodeState) :
    Rebuilds b c (computeCodeStateDelta b c) where
  variants := rebuild_variants b.apiSurface c.apiSurface
  groups := groups_disjoint b.apiSurface c.apiSurface
  changedGroups := changedGroups_disjoint b.apiSurface c.apiSurface
  effects := replays_indexBy effectKey readEffectKey_dump b.effects c.effects
  imports := replays_indexBy importKey readImportKey_dump b.imports c.imports
  tests := by
    have hcases := replays_sortedDifference (b.testSurface.map testCaseId)
      (c.testSurface.map testCaseId)
    simpa [keySet, List.mem_map, computeCodeStateDelta, testSurfaceDelta] using hcases
  edges := by
    rw [(deltaEdges_eq b c).1, (deltaEdges_eq b c).2]
    exact replays_sortedDifference _ _

end SemanticCi.Delta
