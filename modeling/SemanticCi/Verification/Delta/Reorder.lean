import SemanticCi.Library.KeyedSort
import SemanticCi.Verification.Delta.Rebuild

/-! The delta does not depend on the order in which the extractors list their records. -/

namespace SemanticCi.Delta

open SemanticCi.Python SemanticCi.StateSchema SemanticCi.Operators OrderedDict KeyedSort

/-! ### Reordered states -/

/-- The same records in every dimension. -/
structure Reordered (s t : CodeState) : Prop where
  apiSurface : t.apiSurface.Perm s.apiSurface
  effects : t.effects.Perm s.effects
  imports : t.imports.Perm s.imports
  complexity : t.complexity.Perm s.complexity
  testSurface : t.testSurface.Perm s.testSurface
  moduleGraph : t.moduleGraph.Perm s.moduleGraph

/-- Distinct keys where the extractors promise them, and no empty text in an API record. -/
structure Keyed (s : CodeState) : Prop where
  imports : (s.imports.map importKey).Nodup
  complexity : (s.complexity.map complexityKey).Nodup
  testSurface : (s.testSurface.map testSurfaceKey).Nodup
  signature : ∀ entry ∈ s.apiSurface, entry.signature ≠ some ""
  visibility : ∀ entry ∈ s.apiSurface, entry.visibility ≠ some ""

/-- Effect records that differ at most in the confidence and the evidence of keys that occur
more than once in `entries`. -/
def SameEffects (entries : List EffectEntry) (shown shown' : List JsonValue) : Prop :=
  ∃ found found' : List EffectEntry,
    shown = found.map (fun entry => .object entry.dump) ∧
    shown' = found'.map (fun entry => .object entry.dump) ∧
    List.Forall₂ (fun entry entry' =>
      entry.fqn = entry'.fqn ∧ entry.effectClass = entry'.effectClass ∧
        (entries.countP (fun other => effectKey other = effectKey entry) ≤ 1 → entry = entry'))
      found found'

structure SameDelta (b c : CodeState) (d d' : CodeStateDelta) : Prop where
  added : SameEffects c.effects d.effectChanges.added d'.effectChanges.added
  removed : SameEffects b.effects d.effectChanges.removed d'.effectChanges.removed
  rest : d' = { d with effectChanges := d'.effectChanges }

/-! ### API surface -/

theorem symbolDelta_ext {d d' : SymbolDelta} (hadded : d.added = d'.added)
    (hremoved : d.removed = d'.removed) (hchanged : d.changed = d'.changed) : d = d' := by
  cases d
  cases d'
  simp_all

theorem eq_of_getD_eq {text text' : Option String} (h : text ≠ some "") (h' : text' ≠ some "")
    (heq : text.getD "" = text'.getD "") : text = text' := by
  cases text <;> cases text' <;> simp_all

/-- Records that tie in the sort of a group show the same. -/
theorem variant_of_apiVariantKey {e f : APISurfaceEntry}
    (he : e.signature ≠ some "" ∧ e.visibility ≠ some "")
    (hf : f.signature ≠ some "" ∧ f.visibility ≠ some "")
    (h : apiVariantKey e = apiVariantKey f) : variant e = variant f := by
  obtain ⟨hfqn, hrest⟩ := Prod.mk.inj (toLex.injective h)
  obtain ⟨hkind, htexts⟩ := Prod.mk.inj (toLex.injective hrest)
  obtain ⟨hsignature, hvisibility⟩ := Prod.mk.inj (toLex.injective htexts)
  rw [variant, variant, hfqn, hkind, eq_of_getD_eq he.1 hf.1 hsignature,
    eq_of_getD_eq he.2 hf.2 hvisibility]

theorem apiVariantDump_of_variant {e f : APISurfaceEntry} (h : variant e = variant f) :
    apiVariantDump e = apiVariantDump f := by
  simp only [variant, Prod.mk.injEq] at h
  obtain ⟨hfqn, hkind, hsignature, hvisibility⟩ := h
  simp [apiVariantDump, APISurfaceEntry.dump, hfqn, hkind, hsignature, hvisibility]

/-- No record of the list carries an empty text. -/
def NoEmptyText (entries : List APISurfaceEntry) : Prop :=
  ∀ entry ∈ entries, entry.signature ≠ some "" ∧ entry.visibility ≠ some ""

theorem Keyed.noEmptyText {s : CodeState} (h : Keyed s) : NoEmptyText s.apiSurface :=
  fun entry hentry => ⟨h.signature entry hentry, h.visibility entry hentry⟩

section Groups

variable {xs ys : List APISurfaceEntry} (hperm : ys.Perm xs) (htext : NoEmptyText xs)

include hperm htext

/-- What a sorted group shows does not depend on the order of the group. -/
theorem map_sortApiEntries_of_perm {β : Type} {f : APISurfaceEntry → β}
    (hf : ∀ e e', variant e = variant e' → f e = f e') :
    (sortApiEntries ys).map f = (sortApiEntries xs).map f := by
  refine (map_sortBy_eq_of_perm apiVariantKey hperm.symm f ?_).symm
  exact fun e he e' he' hkey => hf e e' (variant_of_apiVariantKey (htext e he) (htext e' he') hkey)

theorem apiGroupShape_of_perm : apiGroupShape ys = apiGroupShape xs :=
  map_sortApiEntries_of_perm hperm htext fun _ _ h => h

theorem apiChangedPayload_of_perm (forceList : Bool) :
    apiChangedPayload ys forceList = apiChangedPayload xs forceList := by
  unfold apiChangedPayload
  rw [map_sortApiEntries_of_perm hperm htext fun _ _ => apiVariantDump_of_variant]

end Groups

theorem mem_keys_groupBy_of_perm {T K : Type} [DecidableEq K] (key : T → K) {xs ys : List T}
    (h : ys.Perm xs) (k : K) : k ∈ (groupBy key ys).keys ↔ k ∈ (groupBy key xs).keys := by
  simp only [mem_keys_groupBy, h.mem_iff]

theorem missingApi_of_perm {b b' c c' : List APISurfaceEntry} (hb : b'.Perm b) (hc : c'.Perm c)
    (htext : NoEmptyText c) :
    ((missingValues (groupBy apiKey c') (groupBy apiKey b')).flatMap fun group =>
        (sortApiEntries group).map apiVariantDump) =
      (missingValues (groupBy apiKey c) (groupBy apiKey b)).flatMap fun group =>
        (sortApiEntries group).map apiVariantDump := by
  have hgroups (left right : List APISurfaceEntry) :=
    flatMap_missingValues_groupBy apiKey left (groupBy apiKey right)
      (fun group => (sortApiEntries group).map apiVariantDump) rfl
  rw [hgroups, hgroups, sortedMissingKeys_of_keys (mem_keys_groupBy_of_perm apiKey hc)
      (mem_keys_groupBy_of_perm apiKey hb)]
  refine List.flatMap_congr fun key _ => ?_
  apply map_sortApiEntries_of_perm (hc.filter _)
  · exact fun e he => htext e (List.mem_of_mem_filter he)
  · exact fun _ _ => apiVariantDump_of_variant

theorem apiSurfaceDelta_of_perm {b b' c c' : List APISurfaceEntry} (hb : b'.Perm b)
    (hc : c'.Perm c) (hbtext : NoEmptyText b) (hctext : NoEmptyText c) :
    apiSurfaceDelta b' c' = apiSurfaceDelta b c := by
  have hgroup {xs : List APISurfaceEntry} (h : NoEmptyText xs) (key : String ×ₗ String) :
      NoEmptyText (xs.filter fun e => apiKey e = key) :=
    fun e he => h e (List.mem_of_mem_filter he)
  have hchanged : (apiSurfaceDelta b' c').changed = (apiSurfaceDelta b c).changed := by
    simp only [apiSurfaceDelta, getD_groupBy]
    rw [sortedCommonKeys_of_keys (mem_keys_groupBy_of_perm apiKey hb)
      (mem_keys_groupBy_of_perm apiKey hc)]
    refine List.filterMap_congr fun key _ => ?_
    have hbkey := hb.filter fun e => apiKey e = key
    have hckey := hc.filter fun e => apiKey e = key
    simp only [apiGroupShape_of_perm hbkey (hgroup hbtext key),
      apiGroupShape_of_perm hckey (hgroup hctext key), apiChangedEntry, hbkey.length_eq,
      hckey.length_eq, apiChangedPayload_of_perm hbkey (hgroup hbtext key),
      apiChangedPayload_of_perm hckey (hgroup hctext key)]
  have hadded : (apiSurfaceDelta b' c').added = (apiSurfaceDelta b c).added :=
    missingApi_of_perm hb hc hctext
  have hremoved : (apiSurfaceDelta b' c').removed = (apiSurfaceDelta b c).removed :=
    missingApi_of_perm hc hb hbtext
  exact symbolDelta_ext hadded hremoved hchanged

/-! ### The other dimensions -/

theorem decoratorsDelta_of_perm {b b' c c' : List APISurfaceEntry} (hb : b'.Perm b)
    (hc : c'.Perm c) : decoratorsDelta b' c' = decoratorsDelta b c := by
  have hpairs {xs ys : List APISurfaceEntry} (h : ys.Perm xs) (pair : String ×ₗ String) :
      pair ∈ publicDecoratorPairs ys ↔ pair ∈ publicDecoratorPairs xs :=
    ((h.filter _).flatMap_right _).mem_iff
  rw [decoratorsDelta, decoratorsDelta, sortedDifference_congr (hpairs hc) (hpairs hb),
    sortedDifference_congr (hpairs hb) (hpairs hc)]

theorem importsDelta_of_perm {b b' c c' : List ImportEntry} (hb : b'.Perm b) (hc : c'.Perm c)
    (hbkeys : (b.map importKey).Nodup) (hckeys : (c.map importKey).Nodup) :
    importsDelta b' c' = importsDelta b c := by
  have hbget := get?_indexBy_of_perm importKey hbkeys hb
  have hcget := get?_indexBy_of_perm importKey hckeys hc
  simp only [importsDelta, missingValues_congr hcget hbget, missingValues_congr hbget hcget]

theorem sumComplexity_of_perm (field : ComplexityEntry → Option ℤ) {xs ys : List ComplexityEntry}
    (h : ys.Perm xs) : sumComplexity field ys = sumComplexity field xs := (h.map _).sum_eq

theorem complexityDelta_of_perm {b b' c c' : List ComplexityEntry} (hb : b'.Perm b)
    (hc : c'.Perm c) : complexityDelta b' c' = complexityDelta b c := by
  simp only [complexityDelta, sumComplexity_of_perm _ hb, sumComplexity_of_perm _ hc]

theorem testSurfaceDelta_of_perm {b b' c c' : List TestSurfaceEntry} (hb : b'.Perm b)
    (hc : c'.Perm c) : testSurfaceDelta b' c' = testSurfaceDelta b c := by
  have hmem {xs ys : List TestSurfaceEntry} (h : ys.Perm xs) (f : TestSurfaceEntry → String)
      (text : String) : text ∈ ys.map f ↔ text ∈ xs.map f := (h.map f).mem_iff
  simp only [testSurfaceDelta, sortedDifference_congr (hmem hc _) (hmem hb _),
    sortedDifference_congr (hmem hb _) (hmem hc _)]

/-! ### Details -/

theorem changedPairs_of_get? {K T : Type} [DecidableEq K] [LE K] [DecidableLE K]
    [Std.Total fun a b : K => a ≤ b] [IsTrans K fun a b => a ≤ b]
    [Std.Antisymm fun a b : K => a ≤ b] {base base' cand cand' : OrderedDict K T}
    (hbase : ∀ k, base'.get? k = base.get? k) (hcand : ∀ k, cand'.get? k = cand.get? k)
    (differs : T → T → Bool) : changedPairs base' cand' differs = changedPairs base cand differs := by
  simp only [changedPairs, sortedCommonKeys_congr hbase hcand, hbase, hcand]

theorem moduleGraphDelta_of_perm {b b' c c' : List ModuleGraphEntry} (hb : b'.Perm b)
    (hc : c'.Perm c) : moduleGraphDelta b' c' = moduleGraphDelta b c := by
  have hedges {xs ys : List ModuleGraphEntry} (h : ys.Perm xs) (edge : String ×ₗ String) :
      edge ∈ moduleEdges ys ↔ edge ∈ moduleEdges xs := (h.flatMap_right _).mem_iff
  simp only [moduleGraphDelta, sortedDifference_congr (hedges hc) (hedges hb),
    sortedDifference_congr (hedges hb) (hedges hc)]

theorem complexityChanges_of_perm {b b' c c' : List ComplexityEntry} (hb : b'.Perm b)
    (hc : c'.Perm c) (hbkeys : (b.map complexityKey).Nodup)
    (hckeys : (c.map complexityKey).Nodup) : complexityChanges b' c' = complexityChanges b c := by
  have hbget := get?_indexBy_of_perm complexityKey hbkeys hb
  have hcget := get?_indexBy_of_perm complexityKey hckeys hc
  simp only [complexityChanges, missingValues_congr hcget hbget, missingValues_congr hbget hcget,
    changedPairs_of_get? hbget hcget]

theorem testSurfaceChanges_of_perm {b b' c c' : List TestSurfaceEntry} (hb : b'.Perm b)
    (hc : c'.Perm c) (hbkeys : (b.map testSurfaceKey).Nodup)
    (hckeys : (c.map testSurfaceKey).Nodup) :
    testSurfaceChanges b' c' = testSurfaceChanges b c := by
  have hbget := get?_indexBy_of_perm testSurfaceKey hbkeys hb
  have hcget := get?_indexBy_of_perm testSurfaceKey hckeys hc
  simp only [testSurfaceChanges, changedPairs_of_get? hbget hcget]

/-! ### Effects -/

/-- The effect records under the keys of one side alone. -/
theorem sameEffects_of_perm {left left' right right' : List EffectEntry} (hl : left'.Perm left)
    (hr : right'.Perm right) :
    SameEffects left
      ((missingValues (indexBy effectKey left) (indexBy effectKey right)).map fun entry =>
        .object entry.dump)
      ((missingValues (indexBy effectKey left') (indexBy effectKey right')).map fun entry =>
        .object entry.dump) := by
  have hkeys {xs ys : List EffectEntry} (h : ys.Perm xs) (k) :
      k ∈ (indexBy effectKey xs).keys ↔ k ∈ (indexBy effectKey ys).keys := by
    simp only [mem_keys_indexBy, h.mem_iff]
  have hmem {xs ys : List EffectEntry} {entry : EffectEntry}
      (h : entry ∈ missingValues (indexBy effectKey xs) (indexBy effectKey ys)) : entry ∈ xs :=
    List.mem_of_find?_eq_some ((mem_missingValues_indexBy _ _ _ _).mp h).2
  have hsame : List.Forall₂ (fun entry entry' => effectKey entry = effectKey entry')
      (missingValues (indexBy effectKey left) (indexBy effectKey right))
      (missingValues (indexBy effectKey left') (indexBy effectKey right')) := by
    have hmap := sortedMissingKeys_of_keys (hkeys hl) (hkeys hr)
    rw [← map_key_missingValues, ← map_key_missingValues, ← List.forall₂_eq_eq_eq,
      List.forall₂_map_left_iff, List.forall₂_map_right_iff] at hmap
    exact hmap
  have hboth := (List.forall₂_and_left _ _).mpr ⟨fun entry => hmem,
    ((List.forall₂_and_left _ _).mpr ⟨fun entry h => hl.mem_iff.mp (hmem h), hsame.flip⟩).flip⟩
  refine ⟨_, _, rfl, rfl, hboth.imp ?_⟩
  rintro entry entry' ⟨hentry, hentry', hkey⟩
  obtain ⟨hfqn, hrest⟩ := Prod.mk.inj (toLex.injective hkey)
  obtain ⟨hclass, -⟩ := Prod.mk.inj (toLex.injective hrest)
  refine ⟨hfqn, effectClass_value_injective hclass, fun honce => ?_⟩
  rw [List.countP_eq_length_filter] at honce
  have hin {other : EffectEntry} (hother : other ∈ left) (heq : effectKey other = effectKey entry) :
      other ∈ left.filter fun other => effectKey other = effectKey entry :=
    List.mem_filter.mpr ⟨hother, decide_eq_true heq⟩
  have hgroup := hin hentry rfl
  have hgroup' := hin hentry' hkey.symm
  generalize left.filter _ = group at honce hgroup hgroup'
  cases group with
  | nil => cases hgroup
  | cons only rest =>
      obtain rfl : rest = [] := by simpa using honce
      exact (List.mem_singleton.mp hgroup).trans (List.mem_singleton.mp hgroup').symm

/-! ### The whole delta -/

theorem computeCodeStateDelta_of_reordered {b b' c c' : CodeState} (hb : Keyed b) (hc : Keyed c)
    (hbb : Reordered b b') (hcc : Reordered c c') :
    SameDelta b c (computeCodeStateDelta b c) (computeCodeStateDelta b' c') where
  added := sameEffects_of_perm hcc.effects hbb.effects
  removed := sameEffects_of_perm hbb.effects hcc.effects
  rest := by
    simp only [computeCodeStateDelta, buildPythonSpecific,
      apiSurfaceDelta_of_perm hbb.apiSurface hcc.apiSurface hb.noEmptyText hc.noEmptyText,
      decoratorsDelta_of_perm hbb.apiSurface hcc.apiSurface,
      importsDelta_of_perm hbb.imports hcc.imports hb.imports hc.imports,
      complexityDelta_of_perm hbb.complexity hcc.complexity,
      testSurfaceDelta_of_perm hbb.testSurface hcc.testSurface,
      moduleGraphDelta_of_perm hbb.moduleGraph hcc.moduleGraph,
      complexityChanges_of_perm hbb.complexity hcc.complexity hb.complexity hc.complexity,
      testSurfaceChanges_of_perm hbb.testSurface hcc.testSurface hb.testSurface hc.testSurface]

/-- The signatures and visibilities of the variants under one key. -/
def variantTexts (entries : List APISurfaceEntry) (key : String ×ₗ String) :
    Multiset (Option String × Option String) :=
  ↑((entries.filter fun entry => apiKey entry = key).map fun entry =>
    (entry.signature, entry.visibility))

theorem apiGroupShape_eq_iff {xs ys : List APISurfaceEntry} (hxs : NoEmptyText xs)
    (hys : NoEmptyText ys) :
    apiGroupShape xs = apiGroupShape ys ↔ (xs.map variant).Perm (ys.map variant) := by
  have hperm (zs : List APISurfaceEntry) : (apiGroupShape zs).Perm (zs.map variant) :=
    (sortApiEntries_perm zs).map variant
  have hmem {zs : List APISurfaceEntry} (h : NoEmptyText zs) {v : Variant}
      (hv : v ∈ apiGroupShape zs) : v.2.2.1 ≠ some "" ∧ v.2.2.2 ≠ some "" := by
    obtain ⟨e, he, rfl⟩ := List.mem_map.mp ((hperm zs).mem_iff.mp hv)
    exact h e he
  have hsorted (zs : List APISurfaceEntry) : (apiGroupShape zs).Pairwise fun v w =>
      toLex (v.1, toLex (v.2.1, toLex (v.2.2.1.getD "", v.2.2.2.getD ""))) ≤
        toLex (w.1, toLex (w.2.1, toLex (w.2.2.1.getD "", w.2.2.2.getD ""))) :=
    List.pairwise_map.mpr (sortBy_pairwise apiVariantKey zs)
  constructor
  · intro h
    exact (hperm xs).symm.trans (h ▸ hperm ys)
  · intro h
    refine ((hperm xs).trans (h.trans (hperm ys).symm)).eq_of_pairwise ?_ (hsorted xs) (hsorted ys)
    intro v w hv hw hvw hwv
    obtain ⟨hfqn, hrest⟩ := Prod.mk.inj (toLex.injective (le_antisymm hvw hwv))
    obtain ⟨hkind, htexts⟩ := Prod.mk.inj (toLex.injective hrest)
    obtain ⟨hsignature, hvisibility⟩ := Prod.mk.inj (toLex.injective htexts)
    have hv' := hmem hxs hv
    have hw' := hmem hys hw
    exact Prod.ext hfqn (Prod.ext hkind (Prod.ext (eq_of_getD_eq hv'.1 hw'.1 hsignature)
      (eq_of_getD_eq hv'.2 hw'.2 hvisibility)))

theorem variantTexts_eq_iff (b c : List APISurfaceEntry) (key : String ×ₗ String) :
    variantTexts b key = variantTexts c key ↔
      ((b.filter fun e => apiKey e = key).map variant).Perm
        ((c.filter fun e => apiKey e = key).map variant) := by
  have hvariant (entries : List APISurfaceEntry) :
      (entries.filter fun e => apiKey e = key).map variant =
        ((entries.filter fun e => apiKey e = key).map fun e => (e.signature, e.visibility)).map
          fun texts => ((ofLex key).1, (ofLex key).2, texts) := by
    rw [List.map_map]
    refine List.map_congr_left fun e he => ?_
    rw [← of_decide_eq_true (List.mem_filter.mp he).2]
    rfl
  rw [variantTexts, variantTexts, Multiset.coe_eq_coe, hvariant, hvariant]
  refine (List.map_perm_map_iff ?_).symm
  exact fun texts texts' h => (Prod.mk.inj (Prod.mk.inj h).2).2

/-- A key of both sides is reported exactly when its variants differ. -/
theorem changed_iff {b c : List APISurfaceEntry} (hb : NoEmptyText b) (hc : NoEmptyText c)
    {key : String ×ₗ String} (hbkey : ∃ e ∈ b, apiKey e = key) (hckey : ∃ e ∈ c, apiKey e = key) :
    (∃ v ∈ (apiSurfaceDelta b c).changed, readGroup v = key) ↔
      variantTexts b key ≠ variantTexts c key := by
  have hgroup {xs : List APISurfaceEntry} (h : NoEmptyText xs) :
      NoEmptyText (xs.filter fun e => apiKey e = key) :=
    fun e he => h e (List.mem_of_mem_filter he)
  rw [ne_eq, variantTexts_eq_iff, ← apiGroupShape_eq_iff (hgroup hb) (hgroup hc)]
  constructor
  · rintro ⟨v, hv, hkey⟩
    obtain ⟨key', -, -, hdiff, rfl⟩ := (mem_apiChanged b c v).mp hv
    rw [readGroup_apiChangedEntry] at hkey
    exact hkey ▸ hdiff
  · intro hdiff
    exact ⟨_, (mem_apiChanged b c _).mpr ⟨key, hbkey, hckey, hdiff, rfl⟩,
      readGroup_apiChangedEntry ..⟩

/-- Reordering the records of both states leaves the delta as it is, up to the confidence and
the evidence of repeated effects, and the changed API keys are those whose variants differ. -/
theorem computeCodeStateDelta_orderFree {b b' c c' : CodeState} (hb : Keyed b) (hc : Keyed c)
    (hbb : Reordered b b') (hcc : Reordered c c') :
    SameDelta b c (computeCodeStateDelta b c) (computeCodeStateDelta b' c') ∧
      ∀ key, (∃ e ∈ b.apiSurface, apiKey e = key) → (∃ e ∈ c.apiSurface, apiKey e = key) →
        ((∃ v ∈ (computeCodeStateDelta b c).apiSurfaceDelta.changed, readGroup v = key) ↔
          variantTexts b.apiSurface key ≠ variantTexts c.apiSurface key) :=
  ⟨computeCodeStateDelta_of_reordered hb hc hbb hcc,
    fun _ hbkey hckey => changed_iff hb.noEmptyText hc.noEmptyText hbkey hckey⟩

/-- Two overloads, two records of one effect and two imports. -/
def overloadedState : CodeState where
  apiSurface := [⟨"m.f", "function", some "(x: int)", some "public", ["overload"]⟩,
    ⟨"m.f", "function", some "(x: str)", some "public", []⟩]
  effects := [⟨"m.f", .io, none, .str "first"⟩, ⟨"m.f", .io, none, .str "second"⟩]
  imports := [⟨"os", none, []⟩, ⟨"sys", none, []⟩]

def overloadedState.reversed : CodeState where
  apiSurface := overloadedState.apiSurface.reverse
  effects := overloadedState.effects.reverse
  imports := overloadedState.imports.reverse

def singleState : CodeState where
  apiSurface := [⟨"m.f", "function", some "(x: int)", some "public", []⟩]

theorem computeCodeStateDelta_orderFree_overloaded :
    SameDelta singleState overloadedState (computeCodeStateDelta singleState overloadedState)
        (computeCodeStateDelta singleState overloadedState.reversed) ∧
      ∀ key, (∃ e ∈ singleState.apiSurface, apiKey e = key) →
        (∃ e ∈ overloadedState.apiSurface, apiKey e = key) →
        ((∃ v ∈ (computeCodeStateDelta singleState overloadedState).apiSurfaceDelta.changed,
            readGroup v = key) ↔
          variantTexts singleState.apiSurface key ≠
            variantTexts overloadedState.apiSurface key) :=
  computeCodeStateDelta_orderFree
    ⟨.nil, .nil, .nil, by decide, by decide⟩
    ⟨by decide +kernel, .nil, .nil, by decide, by decide⟩
    ⟨.refl _, .nil, .nil, .nil, .nil, .nil⟩
    ⟨List.reverse_perm _, List.reverse_perm _, List.reverse_perm _, .nil, .nil, .nil⟩

end SemanticCi.Delta
