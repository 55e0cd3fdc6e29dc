import SemanticCi.Verification.Extraction.Sites

/-! Which new effects of a module the delta of two extracted states shows: those whose key no
site of the baseline has, and only under the first file of the candidate that has it. -/

namespace SemanticCi.Extraction

open SemanticCi.Python SemanticCi.Python.Ast SemanticCi.StateSchema SemanticCi.Delta OrderedDict

/-! ## The first item of a sorted concatenation -/

section First

variable {α β : Type} {r : α → α → Prop} {f : α → List β} {p : β → Bool}

/-- The first item with a property comes from an element that is no later than any other with
such an item. -/
theorem exists_first {xs : List α} (hxs : xs.Pairwise r) {b : β}
    (h : (xs.flatMap f).find? p = some b) :
    ∃ x ∈ xs, b ∈ f x ∧ ∀ y ∈ xs, (∃ c ∈ f y, p c) → x = y ∨ r x y := by
  induction xs with
  | nil => simp at h
  | cons x rest ih =>
    obtain ⟨hx, hrest⟩ := List.pairwise_cons.mp hxs
    rw [List.flatMap_cons, List.find?_append] at h
    cases hfind : (f x).find? p with
    | some c =>
      obtain rfl : c = b := by simpa [hfind] using h
      refine ⟨x, by simp, List.mem_of_find?_eq_some hfind, fun y hy _ => ?_⟩
      rcases List.mem_cons.mp hy with rfl | hy
      · exact .inl rfl
      · exact .inr (hx y hy)
    | none =>
      obtain ⟨z, hz, hbz, hfirst⟩ := ih hrest (by simpa [hfind] using h)
      refine ⟨z, by simp [hz], hbz, fun y hy hc => ?_⟩
      rcases List.mem_cons.mp hy with rfl | hy
      · obtain ⟨c, hc, hpc⟩ := hc
        exact absurd hpc (List.find?_eq_none.mp hfind c hc)
      · exact hfirst y hy hc

end First

/-! ## The added effects -/

theorem effectEntry_dump_injective {a b : EffectEntry}
    (h : JsonValue.object a.dump = JsonValue.object b.dump) : a = b := by
  have hvalue : a.effectClass.value = b.effectClass.value := by
    simp_all [EffectEntry.dump]
  have hclass := Operators.effectClass_value_injective hvalue
  have hconfidence : a.confidence = b.confidence := by
    cases ha : a.confidence <;> cases hb : b.confidence <;>
      simp_all [EffectEntry.dump, JsonValue.ofOption]
  cases a
  cases b
  simp_all [EffectEntry.dump]

/-- An effect is added when the baseline has no effect of its key, and the candidate no earlier
one. -/
theorem mem_added_iff (baseline candidate : List EffectEntry) (e : EffectEntry) :
    .object e.dump ∈ (effectChanges baseline candidate).added ↔
      (∀ old ∈ baseline, effectKey old ≠ effectKey e) ∧
        candidate.find? (fun other => effectKey other = effectKey e) = some e := by
  simp only [effectChanges, List.mem_map]
  constructor
  · rintro ⟨e', he', hdump⟩
    cases effectEntry_dump_injective hdump
    rw [mem_missingValues_indexBy, mem_keys_indexBy] at he'
    exact ⟨fun old hold hkey => he'.1 ⟨old, hold, hkey⟩, he'.2⟩
  · rintro ⟨hnew, hfirst⟩
    refine ⟨e, ?_, rfl⟩
    rw [mem_missingValues_indexBy, mem_keys_indexBy]
    refine ⟨?_, hfirst⟩
    rintro ⟨old, hold, hkey⟩
    exact hnew old hold hkey

section Delta

variable (lib : Stdlib) (db : List EffectSignature) (oldRoot newRoot : Root)
  (baseline candidate : PackageTree)

/-- `effect_changes.added` of the two extracted states. -/
def addedEffects : List JsonValue :=
  (computeCodeStateDelta (extractPythonCodeState lib db oldRoot baseline)
    (extractPythonCodeState lib db newRoot candidate)).effectChanges.added

/-- The file has a site with this key. -/
def HasKey (root : Root) (key : String ×ₗ String ×ₗ String) (file : SourceFile) : Prop :=
  ∃ s ∈ effectSites db file.tree, s.key (moduleFqnFromPath root file.path) = key

/-- A site of the candidate that the baseline version of its module does not have. -/
structure NewSite (file : SourceFile) (site : EffectSite) : Prop where
  file_mem : file ∈ candidate.files
  site_mem : site ∈ effectSites db file.tree
  isNew : ∀ old ∈ baseline.files, moduleParts old.path = moduleParts file.path →
    ∀ s ∈ effectSites db old.tree, s.identity ≠ site.identity

/-- Some added effect has the key of the site. -/
def KeyShown (file : SourceFile) (site : EffectSite) : Prop :=
  ∃ e : EffectEntry, effectKey e = site.key (moduleFqnFromPath newRoot file.path) ∧
    .object e.dump ∈ addedEffects lib db oldRoot newRoot baseline candidate

/-- Some added effect has the key of the site and was extracted from its module. -/
def Shown (file : SourceFile) (site : EffectSite) : Prop :=
  ∃ own ∈ candidate.files, moduleParts own.path = moduleParts file.path ∧
    ∃ e ∈ fileEntries db newRoot own, effectKey e = site.key (moduleFqnFromPath newRoot file.path) ∧
      .object e.dump ∈ addedEffects lib db oldRoot newRoot baseline candidate

/-- No file of the baseline has the key of the site. -/
def KeyNew (file : SourceFile) (site : EffectSite) : Prop :=
  ∀ old ∈ baseline.files,
    ¬ HasKey db oldRoot (site.key (moduleFqnFromPath newRoot file.path)) old

/-- Among the files of the candidate that have the key of the site, the first in path order is
one of its module. -/
def KeyFirst (file : SourceFile) (site : EffectSite) : Prop :=
  ∃ own ∈ candidate.files, moduleParts own.path = moduleParts file.path ∧
    HasKey db newRoot (site.key (moduleFqnFromPath newRoot file.path)) own ∧
      ∀ other ∈ candidate.files,
        HasKey db newRoot (site.key (moduleFqnFromPath newRoot file.path)) other →
          own.path.text ≤ other.path.text

variable {db}

theorem hasKey_iff (root : Root) (key : String ×ₗ String ×ₗ String) (file : SourceFile) :
    HasKey db root key file ↔ ∃ e ∈ fileEntries db root file, effectKey e = key := by
  simp [HasKey, fileEntries, EffectSite.effectKey_entry]

variable {lib oldRoot newRoot baseline candidate}

theorem mem_addedEffects_iff (e : EffectEntry) :
    .object e.dump ∈ addedEffects lib db oldRoot newRoot baseline candidate ↔
      (∀ old ∈ baseline.files, ¬ HasKey db oldRoot (effectKey e) old) ∧
        ((sortPaths newRoot candidate.files).flatMap (fileEntries db newRoot)).find?
          (fun other => effectKey other = effectKey e) = some e := by
  rw [addedEffects, computeCodeStateDelta, mem_added_iff, extractPythonCodeState_effects,
    extractPythonCodeState_effects]
  apply and_congr_left
  intro _
  simp only [List.mem_flatMap, mem_sortPaths, hasKey_iff, not_exists, not_and]
  exact ⟨fun h old hold e' he' => h e' ⟨old, hold, he'⟩,
    fun h e' ⟨old, hold, he'⟩ => h old hold e' he'⟩

/-- An added effect comes from the first file that has its key. -/
theorem exists_firstFile {key : String ×ₗ String ×ₗ String} {e : EffectEntry}
    (h : ((sortPaths newRoot candidate.files).flatMap (fileEntries db newRoot)).find?
      (fun other => effectKey other = key) = some e) :
    ∃ own ∈ candidate.files, e ∈ fileEntries db newRoot own ∧
      ∀ other ∈ candidate.files, HasKey db newRoot key other →
        own.path.text ≤ other.path.text := by
  obtain ⟨own, hown, he, hfirst⟩ := exists_first (pairwise_sortPaths newRoot candidate.files) h
  rw [mem_sortPaths] at hown
  refine ⟨own, hown, he, fun other hother hkey => ?_⟩
  obtain ⟨e', he', hkey'⟩ := (hasKey_iff _ _ _).mp hkey
  rcases hfirst other ((mem_sortPaths _ _ _).mpr hother) ⟨e', he', by simpa using hkey'⟩ with
    rfl | hle
  · exact le_rfl
  · exact (absoluteText_le_iff newRoot (PackageTree.path_ne_nil hown)
      (PackageTree.path_ne_nil hother)).mp hle

variable (newRoot) in
theorem exists_find {key : String ×ₗ String ×ₗ String} {file : SourceFile}
    (hfile : file ∈ candidate.files) (hkey : HasKey db newRoot key file) :
    ∃ e, ((sortPaths newRoot candidate.files).flatMap (fileEntries db newRoot)).find?
      (fun other => effectKey other = key) = some e ∧ effectKey e = key := by
  obtain ⟨e, he, hekey⟩ := (hasKey_iff _ _ _).mp hkey
  have hmem : e ∈ (sortPaths newRoot candidate.files).flatMap (fileEntries db newRoot) :=
    List.mem_flatMap.mpr ⟨file, (mem_sortPaths _ _ _).mpr hfile, he⟩
  have hsome : ((sortPaths newRoot candidate.files).flatMap (fileEntries db newRoot)).find?
      (fun other => effectKey other = key) |>.isSome := by
    rw [List.find?_isSome]
    exact ⟨e, hmem, by simpa using hekey⟩
  obtain ⟨first, hfirst⟩ := Option.isSome_iff_exists.mp hsome
  exact ⟨first, hfirst, by simpa using List.find?_some hfirst⟩

theorem Shown.keyShown {file : SourceFile} {site : EffectSite}
    (h : Shown lib db oldRoot newRoot baseline candidate file site) :
    KeyShown lib db oldRoot newRoot baseline candidate file site := by
  obtain ⟨own, -, -, e, -, hkey, hmem⟩ := h
  exact ⟨e, hkey, hmem⟩

theorem NewSite.hasKey {file : SourceFile} {site : EffectSite}
    (h : NewSite db baseline candidate file site) :
    HasKey db newRoot (site.key (moduleFqnFromPath newRoot file.path)) file :=
  ⟨site, h.site_mem, rfl⟩

theorem keyShown_iff {file : SourceFile} {site : EffectSite}
    (h : NewSite db baseline candidate file site) :
    KeyShown lib db oldRoot newRoot baseline candidate file site ↔
      KeyNew db oldRoot newRoot baseline file site := by
  constructor
  · rintro ⟨e, hkey, hmem⟩
    rw [mem_addedEffects_iff, hkey] at hmem
    exact hmem.1
  · intro hnew
    obtain ⟨e, hfind, hkey⟩ := exists_find newRoot h.file_mem h.hasKey
    refine ⟨e, hkey, ?_⟩
    rw [mem_addedEffects_iff, hkey]
    exact ⟨hnew, hfind⟩

/-- The entry of a file is an entry of no other file. -/
theorem path_eq_of_mem_fileEntries {own other : SourceFile} (hown : own ∈ candidate.files)
    (hother : other ∈ candidate.files) {e : EffectEntry} (he : e ∈ fileEntries db newRoot own)
    (he' : e ∈ fileEntries db newRoot other) : own.path = other.path := by
  obtain ⟨s, -, rfl⟩ := List.mem_map.mp he
  obtain ⟨s', -, hs'⟩ := List.mem_map.mp he'
  apply PackageTree.absoluteText_injective newRoot hown hother
  exact EffectSite.entry_filename_injective hs'.symm

theorem shown_iff {file : SourceFile} {site : EffectSite}
    (h : NewSite db baseline candidate file site) :
    Shown lib db oldRoot newRoot baseline candidate file site ↔
      KeyNew db oldRoot newRoot baseline file site ∧
        KeyFirst db newRoot candidate file site := by
  constructor
  · rintro ⟨own, hown, hmodule, e, he, hkey, hmem⟩
    rw [mem_addedEffects_iff, hkey] at hmem
    obtain ⟨first, hfirst, he', hle⟩ := exists_firstFile hmem.2
    have hpath := path_eq_of_mem_fileEntries hown hfirst he he'
    refine ⟨hmem.1, first, hfirst, hpath ▸ hmodule, ?_, hle⟩
    exact (hasKey_iff _ _ _).mpr ⟨e, he', hkey⟩
  · rintro ⟨hnew, own, hown, hmodule, hownKey, hle⟩
    obtain ⟨e, hfind, hkey⟩ := exists_find newRoot h.file_mem h.hasKey
    obtain ⟨first, hfirst, he, hle'⟩ := exists_firstFile hfind
    have htext : own.path.text = first.path.text := by
      apply le_antisymm
      · exact hle first hfirst ((hasKey_iff _ _ _).mpr ⟨e, he, hkey⟩)
      · exact hle' own hown hownKey
    have hpath : own.path = first.path :=
      text_injective (candidate.valid own hown) (candidate.valid first hfirst)
        (PackageTree.path_ne_nil hown) (PackageTree.path_ne_nil hfirst) htext
    refine ⟨first, hfirst, hpath ▸ hmodule, e, he, hkey, ?_⟩
    rw [mem_addedEffects_iff, hkey]
    exact ⟨hnew, hfind⟩

/-- The key of a mutation does not name its module, so a mutation of the same name and marker
anywhere in the baseline masks it. -/
theorem masked_of_mutation {file old : SourceFile} {site oldSite : MutationSite}
    (h : NewSite db baseline candidate file (.mutation site)) (hold : old ∈ baseline.files)
    (holdSite : .mutation oldSite ∈ effectSites db old.tree)
    (hmarker : oldSite.kind.marker = site.kind.marker) (htarget : oldSite.target = site.target) :
    ¬ KeyShown lib db oldRoot newRoot baseline candidate file (.mutation site) := by
  rw [keyShown_iff h]
  intro hnew
  refine hnew old hold ⟨_, holdSite, ?_⟩
  simp [EffectSite.key, EffectSite.fqn, EffectSite.effectClass, EffectSite.resolvedCall, hmarker,
    htarget]

end Delta

/-- Every new site of every module is shown, under its module, exactly when its key is new to
the baseline and no other module of the candidate has it in an earlier file. For an entry of
whatever module the first half is enough. -/
theorem newSites_shown_iff (lib : Stdlib) (db : List EffectSignature) (oldRoot newRoot : Root)
    (baseline candidate : PackageTree) :
    ((∀ file site, NewSite db baseline candidate file site →
        Shown lib db oldRoot newRoot baseline candidate file site) ↔
      ∀ file site, NewSite db baseline candidate file site →
        KeyNew db oldRoot newRoot baseline file site ∧
          KeyFirst db newRoot candidate file site) ∧
    ((∀ file site, NewSite db baseline candidate file site →
        KeyShown lib db oldRoot newRoot baseline candidate file site) ↔
      ∀ file site, NewSite db baseline candidate file site →
        KeyNew db oldRoot newRoot baseline file site) := by
  constructor
  · exact forall₂_congr fun file site => imp_congr_right fun h => shown_iff h
  · exact forall₂_congr fun file site => imp_congr_right fun h => keyShown_iff h

/-! A second module starts to rebind the name that the first one rebinds already. -/

def rebindingModule : Node :=
  let assignment := fun (line : ℕ) (value : String) =>
    Node.assign ⟨line, 0, line⟩ [.name ⟨line, 0, line⟩ "x"]
      (.other "Constant" [value] (some ⟨line, 4, line⟩) [])
  .module [assignment 1 "1", assignment 2 "2"]

def withSecondModule (tree : Node) : PackageTree where
  files := [⟨["a.py"], rebindingModule⟩, ⟨["b.py"], tree⟩]
  valid := by simp only [List.forall_mem_cons]; decide
  python := by simp only [List.forall_mem_cons]; decide
  directories := by simp only [List.forall_mem_cons]; decide
  distinct := by simp only [List.map_cons]; decide

theorem second_reassignment_masked :
    ∃ file site,
      NewSite printDb (withSecondModule (.module [])) (withSecondModule rebindingModule) file site ∧
      ¬ Shown plainStdlib printDb baseCheckout headCheckout (withSecondModule (.module []))
        (withSecondModule rebindingModule) file site ∧
      ¬ KeyShown plainStdlib printDb baseCheckout headCheckout (withSecondModule (.module []))
        (withSecondModule rebindingModule) file site := by
  have hsites : effectSites printDb rebindingModule =
      [.mutation ⟨.moduleReassignment, "x", 2⟩] := by decide +kernel
  have hempty : effectSites printDb (.module []) = [] := by decide +kernel
  have hnew : NewSite printDb (withSecondModule (.module [])) (withSecondModule rebindingModule)
      ⟨["b.py"], rebindingModule⟩ (.mutation ⟨.moduleReassignment, "x", 2⟩) := by
    refine ⟨by simp [withSecondModule], by simp [hsites], ?_⟩
    intro old hold hmodule s hs
    simp only [withSecondModule, List.mem_cons, List.not_mem_nil, or_false] at hold
    rcases hold with rfl | rfl
    · exact absurd hmodule (by decide)
    · simp [hempty] at hs
  have hmasked : ¬ KeyShown plainStdlib printDb baseCheckout headCheckout
      (withSecondModule (.module [])) (withSecondModule rebindingModule)
      ⟨["b.py"], rebindingModule⟩ (.mutation ⟨.moduleReassignment, "x", 2⟩) := by
    have hold : ⟨["a.py"], rebindingModule⟩ ∈ (withSecondModule (.module [])).files := by
      simp [withSecondModule]
    have holdSite : .mutation ⟨.moduleReassignment, "x", 2⟩ ∈
        effectSites printDb rebindingModule := by simp [hsites]
    exact masked_of_mutation hnew hold holdSite rfl rfl
  exact ⟨_, _, hnew, fun hshown => hmasked hshown.keyShown, hmasked⟩

end SemanticCi.Extraction
