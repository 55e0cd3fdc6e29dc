import SemanticCi.Verification.Delta.Computed
import SemanticCi.Verification.Evaluator.Contribution
import SemanticCi.Verification.Extraction.Sites
import Mathlib.Data.Set.Finite.Basic

/-! One package below two roots: the two code states are interchangeable for the delta and the
baseline operators exactly when nothing that was extracted names the root. -/

namespace SemanticCi.Extraction

open SemanticCi.Python SemanticCi.Python.Ast SemanticCi.StateSchema SemanticCi.Framework
  SemanticCi.PathResolver SemanticCi.Operators SemanticCi.Evaluator

/-! ## What the root can change -/

/-- The root has an `__init__.py` of its own. -/
def HasRootModule (package : PackageTree) : Prop :=
  ∃ file ∈ package.files, file.path = ["__init__.py"]

def NoEffectSites (db : List EffectSignature) (package : PackageTree) : Prop :=
  ∀ file ∈ package.files, effectSites db file.tree = []

section Congruence

variable {r₁ r₂ : Root} {package : PackageTree}

/-- Modules have one name below both roots. -/
def SameNames (r₁ r₂ : Root) (files : List SourceFile) : Prop :=
  ∀ file ∈ files, moduleFqnFromPath r₁ file.path = moduleFqnFromPath r₂ file.path

theorem sameNames (h : HasRootModule package → r₁.name = r₂.name) :
    SameNames r₁ r₂ package.files :=
  fun file hfile => moduleFqnFromPath_congr hfile fun hpath => h ⟨file, hfile, hpath⟩

theorem sortPaths_files (r₁ r₂ : Root) (package : PackageTree) :
    sortPaths r₁ package.files = sortPaths r₂ package.files :=
  sortPaths_congr r₁ r₂ fun _ => PackageTree.path_ne_nil

theorem expandPythonPaths_congr {files : List SourceFile} (h : ∀ file ∈ files, file.path ≠ []) :
    expandPythonPaths r₁ files = expandPythonPaths r₂ files :=
  sortPaths_congr r₁ r₂ fun file hfile => h file (List.mem_filter.mp hfile).1

theorem mem_expandPythonPaths {files : List SourceFile} {file : SourceFile}
    (h : file ∈ expandPythonPaths r₁ files) : file ∈ files :=
  (List.mem_filter.mp ((mem_sortPaths _ _ _).mp h)).1

theorem moduleNames_congr {files : List SourceFile} (h : SameNames r₁ r₂ files) :
    moduleNames r₁ files = moduleNames r₂ files :=
  List.map_congr_left h

theorem forwardEdges_congr {files : List SourceFile} (h : SameNames r₁ r₂ files)
    (importer : String) : forwardEdges r₁ files importer = forwardEdges r₂ files importer := by
  have hpackages : packageModules r₁ files = packageModules r₂ files :=
    moduleNames_congr fun file hfile => h file (List.mem_filter.mp hfile).1
  have himporting : (files.filter fun file => moduleFqnFromPath r₁ file.path = importer) =
      files.filter fun file => moduleFqnFromPath r₂ file.path = importer :=
    List.filter_congr fun file hfile => by rw [h file hfile]
  simp only [forwardEdges, moduleNames_congr h, hpackages, himporting]

theorem extractPythonModuleGraph_congr (h : SameNames r₁ r₂ package.files) :
    extractPythonModuleGraph r₁ package = extractPythonModuleGraph r₂ package := by
  have hsorted : SameNames r₁ r₂ (sortPaths r₂ package.files) :=
    fun file hfile => h file ((mem_sortPaths _ _ _).mp hfile)
  simp only [extractPythonModuleGraph, moduleGraphOfFiles, sortPaths_files r₁ r₂,
    moduleNames_congr hsorted, forwardEdges_congr hsorted]

/-- Everything but the effects is extracted alike below both roots. -/
theorem extractPythonCodeState_congr (lib : Stdlib) (db : List EffectSignature)
    (h : SameNames r₁ r₂ package.files) :
    extractPythonCodeState lib db r₁ package =
      { extractPythonCodeState lib db r₂ package with
        effects := (extractPythonCodeState lib db r₁ package).effects } := by
  have hpaths : pythonPathsFromInputs r₁ package = pythonPathsFromInputs r₂ package := by
    rw [pythonPathsFromInputs_eq, pythonPathsFromInputs_eq, sortPaths_files r₁ r₂]
  have hmem : ∀ file ∈ pythonPathsFromInputs r₂ package, file ∈ package.files := by
    intro file hfile
    rwa [pythonPathsFromInputs_eq, mem_sortPaths] at hfile
  have hexpand : expandPythonPaths r₁ (pythonPathsFromInputs r₂ package) =
      expandPythonPaths r₂ (pythonPathsFromInputs r₂ package) :=
    expandPythonPaths_congr fun file hfile => PackageTree.path_ne_nil (hmem file hfile)
  have hnames : SameNames r₁ r₂ (expandPythonPaths r₂ (pythonPathsFromInputs r₂ package)) :=
    fun file hfile => h file (hmem file (mem_expandPythonPaths hfile))
  have hapi : extractPythonApiSurfaceFromPaths lib r₁ (pythonPathsFromInputs r₂ package) =
      extractPythonApiSurfaceFromPaths lib r₂ (pythonPathsFromInputs r₂ package) := by
    rw [extractPythonApiSurfaceFromPaths, extractPythonApiSurfaceFromPaths, hexpand]
    unfold apiSurfaceOfFiles
    exact congrArg sortSurfaceEntries
      (List.flatMap_congr fun file hfile => by rw [hnames file hfile])
  have hcomplexity : extractPythonComplexityFromPaths r₁ (pythonPathsFromInputs r₂ package) =
      extractPythonComplexityFromPaths r₂ (pythonPathsFromInputs r₂ package) := by
    rw [extractPythonComplexityFromPaths, extractPythonComplexityFromPaths, hexpand]
    unfold complexityOfFiles
    exact congrArg stableComplexityEntries
      (List.flatMap_congr fun file hfile => by rw [hnames file hfile])
  simp only [extractPythonCodeState, hpaths, hapi, hcomplexity, extractPythonImportsFromPaths,
    extractPythonTestSurfaceFromPaths, hexpand, extractPythonModuleGraph_congr h]

theorem effects_eq_nil (lib : Stdlib) {db : List EffectSignature} (root : Root)
    (h : NoEffectSites db package) : (extractPythonCodeState lib db root package).effects = [] := by
  rw [extractPythonCodeState_effects, List.flatMap_eq_nil_iff]
  intro file hfile
  rw [fileEntries, h file ((mem_sortPaths _ _ _).mp hfile), List.map_nil]

theorem extractPythonCodeState_eq (lib : Stdlib) {db : List EffectSignature}
    (hsites : NoEffectSites db package) (hroot : HasRootModule package → r₁.name = r₂.name) :
    extractPythonCodeState lib db r₁ package = extractPythonCodeState lib db r₂ package := by
  rw [extractPythonCodeState_congr lib db (sameNames hroot), effects_eq_nil lib r₁ hsites,
    ← effects_eq_nil lib r₂ hsites]

end Congruence

/-! ## Interchangeable states -/

def extractedDimensions : List String :=
  ["api_surface", "api_surface_public", "effects", "imports", "complexity", "test_surface",
    "module_graph"]

/-- The operator is satisfied on the two values of a dimension. -/
def BaselineSatisfied (operator : Operator) (dimension : String) (s₁ s₂ : CodeState) : Prop :=
  ∃ b c, resolveState s₁ [dimension] = some b ∧ resolveState s₂ [dimension] = some c ∧
    Judged (evaluateBaselineOperator operator b.toPy c.toPy) .satisfied none

/-- The delta is empty, and every baseline operator that a state satisfies against itself is
satisfied on every extracted dimension. -/
structure Interchangeable (s₁ s₂ : CodeState) : Prop where
  delta : Delta.computeCodeStateDelta s₁ s₂ = {}
  operators : ∀ operator ∈ reflexiveOperators, ∀ dimension ∈ extractedDimensions,
    BaselineSatisfied operator dimension s₁ s₂

theorem resolveState_dimension (s : CodeState) : ∀ dimension ∈ extractedDimensions,
    ∃ items, resolveState s [dimension] = some (.array items) := by
  simp only [extractedDimensions, List.forall_mem_cons]
  exact ⟨⟨_, rfl⟩, ⟨_, resolveState_apiSurfacePublic s⟩, ⟨_, rfl⟩, ⟨_, rfl⟩, ⟨_, rfl⟩, ⟨_, rfl⟩,
    ⟨_, rfl⟩, by simp⟩

theorem Interchangeable.refl (s : CodeState) : Interchangeable s s := by
  refine ⟨Delta.computeCodeStateDelta_self s, fun operator hop dimension hdimension => ?_⟩
  obtain ⟨items, hitems⟩ := resolveState_dimension s dimension hdimension
  refine ⟨_, _, hitems, hitems, ?_⟩
  obtain ⟨w, hw, hnorm⟩ := canon_toPy (.array items)
  have hbaseline : operator ∈ baselineOperators := by
    revert operator
    decide
  have hdecides := decides_baselineOperator hbaseline hw hw fun _ => by
    rw [hnorm, jsonNorm_array]
    exact ⟨trivial, trivial⟩
  apply hdecides.evaluateBaselineOperator.satisfied
  simp only [reflexiveOperators, List.mem_cons, List.not_mem_nil, or_false] at hop
  rcases hop with rfl | rfl | rfl | rfl | rfl <;> simp [BaselineHolds]

/-- `equals_baseline` compares canonical forms. -/
theorem Interchangeable.norm_eq {s₁ s₂ : CodeState} (h : Interchangeable s₁ s₂)
    {dimension : String} (hdimension : dimension ∈ extractedDimensions) {b c : JsonValue}
    (hb : resolveState s₁ [dimension] = some b) (hc : resolveState s₂ [dimension] = some c) :
    jsonNorm b = jsonNorm c := by
  obtain ⟨b', c', hb', hc', hjudged⟩ :=
    h.operators .equalsBaseline (by decide) dimension hdimension
  cases hb.symm.trans hb'
  cases hc.symm.trans hc'
  obtain ⟨w, hw, hwnorm⟩ := canon_toPy b
  obtain ⟨v, hv, hvnorm⟩ := canon_toPy c
  have hbaseline : Operator.equalsBaseline ∈ baselineOperators := by decide
  have hdecides := decides_baselineOperator hbaseline hw hv fun hset => absurd hset (by decide)
  have hholds := hdecides.evaluateBaselineOperator.of_satisfied hjudged
  rw [← hwnorm, ← hvnorm]
  exact hholds.symm

/-! ## What betrays the root -/

theorem flatMap_inj {α β : Type} {f g : α → List β} {xs : List α}
    (hlength : ∀ x ∈ xs, (f x).length = (g x).length) (h : xs.flatMap f = xs.flatMap g) :
    ∀ x ∈ xs, f x = g x := by
  induction xs with
  | nil => simp
  | cons x rest ih =>
    rw [List.flatMap_cons, List.flatMap_cons] at h
    obtain ⟨hx, hrest⟩ := List.append_inj h (hlength x (by simp))
    intro y hy
    rcases List.mem_cons.mp hy with rfl | hy
    · exact hx
    · exact ih (fun z hz => hlength z (by simp [hz])) hrest y hy

theorem EffectSite.evidence_file (filename moduleFqn : String) (s : EffectSite) :
    ∃ items, (s.entry filename moduleFqn).evidence = .object items ∧
      JsonValue.get? items "file" = some (.str filename) := by
  cases s with
  | call site => exact ⟨_, rfl, rfl⟩
  | mutation site => exact ⟨_, rfl, rfl⟩

/-- The canonical form of an entry shows its file. -/
theorem EffectSite.filename_eq {filename filename' moduleFqn moduleFqn' : String}
    {s s' : EffectSite}
    (h : jsonNorm (.object (s.entry filename moduleFqn).dump) =
      jsonNorm (.object (s'.entry filename' moduleFqn').dump)) : filename = filename' := by
  have hevidence := (effectEntry_norm_fields h).2.2
  obtain ⟨items, hitems, hfile⟩ := s.evidence_file filename moduleFqn
  obtain ⟨items', hitems', hfile'⟩ := s'.evidence_file filename' moduleFqn'
  rw [hitems, hitems'] at hevidence
  have hlookup := get?_of_jsonNorm_eq hevidence "file"
  simpa [hfile, hfile'] using hlookup

section Violations

variable {lib : Stdlib} {db : List EffectSignature} {r₁ r₂ : Root} {package : PackageTree}

/-- Below two different roots, no effect site may be left. -/
theorem noEffectSites_of_interchangeable (hne : r₁ ≠ r₂)
    (h : Interchangeable (extractPythonCodeState lib db r₁ package)
      (extractPythonCodeState lib db r₂ package)) : NoEffectSites db package := by
  have hdimension : "effects" ∈ extractedDimensions := by decide
  have hnorm := h.norm_eq hdimension rfl rfl
  rw [jsonNorm_records, jsonNorm_records, extractPythonCodeState_effects,
    extractPythonCodeState_effects, sortPaths_files r₁ r₂, Norm.tuple.injEq, List.map_flatMap,
    List.map_flatMap] at hnorm
  intro file hfile
  by_contra hsites
  obtain ⟨s, hs⟩ := List.exists_mem_of_ne_nil _ hsites
  have hentries := flatMap_inj (fun file _ => by simp [fileEntries]) hnorm file
    ((mem_sortPaths _ _ _).mpr hfile)
  rw [fileEntries, fileEntries, List.map_map, List.map_map] at hentries
  have hentry := List.map_inj_left.mp hentries s hs
  exact hne (PackageTree.root_eq_of_absoluteText_eq hfile (EffectSite.filename_eq hentry))

theorem mem_modules_iff (root : Root) (package : PackageTree) (module : String) :
    module ∈ (extractPythonModuleGraph root package).map (·.module) ↔
      ∃ file ∈ package.files, moduleFqnFromPath root file.path = module := by
  simp only [extractPythonModuleGraph, moduleGraphOfFiles, List.map_map, Function.comp_def,
    List.map_id', List.mem_insertionSort, List.mem_dedup, moduleNames, List.mem_map,
    mem_sortPaths]

/-- A module below the root has this name. -/
def NameTaken (package : PackageTree) (name : String) : Prop :=
  ∃ file ∈ package.files, moduleParts file.path ≠ [] ∧ ".".intercalate (moduleParts file.path) = name

theorem moduleFqnFromPath_root (root : Root) :
    moduleFqnFromPath root ["__init__.py"] = root.name := by
  have hparts : moduleParts ["__init__.py"] = [] := by decide +kernel
  simp [moduleFqnFromPath, hparts, Root.name]

/-- The module of one root is a module of the package below the other. -/
theorem name_eq_or_taken (hroot : HasRootModule package)
    (h : ∀ module, (∃ file ∈ package.files, moduleFqnFromPath r₁ file.path = module) →
      ∃ file ∈ package.files, moduleFqnFromPath r₂ file.path = module) :
    r₁.name = r₂.name ∨ NameTaken package r₁.name := by
  obtain ⟨file, hfile, hpath⟩ := hroot
  obtain ⟨other, hother, hname⟩ := h r₁.name ⟨file, hfile, hpath ▸ moduleFqnFromPath_root r₁⟩
  by_cases hparts : moduleParts other.path = []
  · have hroot := (moduleParts_eq_nil_iff (package.python other hother)).mp hparts
    rw [hroot, moduleFqnFromPath_root] at hname
    exact .inl hname.symm
  · refine .inr ⟨other, hother, hparts, ?_⟩
    simpa [moduleFqnFromPath, hparts] using hname

theorem modules_eq_of_interchangeable
    (h : Interchangeable (extractPythonCodeState lib db r₁ package)
      (extractPythonCodeState lib db r₂ package)) :
    extractPythonModuleGraph r₁ package = extractPythonModuleGraph r₂ package := by
  have hdimension : "module_graph" ∈ extractedDimensions := by decide
  have hnorm := h.norm_eq hdimension rfl rfl
  rw [jsonNorm_records, jsonNorm_records, Norm.tuple.injEq] at hnorm
  exact List.map_injective_iff.mpr (fun _ _ => moduleGraphEntry_norm_inj) hnorm

/-- The module of the root bears one name below both roots, unless both names belong to other
modules. -/
theorem rootNames_of_interchangeable (hroot : HasRootModule package)
    (h : Interchangeable (extractPythonCodeState lib db r₁ package)
      (extractPythonCodeState lib db r₂ package)) :
    r₁.name = r₂.name ∨ NameTaken package r₁.name ∧ NameTaken package r₂.name := by
  have hmodules (module : String) :
      (∃ file ∈ package.files, moduleFqnFromPath r₁ file.path = module) ↔
        ∃ file ∈ package.files, moduleFqnFromPath r₂ file.path = module := by
    rw [← mem_modules_iff, ← mem_modules_iff, modules_eq_of_interchangeable h]
  rcases name_eq_or_taken hroot fun module => (hmodules module).mp with heq | htaken₁
  · exact .inl heq
  · rcases name_eq_or_taken hroot fun module => (hmodules module).mpr with heq | htaken₂
    · exact .inl heq.symm
    · exact .inr ⟨htaken₁, htaken₂⟩

end Violations

/-! ## All roots -/

/-- A directory below `/`. -/
def topLevel (name : String) (h : ValidPart name) : Root := ⟨[name], by simpa using h⟩

/-- A supply of directory names. -/
def sparseName (k : ℕ) : String := String.ofList (List.replicate (k + 2) 'a')

theorem length_sparseName (k : ℕ) : (sparseName k).length = k + 2 := by simp [sparseName]

theorem sparseName_injective : Function.Injective sparseName := by
  intro j k hjk
  have hlength := congrArg String.length hjk
  rw [length_sparseName, length_sparseName] at hlength
  omega

theorem validPart_sparseName (k : ℕ) : ValidPart (sparseName k) := by
  constructor
  · intro hempty
    have hlength := congrArg String.length hempty
    rw [length_sparseName, String.length_empty] at hlength
    omega
  · simp [sparseName]

/-- Some directory name belongs to no module. -/
theorem exists_fresh_root (package : PackageTree) :
    ∃ root : Root, root.name ≠ "b" ∧ ¬ NameTaken package root.name := by
  obtain ⟨_, ⟨k, rfl⟩, hfresh⟩ :=
    (Set.infinite_range_of_injective sparseName_injective).exists_notMem_finset
      (package.files.map fun file => ".".intercalate (moduleParts file.path)).toFinset
  refine ⟨topLevel (sparseName k) (validPart_sparseName k), ?_, ?_⟩
  · intro hb
    have hlength : (sparseName k).length = "b".length := congrArg String.length hb
    rw [length_sparseName] at hlength
    have hone : "b".length = 1 := by decide
    omega
  · rintro ⟨file, hfile, -, heq⟩
    apply hfresh
    rw [List.mem_toFinset, List.mem_map]
    exact ⟨file, hfile, heq⟩

/-- Extraction does not depend on the checkout exactly for the packages without effect sites and
without an `__init__.py` in their root. For two given roots, two equal names of the roots are
enough for the second half, and needed unless both are names of other modules. -/
theorem checkout_independent_iff (lib : Stdlib) (db : List EffectSignature)
    (package : PackageTree) :
    ((∀ r₁ r₂, r₁ ≠ r₂ → Interchangeable (extractPythonCodeState lib db r₁ package)
        (extractPythonCodeState lib db r₂ package)) ↔
      NoEffectSites db package ∧ ¬ HasRootModule package) ∧
    ∀ r₁ r₂, r₁ ≠ r₂ → ¬ (NameTaken package r₁.name ∧ NameTaken package r₂.name) →
      (Interchangeable (extractPythonCodeState lib db r₁ package)
          (extractPythonCodeState lib db r₂ package) ↔
        NoEffectSites db package ∧ (HasRootModule package → r₁.name = r₂.name)) := by
  have hpair : ∀ r₁ r₂ : Root, r₁ ≠ r₂ →
      ¬ (NameTaken package r₁.name ∧ NameTaken package r₂.name) →
      (Interchangeable (extractPythonCodeState lib db r₁ package)
          (extractPythonCodeState lib db r₂ package) ↔
        NoEffectSites db package ∧ (HasRootModule package → r₁.name = r₂.name)) := by
    intro r₁ r₂ hne hfree
    constructor
    · intro h
      refine ⟨noEffectSites_of_interchangeable hne h, fun hroot => ?_⟩
      exact (rootNames_of_interchangeable hroot h).resolve_right hfree
    · rintro ⟨hsites, hroot⟩
      rw [extractPythonCodeState_eq lib hsites hroot]
      exact Interchangeable.refl _
  refine ⟨⟨fun h => ?_, ?_⟩, hpair⟩
  · obtain ⟨root, hname, hfresh⟩ := exists_fresh_root package
    have hne : root ≠ topLevel "b" (by decide) := by
      rintro rfl
      exact hname rfl
    have hconclusion := (hpair root _ hne fun htaken => hfresh htaken.1).mp (h _ _ hne)
    exact ⟨hconclusion.1, fun hroot => hname (hconclusion.2 hroot)⟩
  · rintro ⟨hsites, hroot⟩ r₁ r₂ -
    rw [extractPythonCodeState_eq lib hsites fun h => absurd h hroot]
    exact Interchangeable.refl _

/-! A module that prints, and a package that is its own root module. -/

def printingPackage : PackageTree where
  files := [⟨["a.py"], .module [.other "Expr" [] (some ⟨1, 0, 1⟩)
    [.call ⟨1, 0, 1⟩ (.name ⟨1, 0, 1⟩ "print")
      [.other "Constant" ["'a'"] (some ⟨1, 6, 1⟩) []] []]]⟩]
  valid := by simp only [List.forall_mem_cons]; decide
  python := by simp only [List.forall_mem_cons]; decide
  directories := by simp only [List.forall_mem_cons]; decide
  distinct := by simp

def rootPackage : PackageTree where
  files := [⟨["__init__.py"], .module []⟩]
  valid := by decide
  python := by decide
  directories := by decide
  distinct := by decide

theorem checkout_shows :
    ¬ Interchangeable (extractPythonCodeState plainStdlib printDb baseCheckout printingPackage)
      (extractPythonCodeState plainStdlib printDb headCheckout printingPackage) ∧
    ¬ Interchangeable (extractPythonCodeState plainStdlib printDb baseCheckout rootPackage)
      (extractPythonCodeState plainStdlib printDb headCheckout rootPackage) := by
  have hnames : baseCheckout.name ≠ headCheckout.name := by decide
  have hroots : baseCheckout ≠ headCheckout := fun h => hnames (congrArg Root.name h)
  constructor
  · intro h
    have hnone := noEffectSites_of_interchangeable hroots h
    have hsites : ∃ file ∈ printingPackage.files, effectSites printDb file.tree ≠ [] :=
      ⟨_, List.mem_singleton_self _, by decide +kernel⟩
    obtain ⟨file, hfile, hne⟩ := hsites
    exact hne (hnone file hfile)
  · intro h
    have hroot : HasRootModule rootPackage := ⟨_, List.mem_singleton_self _, rfl⟩
    have hparts : moduleParts ["__init__.py"] = [] := by decide +kernel
    rcases rootNames_of_interchangeable hroot h with hname | ⟨⟨file, hfile, htaken, -⟩, -⟩
    · exact hnames hname
    · obtain rfl := List.mem_singleton.mp hfile
      exact htaken hparts

end SemanticCi.Extraction
