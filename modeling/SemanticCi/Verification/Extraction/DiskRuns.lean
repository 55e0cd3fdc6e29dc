import SemanticCi.Library.ExceptRules
import SemanticCi.Library.KeyedSort
import SemanticCi.Model.ExtractionPipeline
import SemanticCi.Verification.Extraction.Paths

/-! What an extraction reads from the disk, and the code state that it gives when all of it can
be read. -/

namespace SemanticCi.Extraction

open SemanticCi.Python SemanticCi.StateSchema ExceptRules KeyedSort

/-! ## Sorted paths -/

section Sorted

variable (root : Root) (paths : List PurePath)

theorem sortPurePaths_perm : (sortPurePaths root paths).Perm paths := List.perm_insertionSort _ _

theorem mem_sortPurePaths (path : PurePath) : path ∈ sortPurePaths root paths ↔ path ∈ paths :=
  List.mem_insertionSort _

theorem sortPurePaths_eq_sortBy : sortPurePaths root paths = sortBy (absoluteText root) paths := by
  unfold sortPurePaths sortBy
  congr

theorem pairwise_sortPurePaths :
    (sortPurePaths root paths).Pairwise fun a b => absoluteText root a ≤ absoluteText root b := by
  rw [sortPurePaths_eq_sortBy]
  exact sortBy_pairwise _ _

theorem sortPurePaths_filter (p : PurePath → Bool) :
    sortPurePaths root (paths.filter p) = (sortPurePaths root paths).filter p := by
  rw [sortPurePaths_eq_sortBy, sortPurePaths_eq_sortBy, sortBy_filter]

theorem pythonPaths_eq (layout : DiskLayout) :
    layout.pythonPaths root = sortPurePaths root layout.found := by
  rw [DiskLayout.pythonPaths, sortPurePaths_eq_sortBy]
  exact (pairwise_sortPurePaths root layout.found).insertionSort_eq

end Sorted

namespace DiskLayout

variable {layout : DiskLayout}

theorem absoluteText_injective (root : Root) {a b : PurePath} (ha : a ∈ layout.found)
    (hb : b ∈ layout.found) (h : absoluteText root a = absoluteText root b) : a = b := by
  have hane := path_ne_nil_of_python (layout.python a ha)
  have hbne := path_ne_nil_of_python (layout.python b hb)
  rw [absoluteText_eq root hane, absoluteText_eq root hbne] at h
  exact text_injective (layout.valid a ha) (layout.valid b hb) hane hbne
    ((String.append_right_inj _).mp h)

/-- No path is a file and a directory. -/
theorem notMem_directories {path : PurePath} (h : path ∈ layout.files) :
    path ∉ layout.directories := fun hdirectory =>
  (List.nodup_append.mp layout.distinct).2.2 path h path hdirectory rfl

theorem mem_expandPaths_iff (root : Root) (paths : List PurePath) (path : PurePath) :
    path ∈ layout.expandPaths root paths ↔
      (∃ directory ∈ paths, directory ∈ layout.directories ∧ path ∈ layout.found ∧
        isInside directory path) ∨
      path ∈ paths ∧ path ∉ layout.directories ∧ path.suffix = ".py" := by
  rw [expandPaths, mem_sortPurePaths, List.mem_flatMap]
  constructor
  · rintro ⟨source, hsource, hpath⟩
    rw [expandPath] at hpath
    split at hpath
    · next hdirectory =>
        obtain ⟨hfound, hinside⟩ := List.mem_filter.mp hpath
        exact Or.inl ⟨source, hsource, hdirectory, hfound, hinside⟩
    · next hfile =>
        split at hpath
        · next hsuffix =>
            obtain rfl := List.mem_singleton.mp hpath
            exact Or.inr ⟨hsource, hfile, hsuffix⟩
        · cases hpath
  · rintro (⟨directory, hmem, hdirectory, hfound, hinside⟩ | ⟨hmem, hfile, hsuffix⟩)
    · refine ⟨directory, hmem, ?_⟩
      rw [expandPath, if_pos hdirectory]
      exact List.mem_filter.mpr ⟨hfound, hinside⟩
    · refine ⟨path, hmem, ?_⟩
      rw [expandPath, if_neg hfile, if_pos hsuffix]
      exact List.mem_singleton.mpr rfl

end DiskLayout

/-! ## Reading -/

/-- A file that is read and parsed. -/
def DiskTree.Readable (disk : DiskTree) (path : PurePath) : Prop :=
  path ∉ disk.directories ∧ ∃ tree, disk.contents path = .ok tree

/-- The file at a path that can be read. -/
def DiskTree.fileAt (disk : DiskTree) (path : PurePath) : SourceFile :=
  ⟨path, (disk.contents path).toOption.getD (.module [])⟩

section Reading

variable {root : Root} {disk : DiskTree} {paths : List PurePath}

theorem read_eq_ok_iff {path : PurePath} {file : SourceFile} :
    disk.read root path = .ok file ↔ disk.Readable path ∧ file = disk.fileAt path := by
  rw [DiskTree.read, DiskTree.Readable]
  by_cases hdirectory : path ∈ disk.directories
  · simp [hdirectory]
  · cases hcontents : disk.contents path with
    | error _ => simp [hdirectory]
    | ok tree => simp [hdirectory, DiskTree.fileAt, hcontents, Except.toOption, eq_comm]

theorem mapM_read_eq_ok_iff {files : List SourceFile} :
    paths.mapM (disk.read root) = .ok files ↔
      (∀ path ∈ paths, disk.Readable path) ∧ files = paths.map disk.fileAt := by
  rw [mapM_eq_ok_iff]
  simp only [read_eq_ok_iff]
  constructor
  · intro h
    refine ⟨fun path hpath => ?_, ?_⟩
    · obtain ⟨file, -, hfile⟩ := exists_of_mem_forall₂ h.flip hpath
      exact hfile.1
    · have hmap := map_eq_of_forall₂ (f := disk.fileAt) (g := id) (fun _ _ h => h.2) h
      simpa using hmap
  · rintro ⟨hreadable, rfl⟩
    rw [List.forall₂_map_right_iff, List.forall₂_same]
    exact fun path hpath => ⟨hreadable path hpath, rfl⟩

theorem runExtractor_eq_ok_iff {α : Type} {name : String} {path : Option String}
    {action : Except ReadError α} {value : α} :
    runExtractor name path action = .ok value ↔ action = .ok value := by
  cases action <;> simp [runExtractor]

theorem extractDimension_eq_ok_iff {α : Type} {dimensions : Option (Finset String)}
    {dimension : String} {action : Except ExtractorError (List α)} {records : List α} :
    extractDimension dimensions dimension action = .ok records ↔
      if shouldExtract dimension dimensions then action = .ok records else records = [] := by
  rw [extractDimension]
  split <;> simp [eq_comm]

/-- What a dimension contributes when its extractor makes `made` of the paths it reads. -/
theorem extractDimension_iff {α : Type} {dimensions : Option (Finset String)} {dimension : String}
    {action : Except ExtractorError (List α)} {made records : List α}
    (haction : ∀ records, action = .ok records ↔
      (∀ path ∈ paths, disk.Readable path) ∧ records = made) :
    extractDimension dimensions dimension action = .ok records ↔
      (shouldExtract dimension dimensions → ∀ path ∈ paths, disk.Readable path) ∧
        records = if shouldExtract dimension dimensions then made else [] := by
  rw [extractDimension_eq_ok_iff]
  by_cases h : shouldExtract dimension dimensions <;> simp [h, haction]

theorem extractPaths_eq_ok_iff {α : Type} {name : String} {extractor : List SourceFile → List α}
    {records : List α} :
    extractPaths root disk paths name extractor = .ok records ↔
      (∀ path ∈ disk.expandPaths root paths, disk.Readable path) ∧
        records = extractor ((disk.expandPaths root paths).map disk.fileAt) := by
  rw [extractPaths, runExtractor_eq_ok_iff, bind_eq_ok_iff]
  simp only [mapM_read_eq_ok_iff, pure_eq_ok, Except.ok.injEq]
  constructor
  · rintro ⟨files, ⟨hreadable, rfl⟩, rfl⟩
    exact ⟨hreadable, rfl⟩
  · rintro ⟨hreadable, rfl⟩
    exact ⟨_, ⟨hreadable, rfl⟩, rfl⟩

theorem extractReadEffects_eq_ok_iff {db : List EffectSignature} {entries : List EffectEntry} :
    extractReadEffects root disk paths db = .ok entries ↔
      (∀ path ∈ paths, disk.Readable path) ∧
        entries = extractEffects db root (paths.map disk.fileAt) := by
  have hpath {path : PurePath} {found : List EffectEntry} :
      (runExtractor "effects" (some (absoluteText root path)) do
        let file ← disk.read root path
        return extractPythonEffects db (absoluteText root path) (moduleFqnFromPath root path)
          file.tree) = .ok found ↔
      disk.Readable path ∧ found = extractPythonEffects db (absoluteText root path)
        (moduleFqnFromPath root path) (disk.fileAt path).tree := by
    rw [runExtractor_eq_ok_iff, bind_eq_ok_iff]
    simp only [read_eq_ok_iff, pure_eq_ok, Except.ok.injEq]
    constructor
    · rintro ⟨file, ⟨hreadable, rfl⟩, rfl⟩
      exact ⟨hreadable, rfl⟩
    · rintro ⟨hreadable, rfl⟩
      exact ⟨_, ⟨hreadable, rfl⟩, rfl⟩
  rw [extractReadEffects, bind_eq_ok_iff]
  constructor
  · rintro ⟨found, hfound, hentries⟩
    have hfound := (mapM_eq_ok_iff.mp hfound).imp fun _ _ h => hpath.mp h
    refine ⟨fun path hmem => ?_, ?_⟩
    · obtain ⟨_, -, h⟩ := exists_of_mem_forall₂ hfound.flip hmem
      exact h.1
    · have hmap := map_eq_of_forall₂ (g := id) (fun _ _ h => h.2) hfound
      rw [List.map_id] at hmap
      rw [← Except.ok.inj hentries, hmap, extractEffects, List.flatMap_map]
      rfl
  · rintro ⟨hreadable, rfl⟩
    refine ⟨paths.map fun path => extractPythonEffects db (absoluteText root path)
      (moduleFqnFromPath root path) (disk.fileAt path).tree, ?_, ?_⟩
    · rw [mapM_eq_ok_iff, List.forall₂_map_right_iff, List.forall₂_same]
      exact fun path hmem => hpath.mpr ⟨hreadable path hmem, rfl⟩
    · rw [extractEffects, List.flatMap_map]
      rfl

end Reading

/-! ## Runs -/

/-- The paths that the filter leaves. The module graph looks for the same ones. -/
def keptPaths (root : Root) (layout : DiskLayout) (config : Option ExtractConfig) :
    List PurePath :=
  (filterExcludedPaths root (layout.pythonPaths root) config).1

/-- An extractor that expands its paths is called. -/
def ExpandsPaths (dimensions : Option (Finset String)) : Prop :=
  ∃ name ∈ ["api_surface", "imports", "complexity", "test_surface"],
    shouldExtract name dimensions

/-- An extractor that reads every path as it is is called. -/
def ReadsPaths (dimensions : Option (Finset String)) : Prop :=
  shouldExtract "effects" dimensions ∨ shouldExtract "module_graph" dimensions

/-- The paths that a run reads. -/
inductive Reads (root : Root) (layout : DiskLayout) (dimensions : Option (Finset String))
    (config : Option ExtractConfig) (path : PurePath) : Prop where
  | expanded (hdimensions : ExpandsPaths dimensions)
      (h : path ∈ layout.expandPaths root (keptPaths root layout config))
  | kept (hdimensions : ReadsPaths dimensions) (h : path ∈ keptPaths root layout config)

/-- The code state of some files, expanded and as they are. -/
def codeStateOfFiles (lib : Stdlib) (db : List EffectSignature) (root : Root)
    (dimensions : Option (Finset String)) (expanded kept : List SourceFile) : CodeState where
  apiSurface :=
    if shouldExtract "api_surface" dimensions then apiSurfaceOfFiles lib root expanded else []
  effects := if shouldExtract "effects" dimensions then extractEffects db root kept else []
  imports := if shouldExtract "imports" dimensions then importsOfFiles expanded else []
  complexity := if shouldExtract "complexity" dimensions then complexityOfFiles root expanded else []
  testSurface := if shouldExtract "test_surface" dimensions then testSurfaceOfFiles expanded else []
  moduleGraph := if shouldExtract "module_graph" dimensions then moduleGraphOfFiles root kept else []

section Runs

variable (lib : Stdlib) (db : List EffectSignature) (root : Root) (disk : DiskTree)
variable (dimensions : Option (Finset String)) (config : Option ExtractConfig)

theorem discoverModulePaths_eq :
    discoverModulePaths root disk config = keptPaths root disk.toDiskLayout config := by
  rw [discoverModulePaths, keptPaths, pythonPaths_eq]

theorem extractModuleGraph_eq_ok_iff {entries : List ModuleGraphEntry} :
    extractModuleGraph root disk config = .ok entries ↔
      (∀ path ∈ keptPaths root disk.toDiskLayout config, disk.Readable path) ∧
        entries = moduleGraphOfFiles root
          ((keptPaths root disk.toDiskLayout config).map disk.fileAt) := by
  rw [extractModuleGraph, runExtractor_eq_ok_iff, bind_eq_ok_iff, discoverModulePaths_eq]
  simp only [mapM_read_eq_ok_iff, pure_eq_ok, Except.ok.injEq]
  constructor
  · rintro ⟨files, ⟨hreadable, rfl⟩, rfl⟩
    exact ⟨hreadable, rfl⟩
  · rintro ⟨hreadable, rfl⟩
    exact ⟨_, ⟨hreadable, rfl⟩, rfl⟩

theorem forall_reads_iff (layout : DiskLayout) (p : PurePath → Prop) :
    (∀ path, Reads root layout dimensions config path → p path) ↔
      (ExpandsPaths dimensions →
        ∀ path ∈ layout.expandPaths root (keptPaths root layout config), p path) ∧
      (ReadsPaths dimensions → ∀ path ∈ keptPaths root layout config, p path) := by
  constructor
  · exact fun h => ⟨fun hd path hp => h path (.expanded hd hp),
      fun hd path hp => h path (.kept hd hp)⟩
  · rintro ⟨hexpanded, hkept⟩ path (⟨hd, hp⟩ | ⟨hd, hp⟩)
    · exact hexpanded hd path hp
    · exact hkept hd path hp

/-- A run succeeds if everything it reads can be read. -/
theorem run_eq_ok_iff (state : CodeState) :
    extractPythonCodeStateResult lib db root disk dimensions config = .ok state ↔
      (∀ path, Reads root disk.toDiskLayout dimensions config path → disk.Readable path) ∧
        state = codeStateOfFiles lib db root dimensions
          ((disk.expandPaths root (keptPaths root disk.toDiskLayout config)).map disk.fileAt)
          ((keptPaths root disk.toDiskLayout config).map disk.fileAt) := by
  rw [forall_reads_iff, extractPythonCodeStateResult, assembleCodeState]
  simp only [bind_eq_ok_iff, pure_eq_ok, Except.ok.injEq, extractApiSurface, extractImports,
    extractComplexity, extractTestSurface]
  constructor
  · rintro ⟨apiSurface, hapi, effects, heffects, imports, himports, complexity, hcomplexity,
      testSurface, htests, moduleGraph, hgraph, rfl⟩
    obtain ⟨hapiReads, rfl⟩ := (extractDimension_iff fun _ => extractPaths_eq_ok_iff).mp hapi
    obtain ⟨heffectReads, rfl⟩ :=
      (extractDimension_iff fun _ => extractReadEffects_eq_ok_iff).mp heffects
    obtain ⟨himportReads, rfl⟩ := (extractDimension_iff fun _ => extractPaths_eq_ok_iff).mp himports
    obtain ⟨hcomplexityReads, rfl⟩ :=
      (extractDimension_iff fun _ => extractPaths_eq_ok_iff).mp hcomplexity
    obtain ⟨htestReads, rfl⟩ := (extractDimension_iff fun _ => extractPaths_eq_ok_iff).mp htests
    obtain ⟨hgraphReads, rfl⟩ :=
      (extractDimension_iff fun _ => extractModuleGraph_eq_ok_iff root disk config).mp hgraph
    refine ⟨⟨?_, ?_⟩, rfl⟩
    · rintro ⟨name, hname, h⟩
      simp only [List.mem_cons, List.not_mem_nil, or_false] at hname
      rcases hname with rfl | rfl | rfl | rfl
      · exact hapiReads h
      · exact himportReads h
      · exact hcomplexityReads h
      · exact htestReads h
    · rintro (h | h)
      · exact heffectReads h
      · exact hgraphReads h
  · rintro ⟨⟨hexpanded, hkept⟩, rfl⟩
    have hexpands {name : String} (hname : name ∈ ["api_surface", "imports", "complexity",
        "test_surface"]) (h : shouldExtract name dimensions) := hexpanded ⟨name, hname, h⟩
    refine ⟨_, (extractDimension_iff fun _ => extractPaths_eq_ok_iff).mpr ⟨hexpands (by simp), rfl⟩,
      _, (extractDimension_iff fun _ => extractReadEffects_eq_ok_iff).mpr
        ⟨fun h => hkept (Or.inl h), rfl⟩,
      _, (extractDimension_iff fun _ => extractPaths_eq_ok_iff).mpr ⟨hexpands (by simp), rfl⟩,
      _, (extractDimension_iff fun _ => extractPaths_eq_ok_iff).mpr ⟨hexpands (by simp), rfl⟩,
      _, (extractDimension_iff fun _ => extractPaths_eq_ok_iff).mpr ⟨hexpands (by simp), rfl⟩,
      _, (extractDimension_iff fun _ => extractModuleGraph_eq_ok_iff root disk config).mpr
        ⟨fun h => hkept (Or.inr h), rfl⟩, rfl⟩

end Runs

/-! ## Packages -/

/-- The package on disk. -/
def DiskTree.ofPackage (package : PackageTree) : DiskTree where
  files := package.files.map (·.path)
  directories := []
  valid path hpath := by
    rw [List.append_nil] at hpath
    obtain ⟨file, hfile, rfl⟩ := List.mem_map.mp hpath
    exact package.valid file hfile
  python path hpath := by
    rw [List.append_nil] at hpath
    obtain ⟨file, hfile, rfl⟩ := List.mem_map.mp hpath
    exact package.python file hfile
  distinct := by
    rw [List.append_nil]
    exact package.distinct
  above path hpath front hinside hpython := by
    rw [List.append_nil] at hpath
    obtain ⟨file, hfile, rfl⟩ := List.mem_map.mp hpath
    simp only [isInside, decide_eq_true_eq, List.isPrefixOf_iff_prefix] at hinside
    obtain ⟨⟨rest, hrest⟩, hne⟩ := hinside
    have hfront := path_ne_nil_of_python hpython
    have hrestNe : rest ≠ [] := by
      rintro rfl
      exact hne (by simpa using hrest)
    have hname : front.name ∈ file.path.dropLast := by
      rw [← hrest, List.dropLast_append_of_ne_nil hrestNe, PurePath.name,
        List.getLastD_eq_getLast?, List.getLast?_eq_some_getLast hfront]
      exact List.mem_append_left _ (List.getLast_mem hfront)
    rw [package.directories file hfile _ hname] at hpython
    cases hpython
  contents path :=
    match package.files.find? fun file => file.path = path with
    | some file => .ok file.tree
    | none => .error ⟨none⟩

section Package

variable {package : PackageTree}

theorem contents_ofPackage {file : SourceFile} (h : file ∈ package.files) :
    (DiskTree.ofPackage package).contents file.path = .ok file.tree := by
  have hfind : (package.files.find? fun other => other.path = file.path) = some file := by
    cases hfind : package.files.find? fun other => other.path = file.path with
    | none => exact absurd (by simp) (List.find?_eq_none.mp hfind file h)
    | some other =>
        have hpath : other.path = file.path := by simpa using List.find?_some hfind
        rw [List.inj_on_of_nodup_map package.distinct (List.mem_of_find?_eq_some hfind) h hpath]
  simp only [DiskTree.ofPackage, hfind]

theorem fileAt_ofPackage {file : SourceFile} (h : file ∈ package.files) :
    (DiskTree.ofPackage package).fileAt file.path = file := by
  rw [DiskTree.fileAt, contents_ofPackage h]
  rfl

theorem sortPurePaths_map_path (root : Root) (files : List SourceFile) :
    sortPurePaths root (files.map (·.path)) = (sortPaths root files).map (·.path) :=
  (List.map_insertionSort (fun a b : SourceFile => absoluteText root a.path ≤
    absoluteText root b.path) _ (·.path) files fun _ _ _ _ => Iff.rfl).symm

theorem flatMap_expandPath_ofPackage (files : List SourceFile) :
    (files.map (·.path)).flatMap (DiskTree.ofPackage package).expandPath =
      (files.filter fun file => file.path.suffix = ".py").map (·.path) := by
  induction files with
  | nil => rfl
  | cons file files ih =>
      have hfile : (DiskTree.ofPackage package).expandPath file.path =
          if file.path.suffix = ".py" then [file.path] else [] := if_neg List.not_mem_nil
      rw [List.map_cons, List.flatMap_cons, ih, hfile]
      by_cases hsuffix : file.path.suffix = ".py" <;> simp [hsuffix]

/-- With all dimensions and nothing excluded, what is extracted from a package without such
directories is the code state of the package. -/
theorem run_ofPackage (lib : Stdlib) (db : List EffectSignature) (root : Root) :
    extractPythonCodeStateResult lib db root (DiskTree.ofPackage package) none none =
      .ok (extractPythonCodeState lib db root package) := by
  have hkept : keptPaths root (DiskTree.ofPackage package).toDiskLayout none =
      (sortPaths root package.files).map (·.path) := by
    rw [keptPaths, filterExcludedPaths, pythonPaths_eq, ← sortPurePaths_map_path]
    exact congrArg _ (List.append_nil _)
  have hmap {files : List SourceFile} (h : ∀ file ∈ files, file ∈ package.files) :
      (files.map (·.path)).map (DiskTree.ofPackage package).fileAt = files := by
    rw [List.map_map]
    exact (List.map_congr_left fun file hfile => fileAt_ofPackage (h file hfile)).trans
      (List.map_id _)
  have hexpanded : (DiskTree.ofPackage package).expandPaths root
      ((sortPaths root package.files).map (·.path)) =
        (expandPythonPaths root (sortPaths root package.files)).map (·.path) := by
    rw [DiskLayout.expandPaths, flatMap_expandPath_ofPackage, sortPurePaths_map_path]
    rfl
  have hfiles : ∀ file ∈ sortPaths root package.files, file ∈ package.files :=
    fun file => (mem_sortPaths root package.files file).mp
  have hexpandedFiles : ∀ file ∈ expandPythonPaths root (sortPaths root package.files),
      file ∈ package.files := fun file hfile =>
    hfiles file (List.mem_of_mem_filter ((mem_sortPaths _ _ _).mp hfile))
  have hreadable {files : List SourceFile} (h : ∀ file ∈ files, file ∈ package.files)
      {path : PurePath} (hpath : path ∈ files.map (·.path)) :
      (DiskTree.ofPackage package).Readable path := by
    obtain ⟨file, hfile, rfl⟩ := List.mem_map.mp hpath
    exact ⟨List.not_mem_nil, file.tree, contents_ofPackage (h file hfile)⟩
  refine (run_eq_ok_iff ..).mpr ⟨?_, ?_⟩
  · rintro path (⟨-, hpath⟩ | ⟨-, hpath⟩)
    · rw [hkept, hexpanded] at hpath
      exact hreadable hexpandedFiles hpath
    · rw [hkept] at hpath
      exact hreadable hfiles hpath
  · rw [hkept, hexpanded, hmap hexpandedFiles, hmap hfiles, extractPythonCodeState,
      pythonPathsFromInputs_eq]
    rfl

end Package

end SemanticCi.Extraction
