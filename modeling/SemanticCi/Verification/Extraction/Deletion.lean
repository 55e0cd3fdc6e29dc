import SemanticCi.Verification.Extraction.DiskRuns

/-! A package without the files that a configuration matches, and when a run over it gives the
code state that the run with the configuration gives. -/

namespace SemanticCi.Extraction

open SemanticCi.Python SemanticCi.Python.Ast SemanticCi.StateSchema ExceptRules KeyedSort
  OrderedDict

/-! ## What is matched -/

/-- A pattern of the configuration matches the path. -/
def Matched (root : Root) (config : ExtractConfig) (path : PurePath) : Prop :=
  (matchesExclude (root.parts ++ path) config).isSome

instance (root : Root) (config : ExtractConfig) : DecidablePred (Matched root config) :=
  fun _ => inferInstanceAs (Decidable (_ = true))

theorem excludedPath_isNone (candidate : PurePath) (config : ExtractConfig) :
    (excludedPath candidate config).isNone = (matchesExclude candidate config).isNone := by
  unfold excludedPath
  cases hrelative : relativeCandidate candidate config with
  | none => simp [matchesExclude, hrelative]
  | some relative => cases matchesExclude candidate config <;> rfl

/-- The paths that a configuration keeps. -/
theorem filterExcludedPaths_kept (root : Root) (paths : List PurePath) (config : ExtractConfig) :
    (filterExcludedPaths root paths (some config)).1 =
      paths.filter fun path => ¬ Matched root config path := by
  have hmatched (path : PurePath) : (decide ¬ Matched root config path) =
      (matchesExclude (root.parts ++ path) config).isNone := by
    rw [Bool.eq_iff_iff]
    simp [Matched]
  simp only [hmatched]
  by_cases hpatterns : config.patterns = []
  · simp [filterExcludedPaths, matchesExclude, hpatterns]
  · simp only [filterExcludedPaths, if_neg hpatterns, excludedPath_isNone]

/-! ## Deletion -/

/-- The package without the files that a configuration excludes. -/
def DiskLayout.withoutMatched (root : Root) (layout : DiskLayout) (config : ExtractConfig) :
    DiskLayout where
  files := layout.files.filter fun path => ¬ Matched root config path
  directories := layout.directories
  valid path hpath := layout.valid path
    ((List.filter_sublist.append (List.Sublist.refl _)).subset hpath)
  python path hpath := layout.python path
    ((List.filter_sublist.append (List.Sublist.refl _)).subset hpath)
  distinct := layout.distinct.sublist (List.filter_sublist.append (List.Sublist.refl _))
  above path hpath := layout.above path
    ((List.filter_sublist.append (List.Sublist.refl _)).subset hpath)

/-- The same code state, if there is any. -/
def SameState {ε α : Type} (a b : Except ε α) : Prop := ∀ state, a = .ok state ↔ b = .ok state

/-- Whatever the files hold, excluding those that are matched gives the code state that deleting
them gives, with no configuration and with one that has no patterns. -/
def ExcludingIsDeleting (lib : Stdlib) (db : List EffectSignature) (root : Root)
    (layout : DiskLayout) (config : ExtractConfig) (dimensions : Option (Finset String)) : Prop :=
  ∀ contents, ∀ noPatterns ∈ [none, some { config with patterns := [] }],
    SameState (extractPythonCodeStateResult lib db root ⟨layout, contents⟩ dimensions (some config))
      (extractPythonCodeStateResult lib db root ⟨layout.withoutMatched root config, contents⟩
        dimensions noPatterns)

section Deletion

variable {root : Root} {layout : DiskLayout} {config : ExtractConfig}

theorem mem_found {path : PurePath} :
    path ∈ layout.found ↔ path ∈ layout.files ∨ path ∈ layout.directories :=
  List.mem_append

theorem directories_withoutMatched :
    (layout.withoutMatched root config).directories = layout.directories := rfl

theorem found_withoutMatched : (layout.withoutMatched root config).found =
    layout.found.filter fun path => path ∈ layout.directories ∨ ¬ Matched root config path := by
  rw [DiskLayout.found, DiskLayout.found, List.filter_append]
  congr 1
  · refine List.filter_congr fun path hpath => ?_
    simp [layout.notMem_directories hpath]
  · refine (List.filter_eq_self.mpr fun path hpath => ?_).symm
    simp only [decide_eq_true_eq]
    exact Or.inl hpath

theorem mem_found_withoutMatched {path : PurePath} :
    path ∈ (layout.withoutMatched root config).found ↔
      path ∈ layout.found ∧ (path ∈ layout.directories ∨ ¬ Matched root config path) := by
  rw [found_withoutMatched, List.mem_filter, decide_eq_true_iff]

theorem keptPaths_some : keptPaths root layout (some config) =
    (sortPurePaths root layout.found).filter fun path => ¬ Matched root config path := by
  rw [keptPaths, filterExcludedPaths_kept, pythonPaths_eq]

theorem keptPaths_withoutMatched : keptPaths root (layout.withoutMatched root config) none =
    (sortPurePaths root layout.found).filter fun path =>
      path ∈ layout.directories ∨ ¬ Matched root config path := by
  rw [← sortPurePaths_filter, ← found_withoutMatched, ← pythonPaths_eq]
  rfl

theorem mem_keptPaths_some {path : PurePath} : path ∈ keptPaths root layout (some config) ↔
    path ∈ layout.found ∧ ¬ Matched root config path := by
  rw [keptPaths_some, List.mem_filter, mem_sortPurePaths, decide_eq_true_iff]

theorem mem_keptPaths_withoutMatched {path : PurePath} :
    path ∈ keptPaths root (layout.withoutMatched root config) none ↔
      path ∈ layout.found ∧ (path ∈ layout.directories ∨ ¬ Matched root config path) := by
  rw [keptPaths_withoutMatched, List.mem_filter, mem_sortPurePaths, decide_eq_true_iff]

/-- What the extractors read that expand their paths again. -/
theorem mem_expanded_some {path : PurePath} :
    path ∈ layout.expandPaths root (keptPaths root layout (some config)) ↔
      (∃ directory ∈ layout.directories, ¬ Matched root config directory ∧
        path ∈ layout.found ∧ isInside directory path) ∨
      path ∈ layout.files ∧ ¬ Matched root config path ∧ path.suffix = ".py" := by
  simp only [DiskLayout.mem_expandPaths_iff, mem_keptPaths_some]
  constructor
  · rintro (⟨d, ⟨-, hd⟩, hdirectory, hpath⟩ | ⟨⟨hfound, hpath⟩, hfile, hsuffix⟩)
    · exact Or.inl ⟨d, hdirectory, hd, hpath⟩
    · exact Or.inr ⟨(mem_found.mp hfound).resolve_right hfile, hpath, hsuffix⟩
  · rintro (⟨d, hdirectory, hd, hpath⟩ | ⟨hfile, hpath, hsuffix⟩)
    · exact Or.inl ⟨d, ⟨mem_found.mpr (Or.inr hdirectory), hd⟩, hdirectory, hpath⟩
    · exact Or.inr ⟨⟨mem_found.mpr (Or.inl hfile), hpath⟩, layout.notMem_directories hfile, hsuffix⟩

theorem mem_expanded_withoutMatched {path : PurePath} :
    path ∈ (layout.withoutMatched root config).expandPaths root
        (keptPaths root (layout.withoutMatched root config) none) ↔
      (∃ directory ∈ layout.directories, path ∈ layout.found ∧
        (path ∈ layout.directories ∨ ¬ Matched root config path) ∧ isInside directory path) ∨
      path ∈ layout.files ∧ ¬ Matched root config path ∧ path.suffix = ".py" := by
  simp only [DiskLayout.mem_expandPaths_iff, mem_keptPaths_withoutMatched,
    mem_found_withoutMatched]
  constructor
  · rintro (⟨d, -, hdirectory, ⟨hfound, hpath⟩, hinside⟩ | ⟨⟨hfound, hpath⟩, hfile, hsuffix⟩)
    · exact Or.inl ⟨d, hdirectory, hfound, hpath, hinside⟩
    · exact Or.inr ⟨(mem_found.mp hfound).resolve_right hfile, hpath.resolve_left hfile, hsuffix⟩
  · rintro (⟨d, hdirectory, hfound, hpath, hinside⟩ | ⟨hfile, hpath, hsuffix⟩)
    · exact Or.inl ⟨d, ⟨mem_found.mpr (Or.inr hdirectory), Or.inl hdirectory⟩, hdirectory,
        ⟨hfound, hpath⟩, hinside⟩
    · exact Or.inr ⟨⟨mem_found.mpr (Or.inl hfile), Or.inr hpath⟩,
        layout.notMem_directories hfile, hsuffix⟩

theorem mem_found_of_mem_expanded {path : PurePath}
    (h : path ∈ layout.expandPaths root (keptPaths root layout (some config))) :
    path ∈ layout.found := by
  rcases mem_expanded_some.mp h with ⟨_, -, -, hfound, -⟩ | ⟨hfile, -⟩
  · exact hfound
  · exact mem_found.mpr (Or.inl hfile)

end Deletion

/-! ## Files that are read more than once -/

/-- The dots of a relative import are at least one. -/
theorem from_ne_of_extracted {tree : Node} {entry : ImportEntry}
    (h : entry ∈ extractPythonImports tree) : entry.from_ ≠ some "" := by
  rw [extractPythonImports, stableImportEntries, List.mem_insertionSort] at h
  obtain ⟨stmt, -, hentry⟩ := List.mem_flatMap.mp ((values_indexBy_sublist _ _).subset h)
  cases stmt with
  | importStmt pos names =>
      obtain ⟨item, -, rfl⟩ := List.mem_map.mp hentry
      simp
  | importFrom pos module names level =>
      obtain rfl := List.mem_singleton.mp hentry
      by_cases hlevel : level = 0
      · simp [hlevel]
      · simp [hlevel, String.ofList_eq]
  | _ => cases hentry

theorem importSortKey_injOn {a b : ImportEntry} (ha : a.from_ ≠ some "") (hb : b.from_ ≠ some "")
    (h : importSortKey a = importSortKey b) : a = b := by
  obtain ⟨module, from_, symbols⟩ := a
  obtain ⟨module', from', symbols'⟩ := b
  simp only [importSortKey, EmbeddingLike.apply_eq_iff_eq, Prod.mk.injEq] at h
  obtain ⟨hfrom, rfl, rfl⟩ := h
  cases from_ <;> cases from' <;> simp_all

section Repeated

variable {root : Root}

/-- Lists of paths that are sorted and have the same members. -/
structure SamePaths (root : Root) (paths paths' : List PurePath) : Prop where
  sorted : paths.Pairwise fun a b => absoluteText root a ≤ absoluteText root b
  sorted' : paths'.Pairwise fun a b => absoluteText root a ≤ absoluteText root b
  mem_iff : ∀ path, path ∈ paths ↔ path ∈ paths'
  ties : ∀ a ∈ paths, ∀ b ∈ paths, absoluteText root a = absoluteText root b → a = b

variable {paths paths' : List PurePath} (h : SamePaths root paths paths')
include h

/-- The first record of a key comes from the first file that has one. -/
theorem SamePaths.values_perm {T K : Type} [DecidableEq K] (key : T → K)
    (records : PurePath → List T) :
    (indexBy key (paths.flatMap records)).values.Perm
      (indexBy key (paths'.flatMap records)).values := by
  apply values_indexBy_perm
  intro k
  rw [List.find?_flatMap, List.find?_flatMap]
  exact findSome?_eq_of_mem_iff (absoluteText root) h.sorted h.sorted' h.mem_iff h.ties _

theorem SamePaths.importsOfFiles_eq (fileAt : PurePath → SourceFile) :
    importsOfFiles (paths.map fileAt) = importsOfFiles (paths'.map fileAt) := by
  rw [importsOfFiles, importsOfFiles, List.flatMap_map, List.flatMap_map, stableImportEntries,
    stableImportEntries]
  have hperm := h.values_perm id fun path => extractPythonImports (fileAt path).tree
  have hrelative : ∀ entry ∈ (indexBy id
      (paths.flatMap fun path => extractPythonImports (fileAt path).tree)).values,
      entry.from_ ≠ some "" := by
    intro entry hentry
    obtain ⟨path, -, hentry⟩ :=
      List.mem_flatMap.mp ((values_indexBy_sublist _ _).subset hentry)
    exact from_ne_of_extracted hentry
  exact sortBy_eq_of_perm importSortKey hperm fun a ha b hb =>
    importSortKey_injOn (hrelative a ha) (hrelative b hb)

theorem SamePaths.complexityOfFiles_eq (fileAt : PurePath → SourceFile) :
    complexityOfFiles root (paths.map fileAt) = complexityOfFiles root (paths'.map fileAt) := by
  rw [complexityOfFiles, complexityOfFiles, List.flatMap_map, List.flatMap_map,
    stableComplexityEntries, stableComplexityEntries]
  exact sortBy_eq_of_perm ComplexityEntry.fqn (h.values_perm _ _) fun a ha b hb =>
    List.inj_on_of_nodup_map (nodup_values_indexBy _ _) ha hb

theorem SamePaths.testSurfaceOfFiles_eq (fileAt : PurePath → SourceFile) :
    testSurfaceOfFiles (paths.map fileAt) = testSurfaceOfFiles (paths'.map fileAt) := by
  rw [testSurfaceOfFiles, testSurfaceOfFiles, List.flatMap_map, List.flatMap_map,
    stableTestEntries, stableTestEntries]
  exact sortBy_eq_of_perm _ (h.values_perm _ _) fun a ha b hb =>
    List.inj_on_of_nodup_map (nodup_values_indexBy _ _) ha hb

end Repeated

/-! ## When excluding is deleting -/

/-- A directory called `*.py` lies below another one. -/
def Nested (layout : DiskLayout) (upper : PurePath) : Prop :=
  upper ∈ layout.directories ∧ ∃ lower ∈ layout.directories, isInside upper lower

/-- A directory that is kept holds no matched file, and a file that is kept below one that is
matched is read as it is, and not counted twice. -/
def SameFiles (root : Root) (layout : DiskLayout) (config : ExtractConfig)
    (dimensions : Option (Finset String)) : Prop :=
  ∀ directory ∈ layout.directories, ∀ file ∈ layout.files, isInside directory file →
    (¬ Matched root config directory → ¬ Matched root config file) ∧
    (Matched root config directory → ¬ Matched root config file →
      file.suffix = ".py" ∧ shouldExtract "api_surface" dimensions = false)

/-- What keeps the second expansion of directories from showing. -/
inductive Unaffected (root : Root) (layout : DiskLayout) (config : ExtractConfig)
    (dimensions : Option (Finset String)) : Prop where
  /-- No directory is called `*.py`. -/
  | noDirectories (h : layout.directories = [])
  /-- Nothing is extracted. -/
  | noDimensions (hexpands : ¬ ExpandsPaths dimensions) (hreads : ¬ ReadsPaths dimensions)
  /-- A directory that is kept is read and raises, with and without the files. -/
  | keptDirectory (hreads : ReadsPaths dimensions) {directory : PurePath}
      (hdirectory : directory ∈ layout.directories) (h : ¬ Matched root config directory)
  /-- So does a directory below one that is kept. -/
  | keptNested (hexpands : ExpandsPaths dimensions) {upper : PurePath}
      (hnested : Nested layout upper) (h : ¬ Matched root config upper)
  /-- The same files are read. -/
  | sameFiles (hreads : ¬ ReadsPaths dimensions) (hflat : ∀ upper, ¬ Nested layout upper)
      (h : SameFiles root layout config dimensions)

section Sufficient

variable {lib : Stdlib} {db : List EffectSignature} {root : Root} {layout : DiskLayout}
variable {config : ExtractConfig} {dimensions : Option (Finset String)}
variable (contents : PurePath → Except ReadError Node)

/-- Two runs over the same directories that read the same paths. -/
theorem sameState_of_reads {layout' : DiskLayout} {config' : Option ExtractConfig}
    (hdirectories : layout'.directories = layout.directories)
    (hreads : ∀ path, Reads root layout dimensions (some config) path ↔
      Reads root layout' dimensions config' path)
    (hstate : ∀ fileAt : PurePath → SourceFile, codeStateOfFiles lib db root dimensions
        ((layout.expandPaths root (keptPaths root layout (some config))).map fileAt)
        ((keptPaths root layout (some config)).map fileAt) =
      codeStateOfFiles lib db root dimensions
        ((layout'.expandPaths root (keptPaths root layout' config')).map fileAt)
        ((keptPaths root layout' config').map fileAt)) :
    SameState
      (extractPythonCodeStateResult lib db root ⟨layout, contents⟩ dimensions (some config))
      (extractPythonCodeStateResult lib db root ⟨layout', contents⟩ dimensions config') := by
  intro state
  rw [run_eq_ok_iff, run_eq_ok_iff]
  have hreadable (path : PurePath) : (⟨layout, contents⟩ : DiskTree).Readable path ↔
      (⟨layout', contents⟩ : DiskTree).Readable path := by
    simp only [DiskTree.Readable, hdirectories]
  have hfile : (⟨layout, contents⟩ : DiskTree).fileAt =
      (⟨layout', contents⟩ : DiskTree).fileAt := rfl
  simp only [hreads, hreadable, hfile, hstate]

/-- Two runs that both read a directory. -/
theorem sameState_of_directories {layout' : DiskLayout} {config' : Option ExtractConfig}
    {path path' : PurePath} (hpath : path ∈ layout.directories)
    (hreads : Reads root layout dimensions (some config) path)
    (hpath' : path' ∈ layout'.directories)
    (hreads' : Reads root layout' dimensions config' path') :
    SameState
      (extractPythonCodeStateResult lib db root ⟨layout, contents⟩ dimensions (some config))
      (extractPythonCodeStateResult lib db root ⟨layout', contents⟩ dimensions config') := by
  intro state
  rw [run_eq_ok_iff, run_eq_ok_iff]
  constructor
  · rintro ⟨h, -⟩
    exact absurd hpath (h path hreads).1
  · rintro ⟨h, -⟩
    exact absurd hpath' (h path' hreads').1

theorem expandPaths_flat (hflat : ∀ upper, ¬ Nested layout upper) {directory path : PurePath}
    (hdirectory : directory ∈ layout.directories) (hfound : path ∈ layout.found)
    (hinside : isInside directory path) : path ∈ layout.files :=
  (mem_found.mp hfound).resolve_right fun hpath =>
    hflat directory ⟨hdirectory, path, hpath, hinside⟩

theorem mem_expanded_iff_of_sameFiles (hflat : ∀ upper, ¬ Nested layout upper)
    (h : SameFiles root layout config dimensions) (path : PurePath) :
    path ∈ layout.expandPaths root (keptPaths root layout (some config)) ↔
      path ∈ (layout.withoutMatched root config).expandPaths root
        (keptPaths root (layout.withoutMatched root config) none) := by
  rw [mem_expanded_some, mem_expanded_withoutMatched]
  constructor
  · rintro (⟨d, hd, hmatched, hfound, hinside⟩ | hfile)
    · have hfile := expandPaths_flat hflat hd hfound hinside
      exact Or.inl ⟨d, hd, hfound, Or.inr ((h d hd path hfile hinside).1 hmatched), hinside⟩
    · exact Or.inr hfile
  · rintro (⟨d, hd, hfound, hpath, hinside⟩ | hfile)
    · have hfile := expandPaths_flat hflat hd hfound hinside
      have hunmatched := hpath.resolve_left (layout.notMem_directories hfile)
      by_cases hmatched : Matched root config d
      · exact Or.inr ⟨hfile, hunmatched, ((h d hd path hfile hinside).2 hmatched hunmatched).1⟩
      · exact Or.inl ⟨d, hd, hmatched, hfound, hinside⟩
    · exact Or.inr hfile

theorem samePaths_of_sameFiles (hmem : ∀ path,
    path ∈ layout.expandPaths root (keptPaths root layout (some config)) ↔
      path ∈ (layout.withoutMatched root config).expandPaths root
        (keptPaths root (layout.withoutMatched root config) none)) :
    SamePaths root (layout.expandPaths root (keptPaths root layout (some config)))
      ((layout.withoutMatched root config).expandPaths root
        (keptPaths root (layout.withoutMatched root config) none)) where
  sorted := pairwise_sortPurePaths _ _
  sorted' := pairwise_sortPurePaths _ _
  mem_iff := hmem
  ties _ ha _ hb := layout.absoluteText_injective root (mem_found_of_mem_expanded ha)
    (mem_found_of_mem_expanded hb)

theorem flatMap_filter {α β : Type*} (p : α → Bool) (f : α → List β) (xs : List α) :
    (xs.filter p).flatMap f = xs.flatMap fun x => if p x then f x else [] := by
  induction xs with
  | nil => rfl
  | cons x xs ih =>
      rw [List.flatMap_cons, ← ih]
      cases hx : p x <;> simp [hx]

/-- Without a kept file below a directory that is not kept, no file is read twice. -/
theorem expandPaths_eq_of_sameFiles (hflat : ∀ upper, ¬ Nested layout upper)
    (h : ∀ directory ∈ layout.directories, ∀ file ∈ layout.files, isInside directory file →
      (Matched root config directory ↔ Matched root config file)) :
    (layout.withoutMatched root config).expandPaths root
        (keptPaths root (layout.withoutMatched root config) none) =
      layout.expandPaths root (keptPaths root layout (some config)) := by
  rw [DiskLayout.expandPaths, DiskLayout.expandPaths, keptPaths_withoutMatched, keptPaths_some,
    flatMap_filter, flatMap_filter]
  congr 1
  refine List.flatMap_congr fun path _ => ?_
  by_cases hdirectory : path ∈ layout.directories
  · have hbelow : (layout.withoutMatched root config).expandPath path =
        if Matched root config path then [] else layout.expandPath path := by
      rw [DiskLayout.expandPath, DiskLayout.expandPath, directories_withoutMatched,
        if_pos hdirectory, if_pos hdirectory, found_withoutMatched, List.filter_filter]
      split
      · next hmatched =>
          rw [List.filter_eq_nil_iff]
          intro file hfile hinside
          simp only [Bool.and_eq_true, decide_eq_true_eq] at hinside
          have hmem := expandPaths_flat hflat hdirectory hfile hinside.1
          have hunmatched := hinside.2.resolve_left (layout.notMem_directories hmem)
          exact hunmatched ((h path hdirectory file hmem hinside.1).mp hmatched)
      · next hmatched =>
          refine List.filter_congr fun file hfile => ?_
          rw [Bool.eq_iff_iff, Bool.and_eq_true, decide_eq_true_iff]
          refine ⟨And.left, fun hinside => ⟨hinside, Or.inr fun hfileMatched => ?_⟩⟩
          have hmem := expandPaths_flat hflat hdirectory hfile hinside
          exact hmatched ((h path hdirectory file hmem hinside).mpr hfileMatched)
    by_cases hmatched : Matched root config path <;> simp [hdirectory, hmatched, hbelow]
  · have hsame : (layout.withoutMatched root config).expandPath path =
        layout.expandPath path := by
      rw [DiskLayout.expandPath, DiskLayout.expandPath, directories_withoutMatched,
        if_neg hdirectory, if_neg hdirectory]
    simp [hdirectory, hsame]

theorem sameState_of_noDirectories (h : layout.directories = []) :
    SameState
      (extractPythonCodeStateResult lib db root ⟨layout, contents⟩ dimensions (some config))
      (extractPythonCodeStateResult lib db root ⟨layout.withoutMatched root config, contents⟩
        dimensions none) := by
  have hflat : ∀ upper, ¬ Nested layout upper := by simp [Nested, h]
  have hexpanded : (layout.withoutMatched root config).expandPaths root
      (keptPaths root (layout.withoutMatched root config) none) =
        layout.expandPaths root (keptPaths root layout (some config)) :=
    expandPaths_eq_of_sameFiles hflat (by simp [h])
  have hkept : keptPaths root (layout.withoutMatched root config) none =
      keptPaths root layout (some config) := by
    simp [keptPaths_withoutMatched, keptPaths_some, h]
  refine sameState_of_reads contents rfl (fun path => ?_) fun fileAt => ?_
  · constructor
    · rintro (⟨hd, hp⟩ | ⟨hd, hp⟩)
      · exact .expanded hd (hexpanded ▸ hp)
      · exact .kept hd (hkept ▸ hp)
    · rintro (⟨hd, hp⟩ | ⟨hd, hp⟩)
      · exact .expanded hd (hexpanded ▸ hp)
      · exact .kept hd (hkept ▸ hp)
  · rw [hexpanded, hkept]

theorem sameState_of_noDimensions (hexpands : ¬ ExpandsPaths dimensions)
    (hreads : ¬ ReadsPaths dimensions) :
    SameState
      (extractPythonCodeStateResult lib db root ⟨layout, contents⟩ dimensions (some config))
      (extractPythonCodeStateResult lib db root ⟨layout.withoutMatched root config, contents⟩
        dimensions none) := by
  have hnone (name : String) (hname : name ∈ ["api_surface", "imports", "complexity",
      "test_surface"]) : shouldExtract name dimensions = false := by
    by_contra hextract
    exact hexpands ⟨name, hname, by simpa using hextract⟩
  rw [ReadsPaths, not_or, Bool.not_eq_true, Bool.not_eq_true] at hreads
  refine sameState_of_reads contents rfl (fun path => ?_) fun fileAt => ?_
  · constructor <;> rintro (⟨hd, -⟩ | ⟨hd, -⟩)
    · exact absurd hd hexpands
    · simp [ReadsPaths, hreads] at hd
    · exact absurd hd hexpands
    · simp [ReadsPaths, hreads] at hd
  · simp [codeStateOfFiles, hreads, hnone]

/-- The API surface is the one dimension that sees a file read twice. -/
theorem expandPaths_eq_of_apiSurface (hflat : ∀ upper, ¬ Nested layout upper)
    (h : SameFiles root layout config dimensions) (hapi : shouldExtract "api_surface" dimensions) :
    layout.expandPaths root (keptPaths root layout (some config)) =
      (layout.withoutMatched root config).expandPaths root
        (keptPaths root (layout.withoutMatched root config) none) := by
  refine (expandPaths_eq_of_sameFiles hflat fun d hd file hfile hinside => ?_).symm
  obtain ⟨hkept, hdropped⟩ := h d hd file hfile hinside
  refine ⟨fun hmatched => ?_, fun hmatched => ?_⟩
  · by_contra hfileKept
    rw [hapi] at hdropped
    cases (hdropped hmatched hfileKept).2
  · by_contra hdKept
    exact hkept hdKept hmatched

theorem sameState_of_sameFiles (hreads : ¬ ReadsPaths dimensions)
    (hflat : ∀ upper, ¬ Nested layout upper) (h : SameFiles root layout config dimensions) :
    SameState
      (extractPythonCodeStateResult lib db root ⟨layout, contents⟩ dimensions (some config))
      (extractPythonCodeStateResult lib db root ⟨layout.withoutMatched root config, contents⟩
        dimensions none) := by
  have hmem := mem_expanded_iff_of_sameFiles hflat h
  have hpaths := samePaths_of_sameFiles hmem
  refine sameState_of_reads contents rfl (fun path => ?_) fun fileAt => ?_
  · constructor
    · rintro (⟨hd, hp⟩ | ⟨hd, -⟩)
      · exact .expanded hd ((hmem path).mp hp)
      · exact absurd hd hreads
    · rintro (⟨hd, hp⟩ | ⟨hd, -⟩)
      · exact .expanded hd ((hmem path).mpr hp)
      · exact absurd hd hreads
  · rw [ReadsPaths, not_or, Bool.not_eq_true, Bool.not_eq_true] at hreads
    simp only [codeStateOfFiles, hreads, hpaths.importsOfFiles_eq,
      hpaths.complexityOfFiles_eq, hpaths.testSurfaceOfFiles_eq]
    by_cases hextract : shouldExtract "api_surface" dimensions
    · rw [expandPaths_eq_of_apiSurface hflat h hextract]
      simp
    · simp [hextract]

variable (lib db) in
theorem sameState_of_unaffected (h : Unaffected root layout config dimensions) :
    SameState
      (extractPythonCodeStateResult lib db root ⟨layout, contents⟩ dimensions (some config))
      (extractPythonCodeStateResult lib db root ⟨layout.withoutMatched root config, contents⟩
        dimensions none) := by
  cases h with
  | noDirectories h => exact sameState_of_noDirectories contents h
  | noDimensions hexpands hreads => exact sameState_of_noDimensions contents hexpands hreads
  | keptDirectory hreads hdirectory h =>
      have hfound := mem_found.mpr (Or.inr hdirectory)
      exact sameState_of_directories contents hdirectory
        (.kept hreads (mem_keptPaths_some.mpr ⟨hfound, h⟩)) hdirectory
        (.kept hreads (mem_keptPaths_withoutMatched.mpr ⟨hfound, Or.inl hdirectory⟩))
  | keptNested hexpands hnested h =>
      obtain ⟨hupper, lower, hlower, hinside⟩ := hnested
      have hfound := mem_found.mpr (Or.inr hlower)
      exact sameState_of_directories contents hlower
        (.expanded hexpands (mem_expanded_some.mpr (Or.inl ⟨_, hupper, h, hfound, hinside⟩)))
        hlower (.expanded hexpands (mem_expanded_withoutMatched.mpr
          (Or.inl ⟨_, hupper, hfound, Or.inl hlower, hinside⟩)))
  | sameFiles hreads hflat h => exact sameState_of_sameFiles contents hreads hflat h

end Sufficient

end SemanticCi.Extraction
