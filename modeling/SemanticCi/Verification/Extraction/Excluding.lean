import SemanticCi.Verification.Extraction.Deletion
import SemanticCi.Verification.Extraction.Parity
import SemanticCi.Verification.Extraction.Sites

/-! Excluding files against deleting them. The paths are filtered before the extractors are
called, but four of the six expand the directories among them again, without the filter. -/

namespace SemanticCi.Extraction

open SemanticCi.Python SemanticCi.Python.Ast SemanticCi.StateSchema KeyedSort

/-! ## One function -/

section OneFunction

/-- `def f(): ...`. -/
def functionF : Node :=
  .functionDef ⟨1, 0, 1⟩ false "f" (.other "arguments" [] none []) [] [] none []

/-- A module with a function, and empty modules elsewhere. -/
def oneFunction (file path : PurePath) : Except ReadError Node :=
  .ok (.module (if path = file then [functionF] else []))

variable (lib : Stdlib) (root : Root) (layout : DiskLayout) (file : PurePath)

/-- The surface of the module at a path. -/
def functionEntries (path : PurePath) : List APISurfaceEntry :=
  extractPythonApiSurface lib (moduleFqnFromPath root path)
    ((⟨layout, oneFunction file⟩ : DiskTree).fileAt path).tree

theorem functionEntries_of_ne {path : PurePath} (h : path ≠ file) :
    functionEntries lib root layout file path = [] := by
  have htree : ((⟨layout, oneFunction file⟩ : DiskTree).fileAt path).tree = .module [] := by
    simp [DiskTree.fileAt, oneFunction, h, Except.toOption]
  rw [functionEntries, htree]
  rfl

theorem functionEntries_pos : 0 < (functionEntries lib root layout file file).length := by
  have htree : ((⟨layout, oneFunction file⟩ : DiskTree).fileAt file).tree = .module
      [functionF] := by
    simp [DiskTree.fileAt, oneFunction, Except.toOption]
  have hscope : functionF ∈ scopeNodes [functionF] :=
    (mem_scanModuleScope _ _ _).mpr
      ⟨_, ⟨_, List.mem_cons_self, .self _⟩, List.mem_cons_self⟩
  have hdefined : joinFqn [moduleFqnFromPath root file, "f"] ∈
      (functionDefinitions (moduleFqnFromPath root file) (.module [functionF])).map Prod.fst :=
    List.mem_map.mpr
      ⟨(_, []), List.mem_flatMap.mpr ⟨_, hscope, List.mem_cons_self⟩, rfl⟩
  rw [functionEntries, htree]
  obtain ⟨entry, hentry, -⟩ := (mem_surface_fqns lib _ _ _).mpr hdefined
  exact List.length_pos_of_mem hentry

theorem length_apiSurfaceOfFiles (paths : List PurePath) :
    (apiSurfaceOfFiles lib root
      (paths.map (⟨layout, oneFunction file⟩ : DiskTree).fileAt)).length =
      (paths.flatMap (functionEntries lib root layout file)).length := by
  rw [apiSurfaceOfFiles, sortSurfaceEntries, List.length_insertionSort, List.flatMap_map]
  rfl

/-- The sort of an expansion does not change how much is found. -/
theorem length_flatMap_expandPaths {α : Type} (paths : List PurePath) (f : PurePath → List α) :
    ((layout.expandPaths root paths).flatMap f).length =
      (paths.flatMap fun path => (layout.expandPath path).flatMap f).length := by
  rw [DiskLayout.expandPaths, ((sortPurePaths_perm root _).flatMap_right f).length_eq,
    List.flatMap_assoc]

theorem flatMap_eq_of_unique {α β : Type*} {f : α → List β} {xs : List α} {x : α}
    (hnodup : xs.Nodup) (hx : x ∈ xs) (hothers : ∀ y ∈ xs, y ≠ x → f y = []) :
    xs.flatMap f = f x := by
  obtain ⟨front, back, rfl⟩ := List.append_of_mem hx
  obtain ⟨-, hback, hdisjoint⟩ := List.nodup_append.mp hnodup
  have hfront : front.flatMap f = [] := List.flatMap_eq_nil_iff.mpr fun y hy =>
    hothers y (by simp [hy]) (hdisjoint y hy x List.mem_cons_self)
  have hrest : back.flatMap f = [] := List.flatMap_eq_nil_iff.mpr fun y hy =>
    hothers y (by simp [hy]) fun heq => (List.nodup_cons.mp hback).1 (heq ▸ hy)
  rw [List.flatMap_append, List.flatMap_cons, hfront, hrest, List.nil_append, List.append_nil]

theorem length_le_flatMap {α β : Type*} (f : α → List β) {xs : List α} {x : α} (hx : x ∈ xs) :
    (f x).length ≤ (xs.flatMap f).length := by
  obtain ⟨front, back, rfl⟩ := List.append_of_mem hx
  simp only [List.flatMap_append, List.flatMap_cons, List.length_append]
  omega

end OneFunction

/-! ## Contents that tell the two apart -/

section Necessary

variable {lib : Stdlib} {db : List EffectSignature} {root : Root} {layout : DiskLayout}
variable {config : ExtractConfig} {dimensions : Option (Finset String)}

/-- A run over files that hold nothing, one of which may fail to be read. -/
def emptyFiles (broken : Option PurePath) (path : PurePath) : Except ReadError Node :=
  if some path = broken then .error ⟨none⟩ else .ok (.module [])

theorem readable_emptyFiles_iff (layout : DiskLayout) (broken : Option PurePath)
    (path : PurePath) : (⟨layout, emptyFiles broken⟩ : DiskTree).Readable path ↔
      path ∉ layout.directories ∧ some path ≠ broken := by
  refine and_congr_right fun _ => ?_
  by_cases h : some path = broken <;> simp [emptyFiles, h]

/-- The two runs succeed on the same contents. -/
theorem reads_iff_of_excluding (h : ExcludingIsDeleting lib db root layout config dimensions)
    (contents : PurePath → Except ReadError Node) :
    (∀ path, Reads root layout dimensions (some config) path →
      (⟨layout, contents⟩ : DiskTree).Readable path) ↔
    ∀ path, Reads root (layout.withoutMatched root config) dimensions none path →
      (⟨layout, contents⟩ : DiskTree).Readable path := by
  have hsame := h contents none (by simp)
  constructor
  · intro hreads
    exact ((run_eq_ok_iff ..).mp ((hsame _).mp ((run_eq_ok_iff ..).mpr ⟨hreads, rfl⟩))).1
  · intro hreads
    exact ((run_eq_ok_iff ..).mp ((hsame _).mpr ((run_eq_ok_iff ..).mpr ⟨hreads, rfl⟩))).1

/-- With files that hold nothing, the two runs read something unreadable or neither does. -/
theorem exists_reads_iff (h : ExcludingIsDeleting lib db root layout config dimensions)
    (broken : Option PurePath) :
    (∃ path, Reads root layout dimensions (some config) path ∧
      (path ∈ layout.directories ∨ some path = broken)) ↔
    ∃ path, Reads root (layout.withoutMatched root config) dimensions none path ∧
      (path ∈ layout.directories ∨ some path = broken) := by
  have hreads := reads_iff_of_excluding h (emptyFiles broken)
  simp only [readable_emptyFiles_iff] at hreads
  rw [← not_iff_not]
  push Not
  exact hreads

theorem exists_keptDirectory (h : ExcludingIsDeleting lib db root layout config dimensions)
    (hreads : ReadsPaths dimensions) {directory : PurePath}
    (hdirectory : directory ∈ layout.directories) :
    ∃ kept ∈ layout.directories, ¬ Matched root config kept := by
  obtain ⟨path, hread, hpath⟩ := (exists_reads_iff h none).mpr
    ⟨directory, .kept hreads (mem_keptPaths_withoutMatched.mpr
      ⟨mem_found.mpr (Or.inr hdirectory), Or.inl hdirectory⟩), Or.inl hdirectory⟩
  have hpath := hpath.resolve_right (by simp)
  cases hread with
  | expanded _ hp =>
      rcases mem_expanded_some.mp hp with ⟨d, hd, hmatched, -⟩ | ⟨hfile, -⟩
      · exact ⟨d, hd, hmatched⟩
      · exact absurd hpath (layout.notMem_directories hfile)
  | kept _ hp => exact ⟨path, hpath, (mem_keptPaths_some.mp hp).2⟩

theorem exists_keptNested (h : ExcludingIsDeleting lib db root layout config dimensions)
    (hexpands : ExpandsPaths dimensions) (hreads : ¬ ReadsPaths dimensions) {upper : PurePath}
    (hnested : Nested layout upper) : ∃ kept, Nested layout kept ∧ ¬ Matched root config kept := by
  obtain ⟨hupper, lower, hlower, hinside⟩ := hnested
  obtain ⟨path, hread, hpath⟩ := (exists_reads_iff h none).mpr
    ⟨lower, .expanded hexpands (mem_expanded_withoutMatched.mpr
      (Or.inl ⟨upper, hupper, mem_found.mpr (Or.inr hlower), Or.inl hlower, hinside⟩)),
      Or.inl hlower⟩
  have hpath := hpath.resolve_right (by simp)
  cases hread with
  | expanded _ hp =>
      rcases mem_expanded_some.mp hp with ⟨d, hd, hmatched, -, hinside⟩ | ⟨hfile, -⟩
      · exact ⟨d, ⟨hd, path, hpath, hinside⟩, hmatched⟩
      · exact absurd hpath (layout.notMem_directories hfile)
  | kept hd _ => exact absurd hd hreads

section Flat

variable (h : ExcludingIsDeleting lib db root layout config dimensions)
  (hexpands : ExpandsPaths dimensions) (hreads : ¬ ReadsPaths dimensions)
  (hflat : ∀ upper, ¬ Nested layout upper) {directory file : PurePath}
  (hdirectory : directory ∈ layout.directories) (hfile : file ∈ layout.files)
  (hinside : isInside directory file)
include hdirectory hfile hinside hflat

omit hfile in
/-- Only one directory lies above a file. -/
theorem directory_unique {other : PurePath} (hother : other ∈ layout.directories)
    (hotherInside : isInside other file) : other = directory := by
  simp only [isInside, decide_eq_true_eq, List.isPrefixOf_iff_prefix] at hinside hotherInside
  by_contra hne
  rcases List.prefix_or_prefix_of_prefix hinside.1 hotherInside.1 with hprefix | hprefix
  · exact hflat directory ⟨hdirectory, other, hother, by simp [isInside, hprefix, Ne.symm hne]⟩
  · exact hflat other ⟨hother, directory, hdirectory, by simp [isInside, hprefix, hne]⟩

include h hexpands hreads

theorem unmatched_of_keptDirectory (hkept : ¬ Matched root config directory) :
    ¬ Matched root config file := by
  intro hmatched
  obtain ⟨path, hread, hpath⟩ := (exists_reads_iff h (some file)).mp
    ⟨file, .expanded hexpands (mem_expanded_some.mpr
      (Or.inl ⟨directory, hdirectory, hkept, mem_found.mpr (Or.inl hfile), hinside⟩)),
      Or.inr rfl⟩
  cases hread with
  | kept hd _ => exact hreads hd
  | expanded _ hp =>
      rcases mem_expanded_withoutMatched.mp hp with
        ⟨d, hd, hfound, hunmatched, hbelow⟩ | ⟨hmem, hunmatched, -⟩
      · have hmem := expandPaths_flat hflat hd hfound hbelow
        have hnot := layout.notMem_directories hmem
        obtain rfl := Option.some.inj (hpath.resolve_left hnot)
        exact hunmatched.resolve_left hnot hmatched
      · obtain rfl := Option.some.inj (hpath.resolve_left (layout.notMem_directories hmem))
        exact hunmatched hmatched

theorem suffix_of_droppedDirectory (hdropped : Matched root config directory)
    (hkept : ¬ Matched root config file) : file.suffix = ".py" := by
  obtain ⟨path, hread, hpath⟩ := (exists_reads_iff h (some file)).mpr
    ⟨file, .expanded hexpands (mem_expanded_withoutMatched.mpr
      (Or.inl ⟨directory, hdirectory, mem_found.mpr (Or.inl hfile), Or.inr hkept, hinside⟩)),
      Or.inr rfl⟩
  cases hread with
  | kept hd _ => exact absurd hd hreads
  | expanded _ hp =>
      rcases mem_expanded_some.mp hp with ⟨d, hd, hunmatched, hfound, hbelow⟩ | ⟨hmem, -, hsuffix⟩
      · have hmem := expandPaths_flat hflat hd hfound hbelow
        obtain rfl := Option.some.inj (hpath.resolve_left (layout.notMem_directories hmem))
        rw [directory_unique hflat hdirectory hinside hd hbelow] at hunmatched
        exact absurd hdropped hunmatched
      · obtain rfl := Option.some.inj (hpath.resolve_left (layout.notMem_directories hmem))
        exact hsuffix

omit h hexpands hreads hdirectory hfile hinside in
theorem mem_files_of_mem_expanded {path : PurePath}
    (hp : path ∈ layout.expandPaths root (keptPaths root layout (some config))) :
    path ∈ layout.files := by
  rcases mem_expanded_some.mp hp with ⟨d, hd, -, hfound, hbelow⟩ | ⟨hmem, -⟩
  · exact expandPaths_flat hflat hd hfound hbelow
  · exact hmem

variable (lib) in
omit h hexpands hreads in
/-- With the configuration the file is read once. -/
theorem length_once (hdropped : Matched root config directory)
    (hkept : ¬ Matched root config file) (hsuffix : file.suffix = ".py") :
    ((keptPaths root layout (some config)).flatMap fun path =>
      (layout.expandPath path).flatMap (functionEntries lib root layout file)).length =
      (functionEntries lib root layout file file).length := by
  have hfound : layout.found.Nodup := layout.distinct
  have hnodup : (keptPaths root layout (some config)).Nodup := by
    rw [keptPaths_some]
    exact ((sortPurePaths_perm root _).nodup_iff.mpr hfound).filter _
  have hmem : file ∈ keptPaths root layout (some config) :=
    mem_keptPaths_some.mpr ⟨mem_found.mpr (Or.inl hfile), hkept⟩
  rw [flatMap_eq_of_unique hnodup hmem]
  · rw [DiskLayout.expandPath, if_neg (layout.notMem_directories hfile), if_pos hsuffix,
      List.flatMap_singleton]
  · intro path hpath hne
    refine List.flatMap_eq_nil_iff.mpr fun other hother => functionEntries_of_ne _ _ _ _ ?_
    rintro rfl
    rw [DiskLayout.expandPath] at hother
    split at hother
    · next hpathDirectory =>
        have hbelow := (List.mem_filter.mp hother).2
        rw [directory_unique hflat hdirectory hinside hpathDirectory hbelow] at hpath
        exact (mem_keptPaths_some.mp hpath).2 hdropped
    · split at hother
      · exact hne (List.mem_singleton.mp hother).symm
      · cases hother

variable (lib) in
omit h hexpands hreads hflat in
/-- After the deletion it is read as it is and below its directory. -/
theorem length_twice (hkept : ¬ Matched root config file) (hsuffix : file.suffix = ".py") :
    2 * (functionEntries lib root layout file file).length ≤
      ((keptPaths root (layout.withoutMatched root config) none).flatMap fun path =>
        ((layout.withoutMatched root config).expandPath path).flatMap
          (functionEntries lib root layout file)).length := by
  have hfile' := layout.notMem_directories hfile
  have hfileKept : file ∈ keptPaths root (layout.withoutMatched root config) none :=
    mem_keptPaths_withoutMatched.mpr ⟨mem_found.mpr (Or.inl hfile), Or.inr hkept⟩
  have hdirectoryKept : directory ∈ keptPaths root (layout.withoutMatched root config) none :=
    mem_keptPaths_withoutMatched.mpr ⟨mem_found.mpr (Or.inr hdirectory), Or.inl hdirectory⟩
  have hne : file ≠ directory := fun heq => hfile' (heq ▸ hdirectory)
  obtain ⟨rest, hperm, -⟩ := exists_perm_two_front hfileKept hdirectoryKept hne
  rw [← (hperm.flatMap_right _).length_eq, List.flatMap_cons, List.flatMap_cons,
    List.length_append, List.length_append]
  have hself : (layout.withoutMatched root config).expandPath file = [file] := by
    rw [DiskLayout.expandPath, directories_withoutMatched, if_neg hfile', if_pos hsuffix]
  have hbelow : file ∈ (layout.withoutMatched root config).expandPath directory := by
    rw [DiskLayout.expandPath, directories_withoutMatched, if_pos hdirectory]
    exact List.mem_filter.mpr ⟨mem_found_withoutMatched.mpr
      ⟨mem_found.mpr (Or.inl hfile), Or.inr hkept⟩, hinside⟩
  have hlength := length_le_flatMap (functionEntries lib root layout file) hbelow
  rw [hself, List.flatMap_singleton]
  omega

/-- The file is read once with the configuration and twice after the deletion. -/
theorem api_of_droppedDirectory (hdropped : Matched root config directory)
    (hkept : ¬ Matched root config file) : shouldExtract "api_surface" dimensions = false := by
  by_contra hextract
  rw [Bool.not_eq_false] at hextract
  have hsuffix := suffix_of_droppedDirectory h hexpands hreads hflat hdirectory hfile hinside
    hdropped hkept
  have hreadable : ∀ path, Reads root layout dimensions (some config) path →
      (⟨layout, oneFunction file⟩ : DiskTree).Readable path := by
    rintro path (⟨-, hp⟩ | ⟨hd, -⟩)
    · exact ⟨layout.notMem_directories (mem_files_of_mem_expanded hflat hp), _, rfl⟩
    · exact absurd hd hreads
  have hstate := (run_eq_ok_iff ..).mp ((h (oneFunction file) none (by simp) _).mp
    ((run_eq_ok_iff ..).mpr ⟨hreadable, rfl⟩))
  have hapi := congrArg (fun state => state.apiSurface.length) hstate.2
  have hsame : (⟨layout.withoutMatched root config, oneFunction file⟩ : DiskTree).fileAt =
      (⟨layout, oneFunction file⟩ : DiskTree).fileAt := rfl
  simp only [codeStateOfFiles, hextract, if_true, hsame, length_apiSurfaceOfFiles,
    length_flatMap_expandPaths] at hapi
  have honce := length_once lib hflat hdirectory hfile hinside hdropped hkept hsuffix
  have htwice := length_twice lib hdirectory hfile hinside hkept hsuffix
  have hpos := functionEntries_pos lib root layout file
  omega

end Flat

end Necessary

/-! ## The condition -/

theorem run_noPatterns (lib : Stdlib) (db : List EffectSignature) (root : Root) (disk : DiskTree)
    (dimensions : Option (Finset String)) (configRoot : Root) :
    extractPythonCodeStateResult lib db root disk dimensions (some ⟨[], configRoot⟩) =
      extractPythonCodeStateResult lib db root disk dimensions none := rfl

/-- Excluding files is deleting them on exactly these layouts. -/
theorem excludingIsDeleting_iff (lib : Stdlib) (db : List EffectSignature) (root : Root)
    (layout : DiskLayout) (config : ExtractConfig) (dimensions : Option (Finset String)) :
    ExcludingIsDeleting lib db root layout config dimensions ↔
      Unaffected root layout config dimensions := by
  constructor
  · intro h
    by_cases hdirectories : layout.directories = []
    · exact .noDirectories hdirectories
    obtain ⟨directory, hdirectory⟩ := List.exists_mem_of_ne_nil _ hdirectories
    by_cases hreads : ReadsPaths dimensions
    · obtain ⟨kept, hkept, hmatched⟩ := exists_keptDirectory h hreads hdirectory
      exact .keptDirectory hreads hkept hmatched
    by_cases hexpands : ExpandsPaths dimensions
    · by_cases hnested : ∃ upper, Nested layout upper
      · obtain ⟨upper, hupper⟩ := hnested
        obtain ⟨kept, hkept, hmatched⟩ := exists_keptNested h hexpands hreads hupper
        exact .keptNested hexpands hkept hmatched
      · rw [not_exists] at hnested
        refine .sameFiles hreads hnested fun d hd file hfile hinside => ⟨fun hkept =>
          unmatched_of_keptDirectory h hexpands hreads hnested hd hfile hinside hkept,
          fun hdropped hkept => ⟨?_, ?_⟩⟩
        · exact suffix_of_droppedDirectory h hexpands hreads hnested hd hfile hinside hdropped hkept
        · exact api_of_droppedDirectory h hexpands hreads hnested hd hfile hinside hdropped hkept
    · exact .noDimensions hexpands hreads
  · intro h contents noPatterns hnoPatterns
    have hsame := sameState_of_unaffected lib db contents h
    simp only [List.mem_cons, List.not_mem_nil, or_false] at hnoPatterns
    rcases hnoPatterns with rfl | rfl
    · exact hsame
    · rwa [run_noPatterns]

/-! ### An excluded file below a directory called `foo.py` -/

def fooLayout : DiskLayout where
  files := [["foo.py", "bar.py"]]
  directories := [["foo.py"]]
  valid := by decide
  python := by decide
  distinct := by decide
  above := by
    intro path hpath front hinside hpython
    have hinits : ∀ path ∈ [["foo.py", "bar.py"]] ++ [["foo.py"]], ∀ front ∈ path.inits,
        isInside front path → isPythonName (PurePath.name front) → front ∈ [["foo.py"]] := by
      decide
    refine hinits path hpath front ?_ hinside hpython
    simp only [isInside, decide_eq_true_eq, List.isPrefixOf_iff_prefix] at hinside
    exact (List.mem_inits _ _).mpr hinside.1

def barConfig : ExtractConfig := ⟨["foo.py/bar.py"], baseCheckout⟩

theorem excludedFile_extracted :
    Matched baseCheckout barConfig ["foo.py", "bar.py"] ∧
    (∃ state, extractPythonCodeStateResult plainStdlib [] baseCheckout
        ⟨fooLayout, oneFunction ["foo.py", "bar.py"]⟩ (some {"api_surface"}) (some barConfig) =
          .ok state ∧ state.apiSurface ≠ []) ∧
    (∃ state, extractPythonCodeStateResult plainStdlib [] baseCheckout
        ⟨fooLayout.withoutMatched baseCheckout barConfig, oneFunction ["foo.py", "bar.py"]⟩
        (some {"api_surface"}) none = .ok state ∧ state.apiSurface = []) ∧
    ¬ ExcludingIsDeleting plainStdlib [] baseCheckout fooLayout barConfig
      (some {"api_surface"}) := by
  have hmatched : Matched baseCheckout barConfig ["foo.py", "bar.py"] := by decide +kernel
  have hkept : ¬ Matched baseCheckout barConfig ["foo.py"] := by decide +kernel
  have hexpanded : fooLayout.expandPaths baseCheckout
      (keptPaths baseCheckout fooLayout (some barConfig)) = [["foo.py", "bar.py"]] := by
    decide +kernel
  have hdeleted : (fooLayout.withoutMatched baseCheckout barConfig).expandPaths baseCheckout
      (keptPaths baseCheckout (fooLayout.withoutMatched baseCheckout barConfig) none) = [] := by
    decide +kernel
  have hreads : ¬ ReadsPaths (some {"api_surface"}) := by
    simp [ReadsPaths, shouldExtract]
  have hexpands : ExpandsPaths (some {"api_surface"}) :=
    ⟨"api_surface", List.mem_cons_self, by simp [shouldExtract]⟩
  have hflat : ∀ upper, ¬ Nested fooLayout upper := by
    rintro upper ⟨hupper, lower, hlower, hinside⟩
    obtain rfl := List.mem_singleton.mp hupper
    obtain rfl := List.mem_singleton.mp hlower
    cases hinside
  refine ⟨hmatched, ⟨_, (run_eq_ok_iff ..).mpr ⟨?_, rfl⟩, ?_⟩,
    ⟨_, (run_eq_ok_iff ..).mpr ⟨?_, rfl⟩, ?_⟩, fun h => ?_⟩
  · rintro path (⟨-, hpath⟩ | ⟨hd, -⟩)
    · rw [hexpanded] at hpath
      obtain rfl := List.mem_singleton.mp hpath
      exact ⟨by decide, _, rfl⟩
    · exact absurd hd hreads
  · apply List.ne_nil_of_length_pos
    have hextract : shouldExtract "api_surface" (some {"api_surface"}) = true := by
      simp [shouldExtract]
    simp only [codeStateOfFiles, hextract, if_true, hexpanded]
    rw [length_apiSurfaceOfFiles, List.flatMap_singleton]
    exact functionEntries_pos _ _ _ _
  · rintro path (⟨-, hpath⟩ | ⟨hd, -⟩)
    · rw [hdeleted] at hpath
      cases hpath
    · exact absurd hd hreads
  · simp only [codeStateOfFiles, hdeleted]
    rfl
  · exact unmatched_of_keptDirectory h hexpands hreads hflat
      (List.mem_cons_self : ["foo.py"] ∈ fooLayout.directories) List.mem_cons_self (by decide)
      hkept hmatched

end SemanticCi.Extraction
