import SemanticCi.Model.CodeStateCache

namespace SemanticCi.CodeStateCache

/-! ### The source paths of a dimension -/

/-- The fingerprint of the dimension takes in the file. -/
def Fingerprinted (d : Dimension) (path : String) : Prop :=
  ownSource d path ∨ path ∈ commonExtractorDeps

theorem utf8_injective : Function.Injective utf8 := by
  intro s t h
  apply String.toByteArray_inj.mp
  exact ByteArray.ext (Array.toList_inj.mp h)

theorem Dimension.mem_all (d : Dimension) : d ∈ Dimension.all := by
  cases d <;> decide

theorem Dimension.value_injective : Function.Injective Dimension.value := by
  intro d e h
  cases d <;> cases e <;> first | rfl | exact absurd h (by decide)

namespace EngineFiles

variable (engine : EngineFiles)

theorem mem_keys_iff (path : String) :
    path ∈ engine.files.keys ↔ (engine.contents path).isSome :=
  (OrderedDict.get?_isSome_iff engine.files path).symm

theorem readBytes_of_contents {path : String} {content : Bytes}
    (h : engine.contents path = some content) : engine.readBytes path = content := by
  simp [readBytes, h]

theorem common_isSome {path : String} (h : path ∈ commonExtractorDeps) :
    (engine.contents path).isSome := by
  have hinstalled : ∀ p ∈ commonExtractorDeps, p ∈ installedFiles := by decide
  exact engine.installed path (hinstalled path h)

theorem isDir_sourceMap {d : Dimension} {raw : String} (h : raw ∈ extractorSourceMap d) :
    engine.isDir raw := by
  have hmodule : ∀ d ∈ Dimension.all, ∀ raw ∈ extractorSourceMap d,
      ∃ path ∈ installedFiles, isBelow raw path := by decide +kernel
  obtain ⟨path, hpath, hbelow⟩ := hmodule d d.mem_all raw h
  exact List.any_eq_true.mpr
    ⟨path, (engine.mem_keys_iff path).mpr (engine.installed path hpath), hbelow⟩

theorem mem_rglobPython (raw path : String) :
    path ∈ engine.rglobPython raw ↔
      (isBelow raw path ∧ isPythonFile path) ∧ (engine.contents path).isSome := by
  simp only [rglobPython, List.mem_filter, Bool.and_eq_true, mem_keys_iff]
  exact and_comm

end EngineFiles

theorem mem_sourcePaths (engine : EngineFiles) (d : Dimension) (path : String) :
    path ∈ extractorSourcePaths engine (extractorSourceMap d) ↔
      Fingerprinted d path ∧ (engine.contents path).isSome := by
  have hsources : (path ∈ (extractorSourceMap d).flatMap fun raw =>
      if engine.isDir raw then engine.rglobPython raw else [asPosix raw]) ↔
      ownSource d path ∧ (engine.contents path).isSome := by
    rw [List.mem_flatMap]
    constructor
    · rintro ⟨raw, hraw, hmem⟩
      rw [if_pos (engine.isDir_sourceMap hraw), engine.mem_rglobPython] at hmem
      refine ⟨?_, hmem.2⟩
      rw [ownSource, Bool.and_eq_true, List.any_eq_true]
      exact ⟨⟨raw, hraw, hmem.1.1⟩, hmem.1.2⟩
    · rintro ⟨hown, hsome⟩
      rw [ownSource, Bool.and_eq_true, List.any_eq_true] at hown
      obtain ⟨⟨raw, hraw, hbelow⟩, hpython⟩ := hown
      refine ⟨raw, hraw, ?_⟩
      rw [if_pos (engine.isDir_sourceMap hraw), engine.mem_rglobPython]
      exact ⟨⟨hbelow, hpython⟩, hsome⟩
  simp only [extractorSourcePaths, Finset.mem_sort, List.mem_toFinset, List.mem_append, hsources,
    Fingerprinted]
  constructor
  · rintro (⟨hown, hsome⟩ | hcommon)
    · exact ⟨Or.inl hown, hsome⟩
    · exact ⟨Or.inr hcommon, engine.common_isSome hcommon⟩
  · rintro ⟨hown | hcommon, hsome⟩
    · exact Or.inl ⟨hown, hsome⟩
    · exact Or.inr hcommon

/-- The source paths are sorted, so their members decide them. -/
theorem extractorSourcePaths_congr {old new : EngineFiles} {sources : List String}
    (h : ∀ path, path ∈ extractorSourcePaths old sources ↔
      path ∈ extractorSourcePaths new sources) :
    extractorSourcePaths old sources = extractorSourcePaths new sources := by
  simp only [extractorSourcePaths, Finset.mem_sort] at h ⊢
  rw [Finset.ext h]

theorem isPythonFile_of_fingerprinted {d : Dimension} {path : String}
    (h : Fingerprinted d path) : isPythonFile path := by
  rcases h with hown | hcommon
  · exact (Bool.and_eq_true _ _ ▸ hown).2
  · have hpython : ∀ p ∈ commonExtractorDeps, isPythonFile p := by decide +kernel
    exact hpython path hcommon

/-! ### Two fingerprints of one dimension -/

/-- The pieces of the fingerprint stream hold no NUL. -/
theorem nulFree_of_mem_sourcePaths {engine : EngineFiles} {d : Dimension} {path : String}
    (h : path ∈ extractorSourcePaths engine (extractorSourceMap d)) :
    0 ∉ utf8 path ∧ 0 ∉ engine.readBytes path := by
  obtain ⟨hfinger, hsome⟩ := (mem_sourcePaths engine d path).mp h
  obtain ⟨content, hcontent⟩ := Option.isSome_iff_exists.mp hsome
  have hfree := engine.nulFree path content hcontent
  rw [engine.readBytes_of_contents hcontent]
  exact ⟨hfree.1, hfree.2 (isPythonFile_of_fingerprinted hfinger)⟩

theorem nulFree_of_mem_pieces (engine : EngineFiles) (d : Dimension) :
    ∀ piece ∈ (extractorSourcePaths engine (extractorSourceMap d)).map fun path =>
      (utf8 path, engine.readBytes path), 0 ∉ piece.1 ∧ 0 ∉ piece.2 := by
  intro piece hpiece
  obtain ⟨path, hpath, rfl⟩ := List.mem_map.mp hpiece
  exact nulFree_of_mem_sourcePaths hpath

section Digests

variable {Digest : Type*} {digest : Bytes → Digest}

theorem contents_of_extractorVersion_eq (hdigest : Function.Injective digest)
    {old new : EngineFiles} {d : Dimension} {path : String} {content : Bytes}
    (h : extractorVersion digest old d = extractorVersion digest new d)
    (hfinger : Fingerprinted d path) (hold : old.contents path = some content) :
    new.contents path = some content := by
  have hpairs := Framing.framePairs_inj (nulFree_of_mem_pieces old d)
    (nulFree_of_mem_pieces new d) (hdigest h)
  have hmem : path ∈ extractorSourcePaths old (extractorSourceMap d) :=
    (mem_sourcePaths old d path).mpr ⟨hfinger, by simp [hold]⟩
  have hpair := List.mem_map_of_mem (f := fun p => (utf8 p, old.readBytes p)) hmem
  rw [hpairs] at hpair
  obtain ⟨other, hother, heq⟩ := List.mem_map.mp hpair
  obtain ⟨hname, hbytes⟩ := Prod.mk.inj heq
  have hpath : other = path := utf8_injective hname
  subst hpath
  obtain ⟨found, hfound⟩ :=
    Option.isSome_iff_exists.mp ((mem_sourcePaths new d other).mp hother).2
  rw [new.readBytes_of_contents hfound, old.readBytes_of_contents hold] at hbytes
  rw [hfound, hbytes]

theorem extractorVersion_eq_iff (hdigest : Function.Injective digest) (old new : EngineFiles)
    (d : Dimension) :
    extractorVersion digest old d = extractorVersion digest new d ↔
      ∀ path, Fingerprinted d path → old.contents path = new.contents path := by
  constructor
  · intro h path hfinger
    refine Option.ext fun content => ⟨fun hold => ?_, fun hnew => ?_⟩
    · exact contents_of_extractorVersion_eq hdigest h hfinger hold
    · exact contents_of_extractorVersion_eq hdigest h.symm hfinger hnew
  · intro h
    have hpaths : extractorSourcePaths old (extractorSourceMap d) =
        extractorSourcePaths new (extractorSourceMap d) := by
      refine extractorSourcePaths_congr fun path => ?_
      rw [mem_sourcePaths, mem_sourcePaths]
      exact and_congr_right fun hfinger => by rw [h path hfinger]
    unfold extractorVersion fingerprintPaths
    rw [← hpaths]
    congr 2
    refine List.map_congr_left fun path hpath => ?_
    have hfinger := ((mem_sourcePaths old d path).mp hpath).1
    rw [EngineFiles.readBytes, EngineFiles.readBytes, h path hfinger]

end Digests

end SemanticCi.CodeStateCache
