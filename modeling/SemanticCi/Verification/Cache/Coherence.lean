import Mathlib.Data.List.Sort
import SemanticCi.Verification.Cache.Fingerprint

namespace SemanticCi.CodeStateCache

variable {Digest Key : Type*} {digest : Bytes → Digest} {keyDigest : KeyPayload Digest → Key}

/-! ### What the key decides -/

theorem mem_extractorVersions (engine : EngineFiles) (d : Dimension) (x : Digest) :
    (d.value, x) ∈ extractorVersions digest engine ↔ x = extractorVersion digest engine d := by
  simp only [extractorVersions, sortedItems, List.mem_mergeSort, List.mem_map, Prod.mk.injEq]
  constructor
  · rintro ⟨e, -, hvalue, rfl⟩
    rw [Dimension.value_injective hvalue]
  · rintro rfl
    exact ⟨d, d.mem_all, rfl, rfl⟩

theorem mem_keyPayload_versions (engine : EngineFiles) (r : CheckRequest) (d : Dimension)
    (x : Digest) :
    (d.value, x) ∈ (keyPayload digest engine r).extractorVersions ↔
      r.Covers d ∧ x = extractorVersion digest engine d := by
  cases hdims : r.dimensions with
  | none =>
    simp [keyPayload, dimensionsForCache, hdims, extractorVersionsForKey, sortedItems,
      CheckRequest.Covers, mem_extractorVersions]
  | some selected =>
    simp [keyPayload, dimensionsForCache, hdims, extractorVersionsForKey, sortedItems,
      CheckRequest.Covers, mem_extractorVersions, and_comm]

theorem dimensionsForCache_injective : Function.Injective dimensionsForCache := by
  refine Option.map_injective fun a b h => ?_
  have hsets := congrArg List.toFinset h
  rwa [Finset.sort_toFinset, Finset.sort_toFinset] at hsets

/-- The versions in a key do not depend on the dimensions it leaves out. -/
theorem extractorVersionsForKey_congr {old new : EngineFiles} {r : CheckRequest}
    (h : ∀ d, r.Covers d → extractorVersion digest old d = extractorVersion digest new d) :
    extractorVersionsForKey (extractorVersions digest old) (dimensionsForCache r.dimensions) =
      extractorVersionsForKey (extractorVersions digest new)
        (dimensionsForCache r.dimensions) := by
  have hsorted : ∀ engine : EngineFiles, extractorVersions digest engine =
      (Dimension.all.mergeSort fun a b => a.value ≤ b.value).map fun d =>
        (d.value, extractorVersion digest engine d) := by
    intro engine
    exact (List.map_mergeSort (by intros; rfl)).symm
  rw [hsorted, hsorted]
  cases hdims : r.dimensions with
  | none =>
    have hcovers : ∀ d, r.Covers d := by simp [CheckRequest.Covers, hdims]
    simp only [fun d => h d (hcovers d)]
  | some selected =>
    simp only [dimensionsForCache, Option.map_some, extractorVersionsForKey, List.filter_map]
    congr 1
    refine List.map_congr_left fun d hd => ?_
    have hmem : d.value ∈ selected := by simpa using (List.mem_filter.mp hd).2
    have hcovers : r.Covers d := by
      intro chosen hchosen
      rwa [← Option.some.inj (hdims.symm.trans hchosen)]
    rw [h d hcovers]

theorem cacheKey_eq_iff (hkey : Function.Injective keyDigest) (old new : EngineFiles)
    (r s : CheckRequest) :
    cacheKey digest keyDigest old r = cacheKey digest keyDigest new s ↔
      r = s ∧ ∀ d, r.Covers d →
        extractorVersion digest old d = extractorVersion digest new d := by
  constructor
  · intro h
    have hpayload := hkey h
    have hdims := dimensionsForCache_injective (congrArg KeyPayload.dimensions hpayload)
    have hmode : r.mode = s.mode := by
      have hvalue := congrArg KeyPayload.mode hpayload
      revert hvalue
      cases hr : r.mode <;> cases hs : s.mode <;> simp [keyPayload, hr, hs, ExecutionMode.value]
    refine ⟨?_, fun d hcovers => ?_⟩
    · cases r
      cases s
      simp_all [keyPayload]
    · have hmem := (@mem_keyPayload_versions _ digest old r d _).mpr ⟨hcovers, rfl⟩
      rw [hpayload] at hmem
      exact ((mem_keyPayload_versions new s d _).mp hmem).2
  · rintro ⟨rfl, hversions⟩
    unfold cacheKey keyPayload
    rw [extractorVersionsForKey_congr hversions]

/-! ### The files an extraction imports -/

theorem ImportReading.mem_all (reading : ImportReading) : reading ∈ ImportReading.all := by
  cases reading <;> decide

/-- Six rounds are enough. -/
theorem importClosure_closed (reading : ImportReading) (d : Dimension) :
    ∀ m ∈ importClosure reading d, ∀ other ∈ importedModules reading d m,
      other ∈ importClosure reading d := by
  have hall : ∀ reading ∈ ImportReading.all, ∀ d ∈ Dimension.all,
      ∀ m ∈ importClosure reading d, ∀ other ∈ importedModules reading d m,
        other ∈ importClosure reading d := by decide +kernel
  exact hall reading reading.mem_all d d.mem_all

theorem mem_importClosure_iff (reading : ImportReading) (d : Dimension) (m : EngineModule) :
    m ∈ importClosure reading d ↔ Imported reading d m :=
  Worklist.mem_iterate_iff 6 (importClosure_closed reading d) m

theorem extractorReads_iff (reading : ImportReading) (d : Dimension) (path : String) :
    ExtractorReads reading d path ↔ Fingerprinted d path ∨ path ∈ otherReads reading d := by
  have hsplit : ∀ {own common imported database : Prop},
      own ∨ common ∨ imported ∨ database ↔
        (own ∨ common) ∨ (database ∨ imported) ∧ ¬ own ∧ ¬ common := by tauto
  simp only [ExtractorReads, ← mem_importClosure_iff, Fingerprinted, otherReads, List.mem_filter,
    List.mem_append, List.mem_map, decide_eq_true_iff]
  exact hsplit

theorem EngineModule.mem_all (m : EngineModule) : m ∈ EngineModule.all := by
  cases m <;> decide

theorem otherReads_installed {reading : ImportReading} {d : Dimension} {path : String}
    (h : path ∈ otherReads reading d) : path ∈ installedFiles := by
  rcases List.mem_append.mp (List.mem_filter.mp h).1 with hdatabase | himported
  · cases d with
    | effects =>
      obtain rfl := List.mem_singleton.mp hdatabase
      exact List.mem_cons_self
    | _ => cases hdatabase
  · obtain ⟨m, -, rfl⟩ := List.mem_map.mp himported
    exact List.mem_cons_of_mem _ (List.mem_map_of_mem m.mem_all)

/-! ### Coherence -/

def SameReads (reading : ImportReading) (old new : EngineFiles) (d : Dimension) : Prop :=
  ∀ path, ExtractorReads reading d path → old.contents path = new.contents path

/-- Equal keys stand for equal extractions, and every covered dimension notices a change of
any file that its extraction reads. -/
structure Coherent (reading : ImportReading) (digest : Bytes → Digest)
    (keyDigest : KeyPayload Digest → Key) (old new : EngineFiles) (r s : CheckRequest) :
    Prop where
  results : cacheKey digest keyDigest old r = cacheKey digest keyDigest new s →
    r = s ∧ ∀ d, r.Covers d → SameReads reading old new d
  entries : ∀ d, r.Covers d → ∀ path, ExtractorReads reading d path →
    old.contents path ≠ new.contents path →
      extractorVersion digest old d ≠ extractorVersion digest new d

/-- The extraction of a dimension follows from the request and the files it reads. -/
def DecidedByReads {Result : Type*} (reading : ImportReading)
    (extract : EngineFiles → CheckRequest → Dimension → Result) : Prop :=
  ∀ old new r d, SameReads reading old new d → extract old r d = extract new r d

theorem Coherent.extract_eq {Result : Type*} {reading : ImportReading}
    {extract : EngineFiles → CheckRequest → Dimension → Result} {old new : EngineFiles}
    {r s : CheckRequest} {d : Dimension} (h : Coherent reading digest keyDigest old new r s)
    (hextract : DecidedByReads reading extract)
    (hkey : cacheKey digest keyDigest old r = cacheKey digest keyDigest new s)
    (hcovers : r.Covers d) : extract old r d = extract new s d := by
  obtain ⟨rfl, hreads⟩ := h.results hkey
  exact hextract old new r d (hreads d hcovers)

def OthersUnchanged (reading : ImportReading) (old new : EngineFiles) (d : Dimension) : Prop :=
  ∀ path ∈ otherReads reading d, old.contents path = new.contents path

def FingerprintedChanged (old new : EngineFiles) (d : Dimension) : Prop :=
  ∃ path, Fingerprinted d path ∧ old.contents path ≠ new.contents path

theorem extractorVersion_ne_iff (hdigest : Function.Injective digest) (old new : EngineFiles)
    (d : Dimension) :
    extractorVersion digest old d ≠ extractorVersion digest new d ↔
      FingerprintedChanged old new d := by
  rw [ne_eq, extractorVersion_eq_iff hdigest, FingerprintedChanged]
  push Not
  rfl

/-- The entry of a dimension notices every change it should, or a file outside its own
package and the common dependencies changed alone. -/
theorem entry_notices_iff (hdigest : Function.Injective digest) (reading : ImportReading)
    (old new : EngineFiles) (d : Dimension) :
    (∀ path, ExtractorReads reading d path → old.contents path ≠ new.contents path →
      extractorVersion digest old d ≠ extractorVersion digest new d) ↔
      OthersUnchanged reading old new d ∨ FingerprintedChanged old new d := by
  simp only [extractorVersion_ne_iff hdigest]
  constructor
  · intro h
    by_cases hchanged : FingerprintedChanged old new d
    · exact Or.inr hchanged
    · refine Or.inl fun path hpath => ?_
      by_contra hne
      exact hchanged (h path ((extractorReads_iff reading d path).mpr (Or.inr hpath)) hne)
  · rintro (hothers | hchanged) path hreads hne
    · rcases (extractorReads_iff reading d path).mp hreads with hfinger | hother
      · exact ⟨path, hfinger, hne⟩
      · exact absurd (hothers path hother) hne
    · exact hchanged

theorem coherent_iff_othersUnchanged (hdigest : Function.Injective digest)
    (hkey : Function.Injective keyDigest) (reading : ImportReading) (old new : EngineFiles)
    (r s : CheckRequest) :
    Coherent reading digest keyDigest old new r s ↔
      ∀ d, r.Covers d → OthersUnchanged reading old new d ∨ FingerprintedChanged old new d := by
  constructor
  · intro h d hcovers
    exact (entry_notices_iff hdigest reading old new d).mp (h.entries d hcovers)
  · intro h
    have hentries := fun d hcovers =>
      (entry_notices_iff hdigest reading old new d).mpr (h d hcovers)
    refine ⟨fun heq => ?_, hentries⟩
    obtain ⟨hrequest, hversions⟩ := (cacheKey_eq_iff hkey old new r s).mp heq
    refine ⟨hrequest, fun d hcovers path hreads => ?_⟩
    by_contra hne
    exact hentries d hcovers path hreads hne (hversions d hcovers)

/-! ### Which files are always noticed -/

namespace EngineFiles

/-- The engine with other bytes in one file. -/
def withBytes (engine : EngineFiles) (path : String) (content : Bytes)
    (hfree : 0 ∉ content) : EngineFiles where
  files := engine.files.adjust path fun _ => content
  installed := by
    intro p hp
    rw [OrderedDict.get?_adjust, Option.isSome_map]
    exact engine.installed p hp
  nulFree := by
    intro p found hfound
    rw [OrderedDict.get?_adjust] at hfound
    obtain ⟨before, hbefore, heq⟩ := Option.map_eq_some_iff.mp hfound
    refine ⟨(engine.nulFree p before hbefore).1, fun hpython => ?_⟩
    split at heq
    · exact heq ▸ hfree
    · exact heq ▸ (engine.nulFree p before hbefore).2 hpython

theorem contents_withBytes (engine : EngineFiles) (path p : String) (content : Bytes)
    (hfree : 0 ∉ content) :
    (engine.withBytes path content hfree).contents p =
      (engine.contents p).map fun found => if p = path then content else found :=
  OrderedDict.get?_adjust engine.files path p fun _ => content

/-- Every file that has to be there, without a byte in it. -/
def bare : EngineFiles where
  files := ⟨installedFiles.map fun path => (path, []), by decide⟩
  installed := by decide +kernel
  nulFree := by
    intro path content hfound
    have hfiles : ∀ p ∈ installedFiles.map fun path => (path, ([] : Bytes)),
        0 ∉ utf8 p.1 ∧ 0 ∉ p.2 := by decide +kernel
    obtain ⟨p, hp, rfl⟩ := Option.map_eq_some_iff.mp hfound
    have hpath : p.1 = path := by simpa using List.find?_some hp
    have hfree := hfiles p (List.mem_of_find?_eq_some hp)
    exact ⟨hpath ▸ hfree.1, fun _ => hfree.2⟩

end EngineFiles

theorem contents_bare : ∀ path ∈ installedFiles, EngineFiles.bare.contents path = some [] := by
  decide +kernel

/-- Only the written file changes. -/
theorem not_fingerprintedChanged_withBytes (engine : EngineFiles) {d : Dimension}
    {path : String} {content : Bytes} (hfree : 0 ∉ content) (hother : ¬ Fingerprinted d path) :
    ¬ FingerprintedChanged engine (engine.withBytes path content hfree) d := by
  rintro ⟨p, hfinger, hne⟩
  have hp : p ≠ path := by
    rintro rfl
    exact hother hfinger
  apply hne
  simp [EngineFiles.contents_withBytes, hp]

/-- The files whose every change the entry of a dimension notices. -/
theorem alwaysNoticed_iff (hdigest : Function.Injective digest) {reading : ImportReading}
    {d : Dimension} {path : String} (hreads : ExtractorReads reading d path) :
    (∀ old new : EngineFiles, old.contents path ≠ new.contents path →
      extractorVersion digest old d ≠ extractorVersion digest new d) ↔ Fingerprinted d path := by
  simp only [extractorVersion_ne_iff hdigest]
  constructor
  · intro h
    by_contra hother
    have hfree : (0 : UInt8) ∉ [35] := by decide
    have hinstalled := otherReads_installed
      (((extractorReads_iff reading d path).mp hreads).resolve_left hother)
    refine not_fingerprintedChanged_withBytes .bare hfree hother (h _ _ ?_)
    simp [EngineFiles.contents_withBytes, contents_bare path hinstalled]
  · exact fun hfinger old new hne => ⟨path, hfinger, hne⟩

/-! ### The signature database -/

def effectDatabase : String := "effects/effect_db_python.yaml"

def editedDatabase : EngineFiles := .withBytes .bare effectDatabase [35] (by decide)

def editedModule : EngineFiles := .withBytes .bare "effects/effect_db.py" [35] (by decide)

def effectsRequest : CheckRequest where
  treeObjectId := "4b825dc"
  packageRoot := "."
  mode := .full
  dimensions := some {"effects"}
  effectiveExclude := ("", [])
  pythonXy := "3.12"
  packageVersion := "0.1.0"

theorem effectsRequest_covers {d : Dimension} (h : effectsRequest.Covers d) : d = .effects := by
  have hmem : d.value ∈ ({"effects"} : Finset String) := h _ rfl
  exact Dimension.value_injective (Finset.mem_singleton.mp hmem)

theorem effectDatabase_not_fingerprinted : ¬ Fingerprinted .effects effectDatabase := by
  have hown : ownSource .effects effectDatabase = false := by decide +kernel
  have hcommon : effectDatabase ∉ commonExtractorDeps := by decide
  simp [Fingerprinted, hown, hcommon]

theorem cacheKey_misses_database :
    cacheKey id id .bare effectsRequest = cacheKey id id editedDatabase effectsRequest ∧
      ∀ reading, ¬ Coherent reading id id .bare editedDatabase effectsRequest effectsRequest := by
  have hversion : extractorVersion id .bare .effects =
      extractorVersion id editedDatabase .effects := by
    by_contra hne
    exact not_fingerprintedChanged_withBytes .bare _ effectDatabase_not_fingerprinted
      ((extractorVersion_ne_iff Function.injective_id _ _ _).mp hne)
  have hkey : cacheKey id id .bare effectsRequest = cacheKey id id editedDatabase effectsRequest :=
    (cacheKey_eq_iff Function.injective_id _ _ _ _).mpr
      ⟨rfl, fun d hcovers => by rw [effectsRequest_covers hcovers, hversion]⟩
  refine ⟨hkey, fun reading h => ?_⟩
  have hcovers : effectsRequest.Covers .effects := by
    simp [CheckRequest.Covers, effectsRequest, Dimension.value]
  have hsame := (h.results hkey).2 .effects hcovers effectDatabase
    (Or.inr (Or.inr (Or.inr (List.mem_singleton.mpr rfl))))
  have hinstalled : effectDatabase ∈ installedFiles := by decide
  simp [editedDatabase, EngineFiles.contents_withBytes, contents_bare _ hinstalled] at hsame

theorem editedModule_coherent :
    Function.Injective (id : Bytes → Bytes) ∧
      Function.Injective (id : KeyPayload Bytes → KeyPayload Bytes) ∧
      Coherent .executed id id .bare editedModule effectsRequest effectsRequest := by
  refine ⟨Function.injective_id, Function.injective_id, ?_⟩
  rw [coherent_iff_othersUnchanged Function.injective_id Function.injective_id]
  intro d hcovers
  rw [effectsRequest_covers hcovers]
  refine Or.inr ⟨"effects/effect_db.py", ?_, ?_⟩
  · exact Or.inl (by decide +kernel)
  · have hinstalled : "effects/effect_db.py" ∈ installedFiles := by decide
    simp [editedModule, EngineFiles.contents_withBytes, contents_bare _ hinstalled]

end SemanticCi.CodeStateCache
