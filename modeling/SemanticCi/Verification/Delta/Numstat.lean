import SemanticCi.Model.DeltaOverlay
import SemanticCi.Python.Decimal
import SemanticCi.Verification.Delta.NumstatRecords

/-! The numstat that git writes is read back, but for tabs in the paths. -/

namespace SemanticCi.GitDiff

open SemanticCi.Python SemanticCi.StateSchema SemanticCi.DeltaOverlay ExceptRules

/-! ## Records of git -/

/-- The counts of a record of git. -/
inductive LineCounts where
  | binary
  | textual (added removed : ℕ)

structure GitRecord where
  counts : LineCounts
  paths : RecordPaths

namespace GitRecord

def written (r : GitRecord) : WrittenRecord :=
  match r.counts with
  | .binary => ⟨"-", "-", r.paths⟩
  | .textual added removed => ⟨toString added, toString removed, r.paths⟩

def numbers (r : GitRecord) : ℤ × ℤ × Bool :=
  match r.counts with
  | .binary => (0, 0, true)
  | .textual added removed => (added, removed, false)

end GitRecord

/-- `git diff --numstat -z -M`. -/
def renderNumstat (rs : List GitRecord) : String :=
  String.ofList (writeRecords (rs.map GitRecord.written))

def GitRecord.entry (r : GitRecord) : NumstatEntry := entryOf r.numbers r.paths

namespace GitRecord

/-- `int` reads the counts, and no tab stands in a path behind them. -/
structure Readable (r : GitRecord) : Prop where
  counts : ∀ added removed, r.counts = .textual added removed →
    (toString added).length ≤ maxIntDigits ∧ (toString removed).length ≤ maxIntDigits
  header : ∀ path, r.paths = .single path → '\t' ∉ path.text.toList

theorem header_iff (r : GitRecord) :
    (∀ path, r.paths = .single path → '\t' ∉ path.text.toList) ↔
      '\t' ∉ r.paths.header.toList := by
  cases r.paths <;> simp [RecordPaths.header]

theorem written_paths (r : GitRecord) : r.written.paths = r.paths := by
  rw [written]
  split <;> rfl

theorem not_mem_repr {c : Char} (hc : c.isDigit = false) (n : ℕ) : c ∉ n.repr.toList := by
  rw [Nat.toList_repr]
  intro hmem
  simp [Nat.isDigit_of_mem_toDigits (by decide) (by decide) hmem] at hc

theorem written_countsPlain (r : GitRecord) : r.written.CountsPlain := by
  rw [written]
  split
  · simp [WrittenRecord.CountsPlain]
  · exact ⟨⟨not_mem_repr rfl _, not_mem_repr rfl _⟩, not_mem_repr rfl _, not_mem_repr rfl _⟩

theorem repr_ne_hyphen (n : ℕ) : n.repr ≠ "-" := by
  intro h
  have hmem : '-' ∈ n.repr.toList := by rw [h]; decide
  exact not_mem_repr rfl n hmem

theorem parseCounts_textual (added removed : ℕ) (numbers : ℤ × ℤ × Bool) :
    parseCounts (toString added) (toString removed) = .ok numbers ↔
      ((toString added).length ≤ maxIntDigits ∧ (toString removed).length ≤ maxIntDigits) ∧
        numbers = ((added : ℤ), (removed : ℤ), false) := by
  simp only [Nat.toString_eq_repr]
  rw [parseCounts, if_neg (fun h => repr_ne_hyphen added h.1),
    if_neg (not_or.mpr ⟨repr_ne_hyphen added, repr_ne_hyphen removed⟩), intOfText_repr,
    intOfText_repr]
  by_cases hadded : added.repr.length ≤ maxIntDigits
  · by_cases hremoved : removed.repr.length ≤ maxIntDigits
    · simp [hadded, hremoved, eq_comm]
    · simp [hadded, hremoved]
  · simp [hadded]

theorem parseCounts_written (r : GitRecord) (numbers : ℤ × ℤ × Bool) :
    parseCounts r.written.added r.written.removed = .ok numbers ↔
      (∀ added removed, r.counts = .textual added removed →
        (toString added).length ≤ maxIntDigits ∧ (toString removed).length ≤ maxIntDigits) ∧
        numbers = r.numbers := by
  rw [written, GitRecord.numbers]
  cases r.counts with
  | binary => simp [parseCounts, eq_comm]
  | textual added removed =>
      rw [parseCounts_textual]
      simp

/-- Readable records are read, and only these. -/
theorem reads_written_iff (r : GitRecord) (entry : NumstatEntry) :
    Reads r.written entry ↔ r.Readable ∧ entry = r.entry := by
  obtain ⟨htab, -⟩ := r.written_countsPlain
  have hpieces : (∀ piece ∈ [r.written.added, r.written.removed, r.written.paths.header],
      '\t' ∉ piece.toList) ↔ '\t' ∉ r.paths.header.toList := by
    simp [htab.1, htab.2, written_paths]
  constructor
  · rintro ⟨numbers, hcounts, htabs, rfl⟩
    obtain ⟨hshort, rfl⟩ := (parseCounts_written r numbers).mp hcounts
    exact ⟨⟨hshort, r.header_iff.mpr (hpieces.mp htabs)⟩, by rw [written_paths, entry]⟩
  · rintro ⟨hr, rfl⟩
    exact ⟨r.numbers, (parseCounts_written r _).mpr ⟨hr.counts, rfl⟩,
      hpieces.mpr (r.header_iff.mp hr.header), by rw [written_paths, entry]⟩

end GitRecord

theorem isText_renderNumstat (rs : List GitRecord) :
    IsText (rs.map GitRecord.written) (renderNumstat rs) :=
  .inl (by rw [renderNumstat, String.toList_ofList])

theorem countsPlain_map (rs : List GitRecord) :
    ∀ w ∈ rs.map GitRecord.written, w.CountsPlain :=
  List.forall_mem_map.mpr fun r _ => r.written_countsPlain

theorem forall₂_map_written (rs : List GitRecord) (entries : List NumstatEntry) :
    List.Forall₂ Reads (rs.map GitRecord.written) entries ↔
      (∀ r ∈ rs, r.Readable) ∧ entries = rs.map GitRecord.entry := by
  rw [List.forall₂_map_left_iff]
  simp only [GitRecord.reads_written_iff]
  induction rs generalizing entries with
  | nil => simp
  | cons r rs ih =>
      rw [List.forall₂_cons_left_iff]
      simp only [ih, List.forall_mem_cons, List.map_cons]
      constructor
      · rintro ⟨entry, rest, ⟨hr, rfl⟩, ⟨hrs, rfl⟩, rfl⟩
        exact ⟨⟨hr, hrs⟩, rfl⟩
      · rintro ⟨⟨hr, hrs⟩, rfl⟩
        exact ⟨r.entry, _, ⟨hr, rfl⟩, ⟨hrs, rfl⟩, rfl⟩

/-- What git writes is read when each of its records is. -/
theorem parseNumstat_render (rs : List GitRecord) (entries : List NumstatEntry) :
    parseNumstat (renderNumstat rs) = .ok entries ↔
      (∀ r ∈ rs, r.Readable) ∧ entries = rs.map GitRecord.entry := by
  rw [parseNumstat_eq_ok_iff, ← forall₂_map_written]
  constructor
  · rintro ⟨ws, hreads, hplain, htext⟩
    rwa [← isText_inj hplain (countsPlain_map rs) htext (isText_renderNumstat rs)]
  · intro h
    exact ⟨_, h, countsPlain_map rs, isText_renderNumstat rs⟩

/-! ## What is summed up -/

def LineCounts.added : LineCounts → ℕ
  | .binary => 0
  | .textual added _ => added

def LineCounts.removed : LineCounts → ℕ
  | .binary => 0
  | .textual _ removed => removed

/-- The old and the new name of a renamed file. -/
def GitRecord.renamed (r : GitRecord) : Option RenameEntry :=
  match r.paths with
  | .single _ => none
  | .rename oldPath newPath =>
      some ⟨posixPath (.ofText oldPath.text), posixPath (.ofText newPath.text)⟩

/-- The paths of a record, the old one last. -/
def RecordPaths.texts : RecordPaths → List String
  | .single path => [path.text]
  | .rename oldPath newPath => [newPath.text, oldPath.text]

/-- `str(path)` for the paths of an entry. -/
def pathTexts (entry : NumstatEntry) : List String :=
  entry.path.text :: (entry.oldPath.map FilePath.text).toList

/-- The entries are the records, and what is summed up from them is exact. -/
structure Exact (rs : List GitRecord) (entries : List NumstatEntry) : Prop where
  entries_eq : entries = rs.map GitRecord.entry
  texts : ∀ r ∈ rs, (∀ text ∈ r.paths.texts, FilePath.Normal text) →
    pathTexts r.entry = r.paths.texts
  filesTouched : (summarizeNumstat entries).1 = rs.length
  added : (summarizeNumstat entries).2.added = ((rs.map (·.counts.added)).sum : ℕ)
  removed : (summarizeNumstat entries).2.removed = ((rs.map (·.counts.removed)).sum : ℕ)
  renames : (renamesFromNumstat entries).Perm (rs.filterMap GitRecord.renamed)
  sorted : (renamesFromNumstat entries).Pairwise fun a b =>
    toLex (a.oldPath, a.newPath) ≤ toLex (b.oldPath, b.newPath)

theorem pathTexts_entry (r : GitRecord) (h : ∀ text ∈ r.paths.texts, FilePath.Normal text) :
    pathTexts r.entry = r.paths.texts := by
  rw [GitRecord.entry]
  cases hpaths : r.paths with
  | single path =>
      rw [hpaths] at h
      have hpath := FilePath.text_ofText (h path.text (by simp [RecordPaths.texts]))
      simp [entryOf, pathTexts, RecordPaths.texts, hpath]
  | rename oldPath newPath =>
      rw [hpaths] at h
      have hnew := FilePath.text_ofText (h newPath.text (by simp [RecordPaths.texts]))
      have hold := FilePath.text_ofText (h oldPath.text (by simp [RecordPaths.texts]))
      simp [entryOf, pathTexts, RecordPaths.texts, hnew, hold]

/-- A field of the entries that are not binary sums up the counts. -/
theorem sum_entries (count : LineCounts → ℕ) (field : NumstatEntry → ℤ)
    (hfield : ∀ r : GitRecord, field r.entry = count r.counts)
    (hbinary : count .binary = 0) (rs : List GitRecord) :
    (((rs.map GitRecord.entry).filter fun entry => !entry.isBinary).map field).sum =
      ((rs.map fun r => count r.counts).sum : ℕ) := by
  induction rs with
  | nil => rfl
  | cons r rs ih =>
      have hbin : r.entry.isBinary = r.numbers.2.2 := by
        rw [GitRecord.entry]
        cases r.paths <;> rfl
      cases hcounts : r.counts with
      | binary =>
          have hskip : r.entry.isBinary = true := by rw [hbin, GitRecord.numbers, hcounts]
          simp [hskip, hcounts, hbinary, ih]
      | textual added removed =>
          have hkeep : r.entry.isBinary = false := by rw [hbin, GitRecord.numbers, hcounts]
          simp [hkeep, hcounts, ih, hfield r]

theorem added_entry (r : GitRecord) : r.entry.added = r.counts.added := by
  rw [GitRecord.entry, GitRecord.numbers]
  cases r.paths <;> cases r.counts <;> rfl

theorem removed_entry (r : GitRecord) : r.entry.removed = r.counts.removed := by
  rw [GitRecord.entry, GitRecord.numbers]
  cases r.paths <;> cases r.counts <;> rfl

theorem renameOf_entry (r : GitRecord) : renameOf r.entry = r.renamed := by
  rw [GitRecord.entry, GitRecord.renamed]
  cases r.paths <;> rfl

theorem exact_entries (rs : List GitRecord) : Exact rs (rs.map GitRecord.entry) where
  entries_eq := rfl
  texts r _ := pathTexts_entry r
  filesTouched := by simp [summarizeNumstat]
  added := sum_entries LineCounts.added (·.added) added_entry rfl rs
  removed := sum_entries LineCounts.removed (·.removed) removed_entry rfl rs
  renames := by
    have hrenames : renameOf ∘ GitRecord.entry = GitRecord.renamed := funext renameOf_entry
    rw [renamesFromNumstat, List.filterMap_map, hrenames]
    exact List.perm_insertionSort _ _
  sorted := by
    rw [renamesFromNumstat]
    exact List.pairwise_insertionSort _ _

/-- The round trip succeeds on the lists of readable records. -/
theorem exact_iff (rs : List GitRecord) :
    (∃ entries, parseNumstat (renderNumstat rs) = .ok entries ∧ Exact rs entries) ↔
      ∀ r ∈ rs, r.Readable := by
  simp only [parseNumstat_render]
  constructor
  · rintro ⟨entries, ⟨hrs, -⟩, -⟩
    exact hrs
  · intro hrs
    exact ⟨_, ⟨hrs, rfl⟩, exact_entries rs⟩

/-! ## What else is read -/

theorem parseCounts_ok_iff (w : WrittenRecord) :
    (∃ numbers, parseCounts w.added w.removed = .ok numbers) ↔ w.CountsRead := by
  have hhyphen : intOfText "-" = none := by decide
  rw [parseCounts, WrittenRecord.CountsRead]
  by_cases hbinary : w.added = "-" ∧ w.removed = "-"
  · simp [hbinary]
  · rw [if_neg hbinary, or_iff_right hbinary]
    by_cases hone : w.added = "-" ∨ w.removed = "-"
    · rw [if_pos hone]
      rcases hone with h | h <;> simp [h, hhyphen]
    · rw [if_neg hone]
      cases intOfText w.added <;> cases intOfText w.removed <;> simp

theorem exists_reads_iff (w : WrittenRecord) (hw : w.CountsPlain) :
    (∃ entry, Reads w entry) ↔ w.Legible := by
  constructor
  · rintro ⟨entry, numbers, hcounts, htabs, -⟩
    exact ⟨hw, (parseCounts_ok_iff w).mp ⟨numbers, hcounts⟩, htabs _ (by simp)⟩
  · intro h
    obtain ⟨numbers, hcounts⟩ := (parseCounts_ok_iff w).mpr h.read
    exact ⟨entryOf numbers w.paths, numbers, hcounts,
      by simp [hw.1.1, hw.1.2, h.header], rfl⟩

/-- A text is read when it holds legible records. -/
theorem exists_parseNumstat_iff (stdout : String) :
    (∃ entries, parseNumstat stdout = .ok entries) ↔
      ∃ ws, (∀ w ∈ ws, w.Legible) ∧ IsText ws stdout := by
  simp only [parseNumstat_eq_ok_iff]
  constructor
  · rintro ⟨entries, ws, hreads, hplain, htext⟩
    refine ⟨ws, fun w hw => ?_, htext⟩
    obtain ⟨entry, -, hentry⟩ := exists_of_mem_forall₂ hreads.flip hw
    exact (exists_reads_iff w (hplain w hw)).mp ⟨entry, hentry⟩
  · rintro ⟨ws, hlegible, htext⟩
    have hplain : ∀ w ∈ ws, w.CountsPlain := fun w hw => (hlegible w hw).plain
    have hentries : ∃ entries, List.Forall₂ Reads ws entries := by
      clear htext
      induction ws with
      | nil => exact ⟨[], .nil⟩
      | cons w ws ih =>
          obtain ⟨hw, hws⟩ := List.forall_mem_cons.mp hlegible
          obtain ⟨entry, hentry⟩ := (exists_reads_iff w hw.plain).mpr hw
          obtain ⟨entries, hentries⟩ := ih hws fun w hw => (hws w hw).plain
          exact ⟨entry :: entries, .cons hentry hentries⟩
    obtain ⟨entries, hentries⟩ := hentries
    exact ⟨entries, ws, hentries, hplain, htext⟩

/-- The text is closed by a separator, and its counts are spelled as git spells them. -/
def SpelledByGit (ws : List WrittenRecord) (stdout : String) : Prop :=
  writeRecords ws = stdout.toList ∧ ∀ w ∈ ws, ∃ r : GitRecord, r.written = w

theorem spelledByGit_render {ws : List WrittenRecord} {rs : List GitRecord}
    (hws : ∀ w ∈ ws, w.CountsPlain) (h : IsText ws (renderNumstat rs)) :
    SpelledByGit ws (renderNumstat rs) := by
  obtain rfl := isText_inj hws (countsPlain_map rs) h (isText_renderNumstat rs)
  refine ⟨by rw [renderNumstat, String.toList_ofList], fun w hw => ?_⟩
  obtain ⟨r, -, rfl⟩ := List.mem_map.mp hw
  exact ⟨r, rfl⟩

theorem exists_render {ws : List WrittenRecord} {stdout : String} (h : SpelledByGit ws stdout) :
    ∃ rs, stdout = renderNumstat rs := by
  obtain ⟨rs, rfl⟩ : ws ∈ Set.range (List.map GitRecord.written) := by
    rw [Set.range_list_map]
    exact h.2
  exact ⟨rs, by rw [renderNumstat, h.1, String.ofList_toList]⟩

/-- The other texts are rejected unless they hold records in another spelling. -/
theorem rejected_iff (stdout : String) :
    ((¬ ∃ rs, stdout = renderNumstat rs) → ∃ e, parseNumstat stdout = .error e) ↔
      ∀ ws, (∀ w ∈ ws, w.Legible) → IsText ws stdout → SpelledByGit ws stdout := by
  constructor
  · intro h ws hlegible htext
    obtain ⟨entries, hok⟩ := (exists_parseNumstat_iff stdout).mpr ⟨ws, hlegible, htext⟩
    by_cases hgit : ∃ rs, stdout = renderNumstat rs
    · obtain ⟨rs, rfl⟩ := hgit
      exact spelledByGit_render (fun w hw => (hlegible w hw).plain) htext
    · obtain ⟨e, he⟩ := h hgit
      rw [hok] at he
      cases he
  · intro h hgit
    rcases ok_or_error (parseNumstat stdout) with hok | herror
    · obtain ⟨ws, hlegible, htext⟩ := (exists_parseNumstat_iff stdout).mp hok
      exact absurd (exists_render (h ws hlegible htext)) hgit
    · exact herror

theorem numstat_iff (rs : List GitRecord) (stdout : String) :
    ((∃ entries, parseNumstat (renderNumstat rs) = .ok entries ∧ Exact rs entries) ↔
      ∀ r ∈ rs, r.Readable) ∧
    (((¬ ∃ rs, stdout = renderNumstat rs) → ∃ e, parseNumstat stdout = .error e) ↔
      ∀ ws, (∀ w ∈ ws, w.Legible) → IsText ws stdout → SpelledByGit ws stdout) := by
  constructor
  · exact exact_iff rs
  · exact rejected_iff stdout

/-- A file with a tab in its name. -/
def tabRecord : GitRecord where
  counts := .textual 1 0
  paths := .single ⟨"a\tb", by decide, by decide⟩

theorem not_numstat_exact : ¬ ((∀ rs : List GitRecord,
      ∃ entries, parseNumstat (renderNumstat rs) = .ok entries ∧ Exact rs entries) ∧
    ∀ stdout, (¬ ∃ rs, stdout = renderNumstat rs) → ∃ e, parseNumstat stdout = .error e) := by
  rintro ⟨hexact, -⟩
  have hreadable := (exact_iff [tabRecord]).mp (hexact _) tabRecord List.mem_cons_self
  exact hreadable.header _ rfl (by decide)

end SemanticCi.GitDiff
