import SemanticCi.Library.ExceptRules
import SemanticCi.Model.GitDiff
import Mathlib.Data.List.Forall2

/-! The NUL-separated records of a numstat, and which texts are read as such. -/

namespace SemanticCi.GitDiff

open SemanticCi.Python ExceptRules

/-! ## What git writes -/

/-- A path as git writes it: without quotes, whatever its characters. -/
structure GitPath where
  text : String
  ne_empty : text ≠ ""
  nul_free : '\x00' ∉ text.toList

inductive RecordPaths where
  | single (path : GitPath)
  | rename (oldPath newPath : GitPath)

/-- What stands behind the counts in the first field of a record. -/
def RecordPaths.header : RecordPaths → String
  | .single path => path.text
  | .rename _ _ => ""

/-- The fields behind the first one. -/
def RecordPaths.more : RecordPaths → List String
  | .single _ => []
  | .rename oldPath newPath => [oldPath.text, newPath.text]

/-- A record with its counts in any spelling. -/
structure WrittenRecord where
  added : String
  removed : String
  paths : RecordPaths

namespace WrittenRecord

def fields (w : WrittenRecord) : List String :=
  (w.added ++ "\t" ++ w.removed ++ "\t" ++ w.paths.header) :: w.paths.more

/-- Neither separator stands in a count. -/
def CountsPlain (w : WrittenRecord) : Prop :=
  ('\t' ∉ w.added.toList ∧ '\t' ∉ w.removed.toList) ∧
    '\x00' ∉ w.added.toList ∧ '\x00' ∉ w.removed.toList

/-- The counts are two hyphens, or two texts that `int` takes for numbers. -/
def CountsRead (w : WrittenRecord) : Prop :=
  (w.added = "-" ∧ w.removed = "-") ∨ ((intOfText w.added).isSome ∧ (intOfText w.removed).isSome)

/-- A record that the first two tabs of its first field take apart, with counts that are read. -/
structure Legible (w : WrittenRecord) : Prop where
  plain : w.CountsPlain
  read : w.CountsRead
  header : '\t' ∉ w.paths.header.toList

end WrittenRecord

/-- Every field, with the separator behind it. -/
def writeRecords (ws : List WrittenRecord) : List Char :=
  Framing.frame '\x00' ((ws.flatMap WrittenRecord.fields).map String.toList)

/-- The entry of a record with these counts. -/
def entryOf (numbers : ℤ × ℤ × Bool) (paths : RecordPaths) : NumstatEntry :=
  match paths with
  | .single path =>
      { added := numbers.1, removed := numbers.2.1, path := .ofText path.text,
        isBinary := numbers.2.2 }
  | .rename oldPath newPath =>
      { added := numbers.1, removed := numbers.2.1, path := .ofText newPath.text,
        oldPath := some (.ofText oldPath.text), isBinary := numbers.2.2, isRename := true }

/-! ## The fields of a record -/

theorem fields_ne {w : WrittenRecord} {field : String} (h : field ∈ w.fields) : field ≠ "" := by
  rcases List.mem_cons.mp h with rfl | hmore
  · intro hempty
    have hlist := congrArg String.toList hempty
    simp at hlist
  · cases hpaths : w.paths with
    | single path => simp [hpaths, RecordPaths.more] at hmore
    | rename oldPath newPath =>
        simp only [hpaths, RecordPaths.more, List.mem_cons, List.not_mem_nil, or_false] at hmore
        rcases hmore with rfl | rfl
        · exact oldPath.ne_empty
        · exact newPath.ne_empty

theorem nul_free_fields {w : WrittenRecord} (hw : w.CountsPlain) {field : String}
    (h : field ∈ w.fields) : '\x00' ∉ field.toList := by
  have hpath : ∀ f ∈ w.paths.header :: w.paths.more, '\x00' ∉ f.toList := by
    cases w.paths with
    | single path => simpa [RecordPaths.header, RecordPaths.more] using path.nul_free
    | rename oldPath newPath =>
        simpa [RecordPaths.header, RecordPaths.more] using ⟨oldPath.nul_free, newPath.nul_free⟩
  obtain ⟨hheader, hmore⟩ := List.forall_mem_cons.mp hpath
  rcases List.mem_cons.mp h with rfl | hfield
  · simp [hw.2.1, hw.2.2, hheader]
  · exact hmore field hfield

/-- The first two tabs end the counts. -/
theorem header_inj {w v : WrittenRecord} (hw : w.CountsPlain) (hv : v.CountsPlain)
    (h : w.added ++ "\t" ++ w.removed ++ "\t" ++ w.paths.header =
      v.added ++ "\t" ++ v.removed ++ "\t" ++ v.paths.header) :
    w.added = v.added ∧ w.removed = v.removed ∧ w.paths.header = v.paths.header := by
  have hlist := congrArg String.toList h
  simp only [String.toList_append, List.append_assoc] at hlist
  obtain ⟨hadded, hlist⟩ := Framing.append_sep_inj hw.1.1 hv.1.1 hlist
  obtain ⟨hremoved, hheader⟩ := Framing.append_sep_inj hw.1.2 hv.1.2 hlist
  exact ⟨String.toList_inj.mp hadded, String.toList_inj.mp hremoved,
    String.toList_inj.mp hheader⟩

/-- A record is a rename when nothing stands behind its counts. -/
theorem paths_inj {p q : RecordPaths} {fs gs : List String} (hheader : p.header = q.header)
    (hmore : p.more ++ fs = q.more ++ gs) : p = q ∧ fs = gs := by
  cases p with
  | single path =>
      cases q with
      | single other =>
          cases path
          cases other
          exact ⟨by simpa [RecordPaths.header] using hheader, hmore⟩
      | rename oldPath newPath => exact absurd hheader path.ne_empty
  | rename oldPath newPath =>
      cases q with
      | single other => exact absurd hheader.symm other.ne_empty
      | rename oldOther newOther =>
          cases oldPath
          cases newPath
          cases oldOther
          cases newOther
          simpa [RecordPaths.more, and_assoc] using hmore

theorem fields_inj {ws vs : List WrittenRecord} (hws : ∀ w ∈ ws, w.CountsPlain)
    (hvs : ∀ v ∈ vs, v.CountsPlain)
    (h : ws.flatMap WrittenRecord.fields = vs.flatMap WrittenRecord.fields) : ws = vs := by
  induction ws generalizing vs with
  | nil =>
      cases vs with
      | nil => rfl
      | cons v vs => simp [WrittenRecord.fields] at h
  | cons w ws ih =>
      cases vs with
      | nil => simp [WrittenRecord.fields] at h
      | cons v vs =>
          obtain ⟨hw, hws⟩ := List.forall_mem_cons.mp hws
          obtain ⟨hv, hvs⟩ := List.forall_mem_cons.mp hvs
          simp only [List.flatMap_cons, WrittenRecord.fields, List.cons_append] at h
          obtain ⟨hadded, hremoved, hheader⟩ := header_inj hw hv (List.cons.inj h).1
          obtain ⟨hpaths, hrest⟩ := paths_inj hheader (List.cons.inj h).2
          have hhead : w = v := by
            cases w
            cases v
            simp_all
          rw [hhead, ih hws hvs hrest]

/-! ## The texts of records -/

section Texts

variable {ws vs : List WrittenRecord}

theorem nul_free_flatMap (hws : ∀ w ∈ ws, w.CountsPlain) :
    ∀ field ∈ ws.flatMap WrittenRecord.fields, '\x00' ∉ field.toList := by
  intro field hfield
  obtain ⟨w, hw, hmem⟩ := List.mem_flatMap.mp hfield
  exact nul_free_fields (hws w hw) hmem

theorem ne_of_mem_flatMap {field : String} (h : field ∈ ws.flatMap WrittenRecord.fields) :
    field ≠ "" := by
  obtain ⟨w, -, hmem⟩ := List.mem_flatMap.mp h
  exact fields_ne hmem

/-- The fields of a text are read back from it, with or without the last separator. -/
theorem numstatFields_eq {stdout : String} {fields : List String}
    (hempty : ∀ field ∈ fields, field ≠ "") (hfree : ∀ field ∈ fields, '\x00' ∉ field.toList)
    (h : Framing.frame '\x00' (fields.map String.toList) = stdout.toList ∨
      Framing.frame '\x00' (fields.map String.toList) = stdout.toList ++ ['\x00']) :
    numstatFields stdout = fields := by
  rcases h with hended | hopen
  · have hsplit : splitOn '\x00' stdout = fields ++ [""] := by
      rw [splitOn_eq_iff]
      refine ⟨?_, List.forall_mem_append.mpr ⟨hfree, by simp⟩⟩
      simp [← hended, Framing.frame]
    simp [numstatFields, hsplit]
  · have hsplit : splitOn '\x00' stdout = fields := (splitOn_eq_iff _ _ _).mpr ⟨hopen, hfree⟩
    rw [numstatFields, hsplit, if_neg]
    intro hlast
    exact hempty "" (List.mem_of_getLast? hlast) rfl

end Texts

/-! ## One record of the loop -/

/-- The record is read as this entry. -/
def Reads (w : WrittenRecord) (entry : NumstatEntry) : Prop :=
  ∃ numbers, parseCounts w.added w.removed = .ok numbers ∧
    (∀ piece ∈ [w.added, w.removed, w.paths.header], '\t' ∉ piece.toList) ∧
    entry = entryOf numbers w.paths

theorem splitOn_tab_iff {header added removed path : String} :
    splitOn '\t' header = [added, removed, path] ↔
      header = added ++ "\t" ++ removed ++ "\t" ++ path ∧
        ∀ piece ∈ [added, removed, path], '\t' ∉ piece.toList := by
  have hlist : ("\t" : String).toList = ['\t'] := by decide
  have hframe : Framing.frame '\t' ([added, removed, path].map String.toList) =
      (added ++ "\t" ++ removed ++ "\t" ++ path).toList ++ ['\t'] := by
    simp [Framing.frame, hlist]
  rw [splitOn_eq_iff, hframe, List.append_left_inj, String.toList_inj, eq_comm (b := header)]

theorem parseHeader_eq_ok_iff {header path : String} {numbers : ℤ × ℤ × Bool} :
    parseHeader header = .ok (numbers, path) ↔ ∃ added removed,
      splitOn '\t' header = [added, removed, path] ∧ parseCounts added removed = .ok numbers := by
  rw [parseHeader]
  split
  · next added removed pathRaw hsplit =>
      simp only [bind_eq_ok_iff, pure_eq_ok, Except.ok.injEq, Prod.mk.injEq]
      constructor
      · rintro ⟨numbers', hcounts, rfl, rfl⟩
        exact ⟨added, removed, hsplit, hcounts⟩
      · rintro ⟨added', removed', hsplit', hcounts⟩
        rw [hsplit] at hsplit'
        obtain ⟨rfl, rfl, rfl⟩ : added = added' ∧ removed = removed' ∧ pathRaw = path := by
          simpa using hsplit'
        exact ⟨numbers, hcounts, rfl, rfl⟩
  · next hsplit =>
      constructor
      · intro h
        cases h
      · rintro ⟨added, removed, h, -⟩
        exact absurd h (hsplit added removed path)

theorem parseFields_of_reads {w : WrittenRecord} {entry : NumstatEntry} (h : Reads w entry)
    {rest : List String} {entries : List NumstatEntry} (hrest : parseFields rest = .ok entries) :
    parseFields (w.fields ++ rest) = .ok (entry :: entries) := by
  obtain ⟨numbers, hcounts, htabs, rfl⟩ := h
  have hheader := parseHeader_eq_ok_iff.mpr
    ⟨w.added, w.removed, splitOn_tab_iff.mpr ⟨rfl, htabs⟩, hcounts⟩
  rw [WrittenRecord.fields, List.cons_append, parseFields, hheader, ok_bind]
  cases w.paths with
  | single path =>
      simp [RecordPaths.header, RecordPaths.more, path.ne_empty, hrest, entryOf]
  | rename oldPath newPath =>
      simp [RecordPaths.header, RecordPaths.more, oldPath.ne_empty, newPath.ne_empty, hrest,
        entryOf]

/-- What the loop has read starts with a record. -/
theorem exists_reads {header : String} {rest : List String} {entries : List NumstatEntry}
    (hfree : ∀ field ∈ header :: rest, '\x00' ∉ field.toList)
    (h : parseFields (header :: rest) = .ok entries) : ∃ w entry rest' entries',
      Reads w entry ∧ header :: rest = w.fields ++ rest' ∧ entries = entry :: entries' ∧
        parseFields rest' = .ok entries' := by
  rw [parseFields] at h
  obtain ⟨⟨numbers, pathRaw⟩, hheader, hbody⟩ := bind_eq_ok_iff.mp h
  clear h
  obtain ⟨added, removed, hsplit, hcounts⟩ := parseHeader_eq_ok_iff.mp hheader
  obtain ⟨rfl, htabs⟩ := splitOn_tab_iff.mp hsplit
  obtain ⟨hheaderFree, hrestFree⟩ := List.forall_mem_cons.mp hfree
  by_cases hpath : pathRaw = ""
  · subst hpath
    simp only [if_true] at hbody
    cases rest with
    | nil => cases hbody
    | cons oldPath rest =>
        cases rest with
        | nil => cases hbody
        | cons newPath rest =>
            obtain ⟨hold, hnewFree⟩ := List.forall_mem_cons.mp hrestFree
            have hnew := hnewFree newPath List.mem_cons_self
            obtain ⟨hne, hentries⟩ := ite_error_eq_ok_iff.mp hbody
            obtain ⟨entries', hrest, hentries⟩ := bind_eq_ok_iff.mp hentries
            obtain ⟨hne, hne'⟩ := not_or.mp hne
            let paths := RecordPaths.rename ⟨oldPath, hne, hold⟩ ⟨newPath, hne', hnew⟩
            exact ⟨⟨added, removed, paths⟩, entryOf numbers paths, rest, entries',
              ⟨numbers, hcounts, htabs, rfl⟩, rfl, (Except.ok.inj hentries).symm, hrest⟩
  · simp only [if_neg hpath] at hbody
    obtain ⟨entries', hrest, hentries⟩ := bind_eq_ok_iff.mp hbody
    have hpathFree : '\x00' ∉ pathRaw.toList :=
      fun hmem => hheaderFree (by simp [hmem])
    let paths := RecordPaths.single ⟨pathRaw, hpath, hpathFree⟩
    exact ⟨⟨added, removed, paths⟩, entryOf numbers paths, rest, entries',
      ⟨numbers, hcounts, htabs, rfl⟩, rfl, (Except.ok.inj hentries).symm, hrest⟩

/-! ## Whole texts -/

/-- The loop reads records one after the other, and nothing else. -/
theorem parseFields_eq_ok_iff {fields : List String} {entries : List NumstatEntry}
    (hfree : ∀ field ∈ fields, '\x00' ∉ field.toList) :
    parseFields fields = .ok entries ↔
      ∃ ws, List.Forall₂ Reads ws entries ∧ ws.flatMap WrittenRecord.fields = fields := by
  constructor
  · intro h
    induction hlength : fields.length using Nat.strong_induction_on generalizing fields entries with
    | _ length ih =>
        cases fields with
        | nil => exact ⟨[], by cases h; exact .nil, rfl⟩
        | cons header rest =>
            obtain ⟨w, entry, rest', entries', hreads, hfields, rfl, hrest⟩ := exists_reads hfree h
            have hshorter : rest'.length < length := by
              rw [← hlength, hfields, List.length_append, WrittenRecord.fields, List.length_cons]
              omega
            have hrestFree : ∀ field ∈ rest', '\x00' ∉ field.toList :=
              fun field hfield => hfree field (hfields ▸ List.mem_append_right _ hfield)
            obtain ⟨ws, hws, rfl⟩ := ih rest'.length hshorter hrestFree hrest rfl
            exact ⟨w :: ws, .cons hreads hws, by rw [hfields, List.flatMap_cons]⟩
  · rintro ⟨ws, hws, rfl⟩
    clear hfree
    induction hws with
    | nil => rfl
    | cons hreads _ ih => exact parseFields_of_reads hreads ih

/-- The text holds these records, the last separator being optional. -/
def IsText (ws : List WrittenRecord) (stdout : String) : Prop :=
  writeRecords ws = stdout.toList ∨ writeRecords ws = stdout.toList ++ ['\x00']

theorem parseNumstat_eq (stdout : String) :
    parseNumstat stdout = parseFields (numstatFields stdout) := by
  rw [parseNumstat]
  split
  · next h => rw [h]; rfl
  · rfl

theorem numstatFields_of_isText {ws : List WrittenRecord} {stdout : String}
    (hws : ∀ w ∈ ws, w.CountsPlain) (h : IsText ws stdout) :
    numstatFields stdout = ws.flatMap WrittenRecord.fields :=
  numstatFields_eq (fun _ hfield => ne_of_mem_flatMap hfield) (nul_free_flatMap hws) h

/-- The fields of a text, written again. -/
theorem frame_numstatFields (stdout : String) :
    (Framing.frame '\x00' ((numstatFields stdout).map String.toList) = stdout.toList ∨
      Framing.frame '\x00' ((numstatFields stdout).map String.toList) =
        stdout.toList ++ ['\x00']) ∧
      ∀ field ∈ numstatFields stdout, '\x00' ∉ field.toList := by
  obtain ⟨hframe, hfree⟩ := (splitOn_eq_iff '\x00' stdout _).mp rfl
  rw [numstatFields]
  split
  · next hlast =>
      obtain ⟨front, hfront⟩ := List.getLast?_eq_some_iff.mp hlast
      rw [hfront] at hframe hfree ⊢
      rw [List.dropLast_concat]
      have hcancel : Framing.frame '\x00' (front.map String.toList) ++ ['\x00'] =
          stdout.toList ++ ['\x00'] := by
        rw [← hframe]
        simp [Framing.frame]
      exact ⟨.inl (List.append_left_injective _ hcancel), (List.forall_mem_append.mp hfree).1⟩
  · exact ⟨.inr hframe, hfree⟩

theorem countsPlain_of_reads {w : WrittenRecord} {entry : NumstatEntry} (h : Reads w entry)
    (hfree : ∀ field ∈ w.fields, '\x00' ∉ field.toList) : w.CountsPlain := by
  obtain ⟨numbers, -, htabs, -⟩ := h
  have hheader := hfree _ List.mem_cons_self
  simp only [String.toList_append, List.mem_append, not_or] at hheader
  exact ⟨⟨htabs _ (by simp), htabs _ (by simp)⟩, hheader.1.1.1.1, hheader.1.1.2⟩

theorem parseNumstat_eq_ok_iff {stdout : String} {entries : List NumstatEntry} :
    parseNumstat stdout = .ok entries ↔ ∃ ws, List.Forall₂ Reads ws entries ∧
      (∀ w ∈ ws, w.CountsPlain) ∧ IsText ws stdout := by
  obtain ⟨hframe, hfree⟩ := frame_numstatFields stdout
  rw [parseNumstat_eq, parseFields_eq_ok_iff hfree]
  constructor
  · rintro ⟨ws, hws, hfields⟩
    refine ⟨ws, hws, ?_, ?_⟩
    · intro w hw
      obtain ⟨entry, -, hreads⟩ := exists_of_mem_forall₂ hws.flip hw
      exact countsPlain_of_reads hreads fun field hfield =>
        hfree field (hfields ▸ List.mem_flatMap.mpr ⟨w, hw, hfield⟩)
    · rw [IsText, writeRecords, hfields]
      exact hframe
  · rintro ⟨ws, hws, hplain, htext⟩
    exact ⟨ws, hws, (numstatFields_of_isText hplain htext).symm⟩

/-- A text holds one list of records. -/
theorem isText_inj {ws vs : List WrittenRecord} {stdout : String}
    (hws : ∀ w ∈ ws, w.CountsPlain) (hvs : ∀ v ∈ vs, v.CountsPlain) (h : IsText ws stdout)
    (h' : IsText vs stdout) : ws = vs :=
  fields_inj hws hvs
    ((numstatFields_of_isText hws h).symm.trans (numstatFields_of_isText hvs h'))

end SemanticCi.GitDiff
