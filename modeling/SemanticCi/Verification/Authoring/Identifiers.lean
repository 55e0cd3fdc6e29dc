import SemanticCi.Model.AuthoringCanonical
import SemanticCi.Model.CodeStateDelta
import SemanticCi.Python.FilePath
import SemanticCi.Verification.Extraction.DottedNames
import SemanticCi.Verification.Extraction.Paths

/-! The identifiers that the authoring layer admits. -/

namespace SemanticCi.Authoring

open SemanticCi.Python SemanticCi.StateSchema SemanticCi.Extraction
  SemanticCi.Delta

variable {u : Unicode}

/-! ## What is admitted -/

/-- The names of tests: of a function, or of a method in a class. -/
inductive TestFunction (P : String → Prop) : String → Prop where
  | function {test : String} (htest : P test) (hname : "test_".toList <+: test.toList) :
      TestFunction P test
  | method {cls test : String} (hcls : P cls) (htest : P test)
      (hclass : "Test".toList <+: cls.toList) (hname : "test_".toList <+: test.toList) :
      TestFunction P (cls ++ "::" ++ test)

theorem TestFunction.mono {P Q : String → Prop} (hPQ : ∀ name, P name → Q name) {name : String}
    (h : TestFunction P name) : TestFunction Q name := by
  cases h with
  | function htest hname => exact .function (hPQ _ htest) hname
  | method hcls htest hclass hname => exact .method (hPQ _ hcls) (hPQ _ htest) hclass hname

abbrev Identifier (u : Unicode) (name : String) : Prop := u.isidentifier name

/-- The paths of tests, as they are written. -/
structure CanonicalPath (path : List Char) : Prop where
  spaces : ' ' ∉ path
  backslashes : '\\' ∉ path
  python : ".py".toList <:+ path
  segments : ∀ seg ∈ path.splitOn '/', seg ≠ [] ∧ seg ≠ ['.'] ∧ seg ≠ ['.', '.']

theorem CanonicalPath.relative {path : List Char} (h : CanonicalPath path) :
    ¬ "/".toList.isPrefixOf path := by
  intro hslash
  obtain ⟨rest, rfl⟩ := List.isPrefixOf_iff_prefix.mp hslash
  have hfirst : [] ∈ ("/".toList ++ rest).splitOn '/' := by
    simp [Framing.splitOn_cons]
  exact (h.segments [] hfirst).1 rfl

theorem colon_notMem {text : String} (h : u.isidentifier text) : ':' ∉ text.toList :=
  Unicode.notMem_of_isidentifier h (by decide)

theorem dot_notMem {text : String} (h : u.isidentifier text) : '.' ∉ text.toList :=
  Unicode.notMem_of_isidentifier h (by decide)

theorem toList_method (cls test : String) :
    (cls ++ "::" ++ test).toList = cls.toList ++ ':' :: ':' :: test.toList := by
  have hcolons : ("::" : String).toList = [':', ':'] := rfl
  simp [String.toList_append, hcolons]

theorem testFunction_iff (name : String) :
    TestFunction (Identifier u) name ↔
      (∀ part ∈ (splitColons name.toList).map String.ofList, u.isidentifier part) ∧
        isTestFunction ((splitColons name.toList).map String.ofList) := by
  constructor
  · intro h
    cases h with
    | function htest hname =>
      rw [splitColons_of_notMem (colon_notMem htest)]
      simpa [isTestFunction, List.isPrefixOf_iff_prefix] using ⟨htest, hname⟩
    | @method cls test hcls htest hclass hname =>
      rw [toList_method, splitColons_append (colon_notMem hcls),
        splitColons_of_notMem (colon_notMem htest)]
      simpa [isTestFunction, List.isPrefixOf_iff_prefix] using ⟨⟨hcls, htest⟩, hclass, hname⟩
  · rintro ⟨hparts, htest⟩
    have htext := intercalate_splitColons name.toList
    generalize splitColons name.toList = pieces at hparts htest htext
    cases pieces with
    | nil => simp [isTestFunction] at htest
    | cons first rest =>
      cases rest with
      | nil =>
        rw [List.intercalate_singleton] at htext
        subst htext
        rw [List.map_singleton, String.ofList_toList] at hparts htest
        exact .function (hparts name List.mem_cons_self)
          (List.isPrefixOf_iff_prefix.mp htest)
      | cons second rest =>
        cases rest with
        | nil =>
          have hname : name = String.ofList first ++ "::" ++ String.ofList second := by
            rw [← String.toList_inj, toList_method, ← htext]
            simp
          obtain ⟨hclass, hprefix⟩ := (Bool.and_eq_true _ _).mp htest
          rw [hname]
          exact .method (hparts _ (by simp)) (hparts _ (by simp))
            (List.isPrefixOf_iff_prefix.mp hclass) (List.isPrefixOf_iff_prefix.mp hprefix)
        | cons third rest => simp [isTestFunction] at htest

theorem TestFunction.ne_nil {name : String} (h : TestFunction (Identifier u) name) :
    name.toList ≠ [] := by
  cases h with
  | function htest _ => simpa using Unicode.ne_empty_of_isidentifier htest
  | method => simp

/-- Only colons and the characters of identifiers stand in the name of a test. -/
theorem TestFunction.notMem {name : String} (h : TestFunction (Identifier u) name) {c : Char}
    (hc : c.toNat < 128 ∧ c.isAlphanum = false ∧ c ≠ '_') (hcolon : c ≠ ':') :
    c ∉ name.toList := by
  cases h with
  | function htest _ => exact Unicode.notMem_of_isidentifier htest hc
  | method hcls htest _ _ =>
    have hleft := Unicode.notMem_of_isidentifier hcls hc
    have hright := Unicode.notMem_of_isidentifier htest hc
    simp [hleft, hright, hcolon]

theorem isCanonicalTestId_iff (value : String) :
    isCanonicalTestId u value ↔ ∃ path name, partitionColons value.toList = some (path, name) ∧
      CanonicalPath path ∧ TestFunction (Identifier u) (String.ofList name) := by
  rw [isCanonicalTestId]
  cases hpart : partitionColons value.toList with
  | none => simp
  | some parts =>
    obtain ⟨path, name⟩ := parts
    have hname : (∀ part ∈ (splitColons name).map String.ofList, u.isidentifier part) ∧
        isTestFunction ((splitColons name).map String.ofList) ↔
          TestFunction (Identifier u) (String.ofList name) := by
      rw [testFunction_iff, String.toList_ofList]
    have hsegments : ¬ ((path.splitOn '/').any fun seg =>
        decide (seg ∈ ["".toList, ".".toList, "..".toList])) = true ↔
          ∀ seg ∈ path.splitOn '/', seg ≠ [] ∧ seg ≠ ['.'] ∧ seg ≠ ['.', '.'] := by
      simp
    simp only [Bool.if_false_left, Bool.and_eq_true, Bool.not_eq_true', decide_eq_false_iff_not,
      not_or, List.all_eq_true, decide_not, Bool.not_not, decide_eq_true_eq, hsegments, hname]
    constructor
    · rintro ⟨⟨hpath, hne, hspace, hspaces⟩, ⟨hslash, -, hpython⟩, hsegs, htest⟩
      exact ⟨path, name, rfl, ⟨hspace, hslash, List.isSuffixOf_iff_suffix.mp (not_not.mp hpython),
        hsegs⟩, htest⟩
    · rintro ⟨path', name', heq, hpath, htest⟩
      obtain ⟨rfl, rfl⟩ := Prod.mk.inj (Option.some.inj heq)
      have hne : path ≠ [] := by
        rintro rfl
        simpa using hpath.python
      have hspaces : ' ' ∉ name := by
        simpa using htest.notMem (c := ' ') (by decide) (by decide)
      refine ⟨⟨hne, by simpa using htest.ne_nil, hpath.spaces, hspaces⟩, ⟨hpath.backslashes,
        hpath.relative, ?_⟩, hpath.segments, htest⟩
      exact not_not.mpr (List.isSuffixOf_iff_suffix.mpr hpath.python)

/-! ## Paths of files -/

/-- The path of a Python file below a root. -/
structure RelativePython (path : PurePath) : Prop where
  parts : ∀ part ∈ path, ValidPart part ∧ part ≠ "." ∧ part ≠ ".." ∧ '\x00' ∉ part.toList
  python : isPythonName path.name

namespace RelativePython

variable {path : PurePath}

theorem validParts (h : RelativePython path) : ∀ part ∈ path, ValidPart part :=
  fun part hpart => (h.parts part hpart).1

theorem ne_nil (h : RelativePython path) : path ≠ [] := path_ne_nil_of_python h.python

end RelativePython

theorem python_suffix_text {path : PurePath} (h : isPythonName path.name) :
    ".py".toList <:+ path.text.toList := by
  have hne := path_ne_nil_of_python h
  obtain ⟨front, name, rfl⟩ : ∃ front name, path = front ++ [name] :=
    ⟨_, _, (List.dropLast_append_getLast hne).symm⟩
  rw [PurePath.name, List.getLastD_concat, isPythonName, List.isSuffixOf_iff_suffix] at h
  rw [PurePath.text, if_neg hne]
  apply h.trans
  by_cases hfront : front = []
  · simp [hfront]
  · rw [String.intercalate_append_of_ne_nil hfront (by simp)]
    exact ⟨("/".intercalate front ++ "/").toList, by simp⟩

theorem canonicalPath_iff {path : PurePath} (h : RelativePython path) :
    CanonicalPath path.text.toList ↔ ' ' ∉ path.text.toList ∧ '\\' ∉ path.text.toList := by
  constructor
  · intro hpath
    exact ⟨hpath.spaces, hpath.backslashes⟩
  · rintro ⟨hspaces, hbackslashes⟩
    refine ⟨hspaces, hbackslashes, python_suffix_text h.python, ?_⟩
    intro seg hseg
    rw [splitOn_text h.validParts h.ne_nil] at hseg
    obtain ⟨part, hpart, rfl⟩ := List.mem_map.mp hseg
    obtain ⟨⟨hne, -⟩, hdot, hdots, -⟩ := h.parts part hpart
    exact ⟨by simpa using hne, fun heq => hdot (String.toList_inj.mp heq),
      fun heq => hdots (String.toList_inj.mp heq)⟩

/-- What ends a text without the separator ends what stands behind the separator. -/
theorem suffix_of_notMem {s front back : List Char} (sep : Char) (hs : sep ∉ s)
    (h : s <:+ front ++ sep :: back) : s <:+ back := by
  rcases List.suffix_or_suffix_of_suffix h (List.suffix_append front (sep :: back)) with
    hsuffix | hsuffix
  · rcases List.suffix_cons_iff.mp hsuffix with rfl | hback
    · exact absurd List.mem_cons_self hs
    · exact hback
  · exact absurd (hsuffix.subset List.mem_cons_self) hs

/-- The parts of an admitted path. -/
theorem exists_relativePython {path : List Char} (h : CanonicalPath path)
    (hnul : '\x00' ∉ path) :
    ∃ parts, RelativePython parts ∧ parts.text = String.ofList path := by
  have hne : path.splitOn '/' ≠ [] := List.splitOn_ne_nil _ _
  have hslashes : ∀ seg ∈ path.splitOn '/', '/' ∉ seg := (Framing.frame_splitOn path).2
  have hjoin : ['/'].intercalate (path.splitOn '/') = path := List.intercalate_splitOn '/'
  have hsegments := h.segments
  generalize path.splitOn '/' = segs at hne hslashes hjoin hsegments
  have htext : PurePath.text (segs.map String.ofList) = String.ofList path := by
    have hparts : segs.map String.ofList ≠ [] := by simpa using hne
    rw [PurePath.text, if_neg hparts, ← String.toList_inj, FilePath.toList_intercalate,
      List.map_map]
    simpa [Function.comp_def] using hjoin
  have hmem {seg : List Char} (hseg : seg ∈ segs) {c : Char} (hc : c ∈ seg) : c ∈ path := by
    rw [← hjoin]
    exact mem_intercalate_of_mem hseg hc
  refine ⟨segs.map String.ofList, ⟨?_, ?_⟩, htext⟩
  · intro part hpart
    obtain ⟨seg, hseg, rfl⟩ := List.mem_map.mp hpart
    obtain ⟨hempty, hdot, hdots⟩ := hsegments seg hseg
    refine ⟨⟨by simpa using hempty, by simpa using hslashes seg hseg⟩, ?_, ?_, ?_⟩
    · exact fun heq => hdot (by rw [← String.toList_ofList (l := seg), heq]; rfl)
    · exact fun heq => hdots (by rw [← String.toList_ofList (l := seg), heq]; rfl)
    · rw [String.toList_ofList]
      exact fun hnulseg => hnul (hmem hseg hnulseg)
  · obtain ⟨front, last, rfl⟩ : ∃ front last, segs = front ++ [last] :=
      ⟨_, _, (List.dropLast_append_getLast hne).symm⟩
    have hname : PurePath.name ((front ++ [last]).map String.ofList) = String.ofList last := by
      simp [PurePath.name]
    have hlast : (String.ofList last).toList = last := String.toList_ofList
    rw [hname, isPythonName, List.isSuffixOf_iff_suffix, hlast]
    have hpython := h.python
    by_cases hfront : front = []
    · rw [← hjoin, hfront, List.nil_append, List.intercalate_singleton] at hpython
      exact hpython
    · have hfront : front.map String.ofList ≠ [] := by simpa using hfront
      have hpath : path =
          ("/".intercalate (front.map String.ofList)).toList ++ '/' :: last := by
        rw [← String.toList_ofList (l := path), ← htext, List.map_append, List.map_singleton,
          PurePath.text, if_neg (by simp), String.intercalate_append_of_ne_nil hfront (by simp)]
        simp
      rw [hpath] at hpython
      exact suffix_of_notMem '/' (by decide) hpython

/-! ## Test ids -/

/-- The id of a test is admitted exactly when its path holds none of the three. -/
theorem isCanonicalTestId_testCaseId {path : PurePath} (h : RelativePython path)
    {entry : TestSurfaceEntry} (hfile : entry.testFile = path.text)
    (htest : TestFunction (Identifier u) entry.testFunction) :
    isCanonicalTestId u (testCaseId entry) ↔
      ' ' ∉ path.text.toList ∧ '\\' ∉ path.text.toList ∧ ¬ hasSubstring "::" path.text := by
  have htext : (testCaseId entry).toList =
      path.text.toList ++ ':' :: ':' :: entry.testFunction.toList := by
    rw [testCaseId, hfile, toList_method]
  rw [isCanonicalTestId_iff, htext, hasSubstring_iff]
  have hcolons : ("::" : String).toList = [':', ':'] := rfl
  rw [hcolons, ← partitionColons_eq_none_iff]
  have hpython := python_suffix_text h.python
  cases hpart : partitionColons path.text.toList with
  | none =>
    have hlast : path.text.toList.getLast? ≠ some ':' := by
      obtain ⟨front, hfront⟩ := hpython
      rw [← hfront]
      simp
    rw [partitionColons_of_none hpart hlast]
    constructor
    · rintro ⟨front, back, heq, hpath, -⟩
      obtain ⟨rfl, rfl⟩ := Prod.mk.inj (Option.some.inj heq)
      obtain ⟨hspaces, hbackslashes⟩ := (canonicalPath_iff h).mp hpath
      exact ⟨hspaces, hbackslashes, rfl⟩
    · rintro ⟨hspaces, hbackslashes, -⟩
      exact ⟨_, _, rfl, (canonicalPath_iff h).mpr ⟨hspaces, hbackslashes⟩,
        by rwa [String.ofList_toList]⟩
  | some parts =>
    obtain ⟨front, back⟩ := parts
    rw [partitionColons_append _ hpart]
    constructor
    · rintro ⟨first, rest, heq, -, hname⟩
      obtain ⟨rfl, rfl⟩ := Prod.mk.inj (Option.some.inj heq)
      rw [append_of_partitionColons hpart, List.append_cons] at hpython
      have hback := suffix_of_notMem ':' (by decide) hpython
      have hdot := hback.subset (show '.' ∈ ".py".toList by decide)
      have hnone := hname.notMem (c := '.') (by decide) (by decide)
      simp [hdot] at hnone
    · rintro ⟨-, -, hnone⟩
      simp at hnone

/-- The last dot of an id is the dot of `.py`. -/
theorem testCaseId_inj {a b : TestSurfaceEntry} (ha : ".py".toList <:+ a.testFile.toList)
    (hb : ".py".toList <:+ b.testFile.toList) (hatest : TestFunction (Identifier u) a.testFunction)
    (hbtest : TestFunction (Identifier u) b.testFunction) (h : testCaseId a = testCaseId b) :
    a.testFile = b.testFile ∧ a.testFunction = b.testFunction := by
  have hback {entry : TestSurfaceEntry} (htest : TestFunction (Identifier u) entry.testFunction) :
      '.' ∉ ('p' :: 'y' :: ':' :: ':' :: entry.testFunction.toList).reverse := by
    have hnone := htest.notMem (c := '.') (by decide) (by decide)
    simp [hnone]
  have hcut {entry : TestSurfaceEntry} {front : List Char}
      (hfront : front ++ ".py".toList = entry.testFile.toList) :
      (testCaseId entry).toList.reverse =
        ('p' :: 'y' :: ':' :: ':' :: entry.testFunction.toList).reverse ++
          '.' :: front.reverse := by
    rw [testCaseId, toList_method, ← hfront]
    simp
  obtain ⟨afront, hafront⟩ := ha
  obtain ⟨bfront, hbfront⟩ := hb
  have hsame : (testCaseId a).toList.reverse = (testCaseId b).toList.reverse := by rw [h]
  rw [hcut hafront, hcut hbfront] at hsame
  obtain ⟨hbacks, hfronts⟩ := Framing.append_sep_inj (hback hatest) (hback hbtest) hsame
  have hfile : a.testFile.toList = b.testFile.toList := by
    rw [← hafront, ← hbfront, List.reverse_injective hfronts]
  have hname := List.reverse_injective hbacks
  simp only [List.cons.injEq, true_and] at hname
  exact ⟨String.toList_inj.mp hfile, String.toList_inj.mp hname⟩

/-! ## FQNs -/

theorem isCanonicalFqn_iff (value : String) :
    isCanonicalFqn u value ↔
      '.' ∈ value.toList ∧ ∀ part ∈ splitDots value, u.isidentifier part := by
  have hparts : (splitOn '.' value).all u.isidentifier ↔
      ∀ part ∈ splitDots value, u.isidentifier part :=
    List.all_eq_true
  simp only [isCanonicalFqn, Bool.if_false_left, Bool.and_eq_true, Bool.not_eq_true',
    decide_eq_false_iff_not, not_or, not_not, hparts]
  constructor
  · rintro ⟨⟨-, -, hdot⟩, -, hall⟩
    exact ⟨hdot, hall⟩
  · rintro ⟨hdot, hall⟩
    have hempty (front back : List Char) (hvalue : value.toList = front ++ '.' :: back) :
        front ≠ [] ∧ back ≠ [] := by
      have hcut : splitDots value = (front.splitOn '.' ++ back.splitOn '.').map String.ofList := by
        rw [splitDots, hvalue, List.splitOn_append_cons_self]
      constructor
      · rintro rfl
        exact Unicode.ne_empty_of_isidentifier (hall "" (by rw [hcut]; simp)) rfl
      · rintro rfl
        exact Unicode.ne_empty_of_isidentifier (hall "" (by rw [hcut]; simp)) rfl
    have hcolon : ':' ∉ value.toList := by
      have hjoin : ['.'].intercalate (value.toList.splitOn '.') = value.toList :=
        List.intercalate_splitOn '.'
      rw [← hjoin]
      intro hmem
      rcases mem_of_mem_intercalate hmem with hsep | ⟨piece, hpiece, hmem⟩
      · exact absurd hsep (by decide)
      · have hpart := hall (String.ofList piece) (List.mem_map_of_mem hpiece)
        exact colon_notMem hpart (by simpa using hmem)
    refine ⟨⟨?_, ?_, hdot⟩, ⟨?_, ?_⟩, hall⟩
    · rintro rfl
      simp at hdot
    · rw [hasSubstring_iff]
      exact fun hpart => hcolon (hpart.subset List.mem_cons_self)
    · intro hprefix
      obtain ⟨back, hback⟩ := List.isPrefixOf_iff_prefix.mp hprefix
      exact (hempty [] back hback.symm).1 rfl
    · intro hsuffix
      obtain ⟨front, hfront⟩ := List.isSuffixOf_iff_suffix.mp hsuffix
      exact (hempty front [] hfront.symm).2 rfl

end SemanticCi.Authoring
