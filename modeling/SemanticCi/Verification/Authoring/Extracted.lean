import SemanticCi.Model.ApiExtractor
import SemanticCi.Model.TestSurfaceExtractor
import SemanticCi.Verification.Authoring.Identifiers
import SemanticCi.Verification.Extraction.ModuleScope
import SemanticCi.Verification.Extraction.Sites

/-! The identifiers that the extractors form against those that the authoring layer admits. -/

namespace SemanticCi.Authoring

open SemanticCi.Python SemanticCi.Python.Ast SemanticCi.StateSchema SemanticCi.Extraction
  SemanticCi.Delta OrderedDict

variable {u : Unicode}

/-! ## Extracted tests -/

/-- The names that a node of a tree spells. -/
def spelledNames : Node → List String
  | .functionDef _ _ name _ _ _ _ _ => [name]
  | .classDef _ name _ _ _ _ _ => [name]
  | .name _ id => [id]
  | _ => []

def Spelled (tree : Node) (name : String) : Prop := ∃ n ∈ preorder tree, name ∈ spelledNames n

/-- A tree as the parser builds it: names are identifiers in their normal form. -/
def Parsed (u : Unicode) (tree : Node) : Prop :=
  ∀ name, Spelled tree name → u.isidentifier name ∧ u.nfkc name = name

theorem mem_preorder_of_mem_children {tree n c : Node} (hn : n ∈ preorder tree)
    (hc : c ∈ n.children) : c ∈ preorder tree := by
  rw [preorder_eq] at hn ⊢
  apply List.mem_cons_of_mem
  apply List.mem_flatMap.mpr
  rcases List.mem_cons.mp hn with rfl | hbelow
  · refine ⟨c, hc, ?_⟩
    rw [preorder_eq]
    exact List.mem_cons_self
  · obtain ⟨child, hchild, hmem⟩ := List.mem_flatMap.mp hbelow
    have := Node.sizeOf_lt_of_mem_children hchild
    exact ⟨child, hchild, mem_preorder_of_mem_children hmem hc⟩
termination_by sizeOf tree

section Extracted

variable {tree : Node} {file : String} {entry : TestSurfaceEntry}

theorem exists_definition (h : entry ∈ extractPythonTestSurface file tree) :
    ∃ n ∈ preorder tree, entry ∈ definitionTests file n := by
  have hstable := (List.mem_insertionSort _).mp h
  have hentry := (values_indexBy_sublist _ _).subset hstable
  obtain ⟨n, hn, hmem⟩ := List.mem_flatMap.mp hentry
  rw [iterModuleScopeDefinitions, scanModuleScope_eq] at hn
  obtain ⟨m, hm, hhere⟩ := List.mem_flatMap.mp hn
  have htree := (scopeNodes_sublist tree).subset hm
  refine ⟨n, ?_, hmem⟩
  split at hhere
  · rwa [List.mem_singleton.mp hhere]
  · rwa [List.mem_singleton.mp hhere]
  · cases hhere

/-- A test below an owner is a function whose name begins as those of tests do. -/
theorem mem_testEntries {owner : String} {n : Node} (h : entry ∈ testEntries file owner n) :
    entry.testFile = file ∧ ∃ test ∈ spelledNames n, entry.testFunction = owner ++ test ∧
      "test_".toList <+: test.toList := by
  cases n with
  | functionDef pos isAsync name args body decoratorList returns typeParams =>
    rw [testEntries] at h
    by_cases hname : "test_".toList.isPrefixOf name.toList
    · rw [if_pos hname] at h
      obtain rfl := List.mem_singleton.mp h
      exact ⟨rfl, name, List.mem_singleton_self name, rfl, List.isPrefixOf_iff_prefix.mp hname⟩
    · rw [if_neg hname] at h
      cases h
  | _ => cases h

/-- The name of an extracted test is made of names in the tree. -/
theorem spelled_of_extracted (h : entry ∈ extractPythonTestSurface file tree) :
    entry.testFile = file ∧ TestFunction (Spelled tree) entry.testFunction := by
  obtain ⟨n, hn, hentry⟩ := exists_definition h
  have htop (hmem : entry ∈ testEntries file "" n) :
      entry.testFile = file ∧ TestFunction (Spelled tree) entry.testFunction := by
    obtain ⟨hfile, test, htest, hname, hprefix⟩ := mem_testEntries hmem
    rw [hname, String.empty_append]
    exact ⟨hfile, .function ⟨n, hn, htest⟩ hprefix⟩
  cases n with
  | classDef pos cls bases keywords body decoratorList typeParams =>
    rw [definitionTests] at hentry
    by_cases hclass : "Test".toList.isPrefixOf cls.toList
    · rw [if_pos hclass] at hentry
      obtain ⟨m, hm, hmem⟩ := List.mem_flatMap.mp hentry
      obtain ⟨hfile, test, htest, hname, hprefix⟩ := mem_testEntries hmem
      have hchild : m ∈ preorder tree :=
        mem_preorder_of_mem_children hn (by simp [Node.children, hm])
      rw [hname]
      exact ⟨hfile, .method ⟨_, hn, List.mem_singleton_self cls⟩ ⟨m, hchild, htest⟩
        (List.isPrefixOf_iff_prefix.mp hclass) hprefix⟩
    · rw [if_neg hclass] at hentry
      cases hentry
  | _ => exact htop hentry

theorem testFunction_of_extracted (hparsed : Parsed u tree)
    (h : entry ∈ extractPythonTestSurface file tree) :
    entry.testFile = file ∧ TestFunction (Identifier u) entry.testFunction :=
  (spelled_of_extracted h).imp_right (.mono fun name hname => (hparsed name hname).1)

end Extracted

/-! ## Different tests -/

theorem nodup_keys_stableTestEntries (entries : List TestSurfaceEntry) :
    ((stableTestEntries entries).map testSurfaceKey).Nodup := by
  have hperm := (List.perm_insertionSort (fun a b => testSurfaceKey a ≤ testSurfaceKey b)
    (indexBy testSurfaceKey entries).values).map testSurfaceKey
  exact hperm.nodup_iff.mpr (nodup_values_indexBy testSurfaceKey entries)

theorem exists_mem_stableTestEntries {entries : List TestSurfaceEntry} {entry : TestSurfaceEntry}
    (h : entry ∈ entries) :
    ∃ first ∈ stableTestEntries entries, testCaseId first = testCaseId entry := by
  obtain ⟨first, hfirst, hkey⟩ := exists_mem_values_indexBy testSurfaceKey h
  obtain ⟨hfile, hname⟩ := Prod.mk.inj (toLex.injective hkey)
  refine ⟨first, (List.mem_insertionSort _).mpr hfirst, ?_⟩
  rw [testCaseId, testCaseId, hfile, hname]

/-- Entries with different keys have different ids. -/
theorem eq_of_testCaseId_eq {entries : List TestSurfaceEntry}
    (hkeys : (entries.map testSurfaceKey).Nodup)
    (htests : ∀ entry ∈ entries, ".py".toList <:+ entry.testFile.toList ∧
      TestFunction (Identifier u) entry.testFunction)
    {a b : TestSurfaceEntry} (ha : a ∈ entries) (hb : b ∈ entries)
    (h : testCaseId a = testCaseId b) : a = b := by
  obtain ⟨hafile, hatest⟩ := htests a ha
  obtain ⟨hbfile, hbtest⟩ := htests b hb
  obtain ⟨hfile, hname⟩ := testCaseId_inj hafile hbfile hatest hbtest h
  apply List.inj_on_of_nodup_map hkeys ha hb
  rw [testSurfaceKey, testSurfaceKey, hfile, hname]

/-- One file has one tree, and its tests have different ids from those of other files. -/
theorem eq_of_extracted {a b : SourceFile} (ha : RelativePython a.path)
    (hb : RelativePython b.path) (haparsed : Parsed u a.tree) (hbparsed : Parsed u b.tree)
    (htree : a.path = b.path → a.tree = b.tree) {x y : TestSurfaceEntry}
    (hx : x ∈ extractPythonTestSurface a.path.text a.tree)
    (hy : y ∈ extractPythonTestSurface b.path.text b.tree) (h : testCaseId x = testCaseId y) :
    x = y := by
  obtain ⟨hxfile, hxtest⟩ := testFunction_of_extracted haparsed hx
  obtain ⟨hyfile, hytest⟩ := testFunction_of_extracted hbparsed hy
  have hxsuffix : ".py".toList <:+ x.testFile.toList := hxfile ▸ python_suffix_text ha.python
  have hysuffix : ".py".toList <:+ y.testFile.toList := hyfile ▸ python_suffix_text hb.python
  obtain ⟨hfile, -⟩ := testCaseId_inj hxsuffix hysuffix hxtest hytest h
  rw [hxfile, hyfile] at hfile
  have hpath : a.path = b.path :=
    text_injective ha.validParts hb.validParts ha.ne_nil hb.ne_nil hfile
  rw [← hpath, ← htree hpath] at hy
  apply eq_of_testCaseId_eq (u := u) (nodup_keys_stableTestEntries _) ?_ hx hy h
  intro entry hentry
  obtain ⟨hsame, htest⟩ := testFunction_of_extracted haparsed hentry
  exact ⟨hsame ▸ python_suffix_text ha.python, htest⟩

/-- The ids of the tests of a whole extraction are different. -/
theorem nodup_testCaseIds {root : Root} {files : List SourceFile}
    (hfiles : ∀ file ∈ files, RelativePython file.path ∧ Parsed u file.tree) :
    ((extractPythonTestSurfaceFromPaths root files).map testCaseId).Nodup := by
  have hkeys : ((extractPythonTestSurfaceFromPaths root files).map testSurfaceKey).Nodup :=
    nodup_keys_stableTestEntries _
  apply (List.Nodup.of_map _ hkeys).map_on
  intro a ha b hb
  apply eq_of_testCaseId_eq (u := u) hkeys ?_ ha hb
  intro entry hentry
  have hvalue := (values_indexBy_sublist _ _).subset ((List.mem_insertionSort _).mp hentry)
  obtain ⟨file, hfile, hmem⟩ := List.mem_flatMap.mp hvalue
  have hgiven := List.mem_filter.mp ((mem_sortPaths _ _ _).mp hfile)
  obtain ⟨hpath, hparsed⟩ := hfiles file hgiven.1
  obtain ⟨hsame, htest⟩ := testFunction_of_extracted hparsed hmem
  exact ⟨hsame ▸ python_suffix_text hpath.python, htest⟩

/-! ## A test for every id -/

/-- `def name(): pass`. -/
def emptyTest (pos : Pos) (name : String) : Node :=
  .functionDef pos false name (.other "arguments" [] none []) [.other "Pass" [] (some pos) []] []
    none []

/-- A module with one function. -/
def functionModule (test : String) : Node := .module [emptyTest ⟨1, 0, 1⟩ test]

/-- A module with one class of one method. -/
def methodModule (cls test : String) : Node :=
  .module [.classDef ⟨1, 0, 2⟩ cls [] [] [emptyTest ⟨2, 4, 2⟩ test] [] []]

theorem parsed_functionModule {test : String} (h : u.isidentifier test ∧ u.nfkc test = test) :
    Parsed u (functionModule test) := by
  rintro name ⟨n, hn, hname⟩
  simp only [functionModule, emptyTest, preorder_eq, Node.children, List.flatMap_cons,
    List.flatMap_nil, List.append_nil, List.cons_append, List.nil_append, Option.toList_none,
    List.mem_cons, List.not_mem_nil, or_false] at hn
  rcases hn with rfl | rfl | rfl | rfl <;> simp_all [spelledNames]

theorem parsed_methodModule {cls test : String} (hcls : u.isidentifier cls ∧ u.nfkc cls = cls)
    (h : u.isidentifier test ∧ u.nfkc test = test) : Parsed u (methodModule cls test) := by
  rintro name ⟨n, hn, hname⟩
  simp only [methodModule, emptyTest, preorder_eq, Node.children, List.flatMap_cons,
    List.flatMap_nil, List.append_nil, List.cons_append, List.nil_append, Option.toList_none,
    List.mem_cons, List.not_mem_nil, or_false] at hn
  rcases hn with rfl | rfl | rfl | rfl | rfl <;> simp_all [spelledNames]

theorem exists_extracted {tree n : Node} {file : String} {entry : TestSurfaceEntry}
    (hn : n ∈ iterModuleScopeDefinitions (moduleBody tree)) (h : entry ∈ definitionTests file n) :
    ∃ first ∈ extractPythonTestSurface file tree, testCaseId first = testCaseId entry :=
  exists_mem_stableTestEntries (List.mem_flatMap.mpr ⟨n, hn, h⟩)

theorem exists_mem_testEntries (file owner : String) (pos : Pos) {test : String}
    (h : "test_".toList <+: test.toList) :
    ∃ entry ∈ testEntries file owner (emptyTest pos test),
      testCaseId entry = file ++ "::" ++ (owner ++ test) := by
  rw [emptyTest, testEntries, if_pos (List.isPrefixOf_iff_prefix.mpr h)]
  exact ⟨_, List.mem_singleton_self _, rfl⟩

theorem exists_function_test (file : String) {test : String} (h : "test_".toList <+: test.toList) :
    ∃ entry ∈ extractPythonTestSurface file (functionModule test),
      testCaseId entry = file ++ "::" ++ test := by
  obtain ⟨entry, hentry, hid⟩ := exists_mem_testEntries file "" ⟨1, 0, 1⟩ h
  have hscope : emptyTest ⟨1, 0, 1⟩ test ∈
      iterModuleScopeDefinitions (moduleBody (functionModule test)) :=
    (mem_scanModuleScope _ _ _).mpr
      ⟨_, ⟨_, List.mem_singleton_self _, .self _⟩, List.mem_singleton_self _⟩
  obtain ⟨first, hfirst, hsame⟩ := exists_extracted hscope hentry
  rw [hid, String.empty_append] at hsame
  exact ⟨first, hfirst, hsame⟩

/-- Every name of a test is the name of a test in some module. -/
theorem exists_module {name : String} (h : TestFunction (Identifier u) name)
    (hnormal : ∀ part ∈ splitColons name.toList, u.nfkc (String.ofList part) = String.ofList part)
    (file : String) : ∃ tree, Parsed u tree ∧ ∃ entry ∈ extractPythonTestSurface file tree,
      testCaseId entry = file ++ "::" ++ name := by
  cases h with
  | function htest hname =>
    rw [splitColons_of_notMem (colon_notMem htest)] at hnormal
    have hnfkc : u.nfkc name = name := by simpa using hnormal
    exact ⟨functionModule name, parsed_functionModule ⟨htest, hnfkc⟩,
      exists_function_test file hname⟩
  | @method cls test hcls htest hclass hname =>
    rw [toList_method, splitColons_append (colon_notMem hcls),
      splitColons_of_notMem (colon_notMem htest)] at hnormal
    have hnfkc : u.nfkc cls = cls ∧ u.nfkc test = test := by simpa using hnormal
    obtain ⟨entry, hentry, hid⟩ := exists_mem_testEntries file (cls ++ "::") ⟨2, 4, 2⟩ hname
    have hscope : .classDef ⟨1, 0, 2⟩ cls [] [] [emptyTest ⟨2, 4, 2⟩ test] [] [] ∈
        iterModuleScopeDefinitions (moduleBody (methodModule cls test)) :=
      (mem_scanModuleScope _ _ _).mpr
        ⟨_, ⟨_, List.mem_singleton_self _, .self _⟩, List.mem_singleton_self _⟩
    have hmem : entry ∈ definitionTests file
        (.classDef ⟨1, 0, 2⟩ cls [] [] [emptyTest ⟨2, 4, 2⟩ test] [] []) := by
      rw [definitionTests, if_pos (List.isPrefixOf_iff_prefix.mpr hclass), List.flatMap_singleton]
      exact hentry
    obtain ⟨first, hfirst, hsame⟩ := exists_extracted hscope hmem
    rw [hid] at hsame
    exact ⟨methodModule cls test, parsed_methodModule ⟨hcls, hnfkc.1⟩ ⟨htest, hnfkc.2⟩, first,
      hfirst, hsame⟩

/-! ## Extracted names -/

/-- What an extracted name stands under. -/
theorem joinFqn_pair {module name : String} (hmodule : module ≠ "") (hname : name ≠ "") :
    joinFqn [module, name] = module ++ "." ++ name := by
  simp [joinFqn, hmodule, hname]

theorem mem_functionCandidates {lib : Stdlib} {owner asyncKind kind : String} {n : Node}
    {c : SurfaceCandidate} (h : c ∈ functionCandidates lib owner asyncKind kind n) :
    ∃ name ∈ spelledNames n, c.entry.fqn = joinFqn [owner, name] := by
  cases n with
  | functionDef =>
    obtain rfl := List.mem_singleton.mp h
    exact ⟨_, List.mem_singleton_self _, rfl⟩
  | _ => cases h

/-- A constant is spelled by one of the targets of its assignment. -/
theorem exists_target_of_constant {n : Node} {id : String} (h : id ∈ constantTargets n) :
    ∃ target ∈ n.children, id ∈ spelledNames target := by
  cases n with
  | assign pos targets value =>
    obtain ⟨target, htarget, hname⟩ := List.mem_filterMap.mp h
    refine ⟨target, by simp [Node.children, htarget], ?_⟩
    cases target with
    | name _ id' => exact List.mem_singleton.mpr (Option.some.inj hname).symm
    | _ => cases hname
  | annAssign pos target annotation value =>
    refine ⟨target, by simp [Node.children], ?_⟩
    cases target with
    | name _ id' =>
      cases value with
      | none => cases h
      | some value => exact h
    | _ => cases h
  | _ => cases h

/-- A name as the extractor of the API surface forms it: a module's and one or two names. -/
theorem fqn_of_candidate {lib : Stdlib} {module : String} {tree n : Node} {c : SurfaceCandidate}
    (hparsed : Parsed u tree) (hmodule : module ≠ "") (hn : n ∈ preorder tree)
    (h : c ∈ surfaceCandidates lib module n) :
    ∃ names, (∀ name ∈ names, u.isidentifier name) ∧ names ≠ [] ∧
      c.entry.fqn = ".".intercalate (module :: names) := by
  have hone {name : String} (hname : u.isidentifier name)
      (hfqn : c.entry.fqn = joinFqn [module, name]) :
      ∃ names, (∀ name ∈ names, u.isidentifier name) ∧ names ≠ [] ∧
        c.entry.fqn = ".".intercalate (module :: names) := by
    rw [joinFqn_pair hmodule (Unicode.ne_empty_of_isidentifier hname)] at hfqn
    exact ⟨[name], by simpa using hname, by simp, by simpa using hfqn⟩
  cases n with
  | functionDef =>
    obtain ⟨name, hname, hfqn⟩ := mem_functionCandidates (n := .functionDef ..) h
    exact hone (hparsed name ⟨_, hn, hname⟩).1 hfqn
  | classDef pos cls bases keywords body decoratorList typeParams =>
    have hcls := (hparsed cls ⟨_, hn, List.mem_singleton_self cls⟩).1
    rcases List.mem_cons.mp h with rfl | h
    · exact hone hcls rfl
    · obtain ⟨m, hm, hmem⟩ := List.mem_flatMap.mp h
      obtain ⟨name, hname, hfqn⟩ := mem_functionCandidates hmem
      have hchild : m ∈ preorder tree :=
        mem_preorder_of_mem_children hn (by simp [Node.children, hm])
      have hident := (hparsed name ⟨m, hchild, hname⟩).1
      have hclass := joinFqn_pair hmodule (Unicode.ne_empty_of_isidentifier hcls)
      have howner : module ++ "." ++ cls ≠ "" := by simp
      rw [hclass, joinFqn_pair howner (Unicode.ne_empty_of_isidentifier hident)] at hfqn
      refine ⟨[cls, name], by simpa using ⟨hcls, hident⟩, by simp, ?_⟩
      rw [hfqn]
      simp [String.append_assoc]
  | _ =>
    obtain ⟨id, hid, rfl⟩ := List.mem_map.mp h
    obtain ⟨target, htarget, hname⟩ := exists_target_of_constant (List.mem_filter.mp hid).1
    exact hone (hparsed id ⟨target, mem_preorder_of_mem_children hn htarget, hname⟩).1 rfl

theorem splitDots_intercalate {parts : List String} (h : parts ≠ []) :
    splitDots (".".intercalate parts) = parts.flatMap splitDots := by
  induction parts with
  | nil => exact absurd rfl h
  | cons part rest ih =>
    by_cases hnil : rest = []
    · subst hnil
      simp
    · have hjoin : ".".intercalate (part :: rest) = part ++ "." ++ ".".intercalate rest := by
        have hcut := String.intercalate_append_of_ne_nil (s := ".") (l := [part]) (by simp) hnil
        simpa using hcut
      rw [hjoin, splitDots_append, ih hnil, List.flatMap_cons]

theorem moduleParts_ne_empty {path : PurePath} (h : RelativePython path) :
    ∀ part ∈ moduleParts path, part ≠ "" := by
  have hstem : path.stem ≠ "" := by
    rw [PurePath.stem]
    split
    next front extension hsplit =>
      rw [PurePath.splitSuffix] at hsplit
      split at hsplit
      next hfound =>
        obtain ⟨rfl, -⟩ := Prod.mk.inj (Option.some.inj hsplit)
        simpa using hfound.2.1
      next => cases hsplit
    next =>
      intro hname
      have hpython := h.python
      rw [hname] at hpython
      exact absurd hpython (by decide)
  have hparts : ∀ part ∈ path.dropLast ++ [path.stem], part ≠ "" := by
    intro part hpart
    rcases List.mem_append.mp hpart with hpart | hpart
    · exact (h.validParts part (List.dropLast_subset path hpart)).1
    · rwa [List.mem_singleton.mp hpart]
  intro part hpart
  rw [moduleParts] at hpart
  split at hpart
  · exact hparts part (List.dropLast_subset _ hpart)
  · exact hparts part hpart

theorem moduleFqn_ne_empty {root : Root} {path : PurePath} (h : RelativePython path)
    (hparts : moduleParts path ≠ []) : moduleFqnFromPath root path ≠ "" := by
  obtain ⟨part, rest, hcons⟩ := List.exists_cons_of_ne_nil hparts
  have hpart : part ≠ "" := moduleParts_ne_empty h part (hcons ▸ List.mem_cons_self)
  rw [moduleFqnFromPath, if_neg hparts, hcons]
  cases rest with
  | nil => simpa using hpart
  | cons next rest => simp

/-- A name in the API surface is admitted exactly when the module's name is made of
identifiers. -/
theorem isCanonicalFqn_of_extracted {lib : Stdlib} {root : Root} {path : PurePath} {tree : Node}
    (h : RelativePython path) (hparsed : Parsed u tree) (hroot : path ≠ ["__init__.py"])
    {entry : APISurfaceEntry}
    (hentry : entry ∈ extractPythonApiSurface lib (moduleFqnFromPath root path) tree) :
    isCanonicalFqn u entry.fqn ↔
      ∀ part ∈ moduleParts path, ∀ name ∈ splitDots part, u.isidentifier name := by
  have hparts : moduleParts path ≠ [] := fun hnil =>
    hroot ((moduleParts_eq_nil_iff h.python).mp hnil)
  have hvalues := (List.mem_insertionSort _).mp hentry
  obtain ⟨c, hc, rfl⟩ := List.mem_map.mp hvalues
  obtain ⟨n, hn, hmem⟩ := List.mem_flatMap.mp ((values_indexBy_sublist _ _).subset hc)
  rw [iterModuleScopeStatements, scanModuleScope_eq] at hn
  obtain ⟨m, hm, hhere⟩ := List.mem_flatMap.mp hn
  have htree : n ∈ preorder tree := by
    have hscope := (scopeNodes_sublist tree).subset hm
    split at hhere
    case h_5 => cases hhere
    all_goals rwa [List.mem_singleton.mp hhere]
  obtain ⟨names, hnames, hne, hfqn⟩ :=
    fqn_of_candidate hparsed (moduleFqn_ne_empty h hparts) htree hmem
  have hwords : names.flatMap splitDots = names := by
    rw [List.flatMap_congr fun name hname => splitDots_of_notMem (dot_notMem (hnames name hname))]
    simp
  have hsplit : splitDots c.entry.fqn = (moduleParts path).flatMap splitDots ++ names := by
    rw [hfqn, splitDots_intercalate (by simp), List.flatMap_cons, hwords, moduleFqnFromPath,
      if_neg hparts, splitDots_intercalate hparts]
  have hdot : '.' ∈ c.entry.fqn.toList := by
    obtain ⟨first, rest, rfl⟩ := List.exists_cons_of_ne_nil hne
    rw [hfqn]
    simp
  rw [isCanonicalFqn_iff, hsplit]
  constructor
  · rintro ⟨-, hall⟩ part hpart name hname
    exact hall name (List.mem_append_left _ (List.mem_flatMap.mpr ⟨part, hpart, hname⟩))
  · intro hmodule
    refine ⟨hdot, fun part hpart => ?_⟩
    rcases List.mem_append.mp hpart with hpart | hpart
    · obtain ⟨piece, hpiece, hname⟩ := List.mem_flatMap.mp hpart
      exact hmodule piece hpiece part hname
    · exact hnames part hpart

theorem exists_extractedName {tree n : Node} (lib : Stdlib) (module : String)
    {c : SurfaceCandidate} (hn : n ∈ iterModuleScopeStatements (moduleBody tree))
    (h : c ∈ surfaceCandidates lib module n) :
    ∃ entry, entry ∈ extractPythonApiSurface lib module tree := by
  obtain ⟨first, hfirst, -⟩ :=
    exists_mem_values_indexBy dedupeKey (List.mem_flatMap.mpr ⟨n, hn, h⟩)
  exact ⟨first.entry, (List.mem_insertionSort _).mpr (List.mem_map_of_mem hfirst)⟩

/-! ## The two languages -/

/-- A file below a root with what the parser makes of its text. -/
structure ParsedFile (u : Unicode) (file : SourceFile) : Prop where
  path : RelativePython file.path
  tree : Parsed u file.tree

/-- The tests of a file. -/
def fileTests (file : SourceFile) : List TestSurfaceEntry :=
  extractPythonTestSurface file.path.text file.tree

/-- The names that an id spells are in their normal form. -/
def NormalNames (u : Unicode) (value : String) : Prop :=
  ∀ path name, partitionColons value.toList = some (path, name) →
    ∀ part ∈ splitColons name, u.nfkc (String.ofList part) = String.ofList part

theorem exists_file {value : String} (h : isCanonicalTestId u value)
    (hnul : '\x00' ∉ value.toList) (hnormal : NormalNames u value) :
    ∃ file, ParsedFile u file ∧ ∃ entry ∈ fileTests file, testCaseId entry = value := by
  obtain ⟨path, name, hpart, hpath, htest⟩ := (isCanonicalTestId_iff value).mp h
  have hvalue := append_of_partitionColons hpart
  have hnulpath : '\x00' ∉ path := by
    intro hmem
    rw [hvalue] at hnul
    exact hnul (List.mem_append_left _ hmem)
  obtain ⟨parts, hparts, htext⟩ := exists_relativePython hpath hnulpath
  have hparse := exists_module htest (by simpa using hnormal path name hpart) parts.text
  obtain ⟨tree, htree, entry, hentry, hid⟩ := hparse
  refine ⟨⟨parts, tree⟩, ⟨hparts, htree⟩, entry, hentry, ?_⟩
  rw [hid, htext, ← String.toList_inj, toList_method, hvalue, String.toList_ofList,
    String.toList_ofList]

theorem nul_notMem_text {path : PurePath} (h : RelativePython path) :
    '\x00' ∉ path.text.toList := by
  rw [PurePath.text, if_neg h.ne_nil, FilePath.toList_intercalate]
  intro hmem
  rcases mem_of_mem_intercalate hmem with hsep | ⟨piece, hpiece, hmem⟩
  · exact absurd hsep (by decide)
  · obtain ⟨part, hpart, rfl⟩ := List.mem_map.mp hpiece
    exact (h.parts part hpart).2.2.2 hmem

theorem normal_of_testFunction {name : String}
    (h : TestFunction (fun name => u.isidentifier name ∧ u.nfkc name = name) name) :
    ∀ part ∈ splitColons name.toList, u.nfkc (String.ofList part) = String.ofList part := by
  cases h with
  | function htest _ =>
    rw [splitColons_of_notMem (colon_notMem htest.1)]
    simpa using htest.2
  | method hcls htest _ _ =>
    rw [toList_method, splitColons_append (colon_notMem hcls.1),
      splitColons_of_notMem (colon_notMem htest.1)]
    simpa using ⟨hcls.2, htest.2⟩

/-- Among the admitted ids, those of tests are the ones that a parser can have read from a
file. -/
theorem exists_file_iff {value : String} (h : isCanonicalTestId u value) :
    (∃ file, ParsedFile u file ∧ ∃ entry ∈ fileTests file, testCaseId entry = value) ↔
      '\x00' ∉ value.toList ∧ NormalNames u value := by
  constructor
  · rintro ⟨file, hfile, entry, hentry, rfl⟩
    obtain ⟨hsame, htest⟩ := testFunction_of_extracted hfile.tree hentry
    have hspelled := (spelled_of_extracted hentry).2.mono hfile.tree
    constructor
    · have hpath := nul_notMem_text hfile.path
      have hname := htest.notMem (c := '\x00') (by decide) (by decide)
      rw [testCaseId, toList_method, hsame]
      simp [hpath, hname]
    · intro path name hpart
      obtain ⟨path', name', hsome, hcanonical, hadmitted⟩ := (isCanonicalTestId_iff _).mp h
      rw [hpart] at hsome
      obtain ⟨rfl, rfl⟩ := Prod.mk.inj (Option.some.inj hsome)
      have hid : testCaseId entry = testCaseId
          { testFile := String.ofList path, testFunction := String.ofList name } := by
        rw [← String.toList_inj, append_of_partitionColons hpart, testCaseId, toList_method]
        simp
      have hsuffix : ".py".toList <:+ entry.testFile.toList :=
        hsame ▸ python_suffix_text hfile.path.python
      have hpython : ".py".toList <:+ (String.ofList path).toList := by
        rw [String.toList_ofList (l := path)]
        exact hcanonical.python
      obtain ⟨-, hname⟩ := testCaseId_inj hsuffix hpython htest hadmitted hid
      rw [hname] at hspelled
      simpa using normal_of_testFunction hspelled
  · rintro ⟨hnul, hnormal⟩
    exact exists_file h hnul hnormal

/-- What the database says of the ligature `ﬁ`, the one character outside ASCII here. -/
def ligatureUnicode : Unicode where
  xidStart c := c = 'ﬁ'
  xidContinue c := c = 'ﬁ'
  nfkc text := String.ofList (text.toList.flatMap fun c => if c = 'ﬁ' then ['f', 'i'] else [c])

/-- A test in a file with a space in its name, and one in a module with a dash in it. -/
def spacedFile : SourceFile := ⟨["tests", "test x.py"], functionModule "test_y"⟩

def dashedFile : SourceFile := ⟨["my-mod.py"], functionModule "test_y"⟩

theorem parsedFile_of_path {path : PurePath} (h : RelativePython path) :
    ParsedFile ligatureUnicode ⟨path, functionModule "test_y"⟩ :=
  ⟨h, parsed_functionModule (by decide)⟩

end SemanticCi.Authoring
