import SemanticCi.Verification.Extraction.DottedNames
import SemanticCi.Verification.Extraction.ModuleScope
import SemanticCi.Verification.Extraction.Paths

/-! The module graph against the import relation: what the module-scope imports of a module
resolve to, with relative names resolved as `importlib` does. -/

namespace SemanticCi.Extraction

open SemanticCi.Python SemanticCi.Python.Ast SemanticCi.StateSchema OrderedDict

/-! ## What an import resolves to -/

/-- A module name after `level` dots, in a module of this package: without the last
`level - 1` components of the package, which must have `level` of them. -/
structure RelativeName (package module : String) (level : ℕ) (resolved : String) : Prop where
  package_ne : package ≠ ""
  pos : 0 < level
  enough : level ≤ (splitDots package).length
  eq : resolved =
    let base := ".".intercalate
      ((splitDots package).take ((splitDots package).length - (level - 1)))
    if module = "" then base else base ++ "." ++ module

/-- The modules that a statement names, in a module of this package. -/
inductive NamesModule (package : String) : Node → String → Prop where
  | plain {pos names item} (h : item ∈ names) :
      NamesModule package (.importStmt pos names) item.name
  | absolute {pos module names} :
      NamesModule package (.importFrom pos module names 0) (module.getD "")
  | relative {pos module names level resolved}
      (h : RelativeName package (module.getD "") level resolved) :
      NamesModule package (.importFrom pos module names level) resolved

/-- An imported symbol, which may be a submodule of the module it is imported from. -/
inductive NamesSymbol (package : String) : Node → String → String → Prop where
  | mk {pos module names level base item}
      (h : NamesModule package (.importFrom pos module names level) base) (hitem : item ∈ names)
      (hstar : item.name ≠ "*") :
      NamesSymbol package (.importFrom pos module names level) base item.name

inductive ResolvesTo (package : String) (stmt : Node) : String → Prop where
  | module {name} (h : NamesModule package stmt name) : ResolvesTo package stmt name
  | symbol {base symbol} (h : NamesSymbol package stmt base symbol) :
      ResolvesTo package stmt (base ++ "." ++ symbol)

/-- As before, with symbols only of modules whose name is not empty. -/
inductive ResolvesBelow (package : String) (stmt : Node) : String → Prop where
  | module {name} (h : NamesModule package stmt name) : ResolvesBelow package stmt name
  | symbol {base symbol} (h : NamesSymbol package stmt base symbol) (hbase : base ≠ "") :
      ResolvesBelow package stmt (base ++ "." ++ symbol)

theorem resolvesTo_iff (package : String) (stmt : Node) (name : String) :
    ResolvesTo package stmt name ↔ ResolvesBelow package stmt name ∨
      ∃ symbol, NamesSymbol package stmt "" symbol ∧ name = "." ++ symbol := by
  constructor
  · intro h
    cases h with
    | module h => exact .inl (.module h)
    | @symbol base symbol h =>
        by_cases hbase : base = ""
        · subst hbase
          exact .inr ⟨symbol, h, by rw [String.empty_append]⟩
        · exact .inl (.symbol h hbase)
  · rintro (h | ⟨symbol, h, rfl⟩)
    · cases h with
      | module h => exact .module h
      | symbol h _ => exact .symbol h
    · have hsymbol := ResolvesTo.symbol h
      rwa [String.empty_append] at hsymbol

/-! ## What the extractor resolves -/

theorem intercalate_append_splitDots {parts : List String} (h : parts ≠ []) (module : String) :
    ".".intercalate (parts ++ splitDots module) = ".".intercalate parts ++ "." ++ module := by
  rw [String.intercalate_append_of_ne_nil h (splitDots_ne_nil module), join_splitDots]

section Candidates

variable (importer : String) (packages : List String)

theorem candidateBase_relative (module : String) (symbols : List String) {level : ℕ}
    (hlevel : level ≠ 0) (base : String) :
    candidateBase importer { module := module
                             from_ := some (String.ofList (List.replicate level '.'))
                             symbols := symbols } packages = some base ↔
      RelativeName (containingPackage importer packages) module level base := by
  set package := containingPackage importer packages with hpackage
  have hlength : (String.ofList (List.replicate level '.')).length = level := by simp
  have hcount : 0 < (splitDots package).length := List.length_pos_iff.mpr (splitDots_ne_nil _)
  simp only [candidateBase, hlength, ← hpackage]
  by_cases hnone : package = "" ∨ ((splitDots package).length ≤ level - 1 ∧ 0 < level - 1)
  · rw [if_pos hnone]
    constructor
    · intro h
      cases h
    · intro h
      have henough := h.enough
      rcases hnone with hempty | hfew
      · exact absurd hempty h.package_ne
      · omega
  · rw [if_neg hnone, Option.some.injEq]
    rw [not_or] at hnone
    have hparts : (splitDots package).take ((splitDots package).length - (level - 1)) ≠ [] := by
      rw [Ne, List.take_eq_nil_iff, not_or]
      exact ⟨by omega, splitDots_ne_nil _⟩
    have hbase : ".".intercalate (if module = "" then
        (splitDots package).take ((splitDots package).length - (level - 1))
        else (splitDots package).take ((splitDots package).length - (level - 1)) ++
          splitDots module) =
        if module = "" then ".".intercalate
          ((splitDots package).take ((splitDots package).length - (level - 1)))
        else ".".intercalate
          ((splitDots package).take ((splitDots package).length - (level - 1))) ++ "." ++
            module := by
      split
      · rfl
      · exact intercalate_append_splitDots hparts module
    rw [hbase]
    constructor
    · rintro rfl
      exact ⟨hnone.1, by omega, by omega, rfl⟩
    · intro h
      exact h.eq.symm

/-- The base of an entry of a statement is a module that the statement names. -/
theorem exists_candidateBase_iff (stmt : Node) (base : String) :
    (∃ entry ∈ importEntries stmt, candidateBase importer entry packages = some base) ↔
      NamesModule (containingPackage importer packages) stmt base := by
  cases stmt with
  | importStmt pos names =>
      simp only [importEntries, List.mem_map, exists_exists_and_eq_and, candidateBase,
        Option.some.injEq]
      constructor
      · rintro ⟨item, hitem, rfl⟩
        exact .plain hitem
      · intro h
        cases h with
        | plain hitem => exact ⟨_, hitem, rfl⟩
  | importFrom pos module names level =>
      simp only [importEntries, List.mem_singleton, exists_eq_left]
      by_cases hlevel : level = 0
      · subst hlevel
        simp only [if_true, candidateBase, Option.some.injEq]
        constructor
        · rintro rfl
          exact .absolute
        · intro h
          cases h with
          | absolute => rfl
          | relative h => exact absurd h.pos (lt_irrefl 0)
      · rw [if_neg hlevel, candidateBase_relative importer packages _ _ hlevel]
        constructor
        · intro h
          exact .relative h
        · intro h
          cases h with
          | absolute => exact absurd rfl hlevel
          | relative h => exact h
  | _ =>
      constructor
      · rintro ⟨entry, hentry, -⟩
        cases hentry
      · intro h
        cases h

/-- A symbol of an entry of a statement is a symbol that the statement names. -/
theorem exists_symbol_iff (stmt : Node) (base symbol : String) :
    (∃ entry ∈ importEntries stmt, candidateBase importer entry packages = some base ∧
      symbol ∈ entry.symbols ∧ symbol ≠ "*") ↔
        NamesSymbol (containingPackage importer packages) stmt base symbol := by
  have hbase := exists_candidateBase_iff importer packages stmt base
  cases stmt with
  | importStmt pos names =>
      constructor
      · rintro ⟨entry, hentry, -, hsymbol, -⟩
        obtain ⟨item, -, rfl⟩ := List.mem_map.mp hentry
        cases hsymbol
      · intro h
        cases h
  | importFrom pos module names level =>
      simp only [importEntries, List.mem_singleton, exists_eq_left] at hbase ⊢
      rw [hbase]
      constructor
      · rintro ⟨hnames, hsymbol, hstar⟩
        obtain ⟨item, hitem, rfl⟩ := List.mem_map.mp ((List.mem_insertionSort _).mp hsymbol)
        exact .mk hnames hitem hstar
      · rintro ⟨hnames, hitem, hstar⟩
        exact ⟨hnames, (List.mem_insertionSort _).mpr (List.mem_map_of_mem hitem), hstar⟩
  | _ =>
      constructor
      · rintro ⟨entry, hentry, -⟩
        cases hentry
      · intro h
        cases h

theorem mem_resolveInternalModules (entry : ImportEntry) (known : List String) (name : String) :
    name ∈ resolveInternalModules importer entry known packages ↔
      name ∈ known ∧ ∃ base, candidateBase importer entry packages = some base ∧
        (name = base ∨ ∃ symbol, (symbol ∈ entry.symbols ∧ symbol ≠ "*") ∧
          name = joinModule base symbol) := by
  unfold resolveInternalModules
  cases hbase : candidateBase importer entry packages with
  | none => simp
  | some base =>
      simp only [List.mem_filter, List.mem_cons, List.mem_map, decide_eq_true_eq,
        Option.some.injEq, exists_eq_left', eq_comm (b := name), and_comm (b := name ∈ known)]

/-- What the extractor makes of a statement: a symbol of the empty name stands alone. -/
theorem exists_resolved_iff (stmt : Node) (known : List String) (name : String) :
    (∃ entry ∈ importEntries stmt, name ∈ resolveInternalModules importer entry known packages) ↔
      name ∈ known ∧ (ResolvesBelow (containingPackage importer packages) stmt name ∨
        NamesSymbol (containingPackage importer packages) stmt "" name) := by
  simp only [mem_resolveInternalModules]
  constructor
  · rintro ⟨entry, hentry, hknown, base, hbase, rfl | ⟨symbol, hsymbol, rfl⟩⟩
    · exact ⟨hknown, .inl (.module ((exists_candidateBase_iff ..).mp ⟨entry, hentry, hbase⟩))⟩
    · have hnames := (exists_symbol_iff importer packages stmt base symbol).mp
        ⟨entry, hentry, hbase, hsymbol⟩
      refine ⟨hknown, ?_⟩
      by_cases hempty : base = ""
      · subst hempty
        exact .inr hnames
      · rw [joinModule, if_neg hempty]
        exact .inl (.symbol hnames hempty)
  · rintro ⟨hknown, h | h⟩
    · cases h with
      | module h =>
          obtain ⟨entry, hentry, hbase⟩ := (exists_candidateBase_iff ..).mpr h
          exact ⟨entry, hentry, hknown, _, hbase, .inl rfl⟩
      | @symbol base symbol h hempty =>
          obtain ⟨entry, hentry, hbase, hsymbol⟩ := (exists_symbol_iff ..).mpr h
          refine ⟨entry, hentry, hknown, base, hbase, .inr ⟨symbol, hsymbol, ?_⟩⟩
          rw [joinModule, if_neg hempty]
    · obtain ⟨entry, hentry, hbase, hsymbol⟩ := (exists_symbol_iff ..).mpr h
      exact ⟨entry, hentry, hknown, "", hbase, .inr ⟨name, hsymbol, rfl⟩⟩

end Candidates

/-! ## Imports of a module -/

section Graph

variable (root : Root) (files : List SourceFile)

/-- The package of a file's module: the module itself for an `__init__.py`, otherwise its name
without the last component. -/
def packageOf (file : SourceFile) : String :=
  if file.path.name = "__init__.py" then moduleFqnFromPath root file.path
  else ".".intercalate (splitDots (moduleFqnFromPath root file.path)).dropLast

/-- A module-scope import of the module resolves to the name. -/
def Imports (importer name : String) : Prop :=
  ∃ file ∈ files, moduleFqnFromPath root file.path = importer ∧
    ∃ stmt, InModuleScope (moduleBody file.tree) stmt ∧ ResolvesTo (packageOf root file) stmt name

/-- The same without the symbols of the empty name. -/
def ImportsBelow (importer name : String) : Prop :=
  ∃ file ∈ files, moduleFqnFromPath root file.path = importer ∧
    ∃ stmt, InModuleScope (moduleBody file.tree) stmt ∧
      ResolvesBelow (packageOf root file) stmt name

/-- The dots of a module-scope import lead to the empty name, which a dot in front leaves, and
this is one of the symbols. -/
def ImportsFromEmpty (importer symbol : String) : Prop :=
  ∃ file ∈ files, moduleFqnFromPath root file.path = importer ∧
    ∃ stmt, InModuleScope (moduleBody file.tree) stmt ∧
      NamesSymbol (packageOf root file) stmt "" symbol

theorem imports_iff (importer name : String) : Imports root files importer name ↔
    ImportsBelow root files importer name ∨
      ∃ symbol, ImportsFromEmpty root files importer symbol ∧ name = "." ++ symbol := by
  simp only [Imports, ImportsBelow, ImportsFromEmpty, resolvesTo_iff]
  constructor
  · rintro ⟨file, hfile, himporter, stmt, hstmt, h | ⟨symbol, h, rfl⟩⟩
    · exact .inl ⟨file, hfile, himporter, stmt, hstmt, h⟩
    · exact .inr ⟨symbol, ⟨file, hfile, himporter, stmt, hstmt, h⟩, rfl⟩
  · rintro (⟨file, hfile, himporter, stmt, hstmt, h⟩ |
      ⟨symbol, ⟨file, hfile, himporter, stmt, hstmt, h⟩, rfl⟩)
    · exact ⟨file, hfile, himporter, stmt, hstmt, .inl h⟩
    · exact ⟨file, hfile, himporter, stmt, hstmt, .inr ⟨symbol, h, rfl⟩⟩

theorem mem_stableImportEntries (entries : List ImportEntry) (entry : ImportEntry) :
    entry ∈ stableImportEntries entries ↔ entry ∈ entries := by
  rw [stableImportEntries, List.mem_insertionSort]
  constructor
  · intro h
    exact (values_indexBy_sublist id entries).subset h
  · intro h
    obtain ⟨first, hfirst, hkey⟩ := exists_mem_values_indexBy id h
    obtain rfl : first = entry := hkey
    exact hfirst

/-- Only import statements have entries. -/
theorem exists_importHere_iff (body : List Node) (entry : ImportEntry) :
    (∃ stmt ∈ iterModuleScopeImports body, entry ∈ importEntries stmt) ↔
      ∃ stmt, InModuleScope body stmt ∧ entry ∈ importEntries stmt := by
  simp only [iterModuleScopeImports, mem_scanModuleScope]
  constructor
  · rintro ⟨stmt, ⟨n, hn, hstmt⟩, hentry⟩
    refine ⟨n, hn, ?_⟩
    cases n with
    | importStmt => exact List.mem_singleton.mp hstmt ▸ hentry
    | importFrom => exact List.mem_singleton.mp hstmt ▸ hentry
    | _ => cases hstmt
  · rintro ⟨n, hn, hentry⟩
    refine ⟨n, ⟨n, hn, ?_⟩, hentry⟩
    cases n with
    | importStmt => exact List.mem_singleton_self _
    | importFrom => exact List.mem_singleton_self _
    | _ => cases hentry

theorem mem_extractPythonImports (tree : Node) (entry : ImportEntry) :
    entry ∈ extractPythonImports tree ↔
      ∃ stmt, InModuleScope (moduleBody tree) stmt ∧ entry ∈ importEntries stmt := by
  rw [extractPythonImports, mem_stableImportEntries, List.mem_flatMap, exists_importHere_iff]

/-- With distinct names, a module's own file decides its package. -/
theorem containingPackage_eq (hdistinct : (moduleNames root files).Nodup) {file : SourceFile}
    (hfile : file ∈ files) :
    containingPackage (moduleFqnFromPath root file.path) (packageModules root files) =
      packageOf root file := by
  have hmem : moduleFqnFromPath root file.path ∈ packageModules root files ↔
      file.path.name = "__init__.py" := by
    simp only [packageModules, moduleNames, List.mem_map, List.mem_filter, decide_eq_true_eq]
    constructor
    · rintro ⟨other, ⟨hother, hname⟩, heq⟩
      rwa [← List.inj_on_of_nodup_map hdistinct hother hfile heq]
    · intro hname
      exact ⟨file, ⟨hfile, hname⟩, rfl⟩
  simp only [containingPackage, packageOf, hmem, beforeLastDot_eq]

/-- The edges that the extractor draws. -/
theorem mem_forwardEdges (hdistinct : (moduleNames root files).Nodup) (importer name : String) :
    name ∈ forwardEdges root files importer ↔ name ∈ moduleNames root files ∧ name ≠ importer ∧
      (ImportsBelow root files importer name ∨ ImportsFromEmpty root files importer name) := by
  have hfile (file : SourceFile) (hfile : file ∈ files) :
      (∃ entry ∈ extractPythonImports file.tree, name ∈ resolveInternalModules
        (moduleFqnFromPath root file.path) entry (moduleNames root files)
        (packageModules root files)) ↔
      name ∈ moduleNames root files ∧ ∃ stmt, InModuleScope (moduleBody file.tree) stmt ∧
        (ResolvesBelow (packageOf root file) stmt name ∨
          NamesSymbol (packageOf root file) stmt "" name) := by
    have hstmt := exists_resolved_iff (moduleFqnFromPath root file.path)
      (packageModules root files)
    simp only [containingPackage_eq root files hdistinct hfile] at hstmt
    simp only [mem_extractPythonImports]
    constructor
    · rintro ⟨entry, ⟨stmt, hscope, hentry⟩, hname⟩
      obtain ⟨hknown, h⟩ := (hstmt stmt _ name).mp ⟨entry, hentry, hname⟩
      exact ⟨hknown, stmt, hscope, h⟩
    · rintro ⟨hknown, stmt, hscope, h⟩
      obtain ⟨entry, hentry, hname⟩ := (hstmt stmt _ name).mpr ⟨hknown, h⟩
      exact ⟨entry, ⟨stmt, hscope, hentry⟩, hname⟩
  simp only [forwardEdges, List.mem_dedup, List.mem_filter, List.mem_flatMap, decide_eq_true_eq,
    ImportsBelow, ImportsFromEmpty]
  constructor
  · rintro ⟨⟨file, ⟨hmem, rfl⟩, hentry⟩, hne⟩
    obtain ⟨hknown, stmt, hscope, h | h⟩ := (hfile file hmem).mp hentry
    · exact ⟨hknown, hne, .inl ⟨file, hmem, rfl, stmt, hscope, h⟩⟩
    · exact ⟨hknown, hne, .inr ⟨file, hmem, rfl, stmt, hscope, h⟩⟩
  · rintro ⟨hknown, hne, ⟨file, hmem, rfl, stmt, hscope, h⟩ | ⟨file, hmem, rfl, stmt, hscope, h⟩⟩
    · exact ⟨⟨file, ⟨hmem, rfl⟩, (hfile file hmem).mpr ⟨hknown, stmt, hscope, .inl h⟩⟩, hne⟩
    · exact ⟨⟨file, ⟨hmem, rfl⟩, (hfile file hmem).mpr ⟨hknown, stmt, hscope, .inr h⟩⟩, hne⟩

end Graph

/-! ## The graph -/

/-- The graph has one entry for each module, in order, and its edges are the imports among the
modules, in both directions. -/
structure ExactGraph (root : Root) (files : List SourceFile) (graph : List ModuleGraphEntry) :
    Prop where
  modules : ∀ module, module ∈ graph.map (·.module) ↔ module ∈ moduleNames root files
  ordered : (graph.map (·.module)).Pairwise (· < ·)
  imports : ∀ entry ∈ graph, ∀ name, name ∈ entry.imports ↔
    name ∈ moduleNames root files ∧ name ≠ entry.module ∧ Imports root files entry.module name
  transpose : ∀ entry ∈ graph, ∀ other ∈ graph,
    other.module ∈ entry.importedBy ↔ entry.module ∈ other.imports
  edgesOrdered : ∀ entry ∈ graph,
    entry.imports.Pairwise (· < ·) ∧ entry.importedBy.Pairwise (· < ·)
  noSelf : ∀ entry ∈ graph, entry.module ∉ entry.imports ∧ entry.module ∉ entry.importedBy
  closed : ∀ entry ∈ graph, ∀ name ∈ entry.imports ++ entry.importedBy,
    name ∈ graph.map (·.module)

/-- Duplicate-free names in order. -/
theorem pairwise_sort_lt {names : List String} (h : names.Nodup) :
    (names.insertionSort fun a b => a ≤ b).Pairwise (· < ·) := by
  have hsorted : (names.insertionSort fun a b => a ≤ b).Pairwise (· ≤ ·) :=
    List.pairwise_insertionSort _ _
  have hnodup : (names.insertionSort fun a b => a ≤ b).Nodup :=
    (List.perm_insertionSort _ names).nodup_iff.mpr h
  refine (hsorted.and hnodup).imp ?_
  intro a b hab
  exact lt_of_le_of_ne hab.1 hab.2

section Package

variable (root : Root) (package : PackageTree)

theorem mem_moduleNames_sortPaths (name : String) :
    name ∈ moduleNames root (sortPaths root package.files) ↔
      name ∈ moduleNames root package.files := by
  simp only [moduleNames, List.mem_map, mem_sortPaths]

theorem nodup_moduleNames_sortPaths (h : (moduleNames root package.files).Nodup) :
    (moduleNames root (sortPaths root package.files)).Nodup :=
  (((sortPaths_perm root package.files).map _).nodup_iff).mpr h

/-- The edges of the package's graph. -/
def edgesFrom (importer : String) : List String :=
  forwardEdges root (sortPaths root package.files) importer

theorem mem_edgesFrom (hdistinct : (moduleNames root package.files).Nodup)
    (importer name : String) :
    name ∈ edgesFrom root package importer ↔
      name ∈ moduleNames root package.files ∧ name ≠ importer ∧
        (ImportsBelow root package.files importer name ∨
          ImportsFromEmpty root package.files importer name) := by
  rw [edgesFrom, mem_forwardEdges root _ (nodup_moduleNames_sortPaths root package hdistinct),
    mem_moduleNames_sortPaths]
  simp only [ImportsBelow, ImportsFromEmpty, mem_sortPaths]

/-- What an entry of the graph says. -/
structure GraphEntry (entry : ModuleGraphEntry) : Prop where
  module : entry.module ∈ moduleNames root package.files
  imports : ∀ name, name ∈ entry.imports ↔ name ∈ edgesFrom root package entry.module
  importedBy : ∀ name, name ∈ entry.importedBy ↔
    name ∈ moduleNames root package.files ∧ entry.module ∈ edgesFrom root package name
  ordered : entry.imports.Pairwise (· < ·) ∧ entry.importedBy.Pairwise (· < ·)

theorem graphEntry_of_mem {entry : ModuleGraphEntry}
    (h : entry ∈ extractPythonModuleGraph root package) : GraphEntry root package entry := by
  obtain ⟨module, hmodule, rfl⟩ := List.mem_map.mp h
  rw [List.mem_insertionSort, List.mem_dedup, mem_moduleNames_sortPaths] at hmodule
  constructor
  · exact hmodule
  · intro name
    exact List.mem_insertionSort _
  · intro name
    simp only [List.mem_insertionSort, List.mem_filter, List.mem_dedup,
      mem_moduleNames_sortPaths, decide_eq_true_eq, edgesFrom]
  · constructor
    · exact pairwise_sort_lt (List.nodup_dedup _)
    · exact pairwise_sort_lt ((List.nodup_dedup _).filter _)

theorem moduleGraph_modules : (extractPythonModuleGraph root package).map (·.module) =
    (moduleNames root (sortPaths root package.files)).dedup.insertionSort fun a b => a ≤ b := by
  simp only [extractPythonModuleGraph, moduleGraphOfFiles, List.map_map, Function.comp_def,
    List.map_id']

theorem mem_moduleGraph_modules (module : String) :
    module ∈ (extractPythonModuleGraph root package).map (·.module) ↔
      module ∈ moduleNames root package.files := by
  rw [moduleGraph_modules, List.mem_insertionSort, List.mem_dedup, mem_moduleNames_sortPaths]

/-- Where dots lead to the empty name, the symbols are imported by other statements as well,
or are no modules, with a dot in front and without. -/
def EmptyNameCovered (files : List SourceFile) : Prop :=
  ∀ importer symbol, ImportsFromEmpty root files importer symbol →
    (symbol ∈ moduleNames root files → symbol ≠ importer → Imports root files importer symbol) ∧
    ("." ++ symbol ∈ moduleNames root files → "." ++ symbol ≠ importer →
      ImportsBelow root files importer ("." ++ symbol) ∨
        ImportsFromEmpty root files importer ("." ++ symbol))

/-- The edges drawn are the imports, unless the empty name comes in. -/
theorem edges_iff_of_covered (hdistinct : (moduleNames root package.files).Nodup)
    (h : EmptyNameCovered root package.files) (importer name : String) :
    name ∈ edgesFrom root package importer ↔ name ∈ moduleNames root package.files ∧
      name ≠ importer ∧ Imports root package.files importer name := by
  rw [mem_edgesFrom root package hdistinct]
  refine and_congr_right fun hknown => and_congr_right fun hne => ?_
  constructor
  · rintro (hbelow | hempty)
    · exact (imports_iff ..).mpr (.inl hbelow)
    · exact (h importer name hempty).1 hknown hne
  · intro himports
    rcases (imports_iff ..).mp himports with hbelow | ⟨symbol, hempty, rfl⟩
    · exact .inl hbelow
    · exact (h importer symbol hempty).2 hknown hne

theorem covered_of_exact (hdistinct : (moduleNames root package.files).Nodup)
    (hexact : ExactGraph root package.files (extractPythonModuleGraph root package)) :
    EmptyNameCovered root package.files := by
  intro importer symbol hempty
  obtain ⟨file, hfile, himporter, -⟩ := id hempty
  have hmodule : importer ∈ moduleNames root package.files :=
    List.mem_map.mpr ⟨file, hfile, himporter⟩
  obtain ⟨entry, hentry, rfl⟩ := List.mem_map.mp
    ((mem_moduleGraph_modules root package importer).mpr hmodule)
  have hedges (name : String) := ((graphEntry_of_mem root package hentry).imports name).symm.trans
    (hexact.imports entry hentry name)
  simp only [mem_edgesFrom root package hdistinct] at hedges
  constructor
  · intro hknown hne
    exact ((hedges symbol).mp ⟨hknown, hne, .inr hempty⟩).2.2
  · intro hknown hne
    exact ((hedges ("." ++ symbol)).mpr
      ⟨hknown, hne, (imports_iff ..).mpr (.inr ⟨symbol, hempty, rfl⟩)⟩).2.2

/-- The graph of a package whose modules have distinct names is exact if and only if no symbol
that is imported from the empty name makes a difference. -/
theorem moduleGraph_exact_iff (hdistinct : (moduleNames root package.files).Nodup) :
    ExactGraph root package.files (extractPythonModuleGraph root package) ↔
      EmptyNameCovered root package.files := by
  refine ⟨covered_of_exact root package hdistinct, fun hcovered => ?_⟩
  have hedges := edges_iff_of_covered root package hdistinct hcovered
  have hentry {entry : ModuleGraphEntry} (h : entry ∈ extractPythonModuleGraph root package) :=
    graphEntry_of_mem root package h
  constructor
  · exact mem_moduleGraph_modules root package
  · rw [moduleGraph_modules]
    exact pairwise_sort_lt (List.nodup_dedup _)
  · intro entry h name
    rw [(hentry h).imports, hedges]
  · intro entry h other hother
    rw [(hentry h).importedBy, (hentry hother).imports]
    exact and_iff_right (hentry hother).module
  · intro entry h
    exact (hentry h).ordered
  · intro entry h
    rw [(hentry h).imports, (hentry h).importedBy, hedges]
    exact ⟨fun hself => hself.2.1 rfl, fun hself => hself.2.2.1 rfl⟩
  · intro entry h name hname
    rw [mem_moduleGraph_modules]
    rcases List.mem_append.mp hname with hname | hname
    · exact ((hedges _ _).mp (((hentry h).imports name).mp hname)).1
    · exact (((hentry h).importedBy name).mp hname).1

end Package

/-! ## A hidden directory -/

def hiddenRoot : Root where
  parts := ["repo"]
  valid := by decide

/-- `from .. import x`. -/
def hiddenImport : Node := .importFrom ⟨1, 0, 1⟩ none [{ name := "x" }] 2

def hiddenPackage : PackageTree where
  files := [
    { path := [".tools", "mod.py"], tree := .module [hiddenImport] },
    { path := ["x.py"], tree := .module [] }]
  valid := by decide
  python := by decide
  directories := by decide
  distinct := by decide

theorem hiddenPackage_names :
    moduleNames hiddenRoot hiddenPackage.files = [".tools.mod", "x"] := by decide +kernel

theorem hiddenPackage_distinct : (moduleNames hiddenRoot hiddenPackage.files).Nodup := by
  rw [hiddenPackage_names]
  decide

theorem hiddenPackage_exact_iff :
    ExactGraph hiddenRoot hiddenPackage.files
        (extractPythonModuleGraph hiddenRoot hiddenPackage) ↔
      EmptyNameCovered hiddenRoot hiddenPackage.files :=
  moduleGraph_exact_iff hiddenRoot hiddenPackage hiddenPackage_distinct

/-- The two dots in `.tools.mod` lead to the name in front of the leading dot, which is empty,
and the top-level module `x` is taken for its submodule. -/
theorem hiddenPackage_not_exact :
    ¬ ExactGraph hiddenRoot hiddenPackage.files
      (extractPythonModuleGraph hiddenRoot hiddenPackage) := by
  intro hexact
  have hcovered := covered_of_exact hiddenRoot hiddenPackage hiddenPackage_distinct hexact
  have hpackage : packageOf hiddenRoot ⟨[".tools", "mod.py"], .module [hiddenImport]⟩ =
      ".tools" := by decide +kernel
  have hname : RelativeName ".tools" "" 2 "" :=
    ⟨by decide, by decide, by decide +kernel, by decide +kernel⟩
  have hempty : ImportsFromEmpty hiddenRoot hiddenPackage.files ".tools.mod" "x" := by
    refine ⟨_, List.mem_cons_self, by decide +kernel, hiddenImport, ?_, ?_⟩
    · exact ⟨hiddenImport, List.mem_cons_self, .self _⟩
    · rw [hpackage]
      exact .mk (.relative hname) List.mem_cons_self (by decide)
  have himports := (hcovered _ _ hempty).1 (hiddenPackage_names ▸ by decide) (by decide)
  obtain ⟨file, hfile, himporter, stmt, ⟨s, hs, hrun⟩, hresolves⟩ := himports
  simp only [hiddenPackage, List.mem_cons, List.not_mem_nil, or_false] at hfile
  rcases hfile with rfl | rfl
  · obtain rfl := List.mem_singleton.mp hs
    rcases (runsIn_iff _ _).mp hrun with rfl | ⟨c, hc, -⟩
    · rw [hpackage] at hresolves
      have hbase {base : String} (h : NamesModule ".tools" hiddenImport base) : base = "" := by
        cases h with
        | relative h => exact h.eq.trans hname.eq.symm
      generalize htarget : "x" = target at hresolves
      cases hresolves with
      | module h => exact absurd (htarget.trans (hbase h)) (by decide)
      | symbol h =>
          cases h with
          | mk h hitem _ =>
              obtain rfl := List.mem_singleton.mp hitem
              rw [hbase h] at htarget
              exact absurd htarget (by decide)
    · cases hc
  · exact absurd himporter (by decide +kernel)

end SemanticCi.Extraction
