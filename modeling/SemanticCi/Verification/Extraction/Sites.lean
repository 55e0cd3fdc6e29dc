import SemanticCi.Model.CodeStateDelta
import SemanticCi.Model.CodeStatePipeline
import SemanticCi.Verification.Extraction.Paths
import SemanticCi.Verification.Records

/-! The effects of a package, site by site: a module is extracted to one entry per site, filed
under a key that names the module of a call but not the module of a mutation. -/

namespace SemanticCi.Extraction

open SemanticCi.Python SemanticCi.Python.Ast SemanticCi.StateSchema SemanticCi.Delta OrderedDict

/-! ## Effect sites -/

inductive EffectSite
  | call (site : CallSite)
  | mutation (site : MutationSite)
deriving DecidableEq

/-- Where an effect is: in the scopes around a call, or at a mutated name. -/
inductive Place
  | scope (names : List String)
  | name (name : String)
deriving DecidableEq

namespace EffectSite

def place : EffectSite → Place
  | call site => .scope site.scope
  | mutation site => .name site.target

def effectClass : EffectSite → EffectClass
  | call site => site.effectClass
  | mutation _ => .globalMutation

def resolvedCall : EffectSite → String
  | call site => site.resolved
  | mutation _ => ""

/-- What tells a site from the other sites of its module. -/
def identity (s : EffectSite) : Place × EffectClass × String :=
  (s.place, s.effectClass, s.resolvedCall)

def fqn (moduleFqn : String) : EffectSite → String
  | call site => enclosingFqn moduleFqn site.scope
  | mutation site => site.kind.marker ++ site.target

def key (moduleFqn : String) (s : EffectSite) : String ×ₗ String ×ₗ String :=
  toLex (s.fqn moduleFqn, toLex (s.effectClass.value, s.resolvedCall))

def entry (filename moduleFqn : String) : EffectSite → EffectEntry
  | call site => callEntry filename moduleFqn site
  | mutation site => buildMutationEntry filename site

theorem effectKey_entry (filename moduleFqn : String) (s : EffectSite) :
    effectKey (s.entry filename moduleFqn) = s.key moduleFqn := by
  cases s with
  | call site => rfl
  | mutation site => rfl

/-- A site shows its file. -/
theorem entry_filename_injective {filename filename' moduleFqn moduleFqn' : String}
    {s s' : EffectSite} (h : s.entry filename moduleFqn = s'.entry filename' moduleFqn') :
    filename = filename' := by
  have hevidence := congrArg EffectEntry.evidence h
  cases s with
  | call site =>
    cases s' with
    | call site' => simp_all [entry, callEntry]
    | mutation site' => simp [entry, callEntry, buildMutationEntry] at hevidence
  | mutation site =>
    cases s' with
    | call site' => simp [entry, callEntry, buildMutationEntry] at hevidence
    | mutation site' => simp_all [entry, buildMutationEntry]

end EffectSite

/-- The effect sites of a module. -/
def effectSites (db : List EffectSignature) (tree : Node) : List EffectSite :=
  ((callEffectVisitor (buildCallIndex db) (collectAliasMap (moduleBody tree))).run [] tree).map
      .call ++
    (mutationSites tree).map .mutation

/-- A module is extracted site by site. -/
theorem extractPythonEffects_eq (db : List EffectSignature) (filename moduleFqn : String)
    (tree : Node) :
    extractPythonEffects db filename moduleFqn tree =
      (effectSites db tree).map (EffectSite.entry filename moduleFqn) := by
  simp only [extractPythonEffects, extractCallEffects, extractGlobalMutations, effectSites,
    List.map_append, List.map_map]
  rfl

/-- The entries of a file of a package. -/
def fileEntries (db : List EffectSignature) (root : Root) (file : SourceFile) : List EffectEntry :=
  (effectSites db file.tree).map
    (EffectSite.entry (absoluteText root file.path) (moduleFqnFromPath root file.path))

theorem extractPythonCodeState_effects (lib : Stdlib) (db : List EffectSignature) (root : Root)
    (package : PackageTree) :
    (extractPythonCodeState lib db root package).effects =
      (sortPaths root package.files).flatMap (fileEntries db root) := by
  simp only [extractPythonCodeState, extractEffects, pythonPathsFromInputs_eq,
    extractPythonEffects_eq]
  rfl

/-! ## Sample inputs -/

def printDb : List EffectSignature := [⟨"builtin_print", "python", "print", .stdout⟩]

/-- Enough for modules without definitions and without names in upper case. -/
def plainStdlib : Stdlib := ⟨fun _ => "", fun _ => false⟩

def baseCheckout : Root := ⟨["base"], by decide⟩

def headCheckout : Root := ⟨["head"], by decide⟩

end SemanticCi.Extraction
