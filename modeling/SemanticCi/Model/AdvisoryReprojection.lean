import SemanticCi.Model.ImportsExtractor
import SemanticCi.Model.LLMAggregate

/-! The advisory re-projection (`sensor/advisory.py`): which findings of a scout were already
there before the change, read off the baseline code state and the renames. -/

namespace SemanticCi.Sensor

open OrderedDict Python Ssp StateSchema Extraction

/-- `_ABSENCE_GUARD_DECORATORS`: by the class of a finding, the decorators that guard. -/
def absenceGuardDecorators : List (String × List String) :=
  [("missing-authz", ["authenticated", "login_required", "permission_required", "requires_auth"])]

/-! ## Names -/

/-- `text.removeprefix(front)`. -/
def removePrefix (front text : String) : String :=
  if front.toList.isPrefixOf text.toList then String.ofList (text.toList.drop front.length)
  else text

/-- `text.endswith(back)`. -/
def endsWith (back text : String) : Bool := back.toList.isSuffixOf text.toList

/-- `text[:-count]`. -/
def dropEnd (count : ℕ) (text : String) : String :=
  String.ofList (text.toList.take (text.length - count))

/-- `_module_name_from_path`. -/
def moduleNameFromPath (path : String) : String :=
  let normalized := removePrefix "./" (posixPath path)
  let normalized :=
    if endsWith "/__init__.py" normalized then dropEnd "/__init__.py".length normalized
    else if endsWith ".py" normalized then dropEnd 3 normalized
    else normalized
  String.ofList (normalized.toList.map fun c => if c = '/' then '.' else c)

/-- The nonempty parts of a module name. -/
def modulePathParts (path : String) : List String :=
  (splitDots (moduleNameFromPath path)).filter (· ≠ "")

/-- `".".join(parts[-length:])`. -/
def suffixModule (parts : List String) (length : ℕ) : String :=
  ".".intercalate (parts.drop (parts.length - length))

/-- The loop of `_remap_renamed_fqn`, from suffixes of the given length down to one part. -/
def remapFrom (qualifiedName : String) (newParts oldParts : List String) : ℕ → Option String
  | 0 => none
  | length + 1 =>
      let candidateModule := suffixModule newParts (length + 1)
      let baselineModule := suffixModule oldParts (length + 1)
      if qualifiedName = candidateModule then some baselineModule
      else if (candidateModule ++ ".").toList.isPrefixOf qualifiedName.toList then
        some (baselineModule ++
          String.ofList (qualifiedName.toList.drop candidateModule.length))
      else remapFrom qualifiedName newParts oldParts length

/-- `_remap_renamed_fqn`. -/
def remapRenamedFqn (qualifiedName newPath oldPath : String) : Option String :=
  let newParts := modulePathParts newPath
  let oldParts := modulePathParts oldPath
  remapFrom qualifiedName newParts oldParts (min newParts.length oldParts.length)

/-- `decorator.rsplit(".", 1)[-1]`. -/
def decoratorLeaf (decorator : String) : String :=
  String.ofList (decorator.toList.reverse.takeWhile (· ≠ '.')).reverse

/-! ## Baseline sites -/

/-- `_entries_by_fqn`. -/
def entriesByFqn (entries : List APISurfaceEntry) : OrderedDict String (List APISurfaceEntry) :=
  groupBy (·.fqn) entries

def hasGuardDecorator (entry : APISurfaceEntry) (guardDecorators : List String) : Bool :=
  entry.decorators.any fun decorator => decide (decoratorLeaf decorator ∈ guardDecorators)

/-- `_enclosing_entries`: the classes whose name is a front of this one, the longest first. -/
def enclosingEntries (fqn : String) (baselineByFqn : OrderedDict String (List APISurfaceEntry)) :
    List APISurfaceEntry :=
  let parts := splitDots fqn
  ((List.range parts.length).reverse.filter (0 < ·)).flatMap fun index =>
    ((baselineByFqn.get? (".".intercalate (parts.take index))).getD []).filter
      fun entry => entry.kind = "class"

def hasGuardDecoratorInScope (entries : List APISurfaceEntry)
    (baselineByFqn : OrderedDict String (List APISurfaceEntry)) (guardDecorators : List String) :
    Bool :=
  (entries.any fun entry => hasGuardDecorator entry guardDecorators) ||
    entries.any fun entry =>
      (enclosingEntries entry.fqn baselineByFqn).any fun enclosing =>
        hasGuardDecorator enclosing guardDecorators

section Reprojection

variable {Digest : Type} {digest : List Component → Digest}

/-- `_resolve_baseline_sites`. -/
def resolveBaselineSites (finding : LLMSecurityFinding digest)
    (baselineByFqn : OrderedDict String (List APISurfaceEntry))
    (renameOldByNew : OrderedDict String String) : List APISurfaceEntry :=
  let direct := (baselineByFqn.get? finding.qualifiedName).getD []
  if direct ≠ [] then direct
  else
    match renameOldByNew.get? (posixPath finding.modulePath) with
    | none => []
    | some oldPath =>
      match remapRenamedFqn finding.qualifiedName finding.modulePath oldPath with
      | none => []
      | some baselineFqn => (baselineByFqn.get? baselineFqn).getD []

/-- `_already_in_baseline`. -/
def alreadyInBaseline (finding : LLMSecurityFinding digest)
    (baselineByFqn : OrderedDict String (List APISurfaceEntry))
    (renameOldByNew : OrderedDict String String) : Bool :=
  if finding.anchorKind = .presence then false
  else
    match absenceGuardDecorators.lookup finding.findingClass with
    | none => false
    | some guardDecorators =>
      let baselineSites := resolveBaselineSites finding baselineByFqn renameOldByNew
      if baselineSites = [] then false
      else !hasGuardDecoratorInScope baselineSites baselineByFqn guardDecorators

variable (digest) in
structure AdvisoryReprojection where
  added : List (LLMSecurityFinding digest)
  preExisting : List (LLMSecurityFinding digest)

/-- `{_posix_path(rename.new_path): _posix_path(rename.old_path) for rename in renames}`. -/
def oldPathByNewPath (renames : List RenameEntry) : OrderedDict String String :=
  ofPairs (renames.map fun rename => (posixPath rename.newPath, posixPath rename.oldPath))

/-- `compute_advisory_reprojection`. -/
def computeAdvisoryReprojection [LinearOrder Digest]
    (candidateFindings : List (LLMSecurityFinding digest)) (baselineCode : CodeState)
    (renames : List RenameEntry) : AdvisoryReprojection digest :=
  let baselineByFqn := entriesByFqn baselineCode.apiSurface
  let renameOldByNew := oldPathByNewPath renames
  { added := sortLLMFindings (candidateFindings.filter fun finding =>
      !alreadyInBaseline finding baselineByFqn renameOldByNew)
    preExisting := sortLLMFindings (candidateFindings.filter fun finding =>
      alreadyInBaseline finding baselineByFqn renameOldByNew) }

end Reprojection

end SemanticCi.Sensor
