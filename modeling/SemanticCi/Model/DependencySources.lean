import SemanticCi.Model.Markers
import SemanticCi.Python.Number
import SemanticCi.Library.KeyedSort
import SemanticCi.Library.OrderedDict
import SemanticCi.Library.Worklist

/-! The requirements that a lock file pins (`ssp/adapters/dependency_sources.py`). -/

namespace SemanticCi.Dependencies

open SemanticCi.Python Markers OrderedDict

/-! ## TOML -/

inductive TomlValue where
  | str (text : String)
  | int (i : ℤ)
  | float (f : PyFloat)
  | bool (b : Bool)
  | dateTime (text : String)
  | array (items : List TomlValue)
  | table (entries : List (String × TomlValue))

abbrev TomlTable := List (String × TomlValue)

def TomlTable.get? (entries : TomlTable) (key : String) : Option TomlValue :=
  (entries.find? fun entry => entry.1 = key).map Prod.snd

/-- `bool(value)`. -/
def TomlValue.truthy : TomlValue → Bool
  | .str text => text ≠ ""
  | .int i => i ≠ 0
  | .float f => f ≠ .finite 0
  | .bool b => b
  | .dateTime _ => true
  | .array items => !items.isEmpty
  | .table entries => !entries.isEmpty

/-! ## Names, groups and markers -/

/-- Why no requirements come out of a lock file. `outOfFuel` is not an error of the code. -/
inductive LockError where
  | sourceError (message : String)
  | outOfFuel

/-- `_DependencyEdge`. -/
structure DependencyEdge where
  name : String
  extras : Finset String
deriving DecidableEq

/-- `re.sub(r"[-_.]+", "-", text)`. The flag says that the run before is a run of separators. -/
def collapseSeparators : Bool → List Char → List Char
  | _, [] => []
  | inside, c :: rest =>
      if c ∈ ['-', '_', '.'] then
        if inside then collapseSeparators true rest else '-' :: collapseSeparators true rest
      else c :: collapseSeparators false rest

/-- `_requirement_name`. -/
def requirementName (value : String) : String :=
  let text := value.toList.dropWhile isSpace
  if text.head?.any Char.isAlphanum then
    String.ofList (text.takeWhile fun c => c.isAlphanum ∨ c ∈ ['.', '_', '-'])
  else ""

/-- `_project_name`, of a `pyproject.toml` that exists and can be read. -/
def projectName (pyproject : Option TomlTable) : Option String :=
  match pyproject.bind (·.get? "project") with
  | some (.table project) =>
      match TomlTable.get? project "name" with
      | some (.str name) => if name ≠ "" then some name else none
      | _ => none
  | _ => none

/-- `_marker_values_for_keys`. -/
def markerValuesForKeys (package : TomlTable) (keys : List String) : List String :=
  keys.flatMap fun key =>
    match package.get? key with
    | some (.str raw) => if strip raw ≠ "" then [strip raw] else []
    | some (.array items) => items.filterMap fun item =>
        match item with
        | .str raw => if strip raw ≠ "" then some (strip raw) else none
        | _ => none
    | _ => []

def isOptionalPackage (package : TomlTable) : Bool :=
  match package.get? "optional" with
  | some (.bool true) => true
  | _ => false

def localSourceKeys : List String :=
  ["directory", "editable", "file", "git", "path", "url", "virtual", "workspace"]

def localSourceTypes : List String := ["directory", "file", "git", "path", "url"]

section Lock

variable (platform : Platform)

def normalizeName (value : String) : String :=
  platform.lower (String.ofList (collapseSeparators false value.toList))

def normalizeGroup : TomlValue → String
  | .str value => platform.lower (strip value)
  | _ => ""

def isLocalLockPackage (package : TomlTable) : Bool :=
  match package.get? "source" with
  | some (.table source) =>
      if localSourceKeys.any fun key => (TomlTable.get? source key).isSome then true
      else match TomlTable.get? source "type" with
        | some (.str sourceType) => platform.lower (strip sourceType) ∈ localSourceTypes
        | _ => false
  | _ => ["editable", "develop"].any fun key => (package.get? key).any TomlValue.truthy

/-- `_is_selected_dependency_group`. -/
def isSelectedDependencyGroup (sourceName packageName : String) (package : TomlTable) :
    Except LockError Bool :=
  let invalid (key : String) : Except LockError Bool :=
    .error (.sourceError s!"{sourceName}: package {packageName} has invalid {key}")
  match package.get? "groups" with
  | some (.array groups) =>
      let normalized := groups.map (normalizeGroup platform)
      if "" ∈ normalized then invalid "groups"
      else .ok (normalized.any fun group => group ∈ ["default", "main"])
  | some _ => invalid "groups"
  | none =>
      match package.get? "group" with
      | some (.str raw) =>
          if raw = "" then invalid "group"
          else .ok (normalizeGroup platform (.str raw) ∈ ["default", "main"])
      | some _ => invalid "group"
      | none =>
          match package.get? "category" with
          | some (.str raw) =>
              if raw = "" then invalid "category"
              else .ok (normalizeGroup platform (.str raw) ∈ ["default", "main"])
          | some _ => invalid "category"
          | none => .ok true

/-- A loop over markers that stops at the first with the value `decisive`. -/
def firstMarker (decisive : Bool) (sourceName packageName : String) :
    List String → Except LockError Bool
  | [] => .ok (!decisive)
  | marker :: markers =>
      match evaluateMarker platform marker with
      | none => .error (.sourceError
          s!"{sourceName}: package {packageName} has unsupported marker: {marker}")
      | some value =>
          if value = decisive then .ok decisive
          else firstMarker decisive sourceName packageName markers

/-- `_marker_allows_current_environment`. -/
def markerAllowsCurrentEnvironment (sourceName packageName : String) (package : TomlTable) :
    Except LockError Bool := do
  let markers := markerValuesForKeys package ["marker", "markers"]
  let resolutionMarkers := markerValuesForKeys package ["resolution-markers"]
  if ← firstMarker platform false sourceName packageName markers then
    if resolutionMarkers = [] then .ok true
    else firstMarker platform true sourceName packageName resolutionMarkers
  else .ok false

/-! ## Edges -/

/-- The extras under one key of `_requested_extras`. -/
def extrasUnderKey (sourceName context : String) (raw : Option TomlValue) :
    Except LockError (Finset String) :=
  let invalid : LockError := .sourceError s!"{sourceName}: invalid {context} extra"
  match raw with
  | none => .ok ∅
  | some (.str raw) => if raw = "" then .error invalid else .ok {normalizeName platform raw}
  | some (.array items) => do
      let names ← items.mapM fun value =>
        match value with
        | .str value => if value = "" then .error invalid else .ok (normalizeName platform value)
        | _ => .error invalid
      .ok names.toFinset
  | some _ => .error invalid

/-- `_requested_extras`. -/
def requestedExtras (sourceName context : String) (item : TomlTable) :
    Except LockError (Finset String) := do
  let extras ← extrasUnderKey platform sourceName context (item.get? "extra")
  let moreExtras ← extrasUnderKey platform sourceName context (item.get? "extras")
  .ok (extras ∪ moreExtras)

/-- `_dependency_edge_from_item`. -/
def dependencyEdgeFromItem (sourceName context : String) :
    TomlValue → Except LockError (Option DependencyEdge)
  | .str item =>
      let name := requirementName item
      if name = "" then
        .error (.sourceError s!"{sourceName}: invalid {context} dependency")
      else .ok (some ⟨normalizeName platform name, ∅⟩)
  | .table item =>
      match TomlTable.get? item "name" with
      | some (.str raw) => do
          if ← markerAllowsCurrentEnvironment platform sourceName raw item then
            let extras ← requestedExtras platform sourceName context item
            if raw = "" then .error (.sourceError s!"{sourceName}: invalid {context} dependency")
            else .ok (some ⟨normalizeName platform raw, extras⟩)
          else .ok none
      | _ => .error (.sourceError s!"{sourceName}: invalid {context} dependency")
  | _ => .error (.sourceError s!"{sourceName}: invalid {context} dependency")

mutual

/-- `_dependency_edges_from_object`, of a value other than `None`. -/
def dependencyEdges (sourceName context : String) : TomlValue → Except LockError (Finset DependencyEdge)
  | .table groups => groupEdges sourceName context groups
  | .array items => do
      let edges ← items.mapM (dependencyEdgeFromItem platform sourceName context)
      .ok edges.reduceOption.toFinset
  | _ => .error (.sourceError s!"{sourceName}: invalid {context}")

def groupEdges (sourceName context : String) :
    List (String × TomlValue) → Except LockError (Finset DependencyEdge)
  | [] => .ok ∅
  | (groupName, dependencies) :: groups =>
      if groupName = "" then .error (.sourceError s!"{sourceName}: invalid {context} group")
      else do
        let edges ← dependencyEdges sourceName s!"{context}.{groupName}" dependencies
        let others ← groupEdges sourceName context groups
        .ok (edges ∪ others)

end

/-- `_dependency_edges_from_object`. -/
def dependencyEdgesFromObject (sourceName context : String) :
    Option TomlValue → Except LockError (Finset DependencyEdge)
  | none => .ok ∅
  | some value => dependencyEdges platform sourceName context value

/-- The order in which a set is iterated over. -/
structure SetOrder (α : Type) where
  items : Finset α → List α
  nodup : ∀ s, (items s).Nodup
  mem_items : ∀ s a, a ∈ items s ↔ a ∈ s

def unions (edges : List (Finset DependencyEdge)) : Finset DependencyEdge := edges.foldr (· ∪ ·) ∅

/-- `_optional_dependency_edges`. The last of two names of one extra counts. -/
def optionalDependencyEdges (order : SetOrder String) (sourceName packageName : String)
    (extras : Finset String) (package : TomlTable) : Except LockError (Finset DependencyEdge) :=
  if extras = ∅ then .ok ∅
  else
    let invalid : LockError :=
      .sourceError s!"{sourceName}: package {packageName} has invalid optional-dependencies"
    match package.get? "optional-dependencies" with
    | none => .ok ∅
    | some (.table optional) =>
        if optional.any fun entry => entry.1 = "" then .error invalid
        else do
          let optionalByExtra :=
            OrderedDict.ofPairs (optional.map (Prod.map (normalizeName platform) id))
          let edges ← (order.items extras).mapM fun extra =>
            dependencyEdgesFromObject platform sourceName
              s!"package {packageName} optional-dependencies.{extra}" (optionalByExtra.get? extra)
          .ok (unions edges)
    | some _ => .error invalid

/-! ## The closure -/

/-- Where a set is iterated over: the roots, and in each round the dependencies, the requested
extras and their dependencies of one variant of the package. -/
inductive Site where
  | roots
  | dependencies (round variant : ℕ)
  | extras (round variant : ℕ)
  | optionalDependencies (round variant : ℕ)

/-- The orders of one run. -/
structure HashOrder where
  edges : Site → SetOrder DependencyEdge
  extras : Site → SetOrder String

/-- `_lock_packages_by_name`, with the name of each entry. -/
def lockPackagesByName (sourceName : String) (packages : List TomlValue) :
    Except LockError (OrderedDict String (List (String × TomlTable))) := do
  let named ← packages.zipIdx.mapM fun (package, index) =>
    match package with
    | .table package =>
        match TomlTable.get? package "name" with
        | some (.str rawName) =>
            if rawName ≠ "" then .ok (some (normalizeName platform rawName, package)) else .ok none
        | _ => .ok none
    | _ => .error (.sourceError s!"{sourceName}: package entry {index} must be a table")
  .ok (OrderedDict.groupBy Prod.fst named.reduceOption)

section Closure

variable (packages : OrderedDict String (List (String × TomlTable))) (sourceName : String)

/-- `_active_lock_package_variants`. -/
def activeLockPackageVariants (name : String) : Except LockError (List TomlTable) := do
  let variants ← ((packages.get? name).getD []).mapM fun (_, package) => do
    let active ← markerAllowsCurrentEnvironment platform sourceName name package
    .ok (if active then some package else none)
  .ok variants.reduceOption

/-- The state of the loop of `_dependency_closure`. The top of the stack comes first. -/
structure ClosureState where
  included : Finset String
  processed : Finset DependencyEdge
  stack : List DependencyEdge
  rounds : ℕ

/-- What one active variant adds to the stack, in this order. -/
def foundEdges (order : HashOrder) (round : ℕ) (edge : DependencyEdge)
    (processed : Finset DependencyEdge) (package : TomlTable) (variant : ℕ) :
    Except LockError (List DependencyEdge) := do
  let dependencies ← dependencyEdgesFromObject platform sourceName
    s!"package {edge.name} dependencies" (package.get? "dependencies")
  let optional ← optionalDependencyEdges platform (order.extras (.extras round variant)) sourceName
    edge.name edge.extras package
  .ok (((order.edges (.dependencies round variant)).items dependencies ++
    (order.edges (.optionalDependencies round variant)).items optional).filter (· ∉ processed))

/-- One round of the loop of `_dependency_closure`. -/
def closureRound (order : HashOrder) (s : ClosureState) : Except LockError ClosureState :=
  match s.stack with
  | [] => .ok s
  | edge :: stack =>
      if edge ∈ s.processed then .ok { s with stack := stack, rounds := s.rounds + 1 }
      else do
        let processed := insert edge s.processed
        let activeVariants ← activeLockPackageVariants platform packages sourceName edge.name
        if activeVariants = [] then
          .ok { s with processed := processed, stack := stack, rounds := s.rounds + 1 }
        else
          let found ← activeVariants.zipIdx.mapM fun (package, variant) =>
            foundEdges platform sourceName order s.rounds edge processed package variant
          .ok
            { included := insert edge.name s.included
              processed := processed
              stack := found.flatten.reverse ++ stack
              rounds := s.rounds + 1 }

/-- `_dependency_closure`. -/
def dependencyClosure (fuel : ℕ) (order : HashOrder) (roots : Finset DependencyEdge) :
    Except LockError (Finset String) := do
  let stack := ((order.edges .roots).items roots).reverse
  let final ← Worklist.loop (fun s => s.stack.isEmpty)
    (closureRound platform packages sourceName order) .outOfFuel fuel ⟨∅, ∅, stack, 0⟩
  .ok final.included

end Closure

/-! ## Pinned lines -/

/-- The roots of one package entry: its dependencies, and all that is not installed by default. -/
def packageRoots (sourceName : String) (package : TomlTable) :
    Except LockError (Finset DependencyEdge × Finset DependencyEdge) := do
  let edges (key : String) := dependencyEdgesFromObject platform sourceName key (package.get? key)
  let dependencies ← edges "dependencies"
  let devDependencies ← edges "dev-dependencies"
  let dependencyGroups ← edges "dependency-groups"
  let optionalDependencies ← edges "optional-dependencies"
  .ok (dependencies, devDependencies ∪ dependencyGroups ∪ optionalDependencies)

/-- Whether an entry is known not to be the project. -/
def isOtherPackage (projectName : Option String) (package : TomlTable) : Bool :=
  match projectName, package.get? "name" with
  | some project, some (.str name) =>
      normalizeName platform name ≠ normalizeName platform project
  | _, _ => false

/-- The roots of one entry of a lock file, default and others. -/
def entryRoots (sourceName : String) (projectName : Option String) :
    TomlValue → Except LockError (Finset DependencyEdge × Finset DependencyEdge)
  | .table package =>
      if isOtherPackage platform projectName package then .ok (∅, ∅)
      else packageRoots platform sourceName package
  | _ => .ok (∅, ∅)

/-- The default and the other roots of a lock file. -/
def lockRoots (sourceName : String) (projectName : Option String) (packages : List TomlValue) :
    Except LockError (Finset DependencyEdge × Finset DependencyEdge) := do
  let roots ← packages.mapM (entryRoots platform sourceName projectName)
  .ok (unions (roots.map Prod.fst), unions (roots.map Prod.snd))

/-- What the two closures of a run are computed with. -/
structure ClosureRun where
  fuel : ℕ
  defaultOrder : HashOrder
  nonDefaultOrder : HashOrder

/-- `_excluded_lock_package_names`. -/
def excludedLockPackageNames (run : ClosureRun) (sourceName : String)
    (projectName : Option String) (payload : TomlTable) : Except LockError (Finset String) :=
  if sourceName ≠ "uv.lock" then .ok ∅
  else
    match payload.get? "package" with
    | some (.array packages) => do
        let packagesByName ← lockPackagesByName platform sourceName packages
        let (defaultRoots, nonDefaultRoots) ← lockRoots platform sourceName projectName packages
        let defaultClosure ← dependencyClosure platform packagesByName sourceName run.fuel
          run.defaultOrder defaultRoots
        match projectName with
        | some project =>
            .ok ((packagesByName.keys.toFinset \ defaultClosure) \ {normalizeName platform project})
        | none => do
            let nonDefaultClosure ← dependencyClosure platform packagesByName sourceName run.fuel
              run.nonDefaultOrder nonDefaultRoots
            .ok (nonDefaultClosure \ defaultClosure)
    | _ => .ok ∅

/-- The name and the version that one package entry pins. -/
def pinnedEntry (sourceName : String) (selfName : Option String) (excludedNames : Finset String)
    (package : TomlTable) (name version : String) : Except LockError (Option (String × String)) := do
  if selfName.any fun self => normalizeName platform name = normalizeName platform self then .ok none
  else if isLocalLockPackage platform package then .ok none
  else if normalizeName platform name ∈ excludedNames then .ok none
  else if isOptionalPackage package then .ok none
  else if ← isSelectedDependencyGroup platform sourceName name package then
    if ← markerAllowsCurrentEnvironment platform sourceName name package then
      .ok (some (name, version))
    else .ok none
  else .ok none

/-- The name and the version that a package entry must have. -/
def packageIdentity (sourceName : String) (index : ℕ) (package : TomlTable) :
    Except LockError (String × String) := do
  let name ← match package.get? "name" with
    | some (.str name) =>
        if name ≠ "" then .ok name
        else .error (.sourceError s!"{sourceName}: package entry {index} is missing name")
    | _ => .error (.sourceError s!"{sourceName}: package entry {index} is missing name")
  match package.get? "version" with
  | some (.str version) =>
      if version ≠ "" then .ok (name, version)
      else .error (.sourceError s!"{sourceName}: package {name} is missing version")
  | _ => .error (.sourceError s!"{sourceName}: package {name} is missing version")

/-- The round of the loop over the package entries for one entry and its index. -/
def pinnedFromEntry (sourceName : String) (selfName : Option String)
    (excludedNames : Finset String) :
    TomlValue × ℕ → Except LockError (Option (String × String))
  | (.table package, index) => do
      let (name, version) ← packageIdentity sourceName index package
      pinnedEntry platform sourceName selfName excludedNames package name version
  | (_, index) => .error (.sourceError s!"{sourceName}: package entry {index} must be a table")

/-- `_pinned_lines_from_lock`, of a lock file that could be read. -/
def pinnedLinesFromLock (run : ClosureRun) (sourceName : String) (selfName : Option String)
    (payload : TomlTable) : Except LockError (List String) :=
  match payload.get? "package" with
  | none => .ok []
  | some (.array packages) => do
      let excludedNames ← excludedLockPackageNames platform run sourceName selfName payload
      let pinned ← packages.zipIdx.mapM
        (pinnedFromEntry platform sourceName selfName excludedNames)
      .ok ((KeyedSort.sortBy toLex pinned.reduceOption.dedup).map fun entry =>
        entry.1 ++ "==" ++ entry.2)
  | some _ => .error (.sourceError s!"{sourceName}: package entries must be a list")

end Lock

end SemanticCi.Dependencies
