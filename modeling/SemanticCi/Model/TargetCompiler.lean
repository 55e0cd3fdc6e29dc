import SemanticCi.Model.PathSchema
import SemanticCi.Model.MatchSchema

/-! Compilation of a target: validation of every constraint, normalization of the literals,
and the template constraints of the change kind in front of the user's own. -/

namespace SemanticCi.Compiler

open SemanticCi.Python SemanticCi.StateSchema SemanticCi.Framework SemanticCi.Matching

inductive ConstraintSource where
  | template
  | user
deriving DecidableEq

def ConstraintSource.value : ConstraintSource → String
  | .template => "template"
  | .user => "user"

structure CompiledConstraint where
  id : String
  kind : ConstraintKind
  target : TargetPath
  operator : Operator
  expected : PyValue
  severity : Severity
  unknownPolicy : UnknownPolicy
  tolerance : Option PyFloat
  evidenceRequired : Bool
  scope : PyValue
  source : ConstraintSource

structure CompiledTarget where
  intent : String
  primaryKind : ChangeKind
  allowedSecondaryKinds : List ChangeKind
  scope : List (String × List String)
  constraints : List CompiledConstraint
  apiSurfaceAllowChanges : List APISurfaceAllowRule := []
  effectAllowNew : List EffectAllowRule := []

/-- A `CompileError`, or a Python error that escapes the compiler. -/
inductive CompileError where
  | compile (message : String) (path : Option String)
  | crash (error : PyError)

/-! ## Templates -/

private def templateConstraint (id : String) (target : TargetPath) (operator : Operator)
    (expected : PyValue := .none) : CompiledConstraint where
  id := id
  kind := .delta
  target := target
  operator := operator
  expected := expected
  severity := .hard
  unknownPolicy := .fail
  tolerance := none
  evidenceRequired := false
  scope := .none
  source := .template

/-- `{"added": (), "removed": ()}`. -/
def emptyChanges : PyValue :=
  .dict [(.str "added", .tuple []), (.str "removed", .tuple [])]

def templateConstraints : ChangeKind → List CompiledConstraint
  | .refactor =>
      [templateConstraint "template:refactor:api_surface_unchanged" ["api_surface_public"]
          .equalsBaseline,
        templateConstraint "template:refactor:type_relations_unchanged" ["type_relations"]
          .equalsBaseline,
        templateConstraint "template:refactor:effects_unchanged" ["effect_changes"] .equals
          emptyChanges,
        templateConstraint "template:refactor:test_surface_unchanged" ["test_surface"]
          .equalsBaseline]
  | .bugfix =>
      [templateConstraint "template:bugfix:api_surface_unchanged" ["api_surface_public"]
          .equalsBaseline,
        templateConstraint "template:bugfix:no_new_effects" ["effect_changes", "added"] .equals
          (.tuple [])]
  | .feature =>
      [templateConstraint "template:feature:no_removed_api"
          ["api_surface_delta", "removed_public"] .equals (.tuple []),
        templateConstraint "template:feature:no_new_effects" ["effect_changes", "added"] .equals
          (.tuple [])]
  | .testUpdate =>
      [templateConstraint "template:test_update:api_surface_unchanged" ["api_surface_public"]
          .equalsBaseline,
        templateConstraint "template:test_update:effects_unchanged" ["effect_changes"] .equals
          emptyChanges,
        templateConstraint "template:test_update:imports_unchanged" ["imports"] .equalsBaseline]
  | .generic => []

/-! ## Validation -/

private def constraintField (index : ℕ) (name : String) : Option String :=
  some (s!"constraints[{index}]." ++ name)

/-- The three checks on a constraint whose target exists. -/
def validateConstraint (index : ℕ) (c : Constraint) : Except CompileError Unit :=
  match checkOperatorTargetCompatibility c.kind c.target c.operator with
  | some mismatch =>
      .error (.compile (mismatch.message c.target c.operator) (constraintField index "operator"))
  | none =>
      match checkTypeCompatibility c.target c.operator c.expected with
      | some mismatch =>
          .error (.compile mismatch.message (constraintField index
            (if mismatch.side = .expected then "expected" else "target")))
      | none =>
          match normalizeCollectionExpected c.target c.operator c.expected with
          | .error (.schema message) =>
              .error (.compile message (constraintField index "expected"))
          | .error (.crash e) => .error (.crash e)
          | .ok _ => .ok ()

/-- One turn of the loop over the constraints. Repair constraints only need a target. -/
def validateTarget (index : ℕ) (c : Constraint) : Except CompileError Unit :=
  if c.target = [""] then
    .error (.compile "constraint target must not be empty." (constraintField index "target"))
  else if c.kind = .repair then .ok ()
  else
    let allowed := if c.kind = .state then validStateTargetPaths else validDeltaTargetPaths
    if c.target ∈ allowed ∨ isOpenPath c.target then validateConstraint index c
    else
      let label := if c.kind = .state then "CodeState" else "CodeState/CodeStateDelta"
      .error (.compile (s!"constraint target {strRepr c.target.text} does not exist on {label}." ++
        Difflib.didYouMean (suggestTargets c.target allowed)) (constraintField index "target"))

def validateConstraintsFrom : ℕ → List Constraint → Except CompileError Unit
  | _, [] => .ok ()
  | index, c :: rest => do
      validateTarget index c
      validateConstraintsFrom (index + 1) rest

def validateApiRules : ℕ → List APISurfaceAllowRule → Except CompileError Unit
  | _, [] => .ok ()
  | index, rule :: rest =>
      if rule.fqn = none ∧ rule.fqnPrefix = none then
        .error (.compile "api_surface.allow_changes entries require fqn or fqn_prefix."
          (some s!"api_surface.allow_changes[{index}]"))
      else if rule.fqn = some "" ∨ rule.fqnPrefix = some "" then
        .error (.compile "api_surface.allow_changes values must not be empty."
          (some s!"api_surface.allow_changes[{index}]"))
      else validateApiRules (index + 1) rest

def validateEffectRules : ℕ → List EffectAllowRule → Except CompileError Unit
  | _, [] => .ok ()
  | index, rule :: rest =>
      if rule.fqn = none ∧ rule.effectClass = none then
        .error (.compile "effects.allow_new entries require fqn or effect_class."
          (some s!"effects.allow_new[{index}]"))
      else validateEffectRules (index + 1) rest

def compileApiSurfaceAllowChanges (svp : TargetSVP) : List APISurfaceAllowRule :=
  (svp.apiSurface.map (·.allowChanges)).getD []

def compileEffectAllowNew (svp : TargetSVP) : List EffectAllowRule :=
  (svp.effects.map (·.allowNew)).getD []

def validateTargetSvpValues (svp : TargetSVP) : Except CompileError Unit := do
  validateConstraintsFrom 0 svp.constraints
  validateApiRules 0 (compileApiSurfaceAllowChanges svp)
  validateEffectRules 0 (compileEffectAllowNew svp)

/-! ## Compilation -/

mutual

/-- `_freeze_expected`: lists become tuples; what is inside a mapping stays. -/
def freezeExpected : PyValue → PyValue
  | .seq .list items => .tuple (freezeList items)
  | value => value

def freezeList : List PyValue → List PyValue
  | [] => []
  | x :: xs => freezeExpected x :: freezeList xs

end

/-- The literal of a constraint after the Match Schema; a repair literal is left alone. -/
def normalizedExpected (c : Constraint) : Except CompileError PyValue :=
  if c.kind = .repair then .ok c.expected
  else
    match normalizeCollectionExpected c.target c.operator c.expected with
    | .ok expected => .ok expected
    | .error (.schema message) => .error (.compile message none)
    | .error (.crash e) => .error (.crash e)

def compileUserConstraint (c : Constraint) : Except CompileError CompiledConstraint := do
  let expected ← normalizedExpected c
  return {
    id := c.id
    kind := c.kind
    target := c.target
    operator := c.operator
    expected := freezeExpected expected
    severity := c.severity
    unknownPolicy := c.unknownPolicy
    tolerance := c.tolerance
    evidenceRequired := c.evidenceRequired
    scope := c.scope
    source := .user }

/-- `_validate_unique_ids`: `seen` maps an id to where it was first met. -/
def validateUniqueIds (seen : List (String × String)) (templates users : ℕ) :
    List CompiledConstraint → Except CompileError Unit
  | [] => .ok ()
  | c :: rest =>
      let index := if c.source = .template then templates else users
      let location := s!"{c.source.value}[{index}]"
      match seen.lookup c.id with
      | some previous =>
          .error (.compile (s!"duplicate constraint id {strRepr c.id}; first occurrence at " ++
            s!"{previous}, second occurrence at {location}") (some "constraints"))
      | none =>
          validateUniqueIds ((c.id, location) :: seen)
            (if c.source = .template then templates + 1 else templates)
            (if c.source = .template then users else users + 1) rest

def freezeChangeScope (scope : List (String × List String)) : List (String × List String) :=
  scope.insertionSort fun a b => a.1 ≤ b.1

def compileTargetSvp (svp : TargetSVP) : Except CompileError CompiledTarget := do
  validateTargetSvpValues svp
  let compiledUser ← svp.constraints.mapM compileUserConstraint
  let constraints := templateConstraints svp.change.primaryKind ++ compiledUser
  validateUniqueIds [] 0 0 constraints
  return {
    intent := svp.intent
    primaryKind := svp.change.primaryKind
    allowedSecondaryKinds := svp.change.allowedSecondaryKinds
    scope := freezeChangeScope svp.change.scope
    constraints := constraints
    apiSurfaceAllowChanges := compileApiSurfaceAllowChanges svp
    effectAllowNew := compileEffectAllowNew svp }

end SemanticCi.Compiler
