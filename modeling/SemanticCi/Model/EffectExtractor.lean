import SemanticCi.Library.OrderedDict
import SemanticCi.Model.PackageTree
import SemanticCi.Model.StateSchema

/-! The effects of one module (`effects/python_effect_extractor.py`, `effects/effect_db.py`):
calls that resolve to an entry of the signature database, and mutations of module state. -/

namespace SemanticCi.Extraction

open SemanticCi.Python SemanticCi.Python.Ast SemanticCi.StateSchema OrderedDict

/-! ## The signature database -/

inductive ResolutionLevel
  | directCall
  | importedAlias
  | statementLevel
deriving DecidableEq

def ResolutionLevel.value : ResolutionLevel → String
  | .directCall => "direct_call"
  | .importedAlias => "imported_alias"
  | .statementLevel => "statement_level"

/-- `EffectSignature`, with the `call` of its match. -/
structure EffectSignature where
  id : String
  language : String
  call : String
  effectClass : EffectClass

/-- `_build_call_index`: the first Python entry of every call. -/
def buildCallIndex (signatures : List EffectSignature) : OrderedDict String EffectSignature :=
  indexBy (·.call) (signatures.filter fun signature => signature.language = "python")

/-! ## Names -/

/-- `_resolve_dotted_name`. -/
def resolveDottedName : Node → Option String
  | .name _ id => some id
  | .attributeRef _ value attr => (resolveDottedName value).map (· ++ "." ++ attr)
  | _ => none

/-- `text.split(".", 1)[0]`. -/
def headSegment (text : String) : String := String.ofList (text.toList.takeWhile (· ≠ '.'))

/-- The nodes inside a target that are targets themselves. -/
def targetParts : Node → List Node
  | .tuple _ elts => elts
  | .list _ elts => elts
  | .starred _ value => [value]
  | _ => []

theorem mem_children_of_mem_targetParts {c n : Node} (h : c ∈ targetParts n) :
    c ∈ n.children := by
  cases n <;> simp only [targetParts, List.not_mem_nil] at h <;> exact h

/-- The recursion into tuple, list and starred targets. -/
def targets {α : Type} (here : Node → List α) : Visitor Unit Node α where
  here _ n := here n
  next _ n := (targetParts n).map fun c => ((), c)
  descends := by
    intro _ n step hstep
    obtain ⟨c, hc, rfl⟩ := List.mem_map.mp hstep
    exact Node.sizeOf_lt_of_mem_children (mem_children_of_mem_targetParts hc)

/-- `_assign_target_names`. -/
def assignTargetNames (target : Node) : List String :=
  (targets fun
    | .name _ id => [id]
    | _ => []).run () target

/-- `_collect_module_scope_shadows`. -/
def collectModuleScopeShadows (stmts : List Node) : List String :=
  scanModuleScope (fun
    | .assign _ targets _ => targets.flatMap assignTargetNames
    | .annAssign _ target _ (some _) => assignTargetNames target
    | .augAssign _ target _ _ => assignTargetNames target
    | .exceptHandler _ _ (some name) _ => [name]
    | .forLoop _ _ target _ _ _ => assignTargetNames target
    | .withStmt _ _ items _ => items.flatMap fun
      | .withitem _ (some optionalVars) => assignTargetNames optionalVars
      | _ => []
    | _ => []) stmts

/-- The bindings of one `import` statement, in turn. -/
def bindImport (aliasMap : OrderedDict String String) (names : List Alias) :
    OrderedDict String String :=
  names.foldl (fun aliasMap item =>
    match item.asname with
    | some asname => aliasMap.assign asname item.name
    | none => aliasMap.setDefault (headSegment item.name) (headSegment item.name)) aliasMap

/-- The bindings of one absolute `from` import, in turn. -/
def bindImportFrom (module : String) (aliasMap : OrderedDict String String) (names : List Alias) :
    OrderedDict String String :=
  names.foldl (fun aliasMap item =>
    if item.name = "*" then aliasMap
    else aliasMap.assign (item.asname.getD item.name) (module ++ "." ++ item.name)) aliasMap

/-- `_collect_alias_map`. -/
def collectAliasMap (body : List Node) : OrderedDict String String :=
  let aliasMap := body.foldl (fun aliasMap stmt =>
    match stmt with
    | .importStmt _ names => bindImport aliasMap names
    | .importFrom _ (some module) names 0 => bindImportFrom module aliasMap names
    | _ => aliasMap) empty
  let shadowed := collectModuleScopeShadows body
  aliasMap.filter fun entry => entry.1 ∉ shadowed

/-- `_resolve_call`. -/
def resolveCall (raw : String) (aliasMap : OrderedDict String String) :
    String × ResolutionLevel :=
  let head := headSegment raw
  let tail := String.ofList (raw.toList.drop (head.length + 1))
  match aliasMap.get? head with
  | none => (raw, .directCall)
  | some canonicalHead =>
    if canonicalHead = head then (raw, .directCall)
    else (if tail ≠ "" then canonicalHead ++ "." ++ tail else canonicalHead, .importedAlias)

/-! ## Calls -/

/-- A call that resolves to a signature, with the scopes around it from the outside in. -/
structure CallSite where
  scope : List String
  effectClass : EffectClass
  raw : String
  resolved : String
  level : ResolutionLevel
  line : ℕ
deriving DecidableEq

/-- `visit_Call`, without the calls inside the node. -/
def callSite (index : OrderedDict String EffectSignature) (aliasMap : OrderedDict String String)
    (scope : List String) : Node → List CallSite
  | .call pos func _ _ =>
    match resolveDottedName func with
    | none => []
    | some raw =>
      let (resolved, level) := resolveCall raw aliasMap
      match index.get? resolved with
      | none => []
      | some signature =>
        [{ scope := scope
           effectClass := signature.effectClass
           raw := raw
           resolved := resolved
           level := level
           line := pos.lineno }]
  | _ => []

/-- The nodes that `_CallEffectVisitor` visits from a node, each in its scope: only a body is
in the scope of its definition. -/
def visitedNodes (scope : List String) : Node → List (List String × Node)
  | .functionDef _ _ name args body decoratorList returns typeParams =>
    (decoratorList ++ args :: returns.toList ++ typeParams).map (scope, ·) ++
      body.map (scope ++ [name], ·)
  | .classDef _ name bases keywords body decoratorList typeParams =>
    (decoratorList ++ bases ++ keywords ++ typeParams).map (scope, ·) ++
      body.map (scope ++ [name], ·)
  | .lambda _ args body => [(scope, args), (scope ++ ["<lambda>"], body)]
  | n => n.children.map (scope, ·)

theorem mem_children_of_mem_visitedNodes {scope : List String} {n : Node}
    {step : List String × Node} (h : step ∈ visitedNodes scope n) : step.2 ∈ n.children := by
  obtain ⟨s, c⟩ := step
  cases n with
  | functionDef =>
    simp only [visitedNodes, Node.children, List.mem_append, List.mem_map, List.mem_cons,
      Prod.mk.injEq] at h ⊢
    grind
  | classDef =>
    simp only [visitedNodes, Node.children, List.mem_append, List.mem_map, Prod.mk.injEq] at h ⊢
    grind
  | lambda =>
    simp only [visitedNodes, Node.children, List.mem_cons, Prod.mk.injEq] at h ⊢
    grind
  | _ =>
    obtain ⟨w, hw, hstep⟩ := List.mem_map.mp h
    cases hstep
    exact hw

/-- `_CallEffectVisitor`. -/
def callEffectVisitor (index : OrderedDict String EffectSignature)
    (aliasMap : OrderedDict String String) : Visitor (List String) Node CallSite where
  here := callSite index aliasMap
  next := visitedNodes
  descends _ _ _ h := Node.sizeOf_lt_of_mem_children (mem_children_of_mem_visitedNodes h)

/-- `_enclosing_fqn`. -/
def enclosingFqn (moduleFqn : String) (scope : List String) : String :=
  if scope = [] then if moduleFqn ≠ "" then moduleFqn else "<module>"
  else
    let localFqn := ".".intercalate scope
    if moduleFqn ≠ "" then moduleFqn ++ "." ++ localFqn else localFqn

/-- The entry of a call. -/
def callEntry (filename moduleFqn : String) (site : CallSite) : EffectEntry where
  fqn := enclosingFqn moduleFqn site.scope
  effectClass := site.effectClass
  confidence := some 1
  evidence := .object [("raw_call", .str site.raw), ("resolved_call", .str site.resolved),
    ("file", .str filename), ("line", .int site.line),
    ("resolution_level", .str site.level.value)]

/-- `_extract_call_effects`. -/
def extractCallEffects (index : OrderedDict String EffectSignature)
    (aliasMap : OrderedDict String String) (filename moduleFqn : String) (tree : Node) :
    List EffectEntry :=
  ((callEffectVisitor index aliasMap).run [] tree).map (callEntry filename moduleFqn)

/-! ## Mutations -/

inductive MutationKind
  | moduleReassignment
  | moduleSubscriptAssign
  | moduleAttributeAssign
  | moduleDelete
  | moduleSubscriptDelete
  | moduleAttributeDelete
  | globalDeclaration
  | nonlocalDeclaration
deriving DecidableEq

def MutationKind.value : MutationKind → String
  | .moduleReassignment => "module_reassignment"
  | .moduleSubscriptAssign => "module_subscript_assign"
  | .moduleAttributeAssign => "module_attribute_assign"
  | .moduleDelete => "module_delete"
  | .moduleSubscriptDelete => "module_subscript_delete"
  | .moduleAttributeDelete => "module_attribute_delete"
  | .globalDeclaration => "global_declaration"
  | .nonlocalDeclaration => "nonlocal_declaration"

/-- What is in front of the name in the `fqn`. -/
def MutationKind.marker : MutationKind → String
  | .globalDeclaration => "global:"
  | .nonlocalDeclaration => "nonlocal:"
  | _ => "module:"

structure MutationSite where
  kind : MutationKind
  target : String
  line : ℕ
deriving DecidableEq

/-- `_ModuleBindingEvent`. -/
inductive ModuleBindingEvent
  | stmt (stmt : Node)
  | nameBinding (name : String) (line : ℕ)

/-- `_iter_module_scope_binding_events`. -/
def iterModuleScopeBindingEvents (stmts : List Node) : List ModuleBindingEvent :=
  scanModuleScope (fun
    | .exceptHandler pos _ (some name) _ => [.nameBinding name pos.lineno]
    | stmt@(.importStmt ..) => [.stmt stmt]
    | stmt@(.importFrom ..) => [.stmt stmt]
    | stmt@(.assign ..) => [.stmt stmt]
    | stmt@(.annAssign ..) => [.stmt stmt]
    | stmt@(.augAssign ..) => [.stmt stmt]
    | stmt@(.delete ..) => [.stmt stmt]
    | _ => []) stmts

/-- `_import_bound_names`. -/
def importBoundNames : Node → List String
  | .importStmt _ names => names.map fun item => item.asname.getD (headSegment item.name)
  | .importFrom _ _ names _ =>
    (names.filter fun item => item.name ≠ "*").map fun item => item.asname.getD item.name
  | _ => []

/-- The kinds of a classified target. -/
inductive TargetKind
  | name
  | subscript
  | attribute
deriving DecidableEq

/-- `_attr_subscript_root_name`. -/
def attrSubscriptRootName : Node → Option String
  | .subscript _ value _ => attrSubscriptRootName value
  | .attributeRef _ value _ => attrSubscriptRootName value
  | .name _ id => some id
  | _ => none

/-- `_classify_assignment_target`. -/
def classifyAssignmentTarget (target : Node) : List (TargetKind × String) :=
  (targets fun
    | .name _ id => [(.name, id)]
    | .subscript _ value _ => ((attrSubscriptRootName value).map (.subscript, ·)).toList
    | .attributeRef _ value _ => ((attrSubscriptRootName value).map (.attribute, ·)).toList
    | _ => []).run () target

/-- `_statement_target_classifications`. -/
def statementTargetClassifications : Node → List (TargetKind × String)
  | .assign _ targets _ => targets.flatMap classifyAssignmentTarget
  | .annAssign _ target _ (some _) => classifyAssignmentTarget target
  | .augAssign _ target _ _ => classifyAssignmentTarget target
  | .delete _ targets => targets.flatMap classifyAssignmentTarget
  | _ => []

/-- `_mutation_kind_for`. -/
def mutationKindFor (stmt : Node) (kind : TargetKind) : MutationKind :=
  match stmt, kind with
  | .delete .., .name => .moduleDelete
  | .delete .., .subscript => .moduleSubscriptDelete
  | .delete .., .attribute => .moduleAttributeDelete
  | _, .name => .moduleReassignment
  | _, .subscript => .moduleSubscriptAssign
  | _, .attribute => .moduleAttributeAssign

/-- `stmt.lineno`. -/
def stmtLine : Node → ℕ
  | .assign pos .. => pos.lineno
  | .annAssign pos .. => pos.lineno
  | .augAssign pos .. => pos.lineno
  | .delete pos .. => pos.lineno
  | _ => 0

/-- The loop over the classified targets of one statement, with the names seen after it. -/
def targetMutations (stmt : Node) (seen : List String) :
    List (TargetKind × String) → List MutationSite × List String
  | [] => ([], seen)
  | (kind, baseName) :: rest =>
    if kind = .name ∧ baseName ∉ seen then targetMutations stmt (baseName :: seen) rest
    else
      let (sites, seen) := targetMutations stmt seen rest
      ({ kind := mutationKindFor stmt kind, target := baseName, line := stmtLine stmt } :: sites,
        seen)

/-- The first loop of `_extract_global_mutations`. -/
def moduleMutations (seen : List String) : List ModuleBindingEvent → List MutationSite
  | [] => []
  | .nameBinding name line :: rest =>
    if name ∈ seen then
      { kind := .moduleReassignment, target := name, line := line } :: moduleMutations seen rest
    else moduleMutations (name :: seen) rest
  | .stmt stmt :: rest =>
    match stmt with
    | .importStmt .. | .importFrom .. => moduleMutations (importBoundNames stmt ++ seen) rest
    | _ =>
      let (sites, seen) := targetMutations stmt seen (statementTargetClassifications stmt)
      sites ++ moduleMutations seen rest

/-- The entries of one node in the second loop. -/
def declaredMutations : Node → List MutationSite
  | .global pos names => names.map fun name =>
    { kind := .globalDeclaration, target := name, line := pos.lineno }
  | .nonlocal pos names => names.map fun name =>
    { kind := .nonlocalDeclaration, target := name, line := pos.lineno }
  | _ => []

/-- `_build_mutation_entry`. The module is not part of it. -/
def buildMutationEntry (filename : String) (site : MutationSite) : EffectEntry where
  fqn := site.kind.marker ++ site.target
  effectClass := .globalMutation
  confidence := some 1
  evidence := .object [("mutation_kind", .str site.kind.value), ("target", .str site.target),
    ("file", .str filename), ("line", .int site.line),
    ("resolution_level", .str ResolutionLevel.statementLevel.value)]

/-- The mutations of a module, in both loops. -/
def mutationSites (tree : Node) : List MutationSite :=
  moduleMutations [] (iterModuleScopeBindingEvents (moduleBody tree)) ++
    tree.walk.flatMap declaredMutations

/-- `_extract_global_mutations`. -/
def extractGlobalMutations (filename : String) (tree : Node) : List EffectEntry :=
  (mutationSites tree).map (buildMutationEntry filename)

/-- `extract_python_effects`. -/
def extractPythonEffects (db : List EffectSignature) (filename moduleFqn : String)
    (tree : Node) : List EffectEntry :=
  extractCallEffects (buildCallIndex db) (collectAliasMap (moduleBody tree)) filename moduleFqn
      tree ++
    extractGlobalMutations filename tree

end SemanticCi.Extraction
