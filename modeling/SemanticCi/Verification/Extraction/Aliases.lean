import SemanticCi.Model.EffectExtractor
import SemanticCi.Verification.Extraction.LexicalScope

/-! Aliases: which names of top-level imports the extractor still resolves calls through, against
everything in module scope that can give such a name another value. -/

namespace SemanticCi.Extraction

open SemanticCi.Python SemanticCi.Python.Ast SemanticCi.StateSchema OrderedDict

/-! ## Assignments in module scope -/

/-- A target binds a name: the name itself, or one inside a tuple, a list or a star. -/
inductive TargetBinds : Node → String → Prop where
  | name (pos id) : TargetBinds (.name pos id) id
  | tuple {pos elts elt id} (helt : elt ∈ elts) (h : TargetBinds elt id) :
      TargetBinds (.tuple pos elts) id
  | list {pos elts elt id} (helt : elt ∈ elts) (h : TargetBinds elt id) :
      TargetBinds (.list pos elts) id
  | starred {pos value id} (h : TargetBinds value id) : TargetBinds (.starred pos value) id

theorem assignTargetNames_eq (target : Node) :
    assignTargetNames target =
      (match target with
        | .name _ id => [id]
        | _ => []) ++ (targetParts target).flatMap assignTargetNames := by
  rw [assignTargetNames, Visitor.run_eq]
  simp only [targets, List.flatMap_map]
  rfl

theorem mem_assignTargetNames (target : Node) (id : String) :
    id ∈ assignTargetNames target ↔ TargetBinds target id := by
  have ih (c : Node) (hc : c ∈ targetParts target) :
      id ∈ assignTargetNames c ↔ TargetBinds c id := by
    have := Node.sizeOf_lt_of_mem_children (mem_children_of_mem_targetParts hc)
    exact mem_assignTargetNames c id
  rw [assignTargetNames_eq, List.mem_append, List.mem_flatMap]
  constructor
  · rintro (h | ⟨c, hc, h⟩)
    · cases target with
      | name pos id' =>
          obtain rfl := List.mem_singleton.mp h
          exact .name pos id
      | _ => cases h
    · have hbinds := (ih c hc).mp h
      cases target with
      | tuple => exact .tuple hc hbinds
      | list => exact .list hc hbinds
      | starred =>
          obtain rfl := List.mem_singleton.mp hc
          exact .starred hbinds
      | _ => cases hc
  · intro h
    cases h with
    | name pos id => exact .inl (List.mem_singleton_self id)
    | tuple helt h => exact .inr ⟨_, helt, (ih _ helt).mpr h⟩
    | list helt h => exact .inr ⟨_, helt, (ih _ helt).mpr h⟩
    | @starred pos value id h =>
        have hvalue : value ∈ targetParts (.starred pos value) := List.mem_singleton_self value
        exact .inr ⟨value, hvalue, (ih value hvalue).mpr h⟩
termination_by sizeOf target

/-- A statement, or the handler of one, assigns to a name. An annotation without a value does
not. -/
inductive Assigns : Node → String → Prop where
  | assign {pos targets value target id} (htarget : target ∈ targets)
      (h : TargetBinds target id) : Assigns (.assign pos targets value) id
  | annAssign {pos target annotation value id} (h : TargetBinds target id) :
      Assigns (.annAssign pos target annotation (some value)) id
  | augAssign {pos target op value id} (h : TargetBinds target id) :
      Assigns (.augAssign pos target op value) id
  | exceptAs {pos type id body} : Assigns (.exceptHandler pos type (some id) body) id
  | forTarget {pos isAsync target iter body orelse id} (h : TargetBinds target id) :
      Assigns (.forLoop pos isAsync target iter body orelse) id
  | withTarget {pos isAsync items body contextExpr optionalVars id}
      (hitem : .withitem contextExpr (some optionalVars) ∈ items)
      (h : TargetBinds optionalVars id) : Assigns (.withStmt pos isAsync items body) id

/-- Somewhere in module scope there is an assignment to the name. -/
def Assigned (body : List Node) (id : String) : Prop := ∃ n, InModuleScope body n ∧ Assigns n id

theorem mem_collectModuleScopeShadows (body : List Node) (id : String) :
    id ∈ collectModuleScopeShadows body ↔ Assigned body id := by
  rw [collectModuleScopeShadows, mem_scanModuleScope]
  refine exists_congr fun n => and_congr_right fun _ => ?_
  constructor
  · intro h
    cases n with
    | assign =>
        obtain ⟨target, htarget, h⟩ := List.mem_flatMap.mp h
        exact .assign htarget ((mem_assignTargetNames target id).mp h)
    | annAssign pos target annotation value =>
        cases value with
        | none => cases h
        | some value => exact .annAssign ((mem_assignTargetNames target id).mp h)
    | augAssign => exact .augAssign ((mem_assignTargetNames _ id).mp h)
    | exceptHandler pos type name body =>
        cases name with
        | none => cases h
        | some name =>
            obtain rfl := List.mem_singleton.mp h
            exact .exceptAs
    | forLoop => exact .forTarget ((mem_assignTargetNames _ id).mp h)
    | withStmt =>
        obtain ⟨item, hitem, h⟩ := List.mem_flatMap.mp h
        cases item with
        | withitem contextExpr optionalVars =>
            cases optionalVars with
            | none => cases h
            | some optionalVars =>
                exact .withTarget hitem ((mem_assignTargetNames optionalVars id).mp h)
        | _ => cases h
    | _ => cases h
  · intro h
    cases h with
    | assign htarget h =>
        exact List.mem_flatMap.mpr ⟨_, htarget, (mem_assignTargetNames _ id).mpr h⟩
    | annAssign h => exact (mem_assignTargetNames _ id).mpr h
    | augAssign h => exact (mem_assignTargetNames _ id).mpr h
    | exceptAs => exact List.mem_singleton_self id
    | forTarget h => exact (mem_assignTargetNames _ id).mpr h
    | withTarget hitem h =>
        exact List.mem_flatMap.mpr ⟨_, hitem, (mem_assignTargetNames _ id).mpr h⟩

/-! ## Imports -/

/-- An import whose names the alias map takes in when it stands at top level. -/
def isAbsoluteImport : Node → Bool
  | .importStmt .. => true
  | .importFrom _ (some _) _ 0 => true
  | _ => false

/-- The names of one top-level statement in the alias map. -/
def aliasNames (stmt : Node) : List String :=
  if isAbsoluteImport stmt then importBoundNames stmt else []

theorem mem_keys_bindImport (names : List Alias) (d : OrderedDict String String) (id : String) :
    id ∈ (bindImport d names).keys ↔
      id ∈ d.keys ∨ id ∈ names.map fun item => item.asname.getD (headSegment item.name) := by
  rw [bindImport, mem_keys_foldl fun item => [item.asname.getD (headSegment item.name)]]
  · simp [eq_comm]
  · intro d item k
    cases item.asname with
    | none => simp [mem_keys_setDefault]
    | some asname => simp [mem_keys_assign]

theorem mem_keys_bindImportFrom (module : String) (names : List Alias)
    (d : OrderedDict String String) (id : String) :
    id ∈ (bindImportFrom module d names).keys ↔ id ∈ d.keys ∨
      id ∈ (names.filter fun item => item.name ≠ "*").map fun item =>
        item.asname.getD item.name := by
  rw [bindImportFrom, mem_keys_foldl fun item =>
    if item.name = "*" then [] else [item.asname.getD item.name]]
  · simp only [List.mem_map, List.mem_filter, decide_eq_true_eq]
    refine or_congr_right (exists_congr fun item => ?_)
    by_cases hstar : item.name = "*" <;> simp [hstar, eq_comm]
  · intro d item k
    by_cases hstar : item.name = "*" <;> simp [hstar, mem_keys_assign]

/-- The alias map knows the names of the absolute top-level imports that nothing in module scope
assigns to. -/
theorem mem_keys_collectAliasMap (body : List Node) (id : String) :
    id ∈ (collectAliasMap body).keys ↔ (∃ stmt ∈ body, id ∈ aliasNames stmt) ∧ ¬ Assigned body id := by
  have hfilter (d : OrderedDict String String) (shadowed : List String) :
      id ∈ (d.filter fun entry => entry.1 ∉ shadowed).keys ↔ id ∈ d.keys ∧ id ∉ shadowed := by
    rw [← get?_isSome_iff, ← get?_isSome_iff, get?_filter]
    cases d.get? id <;> simp
  rw [← mem_collectModuleScopeShadows, collectAliasMap, hfilter, mem_keys_foldl aliasNames]
  · have hempty : id ∉ (empty : OrderedDict String String).keys := List.not_mem_nil
    simp [hempty]
  · intro d stmt k
    cases stmt with
    | importStmt pos names => exact mem_keys_bindImport names d k
    | importFrom pos module names level =>
        cases module with
        | none => simp [aliasNames, isAbsoluteImport]
        | some module =>
            cases level with
            | zero => exact mem_keys_bindImportFrom module names d k
            | succ level => simp [aliasNames, isAbsoluteImport]
    | _ => simp [aliasNames, isAbsoluteImport]

theorem get?_collectAliasMap_eq_none_iff (body : List Node) (id : String) :
    (collectAliasMap body).get? id = none ↔
      ((∃ stmt ∈ body, id ∈ aliasNames stmt) → Assigned body id) := by
  rw [← Option.not_isSome_iff_eq_none, get?_isSome_iff, mem_keys_collectAliasMap, not_and, not_not]

/-! ## Calls through a name -/

/-- No entry reports a call through the name as a call of what was imported. -/
structure NeverTrusted (body : List Node) (id : String) : Prop where
  absent : (collectAliasMap body).get? id = none
  unresolved : ∀ db filename moduleFqn site,
    callEntry filename moduleFqn site ∈
        extractPythonEffects db filename moduleFqn (.module body) →
      headSegment site.raw = id → site.level ≠ .importedAlias

theorem level_value_injective : Function.Injective ResolutionLevel.value := by
  intro a b h
  revert h
  cases a <;> cases b <;> decide

/-- An entry tells how its call was written and resolved. -/
theorem callEntry_injective {filename moduleFqn : String} {site site' : CallSite}
    (h : callEntry filename moduleFqn site = callEntry filename moduleFqn site') :
    site.raw = site'.raw ∧ site.level = site'.level := by
  have hevidence := congrArg EffectEntry.evidence h
  simp only [callEntry, JsonValue.object.injEq, List.cons.injEq, Prod.mk.injEq,
    JsonValue.str.injEq] at hevidence
  obtain ⟨⟨-, hraw⟩, -, -, -, ⟨-, hlevel⟩, -⟩ := hevidence
  exact ⟨hraw, level_value_injective hlevel⟩

theorem callEntry_ne_mutationEntry (filename filename' moduleFqn : String) (site : CallSite)
    (mutation : MutationSite) :
    callEntry filename moduleFqn site ≠ buildMutationEntry filename' mutation := by
  intro h
  have hevidence := congrArg EffectEntry.evidence h
  simp [callEntry, buildMutationEntry] at hevidence

/-- The level of a site is what the alias map makes of its head. -/
theorem level_of_mem_callSite {index : OrderedDict String EffectSignature}
    {aliasMap : OrderedDict String String} {scope : List String} {n : Node} {site : CallSite}
    (h : site ∈ callSite index aliasMap scope n) :
    site.level = (resolveCall site.raw aliasMap).2 := by
  cases n with
  | call pos func args keywords =>
      simp only [callSite] at h
      split at h
      · cases h
      · split at h
        · cases h
        · obtain rfl := List.mem_singleton.mp h
          rfl
  | _ => cases h

theorem resolveCall_of_absent {aliasMap : OrderedDict String String} {raw : String}
    (h : aliasMap.get? (headSegment raw) = none) : resolveCall raw aliasMap = (raw, .directCall) := by
  simp only [resolveCall, h]

theorem neverTrusted_iff (body : List Node) (id : String) :
    NeverTrusted body id ↔ (collectAliasMap body).get? id = none := by
  refine ⟨fun h => h.absent, fun habsent => ⟨habsent, ?_⟩⟩
  intro db filename moduleFqn site hsite hhead
  rw [extractPythonEffects, List.mem_append] at hsite
  rcases hsite with hcall | hmutation
  · obtain ⟨recorded, hrecorded, heq⟩ := List.mem_map.mp hcall
    obtain ⟨hraw, hlevel⟩ := callEntry_injective heq
    obtain ⟨scope, n, hhere⟩ := Visitor.exists_here_of_mem_run _ hrecorded
    have habsent' : (collectAliasMap body).get? (headSegment recorded.raw) = none := by
      rw [hraw, hhead]
      exact habsent
    rw [← hlevel, level_of_mem_callSite hhere]
    have hresolve := resolveCall_of_absent habsent'
    rw [moduleBody, hresolve]
    exact fun hdirect => by cases hdirect
  · obtain ⟨mutation, -, heq⟩ := List.mem_map.mp hmutation
    exact absurd heq.symm (callEntry_ne_mutationEntry filename filename moduleFqn site mutation)

/-! ## Everything that rebinds a name -/

/-- The other statements that give the name a value in module scope. A walrus binds in the scope
that it is evaluated in. -/
inductive BoundOtherwise (body : List Node) (id : String) : Prop where
  | walrus {stmt pos target value} (hstmt : stmt ∈ body)
      (h : LexicallyIn stmt [] (.namedExpr pos target value)) (hid : TargetBinds target id)
  | function {pos isAsync args fbody decoratorList returns typeParams}
      (h : InModuleScope body
        (.functionDef pos isAsync id args fbody decoratorList returns typeParams))
  | class {pos bases keywords cbody decoratorList typeParams}
      (h : InModuleScope body (.classDef pos id bases keywords cbody decoratorList typeParams))
  | importedAgain {front stmt back other} (hbody : body = front ++ stmt :: back)
      (hstmt : id ∈ importBoundNames stmt) (h : InModuleScope (front ++ back) other)
      (hother : id ∈ importBoundNames other)

/-- The names that a top-level import binds and something else in module scope rebinds are never
trusted exactly when an assignment rebinds each of them that an absolute import binds. -/
theorem reboundAliases_neverTrusted_iff (body : List Node) :
    (∀ id, (∃ stmt ∈ body, id ∈ importBoundNames stmt) →
      Assigned body id ∨ BoundOtherwise body id → NeverTrusted body id) ↔
    ∀ id, (∃ stmt ∈ body, isAbsoluteImport stmt = true ∧ id ∈ importBoundNames stmt) →
      BoundOtherwise body id → Assigned body id := by
  have halias (id : String) : (∃ stmt ∈ body, id ∈ aliasNames stmt) ↔
      ∃ stmt ∈ body, isAbsoluteImport stmt = true ∧ id ∈ importBoundNames stmt := by
    refine exists_congr fun stmt => and_congr_right fun _ => ?_
    rw [aliasNames]
    split <;> simp [*]
  constructor
  · intro hdropped id habsolute hother
    have himported : ∃ stmt ∈ body, id ∈ importBoundNames stmt :=
      habsolute.imp fun stmt h => ⟨h.1, h.2.2⟩
    have habsent := (hdropped id himported (.inr hother)).absent
    exact (get?_collectAliasMap_eq_none_iff body id).mp habsent ((halias id).mpr habsolute)
  · intro hassigned id _ hrebound
    apply (neverTrusted_iff body id).mpr
    apply (get?_collectAliasMap_eq_none_iff body id).mpr
    intro halready
    rcases hrebound with hassign | hother
    · exact hassign
    · exact hassigned id ((halias id).mp halready) hother

/-- `import os as op`, then a statement, then `op.system("ls")`. -/
def aliasModule (stmt : Node) : List Node :=
  [.importStmt ⟨1, 0, 1⟩ [⟨"os", some "op"⟩], stmt,
    .other "Expr" [] (some ⟨3, 0, 3⟩)
      [.call ⟨3, 0, 3⟩ (.attributeRef ⟨3, 0, 3⟩ (.name ⟨3, 0, 3⟩ "op") "system")
        [.other "Constant" ["'ls'"] (some ⟨3, 10, 3⟩) []] []]]

/-- `def op(): ...`. -/
def functionOp : Node :=
  .functionDef ⟨2, 0, 2⟩ false "op" (.other "arguments" [] none [])
    [.other "Expr" [] (some ⟨2, 10, 2⟩) [.other "Constant" ["..."] (some ⟨2, 10, 2⟩) []]] [] none []

/-- `class op: ...`. -/
def classOp : Node :=
  .classDef ⟨2, 0, 2⟩ "op" [] []
    [.other "Expr" [] (some ⟨2, 10, 2⟩) [.other "Constant" ["..."] (some ⟨2, 10, 2⟩) []]] [] []

/-- `(op := 1)`. -/
def walrusOp : Node :=
  .other "Expr" [] (some ⟨2, 0, 2⟩)
    [.namedExpr ⟨2, 1, 2⟩ (.name ⟨2, 1, 2⟩ "op") (.other "Constant" ["1"] (some ⟨2, 7, 2⟩) [])]

/-- `import sys as op`. -/
def importOp : Node := .importStmt ⟨2, 0, 2⟩ [⟨"sys", some "op"⟩]

def osSystem : EffectSignature where
  id := "os_system"
  language := "python"
  call := "os.system"
  effectClass := .process

def opSystemCall : CallSite where
  scope := []
  effectClass := .process
  raw := "op.system"
  resolved := "os.system"
  level := .importedAlias
  line := 3

/-- Each of the four keeps the alias, and a call through the function is reported as a call of
the module. -/
theorem aliasModule_trusted :
    (∀ stmt ∈ [functionOp, classOp, walrusOp, importOp],
      BoundOtherwise (aliasModule stmt) "op" ∧
        (collectAliasMap (aliasModule stmt)).get? "op" ≠ none) ∧
      callEntry "m.py" "m" opSystemCall ∈
        extractPythonEffects [osSystem] "m.py" "m" (.module (aliasModule functionOp)) ∧
      headSegment opSystemCall.raw = "op" ∧ opSystemCall.level = .importedAlias := by
  have hscope (stmt : Node) : InModuleScope (aliasModule stmt) stmt :=
    ⟨stmt, by simp [aliasModule], .self stmt⟩
  have hsites : (callEffectVisitor (buildCallIndex [osSystem])
      (collectAliasMap (moduleBody (.module (aliasModule functionOp))))).run []
        (.module (aliasModule functionOp)) = [opSystemCall] := by
    decide +kernel
  refine ⟨?_, ?_, by decide +kernel, rfl⟩
  · simp only [List.forall_mem_cons]
    refine ⟨⟨.function (hscope functionOp), by decide +kernel⟩,
      ⟨.class (hscope classOp), by decide +kernel⟩, ⟨?_, by decide +kernel⟩,
      ⟨?_, by decide +kernel⟩, by simp⟩
    · have hwalrus : LexicallyIn walrusOp [] (.namedExpr ⟨2, 1, 2⟩ (.name ⟨2, 1, 2⟩ "op")
          (.other "Constant" ["1"] (some ⟨2, 7, 2⟩) [])) :=
        .child rfl (List.mem_singleton_self _) (.self _)
      have hmem : walrusOp ∈ aliasModule walrusOp := by simp [aliasModule]
      exact .walrus hmem hwalrus (.name _ _)
    · have himport : "op" ∈ importBoundNames importOp := by decide +kernel
      have hfirst : "op" ∈ importBoundNames (.importStmt ⟨1, 0, 1⟩ [⟨"os", some "op"⟩]) := by
        decide +kernel
      have hbody : aliasModule importOp = [] ++
          .importStmt ⟨1, 0, 1⟩ [⟨"os", some "op"⟩] :: (aliasModule importOp).tail := rfl
      exact .importedAgain hbody hfirst ⟨importOp, by simp [aliasModule], .self importOp⟩ himport
  · rw [extractPythonEffects, extractCallEffects, hsites]
    exact List.mem_append_left _ (List.mem_singleton_self _)

end SemanticCi.Extraction
