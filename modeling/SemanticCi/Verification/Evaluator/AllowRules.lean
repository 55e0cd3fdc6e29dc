import SemanticCi.Verification.Records
import SemanticCi.Verification.Evaluator.Constraint
import SemanticCi.Model.CodeStateDelta

/-! The allow lists of a target only relax its template checks: more rules can turn a broken
template constraint into a satisfied one, and change nothing else. -/

namespace SemanticCi.Evaluator

open SemanticCi.Python SemanticCi.StateSchema SemanticCi.Framework SemanticCi.Compiler
  SemanticCi.Operators SemanticCi.PathResolver ExceptRules

/-! ## More rules match more -/

theorem apiSurfaceMatchesAllowRule_mono {rules rules' : List APISurfaceAllowRule}
    (hrules : rules ⊆ rules') {fqn : Option JsonValue}
    (h : apiSurfaceMatchesAllowRule fqn rules = true) :
    apiSurfaceMatchesAllowRule fqn rules' = true := by
  unfold apiSurfaceMatchesAllowRule at h ⊢
  split at h
  · obtain ⟨rule, hrule, hmatch⟩ := List.any_eq_true.mp h
    exact List.any_eq_true.mpr ⟨rule, hrules hrule, hmatch⟩
  · cases h

/-- Filtering by the longer list is filtering what the shorter one has left. -/
theorem filter_allowed_of_subset {α : Type} (fqn : α → Option JsonValue)
    {rules rules' : List APISurfaceAllowRule} (hrules : rules ⊆ rules') (entries : List α) :
    (entries.filter fun e => !apiSurfaceMatchesAllowRule (fqn e) rules') =
      (entries.filter fun e => !apiSurfaceMatchesAllowRule (fqn e) rules).filter fun e =>
        !apiSurfaceMatchesAllowRule (fqn e) rules' := by
  rw [List.filter_filter]
  refine List.filter_congr fun e _ => ?_
  cases h : apiSurfaceMatchesAllowRule (fqn e) rules with
  | false => simp
  | true => simp [apiSurfaceMatchesAllowRule_mono hrules h]

@[simp] theorem apiSurfaceMatchesAllowRule_nil (fqn : Option JsonValue) :
    apiSurfaceMatchesAllowRule fqn [] = false := by
  unfold apiSurfaceMatchesAllowRule
  split <;> rfl

/-! ## Effects with plain evidence -/

/-- The evidence that the extractor records: nothing, or an object that names the call. -/
def PlainEvidence : JsonValue → Prop
  | .null => True
  | .object items => ∃ call, JsonValue.get? items "resolved_call" = some (.str call)
  | _ => False

/-- An effect record whose name and resolved call are hashable. -/
def PlainEffect (effect : JsonValue) : Prop :=
  (field effect "fqn").all isHashable = true ∧ (effectResolvedCall effect).all isHashable = true

theorem plainEffect_dump {e : EffectEntry} (h : PlainEvidence e.evidence) :
    PlainEffect (.object e.dump) := by
  refine ⟨rfl, ?_⟩
  have hevidence : field (.object e.dump) "evidence" = some e.evidence := rfl
  unfold effectResolvedCall
  rw [hevidence]
  match hcase : e.evidence, h with
  | .null, _ => rfl
  | .object items, ⟨call, hcall⟩ => simp [field, hcall, isHashable]

/-- One rule against one plain effect. -/
def ruleMatches (effect : JsonValue) (rule : EffectAllowRule) : Bool :=
  (rule.fqn.all fun fqn => isText fqn (field effect "fqn") ||
    isText fqn (effectResolvedCall effect)) &&
  rule.effectClass.all fun effectClass => isText effectClass.value (field effect "effect_class")

theorem effectMatchesAllowRule_eq {effect : JsonValue} (h : PlainEffect effect)
    (rules : List EffectAllowRule) :
    effectMatchesAllowRule effect rules = .ok (rules.any (ruleMatches effect)) := by
  induction rules with
  | nil => rfl
  | cons rule rules ih =>
      have hnames (fqn : String) : ruleNamesEffect effect fqn =
          .ok (isText fqn (field effect "fqn") || isText fqn (effectResolvedCall effect)) := by
        simp [ruleNamesEffect, h.1, h.2]
      rw [effectMatchesAllowRule, ih, List.any_cons, ruleMatches]
      cases rule.fqn with
      | none =>
          cases rule.effectClass with
          | none => simp
          | some effectClass => by_cases hc : isText effectClass.value (field effect "effect_class") <;> simp [hc]
      | some fqn =>
          simp only [hnames, ok_bind]
          cases rule.effectClass with
          | none =>
              by_cases hn : (isText fqn (field effect "fqn") ||
                isText fqn (effectResolvedCall effect)) = true <;> simp [hn]
          | some effectClass =>
              by_cases hn : (isText fqn (field effect "fqn") ||
                isText fqn (effectResolvedCall effect)) = true <;>
              by_cases hc : isText effectClass.value (field effect "effect_class") = true <;>
              simp [hn, hc]

theorem filterEffects_eq {effects : List JsonValue} (h : ∀ e ∈ effects, PlainEffect e)
    (rules : List EffectAllowRule) :
    filterEffects rules effects = .ok (effects.filter fun e => !rules.any (ruleMatches e)) := by
  induction effects with
  | nil => rfl
  | cons e rest ih =>
      have hrest := ih fun f hf => h f (by simp [hf])
      rw [filterEffects, effectMatchesAllowRule_eq (h e (by simp)), hrest]
      cases hany : rules.any (ruleMatches e) <;> simp [hany]

theorem filterEffects_nil (effects : List JsonValue) : filterEffects [] effects = .ok effects := by
  induction effects with
  | nil => rfl
  | cons e rest ih => simp [filterEffects, effectMatchesAllowRule, ih]

/-! ## The views of the template constraints -/

/-- The template constraint that allow rules relax through the removed API records. -/
structure ReadsRemovedApi (c : CompiledConstraint) : Prop where
  source : c.source = .template
  id : c.id ∈ apiSurfaceRemovedTemplateIds
  target : c.target = ["api_surface_delta", "removed_public"]
  operator : c.operator = .equals

structure ReadsNewEffects (c : CompiledConstraint) : Prop where
  source : c.source = .template
  id : c.id ∈ noNewEffectsTemplateIds
  target : c.target = ["effect_changes", "added"]
  operator : c.operator = .equals

structure ReadsPublicApi (c : CompiledConstraint) : Prop where
  source : c.source = .template
  id : c.id ∈ apiSurfaceUnchangedTemplateIds
  target : c.target = ["api_surface_public"]
  operator : c.operator = .equalsBaseline

section Views

variable {c : CompiledConstraint} (eff : List EffectAllowRule) (api : List APISurfaceAllowRule)
  (input : EvaluationInput)

theorem evaluateResolved_removedApi (h : ReadsRemovedApi c) (hkind : c.kind = .delta) :
    evaluateResolved eff api input c = evaluatePure c (some (.array
      ((filterApiSurfaceEntries input.delta.apiSurfaceDelta.removed api).filter isPublic))) := by
  obtain ⟨hsource, hid, htarget, hop⟩ := h
  have hview : deltaForConstraint c input.delta eff api = .ok { input.delta with
      apiSurfaceDelta := { input.delta.apiSurfaceDelta with
        removed := filterApiSurfaceEntries input.delta.apiSurfaceDelta.removed api } } := by
    by_cases hapi : api = []
    · subst hapi
      simp [deltaForConstraint, htarget, filterApiSurfaceEntries]
    · simp [deltaForConstraint, hapi, hsource, hid, htarget, hop]
  simp only [evaluateResolved, hkind, hview, ok_bind]
  have hpure : c.operator ∉ baselineOperators := by rw [hop]; decide
  have hfirst : c.target.first ∈ codeStateDeltaFields := by rw [htarget]; decide
  rw [evaluateDeltaConstraint, if_pos hfirst, if_neg hpure, htarget]
  rfl

theorem evaluateResolved_filteredEffects (h : ReadsNewEffects c) (hkind : c.kind = .delta) :
    evaluateResolved eff api input c =
      filterEffects eff input.delta.effectChanges.added >>= fun added =>
        evaluatePure c (some (.array added)) := by
  obtain ⟨hsource, hid, htarget, hop⟩ := h
  have hview : deltaForConstraint c input.delta eff api =
      filterEffects eff input.delta.effectChanges.added >>= fun added =>
        pure { input.delta with effectChanges := { input.delta.effectChanges with
          added := added } } := by
    by_cases heff : eff = []
    · subst heff
      simp [deltaForConstraint, htarget, filterEffects_nil]
    · simp [deltaForConstraint, heff, hsource, hid, htarget, hop]
  have hpure : c.operator ∉ baselineOperators := by rw [hop]; decide
  have hfirst : c.target.first ∈ codeStateDeltaFields := by rw [htarget]; decide
  simp only [evaluateResolved, hkind, hview]
  cases filterEffects eff input.delta.effectChanges.added with
  | error e => rfl
  | ok added =>
      simp only [ok_bind, pure_eq_ok]
      rw [evaluateDeltaConstraint, if_pos hfirst, if_neg hpure, htarget]
      rfl

theorem evaluateResolved_newEffects (h : ReadsNewEffects c) (hkind : c.kind = .delta)
    (hplain : ∀ e ∈ input.delta.effectChanges.added, PlainEffect e) :
    evaluateResolved eff api input c = evaluatePure c (some (.array
      (input.delta.effectChanges.added.filter fun e => !eff.any (ruleMatches e)))) := by
  rw [evaluateResolved_filteredEffects eff api input h hkind, filterEffects_eq hplain, ok_bind]

/-- The public records of a state that no rule allows to change. -/
def lockedApi (rules : List APISurfaceAllowRule) (state : CodeState) : List APISurfaceEntry :=
  publicEntries (filterCodeStateApiSurface state rules).apiSurface

theorem lockedApi_of_subset {rules rules' : List APISurfaceAllowRule} (hrules : rules ⊆ rules')
    (state : CodeState) :
    lockedApi rules' state = (lockedApi rules state).filter fun e =>
      !apiSurfaceMatchesAllowRule (some (.str e.fqn)) rules' := by
  simp only [lockedApi, filterCodeStateApiSurface, publicEntries]
  rw [filter_allowed_of_subset (fun e : APISurfaceEntry => some (.str e.fqn)) hrules,
    List.filter_comm]

theorem evaluateResolved_publicApi (h : ReadsPublicApi c) (hkind : c.kind = .delta) :
    evaluateResolved eff api input c = evaluateBaseline c
      (some (records APISurfaceEntry.dump (lockedApi api input.baseline)))
      (some (records APISurfaceEntry.dump (lockedApi api input.candidate))) := by
  obtain ⟨hsource, hid, htarget, hop⟩ := h
  have hdelta : deltaForConstraint c input.delta eff api = .ok input.delta := by
    simp [deltaForConstraint, htarget]
  have hstates : statesForConstraint c input.baseline input.candidate api =
      (filterCodeStateApiSurface input.baseline api,
        filterCodeStateApiSurface input.candidate api) := by
    by_cases hapi : api = []
    · subst hapi
      simp [statesForConstraint, filterCodeStateApiSurface]
    · simp [statesForConstraint, hapi, hsource, hid, htarget, hop]
  simp only [evaluateResolved, hkind, hdelta, hstates, ok_bind]
  have hbaseline : ¬ c.operator ∉ baselineOperators := by rw [hop]; decide
  have hfirst : c.target.first ∉ codeStateDeltaFields := by rw [htarget]; decide
  have hfields : c.target.first ∈ codeStateFields := by rw [htarget]; decide
  rw [evaluateDeltaConstraint, if_neg hfirst, if_pos hfields, if_neg hbaseline, htarget,
    resolveState_apiSurfacePublic, resolveState_apiSurfacePublic]
  rfl

theorem evaluateResolved_other (hremoved : ¬ ReadsRemovedApi c) (heffects : ¬ ReadsNewEffects c)
    (hpublic : ¬ ReadsPublicApi c) (eff' : List EffectAllowRule)
    (api' : List APISurfaceAllowRule) :
    evaluateResolved eff' api' input c = evaluateResolved eff api input c := by
  have hdelta (eff : List EffectAllowRule) (api : List APISurfaceAllowRule) :
      deltaForConstraint c input.delta eff api = .ok input.delta := by
    have h₁ : ¬ (api ≠ [] ∧ c.source = .template ∧ c.id ∈ apiSurfaceRemovedTemplateIds ∧
        c.target = ["api_surface_delta", "removed_public"] ∧ c.operator = .equals) :=
      fun ⟨_, h, hid, htarget, hop⟩ => hremoved ⟨h, hid, htarget, hop⟩
    have h₂ : ¬ (eff ≠ [] ∧ c.source = .template ∧ c.id ∈ noNewEffectsTemplateIds ∧
        c.target = ["effect_changes", "added"] ∧ c.operator = .equals) :=
      fun ⟨_, h, hid, htarget, hop⟩ => heffects ⟨h, hid, htarget, hop⟩
    simp only [deltaForConstraint, if_neg h₁, if_neg h₂]
    rfl
  have hstates (api : List APISurfaceAllowRule) :
      statesForConstraint c input.baseline input.candidate api =
        (input.baseline, input.candidate) := by
    refine if_pos ?_
    by_contra h
    push Not at h
    exact hpublic ⟨h.2.1, h.2.2.1, h.2.2.2.1, h.2.2.2.2⟩
  simp only [evaluateResolved, hdelta, hstates]

end Views

/-! ## Status of a relaxed template constraint -/

/-- An emptiness check on a list of records. -/
theorem concludes_equalsEmpty {c : CompiledConstraint} (hop : c.operator = .equals)
    (hexpected : c.expected = .tuple []) (items : List JsonValue) :
    Concludes (catchInternal c (evaluatePure c (some (.array items))))
      (if items = [] then .satisfied else .violated) none := by
  obtain ⟨w, hw, hnorm⟩ := canon_toPy (.array items)
  have hempty : canon c.expected = .ok (.tuple []) := by
    rw [hexpected]
    rfl
  have hdecides := (decides_equals hw hempty c.tolerance).evaluatePureOperator
  rw [evaluatePure_some, hop]
  have hiff : w.norm = (PyValue.tuple []).norm ↔ items = [] := by
    rw [hnorm]
    simp
  by_cases hitems : items = []
  · rw [if_pos hitems]
    exact concludes_satisfied hdecides (hiff.mpr hitems)
  · rw [if_neg hitems]
    exact concludes_violated hdecides fun h => hitems (hiff.mp h)

/-- The comparison of two public API surfaces compares their records. -/
theorem concludes_equalsBaseline {c : CompiledConstraint} (hop : c.operator = .equalsBaseline)
    (b v : List APISurfaceEntry) :
    Concludes (catchInternal c (evaluateBaseline c (some (records APISurfaceEntry.dump b))
        (some (records APISurfaceEntry.dump v))))
      (if v = b then .satisfied else .violated) none := by
  obtain ⟨w, hw, hwnorm⟩ := canon_toPy (records APISurfaceEntry.dump b)
  obtain ⟨u, hu, hunorm⟩ := canon_toPy (records APISurfaceEntry.dump v)
  have hmem : Operator.equalsBaseline ∈ baselineOperators := by decide
  have hdecides := (decides_baselineOperator hmem hw hu
    fun h => absurd h (by decide)).evaluateBaselineOperator
  rw [evaluateBaseline_some, hop]
  have hiff : BaselineHolds .equalsBaseline w.norm u.norm ↔ v = b := by
    have hinj : Function.Injective fun e : APISurfaceEntry => jsonNorm (.object e.dump) :=
      fun _ _ => apiSurfaceEntry_norm_inj
    simp only [BaselineHolds, hwnorm, hunorm, jsonNorm_records, Norm.tuple.injEq,
      (List.map_injective_iff.mpr hinj).eq_iff]
  by_cases heq : v = b
  · rw [if_pos heq]
    exact concludes_satisfied hdecides (hiff.mpr heq)
  · rw [if_neg heq]
    exact concludes_violated hdecides fun h => heq (hiff.mp h)

/-- The guards in front of the evaluation do not look at the allow lists. -/
theorem evaluateConstraint_guarded (input : EvaluationInput) (c : CompiledConstraint) :
    (∃ r, ∀ eff api, evaluateConstraint eff api input c = r) ∨
      ∀ eff api, evaluateConstraint eff api input c =
        catchInternal c (evaluateResolved eff api input c) := by
  by_cases hkind : c.kind = .repair
  · exact .inl ⟨_, fun _ _ => if_pos hkind⟩
  by_cases hop : c.operator = .changedOnlyIn
  · exact .inl ⟨_, fun _ _ => (if_neg hkind).trans (if_pos hop)⟩
  cases hpattern : matchesTargetPattern c.target with
  | false => exact .inl ⟨authoringResult c .pathUnresolved, by simp [evaluateConstraint, *]⟩
  | true =>
      cases hskipped : skippedDimension c.target input.extractedDimensions with
      | some dimension => exact .inl ⟨_, by simp [evaluateConstraint, *]; rfl⟩
      | none =>
          cases htimed : timedOutDimension c input with
          | some dimension => exact .inl ⟨_, by simp [evaluateConstraint, *]; rfl⟩
          | none => exact .inr (by simp [evaluateConstraint, *])

theorem templateConstraints_shape {kind : ChangeKind} {c : CompiledConstraint}
    (hc : c ∈ templateConstraints kind) :
    c.kind = .delta ∧ (c.id ∈ apiSurfaceRemovedTemplateIds ∨ c.id ∈ noNewEffectsTemplateIds →
      c.expected = .tuple []) := by
  cases kind <;> simp only [templateConstraints, List.mem_cons, List.not_mem_nil, or_false] at hc
  · rcases hc with rfl | rfl <;> exact ⟨rfl, fun _ => rfl⟩
  · rcases hc with rfl | rfl
    · exact ⟨rfl, fun h => absurd h (by decide)⟩
    · exact ⟨rfl, fun _ => rfl⟩
  · rcases hc with rfl | rfl | rfl | rfl <;> exact ⟨rfl, fun h => absurd h (by decide)⟩
  · rcases hc with rfl | rfl | rfl <;> exact ⟨rfl, fun h => absurd h (by decide)⟩

/-- What more allow rules may do to a result: nothing, or turn a violation into satisfaction. -/
inductive Relaxes (old new : ConstraintResult) : Prop
  | same (status : new.status = old.status) (cause : new.unknownCause = old.unknownCause)
  | relaxed (violated : old.status = .violated) (satisfied : new.status = .satisfied)

theorem Relaxes.refl (r : ConstraintResult) : Relaxes r r := .same rfl rfl

/-- A check that a weaker condition settles is only relaxed. -/
theorem Relaxes.of_concludes {old new : ConstraintResult} {p q : Prop} [Decidable p] [Decidable q]
    (hpq : p → q) (hold : Concludes old (if p then .satisfied else .violated) none)
    (hnew : Concludes new (if q then .satisfied else .violated) none) : Relaxes old new := by
  by_cases hp : p
  · rw [if_pos hp] at hold
    rw [if_pos (hpq hp)] at hnew
    exact .same (hnew.status.trans hold.status.symm) (hnew.cause.trans hold.cause.symm)
  · rw [if_neg hp] at hold
    by_cases hq : q
    · rw [if_pos hq] at hnew
      exact .relaxed hold.status hnew.status
    · rw [if_neg hq] at hnew
      exact .same (hnew.status.trans hold.status.symm) (hnew.cause.trans hold.cause.symm)

/-- The step lemma: one template constraint under more rules. -/
theorem evaluateConstraint_template_relaxes {kind : ChangeKind} {c : CompiledConstraint}
    (hc : c ∈ templateConstraints kind) {eff eff' : List EffectAllowRule}
    {api api' : List APISurfaceAllowRule} (heff : eff ⊆ eff') (hapi : api ⊆ api')
    (input : EvaluationInput) (hplain : ∀ e ∈ input.delta.effectChanges.added, PlainEffect e) :
    Relaxes (evaluateConstraint eff api input c) (evaluateConstraint eff' api' input c) := by
  obtain ⟨hkind, hexpected⟩ := templateConstraints_shape hc
  rcases evaluateConstraint_guarded input c with ⟨r, hr⟩ | hresolved
  · rw [hr, hr]
    exact .refl r
  · rw [hresolved, hresolved]
    by_cases hremoved : ReadsRemovedApi c
    · rw [evaluateResolved_removedApi eff api input hremoved hkind,
        evaluateResolved_removedApi eff' api' input hremoved hkind]
      refine .of_concludes ?_
        (concludes_equalsEmpty hremoved.operator (hexpected (.inl hremoved.id)) _)
        (concludes_equalsEmpty hremoved.operator (hexpected (.inl hremoved.id)) _)
      intro hempty
      rw [filterApiSurfaceEntries, List.filter_eq_nil_iff] at hempty ⊢
      intro e he
      rw [filter_allowed_of_subset (field · "fqn") hapi] at he
      exact hempty e (List.mem_filter.mp he).1
    by_cases heffects : ReadsNewEffects c
    · rw [evaluateResolved_newEffects eff api input heffects hkind hplain,
        evaluateResolved_newEffects eff' api' input heffects hkind hplain]
      refine .of_concludes ?_
        (concludes_equalsEmpty heffects.operator (hexpected (.inr heffects.id)) _)
        (concludes_equalsEmpty heffects.operator (hexpected (.inr heffects.id)) _)
      intro hempty
      rw [List.filter_eq_nil_iff] at hempty ⊢
      intro e he hkept
      refine hempty e he ?_
      simp only [Bool.not_eq_true', List.any_eq_false] at hkept ⊢
      exact fun rule hrule => hkept rule (heff hrule)
    by_cases hpublic : ReadsPublicApi c
    · rw [evaluateResolved_publicApi eff api input hpublic hkind,
        evaluateResolved_publicApi eff' api' input hpublic hkind]
      refine .of_concludes ?_ (concludes_equalsBaseline hpublic.operator _ _)
        (concludes_equalsBaseline hpublic.operator _ _)
      intro heq
      rw [lockedApi_of_subset hapi, lockedApi_of_subset hapi, heq]
    · rw [evaluateResolved_other eff api input hremoved heffects hpublic eff' api']
      exact .refl _

/-! ## Whole runs -/

theorem Relaxes.contribution_le {c : CompiledConstraint} {old new : ConstraintResult}
    (h : Relaxes old new) (hold : ResultOf c old) (hnew : ResultOf c new) :
    contribution new ≤ contribution old := by
  cases h with
  | same status cause =>
      apply le_of_eq
      simp only [contribution, status, cause, hold.severity, hnew.severity, hold.unknownPolicy,
        hnew.unknownPolicy]
  | relaxed _ satisfied =>
      have hpass : contribution new = ⊥ := by
        simp only [contribution, satisfied]
        rfl
      rw [hpass]
      exact bot_le

/-- The same target under other allow lists. -/
def withAllowLists (compiled : CompiledTarget) (api : List APISurfaceAllowRule)
    (eff : List EffectAllowRule) : CompiledTarget :=
  { compiled with apiSurfaceAllowChanges := api, effectAllowNew := eff }

theorem plainEffect_of_added {baseline candidate : CodeState}
    (h : ∀ e ∈ candidate.effects, PlainEvidence e.evidence) :
    ∀ e ∈ (Delta.computeCodeStateDelta baseline candidate).effectChanges.added, PlainEffect e := by
  intro e he
  obtain ⟨entry, hentry, rfl⟩ := List.mem_map.mp he
  obtain ⟨-, hfind⟩ := (OrderedDict.mem_missingValues_indexBy _ _ _ _).mp hentry
  exact plainEffect_dump (h entry (List.mem_of_find?_eq_some hfind))

/-- A user constraint never sees the allow lists. -/
theorem evaluateConstraint_user_eq {c : CompiledConstraint} (huser : c.source = .user)
    (eff eff' : List EffectAllowRule) (api api' : List APISurfaceAllowRule)
    (input : EvaluationInput) :
    evaluateConstraint eff' api' input c = evaluateConstraint eff api input c := by
  have htemplate : c.source ≠ .template := by
    rw [huser]
    decide
  rcases evaluateConstraint_guarded input c with ⟨r, hr⟩ | hresolved
  · rw [hr, hr]
  · rw [hresolved, hresolved, evaluateResolved_other eff api input (fun h => htemplate h.source)
      (fun h => htemplate h.source) (fun h => htemplate h.source)]

/-- Only a user constraint can stop the loop. -/
theorem shouldShortCircuit_of_template {c : CompiledConstraint} {r : ConstraintResult}
    (h : r.source = .template) : shouldShortCircuit c r = false := by
  simp [shouldShortCircuit, isUserLockResult, h]

/-- One result under shorter and under longer allow lists. -/
structure OnlyRelaxed (old new : ConstraintResult) : Prop where
  constraintId : new.constraintId = old.constraintId
  user : old.source = .user → new = old
  status : new.status = old.status ∨
    (old.source = .template ∧ old.status = .violated ∧ new.status = .satisfied)

/-- Longer allow lists keep every user result, turn template violations into satisfaction at
most, and never make the verdict worse. -/
theorem allow_lists_only_relax {svp : TargetSVP} {compiled : CompiledTarget}
    (h : compileTargetSvp svp = .ok compiled) {api : List APISurfaceAllowRule}
    {eff : List EffectAllowRule} (hapi : compiled.apiSurfaceAllowChanges ⊆ api)
    (heff : compiled.effectAllowNew ⊆ eff) (input : EvaluationInput)
    (hdelta : input.delta = Delta.computeCodeStateDelta input.baseline input.candidate)
    (hevidence : ∀ e ∈ input.candidate.effects, PlainEvidence e.evidence) :
    List.Forall₂ OnlyRelaxed (evaluateConstraints compiled input).results
        (evaluateConstraints (withAllowLists compiled api eff) input).results ∧
      (evaluateConstraints (withAllowLists compiled api eff) input).result ≤
        (evaluateConstraints compiled input).result := by
  have hplain : ∀ e ∈ input.delta.effectChanges.added, PlainEffect e := by
    rw [hdelta]
    exact plainEffect_of_added hevidence
  have hold := resultOf_independentResult compiled input
  have hnew := resultOf_independentResult (withAllowLists compiled api eff) input
  have huser (c : CompiledConstraint) (hc : c.source = .user) :
      independentResult (withAllowLists compiled api eff) input c =
        independentResult compiled input c := evaluateConstraint_user_eq hc ..
  have hstep : ∀ c ∈ compiled.constraints, Relaxes (independentResult compiled input c)
      (independentResult (withAllowLists compiled api eff) input c) := by
    intro c hc
    cases hsource : c.source with
    | user =>
        rw [huser c hsource]
        exact .refl _
    | template =>
        have hmem := mem_templateConstraints_of_template h hc hsource
        exact evaluateConstraint_template_relaxes hmem heff hapi input hplain
  constructor
  · refine EarlyExit.forall₂_run (fun c => ⟨rfl, fun _ => rfl, .inl rfl⟩) (fun c hc => ?_)
      (fun c _ => ?_) false
    · refine ⟨(hnew c).constraintId.trans (hold c).constraintId.symm, fun hsource => ?_, ?_⟩
      · exact huser c ((hold c).source.symm.trans hsource)
      · cases hstep c hc with
        | same status _ => exact .inl status
        | relaxed violated satisfied =>
            refine .inr ⟨?_, violated, satisfied⟩
            cases hsource : c.source with
            | template => exact (hold c).source.trans hsource
            | user =>
                rw [huser c hsource, violated] at satisfied
                cases satisfied
    · cases hsource : c.source with
      | user =>
          exact congrArg (shouldShortCircuit c) (huser c hsource)
      | template =>
          exact (shouldShortCircuit_of_template ((hnew c).source.trans hsource)).trans
            (shouldShortCircuit_of_template ((hold c).source.trans hsource)).symm
  · rw [evaluateConstraints_result_eq_worst, evaluateConstraints_result_eq_worst]
    exact worst_mono fun c hc => (hstep c hc).contribution_le (hold c) (hnew c)

/-- A feature whose only change is a new network call. -/
def networkFeature : TargetSVP where
  intent := ""
  change := { primaryKind := .feature }

def compiledNetworkFeature : CompiledTarget where
  intent := ""
  primaryKind := .feature
  allowedSecondaryKinds := []
  scope := []
  constraints := templateConstraints .feature

def newNetworkCall : CodeState where
  effects := [{
    fqn := "app.fetch"
    effectClass := .net
    evidence := .object [("resolved_call", .str "requests.get")] }]

def networkInput : EvaluationInput where
  delta := Delta.computeCodeStateDelta {} newNetworkCall
  baseline := {}
  candidate := newNetworkCall

/-- Allowing the class of the call turns a failing verdict into a passing one. -/
theorem allow_lists_only_relax_networkFeature :
    (evaluateConstraints compiledNetworkFeature networkInput).result = .fail ∧
      (evaluateConstraints (withAllowLists compiledNetworkFeature []
        [{ effectClass := some .net }]) networkInput).result = .pass ∧
      List.Forall₂ OnlyRelaxed (evaluateConstraints compiledNetworkFeature networkInput).results
        (evaluateConstraints (withAllowLists compiledNetworkFeature []
          [{ effectClass := some .net }]) networkInput).results := by
  have haccepted : compileTargetSvp networkFeature = .ok compiledNetworkFeature := rfl
  have hevidence : ∀ e ∈ newNetworkCall.effects, PlainEvidence e.evidence := by
    intro e he
    obtain rfl := List.mem_singleton.mp he
    exact ⟨"requests.get", rfl⟩
  have hrelaxed := allow_lists_only_relax haccepted (List.nil_subset [])
    (List.nil_subset [{ effectClass := some .net }]) networkInput rfl hevidence
  exact ⟨by decide +kernel, by decide +kernel, hrelaxed.1⟩

end SemanticCi.Evaluator
