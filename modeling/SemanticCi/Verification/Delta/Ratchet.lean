import SemanticCi.Library.Ratchet
import SemanticCi.Verification.Delta.Computed
import SemanticCi.Verification.Operators
import SemanticCi.Verification.Patterns

/-! A deny gate on the added records of a delta as a ratchet for the same gate on the state:
which pattern lists carry the gate from commit to commit. -/

namespace SemanticCi.Delta

open SemanticCi.Python SemanticCi.StateSchema SemanticCi.Framework SemanticCi.Compiler
  SemanticCi.PathResolver SemanticCi.Matching SemanticCi.Operators OrderedDict ExceptRules

/-! ## Gates -/

/-- The dimensions whose records a deny gate can name on both sides. -/
inductive Gated where
  | imports
  | effects
  | apiSurface
deriving DecidableEq

namespace Gated

def stateTarget : Gated → TargetPath
  | imports => ["imports"]
  | effects => ["effects"]
  | apiSurface => ["api_surface"]

def addedTarget : Gated → TargetPath
  | imports => ["imports_delta", "added"]
  | effects => ["effect_changes", "added"]
  | apiSurface => ["api_surface_delta", "added"]

end Gated

def denyOperators : List Operator := [.excludesAll, .subsetOf]

/-- The operator is satisfied on the resolved value. -/
def GateHolds (operator : Operator) (expected : PyValue) (resolved : Option JsonValue) : Prop :=
  ∃ v o, resolved = some v ∧ evaluatePureOperator operator v.toPy expected none = .ok o ∧
    o.status = .satisfied

def StateGate (x : Gated) (operator : Operator) (expected : PyValue) (s : CodeState) : Prop :=
  GateHolds operator expected (resolveState s x.stateTarget)

def DeltaGate (x : Gated) (operator : Operator) (expected : PyValue) (b c : CodeState) : Prop :=
  GateHolds operator expected (resolveDelta (computeCodeStateDelta b c) x.addedTarget)

/-- Some item of the pattern list matches the record. -/
def MatchedBy (expected : PyValue) (record : Norm) : Prop :=
  ∃ e, canon expected = .ok e ∧ ∃ pattern ∈ Members e.norm, Matches pattern record

/-- The literal canonicalizes to a collection. -/
def Usable (expected : PyValue) : Prop := ∃ e, canon expected = .ok e ∧ IsCollection e.norm

/-- What a deny gate asks of one record. -/
def Passes (operator : Operator) (expected : PyValue) (record : Norm) : Prop :=
  match operator with
  | .excludesAll => ¬ MatchedBy expected record
  | _ => MatchedBy expected record

theorem gateHolds_of_judged {operator : Operator} {expected : PyValue} {v : JsonValue}
    {status : ResultStatus} {cause : Option UnknownCause}
    (h : Judged (evaluatePureOperator operator v.toPy expected none) status cause) :
    GateHolds operator expected (some v) ↔ status = .satisfied := by
  obtain ⟨o, ho, hstatus, -⟩ := h
  constructor
  · rintro ⟨v, o', hv, ho', hsat⟩
    cases hv
    obtain rfl := Except.ok.inj (ho.symm.trans ho')
    exact hstatus.symm.trans hsat
  · rintro rfl
    exact ⟨v, o, rfl, ho, hstatus⟩

/-- The deny operators ask of every item what the gate asks of one record. -/
theorem setHolds_deny_iff {operator : Operator} (hop : operator ∈ denyOperators)
    {expected e : PyValue} (he : canon expected = .ok e) (items : List JsonValue) :
    SetHolds operator (Members (jsonNorm (.array items))) (Members e.norm) ↔
      ∀ v ∈ items, Passes operator expected (jsonNorm v) := by
  have hmatched (n : Norm) : MatchedBy expected n ↔
      ∃ pattern ∈ Members e.norm, Matches pattern n := by
    simp only [MatchedBy, he, Except.ok.injEq, exists_eq_left']
  simp only [denyOperators, List.mem_cons, List.not_mem_nil, or_false] at hop
  rcases hop with rfl | rfl
  · simp only [SetHolds, Passes, hmatched, jsonNorm_array, mem_members_tuple,
      List.mem_map, forall_exists_index, and_imp, forall_apply_eq_imp_iff₂]
    push Not
    exact ⟨fun h v hv p hp => h p hp v hv, fun h p hp v hv => h v hv p hp⟩
  · simp only [SetHolds, Passes, hmatched, jsonNorm_array, mem_members_tuple,
      List.mem_map, forall_exists_index, and_imp, forall_apply_eq_imp_iff₂]

/-- A deny gate on a list of records judges them one by one. -/
theorem gateHolds_iff {operator : Operator} (hop : operator ∈ denyOperators)
    (expected : PyValue) (items : List JsonValue) :
    GateHolds operator expected (some (.array items)) ↔
      Usable expected ∧ ∀ v ∈ items, Passes operator expected (jsonNorm v) := by
  have hcollection : operator ∈ collectionOperators := by
    revert hop
    cases operator <;> decide
  have hpure : operator ∈ pureOperators := by
    revert hop
    cases operator <;> decide
  obtain ⟨w, hw, hnorm⟩ := canon_toPy (.array items)
  cases hcanon : canon expected with
  | error err =>
      have herror := evaluatePureOperator_of_canon_error hpure hw hcanon none
      constructor
      · rintro ⟨v, o, hv, ho, -⟩
        cases hv
        rw [herror] at ho
        cases ho
      · rintro ⟨⟨e, he, -⟩, -⟩
        rw [hcanon] at he
        cases he
  | ok e =>
      have hcoll : IsCollection w.norm := by
        rw [hnorm]
        trivial
      by_cases husable : IsCollection e.norm
      · have hdecides := (decides_setOperator hcollection hw hcanon hcoll husable
          none).evaluatePureOperator
        have hholds := setHolds_deny_iff hop hcanon items
        rw [← hnorm] at hholds
        have huses : Usable expected := ⟨e, hcanon, husable⟩
        by_cases hp : SetHolds operator (Members w.norm) (Members e.norm)
        · have hgate := (gateHolds_of_judged (hdecides.satisfied hp)).mpr rfl
          exact iff_of_true hgate ⟨huses, hholds.mp hp⟩
        · refine iff_of_false (fun h => ?_) fun h => hp (hholds.mpr h.2)
          cases (gateHolds_of_judged (hdecides.violated hp)).mp h
      · have hmismatch := (judged_setOperator_mismatch hcollection hw hcanon
          (fun h => husable h.2) none).evaluatePureOperator
        rw [gateHolds_of_judged hmismatch]
        have hno : ¬ Usable expected := by
          rintro ⟨e', he', hcoll'⟩
          rw [hcanon] at he'
          cases he'
          exact husable hcoll'
        simp [hno]

/-! ## Records as a state and as a delta show them -/

/-- States as the extractor emits them: the visibility of an API record is a function of its
name, and an import is never from the empty module. -/
structure Emitted (visibility : String → Option String) (s : CodeState) : Prop where
  api : ∀ e ∈ s.apiSurface, e.visibility = visibility e.fqn
  imports : ∀ e ∈ s.imports, e.from_ ≠ some ""

/-- The records behind one gated dimension, with the two views that a gate gets of them. -/
structure GateView (x : Gated) where
  Record : Type
  Key : Type
  key : Record → Key
  added : List Record → List Record → Set Record
  isAdded : Ratchet.IsAdded key added
  emitted : (String → Option String) → Set Record
  records : CodeState → List Record
  ofRecords : List Record → CodeState
  records_ofRecords : ∀ rs, records (ofRecords rs) = rs
  emitted_records : ∀ vis s, Emitted vis s → ∀ r ∈ records s, r ∈ emitted vis
  emitted_ofRecords : ∀ vis rs, (∀ r ∈ rs, r ∈ emitted vis) → Emitted vis (ofRecords rs)
  stateView : Record → JsonValue
  deltaView : Record → JsonValue
  resolve_state : ∀ s, resolveState s x.stateTarget = some (.array ((records s).map stateView))
  resolve_added : ∀ b c, ∃ items,
    resolveDelta (computeCodeStateDelta b c) x.addedTarget = some (.array items) ∧
      ∀ v, v ∈ items ↔ ∃ r ∈ added (records b) (records c), v = deltaView r

theorem isAdded_indexBy {T K : Type} [DecidableEq K] [LE K] [DecidableLE K] (key : T → K) :
    Ratchet.IsAdded key fun b c => {e | e ∈ missingValues (indexBy key c) (indexBy key b)} where
  mem h := List.mem_of_find?_eq_some ((mem_missingValues_indexBy _ _ _ _).mp h).2
  fresh h y hy hkey := ((mem_missingValues_indexBy _ _ _ _).mp h).1
    ((mem_keys_indexBy _ _ _).mpr ⟨y, hy, hkey⟩)
  cover := by
    intro b c x hx
    by_cases hold : ∃ y ∈ b, key y = key x
    · exact .inl hold
    · obtain ⟨y, hy⟩ : ∃ y, c.find? (fun s => key s = key x) = some y := by
        rw [← Option.isSome_iff_exists, List.find?_isSome]
        exact ⟨x, hx, by simp⟩
      have hkey : key y = key x := by simpa using List.find?_some hy
      refine .inr ⟨y, (mem_missingValues_indexBy _ _ _ _).mpr ⟨?_, by rw [hkey]; exact hy⟩, hkey⟩
      rw [mem_keys_indexBy, hkey]
      exact hold

theorem isAdded_api : Ratchet.IsAdded apiKey fun b c =>
    {e | e ∈ c ∧ ∀ f ∈ b, apiKey f ≠ apiKey e} where
  mem h := h.1
  fresh h := h.2
  cover := by
    intro b c x hx
    by_cases hold : ∃ y ∈ b, apiKey y = apiKey x
    · exact .inl hold
    · push Not at hold
      exact .inr ⟨x, ⟨hx, hold⟩, rfl⟩

def importsView : GateView .imports where
  Record := ImportEntry
  Key := String ×ₗ String ×ₗ List String
  key := importKey
  added b c := {e | e ∈ missingValues (indexBy importKey c) (indexBy importKey b)}
  isAdded := isAdded_indexBy importKey
  emitted _ := {e | e.from_ ≠ some ""}
  records s := s.imports
  ofRecords rs := { imports := rs }
  records_ofRecords _ := rfl
  emitted_records _ _ h := h.imports
  emitted_ofRecords _ _ h := ⟨by simp, h⟩
  stateView e := .object e.dump
  deltaView e := .object e.dumpByAlias
  resolve_state _ := rfl
  resolve_added b c := ⟨_, rfl, fun v => by simp [computeCodeStateDelta, importsDelta, eq_comm]⟩

def effectsView : GateView .effects where
  Record := EffectEntry
  Key := String ×ₗ String ×ₗ String
  key := effectKey
  added b c := {e | e ∈ missingValues (indexBy effectKey c) (indexBy effectKey b)}
  isAdded := isAdded_indexBy effectKey
  emitted _ := Set.univ
  records s := s.effects
  ofRecords rs := { effects := rs }
  records_ofRecords _ := rfl
  emitted_records _ _ _ _ _ := trivial
  emitted_ofRecords _ _ _ := ⟨by simp, by simp⟩
  stateView e := .object e.dump
  deltaView e := .object e.dump
  resolve_state _ := rfl
  resolve_added b c := ⟨_, rfl, fun v => by simp [computeCodeStateDelta, effectChanges, eq_comm]⟩

def apiView : GateView .apiSurface where
  Record := APISurfaceEntry
  Key := String ×ₗ String
  key := apiKey
  added b c := {e | e ∈ c ∧ ∀ f ∈ b, apiKey f ≠ apiKey e}
  isAdded := isAdded_api
  emitted visibility := {e | e.visibility = visibility e.fqn}
  records s := s.apiSurface
  ofRecords rs := { apiSurface := rs }
  records_ofRecords _ := rfl
  emitted_records _ _ h := h.api
  emitted_ofRecords _ _ h := ⟨h, by simp⟩
  stateView e := .object e.dump
  deltaView := apiVariantDump
  resolve_state _ := rfl
  resolve_added b c := ⟨_, rfl, fun v => (mem_apiAdded _ _ v).trans (by simp [and_assoc])⟩

def gateView : (x : Gated) → GateView x
  | .imports => importsView
  | .effects => effectsView
  | .apiSurface => apiView

/-! ## The ratchet -/

/-- Whether some pattern matches a record is decided by the key of the record, the same way on
the state and on the delta. -/
structure KeyDetermined (x : Gated) (expected : PyValue) : Prop where
  views : ∀ vis, ∀ r ∈ (gateView x).emitted vis,
    MatchedBy expected (jsonNorm ((gateView x).stateView r)) ↔
      MatchedBy expected (jsonNorm ((gateView x).deltaView r))
  keys : ∀ vis, ∀ r ∈ (gateView x).emitted vis, ∀ r' ∈ (gateView x).emitted vis,
    (gateView x).key r = (gateView x).key r' →
      (MatchedBy expected (jsonNorm ((gateView x).stateView r)) ↔
        MatchedBy expected (jsonNorm ((gateView x).stateView r')))

/-- The delta gate as a ratchet for the state gate: one step in both directions, and any chain
of commits. -/
structure IsRatchet (x : Gated) (operator : Operator) (onState onDelta : PyValue) : Prop where
  forward : ∀ vis b c, Emitted vis b → Emitted vis c → StateGate x operator onState b →
    DeltaGate x operator onDelta b c → StateGate x operator onState c
  backward : ∀ vis b c, Emitted vis b → Emitted vis c → StateGate x operator onState c →
    DeltaGate x operator onDelta b c
  chain : ∀ vis first rest, (∀ s ∈ first :: rest, Emitted vis s) →
    StateGate x operator onState first →
    (first :: rest).IsChain (DeltaGate x operator onDelta) →
    ∀ s ∈ rest, StateGate x operator onState s

section IsRatchet

variable {x : Gated} {operator : Operator} (hop : operator ∈ denyOperators) (expected : PyValue)

include hop

theorem stateGate_iff (s : CodeState) :
    StateGate x operator expected s ↔ Usable expected ∧ ∀ r ∈ (gateView x).records s,
      Passes operator expected (jsonNorm ((gateView x).stateView r)) := by
  rw [StateGate, (gateView x).resolve_state, gateHolds_iff hop]
  simp

theorem deltaGate_iff (b c : CodeState) :
    DeltaGate x operator expected b c ↔ Usable expected ∧
      ∀ r ∈ (gateView x).added ((gateView x).records b) ((gateView x).records c),
        Passes operator expected (jsonNorm ((gateView x).deltaView r)) := by
  obtain ⟨items, hresolve, hitems⟩ := (gateView x).resolve_added b c
  rw [DeltaGate, hresolve, gateHolds_iff hop]
  simp only [hitems, forall_exists_index, and_imp]
  refine and_congr_right fun _ => ⟨fun h r hr => h _ r hr rfl, ?_⟩
  rintro h v r hr rfl
  exact h r hr

theorem passes_congr {n n' : Norm} (h : Passes operator expected n ↔ Passes operator expected n') :
    MatchedBy expected n ↔ MatchedBy expected n' := by
  simp only [denyOperators, List.mem_cons, List.not_mem_nil, or_false] at hop
  rcases hop with rfl | rfl
  · exact not_iff_not.mp h
  · exact h

theorem passes_iff_passes {n n' : Norm} (h : MatchedBy expected n ↔ MatchedBy expected n') :
    Passes operator expected n ↔ Passes operator expected n' := by
  simp only [denyOperators, List.mem_cons, List.not_mem_nil, or_false] at hop
  rcases hop with rfl | rfl
  · exact not_congr h
  · exact h

/-- The step law over lists of records. -/
theorem law_iff_keyDetermined :
    (∀ vis, Ratchet.Law (gateView x).added ((gateView x).emitted vis)
      (fun r => Passes operator expected (jsonNorm ((gateView x).stateView r)))
      (fun r => Passes operator expected (jsonNorm ((gateView x).deltaView r)))) ↔
      KeyDetermined x expected := by
  simp only [Ratchet.law_iff (gateView x).isAdded]
  constructor
  · intro h
    exact ⟨fun vis r hr => passes_congr hop expected ((h vis).1 r hr),
      fun vis r hr r' hr' hkey => passes_congr hop expected ((h vis).2 r hr r' hr' hkey)⟩
  · intro h vis
    exact ⟨fun r hr => passes_iff_passes hop expected (h.views vis r hr),
      fun r hr r' hr' hkey => passes_iff_passes hop expected (h.keys vis r hr r' hr' hkey)⟩

/-- A gate whose literal is not usable is never satisfied, and none of its patterns match. -/
theorem isRatchet_of_not_usable (h : ¬ Usable expected) :
    IsRatchet x operator expected expected where
  forward _ _ _ _ _ hb _ := absurd ((stateGate_iff hop expected _).mp hb).1 h
  backward _ _ _ _ _ hc := absurd ((stateGate_iff hop expected _).mp hc).1 h
  chain _ _ _ _ hfirst := absurd ((stateGate_iff hop expected _).mp hfirst).1 h

/-- A deny gate is a ratchet exactly when its patterns look at the key alone. -/
theorem isRatchet_iff : IsRatchet x operator expected expected ↔ KeyDetermined x expected := by
  by_cases husable : Usable expected
  · rw [← law_iff_keyDetermined hop expected]
    have hstate (s : CodeState) := stateGate_iff (x := x) hop expected s
    have hdelta (b c : CodeState) := deltaGate_iff (x := x) hop expected b c
    simp only [husable, true_and] at hstate hdelta
    constructor
    · intro h vis
      constructor
      · intro b c hb hc hP hQ
        have hforward := h.forward vis _ _ ((gateView x).emitted_ofRecords vis b hb)
          ((gateView x).emitted_ofRecords vis c hc)
        simp only [hstate, hdelta, (gateView x).records_ofRecords] at hforward
        exact hforward hP hQ
      · intro b c hb hc hP
        have hbackward := h.backward vis _ _ ((gateView x).emitted_ofRecords vis b hb)
          ((gateView x).emitted_ofRecords vis c hc)
        simp only [hstate, hdelta, (gateView x).records_ofRecords] at hbackward
        exact hbackward hP
    · intro h
      have hforward : ∀ vis b c, Emitted vis b → Emitted vis c →
          StateGate x operator expected b → DeltaGate x operator expected b c →
          StateGate x operator expected c := by
        intro vis b c hb hc hgate hadded
        rw [hstate] at hgate ⊢
        rw [hdelta] at hadded
        exact (h vis).forward _ _ ((gateView x).emitted_records vis b hb)
          ((gateView x).emitted_records vis c hc) hgate hadded
      refine ⟨hforward, fun vis b c hb hc hgate => ?_, fun vis first rest hemitted hfirst hchain =>
        ?_⟩
      · rw [hstate] at hgate
        rw [hdelta]
        exact (h vis).backward _ _ ((gateView x).emitted_records vis b hb)
          ((gateView x).emitted_records vis c hc) hgate
      · exact Ratchet.holds_along_chain
          (fun b hb c hc => hforward vis b c (hemitted b hb) (hemitted c hc)) hfirst hchain
  · refine iff_of_true (isRatchet_of_not_usable hop expected husable) ?_
    have hno (n : Norm) : ¬ MatchedBy expected n := by
      rintro ⟨e, he, pattern, hpattern, -⟩
      refine husable ⟨e, he, ?_⟩
      cases hnorm : e.norm with
      | scalar s =>
          rw [hnorm] at hpattern
          cases hpattern
      | tuple items => trivial
      | set items => trivial
    exact ⟨fun _ _ _ => iff_of_false (hno _) (hno _),
      fun _ _ _ _ _ _ => iff_of_false (hno _) (hno _)⟩

end IsRatchet

/-! ## Literals that only name keyed fields -/

/-- The Match Schema of both targets. -/
def Gated.schema : Gated → MatchSchema
  | .imports => importSchema
  | .effects => effectSchema
  | .apiSurface => apiSchema

theorem schema_stateTarget (x : Gated) : schemaForTarget x.stateTarget = some x.schema := by
  cases x <;> rfl

theorem schema_addedTarget (x : Gated) : schemaForTarget x.addedTarget = some x.schema := by
  cases x <;> rfl

theorem shown_import (e : ImportEntry) :
    (shown (jsonNorm (.object e.dump)) "module" = some (jsonNorm (.str e.module)) ∧
        shown (jsonNorm (.object e.dump)) "from" = some (jsonNorm (.ofOption .str e.from_))) ∧
      shown (jsonNorm (.object e.dumpByAlias)) "module" = some (jsonNorm (.str e.module)) ∧
      shown (jsonNorm (.object e.dumpByAlias)) "from" =
        some (jsonNorm (.ofOption .str e.from_)) := by
  have hdump : e.dump ≠ [] ∧ (e.dump.map Prod.fst).Nodup := by simp [ImportEntry.dump]
  have halias : e.dumpByAlias ≠ [] ∧ (e.dumpByAlias.map Prod.fst).Nodup := by
    simp [ImportEntry.dumpByAlias]
  simp only [shown_object hdump.1 hdump.2, shown_object halias.1 halias.2]
  exact ⟨⟨rfl, rfl⟩, rfl, rfl⟩

theorem shown_effect (e : EffectEntry) :
    shown (jsonNorm (.object e.dump)) "fqn" = some (jsonNorm (.str e.fqn)) ∧
      shown (jsonNorm (.object e.dump)) "effect_class" =
        some (jsonNorm (.str e.effectClass.value)) := by
  have hdump : e.dump ≠ [] ∧ (e.dump.map Prod.fst).Nodup := by simp [EffectEntry.dump]
  simp only [shown_object hdump.1 hdump.2]
  exact ⟨rfl, rfl⟩

theorem shown_api (e : APISurfaceEntry) :
    (shown (jsonNorm (.object e.dump)) "fqn" = some (jsonNorm (.str e.fqn)) ∧
        shown (jsonNorm (.object e.dump)) "kind" = some (jsonNorm (.str e.kind)) ∧
        shown (jsonNorm (.object e.dump)) "visibility" =
          some (jsonNorm (.ofOption .str e.visibility))) ∧
      shown (jsonNorm (apiVariantDump e)) "fqn" = some (jsonNorm (.str e.fqn)) ∧
      shown (jsonNorm (apiVariantDump e)) "kind" = some (jsonNorm (.str e.kind)) ∧
      shown (jsonNorm (apiVariantDump e)) "visibility" =
        some (jsonNorm (.ofOption .str e.visibility)) := by
  have hdump : e.dump ≠ [] ∧ (e.dump.map Prod.fst).Nodup := by simp [APISurfaceEntry.dump]
  have hvariant : (e.dump.filter fun item => item.1 ≠ "decorators") ≠ [] ∧
      ((e.dump.filter fun item => item.1 ≠ "decorators").map Prod.fst).Nodup := by
    simp [APISurfaceEntry.dump]
  simp only [apiVariantDump, shown_object hdump.1 hdump.2, shown_object hvariant.1 hvariant.2]
  exact ⟨⟨rfl, rfl, rfl⟩, rfl, rfl, rfl⟩

/-- The fields that the schema allows are determined by the key and look the same on both
sides. -/
theorem shown_of_key (x : Gated) {vis : String → Option String} {r r' : (gateView x).Record}
    (hr : r ∈ (gateView x).emitted vis) (hr' : r' ∈ (gateView x).emitted vis)
    (hkey : (gateView x).key r = (gateView x).key r') {key : String}
    (hallowed : key ∈ x.schema.allowedKeys) :
    shown (jsonNorm ((gateView x).stateView r)) key =
        shown (jsonNorm ((gateView x).stateView r')) key ∧
      shown (jsonNorm ((gateView x).stateView r)) key =
        shown (jsonNorm ((gateView x).deltaView r)) key := by
  cases x with
  | imports =>
      have hfields : importKey r = importKey r' := hkey
      simp only [importKey, toLex_inj, Prod.mk.injEq] at hfields
      obtain ⟨hmodule, hfrom, -⟩ := hfields
      have hfrom' : ImportEntry.from_ r = ImportEntry.from_ r' := by
        have hr : ImportEntry.from_ r ≠ some "" := hr
        have hr' : ImportEntry.from_ r' ≠ some "" := hr'
        cases h : ImportEntry.from_ r <;> cases h' : ImportEntry.from_ r' <;> simp_all
      obtain ⟨⟨h₁, h₂⟩, h₃, h₄⟩ := shown_import r
      obtain ⟨⟨h₁', h₂'⟩, -, -⟩ := shown_import r'
      simp only [Gated.schema, MatchSchema.allowedKeys, importSchema, List.mem_cons,
        List.not_mem_nil, or_false] at hallowed
      rcases hallowed with rfl | rfl
      · exact ⟨h₁.trans (by rw [hmodule]; exact h₁'.symm), h₁.trans h₃.symm⟩
      · exact ⟨h₂.trans (by rw [hfrom']; exact h₂'.symm), h₂.trans h₄.symm⟩
  | effects =>
      have hfields : effectKey r = effectKey r' := hkey
      simp only [effectKey, toLex_inj, Prod.mk.injEq] at hfields
      obtain ⟨hfqn, hclass, -⟩ := hfields
      obtain ⟨h₁, h₂⟩ := shown_effect r
      obtain ⟨h₁', h₂'⟩ := shown_effect r'
      simp only [Gated.schema, MatchSchema.allowedKeys, effectSchema, List.mem_cons,
        List.not_mem_nil, or_false] at hallowed
      rcases hallowed with rfl | rfl
      · exact ⟨h₁.trans (by rw [hfqn]; exact h₁'.symm), rfl⟩
      · exact ⟨h₂.trans (by rw [hclass]; exact h₂'.symm), rfl⟩
  | apiSurface =>
      have hfields : apiKey r = apiKey r' := hkey
      simp only [apiKey, toLex_inj, Prod.mk.injEq] at hfields
      obtain ⟨hfqn, hkind⟩ := hfields
      have hvisibility : APISurfaceEntry.visibility r = APISurfaceEntry.visibility r' := by
        have hr : APISurfaceEntry.visibility r = vis (APISurfaceEntry.fqn r) := hr
        have hr' : APISurfaceEntry.visibility r' = vis (APISurfaceEntry.fqn r') := hr'
        rw [hr, hr', hfqn]
      obtain ⟨⟨h₁, h₂, h₃⟩, h₄, h₅, h₆⟩ := shown_api r
      obtain ⟨⟨h₁', h₂', h₃'⟩, -⟩ := shown_api r'
      simp only [Gated.schema, MatchSchema.allowedKeys, apiSchema, List.mem_cons,
        List.not_mem_nil, or_false] at hallowed
      rcases hallowed with rfl | rfl | rfl
      · exact ⟨h₁.trans (by rw [hfqn]; exact h₁'.symm), h₁.trans h₄.symm⟩
      · exact ⟨h₂.trans (by rw [hkind]; exact h₂'.symm), h₂.trans h₅.symm⟩
      · exact ⟨h₃.trans (by rw [hvisibility]; exact h₃'.symm), h₃.trans h₆.symm⟩

/-- Every record reads as a mapping, on the state and on the delta. -/
theorem normPairs?_views (x : Gated) (r : (gateView x).Record) :
    normPairs? (jsonNorm ((gateView x).stateView r)) ≠ none ∧
      normPairs? (jsonNorm ((gateView x).deltaView r)) ≠ none := by
  have hobject {items : JsonMapping} (h : items ≠ []) :
      normPairs? (jsonNorm (.object items)) ≠ none := by
    rw [normPairs?_object h]
    exact Option.some_ne_none _
  cases x with
  | imports => exact ⟨hobject (List.cons_ne_nil _ _), hobject (List.cons_ne_nil _ _)⟩
  | effects => exact ⟨hobject (List.cons_ne_nil _ _), hobject (List.cons_ne_nil _ _)⟩
  | apiSurface =>
      refine ⟨hobject (List.cons_ne_nil _ _), hobject ?_⟩
      simp [APISurfaceEntry.dump]

theorem keyDetermined_of_namesOnly {x : Gated} {expected : PyValue}
    (h : ∀ e, canon expected = .ok e →
      ∀ pattern ∈ Members e.norm, NamesOnly x.schema.allowedKeys pattern) :
    KeyDetermined x expected := by
  have hkeys : "from_" ∉ x.schema.allowedKeys := by cases x <;> decide
  have hmatched {n n' : Norm} (hn : normPairs? n ≠ none) (hn' : normPairs? n' ≠ none)
      (hshown : ∀ key ∈ x.schema.allowedKeys, shown n key = shown n' key) :
      MatchedBy expected n ↔ MatchedBy expected n' := by
    refine exists_congr fun e => and_congr_right fun he => exists_congr fun pattern =>
      and_congr_right fun hpattern => ?_
    exact matches_congr hkeys (h e he pattern hpattern) hn hn' hshown
  constructor
  · intro vis r hr
    exact hmatched (normPairs?_views x r).1 (normPairs?_views x r).2
      fun key hallowed => (shown_of_key x hr hr rfl hallowed).2
  · intro vis r hr r' hr' hkey
    exact hmatched (normPairs?_views x r).1 (normPairs?_views x r').1
      fun key hallowed => (shown_of_key x hr hr' hkey hallowed).1

/-- The schema checks strings and mappings, so an accepted literal without nested lists is
always a ratchet. -/
theorem keyDetermined_of_flatItems {x : Gated} {operator : Operator}
    (hop : operator ∈ denyOperators) {literal onState : PyValue} (hflat : FlatItems literal)
    (h : normalizeCollectionExpected x.stateTarget operator literal = .ok onState) :
    KeyDetermined x (freezeExpected onState) := by
  have hcollection : operator ∈ collectionOperators := by
    revert hop
    cases operator <;> decide
  exact keyDetermined_of_namesOnly fun e he =>
    namesOnly_of_accepted (schema_stateTarget x) hcollection hflat h he

/-! ## Accepted literals -/

/-- An accepted literal makes the delta gate a ratchet for the state gate exactly when its
patterns look at the key of a record alone. -/
theorem deny_gate_ratchet_iff {x : Gated} {operator : Operator} (hop : operator ∈ denyOperators)
    {literal onState onDelta : PyValue}
    (hstate : normalizeCollectionExpected x.stateTarget operator literal = .ok onState)
    (hdelta : normalizeCollectionExpected x.addedTarget operator literal = .ok onDelta) :
    IsRatchet x operator (freezeExpected onState) (freezeExpected onDelta) ↔
      KeyDetermined x (freezeExpected onState) := by
  have hsame := normalizeCollectionExpected_target
    ((schema_addedTarget x).trans (schema_stateTarget x).symm) hstate
  obtain rfl := Except.ok.inj (hsame.symm.trans hdelta)
  exact isRatchet_iff hop _

/-- A function whose signature is all that the next commit changes. -/
def withSignature (signature : String) : CodeState where
  apiSurface := [{
    fqn := "app.f", kind := "function", signature := some signature,
    visibility := some "public" }]

/-- `- [[signature, "(x)"]]`: a pattern written as a list of pairs. -/
def signaturePairs : PyValue := .list [.list [.list [.str "signature", .str "(x)"]]]

/-- The pairs reach the matcher unchecked, and the delta hides the record whose key stayed. -/
theorem signaturePairs_slips_through :
    normalizeCollectionExpected ["api_surface"] .excludesAll signaturePairs = .ok signaturePairs ∧
      normalizeCollectionExpected ["api_surface_delta", "added"] .excludesAll signaturePairs =
        .ok signaturePairs ∧
      Emitted (fun _ => some "public") (withSignature "()") ∧
      Emitted (fun _ => some "public") (withSignature "(x)") ∧
      StateGate .apiSurface .excludesAll (freezeExpected signaturePairs) (withSignature "()") ∧
      DeltaGate .apiSurface .excludesAll (freezeExpected signaturePairs) (withSignature "()")
        (withSignature "(x)") ∧
      ¬ StateGate .apiSurface .excludesAll (freezeExpected signaturePairs)
        (withSignature "(x)") := by
  have hemitted (signature : String) :
      Emitted (fun _ => some "public") (withSignature signature) :=
    ⟨by simp [withSignature], by simp [withSignature]⟩
  refine ⟨rfl, rfl, hemitted _, hemitted _, ⟨_, _, rfl, rfl, rfl⟩, ⟨_, _, rfl, rfl, rfl⟩, ?_⟩
  rintro ⟨v, o, hv, ho, hstatus⟩
  cases hv
  cases ho
  cases hstatus

/-- A plain list of modules carries its gate from commit to commit. -/
theorem deny_gate_ratchet_iff_modules :
    IsRatchet .imports .excludesAll (freezeExpected (.list [.dict [(.str "module", .str "pickle")]]))
      (freezeExpected (.list [.dict [(.str "module", .str "pickle")]])) := by
  have hnormalized : normalizeCollectionExpected Gated.imports.stateTarget .excludesAll
      (.list [.str "pickle"]) = .ok (.list [.dict [(.str "module", .str "pickle")]]) := rfl
  have haccepted : normalizeCollectionExpected Gated.imports.addedTarget .excludesAll
      (.list [.str "pickle"]) = .ok (.list [.dict [(.str "module", .str "pickle")]]) := rfl
  refine (deny_gate_ratchet_iff (by decide) hnormalized haccepted).mpr ?_
  have hflat : FlatItems (.list [.str "pickle"]) := by
    intro item hitem
    obtain rfl := List.mem_singleton.mp hitem
    rfl
  exact keyDetermined_of_flatItems (by decide) hflat hnormalized

end SemanticCi.Delta
