import SemanticCi.Verification.Operators
import SemanticCi.Model.TargetCompiler

/-! What the compiler guarantees about every constraint of a compiled target. -/

namespace SemanticCi.Compiler

open SemanticCi.Python SemanticCi.Framework SemanticCi.Matching SemanticCi.Operators ExceptRules

/-- The static checks that a user constraint of kind `state` or `delta` has passed, with the
literal as written. -/
structure Checked (kind : ConstraintKind) (target : TargetPath) (operator : Operator)
    (literal : PyValue) : Prop where
  target_exists : target ∈ (if kind = .state then validStateTargetPaths else
    validDeltaTargetPaths) ∨ isOpenPath target = true
  domain : checkOperatorTargetCompatibility kind target operator = none
  types : checkTypeCompatibility target operator literal = none

/-- A user constraint as compilation leaves it. -/
structure Admitted (c : CompiledConstraint) : Prop where
  source : c.source = .user
  checked : c.kind ≠ .repair → ∃ literal normalized, Checked c.kind c.target c.operator literal ∧
    normalizeCollectionExpected c.target c.operator literal = .ok normalized ∧
    c.expected = freezeExpected normalized

/-! ## From an accepted target -/

theorem validateConstraint_ok {index : ℕ} {c : Constraint}
    (h : validateConstraint index c = .ok ()) :
    checkOperatorTargetCompatibility c.kind c.target c.operator = none ∧
      checkTypeCompatibility c.target c.operator c.expected = none := by
  unfold validateConstraint at h
  cases hdomain : checkOperatorTargetCompatibility c.kind c.target c.operator with
  | some mismatch => rw [hdomain] at h; cases h
  | none =>
      cases htypes : checkTypeCompatibility c.target c.operator c.expected with
      | some mismatch => rw [hdomain, htypes] at h; cases h
      | none => exact ⟨rfl, rfl⟩

/-- A target that the hint of an error proposes exists. -/
theorem exists_of_mem_suggestTargets {target : TargetPath} {allowed : List TargetPath}
    {text : String} (h : text ∈ suggestTargets target allowed) :
    ∃ path ∈ allowed, path.text = text := by
  have hmem := List.mem_dedup.mp (Difflib.mem_of_mem_getCloseMatches h)
  exact List.mem_map.mp hmem

theorem validateTarget_checked {index : ℕ} {c : Constraint} (h : validateTarget index c = .ok ())
    (hkind : c.kind ≠ .repair) : Checked c.kind c.target c.operator c.expected := by
  unfold validateTarget at h
  by_cases hempty : c.target = [""]
  · rw [if_pos hempty] at h
    cases h
  · rw [if_neg hempty, if_neg hkind] at h
    by_cases htarget : c.target ∈ (if c.kind = .state then validStateTargetPaths else
        validDeltaTargetPaths) ∨ isOpenPath c.target = true
    · obtain ⟨hdomain, htypes⟩ := validateConstraint_ok ((if_pos htarget).symm.trans h)
      exact ⟨htarget, hdomain, htypes⟩
    · cases (if_neg htarget).symm.trans h

theorem validateConstraintsFrom_mem {index : ℕ} {cs : List Constraint}
    (h : validateConstraintsFrom index cs = .ok ()) {c : Constraint} (hc : c ∈ cs) :
    ∃ i, validateTarget i c = .ok () := by
  induction cs generalizing index with
  | nil => cases hc
  | cons d rest ih =>
      obtain ⟨⟨⟩, hd, hrest⟩ := bind_eq_ok_iff.mp h
      rcases List.mem_cons.mp hc with rfl | hc
      · exact ⟨index, hd⟩
      · exact ih hrest hc

theorem compileUserConstraint_admitted {index : ℕ} {c : Constraint} {compiled : CompiledConstraint}
    (hvalid : validateTarget index c = .ok ()) (h : compileUserConstraint c = .ok compiled) :
    Admitted compiled := by
  obtain ⟨expected, hexpected, hcompiled⟩ := bind_eq_ok_iff.mp h
  cases hcompiled
  refine ⟨rfl, fun hkind => ⟨c.expected, expected, validateTarget_checked hvalid hkind, ?_, rfl⟩⟩
  have hkind' : c.kind ≠ .repair := hkind
  rw [normalizedExpected, if_neg hkind'] at hexpected
  split at hexpected
  · rename_i normalized hnormalized
    cases hexpected
    exact hnormalized
  · cases hexpected
  · cases hexpected

/-- An accepted target consists of the template of its change kind and of admitted user
constraints. -/
theorem compileTargetSvp_constraints {svp : TargetSVP} {compiled : CompiledTarget}
    (h : compileTargetSvp svp = .ok compiled) :
    ∃ users, compiled.constraints = templateConstraints compiled.primaryKind ++ users ∧
      ∀ c ∈ users, Admitted c := by
  obtain ⟨⟨⟩, hvalid, h⟩ := bind_eq_ok_iff.mp h
  obtain ⟨users, husers, h⟩ := bind_eq_ok_iff.mp h
  obtain ⟨⟨⟩, -, h⟩ := bind_eq_ok_iff.mp h
  cases h
  refine ⟨users, rfl, fun c hc => ?_⟩
  obtain ⟨⟨⟩, hconstraints, -⟩ := bind_eq_ok_iff.mp hvalid
  obtain ⟨raw, hraw, hcompile⟩ := exists_of_mem_mapM husers hc
  obtain ⟨index, hindex⟩ := validateConstraintsFrom_mem hconstraints hraw
  exact compileUserConstraint_admitted hindex hcompile

theorem source_of_mem_templateConstraints {kind : StateSchema.ChangeKind} {c : CompiledConstraint}
    (hc : c ∈ templateConstraints kind) : c.source = .template := by
  cases kind <;> simp only [templateConstraints, List.mem_cons, List.not_mem_nil, or_false] at hc
  · rcases hc with rfl | rfl <;> rfl
  · rcases hc with rfl | rfl <;> rfl
  · rcases hc with rfl | rfl | rfl | rfl <;> rfl
  · rcases hc with rfl | rfl | rfl <;> rfl

theorem admitted_of_user {svp : TargetSVP} {compiled : CompiledTarget}
    (h : compileTargetSvp svp = .ok compiled) {c : CompiledConstraint}
    (hc : c ∈ compiled.constraints) (huser : c.source = .user) : Admitted c := by
  obtain ⟨users, hsplit, husers⟩ := compileTargetSvp_constraints h
  rw [hsplit, List.mem_append] at hc
  rcases hc with hc | hc
  · rw [source_of_mem_templateConstraints hc] at huser
    cases huser
  · exact husers c hc

theorem mem_templateConstraints_of_template {svp : TargetSVP} {compiled : CompiledTarget}
    (h : compileTargetSvp svp = .ok compiled) {c : CompiledConstraint}
    (hc : c ∈ compiled.constraints) (htemplate : c.source = .template) :
    c ∈ templateConstraints compiled.primaryKind := by
  obtain ⟨users, hsplit, husers⟩ := compileTargetSvp_constraints h
  rw [hsplit, List.mem_append] at hc
  rcases hc with hc | hc
  · exact hc
  · rw [(husers c hc).source] at htemplate
    cases htemplate

/-! ## The shape of the literal -/

@[simp] theorem freezeList_eq_map (items : List PyValue) :
    freezeList items = items.map freezeExpected := by
  induction items with
  | nil => rfl
  | cons x xs ih => simp [freezeList, ih]

theorem asNumber?_freezeExpected (v : PyValue) : (freezeExpected v).asNumber? = v.asNumber? := by
  match v with
  | .scalar _ => rfl
  | .dict _ => rfl
  | .set _ => rfl
  | .seq .list _ => rfl
  | .seq .tuple _ => rfl
  | .seq .canonicalMapping _ => rfl

theorem normalizeCollectionExpected_of_not_mem {target : TargetPath} {operator : Operator}
    (hop : operator ∉ collectionOperators) (literal : PyValue) :
    normalizeCollectionExpected target operator literal = .ok literal := if_pos hop

/-- A sequence literal of a set operator stays a sequence. -/
theorem normalizeCollectionExpected_seq {target : TargetPath} {operator : Operator}
    {literal normalized : PyValue} (hliteral : literal.isListOrTuple = true)
    (h : normalizeCollectionExpected target operator literal = .ok normalized) :
    ∃ kind items, freezeExpected normalized = .seq kind items := by
  have hfreeze (kind : SeqKind) (items : List PyValue) :
      ∃ kind' items', freezeExpected (.seq kind items) = .seq kind' items' := by
    cases kind
    · exact ⟨_, _, rfl⟩
    · exact ⟨_, _, rfl⟩
    · exact ⟨_, _, rfl⟩
  match literal, hliteral with
  | .seq kind items, _ =>
      unfold normalizeCollectionExpected at h
      split at h
      · cases h
        exact hfreeze kind items
      · split at h
        case h_1 =>
          split at h
          · cases h
          · split at h
            · cases h
            · cases h
              exact hfreeze kind items
        case h_2 heq => cases heq
        case h_3 =>
          obtain ⟨items', -, hnormalized⟩ := bind_eq_ok_iff.mp h
          cases hnormalized
          exact hfreeze _ _
        case h_4 =>
          cases h
          exact hfreeze kind items

/-- What the type check accepts: the category of the target first, then the literal. -/
structure TypesFit (target : TargetPath) (operator : Operator) (literal : PyValue) : Prop where
  collection : categoryForTarget target ≠ .unknownOpen → operator ∈ typedCollectionOperators →
    categoryForTarget target ∈ collectionCategories
  number : categoryForTarget target ≠ .unknownOpen →
    (operator ∈ numericOperators ∨ operator = .withinRange) →
    categoryForTarget target = .scalarNumber
  literal : (operator ∈ collectionOperatorsWithExpected → literal.isListOrTuple = true) ∧
    (operator ∈ numericOperators → isRealNumber literal = true) ∧
    (operator = .withinRange → isNumberPair literal = true)

theorem expectedShape_spec {target : TargetPath} {operator : Operator} {literal : PyValue}
    (h : checkExpectedShape target operator literal = none) :
    (operator ∈ collectionOperatorsWithExpected → literal.isListOrTuple = true) ∧
      (operator ∈ numericOperators → isRealNumber literal = true) ∧
      (operator = .withinRange → isNumberPair literal = true) := by
  have hdisjoint : operator ∈ numericOperators → operator ∉ collectionOperatorsWithExpected := by
    cases operator <;> decide
  unfold checkExpectedShape at h
  refine ⟨fun hop => ?_, fun hop => ?_, fun hop => ?_⟩
  · by_contra hno
    rw [if_pos hop, if_neg hno] at h
    cases h
  · by_contra hno
    rw [if_neg (hdisjoint hop), if_pos hop, if_neg hno] at h
    cases h
  · by_contra hno
    subst hop
    rw [if_neg (by decide), if_neg (by decide), if_pos rfl, if_neg hno] at h
    cases h

theorem types_spec {target : TargetPath} {operator : Operator} {literal : PyValue}
    (h : checkTypeCompatibility target operator literal = none) :
    TypesFit target operator literal := by
  simp only [checkTypeCompatibility] at h
  split at h
  · cases h
  · rename_i hcollection
    split at h
    · cases h
    · rename_i hnumber
      refine ⟨fun hclosed hop => ?_, fun hclosed hop => ?_, expectedShape_spec h⟩
      · by_contra hno
        exact hcollection ⟨hclosed, hop, hno⟩
      · by_contra hno
        exact hnumber ⟨hclosed, hop, hno⟩

theorem isNumberPair_spec {v : PyValue} (h : isNumberPair v = true) :
    ∃ kind low high a b, v = .seq kind [low, high] ∧ low.asNumber? = some a ∧
      high.asNumber? = some b := by
  unfold isNumberPair at h
  split at h
  · rename_i kind low high
    obtain ⟨hlow, hhigh⟩ := (Bool.and_eq_true _ _).mp h
    obtain ⟨a, ha⟩ := Option.isSome_iff_exists.mp hlow
    obtain ⟨b, hb⟩ := Option.isSome_iff_exists.mp hhigh
    exact ⟨kind, low, high, a, b, rfl, ha, hb⟩
  · cases h

namespace Admitted

variable {c : CompiledConstraint} (hc : Admitted c) (hkind : c.kind ≠ .repair)

include hc hkind

theorem expected_seq (hop : c.operator ∈ collectionOperators) :
    ∃ kind items, c.expected = .seq kind items := by
  obtain ⟨literal, normalized, hchecked, hnormalized, hexpected⟩ := hc.checked hkind
  obtain ⟨hlist, -, -⟩ := (types_spec hchecked.types).literal
  obtain ⟨kind, items, hseq⟩ := normalizeCollectionExpected_seq (hlist hop) hnormalized
  exact ⟨kind, items, hexpected.trans hseq⟩

theorem expected_number (hop : c.operator ∈ numericOperators) :
    ∃ n, c.expected.asNumber? = some n := by
  obtain ⟨literal, normalized, hchecked, hnormalized, hexpected⟩ := hc.checked hkind
  have hpure : c.operator ∉ collectionOperators := by
    revert hop
    cases c.operator <;> decide
  rw [normalizeCollectionExpected_of_not_mem hpure] at hnormalized
  cases hnormalized
  obtain ⟨-, hnumber, -⟩ := (types_spec hchecked.types).literal
  rw [hexpected, asNumber?_freezeExpected]
  exact Option.isSome_iff_exists.mp (hnumber hop)

theorem expected_range (hop : c.operator = .withinRange) :
    ∃ kind low high a b, c.expected = .seq kind [low, high] ∧ low.asNumber? = some a ∧
      high.asNumber? = some b := by
  obtain ⟨literal, normalized, hchecked, hnormalized, hexpected⟩ := hc.checked hkind
  rw [normalizeCollectionExpected_of_not_mem (by rw [hop]; decide)] at hnormalized
  cases hnormalized
  obtain ⟨-, -, hrange⟩ := (types_spec hchecked.types).literal
  obtain ⟨kind, low, high, a, b, rfl, ha, hb⟩ := isNumberPair_spec (hrange hop)
  cases kind with
  | list =>
      refine ⟨.tuple, freezeExpected low, freezeExpected high, a, b, ?_, ?_, ?_⟩
      · simpa [freezeExpected] using hexpected
      · rw [asNumber?_freezeExpected, ha]
      · rw [asNumber?_freezeExpected, hb]
  | tuple => exact ⟨_, low, high, a, b, hexpected, ha, hb⟩
  | canonicalMapping => exact ⟨_, low, high, a, b, hexpected, ha, hb⟩

theorem collection_category (hop : c.operator ∈ typedCollectionOperators)
    (hclosed : categoryForTarget c.target ≠ .unknownOpen) :
    categoryForTarget c.target ∈ collectionCategories := by
  obtain ⟨literal, normalized, hchecked, -, -⟩ := hc.checked hkind
  exact (types_spec hchecked.types).collection hclosed hop

theorem number_category (hop : c.operator ∈ numericOperators ∨ c.operator = .withinRange)
    (hclosed : categoryForTarget c.target ≠ .unknownOpen) :
    categoryForTarget c.target = .scalarNumber := by
  obtain ⟨literal, normalized, hchecked, -, -⟩ := hc.checked hkind
  exact (types_spec hchecked.types).number hclosed hop

end Admitted

end SemanticCi.Compiler
