import SemanticCi.Verification.Repair.Kinds

/-! When the JSON of a repair plan keeps the kinds of the evidence it stems from. -/

namespace SemanticCi.Repair

open SemanticCi.Python SemanticCi.Framework SemanticCi.Compiler SemanticCi.Operators
  SemanticCi.Evaluator SemanticCi.Report ExceptRules

/-! ## Results over JSON data -/

/-- The Python value is this JSON data, with no key repeated. -/
structure HoldsData (v : PyValue) (x : JsonValue) : Prop where
  holds : HoldsJson v x
  distinct : DistinctFields x

/-- The result of a constraint that compares these values: it has no operands, or it is the
outcome of the operator on JSON data. -/
inductive StemsFrom (c : CompiledConstraint) (compares : PyValue → PyValue → Prop) :
    ConstraintResult → Option (JsonValue × JsonValue) → Prop where
  | plain {r : ConstraintResult} (hnodup : (r.evidence.map Prod.fst).Nodup)
      (hitems : ∀ item ∈ r.evidence, item.1 ∈ ["target", "reason", "dimension", "error"] ∧
        ∃ s, item.2 = .str s) : StemsFrom c compares r none
  | pure {v e : PyValue} {x y : JsonValue} {outcome : OperatorOutcome} (hcompares : compares v e)
      (hop : c.operator ∉ baselineOperators) (hx : HoldsData v x) (hy : HoldsData e y)
      (houtcome : evaluatePureOperator c.operator v e c.tolerance = .ok outcome) :
      StemsFrom c compares (fromOperatorOutcome c outcome) (some (x, y))
  | baseline {v e : PyValue} {x y : JsonValue} {outcome : OperatorOutcome}
      (hcompares : compares v e) (hop : c.operator ∈ baselineOperators) (hx : HoldsData v x)
      (hy : HoldsData e y) (houtcome : evaluateBaselineOperator c.operator v e = .ok outcome) :
      StemsFrom c compares (fromOperatorOutcome c outcome) (some (x, y))

theorem evidence_perm (c : CompiledConstraint) (outcome : OperatorOutcome) :
    (fromOperatorOutcome c outcome).evidence.Perm outcome.evidence := by
  rw [fromOperatorOutcome, result]
  exact (List.perm_insertionSort _ _).trans (by simp)

theorem RawEvidence.of_perm {names : String × String} {wx wy : PyValue} {ev ev' : Evidence}
    (h : RawEvidence names wx wy ev) (hperm : ev'.Perm ev) : RawEvidence names wx wy ev' where
  nodup := (hperm.map Prod.fst).nodup_iff.mpr h.nodup
  items item hitem := h.items item (hperm.mem_iff.mp hitem)

theorem SetEvidence.of_perm {names : String × String} {ls rs : List PyValue} {ev ev' : Evidence}
    (h : SetEvidence names ls rs ev) (hperm : ev'.Perm ev) : SetEvidence names ls rs ev' where
  nodup := (hperm.map Prod.fst).nodup_iff.mpr h.nodup
  left := hperm.mem_iff.mpr h.left
  right := hperm.mem_iff.mpr h.right
  items item hitem := h.items item (hperm.mem_iff.mp hitem)

/-- The two forms of the evidence of an outcome. -/
inductive EvidenceForm (r : ConstraintResult) (x y : JsonValue) : Prop where
  | items {wx wy : PyValue} {ls rs : List PyValue} (hx : Encodes wx x) (hy : Encodes wy y)
      (hop : r.operator ∈ setOperators) (hls : itemsOf wx = some ls) (hrs : itemsOf wy = some rs)
      (hset : SetEvidence (operandNames r.operator) ls rs r.evidence)
  | raw {wx wy : PyValue} (hx : Encodes wx x) (hy : Encodes wy y)
      (hsatisfied : Collects r.operator x y → r.status = .satisfied)
      (hraw : RawEvidence (operandNames r.operator) wx wy r.evidence)

theorem collects_iff {operator : Operator} {x y : JsonValue} {wx wy : PyValue}
    (hx : Encodes wx x) (hy : Encodes wy y) :
    Collects operator x y ↔
      operator ∈ setOperators ∧ (itemsOf wx).isSome ∧ (itemsOf wy).isSome := by
  rw [Collects, isContainer_iff hx, isContainer_iff hy]

theorem StemsFrom.form {c : CompiledConstraint} {compares : PyValue → PyValue → Prop}
    {r : ConstraintResult} {x y : JsonValue} (h : StemsFrom c compares r (some (x, y))) :
    EvidenceForm r x y := by
  cases h with
  | @pure v e _ _ outcome hcompares hop hx hy houtcome =>
      obtain ⟨wx, hwx, hencx⟩ := encodes_of_holdsJson hx.holds hx.distinct
      obtain ⟨wy, hwy, hency⟩ := encodes_of_holdsJson hy.holds hy.distinct
      have hperm := evidence_perm c outcome
      have hnames : operandNames (fromOperatorOutcome c outcome).operator =
          ("observed", "expected") := if_neg hop
      rcases pure_evidence hwx hwy hencx.encoded hency.encoded houtcome with
        ⟨ls, rs, hset, hls, hrs, hevidence⟩ | ⟨hnot, hevidence⟩
      · exact .items hencx hency (List.mem_append_left _ hset) hls hrs
          (hnames ▸ hevidence.of_perm hperm)
      · refine .raw hencx hency (fun hcollects => absurd ?_ hnot)
          (hnames ▸ hevidence.of_perm hperm)
        obtain ⟨hop', hsome⟩ := (collects_iff hencx hency).mp hcollects
        rcases List.mem_append.mp hop' with hcoll | hbase
        · exact ⟨hcoll, hsome⟩
        · refine absurd ?_ hop
          have hsub : ∀ o ∈ ([.equalsBaseline, .unchanged, .supersetOfBaseline, .noNewItems,
              .noRemovedItems] : List Operator), o ∈ baselineOperators := by decide
          exact hsub _ hbase
  | @baseline v e _ _ outcome hcompares hop hx hy houtcome =>
      obtain ⟨wx, hwx, hencx⟩ := encodes_of_holdsJson hx.holds hx.distinct
      obtain ⟨wy, hwy, hency⟩ := encodes_of_holdsJson hy.holds hy.distinct
      have hperm := evidence_perm c outcome
      have hnames : operandNames (fromOperatorOutcome c outcome).operator =
          ("baseline", "candidate") := if_pos hop
      rcases baseline_evidence hop hwx hwy hencx.encoded hency.encoded houtcome with
        ⟨ls, rs, hset, hls, hrs, hevidence⟩ | ⟨hsatisfied, hevidence⟩
      · exact .items hencx hency hset hls hrs (hnames ▸ hevidence.of_perm hperm)
      · exact .raw hencx hency (fun hcollects => hsatisfied ((collects_iff hencx hency).mp hcollects))
          (hnames ▸ hevidence.of_perm hperm)

/-! ## Shapes -/

theorem operandNames_cases (operator : Operator) :
    operandNames operator = ("baseline", "candidate") ∨
      operandNames operator = ("observed", "expected") := by
  rw [operandNames]
  split
  · exact .inl rfl
  · exact .inr rfl

theorem EvidenceForm.shape {r : ConstraintResult} {x y : JsonValue} (h : EvidenceForm r x y) :
    EvidenceShape r.evidence := by
  have hslots : ∀ key ∈ ["added", "removed", "missing", "extra"],
      key ≠ (operandNames r.operator).1 ∧ key ≠ (operandNames r.operator).2 ∧
        key ∉ ["tolerance", "lower", "upper"] := by
    rcases operandNames_cases r.operator with hnames | hnames <;> rw [hnames] <;> decide
  cases h with
  | @items wx wy ls rs hx hy hop hls hrs hset =>
      have hencodedls := encoded_items hx.encoded hls
      have hencodedrs := encoded_items hy.encoded hrs
      refine ⟨hset.nodup, fun item hitem => ?_, fun item hitem hkey => ?_⟩
      · rcases hset.items item hitem with rfl | rfl | ⟨-, ds, hds, hfrom⟩
        · exact encoded_sortedValues hencodedls
        · exact encoded_sortedValues hencodedrs
        · rw [hds]
          refine encoded_sortedValues fun d hd => ?_
          rcases hfrom d hd with hd | hd | ⟨e, he, o, ho, rfl⟩
          · exact hencodedls d hd
          · exact hencodedrs d hd
          · exact encoded_matchedPair (hencodedrs e he) (hencodedls o ho)
      · rcases hset.items item hitem with rfl | rfl | ⟨-, ds, hds, -⟩
        · exact ⟨_, rfl⟩
        · exact ⟨_, rfl⟩
        · exact ⟨_, hds⟩
  | @raw wx wy hx hy hsatisfied hraw =>
      refine ⟨hraw.nodup, fun item hitem => ?_, fun item hitem hkey => ?_⟩
      · rcases hraw.items item hitem with rfl | rfl | ⟨-, s, hs⟩
        · exact hx.encoded
        · exact hy.encoded
        · rw [hs]
          exact .scalar s
      · obtain ⟨hleft, hright, hnumber⟩ := hslots item.1 hkey
        rcases hraw.items item hitem with rfl | rfl | ⟨hkey, -⟩
        · exact absurd rfl hleft
        · exact absurd rfl hright
        · exact absurd hkey hnumber

theorem StemsFrom.shape {c : CompiledConstraint} {compares : PyValue → PyValue → Prop}
    {r : ConstraintResult} {operands : Option (JsonValue × JsonValue)}
    (h : StemsFrom c compares r operands) : EvidenceShape r.evidence := by
  cases operands with
  | some operands => exact h.form.shape
  | none =>
      cases h with
      | plain hnodup hitems =>
          refine ⟨hnodup, fun item hitem => ?_, fun item hitem hkey => ?_⟩
          · obtain ⟨-, s, hs⟩ := hitems item hitem
            rw [hs]
            exact .scalar _
          · have hdisjoint : ∀ key ∈ ["added", "removed", "missing", "extra"],
                key ∉ ["target", "reason", "dimension", "error"] := by decide
            exact absurd (hitems item hitem).1 (hdisjoint _ hkey)

/-! ## Kept kinds -/

section Kept

variable {r : ConstraintResult} {x y : JsonValue} {payload : PyValue}

theorem names_not_detail (operator : Operator) :
    (operandNames operator).1 ≠ (operandNames operator).2 ∧
      (operandNames operator).1 ∉ detailKeys ∧ (operandNames operator).2 ∉ detailKeys ∧
      ∀ key ∈ ["tolerance", "lower", "upper"], key ≠ (operandNames operator).1 ∧
        key ≠ (operandNames operator).2 ∧ key ∉ detailKeys := by
  rcases operandNames_cases operator with hnames | hnames <;> rw [hnames] <;> decide

/-- What a set operator found, as JSON. -/
theorem detailItem_of_items {wx wy : PyValue} {xs ys : List JsonValue} {ls rs : List PyValue}
    (hx : Encodes wx (.array xs)) (hy : Encodes wy (.array ys)) (hls : itemsOf wx = some ls)
    (hrs : itemsOf wy = some rs) {d : PyValue}
    (hd : d ∈ ls ∨ d ∈ rs ∨ ∃ e ∈ rs, ∃ o ∈ ls, d = matchedPair e o) :
    DetailItem (.array xs) (.array ys) (jsonCanonicalValue d) := by
  rcases hd with hd | hd | ⟨e, he, o, ho, rfl⟩
  · obtain ⟨z, hz, hjson, -⟩ := shownItems_sound hx hls d hd
    exact .inl ⟨xs, .inl rfl, z, hz, hjson⟩
  · obtain ⟨z, hz, hjson, -⟩ := shownItems_sound hy hrs d hd
    exact .inl ⟨ys, .inr rfl, z, hz, hjson⟩
  · obtain ⟨a, ha, hjsona, -⟩ := shownItems_sound hy hrs e he
    obtain ⟨b, hb, hjsonb, -⟩ := shownItems_sound hx hls o ho
    have hpair : matchedPair e o = .seq .canonicalMapping
        ([("expected_item", e), ("observed_record", o)].map fieldTuple) := rfl
    refine .inr ⟨xs, ys, rfl, rfl, a, ha, b, hb, ?_⟩
    rw [hpair, json_mapping (by simp)]
    simp [hjsona, hjsonb]

theorem EvidenceForm.kindsKept_iff (h : EvidenceForm r x y) (hactionable : Actionable r)
    (hjson : ∀ item ∈ r.evidence,
      jsonEvidence payload item.1 = some (jsonCanonicalValue item.2)) :
    KindsKept r (some (x, y)) payload ↔
      (Collects r.operator x y → Uniform x ∧ Uniform y) := by
  obtain ⟨hne, hleft, hright, hnumbers⟩ := names_not_detail r.operator
  cases h with
  | @items wx wy ls rs hx hy hop hls hrs hset =>
      have hcollects : Collects r.operator x y :=
        (collects_iff hx hy).mpr ⟨hop, by simp [hls], by simp [hrs]⟩
      constructor
      · intro hkept _
        obtain ⟨out, hout, hentry⟩ := hkept x y rfl _ hset.left
        obtain ⟨out', hout', hentry'⟩ := hkept x y rfl _ hset.right
        rw [hjson _ hset.left] at hout
        rw [hjson _ hset.right] at hout'
        obtain rfl := Option.some.inj hout
        obtain rfl := Option.some.inj hout'
        exact ⟨(keeps_items_iff hx hls).mp (hentry.left rfl),
          (keeps_items_iff hy hrs).mp (hentry'.right rfl)⟩
      · intro hcondition x' y' hoperands item hitem
        obtain ⟨rfl, rfl⟩ := Prod.mk.inj (Option.some.inj hoperands)
        obtain ⟨huniformx, huniformy⟩ := hcondition hcollects
        refine ⟨_, hjson item hitem, ?_⟩
        rcases hset.items item hitem with rfl | rfl | ⟨hkey, ds, hds, hfrom⟩
        · exact ⟨fun _ => (keeps_items_iff hx hls).mpr huniformx, fun heq => absurd heq hne,
            fun hdetail => absurd hdetail hleft⟩
        · exact ⟨fun heq => absurd heq.symm hne, fun _ => (keeps_items_iff hy hrs).mpr huniformy,
            fun hdetail => absurd hdetail hright⟩
        · refine ⟨fun heq => absurd (heq ▸ hkey) hleft, fun heq => absurd (heq ▸ hkey) hright,
            fun _ => ?_⟩
          obtain ⟨xs, rfl, -⟩ := huniformx
          obtain ⟨ys, rfl, -⟩ := huniformy
          rw [hds, json_sortedValues]
          refine ⟨_, rfl, fun o ho => ?_⟩
          obtain ⟨d, hd, rfl⟩ := mem_shownItems.mp ho
          exact detailItem_of_items hx hy hls hrs (hfrom d hd)
  | @raw wx wy hx hy hsatisfied hraw =>
      have hnot : ¬ Collects r.operator x y := by
        intro hcollects
        have hstatus := hsatisfied hcollects
        simp [Actionable, hstatus] at hactionable
      refine ⟨fun _ hcollects => absurd hcollects hnot, fun _ x' y' hoperands item hitem => ?_⟩
      obtain ⟨rfl, rfl⟩ := Prod.mk.inj (Option.some.inj hoperands)
      refine ⟨_, hjson item hitem, ?_⟩
      rcases hraw.items item hitem with rfl | rfl | ⟨hkey, -⟩
      · exact ⟨fun _ => hx.json ▸ .same x, fun heq => absurd heq hne,
          fun hdetail => absurd hdetail hleft⟩
      · exact ⟨fun heq => absurd heq.symm hne, fun _ => hy.json ▸ .same y,
          fun hdetail => absurd hdetail hright⟩
      · obtain ⟨hnleft, hnright, hndetail⟩ := hnumbers item.1 hkey
        exact ⟨fun heq => absurd heq hnleft, fun heq => absurd heq hnright,
          fun hdetail => absurd hdetail hndetail⟩

end Kept

end SemanticCi.Repair
