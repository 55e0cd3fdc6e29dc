import SemanticCi.Verification.Delta.Rebuild

/-! The net complexity number against the details per function. -/

namespace SemanticCi.Delta

open SemanticCi.Python SemanticCi.StateSchema OrderedDict

/-! ### Reading the details -/

/-- The records of `python_specific.complexity_changes`, none where a key is absent. -/
def complexityDetail (d : CodeStateDelta) (field : String) : List JsonValue :=
  readArray (d.pythonSpecific.bind fun items =>
    (JsonValue.get? items "complexity_changes").bind fun detail => readField detail field)

/-- A metric of a record, with null as zero. -/
def readMetric (metric : String) (value : JsonValue) : ℤ :=
  match readField value metric with
  | some (.int n) => n
  | _ => 0

/-- What the details add up to: the added functions, less the removed ones, and the change of
each function of both sides. -/
def detailTotal (metric : String) (d : CodeStateDelta) : ℤ :=
  ((complexityDetail d "added").map (readMetric metric)).sum -
    ((complexityDetail d "removed").map (readMetric metric)).sum +
    ((complexityDetail d "changed").map fun change =>
      readMetric metric ((readField change "after").getD .null) -
        readMetric metric ((readField change "before").getD .null)).sum

/-- The details tell of the functions what the net delta tells of the states. -/
structure ComplexityBalance (b c : CodeState) (d : CodeStateDelta) : Prop where
  cyclomatic : d.complexityDelta.cyclomatic = detailTotal "cyclomatic" d
  cognitive : d.complexityDelta.cognitive = detailTotal "cognitive" d
  absent : d.pythonSpecific.bind (JsonValue.get? · "complexity_changes") = none ↔
    {entry | entry ∈ b.complexity} = {entry | entry ∈ c.complexity}

/-! ### Changed pairs -/

section ChangedPairs

variable {K T : Type} [DecidableEq K] [LE K] [DecidableLE K] {base cand : OrderedDict K T}
  {differs : T → T → Bool}

theorem changedPairs_eq_nil_iff :
    changedPairs base cand differs = [] ↔ ∀ k before after, base.get? k = some before →
      cand.get? k = some after → differs before after = false := by
  rw [changedPairs, List.filterMap_eq_nil_iff]
  constructor
  · intro h k before after hbefore hafter
    have hk : k ∈ sortedCommonKeys base cand := by
      rw [mem_sortedCommonKeys, ← get?_isSome_iff, ← get?_isSome_iff, hbefore, hafter]
      exact ⟨rfl, rfl⟩
    simpa [hbefore, hafter] using h k hk
  · intro h k _
    cases hbefore : base.get? k with
    | none => rfl
    | some before =>
        cases hafter : cand.get? k with
        | none => rfl
        | some after => simp [h k before after hbefore hafter]

/-- What does not change does not count. -/
theorem sum_changedPairs (base cand : OrderedDict K T) (value : T → ℤ)
    (hsame : ∀ before after, differs before after = false → value before = value after) :
    ((changedPairs base cand differs).map fun pair => value pair.2 - value pair.1).sum =
      (((sortedCommonKeys base cand).filterMap cand.get?).map value).sum -
        (((sortedCommonKeys base cand).filterMap base.get?).map value).sum := by
  have hcommon : ∀ k ∈ sortedCommonKeys base cand, k ∈ base.keys ∧ k ∈ cand.keys := by simp
  rw [changedPairs]
  generalize sortedCommonKeys base cand = keys at hcommon
  induction keys with
  | nil => simp
  | cons k keys ih =>
      obtain ⟨⟨hbase, hcand⟩, hrest⟩ := List.forall_mem_cons.mp hcommon
      obtain ⟨before, hbefore⟩ := Option.isSome_iff_exists.mp ((get?_isSome_iff base k).mpr hbase)
      obtain ⟨after, hafter⟩ := Option.isSome_iff_exists.mp ((get?_isSome_iff cand k).mpr hcand)
      have htail := ih hrest
      cases hdiff : differs before after with
      | true =>
          simp only [List.filterMap_cons, hbefore, hafter, hdiff, if_true, List.map_cons,
            List.sum_cons]
          omega
      | false =>
          have hvalue := hsame before after hdiff
          simp only [List.filterMap_cons, hbefore, hafter, hdiff, Bool.false_eq_true, if_false,
            List.map_cons, List.sum_cons]
          omega

end ChangedPairs

/-! ### The balance -/

/-- The functions whose metrics differ. -/
def metricsDiffer (before after : ComplexityEntry) : Bool :=
  before.cyclomatic ≠ after.cyclomatic ∨ before.cognitive ≠ after.cognitive

section Balance

variable {b c : List ComplexityEntry} (hb : (b.map complexityKey).Nodup)
  (hc : (c.map complexityKey).Nodup)

include hb hc

theorem sum_balance (field : ComplexityEntry → Option ℤ)
    (hsame : ∀ before after, metricsDiffer before after = false → field before = field after) :
    sumComplexity field c - sumComplexity field b =
      sumComplexity field (missingValues (indexBy complexityKey c) (indexBy complexityKey b)) -
        sumComplexity field (missingValues (indexBy complexityKey b) (indexBy complexityKey c)) +
        ((changedPairs (indexBy complexityKey b) (indexBy complexityKey c) metricsDiffer).map
          fun pair => (field pair.2).getD 0 - (field pair.1).getD 0).sum := by
  have hvalue : ∀ before after, metricsDiffer before after = false →
      (field before).getD 0 = (field after).getD 0 :=
    fun before after h => congrArg (Option.getD · 0) (hsame before after h)
  have hchanged := sum_changedPairs (indexBy complexityKey b) (indexBy complexityKey c)
    (fun entry => (field entry).getD 0) hvalue
  have hbase := values_perm (indexBy complexityKey b) (indexBy complexityKey c)
  have hcand := values_perm (indexBy complexityKey c) (indexBy complexityKey b)
  rw [values_indexBy_of_nodup _ hb] at hbase
  rw [values_indexBy_of_nodup _ hc, sortedCommonKeys_comm] at hcand
  have hbsum := (hbase.map fun entry => (field entry).getD 0).sum_eq
  have hcsum := (hcand.map fun entry => (field entry).getD 0).sum_eq
  rw [List.map_append, List.sum_append] at hbsum hcsum
  simp only [sumComplexity, hchanged, hbsum, hcsum]
  omega

theorem complexityChanges_eq_none_iff :
    complexityChanges b c = none ↔ {entry | entry ∈ b} = {entry | entry ∈ c} := by
  have hdef : complexityChanges b c = none ↔
      missingValues (indexBy complexityKey c) (indexBy complexityKey b) = [] ∧
        missingValues (indexBy complexityKey b) (indexBy complexityKey c) = [] ∧
        changedPairs (indexBy complexityKey b) (indexBy complexityKey c) metricsDiffer = [] := by
    simp only [complexityChanges, ite_eq_left_iff, reduceCtorEq, imp_false, not_not]
    rfl
  rw [hdef, missingValues_indexBy_eq_nil_iff, missingValues_indexBy_eq_nil_iff,
    changedPairs_eq_nil_iff]
  constructor
  · rintro ⟨hadded, hremoved, hchanged⟩
    have hboth {before after : ComplexityEntry} (hbefore : before ∈ b) (hafter : after ∈ c)
        (hkey : before.fqn = after.fqn) : before = after := by
      have hdiff := hchanged before.fqn before after (get?_indexBy_of_mem complexityKey hb hbefore)
        (hkey ▸ get?_indexBy_of_mem complexityKey hc hafter)
      simp only [metricsDiffer, decide_eq_false_iff_not, not_or, not_not] at hdiff
      cases before
      cases after
      simp_all
    ext entry
    constructor
    · intro hentry
      obtain ⟨after, hafter, hkey⟩ := hremoved entry hentry
      exact hboth hentry hafter hkey.symm ▸ hafter
    · intro hentry
      obtain ⟨before, hbefore, hkey⟩ := hadded entry hentry
      exact hboth hbefore hentry hkey ▸ hbefore
  · intro hset
    have hmem (entry : ComplexityEntry) : entry ∈ b ↔ entry ∈ c := Set.ext_iff.mp hset entry
    refine ⟨fun entry h => ⟨entry, (hmem entry).mpr h, rfl⟩,
      fun entry h => ⟨entry, (hmem entry).mp h, rfl⟩, ?_⟩
    intro k before after hbefore hafter
    rw [get?_indexBy] at hbefore hafter
    have hin := (hmem before).mp (List.mem_of_find?_eq_some hbefore)
    have hkey : complexityKey before = k := by simpa using List.find?_some hbefore
    rw [← hkey, ← get?_indexBy, get?_indexBy_of_mem complexityKey hc hin] at hafter
    obtain rfl := Option.some.inj hafter
    simp [metricsDiffer]

end Balance

theorem readMetric_dump (entry : ComplexityEntry) :
    readMetric "cyclomatic" (.object entry.dump) = entry.cyclomatic.getD 0 ∧
      readMetric "cognitive" (.object entry.dump) = entry.cognitive.getD 0 := by
  cases hcyclomatic : entry.cyclomatic <;> cases hcognitive : entry.cognitive <;>
    simp [readMetric, readField, ComplexityEntry.dump, JsonValue.get?, JsonValue.ofOption,
      hcyclomatic, hcognitive]

/-- The total of the details, read back from the records they were dumped from. -/
theorem detailTotal_eq (b c : CodeState) {metric : String} {field : ComplexityEntry → Option ℤ}
    (hread : ∀ entry, readMetric metric (.object entry.dump) = (field entry).getD 0) :
    detailTotal metric (computeCodeStateDelta b c) =
      sumComplexity field (missingValues (indexBy complexityKey c.complexity)
          (indexBy complexityKey b.complexity)) -
        sumComplexity field (missingValues (indexBy complexityKey b.complexity)
          (indexBy complexityKey c.complexity)) +
        ((changedPairs (indexBy complexityKey b.complexity) (indexBy complexityKey c.complexity)
          metricsDiffer).map fun pair => (field pair.2).getD 0 - (field pair.1).getD 0).sum := by
  have hdetail (name : String) : complexityDetail (computeCodeStateDelta b c) name =
      readArray ((complexityChanges b.complexity c.complexity).bind fun items =>
        JsonValue.get? items name) := by
    rw [complexityDetail, ← Option.bind_assoc, pythonSpecific_detail, (get?_details b c).2.1]
    cases complexityChanges b.complexity c.complexity <;> rfl
  simp only [detailTotal, hdetail, complexityChanges, sumComplexity]
  have hdiffer : (fun before after : ComplexityEntry =>
      decide (before.cyclomatic ≠ after.cyclomatic ∨ before.cognitive ≠ after.cognitive)) =
        metricsDiffer := rfl
  rw [hdiffer]
  generalize missingValues (indexBy complexityKey c.complexity)
    (indexBy complexityKey b.complexity) = added
  generalize missingValues (indexBy complexityKey b.complexity)
    (indexBy complexityKey c.complexity) = removed
  generalize changedPairs (indexBy complexityKey b.complexity)
    (indexBy complexityKey c.complexity) metricsDiffer = changed
  by_cases hempty : added = [] ∧ removed = [] ∧ changed = []
  · obtain ⟨rfl, rfl, rfl⟩ := hempty
    rfl
  · simp [if_neg hempty, JsonValue.get?, readArray, records, hread, readField, Function.comp_def]

/-- With one record per function on both sides the details account for the net delta, and they
are left out exactly when the two sides have the same records. -/
theorem complexity_balance {b c : CodeState} (hb : (b.complexity.map complexityKey).Nodup)
    (hc : (c.complexity.map complexityKey).Nodup) :
    ComplexityBalance b c (computeCodeStateDelta b c) where
  cyclomatic := by
    rw [detailTotal_eq b c fun entry => (readMetric_dump entry).1]
    apply sum_balance hb hc
    intro before after h
    simp only [metricsDiffer, decide_eq_false_iff_not, not_or, not_not] at h
    exact h.1
  cognitive := by
    rw [detailTotal_eq b c fun entry => (readMetric_dump entry).2]
    apply sum_balance hb hc
    intro before after h
    simp only [metricsDiffer, decide_eq_false_iff_not, not_or, not_not] at h
    exact h.2
  absent := by
    rw [pythonSpecific_detail, (get?_details b c).2.1, Option.map_eq_none_iff]
    exact complexityChanges_eq_none_iff hb hc

def grownState : CodeState where
  complexity := [⟨"m.f", some 3, none⟩, ⟨"m.g", some 1, some 0⟩]

def smallState : CodeState where
  complexity := [⟨"m.f", some 1, some 2⟩, ⟨"m.h", none, some 4⟩]

theorem complexity_balance_grown :
    ComplexityBalance smallState grownState (computeCodeStateDelta smallState grownState) :=
  complexity_balance (by decide) (by decide)

end SemanticCi.Delta
