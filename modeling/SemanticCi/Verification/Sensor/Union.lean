import SemanticCi.Verification.Sensor.Ensemble

/-! The ensemble as the union of its complete members: one finding for each anchor, with the
highest severity that a member gives it. -/

namespace SemanticCi.Sensor

open OrderedDict Python Ssp

variable {Digest : Type} {digest : List Component → Digest}

/-! ## The union of findings -/

/-- One finding for each anchor among the given findings, as severe as the most severe there. -/
structure IsUnion (given : LLMSecurityFinding digest → Prop)
    (union : List (LLMSecurityFinding digest)) : Prop where
  covers : ∀ f, given f → ∃ g ∈ union, anchorKey g = anchorKey f
  anchors : (union.map anchorKey).Nodup
  represents : ∀ g ∈ union, ∃ f, given f ∧ anchorKey f = anchorKey g ∧ f.severity = g.severity ∧
    f.message = g.message
  highest : ∀ g ∈ union, ∀ f, given f → anchorKey f = anchorKey g →
    severityRank f.severity ≤ severityRank g.severity
  spans : ∀ g ∈ union, g.sourceSpan.isSome ↔
    ∃ f, given f ∧ anchorKey f = anchorKey g ∧ f.sourceSpan.isSome

/-- The union of more findings keeps the anchors, none with a lower severity. -/
theorem IsUnion.mono {given given' : LLMSecurityFinding digest → Prop}
    {union union' : List (LLMSecurityFinding digest)} (h : IsUnion given union)
    (h' : IsUnion given' union') (hmore : ∀ f, given f → given' f) :
    ∀ g ∈ union, ∃ g' ∈ union', anchorKey g' = anchorKey g ∧
      severityRank g.severity ≤ severityRank g'.severity := by
  intro g hg
  obtain ⟨f, hf, hkey, hseverity, -⟩ := h.represents g hg
  obtain ⟨g', hg', hkey'⟩ := h'.covers f (hmore f hf)
  refine ⟨g', hg', hkey'.trans hkey, ?_⟩
  rw [← hseverity]
  exact h'.highest g' hg' f (hmore f hf) hkey'.symm

theorem IsUnion.congr {given given' : LLMSecurityFinding digest → Prop}
    {union : List (LLMSecurityFinding digest)} (h : IsUnion given union)
    (hsame : ∀ f, given f ↔ given' f) : IsUnion given' union := by
  obtain rfl : given = given' := funext fun f => propext (hsame f)
  exact h

/-! ## One group -/

theorem maxSeverityFinding_spec (first : LLMSecurityFinding digest)
    (rest : List (LLMSecurityFinding digest)) :
    maxSeverityFinding first rest ∈ first :: rest ∧ ∀ f ∈ first :: rest,
      severityRank f.severity ≤ severityRank (maxSeverityFinding first rest).severity := by
  induction rest generalizing first with
  | nil =>
    refine ⟨List.mem_singleton_self first, fun f hf => ?_⟩
    rw [List.mem_singleton.mp hf]
    exact le_rfl
  | cons next rest ih =>
    have hstep : maxSeverityFinding first (next :: rest) = maxSeverityFinding
        (if severityRank first.severity < severityRank next.severity then next else first) rest :=
      rfl
    rw [hstep]
    by_cases hlt : severityRank first.severity < severityRank next.severity
    · rw [if_pos hlt]
      obtain ⟨hmem, hmax⟩ := ih next
      refine ⟨List.mem_cons_of_mem first hmem, ?_⟩
      have hnext := hmax next List.mem_cons_self
      intro f hf
      rcases List.mem_cons.mp hf with rfl | hf
      · exact hlt.le.trans hnext
      · exact hmax f hf
    · rw [if_neg hlt]
      obtain ⟨hmem, hmax⟩ := ih first
      have hfirst := hmax first List.mem_cons_self
      constructor
      · rcases List.mem_cons.mp hmem with hmem | hmem
        · exact List.mem_cons.mpr (.inl hmem)
        · exact List.mem_cons_of_mem first (List.mem_cons_of_mem next hmem)
      · intro f hf
        rcases List.mem_cons.mp hf with rfl | hf
        · exact hfirst
        · rcases List.mem_cons.mp hf with rfl | hf
          · exact (not_lt.mp hlt).trans hfirst
          · exact hmax f (List.mem_cons_of_mem first hf)

theorem firstSourceSpan_isSome (findings : List (LLMSecurityFinding digest)) :
    (firstSourceSpan findings).isSome ↔ ∃ f ∈ findings, f.sourceSpan.isSome := by
  rw [firstSourceSpan, List.isSome_findSome?, List.any_eq_true]

/-- What a group becomes. -/
structure Represents (group : List (LLMSecurityFinding digest)) (g : LLMSecurityFinding digest) :
    Prop where
  anchor : ∃ first ∈ group, anchorKey first = anchorKey g
  severity : ∃ f ∈ group, f.severity = g.severity ∧ f.message = g.message
  highest : ∀ f ∈ group, severityRank f.severity ≤ severityRank g.severity
  span : g.sourceSpan.isSome ↔ ∃ f ∈ group, f.sourceSpan.isSome

theorem represents_of_projectGroup {group : List (LLMSecurityFinding digest)}
    {g : LLMSecurityFinding digest} (h : projectGroup group = some g) : Represents group g := by
  cases group with
  | nil => cases h
  | cons first rest =>
    obtain rfl := Option.some.inj h
    obtain ⟨hmem, hmax⟩ := maxSeverityFinding_spec first rest
    exact ⟨⟨first, List.mem_cons_self, rfl⟩, ⟨_, hmem, rfl, rfl⟩, hmax,
      firstSourceSpan_isSome (first :: rest)⟩

/-! ## All groups -/

section Aggregated

variable [LinearOrder Digest] {members : List (Member digest)}

/-- The findings of some members, in the order in which they are grouped. -/
def memberFindings (members : List (Member digest)) : List (LLMSecurityFinding digest) :=
  members.flatMap fun member => sortLLMFindings member.findings

theorem mem_memberFindings {f : LLMSecurityFinding digest} :
    f ∈ memberFindings members ↔ ∃ member ∈ members, f ∈ member.findings := by
  simp [memberFindings, sortLLMFindings]

theorem snd_of_mem_groups {group : AnchorKey × List (LLMSecurityFinding digest)}
    (h : group ∈ (groupBy anchorKey (memberFindings members)).entries) :
    group.2 = (memberFindings members).filter fun f => anchorKey f = group.1 := by
  rw [← getD_groupBy, get?_eq_some_of_mem h]
  rfl

theorem mem_aggregateFindings {g : LLMSecurityFinding digest} :
    g ∈ aggregateFindings members ↔ ∃ f ∈ memberFindings members, projectGroup
      ((memberFindings members).filter fun other => anchorKey other = anchorKey f) = some g := by
  rw [aggregateFindings, sortLLMFindings, List.mem_insertionSort, List.mem_filterMap]
  constructor
  · rintro ⟨group, hgroup, hg⟩
    have hentry := (List.mem_insertionSort _).mp hgroup
    have hkey : group.1 ∈ (groupBy anchorKey (memberFindings members)).keys :=
      List.mem_map_of_mem hentry
    obtain ⟨f, hf, hanchor⟩ := (mem_keys_groupBy _ _ _).mp hkey
    refine ⟨f, hf, ?_⟩
    rwa [hanchor, ← snd_of_mem_groups hentry]
  · rintro ⟨f, hf, hg⟩
    have hkey : anchorKey f ∈ (groupBy anchorKey (memberFindings members)).keys :=
      (mem_keys_groupBy _ _ _).mpr ⟨f, hf, rfl⟩
    obtain ⟨group, hentry, hanchor⟩ := List.mem_map.mp hkey
    refine ⟨group, (List.mem_insertionSort _).mpr hentry, ?_⟩
    rwa [snd_of_mem_groups hentry, hanchor]

/-- The findings with the anchor of a finding of the ensemble are the group behind it. -/
theorem projectGroup_of_mem {g : LLMSecurityFinding digest} (h : g ∈ aggregateFindings members) :
    projectGroup ((memberFindings members).filter fun f => anchorKey f = anchorKey g) = some g := by
  obtain ⟨f, hf, hproject⟩ := mem_aggregateFindings.mp h
  obtain ⟨first, hfirst, hanchor⟩ := (represents_of_projectGroup hproject).anchor
  have hsame : anchorKey first = anchorKey f := by simpa using (List.mem_filter.mp hfirst).2
  rwa [← hanchor, hsame]

theorem canonicalId_of_mem {g : LLMSecurityFinding digest} (h : g ∈ aggregateFindings members) :
    g.canonicalId = anchorId digest (anchorKey g) := by
  apply projectGroup_canonicalId _ (projectGroup_of_mem h)
  intro f hf
  simpa using (List.mem_filter.mp hf).2

theorem isUnion_aggregateFindings (hdigest : Function.Injective digest)
    (members : List (Member digest)) :
    IsUnion (· ∈ memberFindings members) (aggregateFindings members) := by
  have hgroup {g : LLMSecurityFinding digest} (hg : g ∈ aggregateFindings members) :
      Represents ((memberFindings members).filter fun f => anchorKey f = anchorKey g) g :=
    represents_of_projectGroup (projectGroup_of_mem hg)
  have hmem {f g : LLMSecurityFinding digest} :
      f ∈ ((memberFindings members).filter fun f => anchorKey f = anchorKey g) ↔
        f ∈ memberFindings members ∧ anchorKey f = anchorKey g := by
    simp
  constructor
  · intro f hf
    have hne := List.ne_nil_of_mem (hmem.mpr ⟨hf, rfl⟩)
    obtain ⟨first, rest, hcons⟩ := List.exists_cons_of_ne_nil hne
    obtain ⟨g, hg⟩ : ∃ g, projectGroup (first :: rest) = some g := ⟨_, rfl⟩
    rw [← hcons] at hg
    obtain ⟨other, hother, hanchor⟩ := (represents_of_projectGroup hg).anchor
    exact ⟨g, mem_aggregateFindings.mpr ⟨f, hf, hg⟩, hanchor.symm.trans (hmem.mp hother).2⟩
  · have hids := (canonicalIds_aggregateFindings hdigest members).imp fun hlt => ne_of_lt hlt
    have hmap : (aggregateFindings members).map (·.canonicalId) =
        ((aggregateFindings members).map anchorKey).map (anchorId digest) := by
      rw [List.map_map]
      exact List.map_congr_left fun g hg => canonicalId_of_mem hg
    rw [hmap] at hids
    exact List.Nodup.of_map _ hids
  · intro g hg
    obtain ⟨f, hf, hseverity, hmessage⟩ := (hgroup hg).severity
    obtain ⟨hgiven, hkey⟩ := hmem.mp hf
    exact ⟨f, hgiven, hkey, hseverity, hmessage⟩
  · intro g hg f hf hkey
    exact (hgroup hg).highest f (hmem.mpr ⟨hf, hkey⟩)
  · intro g hg
    rw [(hgroup hg).span]
    constructor
    · rintro ⟨f, hf, hspan⟩
      obtain ⟨hgiven, hkey⟩ := hmem.mp hf
      exact ⟨f, hgiven, hkey, hspan⟩
    · rintro ⟨f, hf, hkey, hspan⟩
      exact ⟨f, hmem.mpr ⟨hf, hkey⟩, hspan⟩

end Aggregated

/-! ## Complete members -/

section States

variable [LinearOrder Digest]

/-- A finding of a sensor that ran to its end. -/
def CompleteFinding (states : List (SensorState digest)) (f : LLMSecurityFinding digest) : Prop :=
  ∃ state ∈ states, ∃ p ∈ state.provenanceBySensor.values, p.status = .complete ∧
    f ∈ llmFindings state p.sensorId

/-- Some sensor ran to its end. -/
def HasComplete (states : List (SensorState digest)) : Prop :=
  ∃ state ∈ states, ∃ p ∈ state.provenanceBySensor.values, p.status = .complete

theorem mem_completeMembers {hex : Digest → String} {hashJson : JsonValue → String}
    {states : List (SensorState digest)} (h : ∀ state ∈ states, AdvisoryState state)
    (f : LLMSecurityFinding digest) :
    f ∈ memberFindings ((sortMembers hex hashJson (states.flatMap stateMembers)).filter
        fun member => member.provenance.status = .complete) ↔ CompleteFinding states f := by
  rw [mem_memberFindings]
  constructor
  · rintro ⟨member, hmember, hf⟩
    obtain ⟨hsorted, hstatus⟩ := List.mem_filter.mp hmember
    obtain ⟨state, hstate, hstateMember⟩ :=
      List.mem_flatMap.mp ((List.mem_insertionSort _).mp hsorted)
    obtain ⟨p, hp, hprovenance, hfindings⟩ := mem_stateMembers (h state hstate) hstateMember
    refine ⟨state, hstate, p, hp, ?_, hfindings ▸ hf⟩
    rw [← hprovenance]
    exact of_decide_eq_true hstatus
  · rintro ⟨state, hstate, p, hp, hstatus, hf⟩
    obtain ⟨member, hmember, hprovenance, hfindings⟩ := exists_stateMember (h state hstate) hp
    refine ⟨member, List.mem_filter.mpr ⟨?_, ?_⟩, hfindings ▸ hf⟩
    · exact (List.mem_insertionSort _).mpr (List.mem_flatMap.mpr ⟨state, hstate, hmember⟩)
    · rw [← hprovenance] at hstatus
      exact decide_eq_true hstatus

/-- The aggregation succeeds, with these findings in its valid state. -/
def AggregatesTo (hex : Digest → String) (hashJson : JsonValue → String)
    (states : List (SensorState digest)) (findings : List (LLMSecurityFinding digest)) : Prop :=
  ∃ aggregation, aggregateAdvisoryStates hex hashJson states = .ok aggregation ∧
    aggregation.state.findings = findings.map .llm

/-- With a complete member, the ensemble holds the union of the complete members. -/
theorem aggregateAdvisoryStates_isUnion (hex : Digest → String) (hashJson : JsonValue → String)
    (hdigest : Function.Injective digest) {states : List (SensorState digest)}
    (h : ∀ state ∈ states, AdvisoryState state) (hcomplete : HasComplete states) :
    ∃ findings, AggregatesTo hex hashJson states findings ∧
      IsUnion (CompleteFinding states) findings ∧
      (findings.map (·.canonicalId)).Pairwise (· < ·) ∧
      ∀ g ∈ findings, g.canonicalId = anchorId digest (anchorKey g) := by
  obtain ⟨state, hstate, p, hp, hstatus⟩ := hcomplete
  have hne : states ≠ [] := List.ne_nil_of_mem hstate
  obtain ⟨aggregation, hok, -, hfindings⟩ := aggregateMembers_eq_ok hdigest hashJson
    (sortMembers hex hashJson (states.flatMap stateMembers))
  set members := (sortMembers hex hashJson (states.flatMap stateMembers)).filter
    fun member => member.provenance.status = .complete with hmembers
  have hsome : members.isEmpty = false := by
    obtain ⟨member, hmember, hprovenance, -⟩ := exists_stateMember (h state hstate) hp
    rw [← hprovenance] at hstatus
    have hmem : member ∈ members := by
      refine List.mem_filter.mpr ⟨?_, decide_eq_true hstatus⟩
      exact (List.mem_insertionSort _).mpr (List.mem_flatMap.mpr ⟨state, hstate, hmember⟩)
    cases hcases : members with
    | nil =>
      rw [hcases] at hmem
      cases hmem
    | cons first rest => rfl
  have hensemble : ensembleFindings (sortMembers hex hashJson (states.flatMap stateMembers)) =
      aggregateFindings members := by
    rw [ensembleFindings, ← hmembers, hsome]
    rfl
  refine ⟨aggregateFindings members, ⟨aggregation, ?_, ?_⟩, ?_, ?_, ?_⟩
  · rw [aggregateAdvisoryStates_eq hne h, hok]
  · rw [hfindings, hensemble]
  · exact (isUnion_aggregateFindings hdigest members).congr (mem_completeMembers h)
  · exact canonicalIds_aggregateFindings hdigest members
  · intro g hg
    exact canonicalId_of_mem hg

/-- The ensemble is the union of its complete members, and more members keep what it holds. -/
theorem ensemble_is_union (hex : Digest → String) (hashJson : JsonValue → String)
    (hdigest : Function.Injective digest) {states : List (SensorState digest)}
    (h : ∀ state ∈ states, AdvisoryState state) (hcomplete : HasComplete states) :
    ∃ findings, AggregatesTo hex hashJson states findings ∧
      IsUnion (CompleteFinding states) findings ∧
      (findings.map (·.canonicalId)).Pairwise (· < ·) ∧
      ∀ states' : List (SensorState digest), states ⊆ states' →
        (∀ state ∈ states', AdvisoryState state) →
        ∃ findings', AggregatesTo hex hashJson states' findings' ∧
          ∀ g ∈ findings, ∃ g' ∈ findings', g'.canonicalId = g.canonicalId ∧
            anchorKey g' = anchorKey g ∧ severityRank g.severity ≤ severityRank g'.severity := by
  obtain ⟨findings, hfindings, hunion, hsorted, hids⟩ :=
    aggregateAdvisoryStates_isUnion hex hashJson hdigest h hcomplete
  refine ⟨findings, hfindings, hunion, hsorted, ?_⟩
  intro states' hmore h'
  obtain ⟨state, hstate, p, hp, hstatus⟩ := hcomplete
  obtain ⟨findings', hfindings', hunion', -, hids'⟩ :=
    aggregateAdvisoryStates_isUnion hex hashJson hdigest h' ⟨state, hmore hstate, p, hp, hstatus⟩
  refine ⟨findings', hfindings', fun g hg => ?_⟩
  have hgiven : ∀ f, CompleteFinding states f → CompleteFinding states' f := by
    rintro f ⟨s, hs, q, hq, hrun, hf⟩
    exact ⟨s, hmore hs, q, hq, hrun, hf⟩
  obtain ⟨g', hg', hkey, hseverity⟩ := hunion.mono hunion' hgiven g hg
  refine ⟨g', hg', ?_, hkey, hseverity⟩
  rw [hids g hg, hids' g' hg', hkey]

end States

/-! ## Two scouts on one anchor -/

/-- A scout that ran to its end. -/
def scoutProvenance (sensorId : String) (sensorId_ne : sensorId ≠ "") : SensorProvenance where
  sensorId := sensorId
  sensorVersion := "scout-v1"
  adapterVersion := "scout-adapter-1"
  modelId := some "scout-model"
  promptHash := some "sha256:prompt"
  nonReproducible := true
  status := .complete
  errorMessage := none
  sensorId_ne := sensorId_ne
  complete_iff := completeWithoutError

def missingCheck (severity : SecuritySeverity) : RawLLMFinding where
  findingClass := "authz"
  modulePath := "app/views.py"
  qualifiedName := "delete_user"
  anchorKind := .absence
  expectedProperty := "permission check"
  ordinal := 0
  severity := severity
  findingClass_ne := by decide
  modulePath_ne := by decide
  modulePath_posix := by decide
  qualifiedName_ne := by decide
  absence_iff := by decide

def lowFinding : LLMSecurityFinding (id : List Component → List Component) :=
  projectToCanonical id (missingCheck .low) "scout-a" (by decide)

def highFinding : LLMSecurityFinding (id : List Component → List Component) :=
  projectToCanonical id (missingCheck .high) "scout-b" (by decide)

def lowRun : SensorState (id : List Component → List Component) where
  provenanceBySensor := ofPairs [("scout-a", scoutProvenance "scout-a" (by decide))]
  findings := [.llm lowFinding]
  valid := by decide +kernel

def highRun : SensorState (id : List Component → List Component) where
  provenanceBySensor := ofPairs [("scout-b", scoutProvenance "scout-b" (by decide))]
  findings := [.llm highFinding]
  valid := by decide +kernel

theorem values_lowRun :
    lowRun.provenanceBySensor.values = [scoutProvenance "scout-a" (by decide)] :=
  values_singleton _ _

theorem values_highRun :
    highRun.provenanceBySensor.values = [scoutProvenance "scout-b" (by decide)] :=
  values_singleton _ _

theorem twoScouts_advisory : ∀ state ∈ [lowRun, highRun], AdvisoryState state := by
  have hscout (sensorId : String) (hne : sensorId ≠ "") : IsScout (scoutProvenance sensorId hne) :=
    ⟨rfl, (by decide : "scout-model" ≠ ""), (by decide : "sha256:prompt" ≠ "")⟩
  intro state hstate
  rcases List.mem_pair.mp hstate with rfl | rfl
  · constructor
    · simp [values_lowRun]
    · intro p hp
      obtain rfl := List.mem_singleton.mp (values_lowRun ▸ hp)
      exact hscout _ _
    · intro finding hfinding
      rw [List.mem_singleton.mp hfinding]
      rfl
  · constructor
    · simp [values_highRun]
    · intro p hp
      obtain rfl := List.mem_singleton.mp (values_highRun ▸ hp)
      exact hscout _ _
    · intro finding hfinding
      rw [List.mem_singleton.mp hfinding]
      rfl

/-- The finding of both scouts is as severe as the more severe one says. -/
theorem ensemble_is_union_twoScouts :
    ∃ findings, AggregatesTo (fun _ => "") failedRunsHash [lowRun, highRun] findings ∧
      ∃ g ∈ findings, anchorKey g = anchorKey lowFinding ∧
        severityRank highFinding.severity ≤ severityRank g.severity := by
  have hhigh : CompleteFinding [lowRun, highRun] highFinding :=
    ⟨highRun, by simp, _, values_highRun ▸ List.mem_singleton_self _, rfl, List.mem_singleton_self _⟩
  obtain ⟨findings, hfindings, hunion, -⟩ := ensemble_is_union (fun _ => "") failedRunsHash
    Function.injective_id twoScouts_advisory
    ⟨highRun, by simp, _, values_highRun ▸ List.mem_singleton_self _, rfl⟩
  obtain ⟨g, hg, hkey⟩ := hunion.covers highFinding hhigh
  exact ⟨findings, hfindings, g, hg, hkey, hunion.highest g hg highFinding hhigh hkey.symm⟩

end SemanticCi.Sensor
