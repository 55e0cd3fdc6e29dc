import SemanticCi.Library.KeyedSort
import SemanticCi.Model.LLMAggregate
import SemanticCi.Verification.Sensor.Adapters

/-! The advisory ensemble under permutations of the scout runs. The members are sorted by the
scout and its findings, so the order of the runs shows exactly when two runs tie there and
differ in the rest of their provenance. -/

namespace SemanticCi.Sensor

open ExceptRules KeyedSort OrderedDict Python Ssp

variable {Digest : Type} {digest : List Component → Digest}

/-! ## Scouts -/

/-- A provenance that reads as the provenance of an LLM scout. -/
structure IsScout (p : SensorProvenance) : Prop where
  nonReproducible : p.nonReproducible = true
  modelId : p.modelId.getD "" ≠ ""
  promptHash : p.promptHash.getD "" ≠ ""

/-- Two runs of one scout: their provenances agree where the members are compared. -/
structure SameScout (p p' : SensorProvenance) : Prop where
  sensorId : p.sensorId = p'.sensorId
  modelId : p.modelId = p'.modelId
  promptHash : p.promptHash = p'.promptHash
  adapterVersion : p.adapterVersion = p'.adapterVersion
  sensorVersion : p.sensorVersion = p'.sensorVersion

theorem some_getD {o : Option String} (h : o.getD "" ≠ "") : some (o.getD "") = o := by
  cases o with
  | none => exact absurd rfl h
  | some s => rfl

theorem modelValidate_isScout {p : SensorProvenance} (h : IsScout p) :
    ∃ q, LLMSensorProvenance.modelValidate p = .ok q ∧ q.toProvenance = p := by
  refine ⟨_, by rw [LLMSensorProvenance.modelValidate, dif_neg h.modelId, dif_neg h.promptHash,
    if_pos h.nonReproducible], ?_⟩
  cases p
  simp [LLMSensorProvenance.toProvenance, some_getD h.modelId, some_getD h.promptHash,
    ← h.nonReproducible]

theorem toProvenance_injective : Function.Injective LLMSensorProvenance.toProvenance := by
  intro p q h
  cases p
  cases q
  simp_all [LLMSensorProvenance.toProvenance]

section States

variable [LinearOrder Digest]

/-- A state that the aggregation accepts. -/
structure AdvisoryState (state : SensorState digest) : Prop where
  provenances : state.provenanceBySensor.values ≠ []
  scouts : ∀ p ∈ state.provenanceBySensor.values, IsScout p
  findings : ∀ finding ∈ state.findings, finding.isLlm = true

/-- The findings of one scout. -/
def llmFindings (state : SensorState digest) (sensorId : String) :
    List (LLMSecurityFinding digest) :=
  (state.findings.filter fun finding => finding.sensorId = sensorId).filterMap
    SecurityFinding.llm?

/-- The member of one provenance of a state. -/
structure IsMember (state : SensorState digest) (p : SensorProvenance) (m : Member digest) :
    Prop where
  provenance : m.provenance.toProvenance = p
  findings : m.findings = llmFindings state p.sensorId

theorem memberOf_advisory {state : SensorState digest} (h : AdvisoryState state)
    {p : SensorProvenance} (hp : p ∈ state.provenanceBySensor.values) :
    ∃ m, memberOf state p = .ok m ∧ IsMember state p m := by
  obtain ⟨q, hq, rfl⟩ := modelValidate_isScout (h.scouts p hp)
  have hllm : (state.findings.filter fun finding => finding.sensorId = q.sensorId).any
      (fun finding => !finding.isLlm) = false := by
    rw [List.any_eq_false]
    intro finding hfinding
    simp [h.findings finding (List.mem_filter.mp hfinding).1]
  refine ⟨⟨q, llmFindings state q.sensorId⟩, ?_, rfl, rfl⟩
  simp only [memberOf, hq, ok_bind, hllm, Bool.false_eq_true, if_false]
  rfl

/-- The members that a state contributes. -/
def stateMembers (state : SensorState digest) : List (Member digest) :=
  (state.provenanceBySensor.values.mapM (memberOf state)).toOption.getD []

theorem mapM_memberOf {state : SensorState digest} (h : AdvisoryState state) :
    state.provenanceBySensor.values.mapM (memberOf state) = .ok (stateMembers state) := by
  obtain ⟨ms, hms⟩ := exists_mapM fun p hp => (memberOf_advisory h hp).imp fun _ hm => hm.1
  rw [stateMembers, hms]
  rfl

theorem mem_stateMembers {state : SensorState digest} (h : AdvisoryState state) {m : Member digest}
    (hm : m ∈ stateMembers state) :
    ∃ p ∈ state.provenanceBySensor.values, IsMember state p m := by
  obtain ⟨p, hp, hmember⟩ := exists_of_mem_mapM (mapM_memberOf h) hm
  obtain ⟨m', hm', hspec⟩ := memberOf_advisory h hp
  rw [hmember, Except.ok.injEq] at hm'
  exact ⟨p, hp, hm' ▸ hspec⟩

theorem exists_stateMember {state : SensorState digest} (h : AdvisoryState state)
    {p : SensorProvenance} (hp : p ∈ state.provenanceBySensor.values) :
    ∃ m ∈ stateMembers state, IsMember state p m := by
  have hmembers := (mapM_eq_ok_iff.mp (mapM_memberOf h)).flip
  obtain ⟨m, hm, hmember⟩ := exists_of_mem_forall₂ hmembers hp
  obtain ⟨m', hm', hspec⟩ := memberOf_advisory h hp
  rw [hmember, Except.ok.injEq] at hm'
  exact ⟨m, hm, hm' ▸ hspec⟩

theorem membersOf_advisory {states : List (SensorState digest)} (hne : states ≠ [])
    (h : ∀ state ∈ states, AdvisoryState state) :
    membersOf states = .ok (states.flatMap stateMembers) := by
  have hvalid : validateMemberStates states = .ok () := by
    refine forM_eq_ok_iff.mpr fun state hstate => ?_
    have hadvisory := h state hstate
    have hempty : state.provenanceBySensor.values.isEmpty = false := by
      simpa [List.isEmpty_iff] using hadvisory.provenances
    have hall : state.provenanceBySensor.values.any (fun item => !item.nonReproducible) =
        false := by
      rw [List.any_eq_false]
      intro p hp
      simp [(hadvisory.scouts p hp).nonReproducible]
    simp [hempty, hall]
  have hgroups : states.mapM (fun state => state.provenanceBySensor.values.mapM (memberOf state)) =
      .ok (states.map stateMembers) := by
    clear hvalid hne
    induction states with
    | nil => rfl
    | cons state rest ih =>
        rw [List.mapM_cons, mapM_memberOf (h state (by simp)),
          ih fun other hother => h other (by simp [hother])]
        rfl
  have hsome : (states.map stateMembers).flatten.isEmpty = false := by
    obtain ⟨state, hstate⟩ := List.exists_mem_of_ne_nil states hne
    obtain ⟨p, hp⟩ := List.exists_mem_of_ne_nil _ (h state hstate).provenances
    obtain ⟨m, hm, -⟩ := exists_stateMember (h state hstate) hp
    rw [Bool.eq_false_iff, Ne, List.isEmpty_iff]
    intro hnil
    have hmem : m ∈ (states.map stateMembers).flatten := by
      rw [← List.flatMap_def]
      exact List.mem_flatMap.mpr ⟨state, hstate, hm⟩
    rw [hnil] at hmem
    cases hmem
  simp only [membersOf, hvalid, hgroups, ok_bind, hsome, Bool.false_eq_true, if_false,
    List.flatMap_def]
  rfl

end States

/-! ## The ensemble is a valid state -/

/-- The identity that a group gets in the ensemble. -/
def anchorIdentity (key : AnchorKey) : List String :=
  let afterClass := ofLex (ofLex key).2
  let afterPath := ofLex afterClass.2
  let afterName := ofLex afterPath.2
  let afterKind := ofLex afterName.2
  ["v1", "llm", llmEnsembleSensorId, (ofLex key).1, afterClass.1, afterPath.1, afterName.1,
    afterKind.1, toString afterKind.2]

theorem anchorIdentity_injective : Function.Injective anchorIdentity := by
  intro k k' h
  simp only [anchorIdentity, List.cons.injEq, true_and, and_true, toString_inj] at h
  obtain ⟨hclass, hpath, hname, hkind, hproperty, hordinal⟩ := h
  apply ofLex.injective
  refine Prod.ext hclass (ofLex.injective (Prod.ext hpath (ofLex.injective ?_)))
  refine Prod.ext hname (ofLex.injective (Prod.ext hkind (ofLex.injective ?_)))
  exact Prod.ext hproperty hordinal

def anchorId (digest : List Component → Digest) (key : AnchorKey) : CanonicalId Digest :=
  toLex ("v1", digest ((anchorIdentity key).map Sum.inlₗ))

theorem anchorId_injective (hdigest : Function.Injective digest) :
    Function.Injective (anchorId digest) := by
  intro k k' h
  have hdigests : digest ((anchorIdentity k).map Sum.inlₗ) =
      digest ((anchorIdentity k').map Sum.inlₗ) := (Prod.mk.inj (toLex.injective h)).2
  apply anchorIdentity_injective
  refine List.map_injective_iff.mpr ?_ (hdigest hdigests)
  intro s t hst
  exact Sum.inl.inj (toLex.injective hst)

theorem projectGroup_canonicalId {group : List (LLMSecurityFinding digest)} {key : AnchorKey}
    (hkey : ∀ f ∈ group, anchorKey f = key) {f : LLMSecurityFinding digest}
    (h : projectGroup group = some f) : f.canonicalId = anchorId digest key := by
  cases group with
  | nil => cases h
  | cons first rest =>
      cases h
      rw [← hkey first (by simp)]
      rfl

/-- A filtered image whose labels are labels of the source. -/
theorem map_filterMap_sublist {α β γ : Type*} {f : α → Option β} {label : β → γ} {source : α → γ}
    {xs : List α} (h : ∀ a ∈ xs, ∀ b, f a = some b → label b = source a) :
    ((xs.filterMap f).map label).Sublist (xs.map source) := by
  induction xs with
  | nil => exact .slnil
  | cons a rest ih =>
      have hrest := ih fun b hb => h b (by simp [hb])
      cases hf : f a with
      | none =>
          rw [List.filterMap_cons_none hf]
          exact hrest.cons _
      | some b =>
          rw [List.filterMap_cons_some hf, List.map_cons, List.map_cons,
            h a (by simp) b hf]
          exact hrest.cons_cons _

section Build

variable [LinearOrder Digest]

theorem canonicalIds_sortLLMFindings {findings : List (LLMSecurityFinding digest)}
    (h : (findings.map (·.canonicalId)).Nodup) :
    ((sortLLMFindings findings).map (·.canonicalId)).Pairwise (· < ·) := by
  have hperm : (sortLLMFindings findings).Perm findings := List.perm_insertionSort _ _
  have hsorted : ((sortLLMFindings findings).map (·.canonicalId)).Pairwise (· ≤ ·) := by
    rw [List.pairwise_map]
    exact List.pairwise_insertionSort _ _
  exact hsorted.imp₂ (fun _ _ => lt_of_le_of_ne) ((hperm.map _).nodup_iff.mpr h)

/-- The state of one advisory sensor over its own findings is valid. -/
theorem advisoryData_wellFormed {provenance : LLMSensorProvenance}
    {findings : List (LLMSecurityFinding digest)}
    (hsorted : (findings.map (·.canonicalId)).Pairwise (· < ·))
    (hown : ∀ finding ∈ findings, finding.sensorId = provenance.sensorId)
    (hcomplete : findings ≠ [] → provenance.status = .complete) :
    StateData.WellFormed
      { provenanceBySensor := ofPairs [(provenance.sensorId, provenance.toProvenance)]
        findings := findings.map SecurityFinding.llm : StateData digest } := by
  have hentries : (ofPairs [(provenance.sensorId, provenance.toProvenance)]).entries =
      [(provenance.sensorId, provenance.toProvenance)] := entries_ofPairs (by simp)
  constructor
  · intro entry hentry
    rw [hentries, List.mem_singleton] at hentry
    rw [hentry]
    rfl
  · rw [List.map_map]
    exact hsorted
  · intro finding hfinding
    obtain ⟨f, hf, rfl⟩ := List.mem_map.mp hfinding
    have hid : (SecurityFinding.llm f).sensorId = provenance.sensorId := hown f hf
    exact ⟨provenance.toProvenance, by rw [hid]; simp [get?, hentries],
      hcomplete (List.ne_nil_of_mem hf)⟩

theorem canonicalIds_aggregateFindings (hdigest : Function.Injective digest)
    (members : List (Member digest)) :
    ((aggregateFindings members).map (·.canonicalId)).Pairwise (· < ·) := by
  set records := members.flatMap fun member => sortLLMFindings member.findings with hrecords
  set groups := groupBy anchorKey records with hgroups
  have hgroup : ∀ group ∈ groups.entries.insertionSort (fun a b => a.1 ≤ b.1), ∀ f,
      projectGroup group.2 = some f → f.canonicalId = anchorId digest group.1 := by
    intro group hgroup f hf
    rw [List.mem_insertionSort] at hgroup
    refine projectGroup_canonicalId (fun r hr => ?_) hf
    have hget := get?_eq_some_of_mem hgroup
    rw [hgroups, get?_groupBy] at hget
    split at hget
    · cases hget
    · rw [← Option.some.inj hget] at hr
      simpa using (List.mem_filter.mp hr).2
  have hsublist := map_filterMap_sublist hgroup
  apply canonicalIds_sortLLMFindings
  have hkeys : ((groups.entries.insertionSort fun a b => a.1 ≤ b.1).map
      fun group => anchorId digest group.1).Nodup := by
    have hperm : (groups.entries.insertionSort fun a b => a.1 ≤ b.1).Perm groups.entries :=
      List.perm_insertionSort ..
    rw [(hperm.map _).nodup_iff, ← Function.comp_def, ← List.map_map]
    exact groups.nodup.map (anchorId_injective hdigest)
  exact hkeys.sublist hsublist

theorem sensorId_aggregateFindings {members : List (Member digest)}
    {f : LLMSecurityFinding digest} (h : f ∈ aggregateFindings members) :
    f.sensorId = llmEnsembleSensorId := by
  rw [aggregateFindings, sortLLMFindings, List.mem_insertionSort] at h
  obtain ⟨group, -, hf⟩ := List.mem_filterMap.mp h
  cases hgroup : group.2 with
  | nil => rw [hgroup] at hf; cases hf
  | cons first rest => rw [hgroup] at hf; cases hf; rfl

/-- What the ensemble holds of the complete members among some. -/
def ensembleFindings (members : List (Member digest)) : List (LLMSecurityFinding digest) :=
  let completeMembers := members.filter fun member => member.provenance.status = .complete
  if completeMembers.isEmpty then [] else aggregateFindings completeMembers

/-- The aggregation of members always succeeds, and keeps their provenance. -/
theorem aggregateMembers_eq_ok (hdigest : Function.Injective digest) (hashJson : JsonValue → String)
    (members : List (Member digest)) : ∃ aggregation,
      aggregateMembers hashJson members = .ok aggregation ∧
        aggregation.members = members.map (·.provenance) ∧
        aggregation.state.findings = (ensembleFindings members).map .llm := by
  set completeMembers := members.filter fun member => member.provenance.status = .complete
    with hcomplete
  set provenance := ensembleProvenance hashJson members (!completeMembers.isEmpty)
    with hprovenance
  set findings := if provenance.status = .complete then aggregateFindings completeMembers else []
    with hfindings
  have hwell : StateData.WellFormed
      { provenanceBySensor := ofPairs [(llmEnsembleSensorId, provenance.toProvenance)]
        findings := findings.map SecurityFinding.llm : StateData digest } := by
    by_cases hstatus : provenance.status = .complete
    · rw [hfindings, if_pos hstatus]
      exact advisoryData_wellFormed (canonicalIds_aggregateFindings hdigest completeMembers)
        (fun _ hfinding => sensorId_aggregateFindings hfinding) fun _ => hstatus
    · rw [hfindings, if_neg hstatus]
      exact @advisoryData_wellFormed Digest digest _ provenance [] .nil (by simp) (by simp)
  obtain ⟨state, hstate, hdata⟩ := build_eq_ok hwell
  refine ⟨⟨state, members.map (·.provenance)⟩, ?_, rfl, ?_⟩
  · simp only [aggregateMembers, ← hcomplete, ← hprovenance, ← hfindings, hstate]
  · have hsame : ensembleFindings members = findings := by
      rw [ensembleFindings, ← hcomplete, hfindings, hprovenance]
      cases hempty : completeMembers.isEmpty <;> rfl
    rw [hsame]
    exact congrArg StateData.findings hdata

end Build

/-! ## Order of the runs -/

section Order

variable [LinearOrder Digest] (hex : Digest → String) (hashJson : JsonValue → String)

/-- Runs of one scout with the same findings have one provenance: the same status, error
message and hashes. -/
def TiesAgree (states : List (SensorState digest)) : Prop :=
  ∀ s ∈ states, ∀ s' ∈ states, ∀ p ∈ s.provenanceBySensor.values,
    ∀ p' ∈ s'.provenanceBySensor.values, SameScout p p' →
      llmFindings s p.sensorId = llmFindings s' p'.sensorId → p = p'

/-- SHA-256 tells the lists of findings in these states apart. -/
def NoCollision (states : List (SensorState digest)) : Prop :=
  ∀ s ∈ states, ∀ s' ∈ states, ∀ sensorId sensorId',
    findingsDigest hex hashJson (llmFindings s sensorId) =
      findingsDigest hex hashJson (llmFindings s' sensorId') →
    llmFindings s sensorId = llmFindings s' sensorId'

variable {hex hashJson}

theorem memberSortKey_eq_iff {states : List (SensorState digest)}
    (hcollision : NoCollision hex hashJson states) {s s' : SensorState digest} (hs : s ∈ states)
    (hs' : s' ∈ states) {p p' : SensorProvenance} {m m' : Member digest}
    (hm : IsMember s p m) (hm' : IsMember s' p' m') :
    memberSortKey hex hashJson m = memberSortKey hex hashJson m' ↔
      SameScout p p' ∧ llmFindings s p.sensorId = llmFindings s' p'.sensorId := by
  obtain ⟨rfl, hfs⟩ := hm
  obtain ⟨rfl, hfs'⟩ := hm'
  simp only [memberSortKey, EmbeddingLike.apply_eq_iff_eq, Prod.mk.injEq, hfs, hfs']
  constructor
  · rintro ⟨hsensor, hmodel, hprompt, hadapter, hversion, hfound⟩
    refine ⟨⟨hsensor, congrArg some hmodel, congrArg some hprompt, hadapter, hversion⟩, ?_⟩
    exact hcollision s hs s' hs' _ _ hfound
  · rintro ⟨⟨hsensor, hmodel, hprompt, hadapter, hversion⟩, hfound⟩
    exact ⟨hsensor, Option.some.inj hmodel, Option.some.inj hprompt, hadapter, hversion,
      by rw [hfound]⟩

theorem aggregateAdvisoryStates_eq {states : List (SensorState digest)} (hne : states ≠ [])
    (h : ∀ state ∈ states, AdvisoryState state) :
    aggregateAdvisoryStates hex hashJson states =
      aggregateMembers hashJson (sortMembers hex hashJson (states.flatMap stateMembers)) := by
  have hsome : states.isEmpty = false := by simpa [List.isEmpty_iff] using hne
  simp only [aggregateAdvisoryStates, hsome, Bool.false_eq_true, if_false,
    membersOf_advisory hne h, ok_bind]

/-- Where ties agree, two orders of the runs have the same sorted members. -/
theorem sortMembers_eq_of_perm {states states' : List (SensorState digest)}
    (hcollision : NoCollision hex hashJson states) (hperm : states'.Perm states)
    (h : ∀ state ∈ states, AdvisoryState state) (hties : TiesAgree states) :
    sortMembers hex hashJson (states'.flatMap stateMembers) =
      sortMembers hex hashJson (states.flatMap stateMembers) := by
  apply (sortBy_eq_of_perm (memberSortKey hex hashJson) (hperm.symm.flatMap_right stateMembers)
    _).symm
  intro m hm m' hm' hkey
  obtain ⟨s, hs, hm⟩ := List.mem_flatMap.mp hm
  obtain ⟨s', hs', hm'⟩ := List.mem_flatMap.mp hm'
  obtain ⟨p, hp, hmember⟩ := mem_stateMembers (h s hs) hm
  obtain ⟨p', hp', hmember'⟩ := mem_stateMembers (h s' hs') hm'
  obtain ⟨hscout, hfound⟩ := (memberSortKey_eq_iff hcollision hs hs' hmember hmember').mp hkey
  have hprovenance := hties s hs s' hs' p hp p' hp' hscout hfound
  have hboth : m.provenance = m'.provenance := by
    apply toProvenance_injective
    rw [hmember.provenance, hmember'.provenance, hprovenance]
  have hfindings : m.findings = m'.findings := by
    rw [hmember.findings, hmember'.findings, hfound]
  cases m
  cases m'
  simp_all

theorem provenance_unique (s : SensorState digest) {p p' : SensorProvenance}
    (hp : p ∈ s.provenanceBySensor.values) (hp' : p' ∈ s.provenanceBySensor.values)
    (h : p.sensorId = p'.sensorId) : p = p' := by
  obtain ⟨entry, hentry, rfl⟩ := List.mem_map.mp hp
  obtain ⟨entry', hentry', rfl⟩ := List.mem_map.mp hp'
  rw [s.wellFormed.keys entry hentry, s.wellFormed.keys entry' hentry'] at h
  rw [List.inj_on_of_nodup_map s.provenanceBySensor.nodup hentry hentry' h]

/-- In front of the others, the member of a state comes first among those with its key. -/
theorem head?_members {s : SensorState digest} (h : AdvisoryState s) {p : SensorProvenance}
    {m : Member digest} (hm : m ∈ stateMembers s) (hmember : IsMember s p m)
    (hp : p ∈ s.provenanceBySensor.values) (back : List (Member digest)) :
    (((stateMembers s ++ back).filter fun a =>
      memberSortKey hex hashJson a = memberSortKey hex hashJson m).map
        (·.provenance)).head? = some m.provenance := by
  obtain ⟨first, hfirst⟩ : ∃ first, (stateMembers s).find? (fun a =>
      memberSortKey hex hashJson a = memberSortKey hex hashJson m) = some first := by
    rw [← Option.isSome_iff_exists, List.find?_isSome]
    exact ⟨m, hm, by simp⟩
  rw [List.head?_map, List.head?_filter, List.find?_append, hfirst, Option.some_or,
    Option.map_some, Option.some.injEq]
  obtain ⟨q, hq, hfirstMember⟩ := mem_stateMembers h (List.mem_of_find?_eq_some hfirst)
  have hkey : memberSortKey hex hashJson first = memberSortKey hex hashJson m := by
    simpa using List.find?_some hfirst
  have hsensor : q.sensorId = p.sensorId := by
    rw [← hfirstMember.provenance, ← hmember.provenance]
    exact congrArg (fun key : MemberKey => (ofLex key).1) hkey
  apply toProvenance_injective
  rw [hfirstMember.provenance, hmember.provenance, provenance_unique s hq hp hsensor]

/-- One result for every order of the runs. -/
def OrderInvariant (hex : Digest → String) (hashJson : JsonValue → String)
    (states : List (SensorState digest)) : Prop :=
  ∃ aggregation, ∀ states' : List (SensorState digest), states'.Perm states →
    aggregateAdvisoryStates hex hashJson states' = .ok aggregation

theorem tiesAgree_of_orderInvariant (hdigest : Function.Injective digest)
    {states : List (SensorState digest)} (hcollision : NoCollision hex hashJson states)
    (h : ∀ state ∈ states, AdvisoryState state)
    (hinvariant : OrderInvariant hex hashJson states) : TiesAgree states := by
  intro s hs s' hs' p hp p' hp' hscout hfound
  obtain ⟨aggregation, haggregate⟩ := hinvariant
  by_cases hsame : s' = s
  · subst hsame
    exact provenance_unique s' hp hp' hscout.sensorId
  -- the two runs in front, in either order
  obtain ⟨rest, hperm, hswap⟩ := exists_perm_two_front hs hs' (Ne.symm hsame)
  obtain ⟨m, hm, hmember⟩ := exists_stateMember (h s hs) hp
  obtain ⟨m', hm', hmember'⟩ := exists_stateMember (h s' hs') hp'
  have hkey := (memberSortKey_eq_iff hcollision hs hs' hmember hmember').mpr ⟨hscout, hfound⟩
  have hmembers {states' : List (SensorState digest)} (hne : states' ≠ [])
      (hstates' : states'.Perm states) :
      (sortMembers hex hashJson (states'.flatMap stateMembers)).map (·.provenance) =
        aggregation.members := by
    have hresult := haggregate states' hstates'
    rw [aggregateAdvisoryStates_eq hne fun state hstate => h state (hstates'.mem_iff.mp hstate)]
      at hresult
    obtain ⟨result, hok, hkept, -⟩ := aggregateMembers_eq_ok hdigest hashJson
      (sortMembers hex hashJson (states'.flatMap stateMembers))
    rw [hok, Except.ok.injEq] at hresult
    rw [← hkept, hresult]
  have hequal := (hmembers (by simp) hperm).trans (hmembers (by simp) hswap).symm
  have hclass := map_filter_of_map_sortBy (memberSortKey hex hashJson)
    ((List.Perm.swap s' s rest).flatMap_right stateMembers) _ hequal
    (memberSortKey hex hashJson m)
  have hheads := congrArg List.head? hclass
  have hcons (x : SensorState digest) (xs : List (SensorState digest)) :
      (x :: xs).flatMap stateMembers = stateMembers x ++ xs.flatMap stateMembers :=
    List.flatMap_cons
  rw [hcons s (s' :: rest), hcons s' (s :: rest), head?_members (h s hs) hm hmember hp, hkey,
    head?_members (h s' hs') hm' hmember' hp', Option.some.injEq] at hheads
  rw [← hmember.provenance, ← hmember'.provenance, hheads]

/-- The aggregation of valid runs has one result for every order of the runs exactly when runs
that tie have one provenance. -/
theorem aggregate_orderInvariant_iff (hdigest : Function.Injective digest)
    {states : List (SensorState digest)} (hcollision : NoCollision hex hashJson states)
    (hne : states ≠ []) (h : ∀ state ∈ states, AdvisoryState state) :
    OrderInvariant hex hashJson states ↔ TiesAgree states := by
  refine ⟨tiesAgree_of_orderInvariant hdigest hcollision h, fun hties => ?_⟩
  obtain ⟨aggregation, hok, -⟩ := aggregateMembers_eq_ok hdigest hashJson
    (sortMembers hex hashJson (states.flatMap stateMembers))
  refine ⟨aggregation, fun states' hperm => ?_⟩
  have hne' : states' ≠ [] := fun hnil => hne (by simpa [hnil] using hperm)
  rw [aggregateAdvisoryStates_eq hne' fun state hstate => h state (hperm.mem_iff.mp hstate),
    sortMembers_eq_of_perm hcollision hperm h hties, hok]

end Order

/-! ## Two failed runs of one scout -/

def failedRunProvenance (status : SensorRunStatus) (error : String) (hstatus : status ≠ .complete) :
    SensorProvenance where
  sensorId := "codex-security"
  sensorVersion := "codex-security-v1"
  adapterVersion := "sensor-codex-security-adapter-1"
  modelId := some "codex"
  promptHash := some "sha256:prompt"
  nonReproducible := true
  status := status
  errorMessage := some error
  sensorId_ne := by decide
  complete_iff := by simp [hstatus]

theorem timeout_incomplete : SensorRunStatus.timeout ≠ .complete := by decide

theorem error_incomplete : SensorRunStatus.error ≠ .complete := by decide

def timeoutProvenance : SensorProvenance :=
  failedRunProvenance .timeout "no answer" timeout_incomplete

def quotaProvenance : SensorProvenance :=
  failedRunProvenance .error "quota exceeded" error_incomplete

def timeoutRun : SensorState (id : List Component → List Component) where
  provenanceBySensor := ofPairs [("codex-security", timeoutProvenance)]
  valid := by decide +kernel

def quotaRun : SensorState (id : List Component → List Component) where
  provenanceBySensor := ofPairs [("codex-security", quotaProvenance)]
  valid := by decide +kernel

/-- The SHA-256 of the two payloads: no findings, and the pairs of two runs. -/
def failedRunsHash : JsonValue → String
  | .array [] => "4f53cda18c2baa0c0354bb5f9a3ecbe5ed12ab4d8e11ba873c2f11161202b945"
  | _ => "50347952282994b1644a6e1c8b40a4b86a23a72e6c5bb3bf6bc5b6bc672827e3"

theorem values_singleton (sensorId : String) (p : SensorProvenance) :
    (ofPairs [(sensorId, p)]).values = [p] := by
  rw [values, entries_ofPairs (by simp)]
  rfl

theorem timeoutRun_values : timeoutRun.provenanceBySensor.values = [timeoutProvenance] :=
  values_singleton _ _

theorem quotaRun_values : quotaRun.provenanceBySensor.values = [quotaProvenance] :=
  values_singleton _ _

theorem failedRuns_advisory : ∀ state ∈ [timeoutRun, quotaRun], AdvisoryState state := by
  have hscout (status : SensorRunStatus) (error : String) (hstatus : status ≠ .complete) :
      IsScout (failedRunProvenance status error hstatus) :=
    ⟨rfl, (by decide : "codex" ≠ ""), (by decide : "sha256:prompt" ≠ "")⟩
  intro state hstate
  rcases List.mem_pair.mp hstate with rfl | rfl
  · constructor
    · simp [timeoutRun_values]
    · intro p hp
      obtain rfl := List.mem_singleton.mp (timeoutRun_values ▸ hp)
      exact hscout _ _ timeout_incomplete
    · intro finding hfinding
      cases hfinding
  · constructor
    · simp [quotaRun_values]
    · intro p hp
      obtain rfl := List.mem_singleton.mp (quotaRun_values ▸ hp)
      exact hscout _ _ error_incomplete
    · intro finding hfinding
      cases hfinding

theorem failedRuns_noCollision (hex : List Component → String) :
    NoCollision hex failedRunsHash [timeoutRun, quotaRun] := by
  have hnone : ∀ state ∈ [timeoutRun, quotaRun], ∀ sensorId, llmFindings state sensorId = [] := by
    intro state hstate sensorId
    rcases List.mem_pair.mp hstate with rfl | rfl <;> rfl
  intro s hs s' hs' sensorId sensorId' _
  rw [hnone s hs, hnone s' hs']

theorem failedRuns_orderInvariant_iff :
    OrderInvariant (fun _ => "") failedRunsHash [timeoutRun, quotaRun] ↔
      TiesAgree [timeoutRun, quotaRun] :=
  aggregate_orderInvariant_iff Function.injective_id (failedRuns_noCollision _) (by simp)
    failedRuns_advisory

/-- A timeout and an exhausted quota of one scout: the error message lists them in the order
in which the runs are given. -/
theorem failedRuns_order_shows :
    ¬ OrderInvariant (fun _ => "") failedRunsHash [timeoutRun, quotaRun] := by
  intro h
  have hties := tiesAgree_of_orderInvariant Function.injective_id (failedRuns_noCollision _)
    failedRuns_advisory h
  have hequal := hties timeoutRun (by simp) quotaRun (by simp) timeoutProvenance
    (by simp [timeoutRun_values]) quotaProvenance (by simp [quotaRun_values])
    ⟨rfl, rfl, rfl, rfl, rfl⟩ rfl
  exact absurd (congrArg SensorProvenance.errorMessage hequal) (by decide)

end SemanticCi.Sensor
