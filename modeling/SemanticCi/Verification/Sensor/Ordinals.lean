import SemanticCi.Verification.Sensor.Ensemble
import SemanticCi.Verification.Sensor.RawFindings

/-! The ordinals of a recorded scout run: the explicit ones are kept, the others are the free
numbers of their group in order, and the state of the run is built. -/

namespace SemanticCi.Sensor

open ExceptRules Numbering OrderedDict Python Ssp Report

variable {laxInt : LaxInt}

/-! ### Requests -/

/-- A finding that validates once its missing ordinal is filled in. -/
inductive ReadsAs (laxInt : LaxInt) : LoadedValue → RawLLMFinding → Prop
  | explicit {fields : LoadedObject} {raw : RawLLMFinding} (h : hasOrdinal fields = true)
      (hraw : RawLLMFinding.modelValidate laxInt fields = .ok raw) :
      ReadsAs laxInt (.object fields) raw
  | implicit {fields : LoadedObject} {raw : RawLLMFinding} (h : hasOrdinal fields = false)
      (hraw : RawLLMFinding.modelValidate laxInt (filledIn fields raw.ordinal) = .ok raw) :
      ReadsAs laxInt (.object fields) raw

/-- The group of a finding, and the ordinal that it names. -/
def ordinalRequest (laxInt : LaxInt) : LoadedValue → Option (Request FindingGroup)
  | .object fields =>
    if hasOrdinal fields then
      (RawLLMFinding.modelValidate laxInt fields).toOption.map fun raw =>
        (groupFromRaw raw, some raw.ordinal)
    else
      (RawLLMFinding.modelValidate laxInt (filledIn fields 0)).toOption.map fun raw =>
        (groupFromRaw raw, none)
  | _ => none

def ordinalRequests (laxInt : LaxInt) (findings : List LoadedValue) :
    List (Request FindingGroup) :=
  findings.filterMap (ordinalRequest laxInt)

theorem ordinalRequest_explicit {fields : LoadedObject} {raw : RawLLMFinding}
    (h : hasOrdinal fields = true) (hvalid : Validated laxInt fields raw) :
    ordinalRequest laxInt (.object fields) = some (groupFromRaw raw, some raw.ordinal) := by
  simp [ordinalRequest, h, modelValidate_eq_ok_iff.mpr hvalid, Except.toOption]

theorem ordinalRequest_implicit (hlax : ∀ i, laxInt (.int i) = some i) {fields : LoadedObject}
    {raw : RawLLMFinding} {n : ℕ} (h : hasOrdinal fields = false)
    (hvalid : Validated laxInt (filledIn fields n) raw) :
    ordinalRequest laxInt (.object fields) = some (groupFromRaw raw, none) := by
  have hzero := modelValidate_eq_ok_iff.mpr (hvalid.refill hlax h 0)
  simp [ordinalRequest, h, hzero, Except.toOption]

theorem fst_ordinalRequest (hlax : ∀ i, laxInt (.int i) = some i) {item : LoadedValue}
    {raw : RawLLMFinding} (h : ReadsAs laxInt item raw) :
    ∃ number, ordinalRequest laxInt item = some (groupFromRaw raw, number) := by
  cases h with
  | explicit h hraw => exact ⟨_, ordinalRequest_explicit h (modelValidate_eq_ok_iff.mp hraw)⟩
  | implicit h hraw => exact ⟨_, ordinalRequest_implicit hlax h (modelValidate_eq_ok_iff.mp hraw)⟩

theorem groups_ordinalRequests (hlax : ∀ i, laxInt (.int i) = some i)
    {findings : List LoadedValue} {raws : List RawLLMFinding}
    (h : List.Forall₂ (ReadsAs laxInt) findings raws) :
    (ordinalRequests laxInt findings).map Prod.fst = raws.map groupFromRaw := by
  induction h with
  | nil => rfl
  | cons hhead _ ih =>
    obtain ⟨number, hrequest⟩ := fst_ordinalRequest hlax hhead
    rw [ordinalRequests, List.filterMap_cons_some hrequest, List.map_cons, List.map_cons, ← ih]
    rfl

/-! ### Reservation -/

/-- The ordinals that findings name, under their groups. -/
abbrev explicitOrdinals (laxInt : LaxInt) (findings : List LoadedValue) :
    List (FindingGroup × ℕ) :=
  explicit (ordinalRequests laxInt findings)

theorem explicitOrdinals_cons_some {item : LoadedValue} {rest : List LoadedValue}
    {group : FindingGroup} {n : ℕ} (h : ordinalRequest laxInt item = some (group, some n)) :
    explicitOrdinals laxInt (item :: rest) = (group, n) :: explicitOrdinals laxInt rest := by
  rw [explicitOrdinals, ordinalRequests, List.filterMap_cons_some h]
  rfl

theorem explicitOrdinals_cons_none {item : LoadedValue} {rest : List LoadedValue}
    (h : ∀ group n, ordinalRequest laxInt item ≠ some (group, some n)) :
    explicitOrdinals laxInt (item :: rest) = explicitOrdinals laxInt rest := by
  cases hrequest : ordinalRequest laxInt item with
  | none => rw [explicitOrdinals, ordinalRequests, List.filterMap_cons_none hrequest]; rfl
  | some request =>
    obtain ⟨group, number⟩ := request
    cases number with
    | none => rw [explicitOrdinals, ordinalRequests, List.filterMap_cons_some hrequest]; rfl
    | some n => exact absurd hrequest (h group n)

theorem ordinalRequest_ne {item : LoadedValue}
    (h : ∀ fields, item = .object fields → hasOrdinal fields = false) (group : FindingGroup)
    (n : ℕ) : ordinalRequest laxInt item ≠ some (group, some n) := by
  intro hrequest
  cases item with
  | object fields => simp [ordinalRequest, h fields rfl] at hrequest
  | _ => cases hrequest

namespace OrdinalBooks

@[simp] theorem nextOf_add (books : OrdinalBooks) (group group' : FindingGroup) (n : ℕ) :
    (books.add group n).nextOf group' = books.nextOf group' := rfl

theorem mem_seenOf_add {books : OrdinalBooks} {group group' : FindingGroup} {n m : ℕ} :
    m ∈ (books.add group n).seenOf group' ↔
      m ∈ books.seenOf group' ∨ (group' = group ∧ m = n) := by
  rw [seenOf, add, get?_assign]
  by_cases hgroup : group' = group
  · subst hgroup
    simp [or_comm]
  · simp [hgroup, seenOf]

end OrdinalBooks

/-- What a finding that is read names is reserved, unless it is reserved already. -/
theorem reserveExplicitOrdinals_cons {fields : LoadedObject} {raw : RawLLMFinding}
    {rest : List LoadedValue} {books : OrdinalBooks} (h : hasOrdinal fields = true)
    (hvalid : Validated laxInt fields raw)
    (hnew : raw.ordinal ∉ books.seenOf (groupFromRaw raw)) :
    reserveExplicitOrdinals laxInt (.object fields :: rest) books =
      reserveExplicitOrdinals laxInt rest (books.add (groupFromRaw raw) raw.ordinal) := by
  simp [reserveExplicitOrdinals, h, modelValidate_eq_ok_iff.mpr hvalid, hnew]

/-- Nothing is reserved for a finding without an ordinal. -/
theorem reserveExplicitOrdinals_skip {item : LoadedValue} {rest : List LoadedValue}
    {books : OrdinalBooks} (h : ∀ fields, item = .object fields → hasOrdinal fields = false) :
    reserveExplicitOrdinals laxInt (item :: rest) books =
      reserveExplicitOrdinals laxInt rest books := by
  cases item with
  | object fields => simp [reserveExplicitOrdinals, h fields rfl]
  | _ => rfl

/-- After a reservation the ordinals of every group differ. -/
theorem nodup_of_reserveExplicitOrdinals {findings : List LoadedValue}
    {books books' : OrdinalBooks}
    (h : reserveExplicitOrdinals laxInt findings books = .ok books') :
    (explicitOrdinals laxInt findings).Nodup ∧
      ∀ pair ∈ explicitOrdinals laxInt findings, pair.2 ∉ books.seenOf pair.1 := by
  induction findings generalizing books with
  | nil => exact ⟨.nil, fun _ hpair => by cases hpair⟩
  | cons item rest ih =>
    by_cases hexplicit : ∃ fields, item = .object fields ∧ hasOrdinal fields = true
    · obtain ⟨fields, rfl, hordinal⟩ := hexplicit
      rw [reserveExplicitOrdinals, if_pos hordinal, bind_eq_ok_iff] at h
      obtain ⟨raw, hraw, hreserve⟩ := h
      rw [ite_error_eq_ok_iff] at hreserve
      obtain ⟨hnew, hrest⟩ := hreserve
      obtain ⟨hnodup, hfresh⟩ := ih hrest
      have hrequest := ordinalRequest_explicit hordinal (modelValidate_eq_ok_iff.mp hraw)
      rw [explicitOrdinals_cons_some hrequest]
      constructor
      · refine List.nodup_cons.mpr ⟨fun hmem => ?_, hnodup⟩
        exact hfresh _ hmem (OrdinalBooks.mem_seenOf_add.mpr (.inr ⟨rfl, rfl⟩))
      · intro pair hpair
        rcases List.mem_cons.mp hpair with rfl | hmem
        · exact hnew
        · exact fun hseen => hfresh pair hmem (OrdinalBooks.mem_seenOf_add.mpr (.inl hseen))
    · have hnone : ∀ fields, item = .object fields → hasOrdinal fields = false :=
        fun fields heq => Bool.eq_false_iff.mpr fun htrue => hexplicit ⟨fields, heq, htrue⟩
      rw [reserveExplicitOrdinals_skip hnone] at h
      rw [explicitOrdinals_cons_none (ordinalRequest_ne hnone)]
      exact ih h

/-- What a reservation leaves in the books. -/
structure Reserved (laxInt : LaxInt) (findings : List LoadedValue) (books books' : OrdinalBooks) :
    Prop where
  next : ∀ group, books'.nextOf group = books.nextOf group
  seen : ∀ group n, n ∈ books'.seenOf group ↔
    n ∈ books.seenOf group ∨ (group, n) ∈ explicitOrdinals laxInt findings

theorem reserveExplicitOrdinals_reserved {findings : List LoadedValue} {books : OrdinalBooks}
    (hread : ∀ item ∈ findings, ∃ raw, ReadsAs laxInt item raw)
    (hnodup : (explicitOrdinals laxInt findings).Nodup)
    (hfresh : ∀ pair ∈ explicitOrdinals laxInt findings, pair.2 ∉ books.seenOf pair.1) :
    ∃ books', reserveExplicitOrdinals laxInt findings books = .ok books' ∧
      Reserved laxInt findings books books' := by
  induction findings generalizing books with
  | nil => exact ⟨books, rfl, fun _ => rfl, fun _ _ => by simp [ordinalRequests, explicit]⟩
  | cons item rest ih =>
    obtain ⟨hhead, htail⟩ := List.forall_mem_cons.mp hread
    obtain ⟨raw, hraw⟩ := hhead
    cases hraw with
    | explicit hordinal hvalidate =>
      have hvalid := modelValidate_eq_ok_iff.mp hvalidate
      rw [explicitOrdinals_cons_some (ordinalRequest_explicit hordinal hvalid)] at hnodup hfresh
      obtain ⟨hnew, hrest⟩ := List.nodup_cons.mp hnodup
      have hlater : ∀ pair ∈ explicitOrdinals laxInt rest,
          pair.2 ∉ (books.add (groupFromRaw raw) raw.ordinal).seenOf pair.1 := by
        intro pair hpair hseen
        rcases OrdinalBooks.mem_seenOf_add.mp hseen with hold | ⟨hgroup, hn⟩
        · exact hfresh pair (List.mem_cons_of_mem _ hpair) hold
        · have heq : pair = (groupFromRaw raw, raw.ordinal) := Prod.ext hgroup hn
          exact hnew (heq ▸ hpair)
      obtain ⟨books', hok, hreserved⟩ := ih htail hrest hlater
      refine ⟨books', ?_, fun group => hreserved.next group, fun group n => ?_⟩
      · rw [reserveExplicitOrdinals_cons hordinal hvalid (hfresh _ List.mem_cons_self)]
        exact hok
      · rw [hreserved.seen, OrdinalBooks.mem_seenOf_add,
          explicitOrdinals_cons_some (ordinalRequest_explicit hordinal hvalid), List.mem_cons,
          Prod.mk.injEq, or_assoc]
    | @implicit fields raw hordinal _ =>
      have hnone : ∀ fields', LoadedValue.object fields = .object fields' →
          hasOrdinal fields' = false := by
        intro fields' heq
        obtain rfl := LoadedValue.object.inj heq
        exact hordinal
      rw [explicitOrdinals_cons_none (ordinalRequest_ne hnone)] at hnodup hfresh
      obtain ⟨books', hok, hreserved⟩ := ih htail hnodup hfresh
      refine ⟨books', ?_, hreserved.next, fun group n => ?_⟩
      · rw [reserveExplicitOrdinals_skip hnone]
        exact hok
      · rw [hreserved.seen, explicitOrdinals_cons_none (ordinalRequest_ne hnone)]

/-! ### Assignment -/

/-- The books of the loop, when so many free numbers of every group have been used. From the next
number of a group on, only the reserved ones have been seen. -/
structure InStep (taken : FindingGroup → Finset ℕ) (used : FindingGroup → ℕ)
    (books : OrdinalBooks) : Prop where
  reserved : ∀ group, taken group ⊆ books.seenOf group
  ahead : ∀ group m, books.nextOf group ≤ m → (m ∈ books.seenOf group ↔ m ∈ taken group)
  count : ∀ group, freeBelow (taken group) (books.nextOf group) = used group

section Loop

variable {taken : FindingGroup → Finset ℕ} {used : FindingGroup → ℕ} {books : OrdinalBooks}

theorem rawFinding_explicit {fields : LoadedObject} {raw : RawLLMFinding} (index : ℕ)
    (h : hasOrdinal fields = true) (hvalid : Validated laxInt fields raw)
    (hmem : raw.ordinal ∈ books.seenOf (groupFromRaw raw)) :
    rawFinding laxInt fields index books = .ok (raw, books) := by
  simp [rawFinding, h, modelValidate_eq_ok_iff.mpr hvalid, hmem]

/-- The books after a number has been given. -/
def OrdinalBooks.give (books : OrdinalBooks) (group : FindingGroup) (n : ℕ) : OrdinalBooks :=
  ({ books with next := books.next.assign group (n + 1) } : OrdinalBooks).add group n

theorem rawFinding_implicit (hlax : ∀ i, laxInt (.int i) = some i) (books : OrdinalBooks)
    (index : ℕ) {fields : LoadedObject} {raw : RawLLMFinding} {n : ℕ}
    (h : hasOrdinal fields = false) (hvalid : Validated laxInt (filledIn fields n) raw) :
    rawFinding laxInt fields index books =
      .ok (raw.withOrdinal (nextFree (books.nextOf (groupFromRaw raw))
          (books.seenOf (groupFromRaw raw))),
        books.give (groupFromRaw raw) (nextFree (books.nextOf (groupFromRaw raw))
          (books.seenOf (groupFromRaw raw)))) := by
  set next := nextFree (books.nextOf (groupFromRaw raw)) (books.seenOf (groupFromRaw raw))
    with hnext
  have hraw := modelValidate_eq_ok_iff.mpr (hvalid.refill hlax h next)
  rw [filledIn] at hraw
  simp only [rawFinding, h, fillOrdinal, hvalid.groupFromMapping_eq index, ok_bind, pure_eq_ok,
    ← hnext, hraw, Bool.false_eq_true, if_false, groupFromRaw_withOrdinal]
  rfl

theorem OrdinalBooks.nextOf_give (books : OrdinalBooks) (group group' : FindingGroup) (n : ℕ) :
    (books.give group n).nextOf group' = if group' = group then n + 1 else books.nextOf group' := by
  rw [give, nextOf_add, nextOf, get?_assign]
  by_cases hgroup : group' = group
  · rw [if_pos hgroup, if_pos hgroup, Option.getD_some]
  · rw [if_neg hgroup, if_neg hgroup, nextOf]

theorem OrdinalBooks.mem_seenOf_give {books : OrdinalBooks} {group group' : FindingGroup}
    {n m : ℕ} : m ∈ (books.give group n).seenOf group' ↔
      m ∈ books.seenOf group' ∨ (group' = group ∧ m = n) :=
  mem_seenOf_add

/-- The next number of a group is its first free number that has not been used, and with it the
books stay in step. -/
theorem InStep.give (h : InStep taken used books) (group : FindingGroup) :
    nextFree (books.nextOf group) (books.seenOf group) =
        nthFree (taken group) (used group) ∧
      InStep taken (Function.update used group (used group + 1))
        (books.give group (nextFree (books.nextOf group) (books.seenOf group))) := by
  obtain ⟨hvalue, -, hcount⟩ := nextFree_eq (h.ahead group)
  obtain ⟨hle, -, -⟩ := nextFree_spec (books.nextOf group) (books.seenOf group)
  set next := nextFree (books.nextOf group) (books.seenOf group) with hnext
  rw [h.count group] at hvalue hcount
  refine ⟨hvalue, ?_, ?_, ?_⟩
  · intro group' m hm
    exact OrdinalBooks.mem_seenOf_give.mpr (.inl (h.reserved group' hm))
  · intro group' m hm
    rw [OrdinalBooks.nextOf_give] at hm
    rw [OrdinalBooks.mem_seenOf_give]
    by_cases hgroup : group' = group
    · subst hgroup
      rw [if_pos rfl] at hm
      have hne : m ≠ next := by omega
      simp [hne, h.ahead group' m (by omega)]
    · rw [if_neg hgroup] at hm
      simp [hgroup, h.ahead group' m hm]
  · intro group'
    rw [OrdinalBooks.nextOf_give]
    by_cases hgroup : group' = group
    · subst hgroup
      rw [if_pos rfl, Function.update_self]
      exact hcount
    · rw [if_neg hgroup, Function.update_of_ne hgroup]
      exact h.count group'

theorem rawFindingsFrom_cons {fields : LoadedObject} {rest : List LoadedValue} {index : ℕ}
    {raw : RawLLMFinding} {books' : OrdinalBooks} {raws : List RawLLMFinding}
    (h : rawFinding laxInt fields index books = .ok (raw, books'))
    (hrest : rawFindingsFrom laxInt rest (index + 1) books' = .ok raws) :
    rawFindingsFrom laxInt (.object fields :: rest) index books = .ok (raw :: raws) := by
  simp [rawFindingsFrom, h, hrest]

/-- The loop reads every finding, and gives the numbers of the requests. -/
theorem rawFindingsFrom_numbers (hlax : ∀ i, laxInt (.int i) = some i)
    {findings : List LoadedValue} (index : ℕ)
    (hread : ∀ item ∈ findings, ∃ raw, ReadsAs laxInt item raw)
    (htaken : ∀ pair ∈ explicitOrdinals laxInt findings, pair.2 ∈ taken pair.1)
    (hbooks : InStep taken used books) :
    ∃ raws, rawFindingsFrom laxInt findings index books = .ok raws ∧
      List.Forall₂ (ReadsAs laxInt) findings raws ∧
      raws.map (·.ordinal) = numbers taken used (ordinalRequests laxInt findings) := by
  induction findings generalizing index used books with
  | nil => exact ⟨[], rfl, .nil, rfl⟩
  | cons item rest ih =>
    obtain ⟨hhead, htail⟩ := List.forall_mem_cons.mp hread
    obtain ⟨raw, hraw⟩ := hhead
    cases hraw with
    | explicit hordinal hvalidate =>
      have hvalid := modelValidate_eq_ok_iff.mp hvalidate
      have hrequest := ordinalRequest_explicit hordinal hvalid
      rw [explicitOrdinals_cons_some hrequest] at htaken
      obtain ⟨hown, hlater⟩ := List.forall_mem_cons.mp htaken
      obtain ⟨raws, hok, hall, hnumbers⟩ := ih (index + 1) htail hlater hbooks
      have hraw := rawFinding_explicit index hordinal hvalid (hbooks.reserved _ hown)
      refine ⟨raw :: raws, rawFindingsFrom_cons hraw hok, ?_, ?_⟩
      · exact .cons (.explicit hordinal hvalidate) hall
      · rw [List.map_cons, hnumbers, ordinalRequests, ordinalRequests,
          List.filterMap_cons_some hrequest, numbers]
    | implicit hordinal hvalidate =>
      have hvalid := modelValidate_eq_ok_iff.mp hvalidate
      have hrequest := ordinalRequest_implicit hlax hordinal hvalid
      obtain ⟨hvalue, hnext⟩ := hbooks.give (groupFromRaw raw)
      have hlater : ∀ pair ∈ explicitOrdinals laxInt rest, pair.2 ∈ taken pair.1 := by
        intro pair hpair
        apply htaken pair
        rwa [explicitOrdinals_cons_none]
        intro group n heq
        rw [hrequest] at heq
        cases heq
      obtain ⟨raws, hok, hall, hnumbers⟩ := ih (index + 1) htail hlater hnext
      have hraw := rawFinding_implicit hlax books index hordinal hvalid
      refine ⟨_ :: raws, rawFindingsFrom_cons hraw hok, ?_, ?_⟩
      · apply List.Forall₂.cons _ hall
        exact .implicit hordinal (modelValidate_eq_ok_iff.mpr (hvalid.refill hlax hordinal _))
      · rw [List.map_cons, hnumbers, ordinalRequests, ordinalRequests,
          List.filterMap_cons_some hrequest, numbers, ← hvalue]
        rfl

end Loop

/-- What the parsed findings of a payload must be. -/
structure OrdinalsAssigned (laxInt : LaxInt) (findings : List LoadedValue)
    (raws : List RawLLMFinding) : Prop where
  /-- One raw finding for every entry, in order, with its own ordinal if it has one. -/
  entries : List.Forall₂ (ReadsAs laxInt) findings raws
  /-- The other ordinals are, in order, the numbers of the group that no entry names. -/
  ordinals : raws.map (·.ordinal) =
    numbers (named (ordinalRequests laxInt findings)) (fun _ => 0) (ordinalRequests laxInt findings)
  unique : (raws.map fun raw => (groupFromRaw raw, raw.ordinal)).Nodup

theorem rawFindings_assigned (hlax : ∀ i, laxInt (.int i) = some i) {findings : List LoadedValue}
    (hread : ∀ item ∈ findings, ∃ raw, ReadsAs laxInt item raw)
    (hnodup : (explicitOrdinals laxInt findings).Nodup) :
    ∃ raws, rawFindings laxInt findings = .ok raws ∧ OrdinalsAssigned laxInt findings raws := by
  set requests := ordinalRequests laxInt findings with hrequests
  have hempty (group : FindingGroup) (n : ℕ) : n ∉ ({} : OrdinalBooks).seenOf group :=
    fun hmem => by cases hmem
  obtain ⟨books, hreserve, hreserved⟩ := reserveExplicitOrdinals_reserved hread hnodup
    fun pair _ => hempty pair.1 pair.2
  have hseen (group : FindingGroup) (n : ℕ) :
      n ∈ books.seenOf group ↔ n ∈ named requests group := by
    rw [hreserved.seen, mem_named, mem_explicit]
    exact or_iff_right (hempty group n)
  have hstart : InStep (named requests) (fun _ => 0) books := by
    constructor
    · exact fun group n hn => (hseen group n).mpr hn
    · exact fun group n _ => hseen group n
    · intro group
      rw [hreserved.next]
      exact Nat.count_zero _
  have htaken : ∀ pair ∈ explicitOrdinals laxInt findings, pair.2 ∈ named requests pair.1 :=
    fun pair hpair => mem_named.mpr (mem_explicit.mp hpair)
  obtain ⟨raws, hok, hall, hnumbers⟩ := rawFindingsFrom_numbers hlax 0 hread htaken hstart
  refine ⟨raws, ?_, hall, hnumbers, ?_⟩
  · rw [rawFindings, hreserve, ok_bind]
    exact hok
  · have hgroups := groups_ordinalRequests hlax hall
    have hzip : raws.map (fun raw => (groupFromRaw raw, raw.ordinal)) =
        numbered (named requests) (fun _ => 0) requests := by
      rw [numbered, hgroups, ← hnumbers, List.zip_map']
    rw [hzip]
    exact nodup_numbered (fun group n hmem => mem_named.mpr hmem) hnodup

/-! ### The state of a run -/

section State

variable {Digest : Type} {digest : List Component → Digest}

/-- The canonical id of a projected finding tells its group and its ordinal. -/
theorem group_eq_of_canonicalId (hdigest : Function.Injective digest) {raw raw' : RawLLMFinding}
    (h : (codexSecurityFinding digest raw).canonicalId =
      (codexSecurityFinding digest raw').canonicalId) :
    (groupFromRaw raw, raw.ordinal) = (groupFromRaw raw', raw'.ordinal) := by
  have hmapped := hdigest (Prod.mk.inj (toLex.injective h)).2
  have hinl : Function.Injective fun s : String => (Sum.inlₗ s : Component) :=
    fun _ _ hst => Sum.inl.inj (toLex.injective hst)
  have hcomponents := List.map_injective_iff.mpr hinl hmapped
  simp only [List.cons.injEq, true_and, and_true, toString_inj] at hcomponents
  obtain ⟨hclass, hpath, hname, hkind, hproperty, hordinal⟩ := hcomponents
  simp only [groupFromRaw, hclass, hpath, hname, hkind, hproperty, hordinal]

theorem nodup_canonicalIds (hdigest : Function.Injective digest) {raws : List RawLLMFinding}
    (h : (raws.map fun raw => (groupFromRaw raw, raw.ordinal)).Nodup) :
    ((raws.map (codexSecurityFinding digest)).map (·.canonicalId)).Nodup := by
  rw [List.map_map]
  apply List.pairwise_map.mpr
  apply (List.pairwise_map.mp h).imp
  intro raw raw' hne hid
  exact hne (group_eq_of_canonicalId hdigest hid)

/-- A payload of a complete run, with an array of findings. -/
structure CompletePayload (payload : LoadedObject) (findings : List LoadedValue) : Prop where
  sensorVersion : ∃ text, payload.get? "sensor_version" = some (.str text)
  modelId : ∃ text, text ≠ "" ∧ payload.get? "model_id" = some (.str text)
  promptHash : ∃ text, text ≠ "" ∧ payload.get? "prompt_hash" = some (.str text)
  status : payload.get? "status" = some (.str "complete")
  errorMessage : payload.get? "error_message" = none ∨ payload.get? "error_message" = some .null
  findings : payload.get? "findings" = some (.array findings)

theorem requiredString_eq_ok {payload : LoadedObject} {key text : String}
    (h : payload.get? key = some (.str text)) : requiredString payload key = .ok text := by
  simp only [requiredString, h]

theorem requiredNonEmptyString_eq_ok {payload : LoadedObject} {key text : String}
    (hne : text ≠ "") (h : payload.get? key = some (.str text)) :
    requiredNonEmptyString payload key = .ok ⟨text, hne⟩ := by
  rw [requiredNonEmptyString, requiredString_eq_ok h, ok_bind, dif_pos hne]

/-- A complete payload is parsed where its findings are. -/
theorem parsePayload_complete (laxInt : LaxInt) {payload : LoadedObject}
    {findings : List LoadedValue} (h : CompletePayload payload findings) : ∃ provenance : LLMSensorProvenance,
      provenance.sensorId = codexSecuritySensorId ∧ provenance.status = .complete ∧
        parsePayload laxInt (.object payload) = do
          let raws ← rawFindings laxInt findings
          return ⟨raws, provenance⟩ := by
  obtain ⟨version, hversion⟩ := h.sensorVersion
  obtain ⟨modelId, hmodelId, hmodel⟩ := h.modelId
  obtain ⟨promptHash, hpromptHash, hprompt⟩ := h.promptHash
  have hstatus : payloadStatus payload = .ok .complete := by
    rw [payloadStatus, requiredString_eq_ok h.status]
    rfl
  have herror : payloadErrorMessage payload = .ok none := by
    rcases h.errorMessage with hnone | hnull
    · simp only [payloadErrorMessage, hnone]
    · simp only [payloadErrorMessage, hnull]
  have hfindings : findingsPayload payload = .ok findings := by
    simp only [findingsPayload, h.findings]
  have hprovenance : ∃ provenance : LLMSensorProvenance,
      provenance.sensorId = codexSecuritySensorId ∧ provenance.status = .complete ∧
        payloadProvenance version ⟨modelId, hmodelId⟩ ⟨promptHash, hpromptHash⟩ .complete none =
          .ok provenance := by
    rw [payloadProvenance, dif_pos completeWithoutError]
    exact ⟨_, rfl, rfl, rfl⟩
  obtain ⟨provenance, hid, hcomplete, hok⟩ := hprovenance
  refine ⟨provenance, hid, hcomplete, ?_⟩
  simp only [parsePayload, requiredString_eq_ok hversion,
    requiredNonEmptyString_eq_ok hmodelId hmodel, requiredNonEmptyString_eq_ok hpromptHash hprompt,
    hstatus, herror, hfindings, hok, ok_bind, ne_eq, not_true_eq_false, false_and, if_false]

section Built

variable [LinearOrder Digest]

theorem adapterState_built (hdigest : Function.Injective digest)
    (parsed : ParsedCodexSecurityPayload)
    (hid : parsed.provenance.sensorId = codexSecuritySensorId)
    (hcomplete : parsed.provenance.status = .complete)
    (hunique : (parsed.rawFindings.map fun raw => (groupFromRaw raw, raw.ordinal)).Nodup) :
    ∃ state, (adapterStateData digest parsed).build = .ok state ∧
      state.findings.Perm (parsed.rawFindings.map fun raw =>
        .llm (codexSecurityFinding digest raw)) := by
  set findings := sortLLMFindings (parsed.rawFindings.map (codexSecurityFinding digest))
    with hfindings
  have hperm : findings.Perm (parsed.rawFindings.map (codexSecurityFinding digest)) :=
    List.perm_insertionSort _ _
  have hdata : adapterStateData digest parsed =
      { provenanceBySensor :=
          ofPairs [(parsed.provenance.sensorId, parsed.provenance.toProvenance)]
        findings := findings.map .llm } := by
    rw [adapterStateData, hcomplete, if_neg (not_not.mpr rfl)]
  have hown : ∀ finding ∈ findings, finding.sensorId = parsed.provenance.sensorId := by
    intro finding hfinding
    obtain ⟨raw, -, rfl⟩ := List.mem_map.mp (hperm.mem_iff.mp hfinding)
    exact hid.symm
  have hwell := advisoryData_wellFormed
    (canonicalIds_sortLLMFindings (nodup_canonicalIds hdigest hunique)) hown fun _ => hcomplete
  rw [← hfindings, ← hdata] at hwell
  obtain ⟨state, hstate, hkept⟩ := build_eq_ok hwell
  refine ⟨state, hstate, ?_⟩
  rw [hkept, hdata]
  have hmapped := hperm.map SecurityFinding.llm
  rwa [List.map_map] at hmapped

/-- A complete payload whose findings each validate, with different explicit ordinals in every
group, is parsed with its ordinals assigned, and gives a state. With one explicit ordinal twice in
a group it is refused. -/
theorem scout_ordinals_assigned (hlax : ∀ i, laxInt (.int i) = some i)
    (hdigest : Function.Injective digest) {payload : LoadedObject} {findings : List LoadedValue}
    (hpayload : CompletePayload payload findings) :
    ((∀ item ∈ findings, ∃ raw, ReadsAs laxInt item raw) →
      (explicitOrdinals laxInt findings).Nodup →
      ∃ parsed state, parsePayload laxInt (.object payload) = .ok parsed ∧
        OrdinalsAssigned laxInt findings parsed.rawFindings ∧
        sensorStateFromCodexSecurityJson digest laxInt (.object payload) = .ok state ∧
        state.findings.Perm (parsed.rawFindings.map fun raw =>
          .llm (codexSecurityFinding digest raw))) ∧
    (¬ (explicitOrdinals laxInt findings).Nodup →
      ∃ e, parsePayload laxInt (.object payload) = .error e ∧
        sensorStateFromCodexSecurityJson digest laxInt (.object payload) = .error e) := by
  obtain ⟨provenance, hid, hcomplete, hparse⟩ := parsePayload_complete laxInt hpayload
  constructor
  · intro hread hnodup
    obtain ⟨raws, hraws, hassigned⟩ := rawFindings_assigned hlax hread hnodup
    have hparsed : parsePayload laxInt (.object payload) = .ok ⟨raws, provenance⟩ := by
      rw [hparse, hraws]
      rfl
    obtain ⟨state, hstate, hperm⟩ := adapterState_built hdigest ⟨raws, provenance⟩ hid hcomplete
      hassigned.unique
    refine ⟨⟨raws, provenance⟩, state, hparsed, hassigned, ?_, hperm⟩
    rw [sensorStateFromCodexSecurityJson, hparsed, ok_bind, hstate]
  · intro hduplicate
    rcases ok_or_error (reserveExplicitOrdinals laxInt findings {}) with ⟨books, hok⟩ | ⟨e, herror⟩
    · exact absurd (nodup_of_reserveExplicitOrdinals hok).1 hduplicate
    · have hparsed : parsePayload laxInt (.object payload) = .error e := by
        rw [hparse, rawFindings, herror]
        rfl
      refine ⟨e, hparsed, ?_⟩
      rw [sensorStateFromCodexSecurityJson, hparsed]
      rfl

end Built

end State

/-! ### An ordinal that is named late -/

/-- `int` on the JSON integers. -/
def integerOnly : LaxInt
  | .int i => some i
  | _ => none

def lateFields (modulePath : String) : LoadedObject :=
  [("finding_class", .str "missing-check"), ("module_path", .str modulePath),
    ("qualified_name", .str "handler"), ("anchor_kind", .str "presence"),
    ("severity", .str "low")]

def lateRaw (ordinal : ℕ) : RawLLMFinding where
  findingClass := "missing-check"
  modulePath := "src/app.py"
  qualifiedName := "handler"
  anchorKind := .presence
  ordinal := ordinal
  severity := .low
  findingClass_ne := by decide
  modulePath_ne := by decide
  modulePath_posix := by decide
  qualifiedName_ne := by decide
  absence_iff := by decide

/-- The first of two findings leaves its ordinal out, the second takes zero. -/
def lateFindings : List LoadedValue :=
  [.object (lateFields "src\\app.py"), .object (filledIn (lateFields "src/app.py") 0)]

def latePayload : LoadedObject :=
  [("sensor_version", .str "1"), ("model_id", .str "codex"), ("prompt_hash", .str "sha256:prompt"),
    ("status", .str "complete"), ("findings", .array lateFindings)]

theorem latePayload_complete : CompletePayload latePayload lateFindings where
  sensorVersion := ⟨"1", rfl⟩
  modelId := ⟨"codex", by decide, rfl⟩
  promptHash := ⟨"sha256:prompt", by decide, rfl⟩
  status := rfl
  errorMessage := .inl rfl
  findings := rfl

theorem lateFields_validate {modulePath : String} (hne : modulePath ≠ "")
    (hposix : posixPath modulePath = "src/app.py") (ordinal : ℕ) :
    RawLLMFinding.modelValidate integerOnly (filledIn (lateFields modulePath) ordinal) =
      .ok (lateRaw ordinal) := by
  apply modelValidate_eq_ok_iff.mpr
  constructor
  · intro field hfield
    simp only [filledIn, lateFields, List.cons_append, List.nil_append, List.mem_cons,
      List.not_mem_nil, or_false] at hfield
    rcases hfield with rfl | rfl | rfl | rfl | rfl | rfl <;> simp [rawFindingKeys]
  · rfl
  · exact ⟨modulePath, hne, rfl, hposix⟩
  · rfl
  · rfl
  · rfl
  · rfl
  · rfl
  · rfl
  · rfl

theorem scout_ordinals_assigned_late : ∃ parsed state,
    parsePayload integerOnly (.object latePayload) = .ok parsed ∧
      OrdinalsAssigned integerOnly lateFindings parsed.rawFindings ∧
      sensorStateFromCodexSecurityJson id integerOnly (.object latePayload) = .ok state ∧
      state.findings.Perm (parsed.rawFindings.map fun raw =>
        .llm (codexSecurityFinding id raw)) := by
  have hlax : ∀ i, integerOnly (.int i) = some i := fun _ => rfl
  have hlate := lateFields_validate (by decide) (by decide : posixPath "src\\app.py" = _) 0
  have hzero := lateFields_validate (by decide) (by decide : posixPath "src/app.py" = _) 0
  have hnone : hasOrdinal (lateFields "src\\app.py") = false := by decide
  have hsome : hasOrdinal (filledIn (lateFields "src/app.py") 0) = true := by decide
  have hfirst : ordinalRequest integerOnly (.object (lateFields "src\\app.py")) =
      some (groupFromRaw (lateRaw 0), none) :=
    ordinalRequest_implicit hlax hnone (modelValidate_eq_ok_iff.mp hlate)
  have hsecond : ordinalRequest integerOnly (.object (filledIn (lateFields "src/app.py") 0)) =
      some (groupFromRaw (lateRaw 0), some 0) :=
    ordinalRequest_explicit hsome (modelValidate_eq_ok_iff.mp hzero)
  apply (scout_ordinals_assigned hlax Function.injective_id latePayload_complete).1
  · intro item hitem
    rcases List.mem_pair.mp hitem with rfl | rfl
    · exact ⟨lateRaw 0, .implicit hnone hlate⟩
    · exact ⟨lateRaw 0, .explicit hsome hzero⟩
  · simp [lateFindings, explicit, ordinalRequests, hfirst, hsecond]

end SemanticCi.Sensor
