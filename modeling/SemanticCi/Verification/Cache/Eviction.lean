import SemanticCi.Model.CacheEviction

/-! Eviction goes down to its target with the oldest files, and with no more of them than it
takes. -/

namespace SemanticCi.CodeStateCache

open SemanticCi.Python

/-! ## Files and bytes -/

def bytes (records : List CacheFileRecord) : ℤ :=
  (records.map fun record => (record.size : ℤ)).sum

@[simp] theorem bytes_nil : bytes [] = 0 := rfl

@[simp] theorem bytes_cons (record : CacheFileRecord) (rest : List CacheFileRecord) :
    bytes (record :: rest) = record.size + bytes rest := rfl

@[simp] theorem bytes_append (front back : List CacheFileRecord) :
    bytes (front ++ back) = bytes front + bytes back := by
  simp [bytes]

theorem bytes_perm {records records' : List CacheFileRecord} (h : records.Perm records') :
    bytes records = bytes records' := (h.map _).sum_eq

/-- The `unlink` of the file fails. -/
def UnlinkOutcome.Fails (outcome : UnlinkOutcome) : Prop := ∃ message, outcome = .osError message

instance (outcome : UnlinkOutcome) : Decidable outcome.Fails :=
  match outcome with
  | .removed => isFalse nofun
  | .fileNotFound => isFalse nofun
  | .osError message => isTrue ⟨message, rfl⟩

section Loop

variable {unlink : CacheFileRecord → UnlinkOutcome} {target : ℤ}

/-- The files that can be removed, in the order of the records. -/
def removable (unlink : CacheFileRecord → UnlinkOutcome) (records : List CacheFileRecord) :
    List CacheFileRecord :=
  records.filter fun record => ¬ (unlink record).Fails

/-! ## One step -/

theorem evictLoop_of_le {total : ℤ} (h : total ≤ target) (records : List CacheFileRecord) :
    evictLoop unlink target total records = ⟨total, []⟩ := by
  cases records with
  | nil => rfl
  | cons record rest => rw [evictLoop, if_pos h]

/-- A file that is removed or found gone leaves the total. -/
theorem evictLoop_gone {total : ℤ} {record : CacheFileRecord} (rest : List CacheFileRecord)
    (h : target < total) (hgone : ¬ (unlink record).Fails) :
    evictLoop unlink target total (record :: rest) =
      ⟨(evictLoop unlink target (total - record.size) rest).total,
        (record, unlink record) ::
          (evictLoop unlink target (total - record.size) rest).attempts⟩ := by
  rw [evictLoop, if_neg (not_le.mpr h)]
  cases hout : unlink record with
  | removed => rfl
  | fileNotFound => rfl
  | osError message => exact absurd ⟨message, hout⟩ hgone

/-- A file that cannot be removed stays in the total. -/
theorem evictLoop_fails {total : ℤ} {record : CacheFileRecord} (rest : List CacheFileRecord)
    (h : target < total) (hfails : (unlink record).Fails) :
    evictLoop unlink target total (record :: rest) =
      ⟨(evictLoop unlink target total rest).total,
        (record, unlink record) :: (evictLoop unlink target total rest).attempts⟩ := by
  obtain ⟨message, hout⟩ := hfails
  rw [evictLoop, if_neg (not_le.mpr h), hout]

theorem gone_cons_of_fails {record : CacheFileRecord}
    (attempts : List (CacheFileRecord × UnlinkOutcome)) (h : (unlink record).Fails) :
    gone ((record, unlink record) :: attempts) = gone attempts := by
  obtain ⟨message, hout⟩ := h
  simp [gone, hout]

theorem gone_cons_of_not_fails {record : CacheFileRecord}
    (attempts : List (CacheFileRecord × UnlinkOutcome)) (h : ¬ (unlink record).Fails) :
    gone ((record, unlink record) :: attempts) = record :: gone attempts := by
  cases hout : unlink record with
  | removed => simp [gone]
  | fileNotFound => simp [gone]
  | osError message => exact absurd ⟨message, hout⟩ h

/-! ## The loop -/

/-- What the loop does to the records that are left, from a running total: what is gone are the
first of the files that can be removed, every attempt is made above the target, and only for
want of files does the loop end there. -/
structure LoopSpec (unlink : CacheFileRecord → UnlinkOutcome) (target total : ℤ)
    (records : List CacheFileRecord) (e : Eviction) : Prop where
  gone_prefix : gone e.attempts <+: removable unlink records
  total_eq : e.total = total - bytes (gone e.attempts)
  above : ∀ front attempt back, e.attempts = front ++ attempt :: back →
    target < total - bytes (gone front)
  exhausted : target < e.total → gone e.attempts = removable unlink records

theorem loopSpec_no_attempts {total : ℤ} {records : List CacheFileRecord}
    (h : target < total → removable unlink records = []) :
    LoopSpec unlink target total records ⟨total, []⟩ where
  gone_prefix := List.nil_prefix
  total_eq := by simp [gone]
  above front attempt back hsplit := by simp at hsplit
  exhausted habove := (h habove).symm

theorem LoopSpec.cons_fails {total : ℤ} {record : CacheFileRecord} {rest : List CacheFileRecord}
    {e : Eviction} (h : LoopSpec unlink target total rest e) (habove : target < total)
    (hfails : (unlink record).Fails) :
    LoopSpec unlink target total (record :: rest)
      ⟨e.total, (record, unlink record) :: e.attempts⟩ := by
  have hgone := gone_cons_of_fails e.attempts hfails
  have hrest : removable unlink (record :: rest) = removable unlink rest := by
    simp [removable, hfails]
  constructor
  · rw [hgone, hrest]
    exact h.gone_prefix
  · rw [hgone]
    exact h.total_eq
  · intro front attempt back hsplit
    cases front with
    | nil => simpa [gone] using habove
    | cons first front =>
        obtain ⟨rfl, hattempts⟩ := List.cons.inj hsplit
        rw [gone_cons_of_fails front hfails]
        exact h.above front attempt back hattempts
  · intro hover
    rw [hgone, hrest]
    exact h.exhausted hover

theorem LoopSpec.cons_gone {total : ℤ} {record : CacheFileRecord} {rest : List CacheFileRecord}
    {e : Eviction} (h : LoopSpec unlink target (total - record.size) rest e)
    (habove : target < total) (hgone : ¬ (unlink record).Fails) :
    LoopSpec unlink target total (record :: rest)
      ⟨e.total, (record, unlink record) :: e.attempts⟩ := by
  have hattempts := gone_cons_of_not_fails e.attempts hgone
  have hrest : removable unlink (record :: rest) = record :: removable unlink rest := by
    simp [removable, hgone]
  constructor
  · rw [hattempts, hrest]
    exact (List.prefix_cons_inj record).mpr h.gone_prefix
  · have htotal := h.total_eq
    change e.total = total - bytes (gone ((record, unlink record) :: e.attempts))
    rw [hattempts, bytes_cons]
    omega
  · intro front attempt back hsplit
    cases front with
    | nil => simpa [gone] using habove
    | cons first front =>
        obtain ⟨rfl, hback⟩ := List.cons.inj hsplit
        have hfront := h.above front attempt back hback
        rw [gone_cons_of_not_fails front hgone, bytes_cons]
        omega
  · intro hover
    rw [hattempts, hrest, h.exhausted hover]

theorem evictLoop_spec (total : ℤ) (records : List CacheFileRecord) :
    LoopSpec unlink target total records (evictLoop unlink target total records) := by
  induction records generalizing total with
  | nil => exact loopSpec_no_attempts fun _ => rfl
  | cons record rest ih =>
      by_cases hstop : total ≤ target
      · rw [evictLoop_of_le hstop]
        exact loopSpec_no_attempts fun habove => absurd hstop (not_le.mpr habove)
      · have habove : target < total := not_le.mp hstop
        by_cases hfails : (unlink record).Fails
        · rw [evictLoop_fails rest habove hfails]
          exact (ih total).cons_fails habove hfails
        · rw [evictLoop_gone rest habove hfails]
          exact (ih (total - record.size)).cons_gone habove hfails

end Loop

/-! ## The budget -/

/-- What an eviction over its budget does: the oldest of the files that can be removed go, one
by one while the rest is above the target, and what stays above it cannot be removed. -/
structure Evicts (unlink : CacheFileRecord → UnlinkOutcome) (records : List CacheFileRecord)
    (target : ℤ) (e : Eviction) : Prop where
  oldest : ∃ candidates, candidates.Perm (records.filter fun record => ¬ (unlink record).Fails) ∧
    candidates.Pairwise (fun a b => a.mtime ≤ b.mtime) ∧ gone e.attempts <+: candidates
  above : ∀ front attempt back, e.attempts = front ++ attempt :: back →
    target < bytes records - bytes (gone front)
  remaining : ∃ kept, records.Perm (gone e.attempts ++ kept) ∧ e.total = bytes kept ∧
    (target < bytes kept → ∀ record ∈ kept, (unlink record).Fails)
  returned : e.removed.Sublist ((gone e.attempts).map CacheFileRecord.path)

theorem removed_sublist (e : Eviction) :
    e.removed.Sublist ((gone e.attempts).map CacheFileRecord.path) := by
  rw [Eviction.removed, gone, List.map_map]
  apply List.Sublist.map
  apply List.monotone_filter_right
  intro attempt hremoved
  have houtcome : attempt.2 = .removed := by simpa using hremoved
  simp [houtcome]

theorem evicts_of_loopSpec {unlink : CacheFileRecord → UnlinkOutcome}
    {records sorted : List CacheFileRecord} {target : ℤ} {e : Eviction}
    (hperm : sorted.Perm records) (hsorted : sorted.Pairwise fun a b => a.mtime ≤ b.mtime)
    (h : LoopSpec unlink target (bytes records) sorted e) : Evicts unlink records target e := by
  obtain ⟨later, hlater⟩ := h.gone_prefix
  let failing := sorted.filter fun record => (unlink record).Fails
  have hsplit : records.Perm (gone e.attempts ++ (later ++ failing)) := by
    have hparts : (removable unlink sorted ++ failing).Perm sorted := by
      have := List.filter_append_perm (fun record => ¬ (unlink record).Fails) sorted
      simpa [removable, failing] using this
    rw [← List.append_assoc, hlater]
    exact (hparts.trans hperm).symm
  have hkept : e.total = bytes (later ++ failing) := by
    have htotal := h.total_eq
    have hbytes := bytes_perm hsplit
    rw [bytes_append] at hbytes
    omega
  refine ⟨⟨removable unlink sorted, hperm.filter _, hsorted.filter _, h.gone_prefix⟩, h.above,
    ⟨later ++ failing, hsplit, hkept, ?_⟩, removed_sublist e⟩
  intro hover record hrecord
  rw [← hkept] at hover
  have hnone : later = [] := by
    rw [h.exhausted hover] at hlater
    exact List.append_right_eq_self.mp hlater
  rw [hnone, List.nil_append] at hrecord
  simpa using (List.mem_filter.mp hrecord).2

/-- Nothing is removed within the budget, or without one; over it the fewest and oldest files
are, down to the low-water target. -/
theorem evict_to_budget_meets_target (unlink : CacheFileRecord → UnlinkOutcome)
    (records : List CacheFileRecord) (budget : ℤ) (lowWater : LowWater) :
    (budget ≤ 0 ∨ bytes records ≤ budget →
        (evictToBudget unlink records budget lowWater).attempts = []) ∧
      (0 < budget → budget < bytes records →
        Evicts unlink records ⌊budget * lowWater.fraction⌋
          (evictToBudget unlink records budget lowWater)) := by
  constructor
  · intro hwithin
    rw [evictToBudget]
    by_cases hbudget : budget ≤ 0
    · simp [hbudget]
    · have htotal : bytes records ≤ budget := hwithin.resolve_left hbudget
      rw [bytes] at htotal
      simp [hbudget, htotal]
  · intro hbudget hover
    rw [bytes] at hover
    have hrun : evictToBudget unlink records budget lowWater =
        evictLoop unlink (lowWaterTarget budget lowWater) (bytes records)
          (KeyedSort.sortBy CacheFileRecord.mtime records) := by
      simp [evictToBudget, bytes, not_le.mpr hbudget, not_le.mpr hover]
    rw [hrun]
    exact evicts_of_loopSpec (KeyedSort.sortBy_perm _ records)
      (KeyedSort.sortBy_pairwise _ records) (evictLoop_spec _ _)

/-! ## The cache root -/

/-- An entry of the cache, or a temporary file that has been left behind. -/
structure Evictable (now : ℚ) (entry : CacheRootEntry) (record : CacheFileRecord) : Prop where
  isFile : entry.isFile = true
  record_eq : fileRecord entry = some record
  suffix : PurePath.suffix entry.path = ".json" ∨
    PurePath.suffix entry.path = ".tmp" ∧ staleTmpSeconds ≤ now - record.mtime

theorem entryRecord_eq_some_iff {now : ℚ} {entry : CacheRootEntry} {record : CacheFileRecord} :
    entryRecord now entry = some record ↔ Evictable now entry record := by
  rw [entryRecord]
  constructor
  · intro h
    split at h
    · cases h
    · next hfile =>
      have hfile : entry.isFile = true := by simpa using hfile
      split at h
      · next hjson => exact ⟨hfile, h, .inl hjson⟩
      · split at h
        · next htmp =>
          obtain ⟨hrecord, hstale⟩ := Option.filter_eq_some_iff.mp h
          exact ⟨hfile, hrecord, .inr ⟨htmp, by simpa using hstale⟩⟩
        · cases h
  · rintro ⟨hfile, hrecord, hjson | ⟨htmp, hstale⟩⟩
    · simp [hfile, hrecord, hjson]
    · simp [hfile, hrecord, htmp, hstale]

theorem mem_cacheFileRecords_iff {now : ℚ} {entries : List CacheRootEntry}
    {record : CacheFileRecord} :
    record ∈ cacheFileRecords now entries ↔ ∃ entry ∈ entries, Evictable now entry record := by
  simp only [cacheFileRecords, List.mem_filterMap, entryRecord_eq_some_iff]

/-- The loop tries the first of the records, each of them once. -/
theorem tried_first (unlink : CacheFileRecord → UnlinkOutcome) (target total : ℤ)
    (records : List CacheFileRecord) :
    (evictLoop unlink target total records).attempts.map Prod.fst <+: records := by
  induction records generalizing total with
  | nil => exact List.nil_prefix
  | cons record rest ih =>
      rw [evictLoop]
      split
      · exact List.nil_prefix
      · refine (List.prefix_cons_inj record).mpr ?_
        cases unlink record with
        | removed => exact ih _
        | fileNotFound => exact ih _
        | osError message => exact ih _

/-- Only what the cache has written is ever tried. -/
theorem evictable_of_mem_attempts {unlink : CacheFileRecord → UnlinkOutcome} {now : ℚ}
    {entries : List CacheRootEntry} {budget : ℤ} {attempt : CacheFileRecord × UnlinkOutcome}
    (h : attempt ∈ (evictCacheRoot unlink now entries budget).attempts) :
    ∃ entry ∈ entries, Evictable now entry attempt.1 := by
  rw [← mem_cacheFileRecords_iff]
  rw [evictCacheRoot, evictToBudget] at h
  split at h
  · cases h
  · split at h
    · cases h
    · have hmem := (tried_first _ _ _ _).subset (List.mem_map_of_mem h)
      exact (KeyedSort.sortBy_perm _ _).subset hmem

end SemanticCi.CodeStateCache
