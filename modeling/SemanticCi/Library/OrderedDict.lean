import Mathlib

/-! Dictionaries that keep insertion order, the two ways to build one from a list of records
(first record of each key, all records of each key), and the keyed difference of two. -/

structure OrderedDict (K V : Type*) where
  entries : List (K × V)
  nodup : (entries.map Prod.fst).Nodup

namespace OrderedDict

variable {K V T : Type*}

def empty : OrderedDict K V := ⟨[], by simp⟩

def keys (d : OrderedDict K V) : List K := d.entries.map Prod.fst

def values (d : OrderedDict K V) : List V := d.entries.map Prod.snd

theorem nodup_keys (d : OrderedDict K V) : d.keys.Nodup := d.nodup

variable [DecidableEq K]

def get? (d : OrderedDict K V) (k : K) : Option V :=
  (d.entries.find? fun p => p.1 = k).map Prod.snd

/-- The value of a present key stays. -/
def setDefault (d : OrderedDict K V) (k : K) (v : V) : OrderedDict K V :=
  if h : k ∈ d.keys then d
  else
    { entries := d.entries ++ [(k, v)]
      nodup := by
        rw [List.map_append, List.nodup_append]
        refine ⟨d.nodup, by simp, ?_⟩
        intro a ha b hb hab
        simp only [List.map_cons, List.map_nil, List.mem_singleton] at hb
        exact h (hb ▸ hab ▸ ha) }

/-- Apply `f` to the value of `k`. -/
def adjust (d : OrderedDict K V) (k : K) (f : V → V) : OrderedDict K V where
  entries := d.entries.map fun p => (p.1, if p.1 = k then f p.2 else p.2)
  nodup := by simpa [List.map_map, Function.comp_def] using d.nodup

/-- `d[k] = v`: a known key keeps its place. -/
def assign (d : OrderedDict K V) (k : K) (v : V) : OrderedDict K V :=
  (d.setDefault k v).adjust k fun _ => v

/-- The dictionary of a list of pairs, where the last pair of a key wins. -/
def ofPairs (pairs : List (K × V)) : OrderedDict K V :=
  pairs.foldl (fun d pair => d.assign pair.1 pair.2) empty

/-- The entries that satisfy a test. -/
def filter (d : OrderedDict K V) (p : K × V → Bool) : OrderedDict K V where
  entries := d.entries.filter p
  nodup := d.nodup.sublist (List.filter_sublist.map _)

/-- The first record of every key. -/
def indexBy (key : T → K) (records : List T) : OrderedDict K T :=
  records.foldl (fun d r => d.setDefault (key r) r) empty

/-- All records of every key. -/
def groupBy (key : T → K) (records : List T) : OrderedDict K (List T) :=
  records.foldl (fun d r => (d.setDefault (key r) []).adjust (key r) (· ++ [r])) empty

/-! ## Lookups -/

@[simp] theorem get?_empty (k : K) : (empty : OrderedDict K V).get? k = none := rfl

theorem get?_isSome_iff (d : OrderedDict K V) (k : K) : (d.get? k).isSome ↔ k ∈ d.keys := by
  simp [get?, keys]

theorem get?_eq_some_of_mem {d : OrderedDict K V} {entry : K × V} (h : entry ∈ d.entries) :
    d.get? entry.1 = some entry.2 := by
  have hsome : (d.get? entry.1).isSome :=
    (get?_isSome_iff d entry.1).mpr (List.mem_map.mpr ⟨entry, h, rfl⟩)
  obtain ⟨v, hv⟩ := Option.isSome_iff_exists.mp hsome
  obtain ⟨found, hfound, rfl⟩ := Option.map_eq_some_iff.mp hv
  have hkey : found.1 = entry.1 := by simpa using List.find?_some hfound
  have hsame : found = entry :=
    List.inj_on_of_nodup_map d.nodup (List.mem_of_find?_eq_some hfound) h hkey
  rw [hv, hsame]

theorem get?_setDefault (d : OrderedDict K V) (k k' : K) (v : V) :
    (d.setDefault k v).get? k' = (d.get? k').or (if k' = k then some v else none) := by
  unfold setDefault
  split
  case isTrue h =>
    by_cases hk : k' = k
    · subst hk
      obtain ⟨w, hw⟩ := Option.isSome_iff_exists.mp ((get?_isSome_iff d k').mpr h)
      simp [hw]
    · simp [hk]
  case isFalse h =>
    by_cases hk : k' = k
    · cases hd : d.entries.find? fun p => p.1 = k <;>
        simp [get?, List.find?_append, hk, hd]
    · have hk' : k ≠ k' := fun hc => hk hc.symm
      simp [get?, List.find?_append, hk, hk']

theorem get?_adjust (d : OrderedDict K V) (k k' : K) (f : V → V) :
    (d.adjust k f).get? k' = (d.get? k').map fun v => if k' = k then f v else v := by
  simp only [get?, adjust, List.find?_map, Option.map_map, Function.comp_def]
  refine Option.map_congr fun p hp => ?_
  have hkey : p.1 = k' := by simpa using List.find?_some hp
  simp [hkey]

theorem get?_assign (d : OrderedDict K V) (k k' : K) (v : V) :
    (d.assign k v).get? k' = if k' = k then some v else d.get? k' := by
  rw [assign, get?_adjust, get?_setDefault]
  by_cases h : k' = k
  · cases d.get? k' <;> simp [h]
  · simp [h]

theorem get?_ofPairs (pairs : List (K × V)) (k : K) :
    (ofPairs pairs).get? k = (pairs.reverse.find? fun pair => pair.1 = k).map Prod.snd := by
  induction pairs using List.reverseRecOn with
  | nil => rfl
  | append_singleton pairs pair ih =>
      have hstep : ofPairs (pairs ++ [pair]) = (ofPairs pairs).assign pair.1 pair.2 := by
        rw [ofPairs, List.foldl_append]
        rfl
      rw [hstep, get?_assign, ih, List.reverse_append, List.reverse_singleton,
        List.singleton_append, List.find?_cons]
      by_cases h : k = pair.1
      · simp [h]
      · simp [h, Ne.symm h]

theorem get?_foldl_setDefault (key : T → K) (records : List T) (d : OrderedDict K T) (k : K) :
    (records.foldl (fun d r => d.setDefault (key r) r) d).get? k =
      (d.get? k).or (records.find? fun r => key r = k) := by
  induction records generalizing d with
  | nil => simp
  | cons r rest ih =>
      rw [List.foldl_cons, ih, get?_setDefault, Option.or_assoc]
      by_cases h : k = key r
      · simp [h]
      · have h' : key r ≠ k := fun hc => h hc.symm
        simp [h, h']

theorem get?_indexBy (key : T → K) (records : List T) (k : K) :
    (indexBy key records).get? k = records.find? fun r => key r = k := by
  simp [indexBy, get?_foldl_setDefault]

theorem get?_foldl_group (key : T → K) (records : List T) (d : OrderedDict K (List T)) (k : K) :
    (records.foldl (fun d r => (d.setDefault (key r) []).adjust (key r) (· ++ [r])) d).get? k =
      if (d.get? k).isNone ∧ (records.filter fun r => key r = k) = [] then none
      else some ((d.get? k).getD [] ++ records.filter fun r => key r = k) := by
  induction records generalizing d with
  | nil => cases h : d.get? k <;> simp [h]
  | cons r rest ih =>
      rw [List.foldl_cons, ih, get?_adjust, get?_setDefault]
      by_cases h : key r = k
      · cases hd : d.get? k <;> simp [h]
      · have h' : k ≠ key r := fun hc => h hc.symm
        cases hd : d.get? k <;> simp [h, h']

theorem get?_groupBy (key : T → K) (records : List T) (k : K) :
    (groupBy key records).get? k =
      if (records.filter fun r => key r = k) = [] then none
      else some (records.filter fun r => key r = k) := by
  simp [groupBy, get?_foldl_group]

theorem mem_keys_setDefault (d : OrderedDict K V) (k k' : K) (v : V) :
    k' ∈ (d.setDefault k v).keys ↔ k' ∈ d.keys ∨ k' = k := by
  rw [← get?_isSome_iff, ← get?_isSome_iff, get?_setDefault]
  split <;> simp_all

theorem mem_keys_assign (d : OrderedDict K V) (k k' : K) (v : V) :
    k' ∈ (d.assign k v).keys ↔ k' ∈ d.keys ∨ k' = k := by
  rw [← mem_keys_setDefault d k k' v, ← get?_isSome_iff, ← get?_isSome_iff, assign, get?_adjust,
    Option.isSome_map]

omit [DecidableEq K] in
/-- A loop whose steps add keys ends with all of them. -/
theorem mem_keys_foldl {step : OrderedDict K V → T → OrderedDict K V} (names : T → List K)
    (hstep : ∀ d t k, k ∈ (step d t).keys ↔ k ∈ d.keys ∨ k ∈ names t) (ts : List T)
    (d : OrderedDict K V) (k : K) :
    k ∈ (ts.foldl step d).keys ↔ k ∈ d.keys ∨ ∃ t ∈ ts, k ∈ names t := by
  induction ts generalizing d with
  | nil => simp
  | cons t ts ih => simp [ih, hstep, or_assoc]

theorem mem_keys_indexBy (key : T → K) (records : List T) (k : K) :
    k ∈ (indexBy key records).keys ↔ ∃ r ∈ records, key r = k := by
  rw [← get?_isSome_iff, get?_indexBy]
  simp

theorem mem_keys_groupBy (key : T → K) (records : List T) (k : K) :
    k ∈ (groupBy key records).keys ↔ ∃ r ∈ records, key r = k := by
  rw [← get?_isSome_iff, get?_groupBy]
  split <;> simp_all

/-- The records of a key make up its group. -/
theorem getD_groupBy (key : T → K) (records : List T) (k : K) :
    ((groupBy key records).get? k).getD [] = records.filter fun r => key r = k := by
  rw [get?_groupBy]
  split
  case isTrue hnil => exact hnil.symm
  case isFalse => rfl

/-- Values that remember their key are only found under it. -/
theorem filter_flatMap_keyed {key : V → K} {f : K → List V} (hf : ∀ k, ∀ v ∈ f k, key v = k)
    {ks : List K} (hks : ks.Nodup) (k : K) :
    ((ks.flatMap f).filter fun v => key v = k) = if k ∈ ks then f k else [] := by
  induction ks with
  | nil => simp
  | cons k' ks ih =>
    have hrest := ih (List.nodup_cons.mp hks).2
    by_cases hk : k' = k
    · subst hk
      have hself : ((f k').filter fun v => key v = k') = f k' :=
        List.filter_eq_self.mpr fun v hv => by simp [hf k' v hv]
      simp [hrest, hself, (List.nodup_cons.mp hks).1]
    · have hother : ((f k').filter fun v => key v = k) = [] :=
        List.filter_eq_nil_iff.mpr fun v hv => by simp [hf k' v hv, hk]
      simp [hrest, hother, Ne.symm hk]

theorem count_flatMap_keyed [BEq V] [LawfulBEq V] {key : V → K} {f : K → List V}
    (hf : ∀ k, ∀ v ∈ f k, key v = k) {ks : List K} (hks : ks.Nodup) (v : V) :
    (ks.flatMap f).count v = if key v ∈ ks then (f (key v)).count v else 0 := by
  have hcount : (ks.flatMap f).count v =
      ((ks.flatMap f).filter fun w => key w = key v).count v := by
    rw [List.count_filter (by simp)]
  rw [hcount, filter_flatMap_keyed hf hks]
  split <;> simp

/-- A lookup names an entry. -/
theorem mem_entries_iff (d : OrderedDict K V) (k : K) (v : V) :
    (k, v) ∈ d.entries ↔ d.get? k = some v := by
  refine ⟨fun h => get?_eq_some_of_mem h, fun h => ?_⟩
  obtain ⟨entry, hfind, rfl⟩ := Option.map_eq_some_iff.mp h
  have hkey : entry.1 = k := by simpa using List.find?_some hfind
  exact hkey ▸ List.mem_of_find?_eq_some hfind

theorem entries_assign_of_notMem {d : OrderedDict K V} {k : K} (h : k ∉ d.keys) (v : V) :
    (d.assign k v).entries = d.entries ++ [(k, v)] := by
  have hold : ∀ entry ∈ d.entries, entry.1 ≠ k := fun entry hentry heq =>
    h (List.mem_map.mpr ⟨entry, hentry, heq⟩)
  have hmap : d.entries.map (fun p => (p.1, if p.1 = k then v else p.2)) = d.entries := by
    conv_rhs => rw [← List.map_id d.entries]
    refine List.map_congr_left fun entry hentry => ?_
    simp [hold entry hentry]
  simp only [assign, adjust, setDefault, h, dite_false, List.map_append, hmap]
  simp

/-- Pairs with distinct keys are the entries of their dictionary. -/
theorem entries_ofPairs {pairs : List (K × V)} (h : (pairs.map Prod.fst).Nodup) :
    (ofPairs pairs).entries = pairs := by
  have hfold : ∀ (rest : List (K × V)) (d : OrderedDict K V),
      (d.keys ++ rest.map Prod.fst).Nodup →
      (rest.foldl (fun d pair => d.assign pair.1 pair.2) d).entries = d.entries ++ rest := by
    intro rest
    induction rest with
    | nil => simp
    | cons pair rest ih =>
      intro d hnodup
      rw [List.map_cons] at hnodup
      have hfresh : pair.1 ∉ d.keys := fun hmem =>
        (List.nodup_append'.mp hnodup).2.2 hmem List.mem_cons_self
      have hentries := entries_assign_of_notMem hfresh pair.2
      rw [List.foldl_cons, ih, hentries, List.append_assoc]
      · rfl
      · rw [keys, hentries, List.map_append, List.append_assoc]
        exact hnodup
  simpa [ofPairs, empty] using hfold pairs empty (by simpa [keys, empty] using h)

theorem get?_filter (d : OrderedDict K V) (p : K × V → Bool) (k : K) :
    (d.filter p).get? k = (d.get? k).filter fun v => p (k, v) := by
  ext v
  rw [← mem_entries_iff, Option.filter_eq_some_iff, ← mem_entries_iff]
  simp [filter]

/-- Groups under distinct keys that cover a list have its length in sum. -/
theorem sum_length_groups (key : T → K) {ks : List K} (hks : ks.Nodup) (records : List T)
    (hcover : ∀ r ∈ records, key r ∈ ks) :
    (ks.map fun k => (records.filter fun r => key r = k).length).sum = records.length := by
  induction ks generalizing records with
  | nil => simp [List.eq_nil_iff_forall_not_mem.mpr fun r hr => List.not_mem_nil (hcover r hr)]
  | cons k ks ih =>
    obtain ⟨hk, hks⟩ := List.nodup_cons.mp hks
    have hrest := ih hks (records.filter fun r => ¬ key r = k) fun r hr => by
      obtain ⟨hmem, hne⟩ := List.mem_filter.mp hr
      exact (List.mem_cons.mp (hcover r hmem)).resolve_left (of_decide_eq_true hne)
    have hgroups : (ks.map fun k' => (records.filter fun r => key r = k').length) =
        ks.map fun k' => ((records.filter fun r => ¬ key r = k).filter fun r =>
          key r = k').length := by
      refine List.map_congr_left fun k' hk' => ?_
      have hne : k' ≠ k := fun h => hk (h ▸ hk')
      rw [List.filter_filter]
      congr 1
      refine List.filter_congr fun r _ => ?_
      by_cases hr : key r = k' <;> simp [hr, hne]
    have hsplit := List.length_eq_length_filter_add (l := records) fun r => decide (key r = k)
    rw [List.map_cons, List.sum_cons, hgroups, hrest, hsplit]
    simp

/-! ## Values -/

/-- Inserting keeps what is there, and adds the record unless its key is known. -/
theorem entries_setDefault (d : OrderedDict K V) (k : K) (v : V) :
    (d.setDefault k v).entries = d.entries ++ if k ∈ d.keys then [] else [(k, v)] := by
  unfold setDefault
  split <;> simp_all

theorem entries_foldl_setDefault (key : T → K) (records : List T) (d : OrderedDict K T) :
    ∃ fresh : List T, fresh.Sublist records ∧
      (records.foldl (fun d r => d.setDefault (key r) r) d).entries =
        d.entries ++ fresh.map fun r => (key r, r) := by
  induction records generalizing d with
  | nil => exact ⟨[], List.Sublist.refl _, by simp⟩
  | cons r rest ih =>
    obtain ⟨fresh, hsub, hentries⟩ := ih (d.setDefault (key r) r)
    rw [List.foldl_cons, hentries, entries_setDefault]
    by_cases hr : key r ∈ d.keys
    · exact ⟨fresh, hsub.cons r, by simp [hr]⟩
    · exact ⟨r :: fresh, hsub.cons_cons r, by simp [hr]⟩

/-- Every value of an index sits under its own key. -/
theorem entries_indexBy (key : T → K) (records : List T) :
    (indexBy key records).entries = (indexBy key records).values.map fun r => (key r, r) := by
  obtain ⟨fresh, -, hentries⟩ := entries_foldl_setDefault key records empty
  have hindex : (indexBy key records).entries = fresh.map fun r => (key r, r) := by
    simpa [indexBy, empty] using hentries
  rw [values, hindex]
  simp

theorem values_indexBy_sublist (key : T → K) (records : List T) :
    (indexBy key records).values.Sublist records := by
  obtain ⟨fresh, hsub, hentries⟩ := entries_foldl_setDefault key records empty
  have hvalues : (indexBy key records).values = fresh := by
    rw [values, indexBy, hentries]
    simp [empty, Function.comp_def]
  rwa [hvalues]

theorem keys_indexBy (key : T → K) (records : List T) :
    (indexBy key records).keys = (indexBy key records).values.map key := by
  rw [keys, entries_indexBy, List.map_map]
  rfl

theorem nodup_values_indexBy (key : T → K) (records : List T) :
    ((indexBy key records).values.map key).Nodup :=
  keys_indexBy key records ▸ nodup_keys _

/-- The values of an index are the first records of their keys. -/
theorem mem_values_indexBy (key : T → K) (records : List T) (r : T) :
    r ∈ (indexBy key records).values ↔ records.find? (fun s => key s = key r) = some r := by
  rw [← get?_indexBy]
  constructor
  · intro hr
    have hentry : (key r, r) ∈ (indexBy key records).entries := by
      rw [entries_indexBy]
      exact List.mem_map.mpr ⟨r, hr, rfl⟩
    exact get?_eq_some_of_mem hentry
  · intro hget
    obtain ⟨entry, hfind, rfl⟩ := Option.map_eq_some_iff.mp hget
    exact List.mem_map.mpr ⟨entry, List.mem_of_find?_eq_some hfind, rfl⟩

/-- Every record has the first record of its key among the values. -/
theorem exists_mem_values_indexBy (key : T → K) {records : List T} {r : T} (h : r ∈ records) :
    ∃ first ∈ (indexBy key records).values, key first = key r := by
  have hkey : key r ∈ (indexBy key records).keys :=
    (mem_keys_indexBy key records (key r)).mpr ⟨r, h, rfl⟩
  rw [keys_indexBy] at hkey
  exact List.mem_map.mp hkey

/-- The first record of every key decides the values, up to their order. -/
theorem values_indexBy_perm (key : T → K) {records records' : List T}
    (h : ∀ k, (records.find? fun r => key r = k) = records'.find? fun r => key r = k) :
    (indexBy key records).values.Perm (indexBy key records').values := by
  rw [List.perm_ext_iff_of_nodup (nodup_values_indexBy key records).of_map
    (nodup_values_indexBy key records').of_map]
  intro r
  rw [mem_values_indexBy, mem_values_indexBy, h]

/-- Records with distinct keys are all kept. -/
theorem values_indexBy_of_nodup (key : T → K) {records : List T} (h : (records.map key).Nodup) :
    (indexBy key records).values = records := by
  refine (values_indexBy_sublist key records).eq_of_length_le ?_
  refine (List.subperm_of_subset (List.Nodup.of_map _ h) fun r hr => ?_).length_le
  rw [mem_values_indexBy]
  cases hfind : records.find? fun s => key s = key r with
  | none => exact absurd (by simp) (List.find?_eq_none.mp hfind r hr)
  | some s =>
    have hkey : key s = key r := by simpa using List.find?_some hfind
    rw [List.inj_on_of_nodup_map h (List.mem_of_find?_eq_some hfind) hr hkey]

theorem get?_indexBy_of_mem (key : T → K) {records : List T} (hnodup : (records.map key).Nodup)
    {r : T} (hr : r ∈ records) : (indexBy key records).get? (key r) = some r := by
  rw [← mem_entries_iff, entries_indexBy, values_indexBy_of_nodup key hnodup]
  exact List.mem_map.mpr ⟨r, hr, rfl⟩

/-- With distinct keys the order of the records does not matter to a lookup. -/
theorem get?_indexBy_of_perm (key : T → K) {records records' : List T}
    (hnodup : (records.map key).Nodup) (h : records'.Perm records) (k : K) :
    (indexBy key records').get? k = (indexBy key records).get? k := by
  have hvalues := values_indexBy_of_nodup key hnodup
  have hvalues' := values_indexBy_of_nodup key ((h.map key).nodup_iff.mpr hnodup)
  ext r
  rw [← mem_entries_iff, ← mem_entries_iff, entries_indexBy, entries_indexBy, hvalues, hvalues',
    (h.map _).mem_iff]

theorem mem_keys_congr {d d' : OrderedDict K V} (h : ∀ k, d.get? k = d'.get? k) (k : K) :
    k ∈ d.keys ↔ k ∈ d'.keys := by
  rw [← get?_isSome_iff, ← get?_isSome_iff, h]

theorem values_eq_filterMap_keys (d : OrderedDict K V) : d.values = d.keys.filterMap d.get? := by
  rw [values, keys, List.filterMap_map, ← List.filterMap_eq_map]
  exact List.filterMap_congr fun entry hentry => (get?_eq_some_of_mem hentry).symm

/-- The groups in the order of their keys. -/
theorem values_groupBy (key : T → K) (records : List T) :
    (groupBy key records).values =
      (groupBy key records).keys.map fun k => records.filter fun r => key r = k := by
  rw [values, keys, List.map_map]
  refine List.map_congr_left fun entry hentry => ?_
  simp [← getD_groupBy, get?_eq_some_of_mem hentry]

/-! ## Keyed difference -/

variable [LE K] [DecidableLE K]

/-- The keys of `d` that `other` lacks, sorted. -/
def sortedMissingKeys {W : Type*} (d : OrderedDict K V) (other : OrderedDict K W) : List K :=
  (d.keys.filter fun k => k ∉ other.keys).insertionSort (· ≤ ·)

/-- The keys of both dictionaries, sorted. -/
def sortedCommonKeys {W : Type*} (d : OrderedDict K V) (other : OrderedDict K W) : List K :=
  (d.keys.filter fun k => k ∈ other.keys).insertionSort (· ≤ ·)

@[simp] theorem mem_sortedMissingKeys {W : Type*} (d : OrderedDict K V) (other : OrderedDict K W)
    (k : K) : k ∈ sortedMissingKeys d other ↔ k ∈ d.keys ∧ k ∉ other.keys := by
  simp [sortedMissingKeys, List.mem_insertionSort]

@[simp] theorem mem_sortedCommonKeys {W : Type*} (d : OrderedDict K V) (other : OrderedDict K W)
    (k : K) : k ∈ sortedCommonKeys d other ↔ k ∈ d.keys ∧ k ∈ other.keys := by
  simp [sortedCommonKeys, List.mem_insertionSort]

/-- Sorting forgets on which side the common keys were collected. -/
theorem sortedCommonKeys_comm {W : Type*} [Std.Total fun a b : K => a ≤ b]
    [IsTrans K fun a b => a ≤ b] [Std.Antisymm fun a b : K => a ≤ b] (d : OrderedDict K V)
    (other : OrderedDict K W) : sortedCommonKeys d other = sortedCommonKeys other d := by
  have hperm : (d.keys.filter fun k => k ∈ other.keys).Perm
      (other.keys.filter fun k => k ∈ d.keys) := by
    rw [List.perm_ext_iff_of_nodup (d.nodup_keys.filter _) (other.nodup_keys.filter _)]
    simp [and_comm]
  refine List.Perm.eq_of_pairwise' (r := fun a b => a ≤ b)
    (List.pairwise_insertionSort _ _) (List.pairwise_insertionSort _ _) ?_
  exact (List.perm_insertionSort _ _).trans (hperm.trans (List.perm_insertionSort _ _).symm)

/-- Every key of `d` is missing on the other side or common. -/
theorem length_missing_add_common {W : Type*} (d : OrderedDict K V) (other : OrderedDict K W) :
    (sortedMissingKeys d other).length + (sortedCommonKeys d other).length = d.keys.length := by
  have hsplit := List.length_eq_length_filter_add (l := d.keys) fun k => decide (k ∈ other.keys)
  rw [sortedMissingKeys, sortedCommonKeys, List.length_insertionSort, List.length_insertionSort,
    hsplit]
  simp [Nat.add_comm]

theorem nodup_sortedMissingKeys {W : Type*} (d : OrderedDict K V) (other : OrderedDict K W) :
    (sortedMissingKeys d other).Nodup :=
  (List.perm_insertionSort _ _).nodup_iff.mpr (d.nodup_keys.filter _)

theorem nodup_sortedCommonKeys {W : Type*} (d : OrderedDict K V) (other : OrderedDict K W) :
    (sortedCommonKeys d other).Nodup :=
  (List.perm_insertionSort _ _).nodup_iff.mpr (d.nodup_keys.filter _)

/-- The values in key order. -/
def sortedValues (d : OrderedDict K V) : List V :=
  (d.keys.insertionSort (· ≤ ·)).filterMap d.get?

/-- The values under the keys that `other` lacks, in key order. -/
def missingValues {W : Type*} (d : OrderedDict K V) (other : OrderedDict K W) : List V :=
  (sortedMissingKeys d other).filterMap d.get?

theorem mem_missingValues_indexBy {W : Type*} (key : T → K) (records : List T)
    (other : OrderedDict K W) (r : T) :
    r ∈ missingValues (indexBy key records) other ↔
      key r ∉ other.keys ∧ records.find? (fun s => key s = key r) = some r := by
  simp only [missingValues, List.mem_filterMap, mem_sortedMissingKeys, mem_keys_indexBy,
    get?_indexBy]
  constructor
  · rintro ⟨k, ⟨-, hk⟩, hfind⟩
    obtain rfl : key r = k := by simpa using List.find?_some hfind
    exact ⟨hk, hfind⟩
  · rintro ⟨hk, hfind⟩
    exact ⟨key r, ⟨⟨r, List.mem_of_find?_eq_some hfind, rfl⟩, hk⟩, hfind⟩

/-- Every value is missing from an empty dictionary. -/
theorem sortedValues_eq_missingValues {W : Type*} (d : OrderedDict K V) {other : OrderedDict K W}
    (h : other.keys = []) : d.sortedValues = missingValues d other := by
  simp [sortedValues, missingValues, sortedMissingKeys, h]

/-- The missing values sit under the missing keys. -/
theorem map_key_missingValues {W : Type*} (key : T → K) (records : List T)
    (other : OrderedDict K W) :
    (missingValues (indexBy key records) other).map key =
      sortedMissingKeys (indexBy key records) other := by
  have hkeys : ∀ k ∈ sortedMissingKeys (indexBy key records) other,
      ((indexBy key records).get? k).map key = some k := by
    intro k hk
    have hpresent := ((mem_sortedMissingKeys _ _ k).mp hk).1
    rw [← get?_isSome_iff, get?_indexBy] at hpresent
    obtain ⟨r, hr⟩ := Option.isSome_iff_exists.mp hpresent
    have hkey : key r = k := by simpa using List.find?_some hr
    simp [get?_indexBy, hr, hkey]
  rw [missingValues, List.map_filterMap]
  conv_rhs => rw [← List.filterMap_some (l := sortedMissingKeys (indexBy key records) other)]
  exact List.filterMap_congr hkeys

/-- The values lie under the keys that the other side lacks and under the common ones. -/
theorem values_perm {W : Type*} (d : OrderedDict K V) (other : OrderedDict K W) :
    d.values.Perm (missingValues d other ++ (sortedCommonKeys d other).filterMap d.get?) := by
  have hsplit : (sortedMissingKeys d other ++ sortedCommonKeys d other).Perm d.keys := by
    refine ((List.perm_insertionSort _ _).append (List.perm_insertionSort _ _)).trans ?_
    refine List.perm_append_comm.trans ?_
    simpa using List.filter_append_perm (fun k => decide (k ∈ other.keys)) d.keys
  rw [values_eq_filterMap_keys, missingValues, ← List.filterMap_append]
  exact (hsplit.filterMap d.get?).symm

section Congruence

variable {V' W W' : Type*} [Std.Total fun a b : K => a ≤ b] [IsTrans K fun a b => a ≤ b]
  [Std.Antisymm fun a b : K => a ≤ b] {other : OrderedDict K W} {other' : OrderedDict K W'}

theorem sortedMissingKeys_of_keys {d : OrderedDict K V} {d' : OrderedDict K V'}
    (hd : ∀ k, k ∈ d.keys ↔ k ∈ d'.keys) (hother : ∀ k, k ∈ other.keys ↔ k ∈ other'.keys) :
    sortedMissingKeys d other = sortedMissingKeys d' other' := by
  refine List.Perm.eq_of_pairwise' (r := fun a b => a ≤ b)
    (List.pairwise_insertionSort _ _) (List.pairwise_insertionSort _ _) ?_
  rw [List.perm_ext_iff_of_nodup (nodup_sortedMissingKeys _ _) (nodup_sortedMissingKeys _ _)]
  intro k
  rw [mem_sortedMissingKeys, mem_sortedMissingKeys, hd, hother]

theorem sortedCommonKeys_of_keys {d : OrderedDict K V} {d' : OrderedDict K V'}
    (hd : ∀ k, k ∈ d.keys ↔ k ∈ d'.keys) (hother : ∀ k, k ∈ other.keys ↔ k ∈ other'.keys) :
    sortedCommonKeys d other = sortedCommonKeys d' other' := by
  refine List.Perm.eq_of_pairwise' (r := fun a b => a ≤ b)
    (List.pairwise_insertionSort _ _) (List.pairwise_insertionSort _ _) ?_
  rw [List.perm_ext_iff_of_nodup (nodup_sortedCommonKeys _ _) (nodup_sortedCommonKeys _ _)]
  intro k
  rw [mem_sortedCommonKeys, mem_sortedCommonKeys, hd, hother]

end Congruence

/-- The values missing on the other side only depend on the two lookup functions. -/
theorem missingValues_congr {W : Type*} [Std.Total fun a b : K => a ≤ b]
    [IsTrans K fun a b => a ≤ b] [Std.Antisymm fun a b : K => a ≤ b] {d d' : OrderedDict K V}
    {other other' : OrderedDict K W} (hd : ∀ k, d.get? k = d'.get? k)
    (hother : ∀ k, other.get? k = other'.get? k) :
    missingValues d other = missingValues d' other' := by
  rw [missingValues, missingValues, funext hd,
    sortedMissingKeys_of_keys (mem_keys_congr hd) (mem_keys_congr hother)]

theorem sortedCommonKeys_congr {W : Type*} [Std.Total fun a b : K => a ≤ b]
    [IsTrans K fun a b => a ≤ b] [Std.Antisymm fun a b : K => a ≤ b] {d d' : OrderedDict K V}
    {other other' : OrderedDict K W} (hd : ∀ k, d.get? k = d'.get? k)
    (hother : ∀ k, other.get? k = other'.get? k) :
    sortedCommonKeys d other = sortedCommonKeys d' other' :=
  sortedCommonKeys_of_keys (mem_keys_congr hd) (mem_keys_congr hother)

theorem mem_sortedValues_indexBy (key : T → K) (records : List T) (r : T) :
    r ∈ (indexBy key records).sortedValues ↔
      records.find? (fun s => key s = key r) = some r := by
  simp only [sortedValues, List.mem_filterMap, List.mem_insertionSort, mem_keys_indexBy,
    get?_indexBy]
  constructor
  · rintro ⟨k, -, hfind⟩
    obtain rfl : key r = k := by simpa using List.find?_some hfind
    exact hfind
  · intro hfind
    exact ⟨key r, ⟨r, List.mem_of_find?_eq_some hfind, rfl⟩, hfind⟩

/-- The sorted values of an index are found again under their keys. -/
theorem get?_indexBy_sortedValues (key : T → K) (records : List T) (k : K) :
    (indexBy key (indexBy key records).sortedValues).get? k = (indexBy key records).get? k := by
  have hmem := mem_sortedValues_indexBy key records
  rw [get?_indexBy, get?_indexBy]
  cases hfind : records.find? fun r => key r = k with
  | none =>
    rw [List.find?_eq_none] at hfind ⊢
    intro r hr
    exact hfind r (List.mem_of_find?_eq_some ((hmem r).mp hr))
  | some r =>
    have hkey : key r = k := by simpa using List.find?_some hfind
    subst hkey
    have hr : r ∈ (indexBy key records).sortedValues := (hmem r).mpr hfind
    cases hfound : (indexBy key records).sortedValues.find? fun s => key s = key r with
    | none => exact absurd (by simp) (List.find?_eq_none.mp hfound r hr)
    | some s =>
      have hs := (hmem s).mp (List.mem_of_find?_eq_some hfound)
      have hkey : key s = key r := by simpa using List.find?_some hfound
      rw [hkey, hfind] at hs
      exact hs.symm

/-- Every record whose key is missing on the other side is represented among the missing
values by the first record of its key. -/
theorem missingValues_indexBy_eq_nil_iff (key : T → K) (records others : List T) :
    missingValues (indexBy key records) (indexBy key others) = [] ↔
      ∀ r ∈ records, ∃ s ∈ others, key s = key r := by
  rw [List.eq_nil_iff_forall_not_mem]
  constructor
  · intro h r hr
    by_contra hmiss
    obtain ⟨s, hs⟩ : ∃ s, records.find? (fun s => key s = key r) = some s := by
      rw [← Option.isSome_iff_exists, List.find?_isSome]
      exact ⟨r, hr, by simp⟩
    have hkey : key s = key r := by simpa using List.find?_some hs
    refine h s ((mem_missingValues_indexBy key records _ s).mpr ⟨?_, by rw [hkey]; exact hs⟩)
    rw [mem_keys_indexBy, hkey]
    exact hmiss
  · intro h r hr
    obtain ⟨hk, hfind⟩ := (mem_missingValues_indexBy key records _ r).mp hr
    exact hk ((mem_keys_indexBy key others _).mpr (h r (List.mem_of_find?_eq_some hfind)))

/-- The missing groups are the groups of the keys that the other side lacks. -/
theorem mem_missingValues_groupBy {W : Type*} (key : T → K) (records : List T)
    (other : OrderedDict K W) (group : List T) :
    group ∈ missingValues (groupBy key records) other ↔
      ∃ r ∈ records, key r ∉ other.keys ∧ group = records.filter fun s => key s = key r := by
  simp only [missingValues, List.mem_filterMap, mem_sortedMissingKeys, mem_keys_groupBy,
    get?_groupBy]
  constructor
  · rintro ⟨k, ⟨⟨r, hr, rfl⟩, hk⟩, hgroup⟩
    split at hgroup
    · cases hgroup
    · exact ⟨r, hr, hk, (Option.some.inj hgroup).symm⟩
  · rintro ⟨r, hr, hk, rfl⟩
    refine ⟨key r, ⟨⟨r, hr, rfl⟩, hk⟩, if_neg ?_⟩
    intro hnil
    have hmem : r ∈ records.filter fun s => key s = key r := by simp [hr]
    rw [hnil] at hmem
    cases hmem

theorem flatMap_missingValues_groupBy {W X : Type*} (key : T → K) (records : List T)
    (other : OrderedDict K W) (f : List T → List X) (hf : f [] = []) :
    (missingValues (groupBy key records) other).flatMap f =
      (sortedMissingKeys (groupBy key records) other).flatMap fun k =>
        f (records.filter fun r => key r = k) := by
  rw [missingValues]
  induction sortedMissingKeys (groupBy key records) other with
  | nil => rfl
  | cons k ks ih =>
    rw [List.flatMap_cons, ← ih, ← getD_groupBy]
    cases hget : (groupBy key records).get? k with
    | none => simp [hget, hf]
    | some group => simp [hget]

end OrderedDict

/-! ## Sorted differences of sets given by lists -/

/-- `sorted(set(xs) - set(ys))`. -/
def sortedDifference {α : Type*} [DecidableEq α] [LE α] [DecidableLE α] (xs ys : List α) : List α :=
  (xs.dedup.filter fun x => x ∉ ys).insertionSort (· ≤ ·)

@[simp] theorem mem_sortedDifference {α : Type*} [DecidableEq α] [LE α] [DecidableLE α] (xs ys : List α) (x : α) :
    x ∈ sortedDifference xs ys ↔ x ∈ xs ∧ x ∉ ys := by
  simp [sortedDifference, List.mem_insertionSort]

theorem sortedDifference_eq_nil_iff {α : Type*} [DecidableEq α] [LE α] [DecidableLE α] (xs ys : List α) :
    sortedDifference xs ys = [] ↔ ∀ x ∈ xs, x ∈ ys := by
  rw [List.eq_nil_iff_forall_not_mem]
  simp

theorem sortedDifference_congr {α : Type*} [DecidableEq α] [LE α] [DecidableLE α]
    [Std.Total fun a b : α => a ≤ b] [IsTrans α fun a b => a ≤ b]
    [Std.Antisymm fun a b : α => a ≤ b] {xs xs' ys ys' : List α} (hxs : ∀ a, a ∈ xs ↔ a ∈ xs')
    (hys : ∀ a, a ∈ ys ↔ a ∈ ys') : sortedDifference xs ys = sortedDifference xs' ys' := by
  have hnodup (xs ys : List α) : (sortedDifference xs ys).Nodup :=
    (List.perm_insertionSort _ _).nodup_iff.mpr ((List.nodup_dedup xs).filter _)
  refine List.Perm.eq_of_pairwise' (r := fun a b => a ≤ b)
    (List.pairwise_insertionSort _ _) (List.pairwise_insertionSort _ _) ?_
  rw [List.perm_ext_iff_of_nodup (hnodup xs ys) (hnodup xs' ys')]
  intro a
  rw [mem_sortedDifference, mem_sortedDifference, hxs, hys]
