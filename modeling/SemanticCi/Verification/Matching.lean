import SemanticCi.Verification.Canonical

/-! Item matching as a relation on normal forms: between two values that read as mappings it
is the inclusion of the partial functions they denote, otherwise it is equality. -/

namespace SemanticCi.Matching

open SemanticCi.Python SemanticCi.Operators

def normPair? : Norm → Option (Norm × Norm)
  | .tuple [k, v] => some (k, v)
  | _ => none

/-- The pairs of a value that reads as a mapping. -/
def normPairs? : Norm → Option (List (Norm × Norm))
  | .tuple (item :: rest) => (item :: rest).mapM normPair?
  | _ => none

/-- What `dict(pairs).get(key)` returns: the last pair with the key wins. -/
def lastValue (pairs : List (Norm × Norm)) (key : Norm) : Option Norm :=
  (pairs.reverse.find? fun p => p.1 = key).map Prod.snd

abbrev fromKey : Norm := .scalar (.str "from")

abbrev fromUnderscoreKey : Norm := .scalar (.str "from_")

/-- The value under a key, with `from_` also visible as `from`. -/
def entryValue (pairs : List (Norm × Norm)) (key : Norm) : Option Norm :=
  (lastValue pairs key).or (if key = fromKey then lastValue pairs fromUnderscoreKey else none)

theorem mem_of_entryValue {pairs : List (Norm × Norm)} {key value : Norm}
    (h : entryValue pairs key = some value) : (∃ p ∈ pairs, p.1 = key) ∨ key = fromKey := by
  by_cases hfrom : key = fromKey
  · exact .inr hfrom
  · simp only [entryValue, hfrom, if_false, Option.or_none, lastValue,
      Option.map_eq_some_iff] at h
    obtain ⟨p, hp, -⟩ := h
    exact .inl ⟨p, by simpa using List.mem_of_find?_eq_some hp, by simpa using List.find?_some hp⟩

/-- The relation that item matching decides. -/
def Matches (expected observed : Norm) : Prop :=
  match normPairs? expected, normPairs? observed with
  | some es, some os => ∀ key value, entryValue es key = some value →
      entryValue os key = some value
  | _, _ => expected = observed

theorem Matches.refl (n : Norm) : Matches n n := by
  unfold Matches
  split
  · rename_i es os hes hos
    obtain rfl : es = os := by simpa using hes.symm.trans hos
    exact fun _ _ h => h
  · rfl

/-! ## Pairs -/

def normOfPair (p : PyValue × PyValue) : Norm × Norm := (p.1.norm, p.2.norm)

theorem normPair?_norm {v : PyValue} (hv : DictFree v) :
    normPair? v.norm = (pair? v).map normOfPair := by
  match v, hv with
  | .scalar s, _ => rfl
  | .set items, _ => rfl
  | .seq kind [], _ => rfl
  | .seq kind [a], _ => rfl
  | .seq kind [a, b], _ => rfl
  | .seq kind (a :: b :: c :: rest), _ => rfl

theorem mapM_normPair?_norm {items : List PyValue} (hitems : ∀ x ∈ items, DictFree x) :
    (items.map PyValue.norm).mapM normPair? = (items.mapM pair?).map (List.map normOfPair) := by
  induction items with
  | nil => rfl
  | cons x xs ih =>
      have hx := normPair?_norm (hitems x (by simp))
      have hxs := ih fun y hy => hitems y (by simp [hy])
      rw [List.map_cons, List.mapM_cons, List.mapM_cons, hx, hxs]
      cases pair? x <;> cases xs.mapM pair? <;> rfl

/-! ## The dictionary of a list of pairs -/

/-- One turn of `dict(pairs)`. -/
def dictStep (acc : List (PyValue × PyValue)) (p : PyValue × PyValue) :
    List (PyValue × PyValue) :=
  if acc.any fun q => q.1.eq p.1 then acc.map fun q => if q.1.eq p.1 then (q.1, p.2) else q
  else acc ++ [p]

theorem dictOfPairs_eq_foldl (pairs : List (PyValue × PyValue)) :
    dictOfPairs pairs = pairs.foldl dictStep [] := rfl

/-- No two keys are equal. -/
def DistinctKeys (mapping : List (PyValue × PyValue)) : Prop :=
  (mapping.map fun p => p.1.norm).Nodup

theorem lookup_eq_none_iff (mapping : List (PyValue × PyValue)) (key : PyValue) :
    lookup mapping key = none ↔ ∀ p ∈ mapping, p.1.norm ≠ key.norm := by
  simp [lookup]

theorem lookup_append (front back : List (PyValue × PyValue)) (key : PyValue) :
    lookup (front ++ back) key = (lookup front key).or (lookup back key) := by
  cases h : front.find? (fun p => p.1.eq key) <;>
    simp [lookup, List.find?_append, h]

theorem lookup_singleton (p : PyValue × PyValue) (key : PyValue) :
    lookup [p] key = if p.1.norm = key.norm then some p.2 else none := by
  by_cases h : p.1.norm = key.norm <;> simp [lookup, h]

/-- With distinct keys the value of a listed pair is the one looked up. -/
theorem lookup_of_mem {mapping : List (PyValue × PyValue)} (hdistinct : DistinctKeys mapping)
    {p : PyValue × PyValue} (hp : p ∈ mapping) {key : PyValue} (hkey : p.1.norm = key.norm) :
    lookup mapping key = some p.2 := by
  induction mapping with
  | nil => cases hp
  | cons q rest ih =>
      have hrest : DistinctKeys rest := (List.nodup_cons.mp hdistinct).2
      have hq : q.1.norm ∉ rest.map fun p => p.1.norm := (List.nodup_cons.mp hdistinct).1
      rcases List.mem_cons.mp hp with rfl | hp
      · simp [lookup, hkey]
      · have hne : q.1.norm ≠ key.norm := by
          intro h
          exact hq (List.mem_map.mpr ⟨p, hp, hkey.trans h.symm⟩)
        have := ih hrest hp
        simpa [lookup, hne] using this

theorem exists_mem_of_lookup {mapping : List (PyValue × PyValue)} {key value : PyValue}
    (h : lookup mapping key = some value) :
    ∃ p ∈ mapping, p.1.norm = key.norm ∧ p.2 = value := by
  simp only [lookup, Option.map_eq_some_iff] at h
  obtain ⟨p, hp, rfl⟩ := h
  exact ⟨p, List.mem_of_find?_eq_some hp, by simpa using List.find?_some hp, rfl⟩

theorem lookup_dictStep (acc : List (PyValue × PyValue)) (p : PyValue × PyValue)
    (key : PyValue) :
    lookup (dictStep acc p) key =
      if p.1.norm = key.norm then some p.2 else lookup acc key := by
  unfold dictStep
  split
  case isTrue hany =>
    have hmap : lookup (acc.map fun q => if q.1.eq p.1 then (q.1, p.2) else q) key =
        if p.1.norm = key.norm then (lookup acc key).map fun _ => p.2 else lookup acc key := by
      clear hany
      induction acc with
      | nil => simp [lookup]
      | cons q rest ih =>
          by_cases hqk : q.1.norm = key.norm
          · by_cases hpk : p.1.norm = key.norm
            · have hqp : q.1.norm = p.1.norm := hqk.trans hpk.symm
              simp [lookup, hqp, hpk]
            · have hqp : q.1.norm ≠ p.1.norm := fun h => hpk (h.symm.trans hqk)
              have hkp : key.norm ≠ p.1.norm := fun h => hpk h.symm
              simp [lookup, hqk, hpk, hkp]
          · have hhead (v : PyValue) : lookup ((q.1, v) :: rest.map fun q =>
                if q.1.eq p.1 then (q.1, p.2) else q) key =
                lookup (rest.map fun q => if q.1.eq p.1 then (q.1, p.2) else q) key := by
              simp [lookup, hqk]
            have htail : lookup (q :: rest) key = lookup rest key := by simp [lookup, hqk]
            rw [List.map_cons, htail, ← ih]
            by_cases hqp : q.1.norm = p.1.norm
            · simpa [hqp] using hhead p.2
            · simpa [hqp] using hhead q.2
    rw [hmap]
    by_cases hpk : p.1.norm = key.norm
    · obtain ⟨q, hq, hqp⟩ := List.any_eq_true.mp hany
      have hsome : lookup acc key ≠ none := by
        rw [Ne, lookup_eq_none_iff]
        exact fun h => h q hq (((PyValue.eq_iff _ _).mp hqp).trans hpk)
      obtain ⟨value, hvalue⟩ := Option.ne_none_iff_exists'.mp hsome
      simp [hpk, hvalue]
    · simp [hpk]
  case isFalse hany =>
    rw [lookup_append, lookup_singleton]
    by_cases hpk : p.1.norm = key.norm
    · have hnone : lookup acc key = none := by
        rw [lookup_eq_none_iff]
        intro q hq hqk
        exact hany (List.any_eq_true.mpr ⟨q, hq, by simpa using hqk.trans hpk.symm⟩)
      simp [hpk, hnone]
    · simp [hpk]

theorem distinctKeys_dictStep {acc : List (PyValue × PyValue)} (hacc : DistinctKeys acc)
    (p : PyValue × PyValue) : DistinctKeys (dictStep acc p) := by
  unfold dictStep
  split
  case isTrue hany =>
    have hkeys : (acc.map fun q => if q.1.eq p.1 then (q.1, p.2) else q).map
        (fun q => q.1.norm) = acc.map fun q => q.1.norm := by
      rw [List.map_map]
      refine List.map_congr_left fun q _ => ?_
      by_cases hqp : q.1.norm = p.1.norm <;> simp [hqp]
    rw [DistinctKeys, hkeys]
    exact hacc
  case isFalse hany =>
    rw [DistinctKeys, List.map_append, List.nodup_append]
    refine ⟨hacc, by simp, ?_⟩
    intro a ha b hb hab
    obtain ⟨q, hq, rfl⟩ := List.mem_map.mp ha
    obtain rfl : b = p.1.norm := by simpa using hb
    exact hany (List.any_eq_true.mpr ⟨q, hq, by simpa using hab⟩)

theorem distinctKeys_dictOfPairs (pairs : List (PyValue × PyValue)) :
    DistinctKeys (dictOfPairs pairs) := by
  have h (acc : List (PyValue × PyValue)) (hacc : DistinctKeys acc) :
      DistinctKeys (pairs.foldl dictStep acc) := by
    induction pairs generalizing acc with
    | nil => exact hacc
    | cons p rest ih => exact ih _ (distinctKeys_dictStep hacc p)
  exact h [] List.nodup_nil

theorem lookup_dictOfPairs (pairs : List (PyValue × PyValue)) (key : PyValue) :
    (lookup (dictOfPairs pairs) key).map PyValue.norm =
      lastValue (pairs.map normOfPair) key.norm := by
  rw [dictOfPairs_eq_foldl]
  induction pairs using List.reverseRecOn with
  | nil => rfl
  | append_singleton front p ih =>
      rw [List.foldl_append, List.foldl_cons, List.foldl_nil, lookup_dictStep]
      by_cases hpk : p.1.norm = key.norm
      · simp [lastValue, normOfPair, hpk]
      · simpa [lastValue, normOfPair, hpk] using ih

theorem distinctKeys_normalizedMapping {mapping : List (PyValue × PyValue)}
    (hmapping : DistinctKeys mapping) : DistinctKeys (normalizedMapping mapping) := by
  unfold normalizedMapping
  split
  case h_1 value hfrom_ hfrom =>
    rw [DistinctKeys, List.map_append, List.nodup_append]
    refine ⟨hmapping, by simp, ?_⟩
    intro a ha b hb hab
    obtain ⟨q, hq, rfl⟩ := List.mem_map.mp ha
    obtain rfl : b = (PyValue.str "from").norm := by simpa using hb
    exact (lookup_eq_none_iff _ _).mp hfrom q hq hab
  case h_2 => exact hmapping

theorem lookup_normalizedMapping (mapping : List (PyValue × PyValue)) (key : PyValue) :
    lookup (normalizedMapping mapping) key = (lookup mapping key).or
      (if key.norm = fromKey then lookup mapping (.str "from_") else none) := by
  have hcongr (key' : PyValue) (h : key.norm = key'.norm) :
      lookup mapping key = lookup mapping key' := by
    simp [lookup, PyValue.eq, h]
  unfold normalizedMapping
  split
  case h_1 value hfrom_ hfrom =>
    rw [lookup_append, lookup_singleton, hfrom_]
    by_cases hkey : key.norm = fromKey
    · simp [hkey, PyScalar.norm]
    · have hkey' : fromKey ≠ key.norm := fun h => hkey h.symm
      simp [hkey, hkey', PyScalar.norm]
  case h_2 hcases =>
    by_cases hkey : key.norm = fromKey
    · cases hfrom_ : lookup mapping (.str "from_") with
      | none => simp
      | some value =>
          cases hfrom : lookup mapping (.str "from") with
          | none => exact absurd hfrom (hcases value hfrom_)
          | some other => simp [hcongr (.str "from") hkey, hfrom]
    · simp [hkey]

/-- The mapping that a value is read as denotes the partial function of its pairs. -/
theorem lookup_mappingView (pairs : List (PyValue × PyValue)) (key : PyValue) :
    (lookup (normalizedMapping (dictOfPairs pairs)) key).map PyValue.norm =
      entryValue (pairs.map normOfPair) key.norm := by
  have hfrom_ := lookup_dictOfPairs pairs (.str "from_")
  have hkey := lookup_dictOfPairs pairs key
  rw [lookup_normalizedMapping, entryValue, ← hkey]
  by_cases h : key.norm = fromKey
  · simp only [h, if_true]
    have hnorm : (PyValue.str "from_").norm = fromUnderscoreKey := rfl
    rw [hnorm] at hfrom_
    rw [← hfrom_]
    cases lookup (dictOfPairs pairs) key <;> rfl
  · simp [h]

/-! ## The relation -/

theorem normPairs?_norm {v : PyValue} (hv : DictFree v) :
    normPairs? v.norm = none ∧ mappingView v = none ∨
      ∃ pairs, normPairs? v.norm = some (pairs.map normOfPair) ∧
        mappingView v = some (normalizedMapping (dictOfPairs pairs)) := by
  match v, hv with
  | .scalar s, _ => exact .inl ⟨rfl, rfl⟩
  | .set items, _ => exact .inl ⟨rfl, rfl⟩
  | .seq kind [], _ => exact .inl ⟨rfl, rfl⟩
  | .seq kind (item :: rest), hv =>
      have hpairs := mapM_normPair?_norm ((dictFree_seq kind _).mp hv)
      rw [norm_seq]
      cases hmap : (item :: rest).mapM pair? with
      | none =>
          rw [hmap] at hpairs
          exact .inl ⟨hpairs, by simp only [mappingView, hmap, Option.map_none]⟩
      | some pairs =>
          rw [hmap] at hpairs
          exact .inr ⟨pairs, hpairs, by simp only [mappingView, hmap, Option.map_some]⟩

theorem matchItem_iff {e o : PyValue} (he : DictFree e) (ho : DictFree o) :
    matchItem e o = true ↔ Matches e.norm o.norm := by
  unfold matchItem Matches
  rcases normPairs?_norm he with ⟨hen, hev⟩ | ⟨es, hen, hev⟩
  · simp [hen, hev]
  · rcases normPairs?_norm ho with ⟨hon, hov⟩ | ⟨os, hon, hov⟩
    · simp [hen, hev, hon, hov]
    · rw [hen, hev, hon, hov]
      simp only [List.all_eq_true]
      have hdistinct := distinctKeys_normalizedMapping (distinctKeys_dictOfPairs es)
      constructor
      · intro hall key value hvalue
        obtain ⟨k, rfl⟩ : ∃ k : PyValue, k.norm = key := by
          rcases mem_of_entryValue hvalue with ⟨p, hp, rfl⟩ | rfl
          · obtain ⟨q, -, rfl⟩ := List.mem_map.mp hp
            exact ⟨q.1, rfl⟩
          · exact ⟨.str "from", rfl⟩
        rw [← lookup_mappingView] at hvalue
        obtain ⟨w, hw, rfl⟩ := Option.map_eq_some_iff.mp hvalue
        obtain ⟨p, hp, hpk, rfl⟩ := exists_mem_of_lookup hw
        have hp' := hall p hp
        rw [← hpk, ← lookup_mappingView]
        cases hlook : lookup (normalizedMapping (dictOfPairs os)) p.1 with
        | none => simp [hlook] at hp'
        | some other =>
            rw [hlook] at hp'
            simpa using hp'
      · intro hincl p hp
        have hself : entryValue (es.map normOfPair) p.1.norm = some p.2.norm := by
          rw [← lookup_mappingView, lookup_of_mem hdistinct hp rfl]
          rfl
        have hother := hincl _ _ hself
        rw [← lookup_mappingView] at hother
        obtain ⟨w, hw, hnorm⟩ := Option.map_eq_some_iff.mp hother
        simp [hw, hnorm]

end SemanticCi.Matching
