import SemanticCi.Model.DependencySources
import SemanticCi.Library.ExceptRules

/-! What a lock file says of its packages: active markers, listed dependencies and extras. -/

namespace SemanticCi.Dependencies

open SemanticCi.Python Markers OrderedDict ExceptRules

variable (platform : Platform)

/-! ## Markers -/

/-- All markers hold, and one of the resolution markers if there are any. -/
def MarkerActive (item : TomlTable) : Prop :=
  (∀ marker ∈ markerValuesForKeys item ["marker", "markers"],
      evaluateMarker platform marker = some true) ∧
    (markerValuesForKeys item ["resolution-markers"] = [] ∨
      ∃ marker ∈ markerValuesForKeys item ["resolution-markers"],
        evaluateMarker platform marker = some true)

section Markers

variable {platform} {sourceName packageName : String} {value : Bool}

theorem firstMarker_false_eq_ok {markers : List String}
    (h : firstMarker platform false sourceName packageName markers = .ok value) :
    value = true ↔ ∀ marker ∈ markers, evaluateMarker platform marker = some true := by
  induction markers with
  | nil => cases h; simp
  | cons marker markers ih =>
      rw [firstMarker] at h
      split at h
      · cases h
      · next result hresult =>
          cases result with
          | false => cases h; simp [hresult]
          | true => simpa [hresult] using ih h

theorem firstMarker_true_eq_ok {markers : List String}
    (h : firstMarker platform true sourceName packageName markers = .ok value) :
    value = true ↔ ∃ marker ∈ markers, evaluateMarker platform marker = some true := by
  induction markers with
  | nil => cases h; simp
  | cons marker markers ih =>
      rw [firstMarker] at h
      split at h
      · cases h
      · next result hresult =>
          cases result with
          | true => cases h; simp [hresult]
          | false => simpa [hresult] using ih h

theorem markerAllows_eq_ok {item : TomlTable}
    (h : markerAllowsCurrentEnvironment platform sourceName packageName item = .ok value) :
    value = true ↔ MarkerActive platform item := by
  rw [markerAllowsCurrentEnvironment, bind_eq_ok_iff] at h
  obtain ⟨all, hall, h⟩ := h
  have hmarkers := firstMarker_false_eq_ok hall
  rw [MarkerActive, ← hmarkers]
  cases all with
  | false => cases h; simp
  | true =>
      by_cases hresolution : markerValuesForKeys item ["resolution-markers"] = []
      · rw [if_pos rfl, if_pos hresolution] at h
        cases h
        simp [hresolution]
      · rw [if_pos rfl, if_neg hresolution] at h
        simp [firstMarker_true_eq_ok h, hresolution]

end Markers

/-! ## Dependencies -/

/-- An extra that an entry of a dependency list asks for. -/
inductive RequestedExtra (item : TomlTable) : String → Prop where
  | one {key raw} (hkey : key ∈ ["extra", "extras"]) (h : item.get? key = some (.str raw)) :
      RequestedExtra item (normalizeName platform raw)
  | many {key items raw} (hkey : key ∈ ["extra", "extras"])
      (h : item.get? key = some (.array items)) (hraw : TomlValue.str raw ∈ items) :
      RequestedExtra item (normalizeName platform raw)

/-- The edge that an entry of a dependency list stands for. -/
inductive Requires : TomlValue → DependencyEdge → Prop where
  | text {item} : Requires (.str item) ⟨normalizeName platform (requirementName item), ∅⟩
  | table {item : TomlTable} {raw extras} (hname : item.get? "name" = some (.str raw))
      (hactive : MarkerActive platform item)
      (hextras : ∀ extra, extra ∈ extras ↔ RequestedExtra platform item extra) :
      Requires (.table item) ⟨normalizeName platform raw, extras⟩

/-- The edges that a list of dependencies, or a table of such lists, stands for. -/
inductive Lists : TomlValue → DependencyEdge → Prop where
  | item {items item edge} (h : item ∈ items) (hrequires : Requires platform item edge) :
      Lists (.array items) edge
  | group {groups groupName dependencies edge} (h : (groupName, dependencies) ∈ groups)
      (hlists : Lists dependencies edge) : Lists (.table groups) edge

def ListsUnder (key : String) (package : TomlTable) (edge : DependencyEdge) : Prop :=
  ∃ value, package.get? key = some value ∧ Lists platform value edge

/-- The dependencies of a requested extra: those under the last entry with its name. -/
def ListsForExtras (extras : Finset String) (package : TomlTable) (edge : DependencyEdge) : Prop :=
  ∃ extra ∈ extras, ∃ optional, package.get? "optional-dependencies" = some (.table optional) ∧
    ∃ entry, optional.reverse.find? (fun entry => normalizeName platform entry.1 = extra) =
      some entry ∧ Lists platform entry.2 edge

section Edges

variable {platform} {sourceName context : String}

theorem mem_extrasUnderKey {raw : Option TomlValue} {extras : Finset String}
    (h : extrasUnderKey platform sourceName context raw = .ok extras) (extra : String) :
    extra ∈ extras ↔ ∃ name, normalizeName platform name = extra ∧
      (raw = some (.str name) ∨ ∃ items, raw = some (.array items) ∧ TomlValue.str name ∈ items) := by
  unfold extrasUnderKey at h
  split at h
  · cases h; simp
  · next raw =>
      split at h
      · cases h
      · cases h; simp [eq_comm]
  · next items =>
      rw [bind_eq_ok_iff] at h
      obtain ⟨names, hnames, h⟩ := h
      cases h
      rw [List.mem_toFinset, mem_mapM_iff hnames]
      constructor
      · rintro ⟨item, hitem, h⟩
        split at h
        · next name =>
            split at h
            · cases h
            · exact ⟨name, Except.ok.inj h, Or.inr ⟨items, rfl, hitem⟩⟩
        · cases h
      · rintro ⟨name, rfl, h⟩
        have hitem : TomlValue.str name ∈ items := by simpa using h
        have hne : name ≠ "" := by
          rintro rfl
          obtain ⟨y, -, hy⟩ := exists_of_mem_forall₂ (mapM_eq_ok_iff.mp hnames).flip hitem
          cases hy
        exact ⟨.str name, hitem, by simp [hne]⟩
  · cases h

theorem mem_requestedExtras {item : TomlTable} {extras : Finset String}
    (h : requestedExtras platform sourceName context item = .ok extras) (extra : String) :
    extra ∈ extras ↔ RequestedExtra platform item extra := by
  rw [requestedExtras, bind_eq_ok_iff] at h
  obtain ⟨one, hone, h⟩ := h
  rw [bind_eq_ok_iff] at h
  obtain ⟨many, hmany, h⟩ := h
  cases h
  rw [Finset.mem_union, mem_extrasUnderKey hone, mem_extrasUnderKey hmany]
  constructor
  · rintro (⟨name, rfl, h | ⟨items, h, hname⟩⟩ | ⟨name, rfl, h | ⟨items, h, hname⟩⟩)
    · exact .one (by simp) h
    · exact .many (by simp) h hname
    · exact .one (by simp) h
    · exact .many (by simp) h hname
  · rintro (⟨hkey, h⟩ | ⟨hkey, h, hraw⟩)
    · rcases List.mem_pair.mp hkey with rfl | rfl
      · exact Or.inl ⟨_, rfl, Or.inl h⟩
      · exact Or.inr ⟨_, rfl, Or.inl h⟩
    · rcases List.mem_pair.mp hkey with rfl | rfl
      · exact Or.inl ⟨_, rfl, Or.inr ⟨_, h, hraw⟩⟩
      · exact Or.inr ⟨_, rfl, Or.inr ⟨_, h, hraw⟩⟩

theorem requires_iff {item : TomlValue} {found : Option DependencyEdge}
    (h : dependencyEdgeFromItem platform sourceName context item = .ok found)
    (edge : DependencyEdge) : found = some edge ↔ Requires platform item edge := by
  unfold dependencyEdgeFromItem at h
  split at h
  · next item =>
      simp only at h
      split at h
      · cases h
      · cases h
        rw [Option.some_inj]
        constructor
        · rintro rfl
          exact .text
        · rintro ⟨⟩
          rfl
  · next item =>
      split at h
      · next raw hraw =>
          rw [bind_eq_ok_iff] at h
          obtain ⟨active, hactive, h⟩ := h
          have hiff := markerAllows_eq_ok hactive
          cases active with
          | false =>
              cases h
              constructor
              · rintro ⟨⟩
              · rintro ⟨⟩
                simp_all
          | true =>
              rw [if_pos rfl, bind_eq_ok_iff] at h
              obtain ⟨extras, hextras, h⟩ := h
              split at h
              · cases h
              · cases h
                have hmem := mem_requestedExtras hextras
                rw [Option.some_inj]
                constructor
                · rintro rfl
                  exact .table hraw (hiff.mp rfl) hmem
                · intro hrequires
                  cases hrequires with
                  | @table _ raw' extras' hname _ hextras' =>
                      obtain rfl : raw = raw' := by simpa [hraw] using hname
                      have hsame : extras = extras' :=
                        Finset.ext fun extra => (hmem extra).trans (hextras' extra).symm
                      rw [hsame]
      · cases h
  · cases h

mutual

theorem mem_dependencyEdges {context : String} {edges : Finset DependencyEdge} (edge : DependencyEdge) :
    ∀ {value : TomlValue}, dependencyEdges platform sourceName context value = .ok edges →
      (edge ∈ edges ↔ Lists platform value edge)
  | .table groups, h => by
      rw [dependencyEdges] at h
      rw [mem_groupEdges edge h]
      constructor
      · rintro ⟨entry, hentry, hlists⟩
        exact .group hentry hlists
      · rintro (_ | ⟨hentry, hlists⟩)
        exact ⟨_, hentry, hlists⟩
  | .array items, h => by
      rw [dependencyEdges, bind_eq_ok_iff] at h
      obtain ⟨found, hfound, h⟩ := h
      cases h
      rw [List.mem_toFinset, List.reduceOption_mem_iff, mem_mapM_iff hfound]
      constructor
      · rintro ⟨item, hitem, h⟩
        exact .item hitem ((requires_iff h edge).mp rfl)
      · rintro (⟨hitem, hrequires⟩ | _)
        obtain ⟨y, -, hy⟩ := exists_of_mem_forall₂ (mapM_eq_ok_iff.mp hfound).flip hitem
        exact ⟨_, hitem, hy.trans (congrArg _ ((requires_iff hy edge).mpr hrequires))⟩
  | .str _, h | .int _, h | .float _, h | .bool _, h | .dateTime _, h => by
      rw [dependencyEdges] at h
      · cases h
      all_goals simp

theorem mem_groupEdges {context : String} {edges : Finset DependencyEdge} (edge : DependencyEdge) :
    ∀ {groups : List (String × TomlValue)},
      groupEdges platform sourceName context groups = .ok edges →
        (edge ∈ edges ↔ ∃ entry ∈ groups, Lists platform entry.2 edge)
  | [], h => by
      rw [groupEdges] at h
      cases h
      simp
  | (groupName, dependencies) :: groups, h => by
      rw [groupEdges, ite_error_eq_ok_iff, bind_eq_ok_iff] at h
      obtain ⟨-, own, hown, h⟩ := h
      rw [bind_eq_ok_iff] at h
      obtain ⟨others, hothers, h⟩ := h
      cases h
      rw [Finset.mem_union, mem_dependencyEdges edge hown, mem_groupEdges edge hothers]
      simp

end

theorem mem_dependencyEdgesFromObject {context : String} {value : Option TomlValue}
    {edges : Finset DependencyEdge}
    (h : dependencyEdgesFromObject platform sourceName context value = .ok edges)
    (edge : DependencyEdge) :
    edge ∈ edges ↔ ∃ listed, value = some listed ∧ Lists platform listed edge := by
  cases value with
  | none => cases h; simp
  | some listed => simp [mem_dependencyEdges edge h]

theorem mem_unions (sets : List (Finset DependencyEdge)) (edge : DependencyEdge) :
    edge ∈ unions sets ↔ ∃ edges ∈ sets, edge ∈ edges := by
  induction sets with
  | nil => simp [unions]
  | cons edges sets ih =>
      have hunions : unions (edges :: sets) = edges ∪ unions sets := rfl
      rw [hunions, Finset.mem_union, ih, List.exists_mem_cons_iff]

theorem mem_optionalDependencyEdges {order : SetOrder String} {packageName : String}
    {extras : Finset String} {package : TomlTable} {edges : Finset DependencyEdge}
    (h : optionalDependencyEdges platform order sourceName packageName extras package = .ok edges)
    (edge : DependencyEdge) : edge ∈ edges ↔ ListsForExtras platform extras package edge := by
  unfold optionalDependencyEdges at h
  split at h
  · next hextras => cases h; simp [ListsForExtras, hextras]
  · simp only at h
    split at h
    · next hget => cases h; simp [ListsForExtras, hget]
    · next optional hget =>
        rw [ite_error_eq_ok_iff, bind_eq_ok_iff] at h
        obtain ⟨-, found, hfound, h⟩ := h
        cases h
        rw [mem_unions]
        simp only [mem_mapM_iff hfound, hget, ListsForExtras, Option.some.injEq, TomlValue.table.injEq]
        have hlast : ∀ extra, (ofPairs (optional.map (Prod.map (normalizeName platform) id))).get?
            extra = (optional.reverse.find? fun entry => normalizeName platform entry.1 = extra).map
              Prod.snd := by
          intro extra
          rw [get?_ofPairs, ← List.map_reverse, List.find?_map]
          simp [Function.comp_def]
        constructor
        · rintro ⟨own, ⟨extra, hextra, hown⟩, hedge⟩
          obtain ⟨listed, hlisted, hlists⟩ := (mem_dependencyEdgesFromObject hown edge).mp hedge
          rw [hlast, Option.map_eq_some_iff] at hlisted
          obtain ⟨entry, hentry, rfl⟩ := hlisted
          exact ⟨extra, (order.mem_items _ _).mp hextra, optional, rfl, entry, hentry, hlists⟩
        · rintro ⟨extra, hextra, _, rfl, entry, hentry, hlists⟩
          have hextra := (order.mem_items _ _).mpr hextra
          obtain ⟨own, -, hown⟩ :=
            exists_of_mem_forall₂ (mapM_eq_ok_iff.mp hfound).flip hextra
          refine ⟨own, ⟨extra, hextra, hown⟩, (mem_dependencyEdgesFromObject hown edge).mpr ?_⟩
          rw [hlast, hentry]
          exact ⟨_, rfl, hlists⟩
    · cases h

end Edges

end SemanticCi.Dependencies
