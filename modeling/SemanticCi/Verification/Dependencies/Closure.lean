import SemanticCi.Verification.Dependencies.Edges

/-! The dependency closure of a lock file and the requirements that it pins. -/

namespace SemanticCi.Dependencies

open SemanticCi.Python Markers OrderedDict ExceptRules Worklist

variable (platform : Platform)

/-! ## What a lock file reaches -/

/-- An entry of a lock file for the package with a normalized name. -/
def IsVariant (packages : List TomlValue) (name : String) (package : TomlTable) : Prop :=
  TomlValue.table package ∈ packages ∧
    ∃ raw, raw ≠ "" ∧ package.get? "name" = some (.str raw) ∧ normalizeName platform raw = name

/-- From an edge one gets, through the active variants of its package, to their dependencies and
to those of the extras that the edge asks for. -/
def Follows (packages : List TomlValue) (edge next : DependencyEdge) : Prop :=
  ∃ package, IsVariant platform packages edge.name package ∧ MarkerActive platform package ∧
    (ListsUnder platform "dependencies" package next ∨
      ListsForExtras platform edge.extras package next)

/-- The names of the edges that are reached and have an active variant. -/
def InClosure (packages : List TomlValue) (roots : Set DependencyEdge) (name : String) : Prop :=
  ∃ edge, Reached (Follows platform packages) roots edge ∧ edge.name = name ∧
    ∃ package, IsVariant platform packages name package ∧ MarkerActive platform package

/-- The names that a set of edges puts into the closure. -/
def Includes (packages : List TomlValue) (edges : Finset DependencyEdge) (name : String) : Prop :=
  ∃ edge ∈ edges, edge.name = name ∧
    ∃ package, IsVariant platform packages name package ∧ MarkerActive platform package

/-- What holds of the loop between two rounds. -/
structure ClosureInv (packages : List TomlValue) (roots : Finset DependencyEdge) (s : ClosureState) : Prop where
  worklist : Inv (Follows platform packages) roots ⟨s.stack, s.processed⟩
  included : ∀ name, name ∈ s.included ↔ Includes platform packages s.processed name

/-- The checks that the closure makes of a package entry pass. -/
structure WellFormedEntry (package : TomlTable) : Prop where
  markers : ∀ packageName, ∃ active,
    markerAllowsCurrentEnvironment platform "uv.lock" packageName package = .ok active
  dependencies : ∀ context, ∃ edges, dependencyEdgesFromObject platform "uv.lock" context
    (package.get? "dependencies") = .ok edges
  optional : ∀ order packageName extras, ∃ edges,
    optionalDependencyEdges platform order "uv.lock" packageName extras package = .ok edges

def WellFormed (packages : List TomlValue) : Prop :=
  ∀ value ∈ packages, ∃ package, value = .table package ∧ WellFormedEntry platform package

/-! ## Packages by name -/

section ByName

variable {platform} {sourceName : String} {packages : List TomlValue}
  {byName : OrderedDict String (List (String × TomlTable))}

theorem mem_variants (h : lockPackagesByName platform sourceName packages = .ok byName)
    (name : String) (package : TomlTable) :
    package ∈ ((byName.get? name).getD []).map Prod.snd ↔
      IsVariant platform packages name package := by
  rw [lockPackagesByName, bind_eq_ok_iff] at h
  obtain ⟨named, hnamed, h⟩ := h
  cases h
  have hmem : (name, package) ∈ named.reduceOption ↔ IsVariant platform packages name package := by
    rw [List.reduceOption_mem_iff, mem_mapM_iff hnamed]
    constructor
    · rintro ⟨⟨value, index⟩, hvalue, hfound⟩
      simp only at hfound
      split at hfound
      · split at hfound
        · next raw hraw =>
            split at hfound <;> cases hfound
            exact ⟨List.fst_mem_of_mem_zipIdx hvalue, raw, by assumption, hraw, rfl⟩
        · cases hfound
      · cases hfound
    · rintro ⟨hpackage, raw, hne, hraw, rfl⟩
      rw [← List.zipIdx_map_fst 0 packages, List.mem_map] at hpackage
      obtain ⟨entry, hentry, hvalue⟩ := hpackage
      exact ⟨entry, hentry, by simp [hvalue, hraw, hne]⟩
  rw [getD_groupBy, ← hmem]
  simp

theorem exists_lockPackagesByName (hwf : WellFormed platform packages) :
    ∃ byName, lockPackagesByName platform "uv.lock" packages = .ok byName := by
  apply exists_bind
  · apply exists_mapM
    rintro ⟨value, index⟩ hvalue
    obtain ⟨package, rfl, -⟩ := hwf value (List.fst_mem_of_mem_zipIdx hvalue)
    simp only
    split
    · split <;> exact ⟨_, rfl⟩
    · exact ⟨_, rfl⟩
  · exact fun named _ => ⟨_, rfl⟩

theorem mem_activeLockPackageVariants {name : String} {active : List TomlTable}
    (hname : lockPackagesByName platform sourceName packages = .ok byName)
    (h : activeLockPackageVariants platform byName sourceName name = .ok active)
    (package : TomlTable) :
    package ∈ active ↔ IsVariant platform packages name package ∧ MarkerActive platform package := by
  rw [activeLockPackageVariants, bind_eq_ok_iff] at h
  obtain ⟨variants, hvariants, h⟩ := h
  cases h
  rw [List.reduceOption_mem_iff, mem_mapM_iff hvariants, ← mem_variants hname, List.mem_map]
  constructor
  · rintro ⟨entry, hentry, h⟩
    rw [bind_eq_ok_iff] at h
    obtain ⟨value, hvalue, h⟩ := h
    cases value with
    | false => cases h
    | true =>
        cases h
        exact ⟨⟨entry, hentry, rfl⟩, (markerAllows_eq_ok hvalue).mp rfl⟩
  · rintro ⟨⟨entry, hentry, rfl⟩, hactive⟩
    refine ⟨entry, hentry, ?_⟩
    obtain ⟨found, -, hfound⟩ := exists_of_mem_forall₂ (mapM_eq_ok_iff.mp hvariants).flip hentry
    rw [bind_eq_ok_iff] at hfound ⊢
    obtain ⟨value, hvalue, -⟩ := hfound
    exact ⟨value, hvalue, by simp [(markerAllows_eq_ok hvalue).mpr hactive]⟩

theorem IsVariant.wellFormed (hwf : WellFormed platform packages) {name : String}
    {package : TomlTable} (h : IsVariant platform packages name package) :
    WellFormedEntry platform package := by
  obtain ⟨found, hfound, hentry⟩ := hwf _ h.1
  cases hfound
  exact hentry

theorem exists_activeLockPackageVariants (hwf : WellFormed platform packages)
    (hname : lockPackagesByName platform "uv.lock" packages = .ok byName) (name : String) :
    ∃ active, activeLockPackageVariants platform byName "uv.lock" name = .ok active := by
  apply exists_bind
  · apply exists_mapM
    intro entry hentry
    apply exists_bind
    · have hvariant := (mem_variants hname name entry.2).mp (List.mem_map_of_mem hentry)
      exact (hvariant.wellFormed hwf).markers name
    · exact fun active _ => ⟨_, rfl⟩
  · exact fun variants _ => ⟨_, rfl⟩

end ByName

/-! ## One round -/

section Round

variable {platform} {packages : List TomlValue}
  {byName : OrderedDict String (List (String × TomlTable))} {order : HashOrder}
  (hwf : WellFormed platform packages)
  (hname : lockPackagesByName platform "uv.lock" packages = .ok byName)

theorem mem_foundEdges {round variant : ℕ} {edge : DependencyEdge}
    {processed : Finset DependencyEdge} {package : TomlTable} {found : List DependencyEdge}
    (h : foundEdges platform "uv.lock" order round edge processed package variant = .ok found)
    (next : DependencyEdge) :
    next ∈ found ↔ (ListsUnder platform "dependencies" package next ∨
      ListsForExtras platform edge.extras package next) ∧ next ∉ processed := by
  rw [foundEdges, bind_eq_ok_iff] at h
  obtain ⟨dependencies, hdependencies, h⟩ := h
  rw [bind_eq_ok_iff] at h
  obtain ⟨optional, hoptional, h⟩ := h
  cases h
  rw [List.mem_filter, List.mem_append, SetOrder.mem_items, SetOrder.mem_items,
    mem_dependencyEdgesFromObject hdependencies, mem_optionalDependencyEdges hoptional,
    decide_eq_true_iff]
  rfl

/-- An edge puts its own name into the closure, when it has an active variant. -/
theorem includes_insert {edge : DependencyEdge} {processed : Finset DependencyEdge}
    {active : List TomlTable}
    (hmem : ∀ package, package ∈ active ↔
      IsVariant platform packages edge.name package ∧ MarkerActive platform package)
    (name : String) : Includes platform packages (insert edge processed) name ↔
      (name = edge.name ∧ active ≠ []) ∨ Includes platform packages processed name := by
  rw [Includes, Finset.exists_mem_insert, Includes]
  apply or_congr_left
  constructor
  · rintro ⟨rfl, package, hpackage⟩
    exact ⟨rfl, List.ne_nil_of_mem ((hmem package).mpr hpackage)⟩
  · rintro ⟨rfl, hne⟩
    obtain ⟨package, hpackage⟩ := List.exists_mem_of_ne_nil _ hne
    exact ⟨rfl, package, (hmem package).mp hpackage⟩

/-- The active variants of an edge list the edges that follow it. -/
theorem mem_foundOfVariants {round : ℕ} {edge : DependencyEdge}
    {processed : Finset DependencyEdge} {active : List TomlTable}
    {found : List (List DependencyEdge)}
    (hmem : ∀ package, package ∈ active ↔
      IsVariant platform packages edge.name package ∧ MarkerActive platform package)
    (hfound : active.zipIdx.mapM (fun (package, variant) =>
      foundEdges platform "uv.lock" order round edge processed package variant) = .ok found)
    (next : DependencyEdge) :
    next ∈ found.flatten.reverse ↔ Follows platform packages edge next ∧ next ∉ processed := by
  rw [List.mem_reverse, List.mem_flatten]
  simp only [mem_mapM_iff hfound]
  constructor
  · rintro ⟨own, ⟨⟨package, variant⟩, hpackage, hown⟩, hnext⟩
    obtain ⟨hvariant, hmarker⟩ := (hmem package).mp (List.fst_mem_of_mem_zipIdx hpackage)
    obtain ⟨hlists, hfresh⟩ := (mem_foundEdges hown next).mp hnext
    exact ⟨⟨package, hvariant, hmarker, hlists⟩, hfresh⟩
  · rintro ⟨⟨package, hvariant, hmarker, hlists⟩, hfresh⟩
    have hpackage := (hmem package).mpr ⟨hvariant, hmarker⟩
    rw [← List.zipIdx_map_fst 0 active, List.mem_map] at hpackage
    obtain ⟨⟨package, variant⟩, hpackage, rfl⟩ := hpackage
    obtain ⟨own, -, hown⟩ := exists_of_mem_forall₂ (mapM_eq_ok_iff.mp hfound).flip hpackage
    exact ⟨own, ⟨_, hpackage, hown⟩, (mem_foundEdges hown next).mpr ⟨hlists, hfresh⟩⟩

include hwf

theorem exists_foundEdges {round variant : ℕ} {edge : DependencyEdge}
    {processed : Finset DependencyEdge} {name : String} {package : TomlTable}
    (h : IsVariant platform packages name package) :
    ∃ found, foundEdges platform "uv.lock" order round edge processed package variant = .ok found := by
  have hentry := h.wellFormed hwf
  apply exists_bind (hentry.dependencies _)
  intro dependencies _
  exact exists_bind (hentry.optional _ _ _) fun optional _ => ⟨_, rfl⟩

include hname

/-- One round takes one step of the worklist, and includes the name of an edge that it takes
when it has an active variant. -/
theorem closureRound_step {s : ClosureState} (hs : s.stack ≠ []) :
    ∃ s', closureRound platform byName "uv.lock" order s = .ok s' ∧
      Step (Follows platform packages) ⟨s.stack, s.processed⟩ ⟨s'.stack, s'.processed⟩ ∧
      ((∀ name, name ∈ s.included ↔ Includes platform packages s.processed name) →
        ∀ name, name ∈ s'.included ↔ Includes platform packages s'.processed name) := by
  obtain ⟨included, processed, stack, rounds⟩ := s
  cases stack with
  | nil => exact absurd rfl hs
  | cons edge stack =>
  by_cases hedge : edge ∈ processed
  · refine ⟨⟨included, processed, stack, rounds + 1⟩, ?_, .skip hedge, id⟩
    simp only [closureRound, if_pos hedge]
  · obtain ⟨active, hactive⟩ := exists_activeLockPackageVariants hwf hname edge.name
    have hmem := mem_activeLockPackageVariants hname hactive
    by_cases hnil : active = []
    · refine ⟨⟨included, insert edge processed, [] ++ stack, rounds + 1⟩, ?_, .visit hedge ?_ ?_, ?_⟩
      · simp only [closureRound, if_neg hedge, hactive, ok_bind, if_pos hnil, List.nil_append]
      · simp
      · rintro next ⟨package, hvariant, hmarker, -⟩
        have hpackage := (hmem package).mpr ⟨hvariant, hmarker⟩
        simp [hnil] at hpackage
      · intro hincluded name
        rw [includes_insert hmem, hincluded]
        simp [hnil]
    · have hfound : ∃ found, active.zipIdx.mapM (fun (package, variant) =>
          foundEdges platform "uv.lock" order rounds edge (insert edge processed) package variant) =
            .ok found := by
        apply exists_mapM
        rintro ⟨package, variant⟩ hpackage
        have hvariant := (hmem package).mp (List.fst_mem_of_mem_zipIdx hpackage)
        exact exists_foundEdges hwf hvariant.1
      obtain ⟨found, hfound⟩ := hfound
      have hnext := mem_foundOfVariants hmem hfound
      refine ⟨⟨insert edge.name included, insert edge processed, found.flatten.reverse ++ stack,
        rounds + 1⟩, ?_, .visit hedge ?_ ?_, ?_⟩
      · simp only [closureRound, if_neg hedge, hactive, ok_bind, if_neg hnil, hfound]
      · exact fun next h => ((hnext next).mp h).1
      · intro next h
        rw [hnext]
        tauto
      · intro hincluded name
        rw [includes_insert hmem, Finset.mem_insert, hincluded]
        simp [hnil]

end Round

/-! ## The closure -/

section Closure

variable {platform} {packages : List TomlValue}

/-- Some order of each set. -/
noncomputable def someOrder (α : Type) : SetOrder α where
  items := Finset.toList
  nodup := Finset.nodup_toList
  mem_items _ _ := Finset.mem_toList

theorem finite_listsForExtras {package : TomlTable} (h : WellFormedEntry platform package) :
    {next | ∃ extras, ListsForExtras platform extras package next}.Finite := by
  have hone : ∀ extras, {next | ListsForExtras platform extras package next}.Finite := by
    intro extras
    obtain ⟨edges, hedges⟩ := h.optional (someOrder String) "" extras
    exact edges.finite_toSet.subset fun next hnext =>
      (mem_optionalDependencyEdges hedges next).mpr hnext
  cases hget : package.get? "optional-dependencies" with
  | none =>
      apply Set.Finite.subset Set.finite_empty
      rintro next ⟨extras, extra, -, optional, hoptional, -⟩
      simp [hget] at hoptional
  | some value =>
      cases value with
      | table optional =>
          have hall := Set.Finite.biUnion (List.finite_toSet optional) fun entry _ =>
            hone {normalizeName platform entry.1}
          refine hall.subset ?_
          rintro next ⟨extras, extra, -, found, hfound, entry, hentry, hlists⟩
          obtain rfl : optional = found := by simpa [hget] using hfound
          have hmem : entry ∈ optional := List.mem_reverse.mp (List.mem_of_find?_eq_some hentry)
          have hextra : normalizeName platform entry.1 = extra := by
            simpa using List.find?_some hentry
          refine Set.mem_biUnion hmem ⟨extra, by simp [hextra], optional, hfound, entry, hentry, hlists⟩
      | _ =>
          apply Set.Finite.subset Set.finite_empty
          rintro next ⟨extras, extra, -, optional, hoptional, -⟩
          simp [hget] at hoptional

theorem finite_reached (hwf : WellFormed platform packages) (roots : Finset DependencyEdge) :
    {edge | Reached (Follows platform packages) roots edge}.Finite := by
  have hentry : ∀ value ∈ packages, {next | ∃ package, value = .table package ∧
      (ListsUnder platform "dependencies" package next ∨
        ∃ extras, ListsForExtras platform extras package next)}.Finite := by
    intro value hvalue
    obtain ⟨package, rfl, hpackage⟩ := hwf value hvalue
    obtain ⟨edges, hedges⟩ := hpackage.dependencies ""
    refine (edges.finite_toSet.union (finite_listsForExtras hpackage)).subset ?_
    rintro next ⟨found, hfound, hnext⟩
    cases hfound
    exact hnext.imp_left (mem_dependencyEdgesFromObject hedges next).mpr
  have hnext := Set.Finite.biUnion (List.finite_toSet packages) hentry
  refine (roots.finite_toSet.union hnext).subset ?_
  rintro edge ⟨root, hroot, hpath⟩
  cases hpath with
  | refl => exact Or.inl hroot
  | tail _ hfollows =>
      obtain ⟨package, hvariant, -, hlists⟩ := hfollows
      exact Or.inr (Set.mem_biUnion hvariant.1 ⟨package, rfl, hlists.imp_right fun h => ⟨_, h⟩⟩)

theorem exists_dependencyClosure {byName : OrderedDict String (List (String × TomlTable))}
    (hwf : WellFormed platform packages)
    (hname : lockPackagesByName platform "uv.lock" packages = .ok byName)
    (roots : Finset DependencyEdge) :
    ∃ closure, (∀ name, name ∈ closure ↔ InClosure platform packages roots name) ∧
      ∀ order, ∃ needed, ∀ fuel ≥ needed,
        dependencyClosure platform byName "uv.lock" fuel order roots = .ok closure := by
  have hfinite := finite_reached hwf roots
  have hall : ∀ edge, Reached (Follows platform packages) roots edge → edge ∈ hfinite.toFinset :=
    fun edge hedge => hfinite.mem_toFinset.mpr hedge
  have hnames : {name | InClosure platform packages roots name}.Finite := by
    refine (hfinite.image DependencyEdge.name).subset ?_
    rintro name ⟨edge, hedge, hname, -⟩
    exact ⟨edge, hedge, hname⟩
  refine ⟨hnames.toFinset, fun name => hnames.mem_toFinset, fun order => ?_⟩
  have hround : ∀ s : ClosureState, ClosureInv platform packages roots s →
      s.stack.isEmpty = false → ∃ s', closureRound platform byName "uv.lock" order s = .ok s' ∧
        ClosureInv platform packages roots s' ∧
        measure hfinite.toFinset ⟨s'.stack, s'.processed⟩ <
          measure hfinite.toFinset ⟨s.stack, s.processed⟩ := by
    intro s hs hstack
    obtain ⟨s', hs', hstep, hincluded⟩ := closureRound_step hwf hname (by simpa using hstack)
    exact ⟨s', hs', ⟨hstep.inv hs.worklist, hincluded hs.included⟩,
      hstep.measure_lt hall hs.worklist⟩
  have hstart : ClosureInv platform packages roots
      ⟨∅, ∅, ((order.edges .roots).items roots).reverse, 0⟩ :=
    ⟨inv_start (by simp [SetOrder.mem_items]), by simp [Includes]⟩
  obtain ⟨needed, final, hfinal, hdone, hloop⟩ :=
    exists_loop_eq LockError.outOfFuel hround _ hstart
  refine ⟨needed, fun fuel hfuel => ?_⟩
  rw [dependencyClosure, hloop fuel hfuel, ok_bind]
  congr 1
  ext name
  have hprocessed := hfinal.worklist.mem_processed_iff (by simpa using hdone)
  rw [hfinal.included, hnames.mem_toFinset, Set.mem_ofPred_eq, Includes, InClosure]
  simp only [hprocessed]

end Closure

end SemanticCi.Dependencies
