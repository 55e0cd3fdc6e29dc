import SemanticCi.Verification.Dependencies.Closure

/-! The requirements that a `uv.lock` of a known project pins. -/

namespace SemanticCi.Dependencies

open SemanticCi.Python Markers OrderedDict ExceptRules Worklist

variable (platform : Platform)

/-! ## What is pinned -/

/-- The first of the three keys decides. An entry with none of them is in the default group. -/
def InDefaultGroup (package : TomlTable) : Prop :=
  match package.get? "groups", package.get? "group", package.get? "category" with
  | some groups, _, _ => ∃ items group, groups = .array items ∧ group ∈ items ∧
      normalizeGroup platform group ∈ ["default", "main"]
  | none, some group, _ => normalizeGroup platform group ∈ ["default", "main"]
  | none, none, some category => normalizeGroup platform category ∈ ["default", "main"]
  | none, none, none => True

/-- The default dependencies of the project. -/
def DefaultRoots (packages : List TomlValue) (project : String) : Set DependencyEdge :=
  {edge | ∃ package, IsVariant platform packages (normalizeName platform project) package ∧
    ListsUnder platform "dependencies" package edge}

/-- A name and a version that an entry pins. -/
structure Pins (packages : List TomlValue) (project : String) (package : TomlTable)
    (name version : String) : Prop where
  mem : TomlValue.table package ∈ packages
  name_eq : package.get? "name" = some (.str name)
  version_eq : package.get? "version" = some (.str version)
  not_project : normalizeName platform name ≠ normalizeName platform project
  registry : isLocalLockPackage platform package = false
  not_optional : isOptionalPackage package = false
  default_group : InDefaultGroup platform package
  active : MarkerActive platform package
  in_closure : InClosure platform packages (DefaultRoots platform packages project)
    (normalizeName platform name)

/-- The further checks of a run that pins requirements pass. -/
structure WellFormedLock (packages : List TomlValue) (project : String) : Prop where
  identity : ∀ package : TomlTable, TomlValue.table package ∈ packages →
    ∃ name version, name ≠ "" ∧ version ≠ "" ∧ package.get? "name" = some (.str name) ∧
      package.get? "version" = some (.str version)
  group : ∀ package, TomlValue.table package ∈ packages → ∀ packageName, ∃ selected,
    isSelectedDependencyGroup platform "uv.lock" packageName package = .ok selected
  roots : ∀ package, IsVariant platform packages (normalizeName platform project) package →
    ∃ roots, packageRoots platform "uv.lock" package = .ok roots

/-! ## The checks of one entry -/

section Entry

variable {platform} {packages : List TomlValue} {project : String}

theorem isSelectedDependencyGroup_eq_ok {sourceName packageName : String} {package : TomlTable}
    {selected : Bool}
    (h : isSelectedDependencyGroup platform sourceName packageName package = .ok selected) :
    selected = true ↔ InDefaultGroup platform package := by
  unfold isSelectedDependencyGroup at h
  simp only at h
  split at h
  · next groups hgroups =>
      split at h
      · cases h
      · cases h
        simp only [InDefaultGroup, hgroups]
        simp
  · cases h
  · next hgroups =>
      split at h
      · next raw hgroup =>
          split at h <;> cases h
          simp [InDefaultGroup, hgroups, hgroup]
      · cases h
      · next hgroup =>
          split at h
          · next raw hcategory =>
              split at h <;> cases h
              simp [InDefaultGroup, hgroups, hgroup, hcategory]
          · cases h
          · next hcategory =>
              cases h
              simp [InDefaultGroup, hgroups, hgroup, hcategory]

theorem packageIdentity_eq_ok {index : ℕ} {package : TomlTable} {name version : String}
    (hne : name ≠ "") (hversion : version ≠ "") (h : package.get? "name" = some (.str name))
    (h' : package.get? "version" = some (.str version)) :
    packageIdentity "uv.lock" index package = .ok (name, version) := by
  simp only [packageIdentity, h, h', ne_eq, hne, hversion, not_false_eq_true, if_true, ok_bind]

theorem exists_pinnedEntry {excluded : Finset String} {package : TomlTable} {name version : String}
    (hgroup : ∃ selected,
      isSelectedDependencyGroup platform "uv.lock" name package = .ok selected)
    (hmarkers : ∃ active,
      markerAllowsCurrentEnvironment platform "uv.lock" name package = .ok active) :
    ∃ found, pinnedEntry platform "uv.lock" (some project) excluded package name version = .ok found ∧
      ∀ entry, found = some entry ↔ entry = (name, version) ∧
        normalizeName platform name ≠ normalizeName platform project ∧
        isLocalLockPackage platform package = false ∧ normalizeName platform name ∉ excluded ∧
        isOptionalPackage package = false ∧ InDefaultGroup platform package ∧
        MarkerActive platform package := by
  obtain ⟨selected, hselected⟩ := hgroup
  obtain ⟨active, hactive⟩ := hmarkers
  have hdefault := isSelectedDependencyGroup_eq_ok hselected
  have hmarker := markerAllows_eq_ok hactive
  rw [pinnedEntry]
  by_cases hproject : normalizeName platform name = normalizeName platform project
  · exact ⟨none, by simp [hproject], by simp [hproject]⟩
  by_cases hlocal : isLocalLockPackage platform package
  · exact ⟨none, by simp [hproject, hlocal], by simp [hlocal]⟩
  by_cases hexcluded : normalizeName platform name ∈ excluded
  · exact ⟨none, by simp [hproject, hlocal, hexcluded], by simp [hexcluded]⟩
  by_cases hoptional : isOptionalPackage package
  · exact ⟨none, by simp [hproject, hlocal, hexcluded, hoptional], by simp [hoptional]⟩
  cases selected with
  | false =>
      refine ⟨none, by simp [hproject, hlocal, hexcluded, hoptional, hselected], ?_⟩
      simp [← hdefault]
  | true =>
      cases active with
      | false =>
          refine ⟨none, by simp [hproject, hlocal, hexcluded, hoptional, hselected, hactive], ?_⟩
          simp [← hmarker]
      | true =>
          refine ⟨some (name, version),
            by simp [hproject, hlocal, hexcluded, hoptional, hselected, hactive], fun entry => ?_⟩
          simp [hproject, hlocal, hexcluded, hoptional, ← hdefault, ← hmarker, eq_comm]

end Entry

/-! ## The lines -/

section Lines

variable {platform} {packages : List TomlValue} {project : String}

theorem isOtherPackage_iff {package : TomlTable} {name : String}
    (h : package.get? "name" = some (.str name)) :
    isOtherPackage platform (some project) package = true ↔
      normalizeName platform name ≠ normalizeName platform project := by
  simp [isOtherPackage, h]

theorem packageRoots_eq_ok {sourceName : String} {package : TomlTable}
    {roots : Finset DependencyEdge × Finset DependencyEdge}
    (h : packageRoots platform sourceName package = .ok roots) (edge : DependencyEdge) :
    edge ∈ roots.1 ↔ ListsUnder platform "dependencies" package edge := by
  rw [packageRoots, bind_eq_ok_iff] at h
  obtain ⟨dependencies, hdependencies, h⟩ := h
  simp only [bind_eq_ok_iff] at h
  obtain ⟨_, -, _, -, _, -, h⟩ := h
  cases h
  exact mem_dependencyEdgesFromObject hdependencies edge

/-- Every entry is another package or one of the project. -/
theorem WellFormedLock.isVariant (hlock : WellFormedLock platform packages project)
    {package : TomlTable} (h : TomlValue.table package ∈ packages)
    (hproject : isOtherPackage platform (some project) package = false) :
    IsVariant platform packages (normalizeName platform project) package := by
  obtain ⟨name, version, hne, -, hname, -⟩ := hlock.identity package h
  refine ⟨h, name, hne, hname, ?_⟩
  by_contra hother
  rw [(isOtherPackage_iff hname).mpr hother] at hproject
  cases hproject

theorem exists_lockRoots (hwf : WellFormed platform packages)
    (hlock : WellFormedLock platform packages project) :
    ∃ roots, lockRoots platform "uv.lock" (some project) packages = .ok roots ∧
      (roots.1 : Set DependencyEdge) = DefaultRoots platform packages project := by
  have hroots : ∃ roots,
      packages.mapM (entryRoots platform "uv.lock" (some project)) = .ok roots := by
    apply exists_mapM
    intro value hvalue
    obtain ⟨package, rfl, -⟩ := hwf value hvalue
    cases hproject : isOtherPackage platform (some project) package with
    | true => exact ⟨(∅, ∅), by simp [entryRoots, hproject]⟩
    | false => simpa [entryRoots, hproject] using hlock.roots package (hlock.isVariant hvalue hproject)
  obtain ⟨roots, hroots⟩ := hroots
  refine ⟨(unions (roots.map Prod.fst), unions (roots.map Prod.snd)), ?_, ?_⟩
  · rw [lockRoots, hroots, ok_bind]
  ext edge
  simp only [Finset.mem_coe, mem_unions, List.mem_map, exists_exists_and_eq_and,
    mem_mapM_iff hroots]
  constructor
  · rintro ⟨own, ⟨value, hvalue, hown⟩, hedge⟩
    obtain ⟨package, rfl, -⟩ := hwf value hvalue
    cases hproject : isOtherPackage platform (some project) package with
    | true =>
        rw [entryRoots, if_pos hproject] at hown
        cases hown
        simp at hedge
    | false =>
        rw [entryRoots, if_neg (by simp [hproject])] at hown
        exact ⟨package, hlock.isVariant hvalue hproject, (packageRoots_eq_ok hown edge).mp hedge⟩
  · rintro ⟨package, hvariant, hlists⟩
    obtain ⟨own, hown⟩ := hlock.roots package hvariant
    have hproject : isOtherPackage platform (some project) package = false := by
      obtain ⟨-, name, -, hname, hsame⟩ := hvariant
      have hother := mt (isOtherPackage_iff hname).mp (not_not_intro hsame)
      simpa using hother
    exact ⟨own, ⟨.table package, hvariant.1, by simpa [entryRoots, hproject] using hown⟩,
      (packageRoots_eq_ok hown edge).mpr hlists⟩

theorem exists_excludedLockPackageNames (hwf : WellFormed platform packages)
    (hlock : WellFormedLock platform packages project) {payload : TomlTable}
    (hpayload : payload.get? "package" = some (.array packages)) :
    ∃ excluded : Finset String,
      (∀ package name, IsVariant platform packages name package →
        name ≠ normalizeName platform project →
          (name ∉ excluded ↔
            InClosure platform packages (DefaultRoots platform packages project) name)) ∧
      ∀ defaultOrder nonDefaultOrder, ∃ needed, ∀ fuel ≥ needed,
        excludedLockPackageNames platform ⟨fuel, defaultOrder, nonDefaultOrder⟩ "uv.lock"
          (some project) payload = .ok excluded := by
  obtain ⟨byName, hname⟩ := exists_lockPackagesByName hwf
  obtain ⟨roots, hroots, hdefault⟩ := exists_lockRoots hwf hlock
  obtain ⟨closure, hclosure, hrun⟩ := exists_dependencyClosure hwf hname roots.1
  rw [hdefault] at hclosure
  refine ⟨(byName.keys.toFinset \ closure) \ {normalizeName platform project}, ?_, ?_⟩
  · intro package name hvariant hne
    have hkey : name ∈ byName.keys := by
      rw [← get?_isSome_iff]
      have hmem := (mem_variants hname name package).mpr hvariant
      cases hget : byName.get? name with
      | none => simp [hget] at hmem
      | some _ => rfl
    simp [hkey, hne, hclosure]
  · intro defaultOrder nonDefaultOrder
    obtain ⟨needed, hneeded⟩ := hrun defaultOrder
    refine ⟨needed, fun fuel hfuel => ?_⟩
    simp [excludedLockPackageNames, hpayload, hname, hroots, hneeded fuel hfuel]

theorem exists_pinnedFromEntry (hwf : WellFormed platform packages)
    (hlock : WellFormedLock platform packages project) {excluded : Finset String}
    (hexcluded : ∀ package name, IsVariant platform packages name package →
      name ≠ normalizeName platform project → (name ∉ excluded ↔
        InClosure platform packages (DefaultRoots platform packages project) name))
    {value : TomlValue} (hvalue : value ∈ packages) (index : ℕ) :
    ∃ found, pinnedFromEntry platform "uv.lock" (some project) excluded (value, index) = .ok found ∧
      ∀ pair, found = some pair ↔
        ∃ package, value = .table package ∧ Pins platform packages project package pair.1 pair.2 := by
  obtain ⟨package, rfl, hpackage⟩ := hwf value hvalue
  obtain ⟨name, version, hne, hversion, hget, hget'⟩ := hlock.identity package hvalue
  obtain ⟨found, hfound, hpair⟩ := exists_pinnedEntry (hlock.group package hvalue name)
    (hpackage.markers name)
  have hvariant : IsVariant platform packages (normalizeName platform name) package :=
    ⟨hvalue, name, hne, hget, rfl⟩
  refine ⟨found, ?_, fun pair => (hpair pair).trans ?_⟩
  · rw [pinnedFromEntry, packageIdentity_eq_ok hne hversion hget hget', ok_bind]
    exact hfound
  · constructor
    · rintro ⟨rfl, hproject, hregistry, hkept, hoptional, hgroup, hactive⟩
      exact ⟨package, rfl, hvalue, hget, hget', hproject, hregistry, hoptional, hgroup, hactive,
        (hexcluded package _ hvariant hproject).mp hkept⟩
    · rintro ⟨other, hother, hpins⟩
      cases hother
      obtain rfl : name = pair.1 := by simpa [hget] using hpins.name_eq
      obtain rfl : version = pair.2 := by simpa [hget'] using hpins.version_eq
      exact ⟨rfl, hpins.not_project, hpins.registry,
        (hexcluded package _ hvariant hpins.not_project).mpr hpins.in_closure,
        hpins.not_optional, hpins.default_group, hpins.active⟩

/-- The lines of a run are those of the pinned entries, in the order of their names and
versions. -/
theorem exists_pinnedLines (hwf : WellFormed platform packages)
    (hlock : WellFormedLock platform packages project) {payload : TomlTable}
    (hpayload : payload.get? "package" = some (.array packages)) :
    ∃ pinned : List (String × String), pinned.Pairwise (fun a b => toLex a < toLex b) ∧
      (∀ entry, entry ∈ pinned ↔
        ∃ package, Pins platform packages project package entry.1 entry.2) ∧
      ∀ defaultOrder nonDefaultOrder, ∃ needed, ∀ fuel ≥ needed,
        pinnedLinesFromLock platform ⟨fuel, defaultOrder, nonDefaultOrder⟩ "uv.lock"
          (some project) payload = .ok (pinned.map fun entry => entry.1 ++ "==" ++ entry.2) := by
  obtain ⟨excluded, hexcluded, hrun⟩ := exists_excludedLockPackageNames hwf hlock hpayload
  have hentry {value : TomlValue} (hvalue : value ∈ packages) (index : ℕ) :=
    exists_pinnedFromEntry hwf hlock hexcluded hvalue index
  obtain ⟨found, hfound⟩ : ∃ found, packages.zipIdx.mapM
      (pinnedFromEntry platform "uv.lock" (some project) excluded) = .ok found := by
    apply exists_mapM
    rintro ⟨value, index⟩ hvalue
    obtain ⟨one, hone, -⟩ := hentry (List.fst_mem_of_mem_zipIdx hvalue) index
    exact ⟨one, hone⟩
  refine ⟨KeyedSort.sortBy toLex found.reduceOption.dedup, ?_, fun entry => ?_, ?_⟩
  · have hle := KeyedSort.sortBy_pairwise toLex found.reduceOption.dedup
    have hnodup := (KeyedSort.sortBy_perm toLex found.reduceOption.dedup).nodup_iff.mpr
      (List.nodup_dedup _)
    exact (hle.and hnodup).imp fun h => lt_of_le_of_ne h.1 fun heq => h.2 (toLex.injective heq)
  · rw [(KeyedSort.sortBy_perm toLex _).mem_iff, List.mem_dedup, List.reduceOption_mem_iff,
      mem_mapM_iff hfound]
    constructor
    · rintro ⟨⟨value, index⟩, hvalue, hone⟩
      obtain ⟨one, hone', hpair⟩ := hentry (List.fst_mem_of_mem_zipIdx hvalue) index
      rw [hone] at hone'
      cases hone'
      obtain ⟨package, -, hpins⟩ := (hpair entry).mp rfl
      exact ⟨package, hpins⟩
    · rintro ⟨package, hpins⟩
      have hvalue := hpins.mem
      rw [← List.zipIdx_map_fst 0 packages, List.mem_map] at hvalue
      obtain ⟨⟨value, index⟩, hvalue, hpackage⟩ := hvalue
      obtain ⟨one, hone, hpair⟩ := hentry (List.fst_mem_of_mem_zipIdx hvalue) index
      exact ⟨(value, index), hvalue, hone.trans (congrArg _ ((hpair entry).mpr
        ⟨package, hpackage, hpins⟩))⟩
  · intro defaultOrder nonDefaultOrder
    obtain ⟨needed, hneeded⟩ := hrun defaultOrder nonDefaultOrder
    refine ⟨needed, fun fuel hfuel => ?_⟩
    simp only [pinnedLinesFromLock, hpayload, hneeded fuel hfuel, hfound, ok_bind]

end Lines

/-- The closure is what is reached from the roots, and the pinned lines are read off it. Neither
depends on the order in which sets are iterated over. -/
theorem dependencyClosure_least (packages : List TomlValue) (hwf : WellFormed platform packages) :
    ∃ byName, lockPackagesByName platform "uv.lock" packages = .ok byName ∧
      (∀ roots : Finset DependencyEdge, ∃ closure,
        (∀ name, name ∈ closure ↔ InClosure platform packages roots name) ∧
        ∀ order, ∃ needed, ∀ fuel ≥ needed,
          dependencyClosure platform byName "uv.lock" fuel order roots = .ok closure) ∧
      ∀ (project : String) (payload : TomlTable),
        payload.get? "package" = some (.array packages) →
        WellFormedLock platform packages project →
        ∃ pinned : List (String × String), pinned.Pairwise (fun a b => toLex a < toLex b) ∧
          (∀ entry, entry ∈ pinned ↔
            ∃ package, Pins platform packages project package entry.1 entry.2) ∧
          ∀ defaultOrder nonDefaultOrder, ∃ needed, ∀ fuel ≥ needed,
            pinnedLinesFromLock platform ⟨fuel, defaultOrder, nonDefaultOrder⟩ "uv.lock"
              (some project) payload =
                .ok (pinned.map fun entry => entry.1 ++ "==" ++ entry.2) := by
  obtain ⟨byName, hname⟩ := exists_lockPackagesByName hwf
  exact ⟨byName, hname, fun roots => exists_dependencyClosure hwf hname roots,
    fun project payload hpayload hlock => exists_pinnedLines hwf hlock hpayload⟩

/-! A project whose one dependency depends on the project. -/

def posixPlatform : Platform where
  parse _ := some (.compare (.name "os_name") [(.eq, .constant "posix")])
  environment := [("os_name", "posix")]
  lower text := String.ofList (text.toList.map Char.toLower)

def cyclicPackages : List TomlValue :=
  [.table [("name", .str "app"), ("version", .str "0.1"),
      ("dependencies", .array [.table [("name", .str "web"), ("extra", .array [.str "tls"])]])],
    .table [("name", .str "web"), ("version", .str "2.0"), ("dependencies", .array [.str "app"]),
      ("optional-dependencies", .table [("tls", .array [.table [("name", .str "web")]])])]]

theorem wellFormed_cyclicPackages : WellFormed posixPlatform cyclicPackages := by
  intro value hvalue
  simp only [cyclicPackages, List.mem_cons, List.not_mem_nil, or_false] at hvalue
  rcases hvalue with rfl | rfl
  · refine ⟨_, rfl, ⟨fun _ => ⟨_, rfl⟩, fun _ => ⟨_, rfl⟩, fun order packageName extras => ?_⟩⟩
    rw [optionalDependencyEdges]
    split <;> exact ⟨_, rfl⟩
  · refine ⟨_, rfl, ⟨fun _ => ⟨_, rfl⟩, fun _ => ⟨_, rfl⟩, fun order packageName extras => ?_⟩⟩
    rw [optionalDependencyEdges]
    split
    · exact ⟨_, rfl⟩
    · apply exists_bind _ fun _ _ => ⟨_, rfl⟩
      apply exists_mapM
      intro extra _
      rw [get?_ofPairs]
      simp only [List.map_cons, List.map_nil, List.reverse_singleton, List.find?_singleton]
      split <;> exact ⟨_, rfl⟩

theorem wellFormedLock_cyclicPackages : WellFormedLock posixPlatform cyclicPackages "app" where
  identity package hpackage := by
    simp only [cyclicPackages, List.mem_cons, List.not_mem_nil, or_false] at hpackage
    rcases hpackage with h | h
    · cases h
      exact ⟨"app", "0.1", by decide, by decide, rfl, rfl⟩
    · cases h
      exact ⟨"web", "2.0", by decide, by decide, rfl, rfl⟩
  group package hpackage packageName := by
    simp only [cyclicPackages, List.mem_cons, List.not_mem_nil, or_false] at hpackage
    rcases hpackage with h | h <;> cases h <;> exact ⟨_, rfl⟩
  roots package hpackage := by
    have hmem := hpackage.1
    simp only [cyclicPackages, List.mem_cons, List.not_mem_nil, or_false] at hmem
    rcases hmem with h | h <;> cases h <;> exact ⟨_, rfl⟩

theorem dependencyClosure_least_cyclic :
    ∃ pinned : List (String × String),
      (∀ entry, entry ∈ pinned ↔
        ∃ package, Pins posixPlatform cyclicPackages "app" package entry.1 entry.2) ∧
      ∀ defaultOrder nonDefaultOrder, ∃ needed, ∀ fuel ≥ needed,
        pinnedLinesFromLock posixPlatform ⟨fuel, defaultOrder, nonDefaultOrder⟩ "uv.lock"
          (some "app") [("package", .array cyclicPackages)] =
            .ok (pinned.map fun entry => entry.1 ++ "==" ++ entry.2) := by
  obtain ⟨byName, -, -, hlines⟩ :=
    dependencyClosure_least posixPlatform cyclicPackages wellFormed_cyclicPackages
  obtain ⟨pinned, -, hpinned, hrun⟩ :=
    hlines "app" [("package", .array cyclicPackages)] rfl wellFormedLock_cyclicPackages
  exact ⟨pinned, hpinned, hrun⟩

end SemanticCi.Dependencies
