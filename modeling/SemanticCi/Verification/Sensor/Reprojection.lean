import SemanticCi.Library.KeyedSort
import SemanticCi.Model.AdvisoryReprojection
import SemanticCi.Verification.Extraction.DottedNames
import SemanticCi.Verification.Sensor.Adapters

/-! The advisory re-projection against the sites that the findings really had before the
change. The package root strips the same number of leading components from both names of a
renamed file; the code guesses that number from what the two names have in common. -/

namespace SemanticCi.Sensor

open KeyedSort OrderedDict Python Ssp StateSchema Extraction

/-! ## Dotted names -/

/-- The name is the module's, or of a symbol in it, with this rest after the module. -/
def InModule (module name rest : String) : Prop :=
  name = module ++ rest ∧ (rest = "" ∨ rest.toList.head? = some '.')

/-- The name is a proper front of the other, up to a dot. -/
def Encloses (outer inner : String) : Prop := ∃ rest, inner = outer ++ "." ++ rest

/-- The fronts that the loop over the enclosing names visits. -/
theorem encloses_iff (outer inner : String) :
    Encloses outer inner ↔ ∃ index, 0 < index ∧ index < (splitDots inner).length ∧
      ".".intercalate ((splitDots inner).take index) = outer := by
  constructor
  · rintro ⟨rest, rfl⟩
    refine ⟨(splitDots outer).length, ?_, ?_, ?_⟩
    · exact List.length_pos_iff.mpr (splitDots_ne_nil outer)
    · rw [splitDots_append, List.length_append]
      have := List.length_pos_iff.mpr (splitDots_ne_nil rest)
      omega
    · rw [splitDots_append, List.take_left, join_splitDots]
  · rintro ⟨index, hpos, hlt, rfl⟩
    refine ⟨".".intercalate ((splitDots inner).drop index), ?_⟩
    have htake : (splitDots inner).take index ≠ [] := by
      rw [Ne, List.take_eq_nil_iff]
      exact not_or.mpr ⟨by omega, splitDots_ne_nil inner⟩
    have hdrop : (splitDots inner).drop index ≠ [] := by
      rw [Ne, List.drop_eq_nil_iff]
      omega
    rw [← String.intercalate_append_of_ne_nil htake hdrop, List.take_append_drop, join_splitDots]

/-! ## Unguarded sites -/

/-- The baseline has an entry of this name, no variant of it carries a guard, and neither does
a class around it. -/
structure Unguarded (baseline : CodeState) (guards : List String) (fqn : String) : Prop where
  present : ∃ entry ∈ baseline.apiSurface, entry.fqn = fqn
  variants : ∀ entry ∈ baseline.apiSurface, entry.fqn = fqn →
    hasGuardDecorator entry guards = false
  classes : ∀ entry ∈ baseline.apiSurface, entry.kind = "class" → Encloses entry.fqn fqn →
    hasGuardDecorator entry guards = false

theorem sites_eq_filter (entries : List APISurfaceEntry) (fqn : String) :
    ((entriesByFqn entries).get? fqn).getD [] = entries.filter fun entry => entry.fqn = fqn :=
  getD_groupBy _ entries fqn

theorem mem_enclosingEntries (entries : List APISurfaceEntry) (fqn : String)
    (entry : APISurfaceEntry) : entry ∈ enclosingEntries fqn (entriesByFqn entries) ↔
      entry ∈ entries ∧ entry.kind = "class" ∧ Encloses entry.fqn fqn := by
  simp only [enclosingEntries, sites_eq_filter, List.mem_flatMap, List.mem_filter,
    List.mem_reverse, List.mem_range, decide_eq_true_eq, encloses_iff]
  constructor
  · rintro ⟨index, ⟨hlt, hpos⟩, ⟨hentry, hfqn⟩, hkind⟩
    exact ⟨hentry, hkind, index, hpos, hlt, hfqn.symm⟩
  · rintro ⟨hentry, hkind, index, hpos, hlt, hfqn⟩
    exact ⟨index, ⟨hlt, hpos⟩, ⟨hentry, hfqn.symm⟩, hkind⟩

/-- What the code tests of the entries of one name. -/
theorem unguarded_iff (baseline : CodeState) (guards : List String) (fqn : String) :
    Unguarded baseline guards fqn ↔
      (baseline.apiSurface.filter fun entry => entry.fqn = fqn) ≠ [] ∧
      hasGuardDecoratorInScope (baseline.apiSurface.filter fun entry => entry.fqn = fqn)
        (entriesByFqn baseline.apiSurface) guards = false := by
  simp only [hasGuardDecoratorInScope, Bool.or_eq_false_iff, List.any_eq_false,
    mem_enclosingEntries, List.mem_filter, decide_eq_true_eq, Bool.not_eq_true, ne_eq,
    List.filter_eq_nil_iff]
  push Not
  constructor
  · rintro ⟨⟨entry, hentry, hfqn⟩, hvariants, hclasses⟩
    refine ⟨⟨entry, hentry, hfqn⟩, fun e he => hvariants e he.1 he.2, ?_⟩
    rintro e ⟨_, rfl⟩ c ⟨hc, hkind, hencloses⟩
    exact hclasses c hc hkind hencloses
  · rintro ⟨⟨entry, hentry, hfqn⟩, hvariants, hclasses⟩
    refine ⟨⟨entry, hentry, hfqn⟩, fun e he heq => hvariants e ⟨he, heq⟩, ?_⟩
    intro c hc hkind hencloses
    exact hclasses entry ⟨hentry, hfqn⟩ c ⟨hc, hkind, by rwa [hfqn]⟩

/-! ## The guessed site -/

theorem inModule_iff (module name rest : String) : InModule module name rest ↔
    (name = module ∧ rest = "") ∨ ((module ++ ".").toList.isPrefixOf name.toList = true ∧
      rest = String.ofList (name.toList.drop module.length)) := by
  have hdot : ".".toList = ['.'] := rfl
  rw [List.isPrefixOf_iff_prefix, String.toList_append, hdot]
  constructor
  · rintro ⟨rfl, rfl | hhead⟩
    · exact .inl ⟨String.append_empty, rfl⟩
    · refine .inr ⟨?_, ?_⟩
      · rw [String.toList_append, List.prefix_append_right_inj]
        obtain ⟨tail, htail⟩ := List.head?_eq_some_iff.mp hhead
        exact ⟨tail, htail.symm⟩
      · rw [String.toList_append, ← String.length_toList, List.drop_left, String.ofList_toList]
  · rintro (⟨rfl, rfl⟩ | ⟨⟨tail, htail⟩, rfl⟩)
    · exact ⟨String.append_empty.symm, .inl rfl⟩
    · rw [List.append_assoc] at htail
      have hdrop : name.toList.drop module.length = '.' :: tail := by
        rw [← htail, ← String.length_toList, List.drop_left]
        rfl
      refine ⟨?_, .inr (by simp [hdrop])⟩
      rw [← String.toList_inj, String.toList_append, String.toList_ofList, hdrop, ← htail]
      rfl

/-- A common length of suffixes of the two names whose module contains the symbol, with what
the symbol would have been called in the old file. -/
structure SuffixSite (name : String) (newParts oldParts : List String) (length : ℕ)
    (site : String) : Prop where
  pos : 0 < length
  inModule : ∃ rest, InModule (suffixModule newParts length) name rest ∧
    site = suffixModule oldParts length ++ rest

theorem remapFrom_eq_some_iff (name : String) (newParts oldParts : List String) (bound : ℕ)
    (site : String) : remapFrom name newParts oldParts bound = some site ↔
      ∃ length ≤ bound, SuffixSite name newParts oldParts length site ∧
        ∀ longer ≤ bound, length < longer → ∀ rest,
          ¬ InModule (suffixModule newParts longer) name rest := by
  induction bound with
  | zero =>
      simp only [remapFrom, reduceCtorEq, false_iff]
      rintro ⟨length, hle, hsite, -⟩
      have := hsite.pos
      omega
  | succ bound ih =>
      by_cases hin : ∃ rest, InModule (suffixModule newParts (bound + 1)) name rest
      · obtain ⟨rest, hrest⟩ := hin
        have hvalue : remapFrom name newParts oldParts (bound + 1) =
            some (suffixModule oldParts (bound + 1) ++ rest) := by
          rw [remapFrom]
          rcases (inModule_iff _ _ _).mp hrest with ⟨heq, rfl⟩ | ⟨hbelow, rfl⟩
          · rw [if_pos heq, String.append_empty]
          · have hne : name ≠ suffixModule newParts (bound + 1) := by
              intro heq
              rw [List.isPrefixOf_iff_prefix, heq] at hbelow
              have := hbelow.length_le
              simp at this
            rw [if_neg hne, if_pos hbelow]
        rw [hvalue, Option.some.injEq]
        constructor
        · rintro rfl
          refine ⟨bound + 1, le_refl _, ⟨by omega, rest, hrest, rfl⟩, ?_⟩
          intro longer hle hlt
          omega
        · rintro ⟨length, hle, hsite, hlongest⟩
          have hlength : length = bound + 1 := by
            by_contra hne
            exact hlongest (bound + 1) (le_refl _) (by omega) rest hrest
          subst hlength
          obtain ⟨rest', hrest', rfl⟩ := hsite.inModule
          have hsame : suffixModule newParts (bound + 1) ++ rest =
              suffixModule newParts (bound + 1) ++ rest' := hrest.1.symm.trans hrest'.1
          rw [(String.append_right_inj _).mp hsame]
      · have hnext : remapFrom name newParts oldParts (bound + 1) =
            remapFrom name newParts oldParts bound := by
          rw [remapFrom]
          have hnone (rest : String) := mt (inModule_iff _ _ rest).mpr fun h => hin ⟨rest, h⟩
          have hne : name ≠ suffixModule newParts (bound + 1) := fun h =>
            hnone "" (.inl ⟨h, rfl⟩)
          have hprefix := fun h => hnone _ (.inr ⟨h, rfl⟩)
          rw [if_neg hne, if_neg hprefix]
        rw [hnext, ih]
        constructor
        · rintro ⟨length, hle, hsite, hlongest⟩
          refine ⟨length, by omega, hsite, fun longer hlonger hlt rest hrest => ?_⟩
          by_cases heq : longer = bound + 1
          · exact hin ⟨rest, heq ▸ hrest⟩
          · exact hlongest longer (by omega) hlt rest hrest
        · rintro ⟨length, hle, hsite, hlongest⟩
          obtain ⟨rest, hrest, -⟩ := hsite.inModule
          have hlt : length ≠ bound + 1 := fun heq => hin ⟨rest, heq ▸ hrest⟩
          exact ⟨length, by omega, hsite, fun longer hlonger => hlongest longer (by omega)⟩

/-- Where the code looks for a symbol of a renamed file: under the longest common length of
suffixes whose module contains it. -/
def GuessedSite (name newPath oldPath site : String) : Prop :=
  ∃ length ≤ min (modulePathParts newPath).length (modulePathParts oldPath).length,
    SuffixSite name (modulePathParts newPath) (modulePathParts oldPath) length site ∧
      ∀ longer ≤ min (modulePathParts newPath).length (modulePathParts oldPath).length,
        length < longer → ∀ rest,
          ¬ InModule (suffixModule (modulePathParts newPath) longer) name rest

theorem remapRenamedFqn_eq_some_iff (name newPath oldPath site : String) :
    remapRenamedFqn name newPath oldPath = some site ↔ GuessedSite name newPath oldPath site :=
  remapFrom_eq_some_iff ..

/-! ## Sites of a finding -/

section Sites

variable {Digest : Type} {digest : List Component → Digest}

/-- The site that the code takes for the finding's. -/
inductive ResolvedSite (baseline : CodeState) (renames : List RenameEntry)
    (f : LLMSecurityFinding digest) : String → Prop where
  | same (h : ∃ entry ∈ baseline.apiSurface, entry.fqn = f.qualifiedName) :
      ResolvedSite baseline renames f f.qualifiedName
  | renamed {oldPath site : String}
      (hnone : ∀ entry ∈ baseline.apiSurface, entry.fqn ≠ f.qualifiedName)
      (hrename : (oldPathByNewPath renames).get? (posixPath f.modulePath) = some oldPath)
      (hguess : GuessedSite f.qualifiedName f.modulePath oldPath site) :
      ResolvedSite baseline renames f site

theorem ResolvedSite.unique {baseline : CodeState} {renames : List RenameEntry}
    {f : LLMSecurityFinding digest} {site site' : String}
    (h : ResolvedSite baseline renames f site) (h' : ResolvedSite baseline renames f site') :
    site = site' := by
  cases h with
  | same hsome =>
      cases h' with
      | same => rfl
      | renamed hnone =>
          obtain ⟨entry, hentry, heq⟩ := hsome
          exact absurd heq (hnone entry hentry)
  | renamed hnone hrename hguess =>
      cases h' with
      | same hsome =>
          obtain ⟨entry, hentry, heq⟩ := hsome
          exact absurd heq (hnone entry hentry)
      | renamed _ hrename' hguess' =>
          rw [hrename, Option.some.injEq] at hrename'
          subst hrename'
          rw [← remapRenamedFqn_eq_some_iff] at hguess hguess'
          exact Option.some.inj (hguess.symm.trans hguess')

theorem resolveBaselineSites_eq (baseline : CodeState) (renames : List RenameEntry)
    (f : LLMSecurityFinding digest) :
    (∃ site, ResolvedSite baseline renames f site ∧
      resolveBaselineSites f (entriesByFqn baseline.apiSurface) (oldPathByNewPath renames) =
        baseline.apiSurface.filter fun entry => entry.fqn = site) ∨
    ((∀ site, ¬ ResolvedSite baseline renames f site) ∧
      resolveBaselineSites f (entriesByFqn baseline.apiSurface) (oldPathByNewPath renames) =
        []) := by
  unfold resolveBaselineSites
  simp only [sites_eq_filter, ne_eq, ite_not]
  by_cases hdirect : (baseline.apiSurface.filter fun entry => entry.fqn = f.qualifiedName) = []
  · rw [if_pos hdirect]
    have hnone : ∀ entry ∈ baseline.apiSurface, entry.fqn ≠ f.qualifiedName := by
      simpa using hdirect
    have hrenamed {site : String} (h : ResolvedSite baseline renames f site) : ∃ oldPath,
        (oldPathByNewPath renames).get? (posixPath f.modulePath) = some oldPath ∧
          GuessedSite f.qualifiedName f.modulePath oldPath site := by
      cases h with
      | same h =>
          obtain ⟨entry, hentry, heq⟩ := h
          exact absurd heq (hnone entry hentry)
      | renamed _ hrename hguess => exact ⟨_, hrename, hguess⟩
    cases hrename : (oldPathByNewPath renames).get? (posixPath f.modulePath) with
    | none =>
        refine .inr ⟨fun site h => ?_, rfl⟩
        obtain ⟨oldPath, hold, -⟩ := hrenamed h
        rw [hrename] at hold
        cases hold
    | some oldPath =>
        cases hremap : remapRenamedFqn f.qualifiedName f.modulePath oldPath with
        | none =>
            refine .inr ⟨fun site h => ?_, by simp only [hremap]⟩
            obtain ⟨oldPath', hold, hguess⟩ := hrenamed h
            rw [hrename, Option.some.injEq] at hold
            subst hold
            rw [← remapRenamedFqn_eq_some_iff, hremap] at hguess
            cases hguess
        | some site =>
            refine .inl ⟨site, ?_, by simp only [hremap]⟩
            exact .renamed hnone hrename ((remapRenamedFqn_eq_some_iff ..).mp hremap)
  · rw [if_neg hdirect]
    refine .inl ⟨f.qualifiedName, .same ?_, rfl⟩
    simpa using hdirect

/-- What puts a finding among the pre-existing ones. -/
theorem alreadyInBaseline_iff (baseline : CodeState) (renames : List RenameEntry)
    (f : LLMSecurityFinding digest) :
    alreadyInBaseline f (entriesByFqn baseline.apiSurface) (oldPathByNewPath renames) = true ↔
      f.anchorKind = .absence ∧ ∃ guards,
        absenceGuardDecorators.lookup f.findingClass = some guards ∧
        ∃ site, ResolvedSite baseline renames f site ∧ Unguarded baseline guards site := by
  unfold alreadyInBaseline
  cases hkind : f.anchorKind with
  | presence => simp
  | absence =>
      cases hclass : absenceGuardDecorators.lookup f.findingClass with
      | none => simp
      | some guards =>
          simp only [reduceCtorEq, if_false, Option.some.injEq, exists_eq_left', true_and]
          rcases resolveBaselineSites_eq baseline renames f with ⟨site, hsite, heq⟩ | ⟨hno, heq⟩
          · have hunguarded := unguarded_iff baseline guards site
            rw [heq]
            constructor
            · intro h
              split at h
              · cases h
              · rename_i hne
                exact ⟨site, hsite, hunguarded.mpr ⟨hne, by simpa using h⟩⟩
            · rintro ⟨site', hsite', h⟩
              obtain rfl := hsite.unique hsite'
              obtain ⟨hne, hscope⟩ := hunguarded.mp h
              rw [if_neg hne, hscope]
              rfl
          · simp [heq, hno]

/-! ## True sites -/

/-- The components of a path. -/
def pathComponents (path : String) : List String :=
  ((removePrefix "./" (posixPath path)).toList.splitOn '/').map String.ofList

/-- The module of a file of the checkout, below a package root that takes `k` leading
components. The `__init__.py` of the package root has the root's own name. -/
def moduleBelow (checkout : PurePath) (k : ℕ) (path : String) : String :=
  let components := pathComponents path
  let parts := moduleParts (components.drop k)
  ".".intercalate (if parts = [] then [PurePath.name (checkout ++ components.take k)] else parts)

/-- The baseline site of a finding, below a package root that takes `k` leading components off
both names of a renamed file. -/
inductive TrueSite (checkout : PurePath) (k : ℕ) (renames : List RenameEntry)
    (f : LLMSecurityFinding digest) : String → Prop where
  | same : TrueSite checkout k renames f f.qualifiedName
  | renamed {rename : RenameEntry} {rest : String} (hmem : rename ∈ renames)
      (hpath : posixPath rename.newPath = posixPath f.modulePath)
      (hnew : k < (pathComponents rename.newPath).length)
      (hold : k < (pathComponents rename.oldPath).length)
      (hmodule : InModule (moduleBelow checkout k rename.newPath) f.qualifiedName rest) :
      TrueSite checkout k renames f (moduleBelow checkout k rename.oldPath ++ rest)

/-- An absence finding of a class with known guards whose true baseline site is unguarded. -/
structure Justified (checkout : PurePath) (k : ℕ) (baseline : CodeState) (renames : List RenameEntry)
    (f : LLMSecurityFinding digest) : Prop where
  absence : f.anchorKind = .absence
  unguarded : ∃ guards, absenceGuardDecorators.lookup f.findingClass = some guards ∧
    ∃ site, TrueSite checkout k renames f site ∧ Unguarded baseline guards site

/-- The longest common suffixes of the two names of the renamed file lead to an unguarded
entry, while the true site is missing or guarded. -/
structure Misled (checkout : PurePath) (k : ℕ) (baseline : CodeState) (renames : List RenameEntry)
    (f : LLMSecurityFinding digest) : Prop where
  absence : f.anchorKind = .absence
  gone : ∀ entry ∈ baseline.apiSurface, entry.fqn ≠ f.qualifiedName
  guess : ∃ guards, absenceGuardDecorators.lookup f.findingClass = some guards ∧
    (∃ oldPath site, (oldPathByNewPath renames).get? (posixPath f.modulePath) = some oldPath ∧
      GuessedSite f.qualifiedName f.modulePath oldPath site ∧ Unguarded baseline guards site) ∧
    ∀ site, TrueSite checkout k renames f site → ¬ Unguarded baseline guards site

section Justification

variable {checkout : PurePath} {k : ℕ} {baseline : CodeState} {renames : List RenameEntry}

theorem justified_iff_not_misled {f : LLMSecurityFinding digest}
    (h : alreadyInBaseline f (entriesByFqn baseline.apiSurface) (oldPathByNewPath renames) =
      true) : Justified checkout k baseline renames f ↔ ¬ Misled checkout k baseline renames f := by
  obtain ⟨habsence, guards, hguards, site, hsite, hunguarded⟩ :=
    (alreadyInBaseline_iff baseline renames f).mp h
  constructor
  · rintro ⟨-, guards', hguards', trueSite, htrue, htrueUnguarded⟩ ⟨-, -, guards'', hguards'', -, hno⟩
    rw [hguards'] at hguards''
    cases hguards''
    exact hno trueSite htrue htrueUnguarded
  · intro hnot
    refine ⟨habsence, guards, hguards, ?_⟩
    cases hsite with
    | same => exact ⟨_, .same, hunguarded⟩
    | @renamed oldPath site hnone hrename hguess =>
        by_contra hno
        push Not at hno
        exact hnot ⟨habsence, hnone, guards, hguards,
          ⟨oldPath, site, hrename, hguess, hunguarded⟩, hno⟩

theorem misled_alreadyInBaseline {f : LLMSecurityFinding digest}
    (h : Misled checkout k baseline renames f) :
    alreadyInBaseline f (entriesByFqn baseline.apiSurface) (oldPathByNewPath renames) = true := by
  obtain ⟨habsence, hgone, guards, hguards, ⟨oldPath, site, hrename, hguess, hunguarded⟩, -⟩ := h
  rw [alreadyInBaseline_iff]
  exact ⟨habsence, guards, hguards, site, .renamed hgone hrename hguess, hunguarded⟩

end Justification

/-- Findings with one canonical id are about the same site. -/
theorem alreadyInBaseline_of_canonicalId (hdigest : Function.Injective digest)
    {f g : LLMSecurityFinding digest} (h : f.canonicalId = g.canonicalId)
    (baselineByFqn : OrderedDict String (List APISurfaceEntry))
    (renameOldByNew : OrderedDict String String) :
    alreadyInBaseline f baselineByFqn renameOldByNew =
      alreadyInBaseline g baselineByFqn renameOldByNew := by
  have hid (f : LLMSecurityFinding digest) :
      f.canonicalId = toLex ("v1", digest (f.identityComponents.map Sum.inlₗ)) := by
    have hok := f.canonicalId_eq
    rw [f.identity_eq] at hok ⊢
    exact (Except.ok.inj hok).symm
  rw [hid f, hid g, EmbeddingLike.apply_eq_iff_eq, Prod.mk.injEq, hdigest.eq_iff] at h
  have hcomponents : f.identityComponents = g.identityComponents := by
    refine List.map_injective_iff.mpr ?_ h.2
    intro s t hst
    exact Sum.inl.inj (toLex.injective hst)
  rw [f.identity_eq, g.identity_eq] at hcomponents
  simp only [List.cons.injEq, true_and, and_true] at hcomponents
  obtain ⟨-, hclass, hpath, hname, hkind, -⟩ := hcomponents
  have hanchor : f.anchorKind = g.anchorKind := by
    cases hf : f.anchorKind <;> cases hg : g.anchorKind <;>
      first | rfl | (rw [hf, hg] at hkind; exact absurd hkind (by decide))
  have hsites : resolveBaselineSites f baselineByFqn renameOldByNew =
      resolveBaselineSites g baselineByFqn renameOldByNew := by
    unfold resolveBaselineSites
    rw [hname, hpath]
  unfold alreadyInBaseline
  rw [hanchor, hclass, hsites]

/-! ## The split -/

section Split

variable [LinearOrder Digest]

/-- The findings are split without loss, whatever their order, and only justified ones count
as pre-existing. -/
structure RecallFirst (checkout : PurePath) (k : ℕ) (findings : List (LLMSecurityFinding digest))
    (baseline : CodeState) (renames : List RenameEntry) : Prop where
  split : ((computeAdvisoryReprojection findings baseline renames).added ++
    (computeAdvisoryReprojection findings baseline renames).preExisting).Perm findings
  orderFree : ∀ findings' : List (LLMSecurityFinding digest), findings'.Perm findings →
    computeAdvisoryReprojection findings' baseline renames =
      computeAdvisoryReprojection findings baseline renames
  justified : ∀ f ∈ (computeAdvisoryReprojection findings baseline renames).preExisting,
    Justified checkout k baseline renames f

theorem sortLLMFindings_perm (findings : List (LLMSecurityFinding digest)) :
    (sortLLMFindings findings).Perm findings := List.perm_insertionSort ..

theorem split_perm (findings : List (LLMSecurityFinding digest)) (baseline : CodeState)
    (renames : List RenameEntry) :
    ((computeAdvisoryReprojection findings baseline renames).added ++
      (computeAdvisoryReprojection findings baseline renames).preExisting).Perm findings := by
  refine ((sortLLMFindings_perm _).append (sortLLMFindings_perm _)).trans ?_
  refine List.perm_append_comm.trans ?_
  exact List.filter_append_perm _ findings

theorem mem_preExisting (findings : List (LLMSecurityFinding digest)) (baseline : CodeState)
    (renames : List RenameEntry) (f : LLMSecurityFinding digest) :
    f ∈ (computeAdvisoryReprojection findings baseline renames).preExisting ↔ f ∈ findings ∧
      alreadyInBaseline f (entriesByFqn baseline.apiSurface) (oldPathByNewPath renames) =
        true := by
  rw [computeAdvisoryReprojection, (sortLLMFindings_perm _).mem_iff, List.mem_filter]

theorem eq_of_orderFree (hdigest : Function.Injective digest)
    {findings : List (LLMSecurityFinding digest)} {baseline : CodeState}
    {renames : List RenameEntry}
    (h : ∀ findings' : List (LLMSecurityFinding digest), findings'.Perm findings →
      computeAdvisoryReprojection findings' baseline renames =
        computeAdvisoryReprojection findings baseline renames)
    {f g : LLMSecurityFinding digest} (hf : f ∈ findings) (hg : g ∈ findings)
    (hid : f.canonicalId = g.canonicalId) : f = g := by
  by_contra hne
  obtain ⟨rest, hperm, hswap⟩ := exists_perm_two_front hf hg hne
  have hequal := (h _ hperm).trans (h _ hswap).symm
  have hclass (p : LLMSecurityFinding digest → Bool) (hp : p f = p g) (hpf : p f = true)
      (hsorted : sortLLMFindings ((f :: g :: rest).filter p) =
        sortLLMFindings ((g :: f :: rest).filter p)) : f = g := by
    have hmap := map_filter_of_map_sortBy LLMSecurityFinding.canonicalId
      ((List.Perm.swap g f rest).filter p) id (congrArg (List.map id) hsorted) f.canonicalId
    simp only [List.map_id, List.filter_cons, hpf, ← hp, if_true, hid, decide_true] at hmap
    exact (List.cons.inj hmap).1
  have hsame := alreadyInBaseline_of_canonicalId hdigest hid (entriesByFqn baseline.apiSurface)
    (oldPathByNewPath renames)
  cases halready : alreadyInBaseline f (entriesByFqn baseline.apiSurface)
      (oldPathByNewPath renames) with
  | true => exact hne (hclass _ hsame halready (congrArg AdvisoryReprojection.preExisting hequal))
  | false =>
      refine hne (hclass (fun finding => !alreadyInBaseline finding
        (entriesByFqn baseline.apiSurface) (oldPathByNewPath renames)) (by rw [hsame])
        (by simp [halready]) (congrArg AdvisoryReprojection.added hequal))

/-- The split of a permuted list is the same up to the order inside the two parts. It is the
same, and only justified findings are pre-existing, exactly when findings with one canonical
id are equal and no finding is misled by the names of its renamed file. -/
theorem reprojection_recallFirst_iff (hdigest : Function.Injective digest)
    (checkout : PurePath) (k : ℕ) (findings : List (LLMSecurityFinding digest))
    (baseline : CodeState) (renames : List RenameEntry) :
    (∀ findings' : List (LLMSecurityFinding digest), findings'.Perm findings →
      (computeAdvisoryReprojection findings' baseline renames).added.Perm
        (computeAdvisoryReprojection findings baseline renames).added ∧
      (computeAdvisoryReprojection findings' baseline renames).preExisting.Perm
        (computeAdvisoryReprojection findings baseline renames).preExisting) ∧
    (RecallFirst checkout k findings baseline renames ↔
      (∀ f ∈ findings, ∀ g ∈ findings, f.canonicalId = g.canonicalId → f = g) ∧
        ∀ f ∈ findings, ¬ Misled checkout k baseline renames f) := by
  refine ⟨fun findings' hperm => ?_, ?_⟩
  · have hpart (p : LLMSecurityFinding digest → Bool) :
        (sortLLMFindings (findings'.filter p)).Perm (sortLLMFindings (findings.filter p)) :=
      (sortLLMFindings_perm _).trans ((hperm.filter p).trans (sortLLMFindings_perm _).symm)
    exact ⟨hpart _, hpart _⟩
  · constructor
    · intro h
      refine ⟨fun f hf g hg => eq_of_orderFree hdigest h.orderFree hf hg, fun f hf hmisled => ?_⟩
      have halready := misled_alreadyInBaseline hmisled
      have hjustified := h.justified f ((mem_preExisting ..).mpr ⟨hf, halready⟩)
      exact (justified_iff_not_misled halready).mp hjustified hmisled
    · rintro ⟨hties, hnot⟩
      refine ⟨split_perm .., fun findings' hperm => ?_, fun f hf => ?_⟩
      · have hpart (p : LLMSecurityFinding digest → Bool) :
            sortLLMFindings (findings'.filter p) = sortLLMFindings (findings.filter p) := by
          apply sortBy_eq_of_perm LLMSecurityFinding.canonicalId (hperm.filter p)
          intro f hf g hg
          exact hties f (hperm.mem_iff.mp (List.mem_filter.mp hf).1) g
            (hperm.mem_iff.mp (List.mem_filter.mp hg).1)
        simp only [computeAdvisoryReprojection, hpart]
      · obtain ⟨hmem, halready⟩ := (mem_preExisting ..).mp hf
        exact (justified_iff_not_misled halready).mpr (hnot f hmem)

end Split

end Sites

/-! ## A file moved one directory up -/

def movedRename : RenameEntry where
  oldPath := "src/pkg/x/b.py"
  newPath := "src/pkg/b.py"

/-- The function in the moved file had its guard; one of the same name elsewhere had none. -/
def movedBaseline : CodeState where
  apiSurface := [
    { fqn := "pkg.x.b.f", kind := "function", decorators := ["login_required"] },
    { fqn := "x.b.f", kind := "function" }]

def movedFinding : LLMSecurityFinding (id : List Component → List Component) where
  sensorId := "codex-security/codex"
  canonicalId := toLex ("v1", (["v1", "llm", "codex-security/codex", "missing-authz",
    "src/pkg/b.py", "pkg.b.f", "absence", "login required", "0"] : List String).map Sum.inlₗ)
  identityComponents := ["v1", "llm", "codex-security/codex", "missing-authz", "src/pkg/b.py",
    "pkg.b.f", "absence", "login required", "0"]
  severity := .high
  findingClass := "missing-authz"
  modulePath := "src/pkg/b.py"
  qualifiedName := "pkg.b.f"
  anchorKind := .absence
  expectedProperty := "login required"
  ordinal := 0
  sensorId_ne := by decide
  findingClass_ne := by decide
  modulePath_ne := by decide
  modulePath_posix := by decide
  qualifiedName_ne := by decide
  canonicalId_eq := rfl
  identity_eq := rfl
  absence_iff := by decide

theorem movedFinding_recallFirst_iff :
    RecallFirst [] 1 [movedFinding] movedBaseline [movedRename] ↔
      (∀ f ∈ [movedFinding], ∀ g ∈ [movedFinding], f.canonicalId = g.canonicalId → f = g) ∧
        ∀ f ∈ [movedFinding], ¬ Misled [] 1 movedBaseline [movedRename] f :=
  (reprojection_recallFirst_iff Function.injective_id [] 1 [movedFinding] movedBaseline
    [movedRename]).2

theorem movedFinding_alreadyInBaseline : alreadyInBaseline movedFinding
    (entriesByFqn movedBaseline.apiSurface) (oldPathByNewPath [movedRename]) = true := by
  decide +kernel

theorem movedFinding_trueSite {site : String}
    (h : TrueSite [] 1 [movedRename] movedFinding site) : site ∈ ["pkg.b.f", "pkg.x.b.f"] := by
  cases h with
  | same => exact List.mem_cons_self
  | @renamed rename rest hmem hpath hnew hold hmodule =>
      obtain rfl := List.mem_singleton.mp hmem
      have hnewModule : moduleBelow [] 1 movedRename.newPath = "pkg.b" := by decide +kernel
      have holdModule : moduleBelow [] 1 movedRename.oldPath = "pkg.x.b" := by decide +kernel
      rw [hnewModule] at hmodule
      have hrest : "pkg.b" ++ ".f" = "pkg.b" ++ rest := hmodule.1
      rw [String.append_right_inj] at hrest
      rw [holdModule, ← hrest]
      decide

/-- The guard of `pkg.x.b.f` is gone from `pkg.b.f`, and the finding that says so is reported
as pre-existing: `x.b.f` stands in for the function that was moved. -/
theorem movedFinding_not_recallFirst :
    ¬ RecallFirst [] 1 [movedFinding] movedBaseline [movedRename] := by
  intro h
  have hmem := (mem_preExisting [movedFinding] movedBaseline [movedRename] movedFinding).mpr
    ⟨List.mem_cons_self, movedFinding_alreadyInBaseline⟩
  obtain ⟨guards, hguards, site, hsite, hunguarded⟩ := (h.justified movedFinding hmem).unguarded
  have hknown : absenceGuardDecorators.lookup movedFinding.findingClass = some
      ["authenticated", "login_required", "permission_required", "requires_auth"] := by decide
  rw [hknown, Option.some.injEq] at hguards
  subst hguards
  have hsites := movedFinding_trueSite hsite
  simp only [List.mem_cons, List.not_mem_nil, or_false] at hsites
  rcases hsites with rfl | rfl
  · exact absurd hunguarded.present (by decide)
  · exact absurd (hunguarded.variants _ List.mem_cons_self rfl) (by decide)

end SemanticCi.Sensor
