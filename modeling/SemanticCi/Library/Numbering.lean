import Mathlib.Data.Finset.Card
import Mathlib.Data.List.Nodup
import Mathlib.Data.Nat.Nth

/-! Numbers in groups. Some of the requests for a number name their own, and the others get the
smallest numbers of their group that no request names. -/

namespace Numbering

/-! ## Free numbers -/

/-- The smallest number from some on that is not taken. -/
def nextFree (n : ℕ) (taken : Finset ℕ) : ℕ :=
  if n ∈ taken then nextFree (n + 1) taken else n
termination_by (taken.filter (n ≤ ·)).card
decreasing_by
  rename_i hn
  apply Finset.card_lt_card
  refine Finset.ssubset_iff_subset_ne.mpr ⟨?_, ?_⟩
  · intro m hm
    rw [Finset.mem_filter] at hm ⊢
    exact ⟨hm.1, by omega⟩
  · intro heq
    have hmem : n ∈ taken.filter (n ≤ ·) := Finset.mem_filter.mpr ⟨hn, le_rfl⟩
    rw [← heq, Finset.mem_filter] at hmem
    omega

theorem nextFree_spec (n : ℕ) (taken : Finset ℕ) :
    n ≤ nextFree n taken ∧ nextFree n taken ∉ taken ∧
      ∀ m, n ≤ m → m < nextFree n taken → m ∈ taken := by
  fun_induction nextFree n taken with
  | case1 n hn ih =>
    obtain ⟨hle, hfree, hbelow⟩ := ih
    refine ⟨by omega, hfree, fun m hnm hm => ?_⟩
    rcases Nat.eq_or_lt_of_le hnm with rfl | hlt
    · exact hn
    · exact hbelow m hlt hm
  | case2 n hn => exact ⟨le_rfl, hn, fun m hnm hm => by omega⟩

theorem infinite_free (named : Finset ℕ) : (Set.ofPred fun n => n ∉ named).Infinite :=
  (Finset.finite_toSet named).infinite_compl

/-- How many numbers below a number are free. -/
abbrev freeBelow (named : Finset ℕ) (n : ℕ) : ℕ := Nat.count (fun m => m ∉ named) n

/-- The free numbers, in order. -/
noncomputable abbrev nthFree (named : Finset ℕ) (k : ℕ) : ℕ := Nat.nth (fun m => m ∉ named) k

theorem freeBelow_eq_of_named {named : Finset ℕ} {n m : ℕ} (hle : n ≤ m)
    (h : ∀ i, n ≤ i → i < m → i ∈ named) : freeBelow named m = freeBelow named n := by
  induction m, hle using Nat.le_induction with
  | base => rfl
  | succ m hle ih =>
    have hm : ¬ m ∉ named := not_not.mpr (h m hle (Nat.lt_succ_self m))
    rw [freeBelow, Nat.count_succ, if_neg hm, Nat.add_zero]
    exact ih fun i hi him => h i hi (Nat.lt_succ_of_lt him)

/-- Where the numbers from some on are taken that are named, the next free one is the first
free number there. -/
theorem nextFree_eq {named taken : Finset ℕ} {n : ℕ} (h : ∀ m, n ≤ m → (m ∈ taken ↔ m ∈ named)) :
    nextFree n taken = nthFree named (freeBelow named n) ∧ nextFree n taken ∉ named ∧
      freeBelow named (nextFree n taken + 1) = freeBelow named n + 1 := by
  obtain ⟨hle, hfree, hbelow⟩ := nextFree_spec n taken
  have hnamed : nextFree n taken ∉ named := fun hmem => hfree ((h _ hle).mpr hmem)
  have hcount : freeBelow named (nextFree n taken) = freeBelow named n :=
    freeBelow_eq_of_named hle fun m hnm hm => (h m hnm).mp (hbelow m hnm hm)
  refine ⟨?_, hnamed, ?_⟩
  · rw [← hcount]
    exact (Nat.nth_count hnamed).symm
  · rw [freeBelow, Nat.count_succ, if_pos hnamed]
    exact congrArg (· + 1) hcount

/-! ## Requests -/

section Requests

variable {G : Type*} [DecidableEq G]

/-- A group, with the number that the request names. -/
abbrev Request (G : Type*) := G × Option ℕ

/-- The numbers that the requests of a group name. -/
def named (requests : List (Request G)) (g : G) : Finset ℕ :=
  (requests.filterMap fun request => if request.1 = g then request.2 else none).toFinset

theorem mem_named {requests : List (Request G)} {g : G} {n : ℕ} :
    n ∈ named requests g ↔ (g, some n) ∈ requests := by
  simp only [named, List.mem_toFinset, List.mem_filterMap]
  constructor
  · rintro ⟨⟨g', number⟩, hmem, hnumber⟩
    split at hnumber
    next heq =>
      obtain rfl := heq
      obtain rfl := hnumber
      exact hmem
    next => cases hnumber
  · intro hmem
    exact ⟨_, hmem, if_pos rfl⟩

/-- The numbers of the requests: those that they name, and for the others of a group its free
numbers in order. Of these some are used up already. -/
noncomputable def numbers (named : G → Finset ℕ) : (G → ℕ) → List (Request G) → List ℕ
  | _, [] => []
  | used, (_, some n) :: rest => n :: numbers named used rest
  | used, (g, none) :: rest =>
    nthFree (named g) (used g) :: numbers named (Function.update used g (used g + 1)) rest

/-- The groups and numbers of the requests that name one. -/
def explicit (requests : List (Request G)) : List (G × ℕ) :=
  requests.filterMap fun request => request.2.map fun n => (request.1, n)

/-- The groups with the numbers that they are given. -/
noncomputable def numbered (named : G → Finset ℕ) (used : G → ℕ) (requests : List (Request G)) :
    List (G × ℕ) :=
  (requests.map Prod.fst).zip (numbers named used requests)

omit [DecidableEq G] in
theorem mem_explicit {requests : List (Request G)} {g : G} {n : ℕ} :
    (g, n) ∈ explicit requests ↔ (g, some n) ∈ requests := by
  simp only [explicit, List.mem_filterMap]
  constructor
  · rintro ⟨⟨g', number⟩, hmem, hnumber⟩
    obtain ⟨m, rfl, heq⟩ := Option.map_eq_some_iff.mp hnumber
    obtain ⟨rfl, rfl⟩ := Prod.mk.inj heq
    exact hmem
  · intro hmem
    exact ⟨_, hmem, rfl⟩

variable {taken : G → Finset ℕ}

/-- A number is named by its request, or it is a free one that was not used up. -/
theorem mem_numbered {used : G → ℕ} {requests : List (Request G)} {g : G} {n : ℕ}
    (h : (g, n) ∈ numbered taken used requests) :
    (g, n) ∈ explicit requests ∨ ∃ k, used g ≤ k ∧ n = nthFree (taken g) k := by
  induction requests generalizing used with
  | nil => cases h
  | cons request rest ih =>
    obtain ⟨g', number⟩ := request
    cases number with
    | some m =>
      rcases List.mem_cons.mp h with heq | hrest
      · obtain ⟨rfl, rfl⟩ := Prod.mk.inj heq
        exact .inl (mem_explicit.mpr List.mem_cons_self)
      · apply (ih hrest).imp_left
        exact fun hmem => mem_explicit.mpr (List.mem_cons_of_mem _ (mem_explicit.mp hmem))
    | none =>
      rcases List.mem_cons.mp h with heq | hrest
      · obtain ⟨rfl, rfl⟩ := Prod.mk.inj heq
        exact .inr ⟨used g, le_rfl, rfl⟩
      · rcases ih hrest with hmem | ⟨k, hk, rfl⟩
        · exact .inl (mem_explicit.mpr (List.mem_cons_of_mem _ (mem_explicit.mp hmem)))
        · refine .inr ⟨k, ?_, rfl⟩
          by_cases hg : g = g'
          · subst hg
            rw [Function.update_self] at hk
            omega
          · rwa [Function.update_of_ne hg] at hk

/-- No two requests of a group have one number. -/
theorem nodup_numbered {used : G → ℕ} {requests : List (Request G)}
    (htaken : ∀ g n, (g, some n) ∈ requests → n ∈ taken g) (h : (explicit requests).Nodup) :
    (numbered taken used requests).Nodup := by
  induction requests generalizing used with
  | nil => exact .nil
  | cons request rest ih =>
    obtain ⟨g, number⟩ := request
    have htail : ∀ g' n, (g', some n) ∈ rest → n ∈ taken g' :=
      fun g' n hmem => htaken g' n (List.mem_cons_of_mem _ hmem)
    have hfree (k : ℕ) : nthFree (taken g) k ∉ taken g :=
      Nat.nth_mem_of_infinite (infinite_free (taken g)) k
    cases number with
    | some m =>
      obtain ⟨hnew, hrest⟩ := List.nodup_cons.mp h
      refine List.nodup_cons.mpr ⟨fun hmem => ?_, ih htail hrest⟩
      rcases mem_numbered hmem with hexplicit | ⟨k, -, heq⟩
      · exact hnew hexplicit
      · exact hfree k (heq ▸ htaken g m List.mem_cons_self)
    | none =>
      refine List.nodup_cons.mpr ⟨fun hmem => ?_, ih htail h⟩
      rcases mem_numbered hmem with hexplicit | ⟨k, hk, heq⟩
      · exact hfree _ (htail g _ (mem_explicit.mp hexplicit))
      · rw [Function.update_self] at hk
        have hsame := (Nat.nth_strictMono (infinite_free (taken g))).injective heq
        omega

end Requests

end Numbering
