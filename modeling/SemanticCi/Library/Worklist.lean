import Mathlib.Data.Finset.Card
import Mathlib.Data.List.Dedup
import Mathlib.Data.Prod.Lex
import Mathlib.Logic.Relation

/-! Loops that may fail, and the worklist that computes what is reached from given roots. -/

namespace Worklist

/-! ## Loops -/

section Loop

variable {σ ε μ : Type*}

/-- At most `fuel` rounds of a loop. -/
def loop (done : σ → Bool) (body : σ → Except ε σ) (outOfFuel : ε) : ℕ → σ → Except ε σ
  | 0, s => if done s then .ok s else .error outOfFuel
  | fuel + 1, s =>
      if done s then .ok s
      else do loop done body outOfFuel fuel (← body s)

variable {done : σ → Bool} {body : σ → Except ε σ} {outOfFuel : ε}

theorem loop_of_done {s : σ} (h : done s) (fuel : ℕ) : loop done body outOfFuel fuel s = .ok s := by
  cases fuel <;> simp [loop, h]

theorem loop_succ {s s' : σ} (h : done s = false) (hbody : body s = .ok s') (fuel : ℕ) :
    loop done body outOfFuel (fuel + 1) s = loop done body outOfFuel fuel s' := by
  rw [loop, h, hbody]
  rfl

/-- A loop whose body keeps an invariant and lowers a measure ends in a state with the
invariant, whatever fuel is left. -/
theorem exists_loop_eq (outOfFuel : ε) [Preorder μ] [WellFoundedLT μ] {Inv : σ → Prop} {measure : σ → μ}
    (hbody : ∀ s, Inv s → done s = false →
      ∃ s', body s = .ok s' ∧ Inv s' ∧ measure s' < measure s)
    (s : σ) (hs : Inv s) :
    ∃ needed final, Inv final ∧ done final ∧
      ∀ fuel ≥ needed, loop done body outOfFuel fuel s = .ok final := by
  induction hm : measure s using WellFoundedLT.induction generalizing s with
  | ind m ih =>
      cases hdone : done s with
      | true => exact ⟨0, s, hs, hdone, fun fuel _ => loop_of_done hdone fuel⟩
      | false =>
          obtain ⟨s', hs', hinv, hlt⟩ := hbody s hs hdone
          obtain ⟨needed, final, hfinal, hend, hloop⟩ := ih _ (hm ▸ hlt) s' hinv rfl
          refine ⟨needed + 1, final, hfinal, hend, fun fuel hfuel => ?_⟩
          obtain ⟨fuel, rfl⟩ : ∃ n, fuel = n + 1 := ⟨fuel - 1, by omega⟩
          rw [loop_succ hdone hs']
          exact hloop fuel (by omega)

end Loop

/-! ## What is reached -/

section Reached

variable {α : Type*}

/-- What has been taken from the stack, and what waits on it. -/
structure State (α : Type*) where
  stack : List α
  processed : Finset α

variable (next : α → α → Prop) (roots : Set α)

/-- The least set that holds the roots and all that follows from its members. -/
def Reached (x : α) : Prop := ∃ root ∈ roots, Relation.ReflTransGen next root x

structure Inv (s : State α) : Prop where
  stack_reached : ∀ x ∈ s.stack, Reached next roots x
  processed_reached : ∀ x ∈ s.processed, Reached next roots x
  roots_seen : ∀ x ∈ roots, x ∈ s.stack ∨ x ∈ s.processed
  next_seen : ∀ x ∈ s.processed, ∀ y, next x y → y ∈ s.stack ∨ y ∈ s.processed

variable {next roots}

theorem Reached.step {x y : α} (hx : Reached next roots x) (hxy : next x y) :
    Reached next roots y := by
  obtain ⟨root, hroot, hpath⟩ := hx
  exact ⟨root, hroot, hpath.tail hxy⟩

theorem inv_start {stack : List α} (h : ∀ x, x ∈ stack ↔ x ∈ roots) :
    Inv next roots ⟨stack, ∅⟩ where
  stack_reached x hx := ⟨x, (h x).mp hx, .refl⟩
  processed_reached x hx := absurd hx (Finset.notMem_empty x)
  roots_seen x hx := Or.inl ((h x).mpr hx)
  next_seen x hx := absurd hx (Finset.notMem_empty x)

/-- With nothing left on the stack, what has been taken is what is reached. -/
theorem Inv.mem_processed_iff {s : State α} (hs : Inv next roots s) (hstack : s.stack = []) (x : α) :
    x ∈ s.processed ↔ Reached next roots x := by
  refine ⟨hs.processed_reached x, ?_⟩
  rintro ⟨root, hroot, hpath⟩
  induction hpath with
  | refl => simpa [hstack] using hs.roots_seen root hroot
  | tail _ hstep ih => simpa [hstack] using hs.next_seen _ ih _ hstep

variable [DecidableEq α]

/-- One round. It pushes, in any order, what follows from the top of the stack and may leave
out what has been taken. -/
inductive Step (next : α → α → Prop) : State α → State α → Prop where
  | skip {x stack processed} (h : x ∈ processed) :
      Step next ⟨x :: stack, processed⟩ ⟨stack, processed⟩
  | visit {x stack processed found} (h : x ∉ processed) (hnext : ∀ y ∈ found, next x y)
      (hfound : ∀ y, next x y → y ∈ found ∨ y ∈ insert x processed) :
      Step next ⟨x :: stack, processed⟩ ⟨found ++ stack, insert x processed⟩

theorem Step.inv {s s' : State α} (hs : Inv next roots s) (h : Step next s s') :
    Inv next roots s' := by
  cases h with
  | skip hx =>
      have hseen : ∀ {x y : α} {stack : List α} {processed : Finset α}, x ∈ processed →
          (y ∈ x :: stack ∨ y ∈ processed) → y ∈ stack ∨ y ∈ processed := by
        rintro x y stack processed hx (hy | hy)
        · rcases List.mem_cons.mp hy with rfl | hy
          · exact Or.inr hx
          · exact Or.inl hy
        · exact Or.inr hy
      exact
        { stack_reached := fun y hy => hs.stack_reached y (List.mem_cons_of_mem _ hy)
          processed_reached := hs.processed_reached
          roots_seen := fun y hy => hseen hx (hs.roots_seen y hy)
          next_seen := fun y hy z hz => hseen hx (hs.next_seen y hy z hz) }
  | @visit x stack processed found hx hnext hfound =>
      have htop : Reached next roots x := hs.stack_reached x List.mem_cons_self
      have hseen : ∀ y, (y ∈ x :: stack ∨ y ∈ processed) →
          y ∈ found ++ stack ∨ y ∈ insert x processed := by
        rintro y (hy | hy)
        · rcases List.mem_cons.mp hy with rfl | hy
          · exact Or.inr (Finset.mem_insert_self _ _)
          · exact Or.inl (List.mem_append_right _ hy)
        · exact Or.inr (Finset.mem_insert_of_mem hy)
      refine ⟨?_, ?_, fun y hy => hseen y (hs.roots_seen y hy), ?_⟩
      · intro y hy
        rcases List.mem_append.mp hy with hy | hy
        · exact htop.step (hnext y hy)
        · exact hs.stack_reached y (List.mem_cons_of_mem _ hy)
      · intro y hy
        rcases Finset.mem_insert.mp hy with rfl | hy
        · exact htop
        · exact hs.processed_reached y hy
      · intro y hy z hz
        rcases Finset.mem_insert.mp hy with rfl | hy
        · exact (hfound z hz).imp_left (List.mem_append_left _)
        · exact hseen z (hs.next_seen y hy z hz)

/-- How much of a finite set is left to take, and how much waits. -/
def measure (all : Finset α) (s : State α) : ℕ ×ₗ ℕ :=
  toLex ((all \ s.processed).card, s.stack.length)

theorem Step.measure_lt {all : Finset α} (hall : ∀ x, Reached next roots x → x ∈ all)
    {s s' : State α} (hs : Inv next roots s) (h : Step next s s') :
    measure all s' < measure all s := by
  rw [measure, measure, Prod.Lex.toLex_lt_toLex]
  cases h with
  | skip hx => exact Or.inr ⟨rfl, Nat.lt_succ_self _⟩
  | @visit x stack processed found hx hnext hfound =>
      left
      apply Finset.card_lt_card
      rw [Finset.ssubset_iff_of_subset (Finset.sdiff_subset_sdiff subset_rfl (by simp))]
      refine ⟨x, ?_, by simp⟩
      simp [hx, hall x (hs.stack_reached x List.mem_cons_self)]

end Reached

/-! ## Whole rounds -/

section Rounds

variable {α : Type*} [DecidableEq α]

/-- What has been found with all that follows from it. -/
def expand (next : α → List α) (found : List α) : List α :=
  (found ++ found.flatMap next).dedup

variable {next : α → List α} {roots : List α}

theorem reached_of_mem_iterate (n : ℕ) :
    ∀ x ∈ (expand next)^[n] roots, Reached (fun x y => y ∈ next x) {x | x ∈ roots} x := by
  induction n with
  | zero => exact fun x hx => ⟨x, hx, .refl⟩
  | succ n ih =>
      intro x hx
      rw [Function.iterate_succ_apply', expand, List.mem_dedup, List.mem_append,
        List.mem_flatMap] at hx
      rcases hx with hx | ⟨y, hy, hyx⟩
      · exact ih x hx
      · exact (ih y hy).step hyx

theorem root_mem_iterate (n : ℕ) {x : α} (hx : x ∈ roots) : x ∈ (expand next)^[n] roots := by
  induction n with
  | zero => exact hx
  | succ n ih =>
      rw [Function.iterate_succ_apply', expand, List.mem_dedup]
      exact List.mem_append_left _ ih

/-- Rounds that end in a closed list have found all that is reached. -/
theorem mem_iterate_iff (n : ℕ)
    (hclosed : ∀ x ∈ (expand next)^[n] roots, ∀ y ∈ next x, y ∈ (expand next)^[n] roots) (x : α) :
    x ∈ (expand next)^[n] roots ↔ Reached (fun x y => y ∈ next x) {x | x ∈ roots} x := by
  refine ⟨reached_of_mem_iterate n x, ?_⟩
  rintro ⟨root, hroot, hpath⟩
  induction hpath with
  | refl => exact root_mem_iterate n hroot
  | tail _ hstep ih => exact hclosed _ ih _ hstep

end Rounds

end Worklist
