import Mathlib.Data.List.Chain
import Mathlib.Data.Set.Basic

/-! Keyed deltas as ratchets. A delta shows the records of a state whose keys the previous
state lacks; a property of all records is carried from state to state by a check of what the
delta shows exactly when it is a property of keys. -/

namespace Ratchet

variable {α K σ : Type*}

/-- `added b c` are records of `c` under keys that `b` lacks, at least one for every such key. -/
structure IsAdded (key : α → K) (added : List α → List α → Set α) : Prop where
  mem : ∀ {b c x}, x ∈ added b c → x ∈ c
  fresh : ∀ {b c x}, x ∈ added b c → ∀ y ∈ b, key y ≠ key x
  cover : ∀ {b c x}, x ∈ c → (∃ y ∈ b, key y = key x) ∨ ∃ y ∈ added b c, key y = key x

/-- The step law of a ratchet, for states with records in `s`: a state passes by `P`, a delta
passes by `Q`. -/
structure Law (added : List α → List α → Set α) (s : Set α) (P Q : α → Prop) : Prop where
  forward : ∀ b c, (∀ x ∈ b, x ∈ s) → (∀ x ∈ c, x ∈ s) → (∀ x ∈ b, P x) →
    (∀ x ∈ added b c, Q x) → ∀ x ∈ c, P x
  backward : ∀ b c, (∀ x ∈ b, x ∈ s) → (∀ x ∈ c, x ∈ s) → (∀ x ∈ c, P x) →
    ∀ x ∈ added b c, Q x

theorem IsAdded.mem_nil {key : α → K} {added : List α → List α → Set α} (h : IsAdded key added)
    (x : α) : x ∈ added [] [x] := by
  rcases h.cover (b := []) (List.mem_singleton.mpr rfl) with ⟨y, hy, -⟩ | ⟨y, hy, -⟩
  · cases hy
  · obtain rfl := List.mem_singleton.mp (h.mem hy)
    exact hy

/-- The law holds exactly of the properties that depend on the key alone and look the same on
the delta. -/
theorem law_iff {key : α → K} {added : List α → List α → Set α} (h : IsAdded key added)
    (s : Set α) (P Q : α → Prop) :
    Law added s P Q ↔ (∀ x ∈ s, P x ↔ Q x) ∧
      ∀ x ∈ s, ∀ y ∈ s, key x = key y → (P x ↔ P y) := by
  constructor
  · rintro ⟨hforward, hbackward⟩
    have hone {x : α} (hx : x ∈ s) : ∀ y ∈ [x], y ∈ s := by simpa using hx
    have hkeys {x y : α} (hx : x ∈ s) (hy : y ∈ s) (hkey : key x = key y) (hP : P x) : P y := by
      refine hforward [x] [y] (hone hx) (hone hy) (by simpa using hP) ?_ y (by simp)
      intro z hz
      obtain rfl := List.mem_singleton.mp (h.mem hz)
      exact absurd hkey (h.fresh hz x (by simp))
    refine ⟨fun x hx => ⟨fun hP => ?_, fun hQ => ?_⟩, fun x hx y hy hkey =>
      ⟨hkeys hx hy hkey, hkeys hy hx hkey.symm⟩⟩
    · exact hbackward [] [x] (by simp) (hone hx) (by simpa using hP) x (h.mem_nil x)
    · refine hforward [] [x] (by simp) (hone hx) (by simp) ?_ x (by simp)
      intro z hz
      obtain rfl := List.mem_singleton.mp (h.mem hz)
      exact hQ
  · rintro ⟨hview, hkeys⟩
    constructor
    · intro b c hb hc hP hQ x hx
      rcases h.cover (b := b) hx with ⟨y, hy, hkey⟩ | ⟨y, hy, hkey⟩
      · exact (hkeys y (hb y hy) x (hc x hx) hkey).mp (hP y hy)
      · have hys : y ∈ s := hc y (h.mem hy)
        exact (hkeys y hys x (hc x hx) hkey).mp ((hview y hys).mpr (hQ y hy))
    · intro b c _ hc hP x hx
      exact (hview x (hc x (h.mem hx))).mp (hP x (h.mem hx))

/-- What one step preserves, every run preserves. -/
theorem holds_along_chain {Inv : σ → Prop} {Gate : σ → σ → Prop} {first : σ} {rest : List σ}
    (hstep : ∀ b ∈ first :: rest, ∀ c ∈ first :: rest, Inv b → Gate b c → Inv c)
    (hfirst : Inv first) (hchain : (first :: rest).IsChain Gate) : ∀ t ∈ rest, Inv t := by
  induction rest generalizing first with
  | nil => simp
  | cons second rest ih =>
      rw [List.isChain_cons_cons] at hchain
      have hsecond : Inv second := hstep first (by simp) second (by simp) hfirst hchain.1
      have htail : ∀ t ∈ rest, Inv t :=
        ih (fun b hb c hc => hstep b (by simp [hb]) c (by simp [hc])) hsecond hchain.2
      intro t ht
      rcases List.mem_cons.mp ht with rfl | ht
      · exact hsecond
      · exact htail t ht

end Ratchet
