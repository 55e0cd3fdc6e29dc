import SemanticCi.Python.Text
import Mathlib.Data.List.Infix

/-! Identifiers, and text in pieces with `::` between them. -/

namespace SemanticCi.Python

/-! ## Identifiers -/

/-- What the Unicode database says of identifiers, of characters outside ASCII. -/
structure Unicode where
  xidStart : Char → Bool
  xidContinue : Char → Bool
  nfkc : String → String

namespace Unicode

variable (u : Unicode)

def isStart (c : Char) : Bool := if c.toNat < 128 then c.isAlpha ∨ c = '_' else u.xidStart c

def isContinue (c : Char) : Bool :=
  if c.toNat < 128 then c.isAlphanum ∨ c = '_' else u.xidContinue c

/-- `text.isidentifier()`. -/
def isidentifier (text : String) : Bool :=
  match text.toList with
  | [] => false
  | c :: cs => u.isStart c && cs.all u.isContinue

variable {u}

theorem isContinue_of_isStart {c : Char} (hascii : c.toNat < 128) (h : u.isStart c) :
    u.isContinue c := by
  rw [isStart, if_pos hascii] at h
  rw [isContinue, if_pos hascii]
  have halpha := of_decide_eq_true h
  apply decide_eq_true
  rcases halpha with halpha | rfl
  · left
    simp [Char.isAlphanum, halpha]
  · exact .inr rfl

/-- A character of ASCII in an identifier is a letter, a digit or an underscore. -/
theorem isContinue_of_mem {text : String} (h : u.isidentifier text) {c : Char}
    (hascii : c.toNat < 128) (hc : c ∈ text.toList) : c.isAlphanum ∨ c = '_' := by
  have hcontinue : u.isContinue c := by
    rw [isidentifier] at h
    split at h
    next => simp at h
    next first rest htext =>
      rw [htext] at hc
      obtain ⟨hstart, hrest⟩ := (Bool.and_eq_true _ _).mp h
      rcases List.mem_cons.mp hc with rfl | hc
      · exact isContinue_of_isStart hascii hstart
      · exact List.all_eq_true.mp hrest c hc
  rw [isContinue, if_pos hascii] at hcontinue
  exact of_decide_eq_true hcontinue

theorem notMem_of_isidentifier {text : String} (h : u.isidentifier text) {c : Char}
    (hc : c.toNat < 128 ∧ c.isAlphanum = false ∧ c ≠ '_') : c ∉ text.toList := by
  intro hmem
  have hword := isContinue_of_mem h hc.1 hmem
  simp [hc.2.1, hc.2.2] at hword

theorem ne_empty_of_isidentifier {text : String} (h : u.isidentifier text) : text ≠ "" := by
  rintro rfl
  simp [isidentifier] at h

end Unicode

/-! ## Colons -/

/-- `text.partition("::")`, when the colons are there. -/
def partitionColons : List Char → Option (List Char × List Char)
  | c :: d :: rest =>
    if c = ':' ∧ d = ':' then some ([], rest)
    else (partitionColons (d :: rest)).map fun (front, back) => (c :: front, back)
  | _ => none

/-- `text.split("::")`. -/
def splitColons : List Char → List (List Char)
  | [] => [[]]
  | [c] => [[c]]
  | c :: d :: rest =>
    if c = ':' ∧ d = ':' then [] :: splitColons rest
    else (splitColons (d :: rest)).modifyHead (c :: ·)

theorem append_of_partitionColons {text front back : List Char}
    (h : partitionColons text = some (front, back)) : text = front ++ ':' :: ':' :: back := by
  induction text generalizing front with
  | nil => simp [partitionColons] at h
  | cons c rest ih =>
    cases rest with
    | nil => simp [partitionColons] at h
    | cons d rest =>
      rw [partitionColons] at h
      by_cases hcolons : c = ':' ∧ d = ':'
      · rw [if_pos hcolons] at h
        obtain ⟨rfl, rfl⟩ := Prod.mk.inj (Option.some.inj h)
        rw [hcolons.1, hcolons.2, List.nil_append]
      · rw [if_neg hcolons] at h
        obtain ⟨⟨inner, back'⟩, hinner, heq⟩ := Option.map_eq_some_iff.mp h
        obtain ⟨rfl, rfl⟩ := Prod.mk.inj heq
        rw [ih hinner, List.cons_append]

/-- The first colons of a text stay the first when the text goes on. -/
theorem partitionColons_append {text front back : List Char} (more : List Char)
    (h : partitionColons text = some (front, back)) :
    partitionColons (text ++ more) = some (front, back ++ more) := by
  induction text generalizing front with
  | nil => simp [partitionColons] at h
  | cons c rest ih =>
    cases rest with
    | nil => simp [partitionColons] at h
    | cons d rest =>
      rw [partitionColons] at h
      rw [List.cons_append, List.cons_append, partitionColons]
      by_cases hcolons : c = ':' ∧ d = ':'
      · rw [if_pos hcolons] at h ⊢
        obtain ⟨rfl, rfl⟩ := Prod.mk.inj (Option.some.inj h)
        rfl
      · rw [if_neg hcolons] at h ⊢
        obtain ⟨⟨inner, back'⟩, hinner, heq⟩ := Option.map_eq_some_iff.mp h
        obtain ⟨rfl, rfl⟩ := Prod.mk.inj heq
        rw [← List.cons_append, ih hinner]
        rfl

/-- Behind a text without colons at its end, the first colons are the first colons. -/
theorem partitionColons_of_none {text : List Char} (h : partitionColons text = none)
    (hlast : text.getLast? ≠ some ':') (back : List Char) :
    partitionColons (text ++ ':' :: ':' :: back) = some (text, back) := by
  induction text with
  | nil => simp [partitionColons]
  | cons c rest ih =>
    cases rest with
    | nil =>
      have hc : c ≠ ':' := by simpa using hlast
      simp [partitionColons, hc]
    | cons d rest =>
      rw [partitionColons] at h
      rw [List.cons_append, List.cons_append, partitionColons]
      by_cases hcolons : c = ':' ∧ d = ':'
      · rw [if_pos hcolons] at h
        simp at h
      · rw [if_neg hcolons] at h ⊢
        have hrest := ih (Option.map_eq_none_iff.mp h) (by simpa using hlast)
        rw [← List.cons_append, hrest]
        rfl

theorem hasSubstring_iff (needle text : String) :
    hasSubstring needle text ↔ needle.toList <:+: text.toList := by
  simp only [hasSubstring, List.any_eq_true, List.mem_tails, List.isPrefixOf_iff_prefix]
  rw [List.infix_iff_prefix_suffix]
  exact exists_congr fun rest => and_comm

theorem partitionColons_eq_none_iff (text : List Char) :
    partitionColons text = none ↔ ¬ [':', ':'] <:+: text := by
  induction text with
  | nil => simp [partitionColons]
  | cons c rest ih =>
    cases rest with
    | nil => simp [partitionColons, List.infix_cons_iff]
    | cons d rest =>
      rw [List.infix_cons_iff, not_or, ← ih, partitionColons]
      by_cases hcolons : c = ':' ∧ d = ':'
      · rw [if_pos hcolons, hcolons.1, hcolons.2]
        simp
      · have hprefix : ¬ [':', ':'] <+: c :: d :: rest := by
          intro hpre
          rw [List.cons_prefix_cons, List.cons_prefix_cons] at hpre
          exact hcolons ⟨hpre.1.symm, hpre.2.1.symm⟩
        rw [if_neg hcolons, Option.map_eq_none_iff]
        exact (and_iff_right hprefix).symm

theorem partitionColons_eq_none_of_notMem {text : List Char} (h : ':' ∉ text) :
    partitionColons text = none := by
  rw [partitionColons_eq_none_iff]
  exact fun hpart => h (hpart.subset List.mem_cons_self)

theorem splitColons_ne_nil (text : List Char) : splitColons text ≠ [] := by
  fun_induction splitColons text with
  | case1 => simp
  | case2 => simp
  | case3 => simp
  | case4 c d rest hcolons ih =>
    cases hsplit : splitColons (d :: rest) with
    | nil => exact absurd hsplit ih
    | cons piece pieces => simp

/-- The pieces with colons between them are the text. -/
theorem intercalate_splitColons (text : List Char) :
    [':', ':'].intercalate (splitColons text) = text := by
  fun_induction splitColons text with
  | case1 => rfl
  | case2 => rfl
  | case3 c d rest hcolons ih =>
    rw [List.intercalate_cons_of_ne_nil (splitColons_ne_nil rest), ih, hcolons.1, hcolons.2]
    rfl
  | case4 c d rest hcolons ih =>
    cases hsplit : splitColons (d :: rest) with
    | nil => exact absurd hsplit (splitColons_ne_nil _)
    | cons piece pieces =>
      rw [hsplit] at ih
      rw [List.modifyHead_cons, ← ih]
      cases pieces with
      | nil => simp
      | cons next pieces => simp [List.intercalate_cons_of_ne_nil]

/-- Text without a colon is one piece. -/
theorem splitColons_of_notMem {piece : List Char} (h : ':' ∉ piece) :
    splitColons piece = [piece] := by
  induction piece with
  | nil => rfl
  | cons c rest ih =>
    obtain ⟨hc, hrest⟩ := not_or.mp (fun hmem => h (List.mem_cons.mpr hmem))
    cases rest with
    | nil => rfl
    | cons d rest =>
      rw [splitColons, if_neg fun hcolons => hc hcolons.1.symm, ih hrest]
      rfl

theorem splitColons_append {piece : List Char} (h : ':' ∉ piece) (text : List Char) :
    splitColons (piece ++ ':' :: ':' :: text) = piece :: splitColons text := by
  induction piece with
  | nil => simp [splitColons]
  | cons c rest ih =>
    obtain ⟨hc, hrest⟩ := not_or.mp (fun hmem => h (List.mem_cons.mpr hmem))
    have htail := ih hrest
    cases rest with
    | nil =>
      rw [List.nil_append] at htail
      rw [List.cons_append, List.nil_append, splitColons, if_neg fun hcolons => hc hcolons.1.symm,
        htail]
      rfl
    | cons d rest =>
      rw [List.cons_append] at htail
      rw [List.cons_append, List.cons_append, splitColons,
        if_neg fun hcolons => hc hcolons.1.symm, htail]
      rfl

/-- What is in the text between two separators is in a separator or in a piece. -/
theorem mem_of_mem_intercalate {sep : List Char} {pieces : List (List Char)} {c : Char}
    (h : c ∈ sep.intercalate pieces) : c ∈ sep ∨ ∃ piece ∈ pieces, c ∈ piece := by
  induction pieces with
  | nil => simp at h
  | cons piece pieces ih =>
    by_cases hnil : pieces = []
    · subst hnil
      exact .inr ⟨piece, List.mem_cons_self, by simpa using h⟩
    · rw [List.intercalate_cons_of_ne_nil hnil, List.mem_append, List.mem_append] at h
      rcases h with (h | h) | h
      · exact .inr ⟨piece, List.mem_cons_self, h⟩
      · exact .inl h
      · apply (ih h).imp_right
        rintro ⟨other, hother, hmem⟩
        exact ⟨other, List.mem_cons_of_mem piece hother, hmem⟩

theorem mem_intercalate_of_mem {sep : List Char} {pieces : List (List Char)} {piece : List Char}
    (hpiece : piece ∈ pieces) {c : Char} (hc : c ∈ piece) : c ∈ sep.intercalate pieces := by
  induction pieces with
  | nil => cases hpiece
  | cons head pieces ih =>
    by_cases hnil : pieces = []
    · subst hnil
      obtain rfl := List.mem_singleton.mp hpiece
      simpa using hc
    · rw [List.intercalate_cons_of_ne_nil hnil, List.mem_append, List.mem_append]
      rcases List.mem_cons.mp hpiece with rfl | hpiece
      · exact .inl (.inl hc)
      · exact .inr (ih hpiece)

end SemanticCi.Python
