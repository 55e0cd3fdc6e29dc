import Mathlib.Data.List.Basic
import Mathlib.Data.List.Nodup

/-! Escaping by replacement. A mark and some other characters are each replaced by the mark
with a code behind it, the mark first. Replacing the codes back, the code of the mark last,
gives the text again. -/

namespace Escapes

variable {α : Type*} [DecidableEq α]

/-! ## Replacement -/

/-- The replacement behind a match of which some characters are still to be passed over. -/
def replaceFrom (old new : List α) : ℕ → List α → List α
  | _, [] => []
  | skip + 1, _ :: text => replaceFrom old new skip text
  | 0, c :: text =>
    if old.isPrefixOf (c :: text) then new ++ replaceFrom old new (old.length - 1) text
    else c :: replaceFrom old new 0 text

/-- Every occurrence of a text is replaced, from the left, without overlaps. -/
def replaceAll (old new text : List α) : List α := replaceFrom old new 0 text

theorem replaceFrom_append (old new front text : List α) :
    replaceFrom old new front.length (front ++ text) = replaceAll old new text := by
  induction front with
  | nil => rfl
  | cons c front ih => exact ih

@[simp] theorem replaceAll_nil (old new : List α) : replaceAll old new [] = [] := rfl

/-- The replacement of one character. -/
theorem replaceAll_singleton (c : α) (new text : List α) :
    replaceAll [c] new text = text.flatMap fun x => if x = c then new else [x] := by
  induction text with
  | nil => rfl
  | cons x text ih =>
    rw [replaceAll] at ih
    rw [replaceAll, replaceFrom, List.flatMap_cons, ← ih]
    by_cases hx : x = c
    · subst hx
      simp
    · have hne : ¬ [c].isPrefixOf (x :: text) := by
        simpa [List.isPrefixOf_iff_prefix, List.cons_prefix_cons] using Ne.symm hx
      rw [if_neg hne, if_neg hx, List.singleton_append]

theorem replaceAll_flatMap (c : α) (new text : List α) (e : α → List α) :
    replaceAll [c] new (text.flatMap e) = text.flatMap fun x => replaceAll [c] new (e x) := by
  simp only [replaceAll_singleton, List.flatMap_assoc]

theorem replaceAll_singleton_of_notMem {c : α} {text : List α} (h : c ∉ text) (new : List α) :
    replaceAll [c] new text = text := by
  have hsame : ∀ x ∈ text, (if x = c then new else [x]) = [x] := by
    intro x hx
    apply if_neg
    rintro rfl
    exact h hx
  rw [replaceAll_singleton, List.flatMap_congr hsame, List.flatMap_singleton']

section Match

variable {mark : α} {code : List α}

theorem replaceAll_match (new text : List α) :
    replaceAll (mark :: code) new (mark :: code ++ text) =
      new ++ replaceAll (mark :: code) new text := by
  have hprefix : (mark :: code).isPrefixOf (mark :: (code ++ text)) := by
    rw [List.isPrefixOf_iff_prefix]
    exact List.prefix_append (mark :: code) text
  rw [List.cons_append, replaceAll, replaceFrom, if_pos hprefix, ← replaceFrom_append]
  rfl

theorem replaceAll_cons_of_not_prefix {c : α} (new : List α) {text : List α}
    (h : ¬ mark :: code <+: c :: text) :
    replaceAll (mark :: code) new (c :: text) = c :: replaceAll (mark :: code) new text := by
  rw [replaceAll, replaceFrom, if_neg (by simpa [List.isPrefixOf_iff_prefix] using h)]
  rfl

/-- Text without the mark stays. -/
theorem replaceAll_append_of_notMem {front : List α} (h : mark ∉ front) (new text : List α) :
    replaceAll (mark :: code) new (front ++ text) =
      front ++ replaceAll (mark :: code) new text := by
  induction front with
  | nil => rfl
  | cons c front ih =>
    obtain ⟨hc, hfront⟩ := not_or.mp fun hmem => h (List.mem_cons.mpr hmem)
    have hprefix : ¬ mark :: code <+: c :: (front ++ text) :=
      fun hpre => hc (List.cons_prefix_cons.mp hpre).1
    rw [List.cons_append, replaceAll_cons_of_not_prefix new hprefix, ih hfront, List.cons_append]

/-- Another code of the same length stays. -/
theorem replaceAll_other {other : List α} (hmark : mark ∉ other) (hne : other ≠ code)
    (hlength : other.length = code.length) (new text : List α) :
    replaceAll (mark :: code) new (mark :: other ++ text) =
      mark :: other ++ replaceAll (mark :: code) new text := by
  have hprefix : ¬ mark :: code <+: mark :: (other ++ text) := by
    intro hpre
    obtain ⟨rest, hrest⟩ := (List.cons_prefix_cons.mp hpre).2
    exact hne (List.append_inj_left hrest hlength.symm).symm
  rw [List.cons_append, replaceAll_cons_of_not_prefix new hprefix,
    replaceAll_append_of_notMem hmark, List.cons_append]

end Match

/-! ## Codes -/

/-- Characters and codes that do not get in each other's way. -/
structure Lawful (entries : List (α × List α)) : Prop where
  keys : (entries.map Prod.fst).Nodup
  codes : (entries.map Prod.snd).Nodup
  length : ∀ a ∈ entries, ∀ b ∈ entries, a.2.length = b.2.length
  plain : ∀ a ∈ entries, ∀ b ∈ entries, a.1 ∉ b.2

omit [DecidableEq α] in
theorem Lawful.of_sublist {some all : List (α × List α)} (h : some.Sublist all)
    (hall : Lawful all) : Lawful some where
  keys := hall.keys.sublist (h.map _)
  codes := hall.codes.sublist (h.map _)
  length a ha b hb := hall.length a (h.subset ha) b (h.subset hb)
  plain a ha b hb := hall.plain a (h.subset ha) b (h.subset hb)

/-- What a character becomes under some entries. -/
def piece (mark : α) (entries : List (α × List α)) (c : α) : List α :=
  match entries.find? fun entry => entry.1 = c with
  | some entry => mark :: entry.2
  | none => [c]

section Piece

variable {mark : α} {entries : List (α × List α)}

/-- A character with a code becomes the code, and any other stays. -/
theorem piece_cases (mark : α) (entries : List (α × List α)) (x : α) :
    (∃ entry ∈ entries, entry.1 = x ∧ piece mark entries x = mark :: entry.2) ∨
      (∀ entry ∈ entries, entry.1 ≠ x) ∧ piece mark entries x = [x] := by
  cases hx : entries.find? fun entry => entry.1 = x with
  | some entry =>
    have hkey : entry.1 = x := by simpa using List.find?_some hx
    exact .inl ⟨entry, List.mem_of_find?_eq_some hx, hkey, by rw [piece, hx]⟩
  | none =>
    refine .inr ⟨fun entry hentry => ?_, by rw [piece, hx]⟩
    simpa using List.find?_eq_none.mp hx entry hentry

theorem piece_of_mem (h : Lawful entries) {entry : α × List α} (hentry : entry ∈ entries) :
    piece mark entries entry.1 = mark :: entry.2 := by
  rcases piece_cases mark entries entry.1 with ⟨other, hother, hkey, hpiece⟩ | ⟨hnone, -⟩
  · rw [hpiece, List.inj_on_of_nodup_map h.keys hother hentry hkey]
  · exact absurd rfl (hnone entry hentry)

theorem piece_of_forall_ne {x : α} (h : ∀ entry ∈ entries, entry.1 ≠ x) :
    piece mark entries x = [x] := by
  rcases piece_cases mark entries x with ⟨entry, hentry, hkey, -⟩ | ⟨-, hpiece⟩
  · exact absurd hkey (h entry hentry)
  · exact hpiece

/-- One more replacement adds one more entry. -/
theorem replaceAll_piece {entry : α × List α} (h : Lawful (entries ++ [entry]))
    (hmark : entries = [] ∨ entry.1 ≠ mark) (x : α) :
    replaceAll [entry.1] (mark :: entry.2) (piece mark entries x) =
      piece mark (entries ++ [entry]) x := by
  have hlast : entry ∈ entries ++ [entry] := List.mem_append_right _ (List.mem_singleton_self _)
  rcases piece_cases mark entries x with ⟨other, hother, rfl, hpiece⟩ | ⟨hnone, hpiece⟩
  · have hmem : other ∈ entries ++ [entry] := List.mem_append_left _ hother
    have hne : entry.1 ≠ mark := hmark.resolve_left (List.ne_nil_of_mem hother)
    have hfree : entry.1 ∉ mark :: other.2 :=
      List.not_mem_cons_of_ne_of_not_mem hne (h.plain entry hlast other hmem)
    rw [hpiece, piece_of_mem h hmem, replaceAll_singleton_of_notMem hfree]
  · rw [hpiece, replaceAll_singleton, List.flatMap_singleton]
    by_cases hx : x = entry.1
    · rw [if_pos hx, hx, piece_of_mem h hlast]
    · rw [if_neg hx, piece_of_forall_ne]
      intro other hother
      rcases List.mem_append.mp hother with hother | hother
      · exact hnone other hother
      · rw [List.mem_singleton.mp hother]
        exact Ne.symm hx

/-- The replacements of some more entries, none of them for the mark. -/
theorem foldl_replaceAll (text : List α) (done more : List (α × List α))
    (h : Lawful (done ++ more)) (hmark : ∀ entry ∈ more, entry.1 ≠ mark) :
    more.foldl (fun text entry => replaceAll [entry.1] (mark :: entry.2) text)
        (text.flatMap (piece mark done)) = text.flatMap (piece mark (done ++ more)) := by
  induction more generalizing done with
  | nil => simp
  | cons entry more ih =>
    rw [List.append_cons] at h ⊢
    have hstep : Lawful (done ++ [entry]) := Lawful.of_sublist (List.sublist_append_left _ _) h
    have hne : entry.1 ≠ mark := hmark entry List.mem_cons_self
    rw [List.foldl_cons, replaceAll_flatMap,
      List.flatMap_congr fun x _ => replaceAll_piece hstep (.inr hne) x]
    exact ih (done ++ [entry]) h
      fun other hother => hmark other (List.mem_cons_of_mem _ hother)

/-- Replacing a code back takes its entry away. -/
theorem replaceAll_back {entry : α × List α} {others : List (α × List α)} (h : Lawful entries)
    (hmark : ∃ first ∈ entries, first.1 = mark) (hperm : entries.Perm (entry :: others))
    (text : List α) :
    replaceAll (mark :: entry.2) [entry.1] (text.flatMap (piece mark entries)) =
      text.flatMap (piece mark others) := by
  have hentry : entry ∈ entries := hperm.mem_iff.mpr List.mem_cons_self
  have hothers : ∀ other ∈ others, other ∈ entries :=
    fun other hother => hperm.mem_iff.mpr (List.mem_cons_of_mem _ hother)
  have hkeys := List.nodup_cons.mp ((hperm.map Prod.fst).nodup_iff.mp h.keys)
  have hlawful : Lawful others :=
    { keys := hkeys.2
      codes := (List.nodup_cons.mp ((hperm.map Prod.snd).nodup_iff.mp h.codes)).2
      length := fun a ha b hb => h.length a (hothers a ha) b (hothers b hb)
      plain := fun a ha b hb => h.plain a (hothers a ha) b (hothers b hb) }
  obtain ⟨first, hfirst, rfl⟩ := hmark
  induction text with
  | nil => rfl
  | cons x text ih =>
    rw [List.flatMap_cons, List.flatMap_cons]
    rcases piece_cases first.1 entries x with ⟨other, hother, rfl, hpiece⟩ | ⟨hnone, hpiece⟩
    · rw [hpiece]
      by_cases hsame : other = entry
      · subst hsame
        have hgone : ∀ e ∈ others, e.1 ≠ other.1 :=
          fun e he heq => hkeys.1 (heq ▸ List.mem_map_of_mem he)
        rw [replaceAll_match, ih, piece_of_forall_ne hgone]
      · have hkept : other ∈ others :=
          (List.mem_cons.mp (hperm.mem_iff.mp hother)).resolve_left hsame
        have hcode : other.2 ≠ entry.2 :=
          fun heq => hsame (List.inj_on_of_nodup_map h.codes hother hentry heq)
        rw [replaceAll_other (h.plain first hfirst other hother) hcode
          (h.length other hother entry hentry), ih, piece_of_mem hlawful hkept]
    · have hx : first.1 ∉ [x] := by simpa using hnone first hfirst
      rw [hpiece, replaceAll_append_of_notMem hx, ih,
        piece_of_forall_ne fun e he => hnone e (hothers e he)]

/-- The replacements back of some entries behind the one of the mark. -/
theorem foldl_replaceAll_back (text : List α) (first : α × List α) (more : List (α × List α))
    (h : Lawful (first :: more)) :
    more.foldl (fun text entry => replaceAll (first.1 :: entry.2) [entry.1] text)
        (text.flatMap (piece first.1 (first :: more))) =
      text.flatMap (piece first.1 [first]) := by
  induction more with
  | nil => rfl
  | cons entry more ih =>
    have hback := replaceAll_back h ⟨first, List.mem_cons_self, rfl⟩
      (List.Perm.swap entry first more) text
    rw [List.foldl_cons, hback]
    exact ih (Lawful.of_sublist ((List.sublist_cons_self entry more).cons_cons first) h)

end Piece

/-! ## Tables -/

/-- The mark and the other characters, each with its code. -/
structure Table (α : Type*) where
  mark : α
  code : List α
  rest : List (α × List α)
  lawful : Lawful ((mark, code) :: rest)

namespace Table

variable (table : Table α)

/-- The replacements that escape a text. -/
def escape (text : List α) : List α :=
  table.rest.foldl (fun text entry => replaceAll [entry.1] (table.mark :: entry.2) text)
    (replaceAll [table.mark] (table.mark :: table.code) text)

/-- The replacements that give it back. -/
def unescape (text : List α) : List α :=
  replaceAll (table.mark :: table.code) [table.mark]
    (table.rest.foldl (fun text entry => replaceAll (table.mark :: entry.2) [entry.1] text) text)

def entries : List (α × List α) := (table.mark, table.code) :: table.rest

variable {table}

omit [DecidableEq α] in
theorem ne_mark {entry : α × List α} (h : entry ∈ table.rest) : entry.1 ≠ table.mark := by
  intro heq
  have hkeys := (List.nodup_cons.mp table.lawful.keys).1
  exact hkeys (List.mem_map.mpr ⟨entry, h, heq⟩)

omit [DecidableEq α] in
theorem lawful_mark : Lawful [(table.mark, table.code)] :=
  Lawful.of_sublist (by simp) table.lawful

/-- Escaping replaces every character by its piece. -/
theorem escape_eq (text : List α) :
    table.escape text = text.flatMap (piece table.mark table.entries) := by
  have hnone : text.flatMap (piece table.mark []) = text := List.flatMap_singleton' text
  have hfirst : replaceAll [table.mark] (table.mark :: table.code) text =
      text.flatMap (piece table.mark [(table.mark, table.code)]) := by
    conv_lhs => rw [← hnone]
    rw [replaceAll_flatMap]
    exact List.flatMap_congr fun x _ => replaceAll_piece lawful_mark (.inl rfl) x
  rw [escape, hfirst]
  exact foldl_replaceAll text [(table.mark, table.code)] table.rest table.lawful
    fun _ => ne_mark

/-- What was escaped is given back. -/
theorem unescape_escape (text : List α) : table.unescape (table.escape text) = text := by
  rw [unescape, escape_eq, entries,
    foldl_replaceAll_back text (table.mark, table.code) table.rest table.lawful]
  have hlast : replaceAll (table.mark :: table.code) [table.mark]
      (text.flatMap (piece table.mark [(table.mark, table.code)])) =
        text.flatMap (piece table.mark []) :=
    replaceAll_back lawful_mark ⟨_, List.mem_singleton_self _, rfl⟩
      (List.Perm.refl [(table.mark, table.code)]) text
  rw [hlast]
  exact List.flatMap_singleton' text

/-- The characters that are escaped do not occur any more, the mark apart. -/
theorem notMem_escape {c : α} (hc : c ∈ table.rest.map Prod.fst) (text : List α) :
    c ∉ table.escape text := by
  obtain ⟨entry, h, rfl⟩ := List.mem_map.mp hc
  have hall : entry ∈ table.entries := List.mem_cons_of_mem _ h
  rw [escape_eq]
  intro hmem
  obtain ⟨x, -, hx⟩ := List.mem_flatMap.mp hmem
  rcases piece_cases table.mark table.entries x with ⟨other, hother, -, hpiece⟩ | ⟨hnone, hpiece⟩
  · rw [hpiece] at hx
    have hcode := table.lawful.plain entry hall other hother
    exact List.not_mem_cons_of_ne_of_not_mem (ne_mark h) hcode hx
  · rw [hpiece, List.mem_singleton] at hx
    exact hnone entry hall hx

end Table

end Escapes
