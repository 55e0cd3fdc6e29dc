import SemanticCi.Model.ImportsExtractor

/-! Dotted names and their components. -/

namespace SemanticCi.Extraction

theorem join_splitDots (text : String) : ".".intercalate (splitDots text) = text := by
  rw [← String.toList_inj, String.toList_intercalate, splitDots, List.map_map]
  have hid : String.toList ∘ String.ofList = id := by
    funext chars
    simp
  rw [hid, List.map_id]
  exact List.intercalate_splitOn '.'

theorem splitDots_append (outer rest : String) :
    splitDots (outer ++ "." ++ rest) = splitDots outer ++ splitDots rest := by
  have hdot : ".".toList = ['.'] := rfl
  simp only [splitDots, String.toList_append, hdot, List.append_assoc, List.singleton_append,
    List.splitOn_append_cons_self, List.map_append]

theorem splitDots_ne_nil (text : String) : splitDots text ≠ [] := by
  simp [splitDots, List.splitOn_ne_nil]

theorem splitDots_of_notMem {text : String} (h : '.' ∉ text.toList) :
    splitDots text = [text] := by
  rw [splitDots, List.splitOn_eq_singleton h]
  simp

/-- A name is split at its last dot, when it has one. -/
theorem exists_lastDot (text : String) (h : '.' ∈ text.toList) :
    ∃ front back : String, text = front ++ "." ++ back ∧ '.' ∉ back.toList := by
  have hreverse : '.' ∈ text.toList.reverse := List.mem_reverse.mpr h
  obtain ⟨back, front, hsplit, hback⟩ := List.eq_append_cons_of_mem hreverse
  refine ⟨String.ofList front.reverse, String.ofList back.reverse, ?_, by simpa using hback⟩
  have htext : text.toList = front.reverse ++ '.' :: back.reverse := by
    rw [← List.reverse_reverse text.toList, hsplit]
    simp
  rw [← String.toList_inj, htext]
  simp

/-- What stands before the last dot is the name without its last component. -/
theorem beforeLastDot_eq (text : String) :
    beforeLastDot text = ".".intercalate (splitDots text).dropLast := by
  by_cases hdot : '.' ∈ text.toList
  · obtain ⟨front, back, rfl, hback⟩ := exists_lastDot text hdot
    rw [splitDots_append, splitDots_of_notMem hback, List.dropLast_concat, join_splitDots]
    have hreverse : (front ++ "." ++ back).toList.reverse =
        back.toList.reverse ++ '.' :: front.toList.reverse := by
      simp
    have hskip : back.toList.reverse.dropWhile (· ≠ '.') = [] := by
      rw [List.dropWhile_eq_nil_iff]
      intro c hc
      have : c ≠ '.' := fun heq => hback (heq ▸ List.mem_reverse.mp hc)
      simpa using this
    rw [beforeLastDot, hreverse, List.dropWhile_append, hskip]
    simp
  · have hnone : text.toList.reverse.dropWhile (· ≠ '.') = [] := by
      rw [List.dropWhile_eq_nil_iff]
      intro c hc
      have : c ≠ '.' := fun heq => hdot (heq ▸ List.mem_reverse.mp hc)
      simpa using this
    rw [beforeLastDot, hnone, splitDots_of_notMem hdot]
    rfl

end SemanticCi.Extraction
