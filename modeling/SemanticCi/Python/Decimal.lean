import SemanticCi.Python.Loads

/-! `int` reads the numbers that `%d` prints. -/

namespace SemanticCi.Python

theorem decimalDigit?_of_isDigit {c : Char} (h : c.isDigit) :
    decimalDigit? c = some (c.toNat - 48) := by
  have hc : 48 ≤ c.toNat ∧ c.toNat ≤ 57 := Char.isDigit_iff_toNat.mp h
  have hfind : decimalZeros.find? (fun first => first ≤ c.toNat ∧ c.toNat < first + 10) =
      some 0x30 := by
    rw [decimalZeros, List.find?_cons_of_pos]
    exact decide_eq_true (by omega)
  rw [decimalDigit?, hfind]
  rfl

theorem asciiDigits_of_isDigit {digits : List Char} (h : ∀ c ∈ digits, c.isDigit) :
    asciiDigits digits = digits := by
  have hself : ∀ c ∈ digits,
      ((decimalDigit? c).elim c fun digit => Char.ofNat (48 + digit)) = c := by
    intro c hc
    have hrange : 48 ≤ c.toNat ∧ c.toNat ≤ 57 := Char.isDigit_iff_toNat.mp (h c hc)
    rw [decimalDigit?_of_isDigit (h c hc), Option.elim_some, Nat.add_sub_cancel' (by omega)]
    exact Char.ofNat_toNat c
  rw [asciiDigits, List.map_congr_left hself, List.map_id']

theorem dropUnderscores_of_isDigit {digits : List Char} (h : ∀ c ∈ digits, c.isDigit)
    {last : Option Char} (hlast : last ≠ some '_') :
    dropUnderscores last digits = some digits := by
  induction digits generalizing last with
  | nil => simp [dropUnderscores, hlast]
  | cons c digits ih =>
      obtain ⟨hc, hdigits⟩ := List.forall_mem_cons.mp h
      have hne : c ≠ '_' := by
        rintro rfl
        exact absurd hc (by decide)
      rw [dropUnderscores, if_neg hne, if_neg (by simp [hlast]),
        ih hdigits (by simpa using hne), Option.map_some]

theorem dropWhile_isNumberSpace {digits : List Char} (h : ∀ c ∈ digits, c.isDigit) :
    digits.dropWhile isNumberSpace = digits := by
  cases digits with
  | nil => rfl
  | cons c digits =>
      have hc := h c List.mem_cons_self
      have hspace : isNumberSpace c = false := by
        have hdecimal : isDecimal c := by rw [isDecimal, decimalDigit?_of_isDigit hc]; rfl
        simp [isNumberSpace, isSpace_of_isDecimal hdecimal]
      rw [List.dropWhile_cons, hspace]
      rfl

theorem decimalValue_of_isDigit {digits : List Char} (h : ∀ c ∈ digits, c.isDigit) :
    decimalValue digits = Nat.ofDigitChars 10 digits 0 := by
  rw [decimalValue, Nat.ofDigitChars_eq_foldl]
  refine List.foldl_ext _ _ _ fun value c hc => ?_
  rw [decimalDigit?_of_isDigit (h c hc)]
  rfl

/-- `int` reads what `%d` prints, up to the limit on digits. -/
theorem intOfText_repr (n : ℕ) :
    intOfText n.repr = if n.repr.length ≤ maxIntDigits then some (n : ℤ) else none := by
  have hdigits : ∀ c ∈ Nat.toDigits 10 n, c.isDigit :=
    fun c hc => Nat.isDigit_of_mem_toDigits (by decide) (by decide) hc
  have hreverse : ∀ c ∈ (Nat.toDigits 10 n).reverse, c.isDigit :=
    fun c hc => hdigits c (List.mem_reverse.mp hc)
  have hstrip : stripNumber n.repr = Nat.toDigits 10 n := by
    rw [stripNumber, Nat.toList_repr, dropWhile_isNumberSpace hdigits,
      dropWhile_isNumberSpace hreverse, List.reverse_reverse]
  have hsigned : readSigned readDigits (Nat.toDigits 10 n) = readDigits false (Nat.toDigits 10 n) := by
    cases hchars : Nat.toDigits 10 n with
    | nil => rfl
    | cons c rest =>
        have hc := hdigits c (hchars ▸ List.mem_cons_self)
        rw [readSigned.eq_3]
        · rintro rest' h
          rw [(List.cons.inj h).1] at hc
          exact absurd hc (by decide)
        · rintro rest' h
          rw [(List.cons.inj h).1] at hc
          exact absurd hc (by decide)
  rw [intOfText, hstrip, asciiDigits_of_isDigit hdigits,
    dropUnderscores_of_isDigit hdigits (by simp), Option.bind_some, hsigned, readDigits,
    decimalValue_of_isDigit hdigits, Nat.ofDigitChars_ten_toDigits]
  have hlength : n.repr.length = (Nat.toDigits 10 n).length := by
    rw [← String.length_toList, Nat.toList_repr]
  simp [hlength, Nat.toDigits_ne_nil, List.all_eq_true.mpr hdigits]

end SemanticCi.Python
