import SemanticCi.Model.Markers
import Mathlib.Data.List.Lex
import Mathlib.Data.List.GetD
import Mathlib.Order.WithBot

/-! The order of versions in markers against the order of PEP 440. -/

namespace SemanticCi.Markers

open SemanticCi.Python

/-! ## Versions as PEP 440 reads them -/

/-- The labels of a pre-release with their ranks, and whether a label is a short one. The
longer of two labels with one beginning comes first. -/
def pepLabels : List (String × (ℕ × Bool)) :=
  [("alpha", (0, false)), ("a", (0, true)), ("beta", (1, false)), ("b", (1, true)),
    ("rc", (2, true)), ("c", (2, true)), ("preview", (2, false)), ("pre", (2, true))]

structure Version where
  release : List ℕ
  pre : Option ((ℕ × Bool) × ℕ)
  post : Option ℕ
  dev : Option ℕ
deriving DecidableEq

/-- A release with optional pre, post and dev parts, and nothing behind them. -/
def readVersion (value : String) : Option Version :=
  (matchRelease (dropVersionStart value.toList)).bind fun (release, text) =>
    let (pre, text) := matchPre pepLabels text
    let (post, text) := matchNumbered "post" text
    let (dev, text) := matchNumbered "dev" text
    if text = [] then
      some {
        release := release.map decimalValue
        pre := pre.map fun (label, digits) => (label, decimalValue digits)
        post := post.map decimalValue
        dev := dev.map decimalValue }
    else none

/-- The digits that the code makes numbers of: those of the release, and of the one part behind
it that it sorts by. -/
def convertedDigits (value : String) : List (List Char) :=
  match matchRelease (dropVersionStart value.toList) with
  | none => []
  | some (parts, text) =>
      let (pre, text) := matchPre preLabels text
      let (post, text) := matchNumbered "post" text
      let (dev, _) := matchNumbered "dev" text
      parts ++ ((pre.map Prod.snd).or (dev.or post)).toList

/-- No number of the version is too long for `int`. -/
def NumbersShort (value : String) : Prop :=
  ∀ digits ∈ convertedDigits value, digits.length ≤ maxIntDigits

instance (value : String) : Decidable (NumbersShort value) :=
  inferInstanceAs (Decidable (∀ digits ∈ convertedDigits value, digits.length ≤ maxIntDigits))

/-! ### Releases -/

/-- Missing components count as zero. -/
def SameRelease (xs ys : List ℕ) : Prop := ∀ i, xs.getD i 0 = ys.getD i 0

def ReleaseBefore (xs ys : List ℕ) : Prop :=
  ∃ i, (∀ j < i, xs.getD j 0 = ys.getD j 0) ∧ xs.getD i 0 < ys.getD i 0

theorem getD_padRelease (xs : List ℕ) (width i : ℕ) :
    (padRelease xs width).getD i 0 = xs.getD i 0 := by
  rw [padRelease]
  by_cases h : i < xs.length
  · rw [List.getD_append _ _ _ _ h]
  · rw [List.getD_append_right _ _ _ _ (by omega), List.getD_eq_default xs 0 (by omega)]
    simp [List.getD_eq_getElem?_getD, List.getElem?_replicate]
    split <;> rfl

theorem length_padRelease {xs : List ℕ} {width : ℕ} (h : xs.length ≤ width) :
    (padRelease xs width).length = width := by
  rw [padRelease, List.length_append, List.length_replicate]
  omega

section Padded

variable {xs ys : List ℕ} {width : ℕ} (hx : xs.length ≤ width) (hy : ys.length ≤ width)

include hx hy

theorem padRelease_eq_iff : padRelease xs width = padRelease ys width ↔ SameRelease xs ys := by
  constructor
  · intro h i
    rw [← getD_padRelease xs width, h, getD_padRelease]
  · intro h
    apply List.ext_getElem
    · rw [length_padRelease hx, length_padRelease hy]
    · intro i hi hi'
      rw [← List.getD_eq_getElem _ 0 hi, ← List.getD_eq_getElem _ 0 hi', getD_padRelease,
        getD_padRelease]
      exact h i

theorem padRelease_lt_iff : padRelease xs width < padRelease ys width ↔ ReleaseBefore xs ys := by
  have hlength : (padRelease xs width).length = (padRelease ys width).length := by
    rw [length_padRelease hx, length_padRelease hy]
  rw [List.lt_iff_exists]
  constructor
  · rintro (⟨-, h⟩ | ⟨i, hi, hi', hsame, hlt⟩)
    · omega
    · refine ⟨i, fun j hj => ?_, ?_⟩
      · have h := hsame j hj
        rwa [← List.getD_eq_getElem _ 0, ← List.getD_eq_getElem _ 0, getD_padRelease,
          getD_padRelease] at h
      · rwa [← List.getD_eq_getElem _ 0, ← List.getD_eq_getElem _ 0, getD_padRelease,
          getD_padRelease] at hlt
  · rintro ⟨i, hsame, hlt⟩
    have hi : i < (padRelease xs width).length := by
      by_contra hi
      rw [length_padRelease hx] at hi
      rw [List.getD_eq_default ys 0 (by omega)] at hlt
      omega
    refine Or.inr ⟨i, hi, hlength ▸ hi, fun j hj => ?_, ?_⟩
    · rw [← List.getD_eq_getElem _ 0, ← List.getD_eq_getElem _ 0, getD_padRelease, getD_padRelease]
      exact hsame j hj
    · rwa [← List.getD_eq_getElem _ 0, ← List.getD_eq_getElem _ 0, getD_padRelease,
        getD_padRelease]

end Padded

theorem not_sameRelease_of_before {xs ys : List ℕ} (h : ReleaseBefore xs ys) :
    ¬ SameRelease xs ys := by
  obtain ⟨i, -, hlt⟩ := h
  exact fun hsame => hlt.ne (hsame i)

theorem SameRelease.symm {xs ys : List ℕ} (h : SameRelease xs ys) : SameRelease ys xs :=
  fun i => (h i).symm

/-! ### Stages -/

/-- What stands behind the release. -/
inductive Stage where
  | dev (n : ℕ)
  | pre (rank : ℕ) (short : Bool) (n : ℕ) (post dev : Option ℕ)
  | final
  | post (n : ℕ)
  | devOfPost (post dev : ℕ)

def Version.stage (v : Version) : Stage :=
  match v.pre, v.post, v.dev with
  | some ((rank, short), n), post, dev => .pre rank short n post dev
  | none, none, some n => .dev n
  | none, none, none => .final
  | none, some n, none => .post n
  | none, some post, some dev => .devOfPost post dev

/-- What the code sorts a stage by. A long label loses its number and all that follows. -/
def Stage.phase : Stage → ℤ ×ₗ ℕ ×ₗ ℕ
  | .dev n => toLex (-1, toLex (0, n))
  | .pre rank short n _ _ => toLex (0, toLex (rank, if short then n else 0))
  | .final => toLex (1, toLex (0, 0))
  | .post n => toLex (2, toLex (0, n))
  | .devOfPost _ devN => toLex (-1, toLex (0, devN))

/-- A missing post part sorts first and a missing dev part last. -/
def postDevKey (postN devN : Option ℕ) : WithBot ℕ ×ₗ WithTop ℕ :=
  toLex (postN.elim ⊥ WithBot.some, devN.elim ⊤ WithTop.some)

/-- What PEP 440 sorts a stage by. Without a pre part only a bare dev release sorts before the
pre-releases. -/
def Stage.pepKey : Stage → (ℕ ×ₗ ℕ ×ₗ ℕ) ×ₗ WithBot ℕ ×ₗ WithTop ℕ
  | .dev n => toLex (toLex (0, toLex (0, 0)), postDevKey none (some n))
  | .pre rank _ n postN devN => toLex (toLex (1, toLex (rank, n)), postDevKey postN devN)
  | .final => toLex (toLex (2, toLex (0, 0)), postDevKey none none)
  | .post n => toLex (toLex (2, toLex (0, 0)), postDevKey (some n) none)
  | .devOfPost postN devN =>
      toLex (toLex (2, toLex (0, 0)), postDevKey (some postN) (some devN))

/-- The pairs of stages whose order the code finds. -/
inductive Stage.Ordered : Stage → Stage → Prop where
  | dev_dev {m n} (h : m < n) : Ordered (.dev m) (.dev n)
  | dev_pre {m rank short n post dev} : Ordered (.dev m) (.pre rank short n post dev)
  | dev_final {m} : Ordered (.dev m) .final
  | dev_post {m n} : Ordered (.dev m) (.post n)
  | dev_devOfPost {m post dev} (h : m < dev) : Ordered (.dev m) (.devOfPost post dev)
  | pre_rank {rank short n post dev rank' short' n' post' dev'} (h : rank < rank') :
      Ordered (.pre rank short n post dev) (.pre rank' short' n' post' dev')
  | pre_short {rank n post dev n' post' dev'} (h : n < n') :
      Ordered (.pre rank true n post dev) (.pre rank true n' post' dev')
  | pre_long {rank n post dev n' post' dev'} (hpos : 0 < n')
      (h : n < n' ∨ n = n' ∧ postDevKey post dev < postDevKey post' dev') :
      Ordered (.pre rank false n post dev) (.pre rank true n' post' dev')
  | pre_final {rank short n post dev} : Ordered (.pre rank short n post dev) .final
  | pre_post {rank short n post dev m} : Ordered (.pre rank short n post dev) (.post m)
  | final_post {n} : Ordered .final (.post n)
  | post_post {m n} (h : m < n) : Ordered (.post m) (.post n)
  | devOfPost_post {post dev n} (h : post ≤ n) : Ordered (.devOfPost post dev) (.post n)
  | devOfPost_devOfPost {post dev post' dev'} (hpost : post ≤ post') (hdev : dev < dev') :
      Ordered (.devOfPost post dev) (.devOfPost post' dev')

theorem Stage.ordered_iff {s t : Stage} :
    s.Ordered t ↔ s.phase < t.phase ∧ s.pepKey < t.pepKey := by
  constructor
  · intro h
    cases h <;> simp_all [Stage.phase, Stage.pepKey, postDevKey, Prod.Lex.toLex_lt_toLex] <;> omega
  · rintro ⟨hphase, hpep⟩
    cases s <;> cases t <;>
      simp_all [Stage.phase, Stage.pepKey, postDevKey, Prod.Lex.toLex_lt_toLex]
    case dev.dev => exact .dev_dev hphase
    case dev.pre => exact .dev_pre
    case dev.final => exact .dev_final
    case dev.post => exact .dev_post
    case dev.devOfPost => exact .dev_devOfPost hphase
    case pre.final => exact .pre_final
    case pre.post => exact .pre_post
    case final.post => exact .final_post
    case post.post => exact .post_post hphase
    case devOfPost.post => exact .devOfPost_post (by omega)
    case devOfPost.devOfPost => exact .devOfPost_devOfPost (by omega) hphase
    case pre.pre rank short n postN devN rank' short' n' postN' devN' =>
      by_cases hrank : rank < rank'
      · exact .pre_rank hrank
      · obtain ⟨rfl, hnumber⟩ := hphase.resolve_left hrank
        have hshort : short' = true ∧ 0 < n' := by
          cases short' <;> simp at hnumber ⊢
          omega
        obtain ⟨rfl, hpos⟩ := hshort
        cases short with
        | true => exact .pre_short (by simpa using hnumber)
        | false =>
            apply Ordered.pre_long hpos
            simpa [postDevKey, Prod.Lex.toLex_lt_toLex] using hpep

/-! ## The code's reading -/

theorem dropWord_eq_some {word : String} {text rest : List Char} :
    dropWord word text = some rest ↔
      (text.take word.length).map ignoreCase = word.toList ∧ rest = text.drop word.length := by
  rw [dropWord]
  split <;> simp_all [eq_comm]

/-- A word leaves the end of a longer word behind. -/
theorem dropWord_append {word ending : String} {text rest : List Char}
    (h : dropWord (word ++ ending) text = some rest) :
    ∃ middle, dropWord word text = some middle ∧ dropWord ending middle = some rest := by
  obtain ⟨hword, rfl⟩ := dropWord_eq_some.mp h
  rw [String.length_append, List.take_add, List.map_append, String.toList_append] at hword
  have hlength : ((text.take word.length).map ignoreCase).length = word.toList.length := by
    have h := congrArg List.length hword
    simp [← String.length_toList] at h ⊢
    omega
  obtain ⟨hfront, hback⟩ := List.append_inj hword hlength
  refine ⟨_, dropWord_eq_some.mpr ⟨hfront, rfl⟩, dropWord_eq_some.mpr ⟨hback, ?_⟩⟩
  rw [List.drop_drop, String.length_append]

/-- No digit stands before a word. -/
theorem takeWhile_isDecimal_of_dropWord {c : Char} {word : String} {text rest : List Char}
    (h : dropWord word text = some rest) (hc : word.toList.head? = some c) (hlower : c.isLower) :
    text.takeWhile isDecimal = [] := by
  obtain ⟨hword, -⟩ := dropWord_eq_some.mp h
  cases text with
  | nil => rfl
  | cons d text =>
      rw [List.takeWhile_cons, if_neg]
      intro hd
      apply ignoreCase_ne_of_isDecimal hd hlower
      rw [← hword] at hc
      cases hlength : word.length with
      | zero => simp [hlength] at hc
      | succ n => simpa [hlength] using hc

/-- Behind the beginning of a long label the code finds no number. -/
theorem dropWord_long_label (label ending : String) {c : Char} {text rest : List Char}
    (h : dropWord (label ++ ending) text = some rest) (hc : ending.toList.head? = some c)
    (hlower : c.isLower) :
    ∃ middle, dropWord label text = some middle ∧ middle.takeWhile isDecimal = [] := by
  obtain ⟨middle, hmiddle, hending⟩ := dropWord_append h
  exact ⟨middle, hmiddle, takeWhile_isDecimal_of_dropWord hending hc hlower⟩

theorem matchPre_preLabels (text : List Char) :
    match (matchPre pepLabels text).1 with
    | none => matchPre pepLabels text = (none, text) ∧ matchPre preLabels text = (none, text)
    | some ((rank, short), digits) =>
        (matchPre preLabels text).1 = some (rank, if short then digits else []) := by
  cases halpha : dropWord "alpha" text with
  | some rest =>
      obtain ⟨middle, ha, hnumber⟩ := dropWord_long_label "a" "lpha" halpha rfl rfl
      simp [matchPre, pepLabels, preLabels, halpha, ha, hnumber]
  | none =>
  cases ha : dropWord "a" text with
  | some rest => simp [matchPre, pepLabels, preLabels, halpha, ha]
  | none =>
  cases hbeta : dropWord "beta" text with
  | some rest =>
      obtain ⟨middle, hb, hnumber⟩ := dropWord_long_label "b" "eta" hbeta rfl rfl
      simp [matchPre, pepLabels, preLabels, halpha, ha, hbeta, hb, hnumber]
  | none =>
  cases hb : dropWord "b" text with
  | some rest => simp [matchPre, pepLabels, preLabels, halpha, ha, hbeta, hb]
  | none =>
  cases hrc : dropWord "rc" text with
  | some rest => simp [matchPre, pepLabels, preLabels, halpha, ha, hbeta, hb, hrc]
  | none =>
  cases hc : dropWord "c" text with
  | some rest => simp [matchPre, pepLabels, preLabels, halpha, ha, hbeta, hb, hrc, hc]
  | none =>
  cases hpreview : dropWord "preview" text with
  | some rest =>
      obtain ⟨middle, hpre, hnumber⟩ :=
        dropWord_long_label "pre" "view" hpreview rfl rfl
      simp [matchPre, pepLabels, preLabels, halpha, ha, hbeta, hb, hrc, hc, hpreview, hpre, hnumber]
  | none =>
      cases hpre : dropWord "pre" text <;>
        simp [matchPre, pepLabels, preLabels, halpha, ha, hbeta, hb, hrc, hc, hpreview, hpre]

theorem mapM_intOfDigits (parts : List (List Char)) :
    parts.mapM intOfDigits =
      if ∀ digits ∈ parts, digits.length ≤ maxIntDigits then some (parts.map decimalValue)
      else none := by
  induction parts with
  | nil => rfl
  | cons digits rest ih =>
      simp only [List.mapM_cons, ih, intOfDigits, List.forall_mem_cons]
      by_cases hdigits : digits.length ≤ maxIntDigits
      · by_cases hrest : ∀ digits ∈ rest, digits.length ≤ maxIntDigits
        · rw [if_pos hdigits, if_pos hrest, if_pos ⟨hdigits, hrest⟩]
          rfl
        · rw [if_pos hdigits, if_neg hrest, if_neg (mt And.right hrest)]
          rfl
      · rw [if_neg hdigits, if_neg (mt And.left hdigits)]
        rfl

/-- The code sorts by the stage of a version when its numbers are short. -/
theorem pep440ishVersion_of_readVersion {value : String} {v : Version}
    (h : readVersion value = some v) :
    pep440ishVersion value =
      if NumbersShort value then some (some (v.release, v.stage.phase)) else none := by
  rw [readVersion, Option.bind_eq_some_iff] at h
  obtain ⟨⟨parts, text⟩, hrelease, h⟩ := h
  have hpre := matchPre_preLabels text
  simp only [pep440ishVersion, NumbersShort, convertedDigits, hrelease]
  cases hpep : matchPre pepLabels text with
  | mk pre rest =>
  cases hcode : matchPre preLabels text with
  | mk codePre codeRest =>
  simp only [hpep, hcode] at h hpre ⊢
  split at h <;> cases h
  simp only [List.forall_mem_append, mapM_intOfDigits]
  by_cases hparts : ∀ digits ∈ parts, digits.length ≤ maxIntDigits
  swap
  · simp [hparts]
  simp only [if_pos hparts, and_iff_right hparts]
  cases pre with
  | some pre =>
      obtain ⟨⟨rank, short⟩, digits⟩ := pre
      obtain rfl : codePre = some (rank, if short then digits else []) := hpre
      cases short with
      | false => simp [versionPhase, intOfDigits, Version.stage, Stage.phase, decimalValue]
      | true =>
          by_cases hdigits : digits.length ≤ maxIntDigits <;>
            simp [versionPhase, intOfDigits, Version.stage, Stage.phase, hdigits]
  | none =>
      obtain ⟨⟨-, rfl⟩, hpre⟩ := hpre
      cases hpre
      cases hdev : (matchNumbered "dev" (matchNumbered "post" text).2).1 with
      | some digits =>
          cases hpost : (matchNumbered "post" text).1 <;>
            by_cases hdigits : digits.length ≤ maxIntDigits <;>
              simp [versionPhase, intOfDigits, Version.stage, Stage.phase, hdigits]
      | none =>
          cases hpost : (matchNumbered "post" text).1 with
          | none => simp [versionPhase, Version.stage, Stage.phase]
          | some digits =>
              by_cases hdigits : digits.length ≤ maxIntDigits <;>
                simp [versionPhase, intOfDigits, Version.stage, Stage.phase, hdigits]

/-! ### Wildcards -/

theorem releaseParts_append_wildcard (part text : List Char) (h : (releaseParts part text).2 = []) :
    releaseParts part (text ++ ['.', '*']) = ((releaseParts part text).1, ['.', '*']) := by
  fun_induction releaseParts part text with
  | case1 part => simp [releaseParts, show isDecimal '.' = false by decide,
      show isDecimal '*' = false by decide]
  | case2 part c rest hc ih =>
      rw [List.cons_append, releaseParts, if_pos hc]
      exact ih h
  | case3 part c rest hc hdot parts tail htail ih =>
      have hhead : (rest ++ ['.', '*']).head?.any isDecimal := by
        cases rest with
        | nil => simp at hdot
        | cons d rest => exact hdot.2
      rw [htail] at ih
      rw [List.cons_append, releaseParts, if_neg hc, if_pos ⟨hdot.1, hhead⟩, ih h]
  | case4 part c rest hc hdot => simp at h

theorem dropVersionStart_of_isDecimal {c : Char} {text : List Char} (h : isDecimal c) :
    dropVersionStart (c :: text) = c :: text := by
  have hv : ignoreCase c ≠ 'v' := ignoreCase_ne_of_isDecimal h rfl
  have hword : dropWord "v" (c :: text) = none := by
    rw [dropWord, if_neg]
    simpa [show "v".length = 1 from rfl] using hv
  rw [dropVersionStart, List.dropWhile_cons, isSpace_of_isDecimal h]
  simp [hword]

/-- A version has no wildcard behind it. -/
theorem versionWildcardMatches_of_readVersion {value other : String} {v : Version}
    (h : readVersion value = some v) : versionWildcardMatches value other = false := by
  rw [versionWildcardMatches, if_neg]
  rintro ⟨hend, hfront⟩
  generalize hfrontEq : value.toList.take (value.toList.length - 2) = front at hend hfront
  have hchars : value.toList = front ++ ['.', '*'] := by
    have htake : front = value.toList.take front.length :=
      List.prefix_iff_eq_take.mp (hfrontEq ▸ List.take_prefix _ _)
    rw [← List.take_append_drop front.length value.toList, ← htake, hend]
  cases front with
  | nil => simp [matchRelease] at hfront
  | cons c rest =>
      have hc : isDecimal c := by
        by_contra hc
        simp [matchRelease, hc] at hfront
      simp only [matchRelease, List.head?_cons, Option.any_some, hc, if_true,
        decide_eq_true_eq] at hfront
      have hparts := releaseParts_append_wildcard _ _ hfront
      have hread : matchRelease (c :: rest ++ ['.', '*']) =
          some ((releaseParts [] (c :: rest)).1, ['.', '*']) := by
        rw [matchRelease, List.cons_append, List.head?_cons, Option.any_some, if_pos hc,
          ← List.cons_append, hparts]
      rw [readVersion, hchars, List.cons_append, dropVersionStart_of_isDecimal hc,
        ← List.cons_append, hread] at h
      have htail : matchPre pepLabels ['.', '*'] = (none, ['.', '*']) ∧
          matchNumbered "post" ['.', '*'] = (none, ['.', '*']) ∧
          matchNumbered "dev" ['.', '*'] = (none, ['.', '*']) := by
        refine ⟨?_, ?_, ?_⟩ <;> decide
      obtain ⟨hpre, hpost, hdev⟩ := htail
      simp [hpre, hpost, hdev] at h

/-! ## The comparison -/

theorem threeWay_cases {α : Type} [LinearOrder α] [DecidableLT α] (left right : α) :
    (threeWay left right < 0 ↔ left < right) ∧ (threeWay left right > 0 ↔ right < left) ∧
      (threeWay left right = 0 ↔ left = right) := by
  rcases lt_trichotomy left right with h | rfl | h
  · simp [threeWay, h, h.asymm, h.ne]
  · simp [threeWay]
  · simp [threeWay, h, h.asymm, h.ne']

/-- The code finds that a comparison holds. -/
def Holds (left : String) (op : CompareOp) (right : String) : Prop :=
  compareMarkerValues left op right = some true

/-- PEP 440 sorts a version before another one. -/
def Version.Before (v w : Version) : Prop :=
  ReleaseBefore v.release w.release ∨
    SameRelease v.release w.release ∧ v.stage.pepKey < w.stage.pepKey

def Version.Same (v w : Version) : Prop :=
  SameRelease v.release w.release ∧ v.stage.pepKey = w.stage.pepKey

/-- The comparisons of two texts are those of one order, and it is the order of PEP 440. -/
structure ConsistentOrder (left right : String) (v w : Version) : Prop where
  some_holds : Holds left .lt right ∨ Holds left .eq right ∨ Holds left .gt right
  one_holds : ¬ (Holds left .lt right ∧ Holds left .eq right) ∧
    ¬ (Holds left .lt right ∧ Holds left .gt right) ∧
    ¬ (Holds left .eq right ∧ Holds left .gt right)
  le_iff : Holds left .ltE right ↔ Holds left .lt right ∨ Holds left .eq right
  ge_iff : Holds left .gtE right ↔ Holds left .gt right ∨ Holds left .eq right
  ne_iff : Holds left .notEq right ↔ ¬ Holds left .eq right
  lt_iff_pep : Holds left .lt right ↔ v.Before w
  eq_iff_pep : Holds left .eq right ↔ v.Same w
  gt_iff_pep : Holds left .gt right ↔ w.Before v

section Compared

variable {v w : Version}

theorem comparePadded_of_sameRelease (h : SameRelease v.release w.release) :
    comparePadded (v.release, v.stage.phase) (w.release, w.stage.phase) =
      threeWay v.stage.phase w.stage.phase :=
  if_neg (not_not_intro ((padRelease_eq_iff (le_max_left _ _) (le_max_right _ _)).mpr h))

theorem comparePadded_of_not_sameRelease (h : ¬ SameRelease v.release w.release) :
    let order := comparePadded (v.release, v.stage.phase) (w.release, w.stage.phase)
    (order < 0 ↔ ReleaseBefore v.release w.release) ∧
      (order > 0 ↔ ReleaseBefore w.release v.release) ∧ order ≠ 0 := by
  have hx := le_max_left v.release.length w.release.length
  have hy := le_max_right v.release.length w.release.length
  have hpadded := mt (padRelease_eq_iff hx hy).mp h
  obtain ⟨hlt, hgt, hzero⟩ := threeWay_cases
    (padRelease v.release (max v.release.length w.release.length))
    (padRelease w.release (max v.release.length w.release.length))
  simp only [comparePadded, if_pos hpadded]
  rw [hlt, hgt, ne_eq, hzero, padRelease_lt_iff hx hy, padRelease_lt_iff hy hx]
  exact ⟨Iff.rfl, Iff.rfl, hpadded⟩

variable {left right : String} (hv : readVersion left = some v) (hw : readVersion right = some w)

include hv hw

theorem compareMarkerVersions_of_short (hleft : NumbersShort left) (hright : NumbersShort right) :
    compareMarkerVersions left right =
      some (comparePadded (v.release, v.stage.phase) (w.release, w.stage.phase)) := by
  rw [compareMarkerVersions, pep440ishVersion_of_readVersion hv, pep440ishVersion_of_readVersion hw,
    if_pos hleft, if_pos hright]
  rfl

/-- A number that is too long makes the comparison raise. -/
theorem compareMarkerVersions_of_not_short (h : ¬ (NumbersShort left ∧ NumbersShort right)) :
    compareMarkerVersions left right = none := by
  rw [compareMarkerVersions, pep440ishVersion_of_readVersion hv, pep440ishVersion_of_readVersion hw]
  by_cases hleft : NumbersShort left
  · rw [if_pos hleft, if_neg fun hright => h ⟨hleft, hright⟩]
    rfl
  · rw [if_neg hleft]
    rfl

theorem markerValuesEqual_of_readVersion : markerValuesEqual left right = decide (left = right) := by
  rw [markerValuesEqual, versionWildcardMatches_of_readVersion hv,
    versionWildcardMatches_of_readVersion hw, Bool.or_false, Bool.or_false]

theorem holds_eq_iff : Holds left .eq right ↔ left = right := by
  simp [Holds, compareMarkerValues, markerValuesEqual_of_readVersion hv hw]

theorem short_of_consistentOrder (h : ConsistentOrder left right v w) :
    NumbersShort left ∧ NumbersShort right := by
  by_contra hlong
  have hnone := compareMarkerVersions_of_not_short hv hw hlong
  have hlt : ¬ Holds left .lt right := by simp [Holds, compareMarkerValues, hnone]
  have hgt : ¬ Holds left .gt right := by simp [Holds, compareMarkerValues, hnone]
  have hle : ¬ Holds left .ltE right := by simp [Holds, compareMarkerValues, hnone]
  have heq : Holds left .eq right := (h.some_holds.resolve_left hlt).resolve_right hgt
  exact hle (h.le_iff.mpr (.inr heq))

theorem consistentOrder_iff_sign {order : ℤ} (horder : compareMarkerVersions left right = some order) :
    ConsistentOrder left right v w ↔
      (order = 0 ↔ left = right) ∧ (order < 0 ↔ v.Before w) ∧ (order > 0 ↔ w.Before v) ∧
        (left = right ↔ v.Same w) := by
  have heq := holds_eq_iff hv hw
  have hne : Holds left .notEq right ↔ left ≠ right := by
    simp [Holds, compareMarkerValues, markerValuesEqual_of_readVersion hv hw]
  have hlt : Holds left .lt right ↔ order < 0 := by simp [Holds, compareMarkerValues, horder]
  have hgt : Holds left .gt right ↔ order > 0 := by simp [Holds, compareMarkerValues, horder]
  have hle : Holds left .ltE right ↔ order ≤ 0 := by simp [Holds, compareMarkerValues, horder]
  have hge : Holds left .gtE right ↔ order ≥ 0 := by simp [Holds, compareMarkerValues, horder]
  constructor
  · intro h
    have hsome := h.some_holds
    have hone := h.one_holds
    rw [hlt, heq, hgt] at hsome hone
    refine ⟨⟨fun hzero => ?_, fun hsame => ?_⟩, hlt.symm.trans h.lt_iff_pep,
      hgt.symm.trans h.gt_iff_pep, heq.symm.trans h.eq_iff_pep⟩
    · exact (hsome.resolve_left (by omega)).resolve_right (by omega)
    · have hnlt : ¬ order < 0 := fun hlt => hone.1 ⟨hlt, hsame⟩
      have hngt : ¬ order > 0 := fun hgt => hone.2.2 ⟨hsame, hgt⟩
      omega
  · rintro ⟨hzero, hbefore, hafter, hsame⟩
    refine ⟨?_, ?_, ?_, ?_, ?_, ?_, ?_, ?_⟩ <;> simp only [hlt, hgt, hle, hge, heq, hne]
    case refine_1 => rw [← hzero]; omega
    case refine_2 => rw [← hzero]; omega
    case refine_3 => rw [← hzero]; omega
    case refine_4 => rw [← hzero]; omega
    case refine_6 => exact hbefore
    case refine_7 => exact hsame
    case refine_8 => exact hafter

end Compared

/-- When the numbers can be read, the comparison of two versions with one release is right exactly
when they are the same text or the code finds their order. -/
theorem consistentOrder_iff (left right : String) (v w : Version)
    (hv : readVersion left = some v) (hw : readVersion right = some w) :
    ConsistentOrder left right v w ↔
      (NumbersShort left ∧ NumbersShort right) ∧
        (left = right ∨ ¬ SameRelease v.release w.release ∨ v.stage.Ordered w.stage ∨
          w.stage.Ordered v.stage) := by
  by_cases hshort : NumbersShort left ∧ NumbersShort right
  swap
  · exact iff_of_false (fun h => hshort (short_of_consistentOrder hv hw h)) fun h => hshort h.1
  rw [consistentOrder_iff_sign hv hw (compareMarkerVersions_of_short hv hw hshort.1 hshort.2),
    and_iff_right hshort]
  by_cases htext : left = right
  · subst htext
    obtain rfl : v = w := Option.some_injective _ (hv.symm.trans hw)
    have hsame : SameRelease v.release v.release := fun _ => rfl
    have hbefore : ¬ v.Before v := by
      rintro (h | ⟨-, h⟩)
      · exact not_sameRelease_of_before h hsame
      · exact lt_irrefl _ h
    simp [comparePadded_of_sameRelease hsame, threeWay, hbefore, Version.Same, hsame]
  by_cases hrelease : SameRelease v.release w.release
  · have hnot : ¬ ReleaseBefore v.release w.release ∧ ¬ ReleaseBefore w.release v.release :=
      ⟨fun h => not_sameRelease_of_before h hrelease,
        fun h => not_sameRelease_of_before h hrelease.symm⟩
    obtain ⟨hlt, hgt, hzero⟩ := threeWay_cases v.stage.phase w.stage.phase
    rw [comparePadded_of_sameRelease hrelease, hlt, hgt, hzero, Stage.ordered_iff,
      Stage.ordered_iff]
    simp only [htext, hrelease, hrelease.symm, hnot, Version.Before, Version.Same, false_or,
      true_and, not_true_eq_false, iff_false, false_iff]
    constructor
    · rintro ⟨hphase, hbefore, hafter, hpep⟩
      exact (lt_or_gt_of_ne hphase).imp (fun h => ⟨h, hbefore.mp h⟩) fun h => ⟨h, hafter.mp h⟩
    · rintro (⟨hphase, hpep⟩ | ⟨hphase, hpep⟩)
      · simp [hphase, hpep, hphase.ne, hpep.ne, hphase.asymm, hpep.asymm]
      · simp [hphase, hpep, hphase.ne', hpep.ne', hphase.asymm, hpep.asymm]
  · obtain ⟨hlt, hgt, hzero⟩ := comparePadded_of_not_sameRelease hrelease
    have hrelease' : ¬ SameRelease w.release v.release := fun h => hrelease h.symm
    simp [hlt, hgt, hzero, htext, hrelease, hrelease', Version.Before, Version.Same]

theorem consistentOrder_iff_rc :
    ConsistentOrder "3.12rc1" "3.12.0" ⟨[3, 12], some ((2, true), 1), none, none⟩
        ⟨[3, 12, 0], none, none, none⟩ ↔
      (NumbersShort "3.12rc1" ∧ NumbersShort "3.12.0") ∧
        ("3.12rc1" = "3.12.0" ∨ ¬ SameRelease [3, 12] [3, 12, 0] ∨
          (Stage.pre 2 true 1 none none).Ordered .final ∨
          Stage.final.Ordered (.pre 2 true 1 none none)) :=
  consistentOrder_iff "3.12rc1" "3.12.0" ⟨[3, 12], some ((2, true), 1), none, none⟩
    ⟨[3, 12, 0], none, none, none⟩ (by decide +kernel) (by decide +kernel)

/-- A trailing zero keeps two texts of one version from being equal, and a dev release of a post
release sorts before its release. -/
theorem not_consistentOrder :
    readVersion "1.0" = some ⟨[1, 0], none, none, none⟩ ∧
      readVersion "1.0.0" = some ⟨[1, 0, 0], none, none, none⟩ ∧
      readVersion "1.0.post1.dev2" = some ⟨[1, 0], none, some 1, some 2⟩ ∧
      ¬ (Holds "1.0" .lt "1.0.0" ∨ Holds "1.0" .eq "1.0.0" ∨ Holds "1.0" .gt "1.0.0") ∧
      ¬ Holds "1.0.post1.dev2" .gt "1.0" ∧
      ¬ ∀ left right v w, readVersion left = some v → readVersion right = some w →
        ConsistentOrder left right v w := by
  have hnone : ¬ (Holds "1.0" .lt "1.0.0" ∨ Holds "1.0" .eq "1.0.0" ∨ Holds "1.0" .gt "1.0.0") := by
    unfold Holds
    decide +kernel
  refine ⟨by decide +kernel, by decide +kernel, by decide +kernel, hnone, ?_, fun h => ?_⟩
  · unfold Holds
    decide +kernel
  · exact hnone (h "1.0" "1.0.0" ⟨[1, 0], none, none, none⟩ ⟨[1, 0, 0], none, none, none⟩
      (by decide +kernel) (by decide +kernel)).some_holds

end SemanticCi.Markers
