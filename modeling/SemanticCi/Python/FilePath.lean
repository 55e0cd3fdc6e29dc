import SemanticCi.Python.Text

/-! `pathlib.Path` on POSIX, absolute or relative. -/

namespace SemanticCi.Python

/-- A `Path`: its root is empty, `/` or `//`. -/
structure FilePath where
  root : String
  parts : PurePath
deriving DecidableEq

namespace FilePath

/-- The root of a path. Exactly two slashes in front are kept. -/
def rootOf (text : List Char) : String :=
  match text.takeWhile (· = '/') with
  | [] => ""
  | ['/', '/'] => "//"
  | _ => "/"

/-- `Path(text)`. -/
def ofText (text : String) : FilePath where
  root := rootOf text.toList
  parts := (splitOn '/' text).filter fun part => part ≠ "" ∧ part ≠ "."

/-- `str(path)`. -/
def text (path : FilePath) : String :=
  if path.root = "" then path.parts.text else path.root ++ "/".intercalate path.parts

/-- A relative path. -/
def ofPure (parts : PurePath) : FilePath := ⟨"", parts⟩

@[simp] theorem text_ofPure (parts : PurePath) : (ofPure parts).text = parts.text := rfl

/-- A relative path as its parts spell it. -/
def Normal (text : String) : Prop :=
  ∃ parts : List String, parts ≠ [] ∧ text = "/".intercalate parts ∧
    ∀ part ∈ parts, part ≠ "" ∧ part ≠ "." ∧ '/' ∉ part.toList

theorem toList_intercalate (parts : List String) :
    ("/".intercalate parts).toList = ['/'].intercalate (parts.map String.toList) := by
  have hslash : ("/" : String).toList = ['/'] := by decide
  rw [String.toList_intercalate, hslash]

/-- A path in its normal spelling keeps it. -/
theorem text_ofText {text : String} (h : Normal text) : (ofText text).text = text := by
  obtain ⟨parts, hne, rfl, hparts⟩ := h
  have hsplit : splitOn '/' ("/".intercalate parts) = parts := by
    rw [splitOn, toList_intercalate, List.splitOn_intercalate]
    · simp
    · simpa using fun part hpart => (hparts part hpart).2.2
    · simpa using hne
  have hroot : rootOf ("/".intercalate parts).toList = "" := by
    cases parts with
    | nil => exact absurd rfl hne
    | cons part rest =>
        obtain ⟨hempty, -, hslash⟩ := hparts part List.mem_cons_self
        cases hchars : part.toList with
        | nil => exact absurd (String.toList_inj.mp (hchars.trans String.toList_empty.symm)) hempty
        | cons c cs =>
            have hc : c ≠ '/' := by
              rintro rfl
              exact hslash (hchars ▸ List.mem_cons_self)
            have hhead : ∃ tail, ("/".intercalate (part :: rest)).toList = c :: tail := by
              rw [toList_intercalate, List.map_cons, hchars]
              cases rest with
              | nil => exact ⟨cs, by simp⟩
              | cons next rest => exact ⟨_, by simp; rfl⟩
            obtain ⟨tail, htail⟩ := hhead
            rw [rootOf, htail, List.takeWhile_cons_of_neg (by simpa using hc)]
  have hfilter : parts.filter (fun part => part ≠ "" ∧ part ≠ ".") = parts :=
    List.filter_eq_self.mpr fun part hpart =>
      decide_eq_true ⟨(hparts part hpart).1, (hparts part hpart).2.1⟩
  rw [ofText, FilePath.text, if_pos hroot, hsplit, hfilter, PurePath.text, if_neg hne]

end FilePath

end SemanticCi.Python
