import SemanticCi.Model.PackageTree

/-! Paths below a root: the absolute texts of two files compare as their paths below the root
do, and tell the files apart. -/

namespace SemanticCi.Extraction

open SemanticCi.Python

/-! ## Texts -/

/-- What the absolute texts of all files below a root start with. -/
def rootText (root : Root) : String :=
  if root.parts = [] then "/" else "/" ++ "/".intercalate root.parts ++ "/"

theorem absoluteText_eq (root : Root) {path : PurePath} (h : path ≠ []) :
    absoluteText root path = rootText root ++ path.text := by
  by_cases hroot : root.parts = []
  · simp [absoluteText, rootText, hroot]
  · have happend : root.parts ++ path ≠ [] := by simp [hroot]
    simp only [absoluteText, rootText, PurePath.text, hroot, h, happend, if_false]
    rw [String.intercalate_append_of_ne_nil hroot h]
    simp only [String.append_assoc]

theorem append_le_append_iff (front a b : String) : front ++ a ≤ front ++ b ↔ a ≤ b := by
  simp only [← not_lt, String.lt_iff_toList_lt, String.toList_append]
  induction front.toList with
  | nil => rfl
  | cons c cs ih =>
    rw [List.cons_append, List.cons_append, List.cons_lt_cons_iff, ← ih]
    simp

theorem absoluteText_le_iff (root : Root) {a b : PurePath} (ha : a ≠ []) (hb : b ≠ []) :
    absoluteText root a ≤ absoluteText root b ↔ a.text ≤ b.text := by
  rw [absoluteText_eq root ha, absoluteText_eq root hb]
  exact append_le_append_iff _ _ _

/-- The text of a path is split at its slashes into its parts. -/
theorem splitOn_text {path : PurePath} (hparts : ∀ part ∈ path, ValidPart part)
    (hne : path ≠ []) : path.text.toList.splitOn '/' = path.map String.toList := by
  rw [PurePath.text, if_neg hne, String.toList_intercalate]
  apply List.splitOn_intercalate
  · intro chars hchars
    obtain ⟨part, hpart, rfl⟩ := List.mem_map.mp hchars
    exact (hparts part hpart).2
  · simpa using hne

theorem text_injective {a b : PurePath} (ha : ∀ part ∈ a, ValidPart part)
    (hb : ∀ part ∈ b, ValidPart part) (hane : a ≠ []) (hbne : b ≠ []) (h : a.text = b.text) :
    a = b := by
  have hmap : a.map String.toList = b.map String.toList := by
    rw [← splitOn_text ha hane, ← splitOn_text hb hbne, h]
  exact List.map_injective_iff.mpr (fun _ _ => String.toList_inj.mp) hmap

/-! ## Files of a package -/

theorem path_ne_nil_of_python {path : PurePath} (h : isPythonName path.name) : path ≠ [] := by
  rintro rfl
  exact absurd h (by decide)

namespace PackageTree

variable {package : PackageTree} {file other : SourceFile}

theorem path_ne_nil (h : file ∈ package.files) : file.path ≠ [] :=
  path_ne_nil_of_python (package.python file h)

theorem absoluteText_injective (root : Root) (hfile : file ∈ package.files)
    (hother : other ∈ package.files)
    (h : absoluteText root file.path = absoluteText root other.path) : file.path = other.path := by
  rw [absoluteText_eq root (path_ne_nil hfile), absoluteText_eq root (path_ne_nil hother)] at h
  apply text_injective (package.valid file hfile) (package.valid other hother)
    (path_ne_nil hfile) (path_ne_nil hother)
  exact (String.append_right_inj _).mp h

/-- The absolute text of a file tells the root. -/
theorem root_eq_of_absoluteText_eq {r₁ r₂ : Root} (hfile : file ∈ package.files)
    (h : absoluteText r₁ file.path = absoluteText r₂ file.path) : r₁ = r₂ := by
  have hvalid (root : Root) : ∀ part ∈ root.parts ++ file.path, ValidPart part := by
    intro part hpart
    rcases List.mem_append.mp hpart with hpart | hpart
    · exact root.valid part hpart
    · exact package.valid file hfile part hpart
  have hne (root : Root) : root.parts ++ file.path ≠ [] := by
    simp [path_ne_nil hfile]
  have htext := (String.append_right_inj _).mp h
  have hparts := text_injective (hvalid r₁) (hvalid r₂) (hne r₁) (hne r₂) htext
  cases r₁
  cases r₂
  simpa using hparts

end PackageTree

/-! ## Module names -/

def Root.name (root : Root) : String := PurePath.name root.parts

/-- The stem of a Python file is its name without `.py`. -/
theorem splitSuffix_python (front : List Char) :
    PurePath.splitSuffix (String.ofList (front ++ ['.', 'p', 'y'])) =
      if front = [] then none else some (front, ['p', 'y']) := by
  have hextension : ((front ++ ['.', 'p', 'y']).reverse.takeWhile (· ≠ '.')).reverse =
      ['p', 'y'] := by
    simp [List.takeWhile]
  have hfront : (front ++ ['.', 'p', 'y']).take ((front ++ ['.', 'p', 'y']).length - 2 - 1) =
      front := by
    have hlength : (front ++ ['.', 'p', 'y']).length - 2 - 1 = front.length := by
      simp only [List.length_append, List.length_cons, List.length_nil]
      omega
    rw [hlength, List.take_left]
  simp only [PurePath.splitSuffix, String.toList_ofList, hextension]
  simp only [List.length_cons, List.length_nil, hfront]
  by_cases hnil : front = [] <;> simp [hnil]

theorem stem_eq_init_iff {name : String} (h : isPythonName name) :
    PurePath.stem [name] = "__init__" ↔ name = "__init__.py" := by
  obtain ⟨front, hfront⟩ := List.isSuffixOf_iff_suffix.mp h
  obtain rfl : name = String.ofList (front ++ ['.', 'p', 'y']) := by
    rw [← String.ofList_toList (s := name), ← hfront]
    rfl
  have hname : PurePath.name [String.ofList (front ++ ['.', 'p', 'y'])] =
      String.ofList (front ++ ['.', 'p', 'y']) := rfl
  rw [PurePath.stem, hname, splitSuffix_python]
  by_cases hnil : front = []
  · subst hnil
    decide
  · simp only [hnil, if_false]
    rw [String.ofList_eq, String.ofList_eq]
    constructor
    · rintro rfl
      rfl
    · intro heq
      have hcancel : front ++ ['.', 'p', 'y'] = "__init__".toList ++ ['.', 'p', 'y'] := heq
      exact List.append_cancel_right hcancel

theorem moduleParts_eq_nil_iff {path : PurePath} (h : isPythonName path.name) :
    moduleParts path = [] ↔ path = ["__init__.py"] := by
  obtain ⟨front, name, hpath⟩ : ∃ front name, path = front ++ [name] :=
    ⟨_, _, (List.dropLast_append_getLast (path_ne_nil_of_python h)).symm⟩
  have hpython : isPythonName name := by
    rwa [hpath, PurePath.name, List.getLastD_concat] at h
  have hstem : PurePath.stem (front ++ [name]) = PurePath.stem [name] := by
    simp [PurePath.stem, PurePath.name]
  rw [hpath, moduleParts]
  simp only [List.dropLast_concat, List.getLast?_concat, Option.some.injEq, hstem,
    stem_eq_init_iff hpython]
  by_cases hinit : name = "__init__.py"
  · simp [hinit]
  · simp only [hinit, if_false, List.append_eq_nil_iff, List.cons_ne_nil, and_false, false_iff]
    intro hsingle
    have hlast := congrArg List.getLast? hsingle
    rw [List.getLast?_concat] at hlast
    exact hinit (Option.some.inj hlast)

/-- Only the module of the root itself bears the name of the root. -/
theorem moduleFqnFromPath_congr {r₁ r₂ : Root} {package : PackageTree} {file : SourceFile}
    (hfile : file ∈ package.files) (h : file.path = ["__init__.py"] → r₁.name = r₂.name) :
    moduleFqnFromPath r₁ file.path = moduleFqnFromPath r₂ file.path := by
  by_cases hparts : moduleParts file.path = []
  · have hpath := (moduleParts_eq_nil_iff (package.python file hfile)).mp hparts
    have hname := h hpath
    simp only [moduleFqnFromPath, hparts, if_true]
    simpa [hpath, Root.name] using hname
  · simp [moduleFqnFromPath, hparts]

/-! ## The order of the files -/

theorem sortPaths_perm (root : Root) (files : List SourceFile) : (sortPaths root files).Perm files :=
  List.perm_insertionSort _ _

theorem mem_sortPaths (root : Root) (files : List SourceFile) (file : SourceFile) :
    file ∈ sortPaths root files ↔ file ∈ files :=
  List.mem_insertionSort _

theorem pairwise_sortPaths (root : Root) (files : List SourceFile) :
    (sortPaths root files).Pairwise fun a b =>
      absoluteText root a.path ≤ absoluteText root b.path := by
  have : Std.Total fun a b : SourceFile => absoluteText root a.path ≤ absoluteText root b.path :=
    ⟨fun _ _ => le_total _ _⟩
  have : IsTrans SourceFile fun a b => absoluteText root a.path ≤ absoluteText root b.path :=
    ⟨fun _ _ _ => le_trans⟩
  exact List.pairwise_insertionSort _ _

theorem sortPaths_sortPaths (root : Root) (files : List SourceFile) :
    sortPaths root (sortPaths root files) = sortPaths root files :=
  (pairwise_sortPaths root files).insertionSort_eq

theorem pythonPathsFromInputs_eq (root : Root) (package : PackageTree) :
    pythonPathsFromInputs root package = sortPaths root package.files :=
  sortPaths_sortPaths root package.files

/-- Files come in one order below every root. -/
theorem sortPaths_congr (r₁ r₂ : Root) {files : List SourceFile} (h : ∀ file ∈ files, file.path ≠ []) :
    sortPaths r₁ files = sortPaths r₂ files := by
  have hmap := List.map_insertionSort (s := fun a b : SourceFile =>
    absoluteText r₂ a.path ≤ absoluteText r₂ b.path) (r := fun a b : SourceFile =>
    absoluteText r₁ a.path ≤ absoluteText r₁ b.path) id files fun a ha b hb => by
      rw [absoluteText_le_iff r₁ (h a ha) (h b hb)]
      exact (absoluteText_le_iff r₂ (h a ha) (h b hb)).symm
  simpa [sortPaths] using hmap

end SemanticCi.Extraction
