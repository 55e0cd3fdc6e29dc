import SemanticCi.Model.PackageTree

/-! The files that a configuration excludes (`framework/extract_config.py`). -/

namespace SemanticCi.Extraction

open SemanticCi.Python

/-! ## `fnmatch` -/

inductive ClassItem
  | single (c : Char)
  | range (first last : Char)

namespace ClassItem

def holds (c : Char) : ClassItem → Bool
  | single d => c = d
  | range first last => first ≤ c ∧ c ≤ last

def inhabited : ClassItem → Bool
  | single _ => true
  | range first last => first ≤ last

end ClassItem

def classItems : List Char → List ClassItem
  | first :: '-' :: last :: rest => .range first last :: classItems rest
  | c :: rest => .single c :: classItems rest
  | [] => []

/-- Whether a character is in the class `[text]`. Empty ranges are taken out first, and only
then does a `!` in front negate. -/
def classHolds (text : List Char) (c : Char) : Bool :=
  let items : List ClassItem :=
    match text with
    | '!' :: rest => .single '!' :: classItems rest
    | _ => classItems text
  match items.filter ClassItem.inhabited with
  | .single '!' :: rest => !rest.any (ClassItem.holds c)
  | .range '!' last :: rest => !(.single '-' :: .single last :: rest).any (ClassItem.holds c)
  | kept => kept.any (ClassItem.holds c)

/-- The length of the class that a `[` opens. A `]` right after the bracket, or after its `!`,
does not close it. -/
def classLength (rest : List Char) : Option ℕ :=
  let bang := if rest.head? = some '!' then 1 else 0
  let front := if (rest.drop bang).head? = some ']' then bang + 1 else bang
  if ']' ∈ rest.drop front then some (front + ((rest.drop front).takeWhile (· ≠ ']')).length)
  else none

inductive GlobToken
  | star
  | one (holds : Char → Bool)

/-- `fnmatch.translate`. -/
def globTokens : List Char → List GlobToken
  | [] => []
  | '*' :: rest => .star :: globTokens rest
  | '?' :: rest => .one (fun _ => true) :: globTokens rest
  | '[' :: rest =>
    match classLength rest with
    | none => .one (· = '[') :: globTokens rest
    | some length => .one (classHolds (rest.take length)) :: globTokens (rest.drop (length + 1))
  | c :: rest => .one (· = c) :: globTokens rest
termination_by chars => chars.length

def matchTokens : List GlobToken → List Char → Bool
  | [], chars => chars.isEmpty
  | .star :: tokens, chars => chars.tails.any (matchTokens tokens)
  | .one _ :: _, [] => false
  | .one holds :: tokens, c :: chars => holds c && matchTokens tokens chars

/-- `fnmatch.fnmatchcase`. -/
def fnmatchcase (name pattern : String) : Bool :=
  matchTokens (globTokens pattern.toList) name.toList

example : fnmatchcase "models_pb2.py" "*_pb[!0-13-9]*.py" = true := by decide +kernel

/-! ## Patterns -/

/-- `PurePosixPath(text).parts`: exactly two leading slashes are kept as they are. -/
def posixParts (text : String) : List String :=
  let names := (text.toList.splitOn '/').filter fun part => part ≠ [] ∧ part ≠ ['.']
  let names := names.map String.ofList
  match (text.toList.takeWhile (· = '/')).length with
  | 0 => names
  | 2 => "//" :: names
  | _ => "/" :: names

/-- `_matches_literal`. -/
def matchesLiteral (relative : PurePath) (pattern : String) : Bool :=
  (posixParts pattern).isPrefixOf relative

/-- `_has_glob`. -/
def hasGlob (pattern : String) : Bool := pattern.toList.any fun c => c ∈ ['*', '?', '[']

/-- `_matches_path_glob`. -/
def matchesPathGlob (relative : PurePath) (pattern : String) : Bool :=
  let patternParts := posixParts pattern
  if patternParts.length ≠ relative.length then false
  else (relative.zip patternParts).all fun pair => fnmatchcase pair.1 pair.2

/-- `_matches_pattern`. -/
def matchesPattern (relative : PurePath) (pattern : String) : Bool :=
  let chars := pattern.toList
  if "/**".toList.isSuffixOf chars then
    matchesLiteral relative (String.ofList (chars.take (chars.length - 3)))
  else if !hasGlob pattern then matchesLiteral relative pattern
  else
    let basename := chars.drop 3
    if "**/".toList.isPrefixOf chars ∧ basename ≠ [] ∧ '/' ∉ basename then
      fnmatchcase relative.name (String.ofList basename)
    else matchesPathGlob relative pattern

/-! ## Excluded paths -/

structure ExtractConfig where
  patterns : List String
  configRoot : Root

/-- `_relative_candidate`, of a resolved path. -/
def relativeCandidate (candidate : PurePath) (config : ExtractConfig) : Option PurePath :=
  if config.configRoot.parts.isPrefixOf candidate then
    some (candidate.drop config.configRoot.parts.length)
  else none

/-- `matches_exclude`. -/
def matchesExclude (candidate : PurePath) (config : ExtractConfig) : Option String :=
  if config.patterns = [] then none
  else
    match relativeCandidate candidate config with
    | none => none
    | some relative => config.patterns.find? (matchesPattern relative)

structure ExcludedPath where
  path : PurePath
  relativePath : PurePath
  pattern : String

/-- What the loop of `filter_excluded_paths` records of a path that it does not keep. -/
def excludedPath (candidate : PurePath) (config : ExtractConfig) : Option ExcludedPath :=
  match relativeCandidate candidate config with
  | none => none
  | some relative =>
    match matchesExclude candidate config with
    | none => none
    | some pattern => some ⟨candidate, relative, pattern⟩

/-- `filter_excluded_paths`. -/
def filterExcludedPaths (root : Root) (paths : List PurePath) (config : Option ExtractConfig) :
    List PurePath × List ExcludedPath :=
  match config with
  | none => (paths, [])
  | some config =>
    if config.patterns = [] then (paths, [])
    else
      (paths.filter fun path => (excludedPath (root.parts ++ path) config).isNone,
        paths.filterMap fun path => excludedPath (root.parts ++ path) config)

end SemanticCi.Extraction
