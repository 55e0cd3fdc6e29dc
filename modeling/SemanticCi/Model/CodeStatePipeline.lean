import SemanticCi.Model.ApiExtractor
import SemanticCi.Model.EffectExtractor
import SemanticCi.Model.ImportsExtractor
import SemanticCi.Model.TestSurfaceExtractor

/-! The code state of a package (`pipeline/python_code_state.py`), with every dimension
extracted, nothing excluded and no timeout. -/

namespace SemanticCi.Extraction

open SemanticCi.Python SemanticCi.Python.Ast SemanticCi.StateSchema

/-- `_extract_effects`: the file of an entry is the path that it was read from. -/
def extractEffects (db : List EffectSignature) (root : Root) (paths : List SourceFile) :
    List EffectEntry :=
  paths.flatMap fun file =>
    extractPythonEffects db (absoluteText root file.path) (moduleFqnFromPath root file.path)
      file.tree

/-- `extract_python_code_state`. -/
def extractPythonCodeState (lib : Stdlib) (db : List EffectSignature) (root : Root)
    (package : PackageTree) : CodeState :=
  let paths := pythonPathsFromInputs root package
  { apiSurface := extractPythonApiSurfaceFromPaths lib root paths
    effects := extractEffects db root paths
    imports := extractPythonImportsFromPaths root paths
    complexity := extractPythonComplexityFromPaths root paths
    testSurface := extractPythonTestSurfaceFromPaths root paths
    moduleGraph := extractPythonModuleGraph root package }

end SemanticCi.Extraction
