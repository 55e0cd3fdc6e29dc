import SemanticCi.Model.StateSchema

/-! Resolution of a dotted target on a code state or on a delta. A pydantic model is
walked through its dump, whose keys are its fields. -/

namespace SemanticCi.PathResolver

open SemanticCi.Python SemanticCi.StateSchema

def flatProjectionAliases : List (List String × String) :=
  [(["api_surface_delta", "added", "fqns"], "fqn"),
    (["effect_changes", "added", "fqns"], "fqn"),
    (["imports_delta", "added", "modules"], "module")]

/-- `item` as the pair of a key and a value. -/
private def pairWithKey? (key : String) : JsonValue → Option JsonValue
  | .array [.str k, value] => if k = key then some value else none
  | _ => none

/-- `_field`: a mapping entry, or the first pair with that key. -/
def field (entry : JsonValue) (key : String) : Option JsonValue :=
  match entry with
  | .object items => JsonValue.get? items key
  | .array items => items.findSome? (pairWithKey? key)
  | _ => none

def isPublic (entry : JsonValue) : Bool :=
  match field entry "visibility" with
  | some (.str v) => v = "public"
  | _ => false

def publicApiEntries : JsonValue → JsonValue
  | .array entries => .array (entries.filter isPublic)
  | _ => .array []

def projectField (entries : JsonValue) (key : String) : JsonValue :=
  match entries with
  | .array items => .array (items.filterMap fun entry =>
      match field entry key with
      | some (.str v) => some (.str v)
      | _ => none)
  | _ => .array []

/-- One turn of the loop: `isState` tells that `current` is the root code state, `upTo` is
the path read so far with the new segment. -/
def resolveSegment (isState : Bool) (current : JsonValue) (upTo : List String)
    (segment : String) : Option JsonValue :=
  match current with
  | .object items =>
      if isState ∧ segment = "api_surface_public" then
        some (publicApiEntries ((JsonValue.get? items "api_surface").getD .null))
      else if upTo = ["api_surface_delta", "removed_public"] ∧
          (JsonValue.get? items "removed").isSome then
        some (publicApiEntries ((JsonValue.get? items "removed").getD .null))
      else
        match flatProjectionAliases.lookup upTo with
        | some key => some (projectField current key)
        | none => JsonValue.get? items segment
  | .null => none
  | _ => (flatProjectionAliases.lookup upTo).map (projectField current)

def resolveFrom (isState : Bool) (current : JsonValue) (seen : List String) :
    List String → Option JsonValue
  | [] => some current
  | segment :: rest =>
      match resolveSegment isState current (seen ++ [segment]) segment with
      | none => none
      | some next => resolveFrom false next (seen ++ [segment]) rest

/-- `resolve_path(state, segments)`, with `none` for `UNRESOLVED`. -/
def resolveState (state : CodeState) (segments : List String) : Option JsonValue :=
  resolveFrom true (.object state.dump) [] segments

/-- `resolve_path(delta, segments)`. -/
def resolveDelta (delta : CodeStateDelta) (segments : List String) : Option JsonValue :=
  resolveFrom false (.object delta.dump) [] segments

end SemanticCi.PathResolver
