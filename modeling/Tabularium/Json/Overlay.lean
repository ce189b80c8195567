import Tabularium.Json.Basic

namespace Tabularium

namespace Json

mutual

/-- The document with another laid over it: records are joined entry by entry, and any other value
takes the place of what it is laid over. -/
def overlay (base : Json) : Json → Json
  | .record entries =>
    match base with
    | .record old => .record (overlayEntries old entries)
    | _ => .record entries
  | j => j
termination_by structural j => j

/-- Entries with others laid over them. -/
def overlayEntries (old : List (String × Json)) : List (String × Json) → List (String × Json)
  | [] => old
  | (key, value) :: entries =>
    match old.lookup key with
    | none => overlayEntries (OrderedMap.insertEntry key value old) entries
    | some base => overlayEntries (OrderedMap.insertEntry key (overlay base value) old) entries
termination_by structural entries => entries

end

/-- The value under keys, one inside the other. -/
def nested (keys : List String) (value : Json) : Json :=
  keys.foldr (fun key inner => .record [(key, inner)]) value

end Json

end Tabularium
