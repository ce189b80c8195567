import Tabularium.Json.Basic

namespace Tabularium

namespace Toml

/-- Where a table comes from: it stands above another one, keys with points lead into it, or it has
a heading of its own. -/
inductive Origin where
  | above
  | dotted
  | headed
deriving DecidableEq, Repr

/-- What stands under a key. -/
inductive Item where
  | value (j : Json)
  | table (origin : Origin) (entries : List (String × Item))
  /-- The tables that share a heading, the last one in front. -/
  | tables (last : List (String × Item)) (earlier : List (List (String × Item)))

abbrev Entries := List (String × Item)

mutual

def Item.toJson : Item → Json
  | .value j => j
  | .table _ entries => .record (entriesJson entries)
  | .tables last earlier => .list (.record (entriesJson last) :: tablesJson earlier).reverse
termination_by structural item => item

def entriesJson : List (String × Item) → List (String × Json)
  | [] => []
  | (key, item) :: entries => (key, item.toJson) :: entriesJson entries
termination_by structural entries => entries

def tablesJson : List (List (String × Item)) → List Json
  | [] => []
  | entries :: tables => .record (entriesJson entries) :: tablesJson tables
termination_by structural tables => tables

end

/-- Changes the table that keys lead to, in the last of the tables that share a heading. Tables that
are not there are put in with an origin, and one that must not be entered is refused. -/
def within (fresh : Origin) (mayEnter : Origin → Bool)
    (change : Origin → Entries → Option Entries) : List String → Origin → Entries → Option Entries
  | [], origin, entries => change origin entries
  | key :: keys, _, entries =>
    match entries.lookup key with
    | none => do
      let inner ← within fresh mayEnter change keys fresh []
      return entries ++ [(key, .table fresh inner)]
    | some (.value _) => none
    | some (.table origin inner) =>
      if mayEnter origin then do
        let inner ← within fresh mayEnter change keys origin inner
        return OrderedMap.insertEntry key (.table origin inner) entries
      else none
    | some (.tables last earlier) => do
      let last ← within fresh mayEnter change keys .headed last
      return OrderedMap.insertEntry key (.tables last earlier) entries

/-- Puts a value under keys that have none. Keys with points neither lead into a table with a
heading nor add to one that only stands above others. -/
def put? (keys : List String) (value : Json) (entries : Entries) : Option Entries :=
  let path := keys.dropLast
  let add (origin : Origin) (entries : Entries) : Option Entries :=
    match keys.getLast? with
    | none => none
    | some key =>
      if (path.isEmpty || origin = .dotted) && (entries.lookup key).isNone then
        some (entries ++ [(key, .value value)])
      else none
  within .dotted (· ≠ .headed) add path .headed entries

/-- Opens a table under the keys of a heading, which may stand above others already. -/
def openTable? (keys : List String) (entries : Entries) : Option Entries :=
  let start (entries : Entries) : Option Entries := do
    let key ← keys.getLast?
    match entries.lookup key with
    | none => some (entries ++ [(key, .table .headed [])])
    | some (.table .above inner) =>
      some (OrderedMap.insertEntry key (.table .headed inner) entries)
    | some _ => none
  within .above (fun _ => true) (fun _ => start) keys.dropLast .headed entries

/-- Opens a further table under the keys of a heading that tables share. -/
def openNext? (keys : List String) (entries : Entries) : Option Entries :=
  let start (entries : Entries) : Option Entries := do
    let key ← keys.getLast?
    match entries.lookup key with
    | none => some (entries ++ [(key, .tables [] [])])
    | some (.tables last earlier) =>
      some (OrderedMap.insertEntry key (.tables [] (last :: earlier)) entries)
    | some _ => none
  within .above (fun _ => true) (fun _ => start) keys.dropLast .headed entries

def putUnder? (heading keys : List String) (value : Json) (entries : Entries) : Option Entries :=
  within .above (fun _ => true) (fun _ => put? keys value) heading .headed entries

end Toml

end Tabularium
