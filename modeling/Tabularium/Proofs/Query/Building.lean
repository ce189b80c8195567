import Mathlib.Data.List.SplitBy
import Tabularium.Query.Basic

namespace Tabularium

/-- A call that adds to the description of a query. -/
inductive BuilderCall where
  | filterBy (conditions : Json)
  | orWhere (conditions : Json)
  | orderBy (column : String) (order : Order)
  | select (columns : List String)
  | take (n : UInt64)
  | skip (n : UInt64)
  | including (related : String)

/-- The conditions of a call, and whether they are an alternative to those before. -/
structure FilterEntry where
  conditions : Json
  alternative : Bool

namespace BuilderCall

def apply (q : Query) : BuilderCall → Query
  | filterBy conditions => q.filterBy conditions
  | orWhere conditions => q.orWhere conditions
  | orderBy column order => q.orderBy column order
  | select columns => q.select columns
  | take n => q.take n
  | skip n => q.skip n
  | including related => q.including related

def entry? : BuilderCall → Option FilterEntry
  | filterBy conditions => some ⟨conditions, false⟩
  | orWhere conditions => some ⟨conditions, true⟩
  | _ => none

/-- The conditions of calls in groups: each call opens a group, except for the alternatives, which
belong to the group of the call before. -/
def groups (calls : List BuilderCall) : List (List Json) :=
  ((calls.filterMap entry?).splitBy fun _ next => next.alternative).map
    (·.map FilterEntry.conditions)

theorem groups_flatten (calls : List BuilderCall) :
    (groups calls).flatten = (calls.filterMap entry?).map FilterEntry.conditions := by
  rw [groups, ← List.map_flatten, List.flatten_splitBy]

end BuilderCall

namespace Query

variable {table : String} {calls : List BuilderCall} {q : Query}

/-- The query of a table after some calls. -/
def build (table : String) (calls : List BuilderCall) : Query :=
  calls.foldl BuilderCall.apply { table }

/-- The groups with one more entry. -/
def addEntry (groups : List (List Json)) (e : FilterEntry) : List (List Json) :=
  if e.alternative then addAlternative e.conditions groups else groups ++ [[e.conditions]]

theorem addAlternative_snoc (j : Json) (groups : List (List Json)) (group : List Json) :
    addAlternative j (groups ++ [group]) = groups ++ [group ++ [j]] := by
  induction groups with
  | nil => rfl
  | cons g groups ih =>
    cases groups with
    | nil => rfl
    | cons g' groups => exact congrArg (g :: ·) ih

theorem apply_groups (call : BuilderCall) :
    (call.apply q).groups = call.entry?.toList.foldl addEntry q.groups := by
  cases call with
  | including related =>
    rw [BuilderCall.apply, including]
    split <;> rfl
  | _ => rfl

theorem foldl_apply_groups :
    (calls.foldl BuilderCall.apply q).groups =
      (calls.filterMap BuilderCall.entry?).foldl addEntry q.groups := by
  induction calls generalizing q with
  | nil => rfl
  | cons call calls ih =>
    rw [List.foldl_cons, ih, apply_groups, List.filterMap_cons]
    cases call.entry? <;> rfl

/-- Adding entries cuts them where one is no alternative; `e` is the last entry of the open group,
whose others and the closed groups stand in reverse. -/
theorem foldl_addEntry (entries group : List FilterEntry) (e : FilterEntry)
    (closed : List (List FilterEntry)) :
    entries.foldl addEntry
        (((e :: group).reverse :: closed).reverse.map (·.map FilterEntry.conditions)) =
      (List.splitBy.loop (fun _ next => next.alternative) entries e group closed).map
        (·.map FilterEntry.conditions) := by
  induction entries generalizing e group closed with
  | nil => simp [List.splitBy.loop]
  | cons next entries ih =>
    rw [List.foldl_cons, List.splitBy.loop, addEntry]
    cases next.alternative with
    | true =>
      rw [← ih, if_pos rfl, List.reverse_cons, List.map_append, List.map_singleton,
        addAlternative_snoc]
      simp
    | false =>
      rw [← ih]
      simp

/-- The groups of a query are those of the calls that built it. -/
theorem build_groups (table : String) (calls : List BuilderCall) :
    (build table calls).groups = BuilderCall.groups calls := by
  rw [build, foldl_apply_groups, BuilderCall.groups]
  cases calls.filterMap BuilderCall.entry? with
  | nil => rfl
  | cons e entries =>
    have hfirst : addEntry [] e = [[e.conditions]] := by
      rw [addEntry]
      split <;> rfl
    rw [List.foldl_cons, hfirst]
    exact foldl_addEntry entries [] e []

end Query

end Tabularium
