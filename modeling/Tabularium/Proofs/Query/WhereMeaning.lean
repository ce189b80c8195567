import Tabularium.Proofs.Query.Building
import Tabularium.Proofs.Query.FilterText

namespace Tabularium

variable {column key table : String} {j : Json} {truth : Atom → Bool} {docs : List (List Json)}

namespace Atom

/-- The atomic predicates that an operator with its operand stands for; an unknown operator stands
for none. -/
def ofOperator (column key : String) (j : Json) : List Atom :=
  match key, j with
  | "in", .list [] => [.numbers "1" "0"]
  | "in", .list items => [.oneOf column (items.map SqlValue.ofJson)]
  | "isNullish", .bool true => [.isNull column]
  | "isNullish", .bool false => [.isNotNull column]
  | "lt", j => [.compare column "<" (.ofJson j)]
  | "lte", j => [.compare column "<=" (.ofJson j)]
  | "gt", j => [.compare column ">" (.ofJson j)]
  | "gte", j => [.compare column ">=" (.ofJson j)]
  | _, _ => []

/-- The atomic predicates of an entry of a condition: a record holds operators, a text with a
percent sign is a pattern, and other values are compared. -/
def ofEntry (column : String) : Json → List Atom
  | .null => [.isNull column]
  | .text s =>
    [if s.toList.contains '%' then .like column (.text s) else .compare column "=" (.text s)]
  | .record operators => operators.flatMap fun (key, j) => ofOperator column key j
  | j => [.compare column "=" (.ofJson j)]

/-- The atomic predicates of a condition in order. -/
def ofConditions : Json → List Atom
  | .record entries => entries.flatMap fun (column, j) => ofEntry column j
  | _ => []

end Atom

/-- The condition has no entries. -/
def Json.isVacant : Json → Bool
  | .record [] => true
  | _ => false

/-- The truth of the conditions of some calls, given that of the atomic predicates: of each group
with a condition that is not empty one such condition holds, which is that all of its predicates
do. -/
def BuilderCall.holds (truth : Atom → Bool) (calls : List BuilderCall) : Bool :=
  ((groups calls).filter fun group => group.any (!·.isVacant)).all fun group =>
    (group.filter (!·.isVacant)).any fun j => (Atom.ofConditions j).all truth

theorem Json.isVacant_iff : j.isVacant = true ↔ j = .record [] := by
  unfold isVacant
  split <;> simp_all

theorem BuilderCall.groups_vacant (calls : List BuilderCall) :
    ((groups calls).all fun group => group.all Json.isVacant) = true ↔
      ∀ e ∈ calls.filterMap entry?, e.conditions = .record [] := by
  rw [← List.all_flatten, groups_flatten, List.all_map, List.all_eq_true]
  exact forall₂_congr fun _ _ => Json.isVacant_iff

namespace Test

variable {t : Test} {ts : List Test}

theorem operand_eq {v : SqlValue} (h : operand column j = .ok v) : v = .ofJson j := by
  cases j <;> cases h <;> rfl

theorem oneOf_atom {items : List Json} {values : List SqlValue}
    (h : items.mapM (operand column) = .ok values) :
    [(oneOf values).atom column] = Atom.ofOperator column "in" (.list items) := by
  have hvalues : values = items.map SqlValue.ofJson := by
    rw [← mapM_ok_map (g := id) (fun _ _ => operand_eq) h, List.map_id]
  subst hvalues
  cases items <;> rfl

theorem compare_atom {op : Comparison} {v : SqlValue} (hop : Comparison.ofWord? key = some op)
    (hv : operand column j = .ok v) :
    [(compare op v).atom column] = Atom.ofOperator column key j := by
  have hword : op.word = key := eq_of_beq (List.find?_some hop :)
  subst hword
  rw [operand_eq hv]
  cases op <;> rfl

theorem ofOperator_atom (h : ofOperator column key j = .ok t) :
    [t.atom column] = Atom.ofOperator column key j := by
  unfold ofOperator at h
  split at h
  next =>
    split at h
    next items =>
      obtain ⟨values, hvalues, rfl⟩ := map_eq_ok.mp h
      exact oneOf_atom hvalues
    next => cases h
  next => split at h <;> cases h <;> rfl
  next =>
    split at h
    next op hop =>
      obtain ⟨v, hv, rfl⟩ := map_eq_ok.mp h
      exact compare_atom hop hv
    next => cases h

/-- What compiles is the atomic predicates of the entry, of which there is at least one. -/
theorem ofJson_atoms (h : ofJson column j = .ok ts) :
    ts.map (atom column) = Atom.ofEntry column j ∧ ts ≠ [] := by
  cases j with
  | null => cases h; exact ⟨rfl, by simp⟩
  | text s =>
    cases h
    refine ⟨?_, by simp⟩
    rw [Atom.ofEntry]
    split <;> rfl
  | list => cases h
  | record entries =>
    cases entries with
    | nil => cases h
    | cons e entries =>
      have hatoms : ts.map (fun t => [t.atom column]) =
          (e :: entries).map fun (key, j) => Atom.ofOperator column key j :=
        mapM_ok_map (fun _ _ => ofOperator_atom) h
      refine ⟨?_, ?_⟩
      · rw [Atom.ofEntry, List.flatMap, ← hatoms, ← List.flatMap, List.map_eq_flatMap]
      · rintro rfl
        cases hatoms
  | _ => cases h; exact ⟨rfl, by simp⟩

end Test

namespace Condition

variable {c : Condition}

/-- What compiles is the atomic predicates of the condition. -/
theorem ofJson_atoms (h : ofJson j = .ok c) : c.map ColumnTest.atom = Atom.ofConditions j := by
  cases j with
  | record entries =>
    obtain ⟨tests, htests, hc⟩ := bind_eq_ok.mp h
    cases hc
    rw [List.map_flatten, Atom.ofConditions, List.flatMap, ← mapM_ok_map (fun e ts he => ?_) htests]
    obtain ⟨_, -, he⟩ := bind_eq_ok.mp he
    obtain ⟨found, hfound, he⟩ := bind_eq_ok.mp he
    cases he
    rw [List.map_map]
    exact (Test.ofJson_atoms hfound).1
  | _ => cases h

/-- A condition compiles to nothing when it has no entries, and only then. -/
theorem ofJson_isEmpty (h : ofJson j = .ok c) : c.isEmpty = j.isVacant := by
  cases j with
  | record entries =>
    obtain ⟨tests, htests, hc⟩ := bind_eq_ok.mp h
    cases hc
    cases entries with
    | nil => cases htests; rfl
    | cons e entries =>
      rw [List.mapM_cons] at htests
      obtain ⟨first, hfirst, htests⟩ := bind_eq_ok.mp htests
      obtain ⟨others, -, htests⟩ := bind_eq_ok.mp htests
      cases htests
      obtain ⟨_, -, hfirst⟩ := bind_eq_ok.mp hfirst
      obtain ⟨found, hfound, hfirst⟩ := bind_eq_ok.mp hfirst
      cases hfirst
      have hne := (Test.ofJson_atoms hfound).2
      cases found with
      | nil => exact absurd rfl hne
      | cons t ts => rfl
  | _ => cases h

end Condition

namespace Filter

variable {f : Filter}

theorem filter_isEmpty {α : Type} (p : α → Bool) (xs : List α) :
    (xs.filter p).isEmpty = !xs.any p := by
  induction xs with
  | nil => rfl
  | cons x xs ih =>
    rw [List.filter_cons, List.any_cons]
    cases p x <;> simp [ih]

/-- What is left of a group, and what it states, is seen from its documents. -/
theorem kept_group {docs : List Json} {group : List Condition}
    (h : docs.mapM Condition.ofJson = .ok group) (truth : Atom → Bool) :
    (group.filter (!·.isEmpty)).isEmpty = !docs.any (!·.isVacant) ∧
      ((group.filter (!·.isEmpty)).any fun c => c.all fun t => truth t.atom) =
        (docs.filter (!·.isVacant)).any fun j => (Atom.ofConditions j).all truth := by
  have hempty : (group.map fun c => !c.isEmpty) = docs.map fun j => !j.isVacant :=
    mapM_ok_map (fun _ _ hc => by rw [Condition.ofJson_isEmpty hc]) h
  have htruth : (group.map fun c => !c.isEmpty && c.all fun t => truth t.atom) =
      docs.map fun j => !j.isVacant && (Atom.ofConditions j).all truth := by
    refine mapM_ok_map (fun j c hc => ?_) h
    rw [Condition.ofJson_isEmpty hc, ← Condition.ofJson_atoms hc, List.all_map]
    rfl
  constructor
  · have hany := congrArg (·.any id) hempty
    simp only [List.any_map] at hany
    rw [filter_isEmpty]
    exact congrArg (!·) hany
  · have hany := congrArg (·.any id) htruth
    simp only [List.any_map] at hany
    rw [List.any_filter, List.any_filter]
    exact hany

/-- A filter is true when the conditions that it comes from are. -/
theorem ofJson_holds (h : ofJson docs = .ok f) (truth : Atom → Bool) :
    f.holds truth = (docs.filter fun group => group.any (!·.isVacant)).all fun group =>
      (group.filter (!·.isVacant)).any fun j => (Atom.ofConditions j).all truth := by
  obtain ⟨groups, hgroups, rfl⟩ := ofJson_eq h
  have hall : (groups.map fun group => !!(group.filter (!·.isEmpty)).isEmpty ||
        (group.filter (!·.isEmpty)).any fun c => c.all fun t => truth t.atom) =
      docs.map fun group => !group.any (!·.isVacant) ||
        (group.filter (!·.isVacant)).any fun j => (Atom.ofConditions j).all truth := by
    refine mapM_ok_map (fun items group hg => ?_) hgroups
    obtain ⟨hempty, hany⟩ := kept_group hg truth
    rw [hempty, hany, Bool.not_not]
  have htruth := congrArg (·.all id) hall
  simp only [List.all_map] at htruth
  rw [holds, List.all_filter, List.all_filter, List.all_map]
  exact htruth

theorem clause_eq (h : f ≠ []) : f.clause = " WHERE " ++ f.sql := by
  rw [clause, if_neg (by simpa using h)]

theorem clause_eq_empty : f.clause = "" ↔ f = [] := by
  constructor
  · intro h
    by_contra hne
    rw [clause_eq hne] at h
    have hlen := congrArg String.length h
    simp at hlen
  · rintro rfl
    rfl

/-- A filter is empty when all conditions that it comes from are. -/
theorem ofJson_isEmpty (h : ofJson docs = .ok f) :
    f.isEmpty = docs.all fun group => group.all Json.isVacant := by
  obtain ⟨groups, hgroups, rfl⟩ := ofJson_eq h
  have hempty : (groups.map fun group => (group.filter (!·.isEmpty)).isEmpty) =
      docs.map fun group => !group.any (!·.isVacant) :=
    mapM_ok_map (fun _ _ hg => (kept_group hg fun _ => true).1) hgroups
  have hall := congrArg (·.all id) hempty
  simp only [List.all_map] at hall
  rw [filter_isEmpty, List.any_map]
  simpa [List.all_eq_not_any_not, Function.comp_def] using hall

end Filter

namespace Query

variable {calls : List BuilderCall} {q : Query} {limit : Option UInt64} {s : Statement}

/-- The query has a statement of one of the three kinds. -/
def Compiles (q : Query) : Prop :=
  ∃ s, q.compile = .ok s ∨ q.compileFirst = .ok s ∨ q.compileCount = .ok s

theorem render_ok (h : q.render limit = .ok s) :
    ∃ filter columns order, requireIdentifier q.table = .ok () ∧
      Filter.ofJson q.groups = .ok filter ∧ projection q.columns = .ok columns ∧
      orderClause q.order = .ok order ∧
      s = ⟨"SELECT " ++ columns ++ " FROM " ++ q.table ++ filter.clause ++ order
        ++ limitClause limit ++ q.offsetClause, filter.params⟩ := by
  obtain ⟨⟨⟩, htable, h⟩ := bind_eq_ok.mp h
  obtain ⟨columns, hcolumns, h⟩ := bind_eq_ok.mp h
  obtain ⟨filter, hfilter, h⟩ := bind_eq_ok.mp h
  obtain ⟨order, horder, h⟩ := bind_eq_ok.mp h
  cases h
  exact ⟨filter, columns, order, htable, hfilter, hcolumns, horder, rfl⟩

theorem compileCount_ok (h : q.compileCount = .ok s) :
    ∃ filter, requireIdentifier q.table = .ok () ∧ Filter.ofJson q.groups = .ok filter ∧
      s = ⟨"SELECT COUNT(*) as count FROM " ++ q.table ++ filter.clause, filter.params⟩ := by
  obtain ⟨⟨⟩, htable, h⟩ := bind_eq_ok.mp h
  obtain ⟨filter, hfilter, h⟩ := bind_eq_ok.mp h
  cases h
  exact ⟨filter, htable, hfilter, rfl⟩

theorem Compiles.filter (h : q.Compiles) :
    ∃ filter, requireIdentifier q.table = .ok () ∧ Filter.ofJson q.groups = .ok filter := by
  obtain ⟨s, h | h | h⟩ := h
  · obtain ⟨filter, _, _, htable, hfilter, _⟩ := render_ok h
    exact ⟨filter, htable, hfilter⟩
  · obtain ⟨filter, _, _, htable, hfilter, _⟩ := render_ok h
    exact ⟨filter, htable, hfilter⟩
  · obtain ⟨filter, htable, hfilter, _⟩ := compileCount_ok h
    exact ⟨filter, htable, hfilter⟩

/-- The statement with a clause at its place between the columns and the order. -/
def Carries (q : Query) (limit : Option UInt64) (clause : String) (params : List SqlValue)
    (s : Statement) : Prop :=
  ∃ columns order, projection q.columns = .ok columns ∧ orderClause q.order = .ok order ∧
    s = ⟨"SELECT " ++ columns ++ " FROM " ++ q.table ++ clause ++ order ++ limitClause limit
      ++ q.offsetClause, params⟩

/-- One clause with its values stands in all statements of the query. It is left out exactly when
all conditions of the calls are empty. Otherwise it is read, by the precedence of parentheses,
comparisons, `AND` and `OR` and with the values bound to the marks in order, as what the calls
state. -/
structure WhereMeans (q : Query) (calls : List BuilderCall) (clause : String)
    (params : List SqlValue) : Prop where
  count : q.compileCount =
    .ok ⟨"SELECT COUNT(*) as count FROM " ++ q.table ++ clause, params⟩
  whole : ∀ s, q.compile = .ok s → q.Carries q.limit clause params s
  first : ∀ s, q.compileFirst = .ok s → q.Carries (some 1) clause params s
  absent : clause = "" ↔ ∀ e ∈ calls.filterMap BuilderCall.entry?, e.conditions = .record []
  unbound : clause = "" → params = []
  meaning : clause ≠ "" → ∃ text p, clause = " WHERE " ++ text ∧
    Sentence.ofText text params = some p ∧ ∀ truth, p.eval truth = BuilderCall.holds truth calls

/-- Whatever calls build a query that compiles, its clause means what they state. -/
theorem where_meaning (h : (build table calls).Compiles) :
    ∃ clause params, (build table calls).WhereMeans calls clause params := by
  obtain ⟨filter, htable, hfilter⟩ := h.filter
  have hrender : ∀ limit s, (build table calls).render limit = .ok s →
      (build table calls).Carries limit filter.clause filter.params s := by
    intro limit s hs
    obtain ⟨filter', columns, order, -, hfilter', hcolumns, horder, rfl⟩ := render_ok hs
    cases hfilter.symm.trans hfilter'
    exact ⟨columns, order, hcolumns, horder, rfl⟩
  have hgroups := build_groups table calls
  -- Every statement of the query renders this one filter, so one clause stands in all of them.
  refine ⟨filter.clause, filter.params, ⟨?_, hrender _, hrender _, ?_, ?_, ?_⟩⟩
  · rw [compileCount, htable, hfilter]
    rfl
  · rw [Filter.clause_eq_empty, ← List.isEmpty_iff, Filter.ofJson_isEmpty hfilter, hgroups,
      BuilderCall.groups_vacant]
  · intro hclause
    rw [Filter.clause_eq_empty.mp hclause]
    rfl
  · intro hclause
    have hne : filter ≠ [] := fun h => hclause (Filter.clause_eq_empty.mpr h)
    obtain ⟨p, hp, heval⟩ := Sentence.ofText_states
      (Filter.states hne (Filter.ofJson_sound hfilter))
    refine ⟨filter.sql, p, Filter.clause_eq hne, hp, fun truth => ?_⟩
    rw [heval, Filter.ofJson_holds hfilter, hgroups]
    rfl

/-- Calls with two groups, one of them with alternatives of which one is empty. -/
def postsCalls : List BuilderCall :=
  [.filterBy (.record [("rank", .record [("gt", .int 1), ("lte", .int 5)])]), .orWhere (.record []),
    .orWhere (.record [("title", .text "a%"), ("draft", .null)]), .orderBy "rank" .desc, .take 3,
    .filterBy (.record [("id", .record [("in", .list [.int 1, .int 2])])])]

theorem where_meaning_posts : (build "posts" postsCalls).Compiles ∧
    ∃ clause params, (build "posts" postsCalls).WhereMeans postsCalls clause params :=
  have h : (build "posts" postsCalls).Compiles := ⟨_, .inl rfl⟩
  ⟨h, where_meaning h⟩

example : (build "posts" postsCalls).compile.map Statement.sql = .ok
    ("SELECT * FROM posts WHERE ((rank > ? AND rank <= ?) OR (title LIKE ? AND draft IS NULL))" ++
      " AND id IN (?, ?) ORDER BY rank DESC LIMIT 3") := rfl

end Query

end Tabularium
