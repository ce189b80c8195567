import Tabularium.Proofs.Query.StatementShape

namespace Tabularium

variable {column key : String} {j : Json} {t : Test} {ts : List Test} {c : Condition}

/-- What a condition asks of a column: the operand alone, or an operator with its operand. -/
structure Requirement where
  column : String
  operator : Option String
  operand : Json

namespace Json

/-- What the condition on a column asks, one requirement for a scalar and for each operator. -/
def requirementsOf (column : String) : Json → List Requirement
  | .record operators => operators.map fun (key, operand) => ⟨column, some key, operand⟩
  | j => [⟨column, none, j⟩]

/-- What a condition asks, in order. -/
def requirements : Json → List Requirement
  | .record entries => entries.flatMap fun (column, j) => j.requirementsOf column
  | _ => []

/-- The operators, with the operands that they take. -/
inductive IsOperator : String → Json → Prop
  | oneOf {items : List Json} (h : ∀ item ∈ items, item.isScalar = true) :
      IsOperator "in" (.list items)
  | nullish (b : Bool) : IsOperator "isNullish" (.bool b)
  | compare {key : String} {j : Json} (hkey : key ∈ ["lt", "lte", "gt", "gte"])
      (h : j.isScalar = true) : IsOperator key j

/-- What stands for a condition on a column: a scalar, or operators, of which there is one. -/
inductive IsEntry : Json → Prop
  | scalar {j : Json} (h : j.isScalar = true) : IsEntry j
  | operators {operators : List (String × Json)} (hne : operators ≠ [])
      (h : ∀ o ∈ operators, IsOperator o.1 o.2) : IsEntry (.record operators)

/-- The documents that are conditions: records whose keys are names of columns. -/
inductive IsCondition : Json → Prop
  | entries {entries : List (String × Json)}
      (h : ∀ e ∈ entries, isIdentifier e.1 = true ∧ IsEntry e.2) : IsCondition (.record entries)

end Json

/-- The conjuncts that requirements are rendered as, with the values bound in them. -/
inductive Requirement.Renders : Requirement → String → List SqlValue → Prop
  | null (column : String) : Renders ⟨column, none, .null⟩ (column ++ " IS NULL") []
  | pattern (column : String) {s : String} (h : '%' ∈ s.toList) :
      Renders ⟨column, none, .text s⟩ (column ++ " LIKE ?") [.text s]
  | equal (column : String) {j : Json} (h : j.isScalar = true) (hnull : j.isNull = false)
      (hpattern : j.isPattern = false) :
      Renders ⟨column, none, j⟩ (column ++ " = ?") [.ofJson j]
  | none (column : String) : Renders ⟨column, some "in", .list []⟩ "1 = 0" []
  | oneOf (column : String) {items : List Json} (hne : items ≠ []) :
      Renders ⟨column, some "in", .list items⟩
        (column ++ " IN (" ++ SqlValue.placeholders items.length ++ ")")
        (items.map SqlValue.ofJson)
  | isNull (column : String) :
      Renders ⟨column, some "isNullish", .bool true⟩ (column ++ " IS NULL") []
  | isNotNull (column : String) :
      Renders ⟨column, some "isNullish", .bool false⟩ (column ++ " IS NOT NULL") []
  | compare (column : String) {key sign : String} {j : Json}
      (h : (key, sign) ∈ [("lt", "<"), ("lte", "<="), ("gt", ">"), ("gte", ">=")]) :
      Renders ⟨column, some key, j⟩ (column ++ " " ++ sign ++ " ?") [.ofJson j]

/-- How a store compares values: by a sign, with a pattern, and with null. -/
structure Comparing where
  bySign : String → SqlValue → SqlValue → Bool
  like : SqlValue → SqlValue → Bool
  isNull : SqlValue → Bool

/-- The truth of an atomic predicate in a row. -/
def Atom.inRow (store : Comparing) (row : String → SqlValue) : Atom → Bool
  | compare column sign v => store.bySign sign (row column) v
  | like column pattern => store.like (row column) pattern
  | oneOf column vs => vs.any (store.bySign "=" (row column))
  | isNull column => store.isNull (row column)
  | isNotNull column => !store.isNull (row column)
  | numbers m n => m == n

/-- The value of the column meets the requirement. -/
def Requirement.holds (store : Comparing) (v : SqlValue) (r : Requirement) : Bool :=
  match r.operator, r.operand with
  | none, .null => store.isNull v
  | none, .text s =>
    if s.toList.contains '%' then store.like v (.text s) else store.bySign "=" v (.text s)
  | none, j => store.bySign "=" v (.ofJson j)
  | some "in", .list items => items.any fun item => store.bySign "=" v (.ofJson item)
  | some "isNullish", .bool b => store.isNull v == b
  | some "lt", j => store.bySign "<" v (.ofJson j)
  | some "lte", j => store.bySign "<=" v (.ofJson j)
  | some "gt", j => store.bySign ">" v (.ofJson j)
  | some "gte", j => store.bySign ">=" v (.ofJson j)
  | some _, _ => false

namespace Test

/-- Operands that are scalars are bound as they are. -/
theorem operands_ok {items : List Json} {values : List SqlValue} :
    items.mapM (operand column) = .ok values ↔
      (∀ item ∈ items, item.isScalar = true) ∧ values = items.map SqlValue.ofJson := by
  rw [mapM_eq_ok]
  constructor
  · intro h
    refine ⟨fun item hitem => ?_, ?_⟩
    · obtain ⟨v, -, hv⟩ := forall₂_mem h hitem
      exact (operand_ok.mp hv).1
    · have hmap := map_eq_of_forall₂ (f := SqlValue.ofJson) (g := id)
        (fun _ _ hv => (operand_ok.mp hv).2.symm) h
      rw [hmap, List.map_id]
  · rintro ⟨h, rfl⟩
    refine List.forall₂_map_right_iff.mpr (List.forall₂_same.mpr fun item hitem => ?_)
    exact operand_ok.mpr ⟨h item hitem, rfl⟩

theorem isOperator_of_ok (h : ofOperator column key j = .ok t) : Json.IsOperator key j := by
  unfold ofOperator at h
  split at h
  next =>
    split at h
    next items =>
      obtain ⟨values, hvalues, -⟩ := map_eq_ok.mp h
      exact .oneOf (operands_ok.mp hvalues).1
    next => cases h
  next =>
    split at h
    next => exact .nullish true
    next => exact .nullish false
    next => cases h
  next =>
    split at h
    next op hop =>
      obtain ⟨v, hv, -⟩ := map_eq_ok.mp h
      have hword : op.word = key := eq_of_beq (List.find?_some hop :)
      refine .compare ?_ (operand_ok.mp hv).1
      rw [← hword]
      cases op <;> decide
    next => cases h

theorem exists_word (h : key ∈ ["lt", "lte", "gt", "gte"]) :
    ∃ op : Comparison, op.word = key := by
  simp only [List.mem_cons, List.not_mem_nil, or_false] at h
  rcases h with rfl | rfl | rfl | rfl
  · exact ⟨.lt, rfl⟩
  · exact ⟨.lte, rfl⟩
  · exact ⟨.gt, rfl⟩
  · exact ⟨.gte, rfl⟩

/-- An operator with an operand that it takes is one test, which is rendered as it should be. -/
theorem ofOperator_renders (h : Json.IsOperator key j) (column : String) :
    ∃ t, ofOperator column key j = .ok t ∧
      Requirement.Renders ⟨column, some key, j⟩ (t.sql column) t.params := by
  cases h with
  | @oneOf items h =>
    have hvalues : items.mapM (operand column) = .ok (items.map SqlValue.ofJson) :=
      operands_ok.mpr ⟨h, rfl⟩
    refine ⟨.oneOf (items.map SqlValue.ofJson), map_eq_ok.mpr ⟨_, hvalues, rfl⟩, ?_⟩
    cases items with
    | nil => exact .none column
    | cons item items =>
      have hrenders := Requirement.Renders.oneOf column (List.cons_ne_nil item items)
      simpa [sql, params] using hrenders
  | nullish b =>
    cases b with
    | true => exact ⟨.isNull, rfl, .isNull column⟩
    | false => exact ⟨.isNotNull, rfl, .isNotNull column⟩
  | compare hkey h =>
    have hbound : operand column j = .ok (.ofJson j) := operand_ok.mpr ⟨h, rfl⟩
    obtain ⟨op, rfl⟩ := exists_word hkey
    have htest : ofOperator column op.word j = compare op <$> operand column j := by
      cases op <;> rfl
    refine ⟨.compare op (.ofJson j), htest.trans (map_eq_ok.mpr ⟨_, hbound, rfl⟩),
      .compare column ?_⟩
    cases op <;> decide

theorem isEntry_of_ok (h : ofJson column j = .ok ts) : Json.IsEntry j := by
  cases j with
  | list => cases h
  | record entries =>
    cases entries with
    | nil => cases h
    | cons o os =>
      refine .operators (by simp) fun o' ho' => ?_
      obtain ⟨t, -, ht⟩ := forall₂_mem (mapM_eq_ok.mp h) ho'
      exact isOperator_of_ok ht
  | _ => exact .scalar rfl

theorem ofJson_renders (h : j.IsEntry) (column : String) :
    ∃ ts, ofJson column j = .ok ts ∧ List.Forall₂
      (fun r t => r.column = column ∧ r.Renders (t.sql column) t.params)
      (j.requirementsOf column) ts := by
  cases h with
  | scalar h =>
    have equal : j.isNull = false → j.isPattern = false →
        Requirement.Renders ⟨column, none, j⟩ (column ++ " = ?") [.ofJson j] := .equal column h
    cases j with
    | list => cases h
    | record => cases h
    | null => exact ⟨_, rfl, .cons ⟨rfl, .null column⟩ .nil⟩
    | text s =>
      refine ⟨_, rfl, .cons ⟨rfl, ?_⟩ .nil⟩
      by_cases hs : s.toList.contains '%' = true
      · rw [if_pos hs]
        exact .pattern column (by simpa using hs)
      · rw [if_neg hs]
        exact equal rfl (by simpa [Json.isPattern] using hs)
    | _ => exact ⟨_, rfl, .cons ⟨rfl, equal rfl rfl⟩ .nil⟩
  | @operators operators hne h =>
    have hrenders : ∀ o ∈ operators, ∃ t, ofOperator column o.1 o.2 = .ok t ∧
        Requirement.Renders ⟨column, some o.1, o.2⟩ (t.sql column) t.params :=
      fun o ho => ofOperator_renders (h o ho) column
    obtain ⟨ts, hts⟩ := exists_forall₂ hrenders
    refine ⟨ts, ?_, ?_⟩
    · cases operators with
      | nil => exact absurd rfl hne
      | cons o os => exact mapM_eq_ok.mpr (hts.imp fun o t ht => ht.1)
    · exact List.forall₂_map_left_iff.mpr (hts.imp fun o t ht => ⟨rfl, ht.2⟩)

end Test

namespace Condition

theorem isCondition_of_ok (h : ofJson j = .ok c) : j.IsCondition := by
  cases j with
  | record entries =>
    obtain ⟨tests, htests, -⟩ := bind_eq_ok.mp h
    refine .entries fun e he => ?_
    obtain ⟨ts, -, hts⟩ := forall₂_mem (mapM_eq_ok.mp htests) he
    obtain ⟨_, hname, hts⟩ := bind_eq_ok.mp hts
    obtain ⟨found, hfound, -⟩ := bind_eq_ok.mp hts
    exact ⟨requireIdentifier_ok hname, Test.isEntry_of_ok hfound⟩
  | _ => cases h

/-- A condition is one test for each requirement, in order, that is rendered as it should be. -/
theorem ofJson_renders (h : j.IsCondition) : ∃ c, ofJson j = .ok c ∧
    List.Forall₂ (fun r t => r.column = t.column ∧ r.Renders t.sql t.params) j.requirements c := by
  cases h with
  | @entries entries h =>
    have hrenders : ∀ e ∈ entries, ∃ tests : List ColumnTest,
        (do
          requireIdentifier e.1
          return (← Test.ofJson e.1 e.2).map fun test => ColumnTest.mk e.1 test) = .ok tests ∧
        List.Forall₂ (fun r t => r.column = t.column ∧ r.Renders t.sql t.params)
          (e.2.requirementsOf e.1) tests := by
      intro e he
      obtain ⟨hname, hentry⟩ := h e he
      obtain ⟨ts, hts, hrenders⟩ := Test.ofJson_renders hentry e.1
      refine ⟨ts.map fun test => ⟨e.1, test⟩, ?_, List.forall₂_map_right_iff.mpr hrenders⟩
      rw [requireIdentifier, if_pos hname, hts]
      rfl
    obtain ⟨tests, htests⟩ := exists_forall₂ hrenders
    have heach := mapM_eq_ok.mpr (htests.imp fun e t ht => ht.1)
    refine ⟨tests.flatten, bind_eq_ok.mpr ⟨tests, heach, rfl⟩, ?_⟩
    rw [Json.requirements, List.flatMap]
    exact List.rel_flatten (List.forall₂_map_left_iff.mpr (htests.imp fun e t ht => ht.2))

end Condition

namespace Json

/-- The atomic predicate of an operator is true in the rows whose column meets it. -/
theorem IsOperator.inRow (h : IsOperator key j) (store : Comparing) (row : String → SqlValue) :
    (Atom.ofOperator column key j).all (Atom.inRow store row) =
      Requirement.holds store (row column) ⟨column, some key, j⟩ := by
  cases h with
  | @oneOf items h =>
    cases items with
    | nil => rfl
    | cons item items =>
      simp [Atom.ofOperator, Atom.inRow, Requirement.holds, Function.comp_def]
  | nullish b => cases b <;> simp [Atom.ofOperator, Atom.inRow, Requirement.holds]
  | compare hkey h =>
    simp only [List.mem_cons, List.not_mem_nil, or_false] at hkey
    rcases hkey with rfl | rfl | rfl | rfl <;>
      simp [Atom.ofOperator, Atom.inRow, Requirement.holds]

theorem IsEntry.inRow (h : j.IsEntry) (store : Comparing) (row : String → SqlValue) :
    (Atom.ofEntry column j).all (Atom.inRow store row) =
      (j.requirementsOf column).all fun r => r.holds store (row r.column) := by
  cases h with
  | scalar h =>
    cases j with
    | list => cases h
    | record => cases h
    | text s =>
      simp only [Atom.ofEntry, requirementsOf, Requirement.holds, List.all_cons, List.all_nil,
        Bool.and_true]
      split <;> rfl
    | _ => simp [Atom.ofEntry, Atom.inRow, requirementsOf, Requirement.holds]
  | @operators operators _ h =>
    rw [Atom.ofEntry, requirementsOf, List.all_flatMap, List.all_map, Bool.eq_iff_iff,
      List.all_eq_true, List.all_eq_true]
    refine forall₂_congr fun o ho => ?_
    rw [(h o ho).inRow]
    rfl

theorem IsCondition.inRow (h : j.IsCondition) (store : Comparing) (row : String → SqlValue) :
    (Atom.ofConditions j).all (Atom.inRow store row) =
      j.requirements.all fun r => r.holds store (row r.column) := by
  cases h with
  | @entries entries h =>
    rw [Atom.ofConditions, requirements, List.all_flatMap, List.all_flatMap, Bool.eq_iff_iff,
      List.all_eq_true, List.all_eq_true]
    refine forall₂_congr fun e he => ?_
    rw [(h e he).2.inRow]

end Json

namespace Condition

/-- The condition is what the document asks, and nothing of it is left out: it has one conjunct for
each requirement, in order, and binds the values of each in turn. Only a record without entries
asks nothing. As it is read, it is true in the rows whose columns meet the requirements. -/
structure Answers (c : Condition) (j : Json) : Prop where
  conjuncts :
    List.Forall₂ (fun r t => r.column = t.column ∧ r.Renders t.sql t.params) j.requirements c
  text : c.sql = separated " AND " (c.map ColumnTest.sql)
  values : c.params = c.flatMap ColumnTest.params
  vacant : c = [] ↔ j = .record []
  meaning : c ≠ [] → ∃ p, Sentence.ofText c.sql c.params = some p ∧ ∀ store row,
    p.eval (Atom.inRow store row) = j.requirements.all fun r => r.holds store (row r.column)

/-- A document is accepted exactly when it is a condition, and then nothing of it is dropped. -/
theorem ofJson_accepts (j : Json) :
    ((∃ c, ofJson j = .ok c) ↔ j.IsCondition) ∧ ∀ c, ofJson j = .ok c → c.Answers j := by
  refine ⟨⟨fun ⟨c, hc⟩ => isCondition_of_ok hc, fun h => ?_⟩, fun c hc => ?_⟩
  · obtain ⟨c, hc, -⟩ := ofJson_renders h
    exact ⟨c, hc⟩
  · have hj := isCondition_of_ok hc
    obtain ⟨c', hc', hrenders⟩ := ofJson_renders hj
    cases hc.symm.trans hc'
    refine ⟨hrenders, rfl, rfl, ?_, fun hne => ?_⟩
    · rw [← List.isEmpty_iff, ofJson_isEmpty hc, Json.isVacant_iff]
    · obtain ⟨p, hp, heval⟩ := Sentence.ofText_states
        (Sentence.states_one .or (Condition.states hne (ofJson_named hc)))
      refine ⟨p, hp, fun store row => ?_⟩
      have hatoms : (c.all fun t => Atom.inRow store row t.atom)
          = (Atom.ofConditions j).all (Atom.inRow store row) := by
        rw [← ofJson_atoms hc, List.all_map]
        rfl
      rw [heval, hatoms, hj.inRow]

/-- A condition with a pattern, operators on one column and a list without values. -/
def draftsCondition : Json :=
  .record [("title", .text "a%"), ("rank", .record [("gte", .int 1), ("in", .list []),
    ("isNullish", .bool false)]), ("kind", .record [("in", .list [.text "x", .null])]),
    ("draft", .null)]

theorem ofJson_accepts_drafts : draftsCondition.IsCondition ∧
    ∃ c, ofJson draftsCondition = .ok c ∧ c.Answers draftsCondition :=
  have ⟨haccepts, hanswers⟩ := ofJson_accepts draftsCondition
  ⟨haccepts.mp ⟨_, rfl⟩, _, rfl, hanswers _ rfl⟩

end Condition

end Tabularium
