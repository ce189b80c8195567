import Tabularium.Proofs.Query.CommandReading
import Tabularium.Proofs.Query.StatementMarks

namespace Tabularium

variable {action table : String} {conditions : Json} {patch : Row} {c : Condition}
  {e : CompileError}

/-- The calls on one condition, with what their statements do with rows. -/
def conditionCalls (table : String) (conditions : Json) (patch : Row) :
    List (Effect × Except CompileError Statement) :=
  [(.select, (Query.filterBy { table } conditions).compile),
    (.count, Mutation.count table conditions),
    (.delete, Mutation.delete table conditions),
    (.update (patch.entries.map fun entry => (entry.1, .ofJson entry.2)),
      Mutation.update table conditions patch)]

/-- Without conditions all rows are selected and counted, and none are changed. -/
structure Unconditional (table : String) (patch : Row) : Prop where
  select : (Query.filterBy { table } (.record [])).compile = .ok (Effect.select.head table)
  count : Mutation.count table (.record []) = .ok (Effect.count.head table)
  selected : (Effect.select.head table).Affects .select table []
  counted : (Effect.count.head table).Affects .count table []
  delete : Mutation.delete table (.record []) = .error (.unboundedMutation "delete")
  update : Mutation.update table (.record []) patch = .error (.unboundedMutation "update")

/-- What the calls on one condition have in common, whatever the condition. -/
structure FiltersAlike (table : String) (patch : Row) : Prop where
  /-- All calls are refused for one reason, or one text with the same values stands behind `WHERE`
  in all statements, and they are about the rows in which the condition is true. -/
  conditional : ∀ conditions, conditions ≠ .record [] →
    (∃ e, ∀ call ∈ conditionCalls table conditions patch, call.2 = .error e) ∨
      ∃ text params, ∀ call ∈ conditionCalls table conditions patch,
        call.2 = .ok (call.1.withCondition table text params) ∧
          (call.1.withCondition table text params).Affects call.1 table
            (Atom.ofConditions conditions)
  unconditional : isIdentifier table = true → Unconditional table patch
  /-- A name that is no identifier is refused before the condition is looked at. -/
  unnamed : isIdentifier table = false →
    ∀ conditions, ∀ call ∈ conditionCalls table conditions patch,
      call.2 = .error (.invalidIdentifier table)

/-- The filter of one condition, which is empty when that one is. -/
theorem Filter.ofJson_single (conditions : Json) : Filter.ofJson [[conditions]] =
    (Condition.ofJson conditions).map fun c => if c.isEmpty then [] else [[c]] := by
  unfold Filter.ofJson
  cases h : Condition.ofJson conditions with
  | error e => simp [h, Except.map, bind, Except.bind]
  | ok c => cases c <;> simp [h, Except.map, bind, Except.bind, pure, Except.pure]

namespace Query

/-- A query for one condition is refused when that one is, and else has its clause. -/
theorem compile_filterBy (h : isIdentifier table = true) :
    (filterBy { table } conditions).compile = (Filter.ofJson [[conditions]]).map fun f =>
      ⟨"SELECT * FROM " ++ table ++ f.clause, f.params⟩ := by
  have hname : requireIdentifier table = .ok () := if_pos h
  have hgroups : (filterBy { table } conditions).groups = [[conditions]] := rfl
  have htable : (filterBy { table } conditions).table = table := rfl
  have hselect : "SELECT " ++ "*" ++ " FROM " = "SELECT * FROM " := rfl
  rw [compile, render, hgroups, htable, hname]
  cases Filter.ofJson [[conditions]] with
  | error e => rfl
  | ok f =>
    change Except.ok (Statement.mk ("SELECT " ++ "*" ++ " FROM " ++ table ++ f.clause ++ "" ++ ""
      ++ "") f.params) = _
    simp only [hselect, String.append_empty, Except.map]

theorem compileCount_filterBy (h : isIdentifier table = true) :
    (filterBy { table } conditions).compileCount = (Filter.ofJson [[conditions]]).map fun f =>
      ⟨"SELECT COUNT(*) as count FROM " ++ table ++ f.clause, f.params⟩ := by
  have hname : requireIdentifier table = .ok () := if_pos h
  have hgroups : (filterBy { table } conditions).groups = [[conditions]] := rfl
  have htable : (filterBy { table } conditions).table = table := rfl
  rw [compileCount, hgroups, htable, hname]
  cases Filter.ofJson [[conditions]] with
  | error e => rfl
  | ok f => rfl

end Query

theorem forall_conditionCalls {p : Effect × Except CompileError Statement → Prop}
    (select : p (.select, (Query.filterBy { table } conditions).compile))
    (count : p (.count, Mutation.count table conditions))
    (delete : p (.delete, Mutation.delete table conditions))
    (update : p (.update (patch.entries.map fun entry => (entry.1, .ofJson entry.2)),
      Mutation.update table conditions patch)) :
    ∀ call ∈ conditionCalls table conditions patch, p call := by
  simp only [conditionCalls, List.forall_mem_cons]
  exact ⟨select, count, delete, update, by simp⟩

theorem calls_named (binds : Mutation.Binds patch) :
    ∀ call ∈ conditionCalls table conditions patch, call.1.Named :=
  forall_conditionCalls trivial trivial trivial (Mutation.bindRow_named (binds.bound "update"))

/-- A condition that is no empty record stands in the statements of all calls. -/
theorem calls_stated (h : isIdentifier table = true) (binds : Mutation.Binds patch)
    (hc : Condition.ofJson conditions = .ok c) (hne : c ≠ []) :
    ∀ call ∈ conditionCalls table conditions patch,
      call.2 = .ok (call.1.withCondition table c.sql c.params) := by
  have hname : requireIdentifier table = .ok () := if_pos h
  have hcells := binds.bound "update"
  have hrequired : ∀ action, Mutation.requireCondition action conditions = .ok c := fun _ =>
    Mutation.requireCondition_eq_ok.mpr ⟨hc, hne⟩
  have hfilter : Filter.ofJson [[conditions]] = .ok [[c]] := by
    rw [Filter.ofJson_single, hc]
    simp [Except.map, hne]
  have hclause : Filter.clause [[c]] = " WHERE " ++ c.sql := rfl
  have hparams : Filter.params [[c]] = c.params := by simp [Filter.params]
  refine forall_conditionCalls ?_ ?_ ?_ ?_ <;> dsimp only [Effect.withCondition, Effect.head]
  · rw [Query.compile_filterBy h, hfilter, Except.map, hclause, hparams, ← String.append_assoc]
    rfl
  · rw [Mutation.count, Query.compileCount_filterBy h, hfilter, Except.map, hclause, hparams,
      ← String.append_assoc]
    rfl
  · rw [Mutation.delete, hname, hrequired]
    rfl
  · rw [Mutation.update, hname, hcells, hrequired]
    rfl

theorem calls_refused (h : isIdentifier table = true) (binds : Mutation.Binds patch)
    (hc : Condition.ofJson conditions = .error e) :
    ∀ call ∈ conditionCalls table conditions patch, call.2 = .error e := by
  have hname : requireIdentifier table = .ok () := if_pos h
  have hcells := binds.bound "update"
  have hfilter : Filter.ofJson [[conditions]] = .error e := by
    rw [Filter.ofJson_single, hc]
    rfl
  refine forall_conditionCalls ?_ ?_ ?_ ?_ <;> dsimp only
  · rw [Query.compile_filterBy h, hfilter]
    rfl
  · rw [Mutation.count, Query.compileCount_filterBy h, hfilter]
    rfl
  · rw [Mutation.delete, hname, Mutation.requireCondition, hc]
    rfl
  · rw [Mutation.update, hname, hcells, Mutation.requireCondition, hc]
    rfl

theorem calls_unnamed (h : isIdentifier table = false) :
    ∀ call ∈ conditionCalls table conditions patch,
      call.2 = .error (.invalidIdentifier table) := by
  have hname : requireIdentifier table = .error (.invalidIdentifier table) := by
    rw [requireIdentifier, h, if_neg Bool.false_ne_true]
  have htable : (Query.filterBy { table } conditions).table = table := rfl
  refine forall_conditionCalls ?_ ?_ ?_ ?_ <;> dsimp only
  · rw [Query.compile, Query.render, htable, hname]
    rfl
  · rw [Mutation.count, Query.compileCount, htable, hname]
    rfl
  · rw [Mutation.delete, hname]
    rfl
  · rw [Mutation.update, hname]
    rfl

namespace Effect

variable {effect : Effect}

theorem head_affects (h : isIdentifier table = true) (hn : effect.Named) :
    (effect.head table).Affects effect table [] :=
  ⟨_, Command.ofStatement_head h hn, rfl, rfl, fun _ _ _ => rfl⟩

theorem withCondition_affects (h : isIdentifier table = true) (hn : effect.Named)
    (hc : Condition.ofJson conditions = .ok c) (hne : c ≠ []) :
    (effect.withCondition table c.sql c.params).Affects effect table
      (Atom.ofConditions conditions) := by
  obtain ⟨p, hp, heval⟩ := Sentence.ofText_states
    (Sentence.states_one .or (c.states hne (Condition.ofJson_named hc)))
  refine ⟨_, Command.ofStatement_withCondition h hn hp, rfl, rfl, fun α truth stored => ?_⟩
  have hrow : ∀ row, p.eval (truth row) = (Atom.ofConditions conditions).all (truth row) := by
    intro row
    rw [heval, ← Condition.ofJson_atoms hc, List.all_map]
    rfl
  simp only [Command.rows, Option.all_some, hrow]

end Effect

theorem calls_unconditional (h : isIdentifier table = true) (binds : Mutation.Binds patch) :
    Unconditional table patch := by
  have hname : requireIdentifier table = .ok () := if_pos h
  have hcells := binds.bound "update"
  have hfilter : Filter.ofJson [[.record []]] = .ok [] := rfl
  have hclause : Filter.clause [] = "" := rfl
  refine ⟨?_, ?_, Effect.head_affects h trivial, Effect.head_affects h trivial, ?_, ?_⟩
  · rw [Query.compile_filterBy h, hfilter, Except.map, hclause, String.append_empty]
    rfl
  · rw [Mutation.count, Query.compileCount_filterBy h, hfilter, Except.map, hclause,
      String.append_empty]
    rfl
  · rw [Mutation.delete, hname]
    rfl
  · rw [Mutation.update, hname, hcells]
    rfl

/-- Whatever the condition, selecting, counting, deleting and updating take it alike. -/
theorem filters_alike (binds : Mutation.Binds patch) : FiltersAlike table patch where
  conditional conditions hne := by
    cases h : isIdentifier table with
    | false => exact .inl ⟨_, calls_unnamed h⟩
    | true =>
      cases hc : Condition.ofJson conditions with
      | error e => exact .inl ⟨e, calls_refused h binds hc⟩
      | ok c =>
        have hvacant : conditions.isVacant = false := by
          rwa [Bool.eq_false_iff, ne_eq, Json.isVacant_iff]
        have hcne : c ≠ [] := by
          rintro rfl
          exact absurd ((Condition.ofJson_isEmpty hc).trans hvacant) (by simp)
        refine .inr ⟨c.sql, c.params, fun call hcall => ⟨?_, ?_⟩⟩
        · exact calls_stated h binds hc hcne call hcall
        · exact call.1.withCondition_affects h (calls_named binds call hcall) hc hcne
  unconditional h := calls_unconditional h binds
  unnamed h _ := calls_unnamed h

/-- A new title for a post that is no draft. -/
def titlePatch : Row :=
  ⟨[("title", .text "b"), ("draft", .null)], by decide⟩

theorem titlePatch_binds : Mutation.Binds titlePatch where
  filled := by decide
  named := by
    rintro entry (_ | ⟨_, _ | ⟨_, ⟨⟩⟩⟩) <;> rfl

theorem filters_alike_posts : Mutation.Binds titlePatch ∧ FiltersAlike "posts" titlePatch :=
  ⟨titlePatch_binds, filters_alike titlePatch_binds⟩

example : Mutation.update "posts" (.record [("rank", .record [("gt", .int 1), ("lte", .int 5)])])
    titlePatch = .ok ⟨"UPDATE posts SET title = ?, draft = ? WHERE rank > ? AND rank <= ?",
      [.text "b", .null, .int 1, .int 5]⟩ := rfl

/-- That the table has no proper name is said first, also where there are no conditions. -/
theorem unnamed_without_conditions :
    Mutation.delete "no table" (.record []) ≠ .error (.unboundedMutation "delete") ∧
      Mutation.update "no table" (.record []) titlePatch ≠
        .error (.unboundedMutation "update") ∧
      ∀ call ∈ conditionCalls "no table" (.record []) titlePatch,
        call.2 = .error (.invalidIdentifier "no table") := by
  have hdelete : Mutation.delete "no table" (.record []) =
      .error (.invalidIdentifier "no table") := rfl
  have hupdate : Mutation.update "no table" (.record []) titlePatch =
      .error (.invalidIdentifier "no table") := rfl
  exact ⟨by simp [hdelete], by simp [hupdate], calls_unnamed (by decide)⟩

end Tabularium
