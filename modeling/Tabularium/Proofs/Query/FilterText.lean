import Tabularium.Proofs.Outcome
import Tabularium.Proofs.Query.WhereReading
import Tabularium.Query.Basic

namespace Tabularium

open Sentence (States states_atom states_one states_group states_separated readAtom readValues)
open Lexeme (bindMarks ofText_opens ofText_closes ofText_identifier)

variable {column : String} {t : ColumnTest} {c : Condition} {group : List Condition} {f : Filter}
  {j : Json} {docs : List (List Json)} {v : SqlValue} {vs : List SqlValue}

/-- The atomic predicate that a test of a column is. -/
def Test.atom (column : String) : Test → Atom
  | eq value => .compare column "=" value
  | like pattern => .like column (.text pattern)
  | oneOf [] => .numbers "1" "0"
  | oneOf values => .oneOf column values
  | isNull => .isNull column
  | isNotNull => .isNotNull column
  | compare op value => .compare column op.sql value

def ColumnTest.atom (t : ColumnTest) : Atom :=
  t.test.atom t.column

namespace Lexeme

theorem ofText_column {rest : String} (h : isIdentifier column = true) (ho : Opens rest) :
    ofText (column ++ rest) = .word column :: ofText rest := by
  rw [ofText_opens ho, ofText_identifier h]
  rfl

theorem placeholders_succ (n : Nat) :
    SqlValue.placeholders (n + 2) = "?" ++ ", " ++ SqlValue.placeholders (n + 1) := rfl

/-- The marks of a list take its values one after the other. -/
theorem bindMarks_placeholders (v : SqlValue) (vs : List SqlValue) :
    bindMarks (ofText (SqlValue.placeholders (vs.length + 1))) (v :: vs) =
      some (.value v :: vs.flatMap fun w => [.sign ",", .value w]) := by
  induction vs generalizing v with
  | nil => rfl
  | cons w ws ih =>
    have hcomma : Opens (", " ++ SqlValue.placeholders (ws.length + 1)) :=
      opens_append ⟨',', rfl, by decide⟩ _
    have hblank : Closes ", " := ⟨' ', rfl, by decide⟩
    have hfront : ofText "?" ++ ofText ", " = [.mark, .sign ","] := rfl
    rw [List.length_cons, placeholders_succ, String.append_assoc, ofText_opens hcomma,
      ofText_closes hblank, ← List.append_assoc, hfront, List.cons_append, List.singleton_append,
      bindMarks, bindMarks, ih, Option.map_some, Option.map_some, List.flatMap_cons]
    · rfl
    all_goals simp

end Lexeme

theorem readValues_separated (vs : List SqlValue) (rest : List Lexeme) :
    readValues ((vs.flatMap fun w => [.sign ",", .value w]) ++ .sign ")" :: rest) =
      some (vs, rest) := by
  induction vs with
  | nil => rfl
  | cons v vs ih =>
    rw [List.flatMap_cons, List.append_assoc, List.cons_append, List.singleton_append, readValues,
      ih, Option.map_some]

theorem states_column {rest : String} {ls : List Lexeme} {a : Atom} (h : isIdentifier column = true)
    (ho : Lexeme.Opens rest) (hl : bindMarks (Lexeme.ofText rest) vs = some ls)
    (hread : ∀ more, readAtom (.word column :: (ls ++ more)) = some (a, more)) :
    States .operand (column ++ rest) vs fun truth => truth a := by
  have hwhole : bindMarks (Lexeme.ofText (column ++ rest)) vs = some (.word column :: ls) := by
    rw [Lexeme.ofText_column h ho, bindMarks, hl, Option.map_some]
    all_goals simp
  exact states_atom hwhole hread

theorem states_oneOf (h : isIdentifier column = true) (v : SqlValue) (vs : List SqlValue) :
    States .operand (column ++ (" IN (" ++ (SqlValue.placeholders (vs.length + 1) ++ ")")))
      (v :: vs) fun truth => truth (.oneOf column (v :: vs)) := by
  have hwords : bindMarks (Lexeme.ofText " IN (") [] = some [.word "IN", .sign "("] := rfl
  have hclosing : bindMarks (Lexeme.ofText ")") [] = some [.sign ")"] := rfl
  have hvalues := Lexeme.bindMarks_append (Lexeme.bindMarks_placeholders v vs) hclosing
  have hrest := Lexeme.bindMarks_append hwords hvalues
  rw [List.append_nil, List.nil_append, ← ofText_opens ⟨')', rfl, by decide⟩,
    ← ofText_closes ⟨'(', rfl, by decide⟩] at hrest
  refine states_column h (Lexeme.opens_append ⟨' ', rfl, by decide⟩ _) hrest fun more => ?_
  simp [readAtom, readValues_separated]

/-- A test of a column states what its atomic predicate says. -/
theorem ColumnTest.states (h : isIdentifier t.column = true) :
    States .operand t.sql t.params fun truth => truth t.atom := by
  obtain ⟨column, test⟩ := t
  have hblank {rest : String} (hr : rest.toList.head? = some ' ') : Lexeme.Opens rest :=
    ⟨' ', hr, by decide⟩
  cases test with
  | eq value => exact states_column h (hblank rfl) rfl fun _ => rfl
  | like pattern => exact states_column h (hblank rfl) rfl fun _ => rfl
  | oneOf values =>
    cases values with
    | nil =>
      have hl : bindMarks (Lexeme.ofText "1 = 0") [] =
          some [.number "1", .sign "=", .number "0"] := rfl
      exact states_atom hl fun _ => rfl
    | cons v vs =>
      have hstates := states_oneOf h v vs
      rwa [← String.append_assoc, ← String.append_assoc] at hstates
  | isNull => exact states_column h (hblank rfl) rfl fun _ => rfl
  | isNotNull => exact states_column h (hblank rfl) rfl fun _ => rfl
  | compare op value =>
    have hstates : States .operand (column ++ (" " ++ (op.sql ++ " ?"))) [value]
        fun truth => truth (.compare column op.sql value) := by
      cases op <;> exact states_column h (hblank rfl) rfl fun _ => rfl
    rwa [← String.append_assoc, ← String.append_assoc] at hstates

theorem requireIdentifier_ok {name : String} (h : requireIdentifier name = .ok ()) :
    isIdentifier name = true := by
  unfold requireIdentifier at h
  split at h
  next hid => exact hid
  next => cases h

theorem Condition.states (hne : c ≠ []) (h : ∀ t ∈ c, isIdentifier t.column = true) :
    States .conjunction c.sql c.params fun truth => c.all fun t => truth t.atom :=
  states_separated .and hne fun t ht => states_one .and (t.states (h t ht))

namespace Filter

/-- What a filter consists of when it comes from documents. -/
structure Sound (f : Filter) : Prop where
  inhabited : ∀ group ∈ f, group ≠ []
  tested : ∀ group ∈ f, ∀ c ∈ group, c ≠ []
  named : ∀ group ∈ f, ∀ c ∈ group, ∀ t ∈ c, isIdentifier t.column = true

theorem Sound.of_mem (hs : f.Sound) (h : group ∈ f) : Sound [group] where
  inhabited := by simpa using hs.inhabited group h
  tested := by simpa using hs.tested group h
  named := by simpa using hs.named group h

/-- The truth of a filter, given that of its atomic predicates. -/
def holds (truth : Atom → Bool) (f : Filter) : Bool :=
  f.all fun group => group.any fun c => c.all fun t => truth t.atom

/-- A single condition is no alternative, and several ones stand in parentheses. -/
theorem groupSql_states (hs : Sound [group]) :
    States .alternatives (groupSql group) (group.flatMap Condition.params)
        (fun truth => group.any fun c => c.all fun t => truth t.atom) ∧
      (¬ 1 < group.length → States .conjunction (groupSql group) (group.flatMap Condition.params)
        fun truth => group.any fun c => c.all fun t => truth t.atom) := by
  have hstates : ∀ c ∈ group,
      States .conjunction c.sql c.params fun truth => c.all fun t => truth t.atom := fun c hc =>
    c.states (hs.tested group List.mem_cons_self c hc) (hs.named group List.mem_cons_self c hc)
  cases group with
  | nil => exact absurd rfl (hs.inhabited [] List.mem_cons_self)
  | cons c rest =>
    cases rest with
    | nil =>
      have hc := hstates c List.mem_cons_self
      have hall : ∀ truth : Atom → Bool,
          ([c].any fun c => c.all fun t => truth t.atom) = c.all fun t => truth t.atom := by simp
      have hparams : [c].flatMap Condition.params = c.params := List.flatMap_singleton ..
      simp only [hall, hparams]
      exact ⟨states_one .or hc, fun _ => hc⟩
    | cons d rest =>
      refine ⟨?_, fun h => absurd (by simp) h⟩
      exact states_separated .or (by simp) fun c hc =>
        states_one .or (states_one .and (states_group (states_one .or (hstates c hc))))

/-- The text of a filter states that each group holds. -/
theorem states (hne : f ≠ []) (hs : f.Sound) :
    States .alternatives f.sql f.params fun truth => f.holds truth := by
  cases f with
  | nil => exact absurd rfl hne
  | cons group rest =>
    cases rest with
    | nil =>
      have hone := (groupSql_states (hs.of_mem List.mem_cons_self)).1
      simpa [Filter.sql, Filter.params, holds] using hone
    | cons other rest =>
      refine states_one .or (states_separated .and (by simp) fun group hg => ?_)
      obtain ⟨halternatives, hsingle⟩ := groupSql_states (hs.of_mem hg)
      split
      next => exact states_one .and (states_group halternatives)
      next hlen => exact hsingle hlen

end Filter

/-- What compiles from a document names its columns. -/
theorem Condition.ofJson_named (h : Condition.ofJson j = .ok c) :
    ∀ t ∈ c, isIdentifier t.column = true := by
  cases j with
  | record entries =>
    obtain ⟨tests, htests, hc⟩ := bind_eq_ok.mp h
    cases hc
    intro t ht
    obtain ⟨ts, hts, ht⟩ := List.mem_flatten.mp ht
    obtain ⟨⟨column, operand⟩, -, he⟩ := mapM_ok htests ts hts
    obtain ⟨_, hid, he⟩ := bind_eq_ok.mp he
    obtain ⟨found, -, he⟩ := bind_eq_ok.mp he
    cases he
    obtain ⟨test, -, rfl⟩ := List.mem_map.mp ht
    exact requireIdentifier_ok hid
  | _ => cases h

theorem Filter.ofJson_eq (h : Filter.ofJson docs = .ok f) :
    ∃ groups, docs.mapM (fun group => group.mapM Condition.ofJson) = .ok groups ∧
      f = (groups.map fun group => group.filter (!·.isEmpty)).filter (!·.isEmpty) := by
  obtain ⟨groups, hg, hf⟩ := bind_eq_ok.mp h
  cases hf
  exact ⟨groups, hg, rfl⟩

theorem Filter.ofJson_sound (h : Filter.ofJson docs = .ok f) : f.Sound := by
  obtain ⟨groups, hgroups, rfl⟩ := ofJson_eq h
  have hkept : ∀ group ∈ (groups.map fun group => group.filter (!·.isEmpty)).filter (!·.isEmpty),
      group ≠ [] ∧ ∃ g ∈ groups, group = g.filter (!·.isEmpty) := by
    intro group hg
    obtain ⟨hmem, hne⟩ := List.mem_filter.mp hg
    obtain ⟨g, hfrom, rfl⟩ := List.mem_map.mp hmem
    exact ⟨by simpa using hne, g, hfrom, rfl⟩
  refine ⟨fun group hg => (hkept group hg).1, fun group hg c hc => ?_, fun group hg c hc => ?_⟩
  · obtain ⟨-, g, -, rfl⟩ := hkept group hg
    simpa using (List.mem_filter.mp hc).2
  · obtain ⟨-, g, hfrom, rfl⟩ := hkept group hg
    obtain ⟨items, -, hitems⟩ := mapM_ok hgroups g hfrom
    obtain ⟨j, -, hj⟩ := mapM_ok hitems c (List.mem_filter.mp hc).1
    exact Condition.ofJson_named hj

end Tabularium
