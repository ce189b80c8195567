import Tabularium.Proofs.Numeric.Numeral
import Tabularium.Proofs.Query.WhereMeaning

namespace Tabularium

/-- How many rows are passed over, none when that is not said, and how many are taken of those
behind, all when that is not said. -/
@[ext]
structure Paging where
  limit : Option Nat
  offset : Option Nat
deriving DecidableEq

/-- The rows that are left of all rows. -/
def Paging.window {α : Type} (p : Paging) (rows : List α) : List α :=
  match p.limit with
  | none => rows.drop (p.offset.getD 0)
  | some n => (rows.drop (p.offset.getD 0)).take n

namespace Lexeme

variable {ls : List Lexeme} {w text s : String} {n : Nat}

/-- Cuts a word with a number behind it off the end, if that is how the lexemes end. -/
def cutNumber (w : String) (ls : List Lexeme) : List Lexeme × Option Nat :=
  match ls.reverse with
  | .number digits :: .word w' :: front =>
    if w' = w then (front.reverse, some (digitsValue digits.toList)) else (ls, none)
  | _ => (ls, none)

/-- The lexemes do not end in a number, unless a sign stands in front of it. -/
def Settled (ls : List Lexeme) : Prop :=
  (∃ front l, ls = front ++ [l] ∧ ∀ digits, l ≠ .number digits)
    ∨ ∃ front s digits, ls = front ++ [.sign s, .number digits]

/-- The text has an end that is apart from what stands in front of it, and settled. -/
def Ends (text : String) : Prop :=
  ∃ front tail, text = front ++ tail ∧ Opens tail ∧ Settled (ofText tail)

/-- A word with a number behind it, or nothing. -/
def numbered (w : String) : Option Nat → List Lexeme
  | none => []
  | some n => [.word w, .number (Nat.repr n)]

theorem cutNumber_numbered (h : cutNumber w ls = (ls, none)) (n : Option Nat) :
    cutNumber w (ls ++ numbered w n) = (ls, n) := by
  cases n with
  | none => rwa [numbered, List.append_nil]
  | some n => simp [cutNumber, numbered, digitsValue_toDigits]

theorem cutNumber_other {w' : String} (h : cutNumber w ls = (ls, none)) (hne : w' ≠ w)
    (n : Option Nat) : cutNumber w (ls ++ numbered w' n) = (ls ++ numbered w' n, none) := by
  cases n with
  | none => rwa [numbered, List.append_nil]
  | some n => simp [cutNumber, numbered, hne]

theorem Settled.cutNumber (h : Settled ls) (w : String) : Lexeme.cutNumber w ls = (ls, none) := by
  rcases h with ⟨front, l, rfl, hl⟩ | ⟨front, s, digits, rfl⟩
  · unfold Lexeme.cutNumber
    rw [List.reverse_append]
    split
    next heq => exact absurd (List.cons.inj heq).1 (hl _)
    next => rfl
  · simp [Lexeme.cutNumber]

theorem Settled.append (h : Settled ls) (more : List Lexeme) : Settled (more ++ ls) := by
  rcases h with ⟨front, l, rfl, hl⟩ | ⟨front, s, digits, rfl⟩
  · exact .inl ⟨more ++ front, l, (List.append_assoc ..).symm, hl⟩
  · exact .inr ⟨more ++ front, s, digits, (List.append_assoc ..).symm⟩

theorem Ends.settled (h : Ends text) : Settled (ofText text) := by
  obtain ⟨front, tail, rfl, ho, hs⟩ := h
  rw [ofText_opens ho]
  exact hs.append _

theorem Ends.append (h : Ends text) (more : String) : Ends (more ++ text) := by
  obtain ⟨front, tail, rfl, ho, hs⟩ := h
  exact ⟨more ++ front, tail, (String.append_assoc ..).symm, ho, hs⟩

theorem Ends.attached {a b : String} (ha : Ends a) (hb : b = "" ∨ Ends b) : Ends (a ++ b) := by
  rcases hb with rfl | hb
  · rwa [String.append_empty]
  · exact hb.append a

theorem ends_phrase (ls : List Lexeme) (l : Lexeme) {tail : String} (ho : Opens tail)
    (hl : ofText tail = ls ++ [l]) (hn : ∀ digits, l ≠ .number digits) (front : String) :
    Ends (front ++ tail) :=
  ⟨front, tail, rfl, ho, .inl ⟨ls, l, hl, hn⟩⟩

theorem ends_separated {α : Type} {xs : List α} {text : α → String} (hne : xs ≠ [])
    (h : ∀ x ∈ xs, Ends (text x)) : Ends (separated s (xs.map text)) := by
  induction xs with
  | nil => exact absurd rfl hne
  | cons x xs ih =>
    cases xs with
    | nil => exact h x List.mem_cons_self
    | cons y ys => exact (ih (by simp) fun z hz => h z (List.mem_cons_of_mem x hz)).append _

/-- The digits of a number are one lexeme. -/
theorem ofText_repr (n : Nat) : ofText (Nat.repr n) = [.number (Nat.repr n)] := by
  obtain ⟨hne, hdigits⟩ := toDigits_isDigits n
  obtain ⟨c, cs, hcs⟩ := List.exists_cons_of_ne_nil hne
  rw [hcs] at hdigits
  have hdigit : c.isDigit = true := hdigits c List.mem_cons_self
  have hblank : c ≠ ' ' := by rintro rfl; exact absurd hdigit (by decide)
  have hmark : c ≠ '?' := by rintro rfl; exact absurd hdigit (by decide)
  have hnames : ∀ d ∈ c :: cs, isNameChar d = true := fun d hd => by
    simp [isNameChar, Char.isAlphanum, hdigits d hd]
  have hback : String.ofList (c :: cs) = Nat.repr n := by
    rw [← hcs, ← Nat.toList_repr, String.ofList_toList]
  rw [ofText, Nat.toList_repr, hcs, List.splitBy_of_isChain (by simp) (isChain_names hnames)]
  simp [ofRun, hblank, hmark, hdigit, hback]

theorem ofText_numbered {phrase : String} (ho : Opens phrase) (hc : Closes phrase)
    (hw : ofText phrase = [.word w]) (text : String) (n : Nat) :
    ofText (text ++ (phrase ++ Nat.repr n)) = ofText text ++ numbered w (some n) := by
  rw [ofText_opens (opens_append ho _), ofText_closes hc, hw, ofText_repr]
  rfl

end Lexeme

open Lexeme (Ends ends_phrase ends_separated Settled cutNumber)

namespace Statement

/-- The lexemes of a statement in front of its paging, and the paging that it ends in. -/
def cut (s : Statement) : List Lexeme × Paging :=
  match cutNumber "OFFSET" (Lexeme.ofText s.sql) with
  | (front, offset) =>
    match cutNumber "LIMIT" front with
    | (body, limit) => (body, ⟨limit, offset⟩)

/-- What a statement asks for, whatever part of it is given. -/
def body (s : Statement) : List Lexeme :=
  s.cut.1

def paging (s : Statement) : Paging :=
  s.cut.2

end Statement

variable {c : Condition} {group : List Condition} {f : Filter}

theorem ColumnTest.ends (t : ColumnTest) : Ends t.sql := by
  obtain ⟨column, test⟩ := t
  have hblank {tail : String} (h : tail.toList.head? = some ' ') : Lexeme.Opens tail :=
    ⟨' ', h, by decide⟩
  cases test with
  | eq value => exact ends_phrase [.sign "="] .mark (hblank rfl) rfl (by simp) _
  | like pattern =>
    exact ends_phrase [.word "LIKE"] .mark (hblank rfl) rfl (by simp) _
  | oneOf values =>
    cases values with
    | nil =>
      have hs : Settled (Lexeme.ofText " = 0") := .inr ⟨[], "=", "0", rfl⟩
      exact ⟨"1", " = 0", rfl, hblank rfl, hs⟩
    | cons v vs =>
      exact ends_phrase [] (.sign ")") ⟨')', rfl, by decide⟩ rfl (by simp) _
  | isNull =>
    exact ends_phrase [.word "IS"] (.word "NULL") (hblank rfl) rfl (by simp) _
  | isNotNull =>
    exact ends_phrase [.word "IS", .word "NOT"] (.word "NULL") (hblank rfl) rfl (by simp) _
  | compare op value => exact ends_phrase [] .mark (hblank rfl) rfl (by simp) _

theorem Condition.ends (hne : c ≠ []) : Ends c.sql :=
  ends_separated hne fun t _ => t.ends

namespace Filter

theorem group_ends (text : String) : Ends ("(" ++ text ++ ")") :=
  ends_phrase [] (.sign ")") ⟨')', rfl, by decide⟩ rfl (by simp) _

theorem groupSql_ends (hs : Sound [group]) : Ends (groupSql group) := by
  cases group with
  | nil => exact absurd rfl (hs.inhabited [] List.mem_cons_self)
  | cons c rest =>
    cases rest with
    | nil => exact Condition.ends (hs.tested [c] List.mem_cons_self c List.mem_cons_self)
    | cons d rest => exact ends_separated (by simp) fun c _ => group_ends c.sql

theorem ends (hne : f ≠ []) (hs : f.Sound) : Ends f.sql := by
  cases f with
  | nil => exact absurd rfl hne
  | cons group rest =>
    cases rest with
    | nil => exact groupSql_ends (hs.of_mem List.mem_cons_self)
    | cons other rest =>
      refine ends_separated (by simp) fun group hg => ?_
      split
      next => exact group_ends (groupSql group)
      next => exact groupSql_ends (hs.of_mem hg)

theorem clause_ends (hs : f.Sound) : f.clause = "" ∨ Ends f.clause := by
  rw [clause]
  split
  next => exact .inl rfl
  next hne => exact .inr ((ends (by simpa using hne) hs).append _)

end Filter

namespace Query

variable {q : Query} {limit : Option UInt64} {s : Statement}

theorem orderItem_ends (column : String) (o : Order) : Ends (column ++ " " ++ o.sql) := by
  rw [String.append_assoc]
  cases o with
  | asc => exact ends_phrase [] (.word "ASC") ⟨' ', rfl, by decide⟩ rfl (by simp) _
  | desc => exact ends_phrase [] (.word "DESC") ⟨' ', rfl, by decide⟩ rfl (by simp) _

theorem orderClause_ends {order : List (String × Order)} {text : String}
    (h : orderClause order = .ok text) : text = "" ∨ Ends text := by
  obtain ⟨_, -, h⟩ := bind_eq_ok.mp h
  cases h
  split
  next => exact .inl rfl
  next hne =>
    refine .inr ((ends_separated (by simpa using hne) fun item _ => ?_).append _)
    exact orderItem_ends item.1 item.2

/-- The query for all rows. -/
def unpaged (q : Query) : Query :=
  { q with limit := none, offset := none }

/-- The paging that a query ends in when it is rendered with a limit. -/
def pagingWith (q : Query) (limit : Option UInt64) : Paging :=
  ⟨limit.map UInt64.toNat, q.offset.map (·.skipped (q.limit.getD 0))⟩

/-- A query is rendered as the query for all rows with its paging behind it. -/
theorem render_eq (q : Query) (limit : Option UInt64) : q.render limit =
    q.unpaged.compile.map fun s => ⟨s.sql ++ limitClause limit ++ q.offsetClause, s.params⟩ := by
  unfold unpaged compile render
  dsimp only
  cases requireIdentifier q.table with
  | error e => rfl
  | ok _ =>
    cases projection q.columns with
    | error e => rfl
    | ok columns =>
      cases Filter.ofJson q.groups with
      | error e => rfl
      | ok filter =>
        cases orderClause q.order with
        | error e => rfl
        | ok order =>
          have hlimit : limitClause none = "" := rfl
          have hoffset : ({ q with limit := none, offset := none } : Query).offsetClause = "" := rfl
          simp [Except.map, hlimit, hoffset, pure, Except.pure, bind, Except.bind]

theorem table_ends {table : String} (h : isIdentifier table = true) (columns : String) :
    Ends ("SELECT " ++ columns ++ " FROM " ++ table) := by
  have hwords : Lexeme.ofText (" FROM " ++ table) = [.word "FROM"] ++ [.word table] := by
    rw [Lexeme.ofText_closes ⟨' ', rfl, by decide⟩, Lexeme.ofText_identifier h]
    rfl
  rw [String.append_assoc]
  exact ends_phrase [.word "FROM"] (.word table) (Lexeme.opens_append ⟨' ', rfl, by decide⟩ _)
    hwords (by simp) _

theorem unpaged_ends (h : q.unpaged.compile = .ok s) : Ends s.sql := by
  obtain ⟨filter, columns, order, htable, hfilter, -, horder, rfl⟩ := render_ok h
  have hends := ((table_ends (requireIdentifier_ok htable) columns).attached
    (Filter.clause_ends (Filter.ofJson_sound hfilter))).attached (orderClause_ends horder)
  exact (hends.attached (.inl rfl)).attached (.inl rfl)

theorem ofText_limitClause (text : String) (limit : Option UInt64) :
    Lexeme.ofText (text ++ limitClause limit) =
      Lexeme.ofText text ++ Lexeme.numbered "LIMIT" (limit.map UInt64.toNat) := by
  cases limit with
  | none => rw [limitClause, String.append_empty, Option.map_none, Lexeme.numbered, List.append_nil]
  | some n => exact Lexeme.ofText_numbered ⟨' ', rfl, by decide⟩ ⟨' ', rfl, by decide⟩ rfl _ _

theorem ofText_offsetClause (text : String) (q : Query) :
    Lexeme.ofText (text ++ q.offsetClause) = Lexeme.ofText text
      ++ Lexeme.numbered "OFFSET" (q.offset.map (·.skipped (q.limit.getD 0))) := by
  unfold offsetClause
  cases q.offset with
  | none => rw [String.append_empty, Option.map_none, Lexeme.numbered, List.append_nil]
  | some offset => exact Lexeme.ofText_numbered ⟨' ', rfl, by decide⟩ ⟨' ', rfl, by decide⟩ rfl _ _

/-- The paging is read off a statement as it was put there, and the rest does not depend on it. -/
theorem render_cut (h : q.render limit = .ok s) : ∃ whole, q.unpaged.compile = .ok whole
    ∧ s.params = whole.params ∧ s.cut = (Lexeme.ofText whole.sql, q.pagingWith limit) := by
  rw [render_eq] at h
  obtain ⟨whole, hwhole, rfl⟩ := map_eq_ok.mp h
  refine ⟨whole, hwhole, rfl, ?_⟩
  have hsettled := (unpaged_ends hwhole).settled
  rw [Statement.cut, ofText_offsetClause, ofText_limitClause,
    Lexeme.cutNumber_numbered (Lexeme.cutNumber_other (hsettled.cutNumber _) (by decide) _)]
  dsimp only
  rw [Lexeme.cutNumber_numbered (hsettled.cutNumber _)]
  rfl

end Query

end Tabularium
