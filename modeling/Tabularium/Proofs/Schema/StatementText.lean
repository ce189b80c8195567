import Tabularium.Proofs.Schema.Compiled
import Tabularium.Proofs.Sql.Names
import Tabularium.Proofs.Sql.Splitting
import Tabularium.Schema.Ddl

namespace Tabularium

variable {a b s name : String} {texts : List String} {x : Binary64}

/-- The text is not empty and has only characters that are no blanks and mean nothing to a scan. -/
structure Solid (s : String) : Prop where
  nonempty : s.toList ≠ []
  plain : ∀ c ∈ s.toList, isOrdinary c = true ∧ isBlank c = false

/-- The text does not start with a blank. -/
def Starts (s : String) : Prop :=
  ∃ c, s.toList.head? = some c ∧ isBlank c = false

/-- The text does not end with a blank. -/
def Finishes (s : String) : Prop :=
  ∃ c, s.toList.getLast? = some c ∧ isBlank c = false

theorem Solid.inert (h : Solid s) : Inert s.toList :=
  inert_of_ordinary fun c hc => (h.plain c hc).1

theorem Solid.finishes (h : Solid s) : Finishes s := by
  refine ⟨s.toList.getLast h.nonempty, List.getLast?_eq_some_getLast _, ?_⟩
  exact (h.plain _ (List.getLast_mem h.nonempty)).2

theorem inert_text (ha : Inert a.toList) (hb : Inert b.toList) : Inert (a ++ b).toList := by
  rw [String.toList_append]
  exact inert_append ha hb

theorem inert_words (h : s.toList.all isOrdinary = true) : Inert s.toList :=
  inert_of_all h

theorem starts_text (h : Starts a) : Starts (a ++ b) := by
  obtain ⟨c, hc, hb⟩ := h
  refine ⟨c, ?_, hb⟩
  rw [String.toList_append, List.head?_append, hc, Option.some_or]

theorem finishes_text (h : Finishes b) : Finishes (a ++ b) := by
  obtain ⟨c, hc, hb⟩ := h
  refine ⟨c, ?_, hb⟩
  rw [String.toList_append, List.getLast?_append, hc, Option.some_or]

theorem inert_separated (hs : Inert s.toList) (h : ∀ t ∈ texts, Inert t.toList) :
    Inert (separated s texts).toList := by
  induction texts with
  | nil => exact inert_nil
  | cons t texts ih =>
    cases texts with
    | nil => exact h t List.mem_cons_self
    | cons u texts =>
      exact inert_text (inert_text (h t List.mem_cons_self) hs)
        (ih fun v hv => h v (List.mem_cons_of_mem t hv))

theorem isNameChar_plain {c : Char} (h : isNameChar c = true) :
    isOrdinary c = true ∧ isBlank c = false := by
  have hrange := isNameChar_range h
  have hne : ∀ d : Char, d.toNat < 48 ∨ d.toNat = 59 ∨ d.toNat = 96 → c ≠ d := by
    rintro d hd rfl
    omega
  constructor
  · simp only [isOrdinary, isMark, Bool.and_eq_true, Bool.not_eq_true', Bool.or_eq_false_iff,
      beq_eq_false_iff_ne, bne_iff_ne]
    exact ⟨⟨⟨⟨⟨hne _ (by decide), hne _ (by decide)⟩, hne _ (by decide)⟩, hne _ (by decide)⟩,
      hne _ (by decide)⟩, hne _ (by decide)⟩
  · exact isNameChar_not_blank h

theorem identifier_solid (h : isIdentifier name = true) : Solid name := by
  obtain ⟨c, cs, hname, -, hall⟩ := identifier_chars h
  constructor
  · simp [hname]
  · rw [hname]
    exact fun d hd => isNameChar_plain (hall d hd)

theorem isDigit_plain {c : Char} (h : c.isDigit = true) : isOrdinary c = true ∧ isBlank c = false :=
  isNameChar_plain (by simp [isNameChar, Char.isAlphanum, h])

theorem toDigits_plain {n : Nat} :
    ∀ c ∈ Nat.toDigits 10 n, isOrdinary c = true ∧ isBlank c = false :=
  fun _ hc => isDigit_plain (Nat.isDigit_of_mem_toDigits (by omega) (by omega) hc)

/-- A number with an optional minus is kept. -/
theorem signed_inert (negative : Bool) {cs : List Char} (hne : cs ≠ [])
    (h : ∀ c ∈ cs, isOrdinary c = true ∧ isBlank c = false) :
    Inert ((if negative then ['-'] else []) ++ cs) := by
  have hcs : Inert cs := inert_of_ordinary fun c hc => (h c hc).1
  cases negative with
  | false => exact hcs
  | true =>
    cases cs with
    | nil => exact absurd rfl hne
    | cons c cs => exact inert_minus (h c List.mem_cons_self).1 hcs

theorem positionalChars_plain (d : Decimal) :
    NumberLayout.positionalChars false d ≠ []
      ∧ ∀ c ∈ NumberLayout.positionalChars false d, isOrdinary c = true ∧ isBlank c = false := by
  have hdigits : ∀ c ∈ d.digitChars, isOrdinary c = true ∧ isBlank c = false := toDigits_plain
  have hne : d.digitChars ≠ [] := List.ne_nil_of_length_pos Nat.length_toDigits_pos
  have hzeros : ∀ n, ∀ c ∈ List.replicate n '0', isOrdinary c = true ∧ isBlank c = false := by
    intro n c hc
    cases List.eq_of_mem_replicate hc
    exact ⟨by decide, by decide⟩
  have hpoint : isOrdinary '.' = true ∧ isBlank '.' = false := by decide
  have hzero : isOrdinary '0' = true ∧ isBlank '0' = false := by decide
  unfold NumberLayout.positionalChars
  dsimp only
  split
  next =>
    simp only [Bool.false_eq_true, if_false, List.append_nil, List.mem_append]
    refine ⟨by simp [hne], ?_⟩
    rintro c (hc | hc)
    · exact hdigits c hc
    · exact hzeros _ c hc
  next =>
    split
    next =>
      refine ⟨by simp, ?_⟩
      intro c hc
      rcases List.mem_append.mp hc with hc | hc
      · exact hdigits c (List.mem_of_mem_take hc)
      · rcases List.mem_cons.mp hc with rfl | hc
        · exact hpoint
        · exact hdigits c (List.mem_of_mem_drop hc)
    next =>
      refine ⟨by simp, ?_⟩
      intro c hc
      simp only [List.mem_cons, List.mem_append] at hc
      rcases hc with rfl | rfl | hc | hc
      · exact hzero
      · exact hpoint
      · exact hzeros _ c hc
      · exact hdigits c hc

/-- The last character of a number in a statement is no blank, and a scan keeps the number. -/
theorem float_text (x : Binary64) :
    Inert (x.text .statement).toList ∧ Finishes (x.text .statement) := by
  unfold Binary64.text Finishes
  rw [String.toList_ofList]
  unfold Binary64.chars
  split
  next => exact ⟨inert_of_all (by decide), 'N', by decide, by decide⟩
  next =>
    split
    next =>
      split
      next =>
        have hinf : Inert ['i', 'n', 'f'] := inert_of_all (by decide)
        exact ⟨inert_minus (by decide) hinf, 'f', by decide, by decide⟩
      next => exact ⟨inert_of_all (by decide), 'f', by decide, by decide⟩
    next =>
      obtain ⟨hne, hplain⟩ := positionalChars_plain (x.shortest Tie.up)
      refine ⟨signed_inert _ hne hplain, ?_⟩
      refine ⟨(NumberLayout.positionalChars false (x.shortest Tie.up)).getLast hne, ?_, ?_⟩
      · simp only [NumberLayout.finiteChars, NumberLayout.statement, List.getLast?_append,
          List.getLast?_eq_some_getLast hne, Option.some_or]
      · exact (hplain _ (List.getLast_mem hne)).2

theorem int_text (n : Int) : Inert (Int.repr n).toList ∧ Finishes (Int.repr n) := by
  have hnat : ∀ m : Nat, Solid (Nat.repr m) := by
    intro m
    have hl : (Nat.repr m).toList = Nat.toDigits 10 m := by simp [Nat.repr]
    exact ⟨by rw [hl]; exact List.ne_nil_of_length_pos Nat.length_toDigits_pos,
      by rw [hl]; exact toDigits_plain⟩
  cases n with
  | ofNat m => exact ⟨(hnat m).inert, (hnat m).finishes⟩
  | negSucc m =>
    have hm := hnat (m + 1)
    have he : (Int.repr (.negSucc m)) = "-" ++ Nat.repr (m + 1) := rfl
    rw [he]
    refine ⟨?_, finishes_text hm.finishes⟩
    rw [String.toList_append]
    exact signed_inert true hm.nonempty hm.plain

theorem quote_text (s : String) : Inert (quoteText s).toList ∧ Finishes (quoteText s) := by
  unfold quoteText Finishes
  rw [String.toList_ofList]
  refine ⟨inert_quoteChars _, quoteMark, ?_, by decide⟩
  rw [quoteChars, ← List.cons_append, List.getLast?_concat]

theorem literal_text (l : Literal) : Inert l.sql.toList ∧ Finishes l.sql := by
  cases l with
  | null => exact ⟨inert_words (by decide), 'L', by decide, by decide⟩
  | now => exact ⟨inert_words (by decide), ')', by decide, by decide⟩
  | bool b =>
    cases b with
    | true => exact ⟨inert_words (by decide), '1', by decide, by decide⟩
    | false => exact ⟨inert_words (by decide), '0', by decide, by decide⟩
  | int n => exact int_text n.toInt
  | float x => exact float_text x
  | text s => exact quote_text s

theorem group_text (h : isClosed none s.toList = true) :
    Inert ("(" ++ s ++ ")").toList ∧ Finishes ("(" ++ s ++ ")") := by
  refine ⟨?_, finishes_text ⟨')', by decide, by decide⟩⟩
  have hl : ("(" ++ s ++ ")").toList = '(' :: (s.toList ++ [')']) := by simp
  rw [hl]
  exact inert_group h

/-- An expression that stands as a default is closed. -/
def DefaultValue.IsClosed (d : DefaultValue) : Prop :=
  ∀ sql, d = .raw sql → isClosed none sql.toList = true

theorem default_text {d : DefaultValue} (h : d.IsClosed) :
    Inert d.sql.toList ∧ Finishes d.sql := by
  cases d with
  | raw sql => exact group_text (h sql rfl)
  | value l => exact literal_text l

/-- The expressions of a table, which stand as defaults and as conditions, are closed. -/
structure Table.IsClosed (t : Table) : Prop where
  defaults : ∀ k ∈ t.columns, ∀ d, k.default = some d → d.IsClosed
  checks : ∀ check ∈ t.checks, isClosed none check.toList = true

def Schema.IsClosed (s : Schema) : Prop :=
  ∀ t ∈ s.tables, t.IsClosed

/-- The names of a column can stand without quotes, and its default is closed. -/
structure Column.Clean (k : Column) : Prop where
  named : isIdentifier k.name
  default : ∀ d, k.default = some d → d.IsClosed
  references : ∀ r, k.references = some r → isIdentifier r.table ∧ isIdentifier r.column

/-- The names of a statement can stand without quotes, and its expressions are closed. -/
def Ddl.Clean : Ddl → Prop
  | .createTable t =>
    isIdentifier t.name ∧ (∀ k ∈ t.columns, k.Clean)
      ∧ ∀ check ∈ t.checks, isClosed none check.toList = true
  | .createIndex table i =>
    isIdentifier table ∧ isIdentifier i.name ∧ ∀ name ∈ i.columns, isIdentifier name
  | .dropIndex name => isIdentifier name
  | .addColumn table k =>
    isIdentifier table ∧ isIdentifier k.name ∧ ∀ d, k.default = some d → d.IsClosed
  | .dropColumn table column => isIdentifier table ∧ isIdentifier column

theorem defaultClause_inert {d : Option DefaultValue} (h : ∀ v, d = some v → v.IsClosed) :
    Inert (defaultClause d).toList := by
  cases d with
  | none => exact inert_nil
  | some v => exact inert_text (inert_words (by decide)) (default_text (h v rfl)).1

theorem inert_if {p : Bool} (ha : Inert a.toList) : Inert (if p then a else "").toList := by
  cases p with
  | true => exact ha
  | false => exact inert_nil

theorem sqlName_inert (type : ColumnType) : Inert type.sqlName.toList := by
  cases type <;> exact inert_words (by decide)

theorem bare_text {k : BareColumn} (hn : isIdentifier k.name = true)
    (hd : ∀ v, k.default = some v → v.IsClosed) : Inert k.sql.toList ∧ Finishes k.sql := by
  have hnull : Inert (if k.notNull then " NOT NULL" else "").toList :=
    inert_if (inert_words (by decide))
  constructor
  · refine inert_text (inert_text (inert_text (inert_text ?_ ?_) ?_) hnull) ?_
    · exact (identifier_solid hn).inert
    · exact inert_words (by decide)
    · exact sqlName_inert k.type
    · exact defaultClause_inert hd
  · unfold BareColumn.sql
    cases hv : k.default with
    | some v => exact finishes_text (finishes_text (default_text (hd v hv)).2)
    | none =>
      have htype : Finishes k.type.sqlName := by
        cases k.type with
        | text => exact ⟨'T', by decide, by decide⟩
        | integer => exact ⟨'R', by decide, by decide⟩
        | real => exact ⟨'L', by decide, by decide⟩
        | blob => exact ⟨'B', by decide, by decide⟩
        | json => exact ⟨'T', by decide, by decide⟩
      simp only [defaultClause, String.append_empty]
      cases k.notNull with
      | true => exact finishes_text ⟨'L', by decide, by decide⟩
      | false =>
        simp only [Bool.false_eq_true, if_false, String.append_empty]
        exact finishes_text htype

theorem action_inert (action : DeleteAction) : Inert action.sql.toList := by
  cases action <;> exact inert_words (by decide)

theorem clause_inert {r : Reference} (ht : isIdentifier r.table = true)
    (hc : isIdentifier r.column = true) : Inert r.clause.toList := by
  refine inert_text (inert_text (inert_text (inert_text (inert_text ?_ ?_) ?_) ?_) ?_) ?_
  · exact inert_words (by decide)
  · exact (identifier_solid ht).inert
  · exact inert_words (by decide)
  · exact (identifier_solid hc).inert
  · exact inert_words (by decide)
  · cases r.onDelete with
    | none => exact inert_nil
    | some action => exact inert_text (inert_words (by decide)) (action_inert action)

theorem enumClause_inert (hn : isIdentifier name = true) (values : List String) :
    Inert (Column.enumClause name values).toList := by
  refine inert_text (inert_text (inert_text (inert_text ?_ ?_) ?_) ?_) ?_
  · exact inert_words (by decide)
  · exact (identifier_solid hn).inert
  · exact inert_words (by decide)
  · refine inert_separated (inert_words (by decide)) fun t ht => ?_
    obtain ⟨v, _, rfl⟩ := List.mem_map.mp ht
    exact (quote_text v).1
  · exact inert_words (by decide)

theorem column_inert {k : Column} (h : k.Clean) : Inert k.sql.toList := by
  have word : ∀ {p : Bool} {w : String}, w.toList.all isOrdinary = true →
      Inert (if p then w else "").toList := fun hw => inert_if (inert_words hw)
  refine inert_text (inert_text (inert_text (inert_text (inert_text (inert_text (inert_text
    (inert_text ?_ ?_) ?_) ?_) ?_) ?_) ?_) ?_) ?_
  · exact (identifier_solid h.named).inert
  · exact inert_words (by decide)
  · exact sqlName_inert k.type
  · exact word (by decide)
  · exact word (by decide)
  · exact word (by decide)
  · exact defaultClause_inert h.default
  · cases k.enumValues with
    | none => exact inert_nil
    | some values => exact enumClause_inert h.named values
  · cases hr : k.references with
    | none => exact inert_nil
    | some r =>
      obtain ⟨ht, hc⟩ := h.references r hr
      exact clause_inert ht hc

theorem check_inert {check : String} (h : isClosed none check.toList = true) :
    Inert ("CHECK (" ++ check ++ ")").toList := by
  have hl : ("CHECK (" ++ check ++ ")").toList
      = "CHECK ".toList ++ '(' :: (check.toList ++ [')']) := by simp
  rw [hl]
  exact inert_append (inert_words (by decide)) (inert_group h)

theorem createTable_inert {t : Table} (hn : isIdentifier t.name = true)
    (hk : ∀ k ∈ t.columns, k.Clean) (hc : ∀ check ∈ t.checks, isClosed none check.toList = true) :
    Inert (Ddl.createTable t).sql.toList := by
  refine inert_text (inert_text (inert_text (inert_text ?_ ?_) ?_) ?_) ?_
  · exact inert_words (by decide)
  · exact (identifier_solid hn).inert
  · exact inert_words (by decide)
  · refine inert_separated (inert_words (by decide)) fun part hp => ?_
    rcases List.mem_append.mp hp with hp | hp
    · obtain ⟨k, hm, rfl⟩ := List.mem_map.mp hp
      exact column_inert (hk k hm)
    · obtain ⟨check, hm, rfl⟩ := List.mem_map.mp hp
      exact check_inert (hc check hm)
  · exact inert_words (by decide)

theorem createIndex_inert {table : String} {i : Index} (ht : isIdentifier table = true)
    (hn : isIdentifier i.name = true) (hc : ∀ name ∈ i.columns, isIdentifier name) :
    Inert (Ddl.createIndex table i).sql.toList := by
  refine inert_text (inert_text (inert_text (inert_text (inert_text (inert_text (inert_text
    (inert_text ?_ ?_) ?_) ?_) ?_) ?_) ?_) ?_) ?_
  · exact inert_words (by decide)
  · exact inert_if (inert_words (by decide))
  · exact inert_words (by decide)
  · exact (identifier_solid hn).inert
  · exact inert_words (by decide)
  · exact (identifier_solid ht).inert
  · exact inert_words (by decide)
  · refine inert_separated (inert_words (by decide)) fun name hm => ?_
    exact (identifier_solid (hc name hm)).inert
  · exact inert_words (by decide)

/-- The text of a statement is kept by a scan and has no blanks at its ends. -/
theorem statement_whole {s : Ddl} (h : s.Clean) : Whole s.sql.toList := by
  have close : Finishes ")" := ⟨')', by decide, by decide⟩
  cases s with
  | createTable t =>
    obtain ⟨hn, hk, hc⟩ := h
    refine ⟨createTable_inert hn hk hc, ?_, finishes_text close⟩
    exact starts_text (starts_text (starts_text (starts_text ⟨'C', by decide, by decide⟩)))
  | createIndex table i =>
    obtain ⟨ht, hn, hc⟩ := h
    refine ⟨createIndex_inert ht hn hc, ?_, finishes_text close⟩
    exact starts_text (starts_text (starts_text (starts_text (starts_text (starts_text
      (starts_text (starts_text ⟨'C', by decide, by decide⟩)))))))
  | dropIndex name =>
    have hs := identifier_solid h
    exact ⟨inert_text (inert_words (by decide)) hs.inert,
      starts_text ⟨'D', by decide, by decide⟩, finishes_text hs.finishes⟩
  | addColumn table k =>
    obtain ⟨ht, hn, hd⟩ := h
    obtain ⟨hinert, hfinish⟩ := bare_text hn hd
    refine ⟨?_, ?_, finishes_text hfinish⟩
    · refine inert_text (inert_text (inert_text ?_ ?_) ?_) hinert
      · exact inert_words (by decide)
      · exact (identifier_solid ht).inert
      · exact inert_words (by decide)
    · exact starts_text (starts_text (starts_text ⟨'A', by decide, by decide⟩))
  | dropColumn table column =>
    obtain ⟨ht, hc⟩ := h
    have hs := identifier_solid hc
    refine ⟨?_, ?_, finishes_text hs.finishes⟩
    · refine inert_text (inert_text (inert_text ?_ ?_) ?_) hs.inert
      · exact inert_words (by decide)
      · exact (identifier_solid ht).inert
      · exact inert_words (by decide)
    · exact starts_text (starts_text (starts_text ⟨'A', by decide, by decide⟩))

theorem script_toList (statements : List Ddl) : (Ddl.script statements).toList
    = (statements.map fun s => s.sql.toList).flatMap fun xs => xs ++ [';', '\n'] := by
  simp [Ddl.script, List.flatMap_map, String.toList_join]

theorem statements_whole {statements : List Ddl} (h : ∀ s ∈ statements, s.Clean) :
    ∀ xs ∈ statements.map fun s => s.sql.toList, Whole xs := by
  intro xs hx
  obtain ⟨s, hs, rfl⟩ := List.mem_map.mp hx
  exact statement_whole (h s hs)

theorem splitStatements_script {statements : List Ddl} (h : ∀ s ∈ statements, s.Clean) :
    splitStatements (Ddl.script statements) = statements.map Ddl.sql := by
  rw [splitStatements_eq, script_toList, statementsOf_script (statements_whole h)]
  simp [Function.comp_def]

end Tabularium
