import Tabularium.Proofs.Schema.StatementText
import Tabularium.Proofs.Schema.TokenText
import Tabularium.Proofs.Sql.Composition

namespace Tabularium

variable {P : Prop} {text text' : String → String} {cs front back rest xs : List Char}
  {separator : String} {t : Table} {c : Column} {before after : List Column}
  {lower upper : List String}

/-- A text that is kept whatever follows leaves a scan outside quotes and comments. -/
theorem Inert.scanEnd_plain (h : Inert xs) : scanEnd .plain xs = .plain := by
  -- Only there does a semicolon part what follows from the text.
  have hparted : Parted xs [';'] := by
    intro c _ d hd
    cases hd
    simp
  have hcut : xs.foldr keepChar (scriptPieces (scanEnd .plain xs) [';']) = [xs, []] := by
    have hwhole := h []
    rw [List.append_nil, scriptPieces, foldr_keepChar, List.append_nil] at hwhole
    have happend : scriptPieces .plain (xs ++ [';'])
        = glue (scriptPieces .plain xs) (scriptPieces (scanEnd .plain xs) [';']) :=
      scriptPieces_append hparted
    rw [hwhole, glue, h, scriptPieces_semicolon, foldr_keepChar, List.append_nil] at happend
    exact happend.symm
  have hlength := congrArg List.length hcut
  cases hend : scanEnd .plain xs with
  | plain => rfl
  | quoted mark => simp [hend, scriptPieces, keepChar, foldr_keepChar] at hlength
  | lineComment => simp [hend, scriptPieces, foldr_keepChar] at hlength
  | blockComment => simp [hend, scriptPieces, foldr_keepChar] at hlength

/-- Inside the body of a literal a scan stands between quotes, but for the place between the two
quotes that stand for one. -/
theorem scanEnd_body (h : doubleQuotes cs ++ [quoteMark] = front ++ back) (hback : back ≠ []) :
    scanEnd (.quoted quoteMark) front = .quoted quoteMark
      ∨ scanEnd (.quoted quoteMark) front = .plain ∧ back.head? = some quoteMark := by
  induction cs generalizing front with
  | nil =>
    cases front with
    | nil => exact .inl rfl
    | cons d ds =>
      rw [doubleQuotes, List.nil_append, List.cons_append, List.cons.injEq] at h
      exact absurd (List.append_eq_nil_iff.mp h.2.symm).2 hback
  | cons d ds ih =>
    cases front with
    | nil => exact .inl rfl
    | cons e front =>
      by_cases hd : d = quoteMark
      · rw [doubleQuotes, if_pos hd, List.cons_append, List.cons_append, List.cons_append,
          List.cons.injEq] at h
        obtain ⟨rfl, h⟩ := h
        cases front with
        | nil => exact .inr ⟨rfl, by rw [← List.nil_append back, ← h]; rfl⟩
        | cons e front =>
          rw [List.cons_append, List.cons.injEq] at h
          obtain ⟨rfl, h⟩ := h
          have hreopen : scanEnd (.quoted quoteMark) (quoteMark :: quoteMark :: front)
              = scanEnd (.quoted quoteMark) front := by
            rw [scanEnd, if_pos rfl, scanEnd_mark (by decide)]
          rw [hreopen]
          exact ih h
      · rw [doubleQuotes, if_neg hd, List.cons_append, List.cons_append, List.cons.injEq] at h
        obtain ⟨rfl, h⟩ := h
        rw [scanEnd, if_neg hd]
        exact ih h

theorem scanEnd_literal {s : String} (h : (quoteText s).toList = front ++ back)
    (hfront : front ≠ []) (hback : back ≠ []) :
    scanEnd .plain front = .quoted quoteMark
      ∨ scanEnd .plain front = .plain ∧ back.head? = some quoteMark := by
  rw [quoteText, String.toList_ofList, quoteChars] at h
  cases front with
  | nil => exact absurd rfl hfront
  | cons d front =>
    rw [List.cons_append, List.cons.injEq] at h
    obtain ⟨rfl, h⟩ := h
    rw [scanEnd_mark (by decide)]
    exact scanEnd_body h hback

theorem head?_text {a b : String} {d : Char} (h : a.toList.head? = some d) :
    (a ++ b).toList.head? = some d := by
  rw [String.toList_append, List.head?_append, h, Option.some_or]

/-- A text that depends on a value holds the literal of the value in a place of its own: what stands
around the literal does not depend on the value, no quote follows the literal, and if `P` holds a
scan keeps what stands in front of it. -/
def HoldsLiteral (P : Prop) (text : String → String) : Prop :=
  ∃ front back : List Char, back.head? ≠ some quoteMark ∧ (P → Inert front)
    ∧ ∀ s, (text s).toList = front ++ ((quoteText s).toList ++ back)

theorem holdsLiteral_quoteText : HoldsLiteral P quoteText :=
  ⟨[], [], by simp, fun _ => inert_nil, fun s => by simp⟩

namespace HoldsLiteral

theorem congr (h : HoldsLiteral P text) (heq : ∀ s, text' s = text s) : HoldsLiteral P text' := by
  obtain rfl : text' = text := funext heq
  exact h

theorem behind {a : String} (ha : P → Inert a.toList) (h : HoldsLiteral P text) :
    HoldsLiteral P fun s => a ++ text s := by
  obtain ⟨front, back, hback, hfront, htext⟩ := h
  refine ⟨a.toList ++ front, back, hback, fun p => inert_append (ha p) (hfront p), fun s => ?_⟩
  rw [String.toList_append, htext, List.append_assoc]

theorem inFrontOf (h : HoldsLiteral P text) {b : String} (hb : b.toList.head? ≠ some quoteMark) :
    HoldsLiteral P fun s => text s ++ b := by
  obtain ⟨front, back, hback, hfront, htext⟩ := h
  refine ⟨front, back ++ b.toList, ?_, hfront, fun s => ?_⟩
  · rw [List.head?_append]
    cases hhead : back.head? with
    | none => exact hb
    | some d => rwa [hhead] at hback
  · rw [String.toList_append, htext, List.append_assoc, List.append_assoc]

/-- One of several texts with separators between them holds the literal. -/
theorem separated (h : HoldsLiteral P text) {texts : List String} (texts' : List String)
    (htexts : P → ∀ u ∈ texts, Inert u.toList) (hs : Inert separator.toList)
    (hquote : ∀ u : String, (separator ++ u).toList.head? ≠ some quoteMark) :
    HoldsLiteral P fun s => separated separator (texts ++ text s :: texts') := by
  induction texts with
  | nil =>
    cases texts' with
    | nil => exact h
    | cons u texts' =>
      refine (h.inFrontOf (hquote (Tabularium.separated separator (u :: texts')))).congr
        fun s => ?_
      rw [List.nil_append, Tabularium.separated, String.append_assoc]
  | cons u texts ih =>
    have hlead : P → Inert (u ++ separator).toList := fun p =>
      inert_text (htexts p u List.mem_cons_self) hs
    refine ((ih fun p v hv => htexts p v (List.mem_cons_of_mem u hv)).behind hlead).congr
      fun s => ?_
    cases texts <;> rfl

end HoldsLiteral

namespace Column

/-- The column with a text as its default. -/
def withDefault (c : Column) (s : String) : Column :=
  { c with default := some (.value (.text s)) }

/-- The column with a value among those that it allows, between lower and upper ones. -/
def withAllowed (c : Column) (lower upper : List String) (s : String) : Column :=
  { c with enumValues := some (lower ++ s :: upper) }

/-- The text of a column in front of its default. -/
def opening (c : Column) : String :=
  c.name ++ " " ++ c.type.sqlName ++ (if c.primaryKey then " PRIMARY KEY" else "")
    ++ (if c.notNull then " NOT NULL" else "") ++ (if c.unique then " UNIQUE" else "")

/-- The text of a column about the values that it allows. -/
def allowance (c : Column) : String :=
  match c.enumValues with
  | some values => enumClause c.name values
  | none => ""

/-- The text of a column about the column that it refers to. -/
def closing (c : Column) : String :=
  match c.references with
  | some reference => reference.clause
  | none => ""

theorem opening_inert (hn : isIdentifier c.name = true) : Inert c.opening.toList := by
  refine inert_text (inert_text (inert_text (inert_text (inert_text ?_ ?_) ?_) ?_) ?_) ?_
  · exact (identifier_solid hn).inert
  · exact inert_words (by decide)
  · exact sqlName_inert c.type
  · exact inert_if (inert_words (by decide))
  · exact inert_if (inert_words (by decide))
  · exact inert_if (inert_words (by decide))

theorem allowance_head : c.allowance.toList.head? ≠ some quoteMark := by
  unfold allowance
  cases c.enumValues with
  | none => simp
  | some values =>
    have hblank : (enumClause c.name values).toList.head? = some ' ' :=
      head?_text (head?_text (head?_text (head?_text (by decide))))
    simp [hblank, quoteMark]

theorem closing_head : c.closing.toList.head? ≠ some quoteMark := by
  unfold closing
  cases c.references with
  | none => simp
  | some reference =>
    have hblank : reference.clause.toList.head? = some ' ' :=
      head?_text (head?_text (head?_text (head?_text (head?_text (by decide)))))
    simp [hblank, quoteMark]

end Column

theorem holdsLiteral_default : HoldsLiteral P fun s => defaultClause (some (.value (.text s))) :=
  holdsLiteral_quoteText.behind fun _ => inert_words (by decide)

theorem holdsLiteral_withDefault (hn : P → isIdentifier c.name = true) :
    HoldsLiteral P fun s => (c.withDefault s).sql := by
  have hsql : ∀ s, (c.withDefault s).sql
      = c.opening ++ defaultClause (some (.value (.text s))) ++ c.allowance ++ c.closing :=
    fun s => rfl
  have hopened := holdsLiteral_default.behind fun p => Column.opening_inert (hn p)
  exact ((hopened.inFrontOf Column.allowance_head).inFrontOf Column.closing_head).congr hsql

theorem holdsLiteral_enumClause {name : String} (hn : P → isIdentifier name = true) :
    HoldsLiteral P fun s => Column.enumClause name (lower ++ s :: upper) := by
  have hlower : P → ∀ u ∈ lower.map quoteText, Inert u.toList := by
    intro _ u hu
    obtain ⟨v, -, rfl⟩ := List.mem_map.mp hu
    exact (quote_text v).1
  have hcomma : ∀ u : String, (", " ++ u).toList.head? ≠ some quoteMark := by simp [quoteMark]
  have hvalues := holdsLiteral_quoteText.separated (upper.map quoteText) hlower
    (inert_words (by decide)) hcomma
  have hopen : P → Inert (" CHECK (" ++ name ++ " IN (").toList := fun p =>
    inert_text (inert_text (inert_words (by decide)) (identifier_solid (hn p)).inert)
      (inert_words (by decide))
  have hclose : "))".toList.head? ≠ some quoteMark := by decide
  refine ((hvalues.behind hopen).inFrontOf hclose).congr fun s => ?_
  rw [Column.enumClause, List.map_append, List.map_cons]

theorem holdsLiteral_withAllowed (hn : P → isIdentifier c.name = true)
    (hd : P → ∀ d, c.default = some d → d.IsClosed) :
    HoldsLiteral P fun s => (c.withAllowed lower upper s).sql := by
  have hsql : ∀ s, (c.withAllowed lower upper s).sql = c.opening ++ defaultClause c.default
      ++ Column.enumClause c.name (lower ++ s :: upper) ++ c.closing := fun s => rfl
  have hallowed : HoldsLiteral P fun s => Column.enumClause c.name (lower ++ s :: upper) :=
    holdsLiteral_enumClause hn
  have hopened := hallowed.behind fun p =>
    inert_text (Column.opening_inert (hn p)) (defaultClause_inert (hd p))
  exact (hopened.inFrontOf Column.closing_head).congr hsql

namespace Ddl

/-- A statement with a place for a value: for the text that a column of a new table has as its
default, for one of the values that such a column allows, or for the default of a column that is
added. -/
inductive ValuePlace : (String → Ddl) → Prop where
  | default (t : Table) (before after : List Column) (c : Column) :
    ValuePlace fun s => .createTable { t with columns := before ++ c.withDefault s :: after }
  | allowed (t : Table) (before after : List Column) (c : Column) (lower upper : List String) :
    ValuePlace fun s =>
      .createTable { t with columns := before ++ c.withAllowed lower upper s :: after }
  | added (table : String) (c : BareColumn) :
    ValuePlace fun s => .addColumn table { c with default := some (.value (.text s)) }

end Ddl

/-- A new table holds a literal that one of its columns holds. -/
theorem holdsLiteral_createTable {column : String → Column}
    (h : HoldsLiteral P fun s => (column s).sql) (ht : P → isIdentifier t.name = true)
    (hbefore : P → ∀ k ∈ before, k.Clean) : HoldsLiteral P fun s =>
      (Ddl.createTable { t with columns := before ++ column s :: after }).sql := by
  have hlower : P → ∀ u ∈ before.map Column.sql, Inert u.toList := by
    intro p u hu
    obtain ⟨k, hk, rfl⟩ := List.mem_map.mp hu
    exact column_inert (hbefore p k hk)
  have hcomma : ∀ u : String, (",\n  " ++ u).toList.head? ≠ some quoteMark := by simp [quoteMark]
  have hparts := h.separated (after.map Column.sql ++ t.checks.map fun check =>
    "CHECK (" ++ check ++ ")") hlower (inert_words (by decide)) hcomma
  have hopen : P → Inert ("CREATE TABLE IF NOT EXISTS " ++ t.name ++ " (\n  ").toList := fun p =>
    inert_text (inert_text (inert_words (by decide)) (identifier_solid (ht p)).inert)
      (inert_words (by decide))
  have hclose : "\n)".toList.head? ≠ some quoteMark := by decide
  have hsql : ∀ u : Table, (Ddl.createTable u).sql = "CREATE TABLE IF NOT EXISTS " ++ u.name
      ++ " (\n  " ++ separated ",\n  " (Ddl.tableParts u) ++ "\n)" := fun u => rfl
  refine ((hparts.behind hopen).inFrontOf hclose).congr fun s => ?_
  rw [hsql, Ddl.tableParts, List.map_append, List.map_cons, List.append_assoc, List.cons_append]

theorem holdsLiteral_addColumn {table : String} {c : BareColumn}
    (ht : P → isIdentifier table = true) (hn : P → isIdentifier c.name = true) :
    HoldsLiteral P fun s =>
      (Ddl.addColumn table { c with default := some (.value (.text s)) }).sql := by
  have hsql : ∀ s, (Ddl.addColumn table { c with default := some (.value (.text s)) }).sql
      = "ALTER TABLE " ++ table ++ " ADD COLUMN " ++ (c.name ++ " " ++ c.type.sqlName
        ++ (if c.notNull then " NOT NULL" else "") ++ defaultClause (some (.value (.text s)))) :=
    fun s => rfl
  have hcolumn : P → Inert (c.name ++ " " ++ c.type.sqlName
      ++ (if c.notNull then " NOT NULL" else "")).toList := fun p =>
    inert_text (inert_text (inert_text (identifier_solid (hn p)).inert (inert_words (by decide)))
      (sqlName_inert c.type)) (inert_if (inert_words (by decide)))
  have hopen : P → Inert ("ALTER TABLE " ++ table ++ " ADD COLUMN ").toList := fun p =>
    inert_text (inert_text (inert_words (by decide)) (identifier_solid (ht p)).inert)
      (inert_words (by decide))
  exact ((holdsLiteral_default.behind hcolumn).behind hopen).congr hsql

/-- A statement holds the literal of the value that it has a place for. -/
theorem holdsLiteral_place {place : String → Ddl} (h : Ddl.ValuePlace place) :
    HoldsLiteral (∃ s, (place s).Clean) fun s => (place s).sql := by
  cases h with
  | default t before after c =>
    refine holdsLiteral_createTable (holdsLiteral_withDefault ?_) ?_ ?_
    · rintro ⟨s, -, hk, -⟩
      exact (hk (c.withDefault s) (by simp)).named
    · rintro ⟨s, ht, -⟩
      exact ht
    · rintro ⟨s, -, hk, -⟩
      exact fun k hm => hk k (by simp [hm])
  | allowed t before after c lower upper =>
    refine holdsLiteral_createTable (holdsLiteral_withAllowed ?_ ?_) ?_ ?_
    · rintro ⟨s, -, hk, -⟩
      exact (hk (c.withAllowed lower upper s) (by simp)).named
    · rintro ⟨s, -, hk, -⟩
      exact (hk (c.withAllowed lower upper s) (by simp)).default
    · rintro ⟨s, ht, -⟩
      exact ht
    · rintro ⟨s, -, hk, -⟩
      exact fun k hm => hk k (by simp [hm])
  | added table c =>
    refine holdsLiteral_addColumn ?_ ?_
    · rintro ⟨s, ht, -⟩
      exact ht
    · rintro ⟨s, -, hn, -⟩
      exact hn

/-- A literal in front of anything but a quote is read back whole. A scan that stands outside quotes
and comments in front of a literal keeps all of it and stands there again where the literal ends;
inside it is between quotes, but for the place between the two quotes that stand for one. So no
value of a statement leaves its literal: what stands around the literal does not depend on the
value, no quote follows the literal, and when the rest of the statement is clean a scan of the
statement comes to the literal and leaves it outside quotes and comments. -/
theorem quoted_values_contained :
    (∀ (s : String) (rest : List Char), rest.head? ≠ some quoteMark →
      ∃ body, (quoteText s).toList ++ rest = quoteMark :: body
        ∧ unquote? body = some (s.toList, rest))
      ∧ (∀ (s : String) (rest : List Char),
        scriptPieces .plain ((quoteText s).toList ++ rest)
            = (quoteText s).toList.foldr keepChar (scriptPieces .plain rest)
          ∧ scanEnd .plain (quoteText s).toList = .plain
          ∧ ∀ front back, (quoteText s).toList = front ++ back → front ≠ [] → back ≠ [] →
            scanEnd .plain front = .quoted quoteMark
              ∨ scanEnd .plain front = .plain ∧ back.head? = some quoteMark)
      ∧ ∀ place, Ddl.ValuePlace place → ∃ front back : List Char, back.head? ≠ some quoteMark
        ∧ (∀ s, (place s).sql.toList = front ++ ((quoteText s).toList ++ back))
        ∧ ∀ s, (place s).Clean → scanEnd .plain front = .plain
          ∧ scriptPieces .plain (place s).sql.toList
            = (front ++ (quoteText s).toList).foldr keepChar (scriptPieces .plain back) := by
  refine ⟨fun s rest hrest => ?_, fun s rest => ?_, fun place hplace => ?_⟩
  · refine ⟨doubleQuotes s.toList ++ quoteMark :: rest, ?_, Token.unquote?_doubleQuotes hrest⟩
    rw [quoteText, String.toList_ofList, quoteChars, List.cons_append, List.append_assoc,
      List.singleton_append]
  · have hinert := (quote_text s).1
    exact ⟨hinert rest, hinert.scanEnd_plain, fun front back => scanEnd_literal⟩
  · obtain ⟨front, back, hback, hfront, htext⟩ := holdsLiteral_place hplace
    refine ⟨front, back, hback, htext, fun s hclean => ?_⟩
    have hinert := hfront ⟨s, hclean⟩
    refine ⟨hinert.scanEnd_plain, ?_⟩
    rw [htext, ← List.append_assoc, inert_append hinert (quote_text s).1]

/-- A column whose default has a quote and the mark of a comment in it. -/
def noteTitle : Column :=
  { name := "title", type := .text, default := some (.value (.text "'--")) }

def noteKind : Column :=
  { name := "kind", type := .text, default := some (.raw "lower('X')") }

/-- A table of notes with a place for one more kind between two others. -/
def noteKinds (s : String) : Ddl :=
  .createTable { (⟨"notes", [], [], []⟩ : Table) with
    columns := [noteTitle] ++ noteKind.withAllowed ["it's"] ["*/"] s :: [] }

theorem quoted_values_contained_noteKinds :
    (", 'b'))".toList.head? ≠ some quoteMark
      ∧ ∃ body, (quoteText "a'); --").toList ++ ", 'b'))".toList = quoteMark :: body
        ∧ unquote? body = some ("a'); --".toList, ", 'b'))".toList))
      ∧ ((quoteText "it's").toList = "'it'".toList ++ "'s'".toList
        ∧ (scanEnd .plain "'it'".toList = .quoted quoteMark
          ∨ scanEnd .plain "'it'".toList = .plain ∧ "'s'".toList.head? = some quoteMark))
      ∧ Ddl.ValuePlace noteKinds ∧ (noteKinds "a'); --").Clean
      ∧ ∃ front back : List Char, back.head? ≠ some quoteMark
        ∧ (∀ s, (noteKinds s).sql.toList = front ++ ((quoteText s).toList ++ back))
        ∧ scanEnd .plain front = .plain := by
  obtain ⟨hread, hscan, hplaces⟩ := quoted_values_contained
  have hend : ", 'b'))".toList.head? ≠ some quoteMark := by decide
  have hsplit : (quoteText "it's").toList = "'it'".toList ++ "'s'".toList := by decide
  have hplace : Ddl.ValuePlace noteKinds :=
    .allowed ⟨"notes", [], [], []⟩ [noteTitle] [] noteKind ["it's"] ["*/"]
  have htitle : noteTitle.Clean := by
    refine ⟨by decide, ?_, fun r hr => nomatch hr⟩
    rintro d ⟨⟩ sql ⟨⟩
  have hkind : (noteKind.withAllowed ["it's"] ["*/"] "a'); --").Clean := by
    refine ⟨by decide, ?_, fun r hr => nomatch hr⟩
    rintro d ⟨⟩ sql ⟨⟩
    decide
  have hclean : (noteKinds "a'); --").Clean :=
    ⟨by decide, List.forall_mem_cons.mpr ⟨htitle, List.forall_mem_singleton.mpr hkind⟩,
      fun check hcheck => nomatch hcheck⟩
  obtain ⟨front, back, hback, htext, hkept⟩ := hplaces noteKinds hplace
  exact ⟨⟨hend, hread _ _ hend⟩, ⟨hsplit, (hscan "it's" []).2.2 _ _ hsplit (by decide) (by decide)⟩,
    hplace, hclean, front, back, hback, htext, (hkept _ hclean).1⟩

end Tabularium
