import Tabularium.Proofs.Schema.ClauseText
import Tabularium.Proofs.Schema.Convergence

namespace Tabularium

/-- The numeral has digits around its point and no power of ten. -/
structure Numeral.Pointed (n : Numeral) : Prop where
  whole : IsDigits n.whole
  places : ∀ ds ∈ n.places, IsDigits ds
  power : n.power = none

/-- The text of a number in a statement, behind a minus at most. -/
inductive IsNumber : List Char → Prop
  | unsigned {n : Numeral} (pointed : n.Pointed) : IsNumber n.chars
  | negative {n : Numeral} (pointed : n.Pointed) : IsNumber ('-' :: n.chars)

/-- The token is a value that does not depend on when it is evaluated. -/
inductive Token.IsConstant : Token → Prop
  | text (s : String) : IsConstant (.text s)
  | null : IsConstant (.word "NULL")
  | number {w : String} (h : IsNumber w.toList) : IsConstant (.word w)

/-- What may stand behind the type of a column that is added to a table with rows. No clause is a
key or a condition, a default is a constant, and a value is required only when there is a default
that is one. -/
inductive AddedClauses : List Token → Prop
  | free : AddedClauses []
  | default {value : Token} (constant : value.IsConstant) : AddedClauses [.word "DEFAULT", value]
  | required {value : Token} (constant : value.IsConstant) (present : value ≠ .word "NULL") :
    AddedClauses [.word "NOT", .word "NULL", .word "DEFAULT", value]

/-- The words of a statement in front of the clauses of the column that it adds. -/
def additionWords (table column : String) (type : ColumnType) : List Token :=
  ["ALTER", "TABLE", table, "ADD", "COLUMN", column, type.sqlName].map .word

/-- The text is a statement that adds a column, and a store takes it for a table with rows. -/
def AddsToRows (table column : String) (type : ColumnType) (sql : String) : Prop :=
  ∃ clauses, AddedClauses clauses
    ∧ Token.readAll sql.toList = .ok (additionWords table column type ++ clauses)

/-- The column declares a clause that it cannot be added with. -/
def Column.Demands (k : Column) : Constraint → Prop
  | .primaryKey => k.primaryKey = true
  | .unique => k.unique = true
  | .references => k.references ≠ none
  | .enumeration => k.enumValues ≠ none

/-- The column requires a value and has by default none. -/
def Column.RequiresNull (k : Column) : Prop :=
  k.notNull = true ∧ k.default = some (.value .null)

/-- A column is added as far as it is declared, and warnings name what is left out. -/
structure Disclosed (table : String) (k : Column) (added : BareColumn) (warnings : List Warning) :
    Prop where
  name : added.name = k.name
  type : added.type = k.type
  constraints : ∀ c, k.Demands c →
    ∃ lost, c ∈ lost ∧ .rebuildRequired table k.name lost ∈ warnings
  default : added.default = k.default
    ∨ added.default = none ∧ ∃ v ∈ k.default, .nonConstantDefault table k.name v.sql ∈ warnings
  notNull : added.notNull = k.notNull
    ∨ added.notNull = false ∧ .notNullWithoutDefault table k.name ∈ warnings

namespace Token

/-- The texts with a blank in front of each are spaced. -/
theorem spaced_blanks (texts : List (List Char)) : Spaced texts (texts.flatMap (' ' :: ·)) := by
  induction texts with
  | nil => exact fun c hc => by cases hc
  | cons text texts ih =>
    refine ⟨[' '], texts.flatMap (' ' :: ·), ?_, rfl, ?_, ih⟩
    · intro c hc
      cases List.mem_singleton.mp hc
      decide
    · cases texts with
      | nil => exact fun c hc => by cases hc
      | cons next texts =>
        intro c hc
        cases hc
        exact .inl (by decide)

theorem spelled_word {w : String} (h : IsWord w.toList) : Spelled (.word w) w.toList := by
  have spelled := Spelled.word h
  rwa [String.ofList_toList] at spelled

theorem spelled_name {name : String} (h : isIdentifier name = true) :
    Spelled (.word name) name.toList := by
  obtain ⟨c, cs, hname, -, hall⟩ := identifier_chars h
  refine spelled_word (isWord_of_chars (by simp [hname]) fun d hd => ?_)
  exact isWordChar_of_name (hall d (hname ▸ hd))

end Token

namespace Numeral

variable {n : Numeral}

theorem Pointed.mem_chars (h : n.Pointed) :
    n.chars ≠ [] ∧ ∀ c ∈ n.chars, c = '.' ∨ c.isDigit = true := by
  have hchars : n.chars = n.whole ++ placesChars n.places := by
    simp [chars, h.power, powerChars]
  rw [hchars]
  refine ⟨by simp [h.whole.1], fun c hc => ?_⟩
  rcases List.mem_append.mp hc with hc | hc
  · exact .inr (h.whole.2 c hc)
  · cases hp : n.places with
    | none => rw [hp] at hc; cases hc
    | some ds =>
      rw [hp] at hc
      rcases List.mem_cons.mp hc with rfl | hc
      · exact .inl rfl
      · exact .inr ((h.places ds hp).2 c hc)

/-- A decimal around its point has the digits in front of the point, and those behind it when it is
not whole. -/
theorem exists_pointed (d : Decimal) :
    ∃ n : Numeral, n.Pointed ∧ NumberLayout.positionalChars false d = n.chars := by
  obtain ⟨whole, places⟩ := Decimal.positional_digits d
  by_cases hwhole : 0 ≤ d.exponent
  · refine ⟨⟨d.positional.whole, none, none⟩, ⟨whole, by simp, rfl⟩, ?_⟩
    simp [NumberLayout.positionalChars, Decimal.positional, hwhole, chars, placesChars, powerChars]
  · have hkeep : NumberLayout.positionalChars false d = NumberLayout.positionalChars true d := by
      simp [NumberLayout.positionalChars, hwhole]
    exact ⟨d.positional, ⟨whole, places, Decimal.positional_power d⟩,
      by rw [hkeep, Decimal.positional_chars]⟩

end Numeral

namespace IsNumber

variable {w : List Char}

theorem mem_chars (h : IsNumber w) : w ≠ [] ∧ ∀ c ∈ w, c = '-' ∨ c = '.' ∨ c.isDigit = true := by
  cases h with
  | unsigned pointed => exact ⟨pointed.mem_chars.1, fun c hc => .inr (pointed.mem_chars.2 c hc)⟩
  | negative pointed =>
    refine ⟨by simp, fun c hc => ?_⟩
    exact (List.mem_cons.mp hc).imp_right (pointed.mem_chars.2 c)

theorem isWord (h : IsNumber w) : Token.IsWord w := by
  refine isWord_of_chars h.mem_chars.1 fun c hc => ?_
  rcases h.mem_chars.2 c hc with rfl | rfl | hdigit
  · exact ⟨by decide, by decide⟩
  · exact ⟨by decide, by decide⟩
  · exact isWordChar_of_name (by simp [isNameChar, Char.isAlphanum, hdigit])

theorem ne_null (h : IsNumber w) : w ≠ "NULL".toList := by
  rintro rfl
  rcases h.mem_chars.2 'N' (by decide) with h | h | h <;> revert h <;> decide

theorem repr (n : Int) : IsNumber (Int.repr n).toList := by
  obtain ⟨ds, hds, htext⟩ := repr_digits n
  have pointed : (⟨ds, none, none⟩ : Numeral).Pointed := ⟨hds, by simp, rfl⟩
  have hchars : (⟨ds, none, none⟩ : Numeral).chars = ds := by
    simp [Numeral.chars, Numeral.placesChars, Numeral.powerChars]
  rcases htext with htext | htext
  · rw [htext, ← hchars]
    exact .unsigned pointed
  · rw [htext, ← hchars]
    exact .negative pointed

theorem float {x : Binary64} (hx : x.isFinite = true) : IsNumber (x.text .statement).toList := by
  obtain ⟨n, pointed, hchars⟩ := Numeral.exists_pointed (x.shortest Tie.up)
  have htext : (x.text .statement).toList = (if x.isNegative then ['-'] else []) ++ n.chars := by
    rw [Binary64.text, String.toList_ofList, Binary64.chars, Binary64.isNaN_of_isFinite hx, hx,
      ← hchars]
    rfl
  rw [htext]
  cases x.isNegative with
  | false => exact .unsigned pointed
  | true => exact .negative pointed

end IsNumber

/-- The token that a default is in a statement. -/
def DefaultValue.token : DefaultValue → Token
  | .raw sql => .group (trimText sql)
  | .value .now => .group "CURRENT_TIMESTAMP"
  | .value (.text s) => .text s
  | .value literal => .word literal.sql

namespace BareColumn

/-- The clauses of a column as tokens. -/
def clauses (b : BareColumn) : List Token :=
  (if b.notNull then [.word "NOT", .word "NULL"] else [])
    ++ match b.default with
      | some value => [.word "DEFAULT", value.token]
      | none => []

/-- The texts of the clauses of a column. -/
def clauseTexts (b : BareColumn) : List String :=
  (if b.notNull then ["NOT", "NULL"] else [])
    ++ match b.default with
      | some value => ["DEFAULT", value.sql]
      | none => []

end BareColumn

namespace DefaultValue

variable {v : DefaultValue}

theorem number_token {l : Literal} (h : IsNumber l.sql.toList) (hne : l ≠ .null)
    (htoken : (DefaultValue.value l).token = .word l.sql) :
    (DefaultValue.value l).token.IsConstant
      ∧ Token.Spelled (DefaultValue.value l).token (DefaultValue.value l).sql.toList
      ∧ ((DefaultValue.value l).token = .word "NULL" ↔ DefaultValue.value l = .value .null) := by
  rw [htoken]
  refine ⟨.number h, Token.spelled_word h.isWord, iff_of_false (fun he => ?_) (by simpa using hne)⟩
  exact h.ne_null (congrArg String.toList (Token.word.inj he))

/-- A constant is one token, and it is `NULL` only as the null value. -/
theorem constant_token (hv : v.isConstant = true)
    (hf : ∀ x, v = .value (.float x) → x.isFinite = true) :
    v.token.IsConstant ∧ Token.Spelled v.token v.sql.toList
      ∧ (v.token = .word "NULL" ↔ v = .value .null) := by
  cases v with
  | raw sql => cases hv
  | value l =>
    cases l with
    | null =>
      have isName : isIdentifier "NULL" = true := by decide
      exact ⟨.null, Token.spelled_name isName, iff_of_true rfl rfl⟩
    | now => cases hv
    | bool b =>
      have hb : IsNumber (Literal.bool b).sql.toList := by
        cases b with
        | false => exact IsNumber.repr 0
        | true => exact IsNumber.repr 1
      exact number_token hb (by simp) rfl
    | int n =>
      exact number_token (IsNumber.repr n.toInt) (by simp) rfl
    | float x =>
      exact number_token (IsNumber.float (hf x rfl)) (by simp) rfl
    | text s =>
      have hsql : (DefaultValue.value (.text s)).sql.toList = quoteChars s.toList := by
        simp [DefaultValue.sql, Literal.sql, quoteText]
      exact ⟨.text s, hsql ▸ .text s, iff_of_false nofun (by simp)⟩

end DefaultValue

section

variable {table : String} {k : Column} {b : BareColumn}

/-- What an added column may have: a name that stands without quotes and a constant default. -/
structure BareColumn.Plain (b : BareColumn) : Prop where
  named : isIdentifier b.name
  constant : ∀ v, b.default = some v → v.isConstant = true
  finite : ∀ x, b.default = some (.value (.float x)) → x.isFinite = true

theorem addable_plain (hk : isIdentifier k.name = true) (hf : k.FiniteDefault) :
    (Difference.addable k).Plain := by
  refine ⟨hk, fun v hv => ?_, fun x hx => hf x (Option.filter_eq_some_iff.mp hx).1⟩
  exact (Option.filter_eq_some_iff.mp hv).2

theorem BareColumn.Plain.spelled (h : b.Plain) :
    List.Forall₂ Token.Spelled b.clauses (b.clauseTexts.map String.toList) := by
  have default : List.Forall₂ Token.Spelled
      (match b.default with | some value => [.word "DEFAULT", value.token] | none => [])
      ((match b.default with | some value => ["DEFAULT", value.sql] | none => []).map
        String.toList) := by
    cases hv : b.default with
    | none => exact .nil
    | some v =>
      obtain ⟨-, spelled, -⟩ := DefaultValue.constant_token (h.constant v hv)
        fun x hx => h.finite x (hx ▸ hv)
      exact .cons (Token.spelled_name (by decide)) (.cons spelled .nil)
  unfold clauses clauseTexts
  cases b.notNull with
  | false => exact default
  | true =>
    refine .cons (Token.spelled_name (by decide)) (.cons ?_ default)
    exact Token.spelled_name (by decide)

theorem sqlName_identifier (type : ColumnType) : isIdentifier type.sqlName = true := by
  cases type <;> decide

theorem clauses_chars (b : BareColumn) :
    ((if b.notNull then " NOT NULL" else "") ++ defaultClause b.default).toList
      = (b.clauseTexts.map String.toList).flatMap (' ' :: ·) := by
  unfold BareColumn.clauseTexts defaultClause
  cases b.notNull <;> cases b.default <;> simp

theorem addColumn_chars (table : String) (b : BareColumn) :
    (Ddl.addColumn table b).sql.toList = "ALTER".toList ++ ((["TABLE", table, "ADD", "COLUMN",
      b.name, b.type.sqlName] ++ b.clauseTexts).map String.toList).flatMap (' ' :: ·) := by
  have sql : (Ddl.addColumn table b).sql = "ALTER TABLE " ++ table ++ " ADD COLUMN " ++ b.sql := rfl
  have parts : b.sql = b.name ++ " " ++ b.type.sqlName
      ++ ((if b.notNull then " NOT NULL" else "") ++ defaultClause b.default) := by
    simp only [BareColumn.sql, String.append_assoc]
  rw [sql, parts, List.map_append, List.flatMap_append, ← clauses_chars]
  simp

/-- A statement that adds a column is read back as its words and the clauses of the column. -/
theorem readAll_addColumn (ht : isIdentifier table = true) (h : b.Plain) :
    Token.readAll (Ddl.addColumn table b).sql.toList
      = .ok (additionWords table b.name b.type ++ b.clauses) := by
  have spelled : List.Forall₂ Token.Spelled (additionWords table b.name b.type ++ b.clauses)
      ("ALTER".toList :: (["TABLE", table, "ADD", "COLUMN", b.name, b.type.sqlName]
        ++ b.clauseTexts).map String.toList) := by
    have known : ∀ name ∈ ["ALTER", "TABLE", "ADD", "COLUMN"],
        Token.Spelled (.word name) name.toList := fun name hname =>
      Token.spelled_name (by revert name; decide)
    refine .cons (known _ (by simp)) (.cons (known _ (by simp)) (.cons (Token.spelled_name ht) ?_))
    refine .cons (known _ (by simp)) (.cons (known _ (by simp)) ?_)
    refine .cons (Token.spelled_name h.named) (.cons ?_ h.spelled)
    exact Token.spelled_name (sqlName_identifier b.type)
  rw [addColumn_chars]
  refine Token.readAll_spaced spelled ⟨[], _, fun c hc => ?_, rfl, ?_, Token.spaced_blanks _⟩
  · cases hc
  · intro c hc
    cases hc
    exact .inl (by decide)

/-- Whether a store takes an added column is told by its clauses. -/
theorem addsToRows_iff (ht : isIdentifier table = true) (h : b.Plain) :
    AddsToRows table b.name b.type (Ddl.addColumn table b).sql ↔ AddedClauses b.clauses := by
  unfold AddsToRows
  rw [readAll_addColumn ht h]
  constructor
  · rintro ⟨clauses, hclauses, hread⟩
    rwa [List.append_cancel_left (Except.ok.inj hread)]
  · exact fun hclauses => ⟨b.clauses, hclauses, rfl⟩

/-- A value can be required only together with a default that is one. -/
theorem addedClauses_required {cs : List Token}
    (h : AddedClauses (.word "NOT" :: .word "NULL" :: cs)) :
    ∃ value, cs = [.word "DEFAULT", value] ∧ value ≠ .word "NULL" := by
  generalize hall : Token.word "NOT" :: .word "NULL" :: cs = all at h
  cases h with
  | free => cases hall
  | default => simp at hall
  | @required value _ present =>
    simp only [List.cons.injEq, true_and] at hall
    exact ⟨value, hall, present⟩

/-- The clauses are those that a table with rows can take, unless a value is required and there is
no default or the null value is it. -/
theorem addedClauses_iff (h : b.Plain) : AddedClauses b.clauses
    ↔ (b.notNull = true → ∃ v, b.default = some v ∧ v ≠ .value .null) := by
  unfold BareColumn.clauses
  cases hd : b.default with
  | none =>
    cases b.notNull with
    | false => exact iff_of_true .free nofun
    | true =>
      refine iff_of_false (fun clauses => ?_) (by simp)
      obtain ⟨_, hcs, _⟩ := addedClauses_required clauses
      cases hcs
  | some v =>
    obtain ⟨constant, -, hnull⟩ := DefaultValue.constant_token (h.constant v hd)
      fun x hx => h.finite x (hx ▸ hd)
    cases b.notNull with
    | false => exact iff_of_true (.default constant) nofun
    | true =>
      constructor
      · intro clauses _
        obtain ⟨_, hcs, present⟩ := addedClauses_required clauses
        cases hcs
        exact ⟨v, rfl, fun hv => present (hnull.mpr hv)⟩
      · intro required
        obtain ⟨w, hw, hne⟩ := required rfl
        cases hw
        exact .required constant fun hv => hne (hnull.mp hv)

theorem Disclosed.mono {added : BareColumn} {few many : List Warning}
    (h : Disclosed table k added few) (hsub : ∀ w ∈ few, w ∈ many) :
    Disclosed table k added many := by
  refine ⟨h.name, h.type, fun c hc => ?_, ?_, ?_⟩
  · obtain ⟨lost, hlost, hw⟩ := h.constraints c hc
    exact ⟨lost, hlost, hsub _ hw⟩
  · refine h.default.imp_right ?_
    rintro ⟨hnone, v, hv, hw⟩
    exact ⟨hnone, v, hv, hsub _ hw⟩
  · exact h.notNull.imp_right fun ⟨hn, hw⟩ => ⟨hn, hsub _ hw⟩

namespace Difference

/-- What can be added of a column is added in a way that a store takes, unless the column requires a
value and has the null value as its default. -/
theorem addable_accepted_iff (ht : isIdentifier table = true) (hk : isIdentifier k.name = true)
    (hf : k.FiniteDefault) :
    AddsToRows table (addable k).name (addable k).type (Ddl.addColumn table (addable k)).sql
      ↔ ¬ k.RequiresNull := by
  have plain := addable_plain hk hf
  rw [addsToRows_iff ht plain, addedClauses_iff plain]
  have hnotNull : (addable k).notNull = true ↔ k.notNull = true ∧ (addable k).default ≠ none := by
    simp only [addable, Bool.and_eq_true, Option.isSome_iff_ne_none]
  have hnull : (addable k).default = some (.value .null) ↔ k.default = some (.value .null) := by
    simp [addable, Option.filter_eq_some_iff, DefaultValue.isConstant]
  constructor
  · rintro required ⟨hn, hd⟩
    have hkept := hnull.mpr hd
    obtain ⟨v, hv, hne⟩ := required (hnotNull.mpr ⟨hn, by simp [hkept]⟩)
    rw [hkept] at hv
    cases hv
    exact hne rfl
  · intro hno hn
    obtain ⟨hn, hd⟩ := hnotNull.mp hn
    obtain ⟨v, hv⟩ := Option.ne_none_iff_exists'.mp hd
    refine ⟨v, hv, ?_⟩
    rintro rfl
    exact hno ⟨hn, hnull.mp hv⟩

theorem mem_lostConstraints {c : Constraint} : c ∈ lostConstraints k ↔ k.Demands c := by
  unfold lostConstraints Column.Demands
  cases c <;> simp [Option.isSome_iff_ne_none]

/-- The warnings about an added column name all that is left out. -/
theorem addable_disclosed (table : String) (k : Column) :
    Disclosed table k (addable k) (addWarnings table k) := by
  refine ⟨rfl, rfl, fun c hc => ?_, ?_, ?_⟩
  · have hlost := mem_lostConstraints.mpr hc
    refine ⟨lostConstraints k, hlost, ?_⟩
    have hne : lostConstraints k ≠ [] := List.ne_nil_of_mem hlost
    exact mem_addWarnings.mpr (.constraints hne)
  · cases hd : k.default with
    | none => exact .inl (by simp [addable, hd])
    | some v =>
      cases hv : v.isConstant with
      | true => exact .inl (by simp [addable, hd, Option.filter, hv])
      | false =>
        refine .inr ⟨by simp [addable, hd, Option.filter, hv], v, rfl, ?_⟩
        exact mem_addWarnings.mpr (.default hd hv)
  · cases hn : (addable k).notNull with
    | true =>
      have : k.notNull = true := by
        unfold addable at hn
        exact (Bool.and_eq_true_iff.mp hn).1
      exact .inl this.symm
    | false =>
      cases hk : k.notNull with
      | false => exact .inl rfl
      | true => exact .inr ⟨rfl, mem_addWarnings.mpr (.value hk hn)⟩

variable {previous target : Schema} {e : Definition}

/-- What is added: the columns of the new tables that the old tables of their names do not have. -/
theorem mem_additions : .addColumn table b ∈ (between previous target).statements
    ↔ ∃ t ∈ target.tables, t.name = table ∧ ∃ old, previous.table? t.name = some old
      ∧ ∃ k ∈ newColumns old t, b = addable k := by
  rw [mem_statements]
  constructor
  · rintro ⟨t, ht, serves⟩
    cases serves with
    | addColumn ho hk => exact ⟨t, ht, rfl, _, ho, _, hk, rfl⟩
  · rintro ⟨t, ht, rfl, old, ho, k, hk, rfl⟩
    exact ⟨t, ht, .addColumn ho hk⟩

theorem additions_disclosed {old t : Table} (ht : t ∈ target.tables)
    (ho : previous.table? t.name = some old) (hk : k ∈ newColumns old t) :
    Disclosed t.name k (addable k) (between previous target).warnings := by
  exact (addable_disclosed t.name k).mono fun w hw =>
    mem_warnings.mpr (.inl ⟨t, ht, old, ho, .added hk (mem_addWarnings.mp hw)⟩)

/-- Each statement of a difference that adds a column leaves out only what warnings name, and stores
take it for a table with rows; the exception are the columns that require a value and have the null
value as their default. -/
theorem additions_accepted_iff (ht : e.compile = .ok target) :
    (∀ table b, .addColumn table b ∈ (between previous target).statements →
      ∃ t ∈ target.tables, t.name = table ∧ ∃ k ∈ t.columns,
        Disclosed table k b (between previous target).warnings
          ∧ (AddsToRows table b.name b.type (Ddl.addColumn table b).sql ↔ ¬ k.RequiresNull))
      ∧ ((∀ table b, .addColumn table b ∈ (between previous target).statements →
          AddsToRows table b.name b.type (Ddl.addColumn table b).sql)
        ↔ ∀ t ∈ target.tables, ∀ old, previous.table? t.name = some old →
          ∀ k ∈ newColumns old t, ¬ k.RequiresNull) := by
  have hw := Definition.compile_wellFormed ht
  have accepted : ∀ {t old : Table} {k : Column}, t ∈ target.tables → k ∈ newColumns old t →
      (AddsToRows t.name (addable k).name (addable k).type (Ddl.addColumn t.name (addable k)).sql
        ↔ ¬ k.RequiresNull) := by
    intro t old k htm hk
    have hm := (mem_newColumns.mp hk).1
    exact addable_accepted_iff (hw.tables t htm).named ((hw.tables t htm).columnsNamed k hm)
      (Definition.compile_finiteDefaults ht t htm k hm)
  constructor
  · intro table b h
    obtain ⟨t, htm, rfl, old, ho, k, hk, rfl⟩ := mem_additions.mp h
    exact ⟨t, htm, rfl, k, (mem_newColumns.mp hk).1, additions_disclosed htm ho hk,
      accepted htm hk⟩
  · constructor
    · intro h t htm old ho k hk
      exact (accepted htm hk).mp (h t.name (addable k)
        (mem_additions.mpr ⟨t, htm, rfl, old, ho, k, hk, rfl⟩))
    · intro h table b hb
      obtain ⟨t, htm, rfl, old, ho, k, hk, rfl⟩ := mem_additions.mp hb
      exact (accepted htm hk).mpr (h t htm old ho k hk)

/-- A table with one column. -/
def plainNotes : Definition :=
  ({ name := "app" } : Definition).column "notes" "id" "integer"

def plainNotesSchema : Schema :=
  ⟨"app", 1, [{ name := "notes", columns := [{ name := "id", type := .integer }] }]⟩

/-- The table with columns of all kinds beside. -/
def fullNotes : Definition :=
  plainNotes.column "notes" "rank" "integer not null unique default -5"
    |>.column "notes" "made" "timestamp_ms not null default now"
    |>.column "notes" "state" "text not null default 'it''s; new' enum(new,done)"
    |>.column "notes" "weight" "real default 0.25"
    |>.column "notes" "secret" "text default (hex(randomblob(8)))"
    |>.column "notes" "parent" "integer default null -> notes.id on delete cascade"

def fullNotesSchema : Schema :=
  ⟨"app", 1, [{ name := "notes", columns := [
    { name := "id", type := .integer },
    { name := "rank", type := .integer, notNull := true, unique := true,
      default := some (.value (.int (-5))) },
    { name := "made", type := .integer, mode := some .timestampMs, notNull := true,
      default := some (.value .now) },
    { name := "state", type := .text, notNull := true,
      enumValues := some ["new", "done"], default := some (.value (.text "it's; new")) },
    { name := "weight", type := .real, default := some (.value (.float ⟨0x3FD0000000000000⟩)) },
    { name := "secret", type := .text, default := some (.raw "hex(randomblob(8))") },
    { name := "parent", type := .integer, default := some (.value .null),
      references := some ⟨"notes", "id", some .cascade⟩ }] }]⟩

theorem additions_accepted_iff_notes :
    fullNotes.compile = .ok fullNotesSchema
      ∧ ∀ table b, .addColumn table b ∈ (between plainNotesSchema fullNotesSchema).statements →
        AddsToRows table b.name b.type (Ddl.addColumn table b).sql := by
  have hcompiles : fullNotes.compile = .ok fullNotesSchema := by decide +kernel
  refine ⟨hcompiles, (additions_accepted_iff hcompiles).2.mpr fun t ht old _ k hk => ?_⟩
  cases List.mem_singleton.mp ht
  have hall : ∀ k ∈ fullNotesSchema.tables.flatMap (·.columns), k.notNull = true →
      k.default ≠ some (.value .null) := by decide
  exact fun h => hall k (List.mem_flatMap.mpr ⟨_, ht, (mem_newColumns.mp hk).1⟩) h.1 h.2

/-- The table with a column that requires a value and has the null value as its default. -/
def requiredNotes : Definition :=
  plainNotes.column "notes" "body" "text not null default null"

def requiredNotesSchema : Schema :=
  ⟨"app", 1, [{ name := "notes", columns := [
    { name := "id", type := .integer },
    { name := "body", type := .text, notNull := true, default := some (.value .null) }] }]⟩

/-- A column that requires a value is added with the null value as its default, which no store takes
for a table with rows. -/
theorem required_null_added :
    ¬ ∀ (d e : Definition) (previous target : Schema), d.compile = .ok previous →
      e.compile = .ok target → ∀ table b,
      .addColumn table b ∈ (between previous target).statements →
      AddsToRows table b.name b.type (Ddl.addColumn table b).sql := by
  intro h
  have accepted := h plainNotes requiredNotes plainNotesSchema requiredNotesSchema
    (by decide +kernel) (by decide +kernel) "notes" ⟨"body", .text, true, some (.value .null)⟩
    (by decide +kernel)
  have hk : Column.FiniteDefault
      { name := "body", type := .text, notNull := true, default := some (.value .null) } := by
    intro x hx
    cases hx
  exact (addable_accepted_iff (by decide) (by decide) hk).mp accepted ⟨rfl, rfl⟩

end Difference

end

end Tabularium
