import Tabularium.Proofs.Schema.StatementText
import Tabularium.Proofs.Schema.TableDifference
import Tabularium.Proofs.Sql.Residue

namespace Tabularium

/-- The text is a single line. -/
def OneLine (s : String) : Prop :=
  '\n' ∉ s.toList

/-- The expressions that stand as defaults are single lines. -/
def Schema.OneLineDefaults (s : Schema) : Prop :=
  ∀ t ∈ s.tables, ∀ k ∈ t.columns, ∀ sql, k.default = some (.raw sql) → OneLine sql

/-- All names in a warning can stand without quotes. -/
def Warning.Named : Warning → Prop
  | .notNullWithoutDefault t k | .rebuildRequired t k _ | .nonConstantDefault t k _
  | .columnDropped t k | .columnChanged t k => isIdentifier t ∧ isIdentifier k
  | .indexDropped t i ks => isIdentifier t ∧ isIdentifier i ∧ ∀ k ∈ ks, isIdentifier k
  | .checksChanged t | .tableRemoved t => isIdentifier t

/-- The default that a warning quotes is a single line. -/
def Warning.DefaultOneLine (w : Warning) : Prop :=
  ∀ table column text, w = .nonConstantDefault table column text → OneLine text

namespace Difference

variable {previous target : Schema} {old t : Table} {w : Warning} {d e : Definition}

/-- The comments in front of the statements of a script. -/
def comments (d : Difference) : String :=
  String.join (d.warnings.map fun w => "-- warning: " ++ w.message ++ "\n")

/-- The written script executes the statements of the difference and nothing else: it is split into
them, and no part of a comment is executed. -/
structure Faithful (d : Difference) : Prop where
  statements : splitStatements d.toSql = d.statements.map Ddl.sql
  comments : splitStatements d.comments = []

theorem warns_named (ho : old.WellFormed) (ht : t.WellFormed) (h : Warns old t w) : w.Named := by
  cases h with
  | indexDropped hi =>
    refine ⟨ht.named, ho.indexesNamed _ hi, fun k hk => ?_⟩
    obtain ⟨c, hc, rfl⟩ := List.mem_map.mp (ho.indexesCovered _ hi k hk)
    exact ho.columnsNamed c hc
  | added hk lacks =>
    have hnamed := ht.columnsNamed _ (mem_newColumns.mp hk).1
    cases lacks with
    | constraints | default | value => exact ⟨ht.named, hnamed⟩
  | columnChanged hk => exact ⟨ht.named, ht.columnsNamed _ hk⟩
  | columnDropped hk => exact ⟨ht.named, ho.columnsNamed _ (mem_goneColumns.mp hk).1⟩
  | checksChanged => exact ht.named

theorem between_named (hp : previous.WellFormed) (ht : target.WellFormed) :
    ∀ w ∈ (between previous target).warnings, w.Named := by
  intro w hw
  rcases mem_warnings.mp hw with ⟨t, htm, old, ho, hwarns⟩ | ⟨t, htm, -, rfl⟩
  · exact warns_named (hp.tables old (List.mem_of_find?_eq_some ho)) (ht.tables t htm) hwarns
  · exact (hp.tables t htm).named

end Difference

theorem oneLine_append {a b : String} (ha : OneLine a) (hb : OneLine b) : OneLine (a ++ b) := by
  unfold OneLine
  rw [String.toList_append, List.mem_append]
  rintro (h | h)
  · exact ha h
  · exact hb h

theorem oneLine_words {s : String} (h : s.toList.contains '\n' = false) : OneLine s := by
  intro hm
  rw [List.contains_iff_mem.mpr hm] at h
  cases h

theorem Solid.oneLine {s : String} (h : Solid s) : OneLine s := by
  intro hm
  have hb := (h.plain _ hm).2
  revert hb
  decide

theorem oneLine_separated {separator : String} {texts : List String} (hs : OneLine separator)
    (h : ∀ t ∈ texts, OneLine t) : OneLine (separated separator texts) := by
  induction texts with
  | nil => simp [OneLine, separated]
  | cons t texts ih =>
    cases texts with
    | nil => exact h t List.mem_cons_self
    | cons u texts =>
      exact oneLine_append (oneLine_append (h t List.mem_cons_self) hs)
        (ih fun v hv => h v (List.mem_cons_of_mem t hv))

/-- The wording of a warning is a single line, but for the default that it quotes. -/
theorem Warning.message_oneLine {w : Warning} (hn : w.Named) (hd : w.DefaultOneLine) :
    OneLine w.message := by
  have name : ∀ {n : String}, isIdentifier n = true → OneLine n := fun h =>
    (identifier_solid h).oneLine
  cases w with
  | notNullWithoutDefault t k =>
    refine oneLine_append (oneLine_append (oneLine_append (name hn.1) ?_) (name hn.2)) ?_
    · exact oneLine_words (by decide +kernel)
    · exact oneLine_words (by decide +kernel)
  | rebuildRequired t k constraints =>
    refine oneLine_append (oneLine_append (oneLine_append (oneLine_append (oneLine_append
      (name hn.1) ?_) (name hn.2)) ?_) ?_) ?_
    · exact oneLine_words (by decide +kernel)
    · exact oneLine_words (by decide +kernel)
    · refine oneLine_separated (oneLine_words (by decide +kernel)) fun word hw => ?_
      obtain ⟨c, _, rfl⟩ := List.mem_map.mp hw
      cases c <;> exact oneLine_words (by decide +kernel)
    · exact oneLine_words (by decide +kernel)
  | nonConstantDefault t k text =>
    refine oneLine_append (oneLine_append (oneLine_append (oneLine_append (oneLine_append
      (name hn.1) ?_) (name hn.2)) ?_) (hd t k text rfl)) ?_
    · exact oneLine_words (by decide +kernel)
    · exact oneLine_words (by decide +kernel)
    · exact oneLine_words (by decide +kernel)
  | columnDropped t k =>
    refine oneLine_append (oneLine_append (oneLine_append (oneLine_append ?_ (name hn.1)) ?_)
      (name hn.2)) ?_
    · exact oneLine_words (by decide +kernel)
    · exact oneLine_words (by decide +kernel)
    · exact oneLine_words (by decide +kernel)
  | columnChanged t k =>
    refine oneLine_append (oneLine_append (oneLine_append (name hn.1) ?_) (name hn.2)) ?_
    · exact oneLine_words (by decide +kernel)
    · exact oneLine_words (by decide +kernel)
  | indexDropped t i ks =>
    refine oneLine_append (oneLine_append (oneLine_append (oneLine_append (oneLine_append
      (oneLine_append ?_ (name hn.2.1)) ?_) (name hn.1)) ?_) ?_) ?_
    · exact oneLine_words (by decide +kernel)
    · exact oneLine_words (by decide +kernel)
    · exact oneLine_words (by decide +kernel)
    · exact oneLine_separated (oneLine_words (by decide +kernel)) fun k hk => name (hn.2.2 k hk)
    · exact oneLine_words (by decide +kernel)
  | checksChanged t => exact oneLine_append (name hn) (oneLine_words (by decide +kernel))
  | tableRemoved t =>
    refine oneLine_append (oneLine_append ?_ (name hn)) ?_
    · exact oneLine_words (by decide +kernel)
    · exact oneLine_words (by decide +kernel)

namespace Difference

variable {previous target : Schema} {old t : Table} {d e : Definition}

theorem column_clean (hs : target.WellFormed) (hc : target.IsClosed) (ht : t ∈ target.tables)
    {k : Column} (hk : k ∈ t.columns) : k.Clean := by
  refine ⟨(hs.tables t ht).columnsNamed k hk, (hc t ht).defaults k hk, fun r hr => ?_⟩
  obtain ⟨u, hu, htable, c, hcol, hcolumn⟩ := hs.referencesResolved t ht k hk r hr
  exact ⟨htable ▸ (hs.tables u hu).named, hcolumn ▸ (hs.tables u hu).columnsNamed c hcol⟩

theorem createIndex_clean (ht : t.WellFormed) {i : Index} (hi : i ∈ t.indexes) :
    (Ddl.createIndex t.name i).Clean := by
  refine ⟨ht.named, ht.indexesNamed i hi, fun n hn => ?_⟩
  obtain ⟨c, hc, rfl⟩ := List.mem_map.mp (ht.indexesCovered i hi n hn)
  exact ht.columnsNamed c hc

theorem between_clean (hp : previous.WellFormed) (ht : target.WellFormed) (hc : target.IsClosed) :
    ∀ s ∈ (between previous target).statements, s.Clean := by
  intro s hs
  obtain ⟨t, htm, serves⟩ := mem_statements.mp hs
  have hw := ht.tables t htm
  have known : ∀ {old : Table}, previous.table? t.name = some old → old.WellFormed := fun ho =>
    hp.tables _ (List.mem_of_find?_eq_some ho)
  cases serves with
  | createTable => exact ⟨hw.named, fun k hk => column_clean ht hc htm hk, (hc t htm).checks⟩
  | createFirst _ hi => exact createIndex_clean hw hi
  | dropIndex ho hi => exact (known ho).indexesNamed _ (List.mem_filter.mp hi).1
  | addColumn _ hk =>
    have hm := (mem_newColumns.mp hk).1
    refine ⟨hw.named, hw.columnsNamed _ hm, fun v hv => ?_⟩
    exact (hc t htm).defaults _ hm v (Option.filter_eq_some_iff.mp hv).1
  | dropColumn ho hk => exact ⟨hw.named, (known ho).columnsNamed _ (mem_goneColumns.mp hk).1⟩
  | createIndex _ hi => exact createIndex_clean hw (List.mem_filter.mp hi).1

/-- A default is quoted only where a column is added, and it depends on when it is evaluated. -/
theorem nonConstant_source {table column text : String}
    (h : .nonConstantDefault table column text ∈ (between previous target).warnings) :
    ∃ t ∈ target.tables, ∃ old, previous.table? t.name = some old ∧ ∃ k ∈ newColumns old t,
      ∃ value, k.default = some value ∧ value.isConstant = false ∧ text = value.sql := by
  rcases mem_warnings.mp h with ⟨t, ht, old, ho, hwarns⟩ | ⟨t, -, -, h⟩
  · cases hwarns with
    | added hk lacks =>
      cases lacks with
      | default hd hv => exact ⟨t, ht, old, ho, _, hk, _, hd, hv, rfl⟩
  · cases h

theorem statements_of_nonConstant {table column text : String}
    (h : .nonConstantDefault table column text ∈ (between previous target).warnings) :
    (between previous target).statements ≠ [] := by
  obtain ⟨t, ht, old, ho, k, hk, _⟩ := nonConstant_source h
  exact List.ne_nil_of_mem (mem_statements.mpr ⟨t, ht, .addColumn ho hk⟩)

/-- A default that is quoted over several lines is an expression, which is closed. -/
theorem broken_default_closed (hc : target.IsClosed) {table column text : String}
    (h : .nonConstantDefault table column text ∈ (between previous target).warnings)
    (hbreak : ¬ OneLine text) :
    isClosed none text.toList = true ∧ text.toList.getLast? = some ')' := by
  obtain ⟨t, ht, old, _, k, hk, value, hd, hv, rfl⟩ := nonConstant_source h
  cases value with
  | raw sql =>
    have hsql := (hc t ht).defaults k (mem_newColumns.mp hk).1 _ hd sql rfl
    have hl : (DefaultValue.raw sql).sql.toList = '(' :: (sql.toList ++ [')']) := by
      simp [DefaultValue.sql]
    rw [hl]
    constructor
    · have hclose := isClosed_append (d := ')') (by decide) (by decide) hsql []
      rw [isClosed, hclose]
      simp [isMark, opensComment, isClosed]
    · rw [← List.cons_append, List.getLast?_concat]
  | value l =>
    cases l with
    | now => exact absurd (oneLine_words (by decide +kernel)) hbreak
    | _ => cases hv

/-- The defaults that warnings quote are single lines when all expressions are. -/
theorem quoted_oneLine (hs : target.OneLineDefaults) :
    ∀ w ∈ (between previous target).warnings, w.DefaultOneLine := by
  rintro w hw table column text rfl
  obtain ⟨t, ht, old, _, k, hk, value, hd, hv, rfl⟩ := nonConstant_source hw
  cases value with
  | raw sql =>
    have hsql := hs t ht k (mem_newColumns.mp hk).1 sql hd
    have hopen := oneLine_append (oneLine_words (by decide : "(".toList.contains '\n' = false)) hsql
    exact oneLine_append hopen (oneLine_words (by decide))
  | value l =>
    cases l with
    | now => exact oneLine_words (by decide +kernel)
    | _ => cases hv

theorem comments_toList (d : Difference) :
    d.comments.toList = (d.warnings.map fun w => (" warning: " ++ w.message).toList).flatMap
      fun cs => '-' :: '-' :: (cs ++ ['\n']) := by
  have hline : ∀ w : Warning, ("-- warning: " ++ w.message ++ "\n").toList
      = '-' :: '-' :: ((" warning: " ++ w.message).toList ++ ['\n']) := by
    intro w
    simp
  simp only [comments, String.toList_join, List.flatMap_map, hline]

theorem comments_endsLine (d : Difference) : EndsLine d.comments.toList := by
  rw [comments_toList]
  generalize d.warnings.map (fun w => (" warning: " ++ w.message).toList) = lines
  intro c hc
  induction lines with
  | nil => cases hc
  | cons line lines ih =>
    rw [List.flatMap_cons, List.getLast?_append] at hc
    cases hr : (lines.flatMap fun cs => '-' :: '-' :: (cs ++ ['\n'])).getLast? with
    | some last =>
      rw [hr, Option.some_or] at hc
      exact ih (hr.trans hc)
    | none =>
      rw [hr, Option.none_or, ← List.cons_append, ← List.cons_append,
        List.getLast?_concat] at hc
      exact (Option.some.inj hc).symm

theorem scanEnd_comments {lines : List (List Char)} (h : ∀ cs ∈ lines, '\n' ∉ cs) :
    scanEnd .plain (lines.flatMap fun cs => '-' :: '-' :: (cs ++ ['\n'])) = .plain := by
  have hline : ∀ cs ys : List Char, '\n' ∉ cs →
      scanEnd .lineComment (cs ++ '\n' :: ys) = scanEnd .plain ys := by
    intro cs ys h
    induction cs with
    | nil => simp [scanEnd]
    | cons c cs ih =>
      rw [List.mem_cons, not_or] at h
      rw [List.cons_append, scanEnd, if_neg (Ne.symm h.1), ih h.2]
  induction lines with
  | nil => rfl
  | cons cs lines ih =>
    rw [List.flatMap_cons, List.cons_append, List.cons_append, List.append_assoc,
      List.singleton_append]
    rw [ScanStep.dashes.scanEnd_eq, hline cs _ (h cs List.mem_cons_self)]
    exact ih fun zs hz => h zs (List.mem_cons_of_mem cs hz)

theorem warning_line {w : Warning} (hn : w.Named) (hd : w.DefaultOneLine) :
    '\n' ∉ (" warning: " ++ w.message).toList :=
  oneLine_append (oneLine_words (by decide +kernel)) (Warning.message_oneLine hn hd)

/-- What a warning says behind the semicolon that ends the default it quotes. -/
def quoteAdvice : String :=
  " SQLite only accepts constant defaults on ADD COLUMN, a table rebuild is required"

theorem nonConstant_message (table column text : String) :
    ∃ advice, (Warning.nonConstantDefault table column text).message.toList
      = (table ++ "." ++ column ++ " added without DEFAULT ").toList
        ++ (text.toList ++ ';' :: advice) := by
  have hmessage : (Warning.nonConstantDefault table column text).message
      = table ++ "." ++ column ++ " added without DEFAULT " ++ text ++ (";" ++ quoteAdvice) :=
    rfl
  have hsemi : ";".toList = [';'] := rfl
  refine ⟨quoteAdvice.toList, ?_⟩
  rw [hmessage]
  simp only [String.toList_append, List.append_assoc, hsemi, List.singleton_append]

/-- What stands in front of the default that a warning quotes. -/
def quoteLead (table column : String) : String :=
  " warning: " ++ (table ++ "." ++ column ++ " added without DEFAULT ")

theorem quoteLead_oneLine {table column : String} (ht : isIdentifier table = true)
    (hc : isIdentifier column = true) : OneLine (quoteLead table column) := by
  refine oneLine_append ?_ (oneLine_append (oneLine_append (oneLine_append ?_ ?_) ?_) ?_)
  · exact oneLine_words (by decide +kernel)
  · exact (identifier_solid ht).oneLine
  · exact oneLine_words (by decide +kernel)
  · exact (identifier_solid hc).oneLine
  · exact oneLine_words (by decide +kernel)

/-- Where a quoted default breaks, the comments are some lines, the last of them up to the break,
and then the rest of the default with the semicolon behind it. -/
theorem comments_break {d : Difference} {front back : List Warning} {table column text : String}
    {xs ys : List Char} (hw : d.warnings = front ++ .nonConstantDefault table column text :: back)
    (htext : text.toList = xs ++ '\n' :: ys) :
    ∃ tail, d.comments.toList
      = (((front.map fun w => (" warning: " ++ w.message).toList)
          ++ [(quoteLead table column).toList ++ xs]).flatMap
            fun cs => '-' :: '-' :: (cs ++ ['\n']))
        ++ (ys ++ ';' :: tail) := by
  obtain ⟨advice, hmessage⟩ := nonConstant_message table column text
  refine ⟨advice ++ '\n' :: (back.map fun w => (" warning: " ++ w.message).toList).flatMap
    fun cs => '-' :: '-' :: (cs ++ ['\n']), ?_⟩
  rw [comments_toList, hw, List.map_append, List.map_cons, List.flatMap_append,
    List.flatMap_cons, String.toList_append, hmessage, htext]
  simp only [quoteLead, List.flatMap_append, List.flatMap_singleton, String.toList_append,
    List.append_assoc, List.cons_append, List.nil_append]

/-- Behind a line break outside quotes a closed text with a last parenthesis has it still, and is
closed. -/
theorem closed_behind_break {xs ys : List Char} (hclosed : isClosed none xs = true)
    (hwhole : isClosed none (xs ++ '\n' :: ys) = true)
    (hlast : (xs ++ '\n' :: ys).getLast? = some ')') : isClosed none ys = true ∧ ')' ∈ ys := by
  constructor
  · rw [isClosed_append (by decide) (by decide) hclosed] at hwhole
    simpa [isClosed, isMark, opensComment] using hwhole
  · rw [List.getLast?_append, List.getLast?_cons] at hlast
    cases hl : ys.getLast? with
    | none => simp [hl] at hlast
    | some z =>
      simp only [hl, Option.getD_some, Option.some_or, Option.some.injEq] at hlast
      exact List.mem_of_getLast? (hlast ▸ hl)

/-- A line break outside quotes in a quoted default ends the comment too early: the rest of the
default is executed. -/
theorem broken_default_shows (hp : previous.WellFormed) (ht : target.WellFormed)
    (hc : target.IsClosed) {front back : List Warning} {table column text : String}
    {xs ys : List Char}
    (hw : (between previous target).warnings
      = front ++ .nonConstantDefault table column text :: back)
    (hfront : ∀ w ∈ front, w.DefaultOneLine) (htext : text.toList = xs ++ '\n' :: ys)
    (hxs : '\n' ∉ xs) (hclosed : isClosed none xs = true) :
    splitStatements (between previous target).comments ≠ [] := by
  have hmem : ∀ w ∈ front, w ∈ (between previous target).warnings := by
    intro w h
    rw [hw]
    exact List.mem_append_left _ h
  have hquoted : .nonConstantDefault table column text ∈ (between previous target).warnings := by
    rw [hw]
    exact List.mem_append_right _ List.mem_cons_self
  have hnames := between_named hp ht _ hquoted
  obtain ⟨hwhole, hlast⟩ := broken_default_closed hc hquoted (by simp [OneLine, htext])
  rw [htext] at hwhole hlast
  obtain ⟨hys, hshown⟩ := closed_behind_break hclosed hwhole hlast
  -- everything up to the line break is skipped, and what follows it is kept up to the semicolon
  obtain ⟨tail, htail⟩ := comments_break hw htext
  have hskipped : ∀ cs ∈ (front.map fun w => (" warning: " ++ w.message).toList)
      ++ [(quoteLead table column).toList ++ xs], '\n' ∉ cs := by
    intro cs hcs
    rcases List.mem_append.mp hcs with hcs | hcs
    · obtain ⟨w, hwf, rfl⟩ := List.mem_map.mp hcs
      exact warning_line (between_named hp ht w (hmem w hwf)) (hfront w hwf)
    · cases List.mem_singleton.mp hcs
      rw [List.mem_append, not_or]
      exact ⟨quoteLead_oneLine hnames.1 hnames.2, hxs⟩
  have hkept := scriptPieces_closed (d := ';') (by decide) (by decide) hys tail
  rw [quoteState, scriptPieces_semicolon, foldr_keepChar, List.append_nil] at hkept
  rw [splitStatements_eq, htail, statementsOf_comments hskipped, hkept]
  intro hnil
  have hblank := statementsOf_eq_nil.mp hnil ys List.mem_cons_self ')' hshown
  revert hblank
  decide

theorem comment_lines (hp : previous.WellFormed) (ht : target.WellFormed)
    (hdefaults : ∀ w ∈ (between previous target).warnings, w.DefaultOneLine) :
    ∀ cs ∈ (between previous target).warnings.map fun w => (" warning: " ++ w.message).toList,
      '\n' ∉ cs := by
  intro cs hcs
  obtain ⟨w, hw, rfl⟩ := List.mem_map.mp hcs
  exact warning_line (between_named hp ht w hw) (hdefaults w hw)

/-- Nothing more is needed of the comments than that they leave the scan outside quotes and comments
with nothing kept. -/
theorem faithful_iff_comments (hp : previous.WellFormed) (ht : target.WellFormed)
    (hc : target.IsClosed) :
    (between previous target).Faithful
      ↔ scanEnd .plain (between previous target).comments.toList = .plain
        ∧ splitStatements (between previous target).comments = [] := by
  have hclean := between_clean hp ht hc
  have hlines := comment_lines hp ht
  have hquoted := @statements_of_nonConstant previous target
  generalize between previous target = diff at hclean hlines hquoted ⊢
  let texts := diff.statements.map fun s => s.sql.toList
  have htexts : texts.map String.ofList = diff.statements.map Ddl.sql := by
    simp [texts, Function.comp_def]
  have hwhole : ∀ xs ∈ texts, Whole xs := statements_whole hclean
  have hscript : diff.toSql.toList
      = diff.comments.toList ++ texts.flatMap fun xs => xs ++ [';', '\n'] := by
    have hs : diff.toSql = diff.comments ++ Ddl.script diff.statements := rfl
    rw [hs, String.toList_append, script_toList]
  have hblock : scanEnd .plain diff.comments.toList = .blockComment → texts ≠ [] := by
    intro hend htexts
    have hnone : diff.statements = [] := List.map_eq_nil_iff.mp htexts
    rw [comments_toList, scanEnd_comments (hlines ?_)] at hend
    · cases hend
    · rintro w hw table column text rfl
      exact absurd hnone (hquoted hw)
  have hiff := comments_end_plain_iff (comments_endsLine diff) hwhole hblock
  rw [← hscript, htexts] at hiff
  rw [splitStatements_eq, ← hiff]
  exact ⟨fun h => ⟨h.statements, h.comments⟩, fun h => ⟨h.1, h.2⟩⟩

/-- A script is faithful when the defaults that its comments quote are single lines. -/
theorem faithful_of_oneLine (hp : previous.WellFormed) (ht : target.WellFormed)
    (hc : target.IsClosed)
    (hdefaults : ∀ w ∈ (between previous target).warnings, w.DefaultOneLine) :
    (between previous target).Faithful := by
  have hlines := comment_lines hp ht hdefaults
  refine (faithful_iff_comments hp ht hc).mpr ⟨?_, ?_⟩
  · rw [comments_toList]
    exact scanEnd_comments hlines
  · have hnothing := statementsOf_comments hlines []
    rw [List.append_nil, ← comments_toList] at hnothing
    rw [splitStatements_eq, hnothing]
    simp [scriptPieces, statementsOf, trim, trimEnd, trimStart]

/-- Exactly when the comments leave the scan outside quotes and comments with nothing kept, the
written script is faithful. With quoted defaults of one line it always is, and never when the first
quoted default of several lines has its first line break outside quotes. -/
theorem faithful_iff (hp : d.compile = .ok previous) (ht : e.compile = .ok target)
    (hc : target.IsClosed) :
    ((between previous target).Faithful
        ↔ scanEnd .plain (between previous target).comments.toList = .plain
          ∧ splitStatements (between previous target).comments = [])
      ∧ ((∀ w ∈ (between previous target).warnings, w.DefaultOneLine) →
        (between previous target).Faithful)
      ∧ ∀ front table column text back xs ys,
        (between previous target).warnings
            = front ++ .nonConstantDefault table column text :: back →
        (∀ w ∈ front, w.DefaultOneLine) → text.toList = xs ++ '\n' :: ys → '\n' ∉ xs →
        isClosed none xs = true → ¬ (between previous target).Faithful := by
  have hp := Definition.compile_wellFormed hp
  have ht := Definition.compile_wellFormed ht
  refine ⟨faithful_iff_comments hp ht hc, faithful_of_oneLine hp ht hc, ?_⟩
  intro front table column text back xs ys hw hfront htext hxs hclosed hf
  exact broken_default_shows hp ht hc hw hfront htext hxs hclosed hf.comments

/-- A table without and with a column whose default is an expression. -/
def computed (expression : String) : Definition × Definition :=
  let old := ({ name := "s" } : Definition).column "t" "a" "text"
  (old, old.column "t" "c" ("text default (" ++ expression ++ ")"))

/-- What the table without the column compiles to. -/
def computedOld : Schema :=
  ⟨"s", 1, [{ name := "t", columns := [{ name := "a", type := .text }] }]⟩

/-- What the table with the column compiles to. -/
def computedNew (expression : String) : Schema :=
  ⟨"s", 1, [
    { name := "t"
      columns := [{ name := "a", type := .text },
        { name := "c", type := .text, default := some (.raw expression) }] }]⟩

theorem computedNew_closed (expression : String) (h : isClosed none expression.toList = true) :
    (computedNew expression).IsClosed := by
  intro t ht
  cases List.mem_singleton.mp ht
  refine ⟨fun k hk v hv sql hsql => ?_, by simp⟩
  subst hsql
  simp only [List.mem_cons, List.not_mem_nil, or_false] at hk
  rcases hk with rfl | rfl
  · cases hv
  · cases hv
    exact h

theorem faithful_iff_computed :
    (computed "1 + 2").1.compile = .ok computedOld
      ∧ (computed "1 + 2").2.compile = .ok (computedNew "1 + 2")
      ∧ (computedNew "1 + 2").IsClosed ∧ (between computedOld (computedNew "1 + 2")).Faithful := by
  have hold : (computed "1 + 2").1.compile = .ok computedOld := by decide +kernel
  have hnew : (computed "1 + 2").2.compile = .ok (computedNew "1 + 2") := by decide +kernel
  have hclosed := computedNew_closed "1 + 2" (by decide)
  refine ⟨hold, hnew, hclosed, (faithful_iff hold hnew hclosed).1.mpr ⟨?_, ?_⟩⟩
  · decide +kernel
  · decide +kernel

/-- A line break in a default that is left out ends the comment about it, and the rest of the
default is executed. -/
theorem broken_default_unfaithful :
    ¬ ∀ (d e : Definition) (previous target : Schema), d.compile = .ok previous →
      e.compile = .ok target → previous.IsClosed → target.IsClosed →
      splitStatements (between previous target).toSql
        = (between previous target).statements.map Ddl.sql := by
  intro h
  have hold : computedOld.IsClosed := by
    intro t ht
    cases List.mem_singleton.mp ht
    refine ⟨fun k hk v hv => ?_, by simp⟩
    cases List.mem_singleton.mp hk
    cases hv
  have hsplit := h (computed "1 +\n 2").1 (computed "1 +\n 2").2 computedOld
    (computedNew "1 +\n 2") (by decide +kernel) (by decide +kernel) hold
    (computedNew_closed _ (by decide))
  revert hsplit
  decide +kernel

end Difference

end Tabularium
