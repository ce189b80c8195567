import Tabularium.Gateway.Route
import Tabularium.Proofs.Json.Faithful

namespace Tabularium

open Draft (depthLimit)

variable {level : Nat} {v : SqlValue} {s : Statement} {op : Operation}

/-- The numbers with a point are finite and read as they were written. -/
def SqlValue.Carried (v : SqlValue) : Prop :=
  ∀ x, v = .float x → x.isFinite = true ∧ x.readBack = x

def Statement.Carried (s : Statement) : Prop :=
  ∀ v ∈ s.params, v.Carried

/-- The statements of an operation can be sent with their values. -/
def Operation.Carried : Operation → Prop
  | .exec s => s.Carried
  | .batch ss => ∀ s ∈ ss, s.Carried
  | .raw s _ => s.Carried
  | .first s _ => s.Carried
  | .script _ => True

/-- A value as it arrives where it is sent: a number with a point is the one that its text is read
as, and nothing stands for a number that is not finite. -/
def SqlValue.arriving : SqlValue → SqlValue
  | .float x => if x.isFinite then .float x.readBack else .null
  | v => v

def Statement.arriving (s : Statement) : Statement :=
  { s with params := s.params.map SqlValue.arriving }

/-- An operation as it arrives, with each of its values. -/
def Operation.arriving : Operation → Operation
  | .exec s => .exec s.arriving
  | .batch ss => .batch (ss.map Statement.arriving)
  | .raw s columnNames => .raw s.arriving columnNames
  | .first s column => .first s.arriving column
  | .script sql => .script sql

theorem SqlValue.Carried.arriving_self (h : v.Carried) : v.arriving = v := by
  cases v with
  | float x =>
    obtain ⟨hf, hb⟩ := h x rfl
    rw [arriving, if_pos hf, hb]
  | _ => rfl

theorem Statement.Carried.arriving_self (h : s.Carried) : s.arriving = s := by
  have hparams : s.params.map SqlValue.arriving = s.params :=
    (List.map_congr_left fun v hv => (h v hv).arriving_self).trans (List.map_id _)
  rw [arriving, hparams]

/-- An operation arrives as it was sent when its values can be sent. -/
theorem Operation.Carried.arriving_self (h : op.Carried) : op.arriving = op := by
  cases op with
  | exec s => rw [arriving, Statement.Carried.arriving_self h]
  | batch ss =>
    have hstatements : ss.map Statement.arriving = ss :=
      (List.map_congr_left fun s hs => (h s hs).arriving_self).trans (List.map_id _)
    rw [arriving, hstatements]
  | raw s columnNames => rw [arriving, Statement.Carried.arriving_self h]
  | first s column => rw [arriving, Statement.Carried.arriving_self h]
  | script sql => rfl

namespace SqlValue

theorem toJson_faithful (h : v.Carried) (hl : level < depthLimit) :
    Json.Faithful level v.toJson := by
  cases v with
  | null => exact .null level
  | bool b => exact .bool level b
  | int n => exact .int level _ (Int64.le_toInt n) (by have := Int64.toInt_lt n; omega)
  | float x =>
    obtain ⟨hf, hb⟩ := h x rfl
    rw [toJson, Json.ofNumber, if_pos hf]
    exact .float level x hf hb
  | text s => exact .text level s
  | blob bytes =>
    refine .list level _ hl fun j hj => ?_
    obtain ⟨b, -, rfl⟩ := List.mem_map.mp hj
    have := b.toNat_lt
    exact .int (level + 1) _ (by omega) (by omega)

theorem byte?_toNat (b : UInt8) : byte? b.toNat = some b := by
  have := b.toNat_lt
  rw [byte?, if_pos ⟨by omega, by simpa using this⟩, Int.toNat_natCast, UInt8.ofNat_toNat]

theorem asList_bytes (bytes : List UInt8) :
    Draft.asList (Draft.asWord byte?) (blob bytes).toJson.reread = .ok bytes := by
  have h := Draft.asList_map (Draft.asWord byte?) (fun b : UInt8 => .int b.toNat) id
    fun b (_ : b ∈ bytes) => Draft.asWord_ok (byte?_toNat b)
  rwa [List.map_id] at h

theorem toJson_readable (v : SqlValue) (hl : level < depthLimit) :
    Json.Readable level v.toJson := by
  cases v with
  | float x =>
    rw [toJson, Json.ofNumber]
    split
    next hf => exact .float level x hf
    next => exact .null level
  | _ => exact (toJson_faithful (by rintro _ ⟨⟩) hl).readable

theorem ofUntagged_toJson (v : SqlValue) : ofUntagged v.toJson.reread = .ok v.arriving := by
  cases v with
  | int n => rw [toJson, Json.reread, ofUntagged, int64?_toInt]; rfl
  | float x =>
    rw [toJson, Json.ofNumber, arriving]
    split <;> rfl
  | blob bytes =>
    have hbytes := asList_bytes bytes
    rw [toJson, Json.reread] at hbytes ⊢
    rw [ofUntagged, hbytes]
    rfl
  | _ => rfl

/-- From what is sent for a value, the value is read as it arrives. -/
theorem read_arriving (v : SqlValue) : read v.toJson.reread = .ok v.arriving := by
  have hreadable : Json.Readable 1 v.toJson := v.toJson_readable (by decide)
  obtain ⟨j, hj⟩ := Draft.settle_readable hreadable
  rw [read, Draft.settled, hj]
  exact v.ofUntagged_toJson

theorem read_toJson (h : v.Carried) : read v.toJson.reread = .ok v := by
  rw [read_arriving, h.arriving_self]

end SqlValue

namespace Statement

theorem paramsJson_readable (s : Statement) (hl : level + 1 < depthLimit) :
    Json.Readable level (.list (s.params.map SqlValue.toJson)) := by
  refine .list level _ (by omega) fun j hj => ?_
  obtain ⟨v, -, rfl⟩ := List.mem_map.mp hj
  exact v.toJson_readable hl

theorem entries_readable (s : Statement) (hl : level + 1 < depthLimit) :
    ∀ e ∈ s.entries, Json.Readable level e.2 := by
  intro e he
  rcases List.mem_cons.mp he with rfl | he
  · exact .text level _
  · cases List.mem_singleton.mp he
    exact s.paramsJson_readable hl

theorem toJson_readable (s : Statement) (hl : level + 2 < depthLimit) :
    Json.Readable level s.toJson :=
  .record level _ (by omega) (s.entries_readable hl)

/-- From what is sent for a statement, the statement is read as it arrives. -/
theorem read_arriving (s : Statement) : read s.toJson.reread = .ok s.arriving := by
  have hparams := Draft.asList_map SqlValue.read SqlValue.toJson SqlValue.arriving
    fun v (_ : v ∈ s.params) => v.read_arriving
  exact Draft.Fills.asRecord (.given (Draft.storing_ok (Draft.asText_reread s.sql) _)
    (.given (Draft.storing_ok hparams _) (.done s.arriving))) (by decide)

end Statement

namespace Draft

variable {α : Type} {fields : List (Field α)} {seen : List String} {x y : α} {key : String}
  {d : Draft} {entries others : List (Option String × Draft)}

/-- An entry of no field is left to the others. -/
theorem readOwnEntries_other {j : Json} (hk : fields.find? (fun f => f.name == key) = none)
    (hd : settle d = .ok j) (h : readOwnEntries fields seen x entries = .ok (y, others)) :
    readOwnEntries fields seen x ((some key, d) :: entries) = .ok (y, (some key, d) :: others) := by
  rw [readOwnEntries, hk]
  simp only [hd, h]

theorem asJoined_ok {β γ : Type} {decode : Draft → Except Fault γ} {fields : List (Field β)}
    {x y : β} {z : γ} (h : readOwnEntries fields [] x entries = .ok (y, others))
    (hd : decode (.record false others true) = .ok z) :
    asJoined fields x decode (.record false entries true) = .ok (z, y) := by
  unfold asJoined
  simp only [h, bind, Except.bind, hd]
  rfl

end Draft

namespace Route

/-- The entries of a statement are left to it when a field of another name stands behind them. -/
theorem readOwn_statement {β : Type} {fields : List (Field β)} {x y : β}
    {own : List (String × Json)} (s : Statement)
    (hq : fields.find? (fun f => f.name == "query") = none)
    (hp : fields.find? (fun f => f.name == "params") = none)
    (h : Draft.readOwnEntries fields [] x (Json.rereadEntries own) = .ok (y, [])) :
    Draft.readOwnEntries fields [] x (Json.rereadEntries (s.entries ++ own)) =
      .ok (y, Json.rereadEntries s.entries) := by
  have htext : Json.Faithful 1 (.text s.sql) := .text 1 s.sql
  have hreadable : Json.Readable 1 (.list (s.params.map SqlValue.toJson)) :=
    s.paramsJson_readable (by decide)
  obtain ⟨params, hparams⟩ := Draft.settle_readable hreadable
  -- The two entries of the statement stand first, and neither is a field of the request.
  rw [Draft.rereadEntries_append]
  exact Draft.readOwnEntries_other hq (Draft.settle_reread htext)
    (Draft.readOwnEntries_other hp hparams h)

theorem readRaw_arriving (s : Statement) (names : Bool) :
    readRaw (Operation.raw s names).toJson.reread = .ok (.raw s.arriving names) := by
  let fields : List (Field Bool) :=
    [.defaulted "columnNames" Draft.asBool fun _ names => names]
  have hown : Draft.readOwnEntries fields [] false
      (Json.rereadEntries [("columnNames", .bool names)]) = .ok (names, []) := rfl
  have hjoined := Draft.asJoined_ok (readOwn_statement s rfl rfl hown) s.read_arriving
  rw [readRaw, Operation.toJson, Json.reread, hjoined]
  rfl

theorem readFirst_arriving (s : Statement) (column : Option String) :
    readFirst (Operation.first s column).toJson.reread = .ok (.first s.arriving column) := by
  let fields : List (Field (Option String)) :=
    [.optional "columnName" Draft.asText fun _ name => name]
  have hown : Draft.readOwnEntries fields [] none
      (Json.rereadEntries (Json.optional "columnName" (column.map .text)))
        = .ok (column, []) := by
    cases column <;> rfl
  have hjoined := Draft.asJoined_ok (readOwn_statement s rfl rfl hown) s.read_arriving
  rw [readFirst, Operation.toJson, Json.reread, hjoined]
  rfl

theorem readBatch_arriving (ss : List Statement) :
    readBatch (Operation.batch ss).toJson.reread = .ok (.batch (ss.map Statement.arriving)) := by
  have hlist := Draft.asList_map Statement.read Statement.toJson Statement.arriving
    fun s (_ : s ∈ ss) => s.read_arriving
  exact Draft.Fills.asRecord (.given (Draft.storing_ok hlist _) (.done _)) (by decide)

theorem readScript_toJson (sql : String) :
    readScript (Operation.script sql).toJson.reread = .ok (.script sql) :=
  Draft.Fills.asRecord (.given (Draft.storing_ok (Draft.asText_reread sql) _) (.done _))
    (by decide)

/-- From what is sent for an operation, its route reads the operation as it arrives. -/
theorem read_arriving (op : Operation) : op.route.read op.toJson.reread = .ok op.arriving := by
  cases op with
  | exec s =>
    rw [Operation.route, read, Operation.toJson, s.read_arriving]
    rfl
  | batch ss => exact readBatch_arriving ss
  | raw s names => exact readRaw_arriving s names
  | first s column => exact readFirst_arriving s column
  | script sql => exact readScript_toJson sql

end Route

theorem length_le_utf8ByteSize (cs : List Char) :
    cs.length ≤ (String.ofList cs).utf8ByteSize := by
  induction cs with
  | nil => exact Nat.zero_le _
  | cons c cs ih =>
    have := c.utf8Size_pos
    rw [String.ofList_cons, String.utf8ByteSize_append, String.utf8ByteSize_singleton,
      List.length_cons]
    omega

/-- A text is not longer than what is written for it between quotes. -/
theorem Json.length_quotedChars (s : String) : s.length + 2 ≤ (quotedChars s).length := by
  have hescaped : ∀ cs : List Char, cs.length ≤ (cs.flatMap escapeChar).length := by
    intro cs
    induction cs with
    | nil => exact Nat.zero_le _
    | cons c cs ih =>
      have hpos : 0 < (escapeChar c).length := by
        unfold escapeChar
        repeat' split
        all_goals simp
      rw [List.flatMap_cons, List.length_append, List.length_cons]
      omega
  have := hescaped s.toList
  rw [quotedChars, List.length_cons, List.length_append, List.length_singleton]
  rw [String.length_toList] at this
  omega

namespace Operation

theorem joined_readable {extra : List (String × Json)} (s : Statement)
    (he : ∀ e ∈ extra, Json.Readable 2 e.2) :
    Json.Readable 1 (.record (s.entries ++ extra)) := by
  refine .record 1 _ (by decide) fun e hm => ?_
  rcases List.mem_append.mp hm with hm | hm
  · exact s.entries_readable (by decide) e hm
  · exact he e hm

/-- What is sent for an operation is read back from its text. -/
theorem toJson_readable (op : Operation) : Json.Readable 1 op.toJson := by
  cases op with
  | exec s => exact s.toJson_readable (by decide)
  | batch ss =>
    refine .record 1 _ (by decide) fun e he => ?_
    cases List.mem_singleton.mp he
    refine .list 2 _ (by decide) fun j hj => ?_
    obtain ⟨s, -, rfl⟩ := List.mem_map.mp hj
    exact s.toJson_readable (by decide)
  | raw s names =>
    refine joined_readable s fun e he => ?_
    cases List.mem_singleton.mp he
    exact .bool 2 names
  | first s column =>
    refine joined_readable s fun e he => ?_
    cases column with
    | none => cases he
    | some name =>
      cases List.mem_singleton.mp he
      exact .text 2 name
  | script sql =>
    refine .record 1 _ (by decide) fun e he => ?_
    cases List.mem_singleton.mp he
    exact .text 2 sql

/-- From the body of its request, the route of an operation decodes the operation as it arrives. -/
theorem decode_arriving (op : Operation) :
    Draft.decode op.route.read op.toJson.compact = .ok op.arriving := by
  rw [Draft.decode_compact op.route.read op.toJson_readable, Route.read_arriving]

theorem decode_body (h : op.Carried) : Draft.decode op.route.read op.toJson.compact = .ok op := by
  rw [decode_arriving, h.arriving_self]

/-- What is sent for a script is longer than the script. -/
theorem length_lt_script (sql : String) :
    sql.length < (script sql).toJson.compact.utf8ByteSize := by
  have htext : (script sql).toJson.compactChars
      = '\x7b' :: (Json.quotedChars "query" ++ ':' :: (Json.quotedChars sql ++ [])
        ++ ['\x7d']) := by
    rw [toJson, Json.compactChars, Draft.compactEntries_front, Json.compactChars]
    · rfl
    all_goals simp
  have hlength := congrArg List.length htext
  have hbytes := length_le_utf8ByteSize (script sql).toJson.compactChars
  have hquoted := Json.length_quotedChars sql
  simp only [List.length_cons, List.length_append] at hlength
  rw [Json.compact]
  omega

end Operation

end Tabularium
