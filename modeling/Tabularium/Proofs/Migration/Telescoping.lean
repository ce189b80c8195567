import Tabularium.Proofs.Migration.Generation

namespace Tabularium

theorem Difference.between_of_tables {p p' : Schema} (h : p.tables = p'.tables) (s : Schema) :
    between p s = between p' s := by
  obtain ⟨name, version, tables⟩ := p
  obtain ⟨name', version', tables'⟩ := p'
  cases h
  rfl

namespace MigrationBundle

/-- The differences between schemas one after the other, measured from one before them. -/
def successive (previous : Schema) : List Schema → List Difference
  | [] => []
  | s :: rest => .between previous s :: successive s rest

/-- The schema of the last of the calls, the empty one when there is none. -/
def lastOf (calls : List (String × Schema)) (name : String) : Schema :=
  (calls.getLast?.map (·.2)).getD (.empty name)

/-- What a further call does behind calls that wrote migrations: it writes unless the schema is the
last one, and the files of the migrations stay as they are. -/
structure Extends (d : Directory) (calls : List (String × Schema)) (migrations : List Migration)
    (name : String) (s : Schema) : Prop where
  reached : (Difference.between (lastOf calls s.name) s).isEmpty = true →
    generate d name s = (.ok none, d)
  unreached : (Difference.between (lastOf calls s.name) s).isEmpty = false →
    ∃ m, (generate d name s).1 = .ok (some m)
  kept : ∀ m ∈ migrations, ∀ path ∈ [scriptPath m.tag, snapshotPath m.tag],
    ∃ text, d.read path = .ok text ∧ (generate d name s).2.read path = .ok text

/-- What calls that generate migrations leave in a directory: their journal, scripts and schemas go
together, and each script leads from the schema before it to its own. -/
structure Telescopes (d : Directory) (calls : List (String × Schema)) (d' : Directory)
    (migrations : List Migration) : Prop where
  generated : generateAll d calls = .ok d'
  journal : isIn d' = !migrations.isEmpty
  loaded : isIn d' = true → load d' = .ok ⟨migrations⟩
  numbered : migrations.map (·.idx.toNat) = List.range migrations.length
  distinct : (migrations.map (·.tag)).Nodup
  scripts : ∀ name, migrations.map (·.sql)
    = (successive (.empty name) ((written d calls).map (·.2))).map Difference.toSql
  schemas : migrations.map (fun m => d'.read (snapshotPath m.tag))
    = (written d calls).map fun call => .ok call.2.toJson.pretty
  next : ∀ name s, (slug name).isEmpty = false → s.FloatFree →
    (∀ fault, (generate d' name s).1 ≠ .error (.unwritable fault)) →
    Extends d' (written d calls) migrations name s

variable {d d' : Directory} {log : List Generated} {name : String} {s : Schema}

theorem baseOf_eq_lastOf (hfree : ∀ g ∈ log, g.schema.FloatFree) (name : String) :
    baseOf log name = lastOf (log.map fun g => (g.name, g.schema)) name := by
  rcases List.eq_nil_or_concat' log with rfl | ⟨front, g, rfl⟩
  · rfl
  · have hback := (hfree g (by simp)).readBack
    rw [baseOf_snoc, hback, lastOf, List.map_append, List.map_singleton, List.getLast?_concat]
    rfl

theorem addedAll_successive {steps : List (String × Schema)} :
    ∀ (log : List Generated) (base : Schema), (∀ step ∈ steps, step.2.FloatFree) →
      (∀ name, base.tables = (baseOf log name).tables) →
      (addedAll log steps).map (·.difference)
        = successive base ((addedAll log steps).map (·.schema)) := by
  induction steps with
  | nil => exact fun _ _ _ _ => rfl
  | cons step steps ih =>
    intro log base hfree hbase
    obtain ⟨name, s⟩ := step
    rw [List.forall_mem_cons] at hfree
    rw [addedAll]
    by_cases hempty : (nextOf log name s).difference.isEmpty = true
    · have hnone : added log name s = [] := if_pos hempty
      rw [hnone, List.append_nil, List.nil_append]
      exact ih log base hfree.2 hbase
    · have hone : added log name s = [nextOf log name s] := if_neg hempty
      have hback : s.readBack = s := hfree.1.readBack
      have hnext : ∀ name', s.tables = (baseOf (log ++ [nextOf log name s]) name').tables := by
        intro name'
        rw [baseOf_snoc]
        exact congrArg Schema.tables hback.symm
      have hdifference : (nextOf log name s).difference = .between base s :=
        (Difference.between_of_tables (hbase s.name) s).symm
      rw [hone, List.singleton_append, List.map_cons, List.map_cons, hdifference,
        ih _ s hfree.2 hnext]
      rfl

namespace Holds

/-- A call that is not refused by the directory has room for the names of its files. -/
theorem added_room (h : Holds d log) (hn : (slug name).isEmpty = false)
    (hfew : log.length < 2 ^ 32)
    (hfits : ∀ fault, (generate d name s).1 ≠ .error (.unwritable fault)) :
    ∀ g ∈ added log name s, HasRoom g.idx g.name := by
  intro g hg
  unfold added at hg
  split at hg
  next => cases hg
  next hempty =>
    cases List.mem_singleton.mp hg
    by_contra hroom
    have hrefused := h.write_unwritable hroom (h.nextIdx_eq hfew)
    cases hwrite : (planOf log (nextOf log name s)).write d (nextOf log name s).schema with
    | mk answer d' =>
      have hcall := h.generate_unreached hn hempty hwrite
      rw [hwrite] at hrefused
      dsimp only at hrefused
      apply hfits .nameTooLong
      rw [hcall, hrefused]
      rfl

/-- When no call is refused by the directory, there is room for the names of all files. -/
theorem addedAll_room {steps : List (String × Schema)} :
    ∀ {d : Directory} {log : List Generated}, Holds d log →
      (∀ step ∈ steps, (slug step.1).isEmpty = false) →
      (∀ step ∈ steps, step.2.FiniteDefaults) →
      (∀ fault, generateAll d steps ≠ .error (.unwritable fault)) →
      log.length + (written d steps).length < 2 ^ 32 →
      (∀ g ∈ addedAll log steps, HasRoom g.idx g.name)
        ∧ (addedAll log steps).length = (written d steps).length := by
  induction steps with
  | nil => exact fun _ _ _ _ _ => ⟨by simp [addedAll], rfl⟩
  | cons step steps ih =>
    intro d log h hn hf hfits hfew
    obtain ⟨name, s⟩ := step
    rw [List.forall_mem_cons] at hn hf
    rw [written, List.length_append] at hfew
    rw [addedAll, written]
    dsimp only at hn hf
    have hfits₀ : ∀ fault, (generate d name s).1 ≠ .error (.unwritable fault) := by
      intro fault hrefused
      cases hcall : generate d name s with
      | mk answer d₁ =>
        rw [hcall] at hrefused
        dsimp only at hrefused
        apply hfits fault
        rw [generateAll, hcall, hrefused]
    have hlog : log.length < 2 ^ 32 := Nat.lt_of_le_of_lt (Nat.le_add_right _ _) hfew
    have hroom := h.added_room hn.1 hlog hfits₀
    have hone : log.length + (added log name s).length ≤ 2 ^ 32 :=
      Nat.le_trans (Nat.add_le_add_left (added_length log name s) _) hlog
    obtain ⟨-, hwrites, m, d₁, hgenerate, h₁⟩ := h.generate_eq hn.1 hroom hf.1 hone
    rw [generateAll, hgenerate] at hfits
    rw [calls_eq hwrites, List.length_map, hgenerate] at hfew
    rw [calls_eq hwrites, hgenerate]
    dsimp only at hfew hfits ⊢
    have hfew₁ : (log ++ added log name s).length + (written d₁ steps).length < 2 ^ 32 := by
      rwa [List.length_append, Nat.add_assoc]
    obtain ⟨hrest, hlengths⟩ := ih h₁ hn.2 hf.2 hfits hfew₁
    refine ⟨List.forall_mem_append.mpr ⟨hroom, hrest⟩, ?_⟩
    rw [List.length_append, List.length_append, List.length_map, hlengths]

theorem extends_eq (h : Holds d log) (hfree : ∀ g ∈ log, g.schema.FloatFree)
    (hfew : log.length < 2 ^ 32) (hn : (slug name).isEmpty = false) (hs : s.FloatFree)
    (hfits : ∀ fault, (generate d name s).1 ≠ .error (.unwritable fault)) :
    Extends d (log.map fun g => (g.name, g.schema)) (log.map Generated.migration) name s := by
  have hnext : (nextOf log name s).difference
      = .between (lastOf (log.map fun g => (g.name, g.schema)) s.name) s := by
    rw [← baseOf_eq_lastOf hfree]
    rfl
  have hroom := h.added_room hn hfew hfits
  have hone : log.length + (added log name s).length ≤ 2 ^ 32 :=
    Nat.le_trans (Nat.add_le_add_left (added_length log name s) _) hfew
  obtain ⟨-, hwrites, m, d₁, hgenerate, h₁⟩ := h.generate_eq hn hroom hs.finiteDefaults hone
  refine ⟨fun hempty => ?_, fun hempty => ?_, ?_⟩
  · exact h.generate_reached hn (by rw [hnext, hempty])
  · rw [hnext, hempty, writes, hgenerate] at hwrites
    rw [hgenerate]
    cases m with
    | none => cases hwrites
    | some m => exact ⟨m, rfl⟩
  · intro m hm path hpath
    obtain ⟨g, hg, rfl⟩ := List.mem_map.mp hm
    have hg₁ : g ∈ log ++ added log name s := List.mem_append_left _ hg
    rw [hgenerate]
    rcases List.mem_pair.mp hpath with hscript | hsnapshot
    · rw [hscript]
      exact ⟨g.difference.toSql, h.read_script hg, h₁.read_script hg₁⟩
    · rw [hsnapshot]
      exact ⟨g.schema.toJson.pretty, h.read_snapshot hg, h₁.read_snapshot hg₁⟩

theorem tags_nodup (h : Holds d log) : (log.map Generated.tag).Nodup := by
  refine List.pairwise_map.mpr (h.idx_pairwise.imp fun hlt hsame => ?_)
  rw [tagOf_inj hsame] at hlt
  exact Nat.lt_irrefl _ hlt

end Holds

/-- Migrations that are generated one after the other in a blank directory, for schemas without
floating-point defaults, go together with their journal and the schemas that they lead to. -/
theorem generated_telescopes {calls : List (String × Schema)} (hd : d.Blank)
    (hn : ∀ call ∈ calls, (slug call.1).isEmpty = false) (hfree : ∀ call ∈ calls, call.2.FloatFree)
    (hfits : ∀ fault, generateAll d calls ≠ .error (.unwritable fault))
    (hfew : (written d calls).length < 2 ^ 32) :
    ∃ d' migrations, Telescopes d calls d' migrations := by
  have hfinite : ∀ call ∈ calls, call.2.FiniteDefaults := fun call hcall =>
    (hfree call hcall).finiteDefaults
  have hblank := Holds.of_blank hd
  obtain ⟨hroom, hlength⟩ := hblank.addedAll_room hn hfinite hfits (by simpa using hfew)
  obtain ⟨-, hwritten, d', hgenerated, hd'⟩ := hblank.generateAll_eq hn hfinite hroom
    (by simpa [hlength] using Nat.le_of_lt hfew)
  have hschemas : ∀ g ∈ addedAll [] calls, g.schema.FloatFree := fun g hg =>
    hfree _ (Holds.mem_addedAll hg)
  rw [← hlength] at hfew
  refine ⟨d', (addedAll [] calls).map Generated.migration, hgenerated, ?_, fun hin => ?_, ?_, ?_,
    fun name => ?_, ?_, fun name s hname hs hrefused => ?_⟩
  · rw [List.isEmpty_map]
    exact hd'.isIn_eq
  · refine hd'.load_eq fun hnone => ?_
    rw [hd'.isIn_eq, hnone] at hin
    cases hin
  · rw [List.map_map, List.length_map]
    exact hd'.numbered
  · rw [List.map_map]
    exact hd'.tags_nodup
  · have hchain := addedAll_successive [] (.empty name) hfree fun _ => rfl
    rw [hwritten, List.map_map, List.map_map]
    show _ = List.map Difference.toSql (successive _ ((addedAll [] calls).map (·.schema)))
    rw [← hchain, List.map_map]
    rfl
  · rw [hwritten, List.map_map, List.map_map]
    exact List.map_congr_left fun g hg => hd'.read_snapshot hg
  · rw [hwritten]
    exact hd'.extends_eq hschemas hfew hname hs hrefused

/-- Members get names, and in between nothing changes. -/
def members : List (String × Schema) :=
  let table (columns : List String) : Table :=
    { name := "members", columns := columns.map fun column => { name := column, type := .text } }
  [("Init!", ⟨"club", 1, [table ["id"]]⟩), ("again", ⟨"club", 2, [table ["id"]]⟩),
    ("add name", ⟨"club", 3, [table ["id", "name"]]⟩)]

theorem generated_telescopes_members :
    ∃ d' migrations, Telescopes ⟨"migrations", []⟩ members d' migrations
      ∧ migrations.map (·.sql) =
        ["CREATE TABLE IF NOT EXISTS members (\n  id TEXT\n);\n",
          "ALTER TABLE members ADD COLUMN name TEXT;\n"] := by
  have hd : Directory.Blank ⟨"migrations", []⟩ := .inl rfl
  have hfree : ∀ call ∈ members, call.2.FloatFree := by decide +kernel
  have hn : ∀ call ∈ members, (slug call.1).isEmpty = false := by decide +kernel
  have hshort : ∀ call ∈ members, (slug call.1).length ≤ 230 := by decide +kernel
  obtain ⟨-, hwritten, d', hgenerated, -⟩ := Holds.generateAll_blank hd
    (fun call hcall => ⟨hn call hcall, hshort call hcall⟩)
    (fun call hcall => (hfree call hcall).finiteDefaults) (by decide)
  have hschemas : (written ⟨"migrations", []⟩ members).map (·.2)
      = [⟨"club", 1, [{ name := "members", columns := [{ name := "id", type := .text }] }]⟩,
        ⟨"club", 3, [{ name := "members", columns := [{ name := "id", type := .text },
          { name := "name", type := .text }] }]⟩] := by
    rw [hwritten]
    decide +kernel
  have hfew : (written ⟨"migrations", []⟩ members).length < 2 ^ 32 := by
    rw [← List.length_map, hschemas]
    decide
  have hfits : ∀ fault, generateAll ⟨"migrations", []⟩ members ≠ .error (.unwritable fault) := by
    intro fault hrefused
    rw [hgenerated] at hrefused
    cases hrefused
  obtain ⟨d'', migrations, h⟩ := generated_telescopes hd hn hfree hfits hfew
  refine ⟨d'', migrations, h, ?_⟩
  rw [h.scripts "club", hschemas]
  decide +kernel

end MigrationBundle

end Tabularium
