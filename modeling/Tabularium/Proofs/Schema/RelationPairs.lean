import Tabularium.Proofs.Schema.ResolvedRelations

namespace Tabularium

variable {s : Schema} {base other : Table} {r : Relation} {rs found : List Relation} {a b : String}

namespace Relation

/-- A relation seen from its related table. -/
def mirror (r : Relation) : Relation where
  name := r.table
  kind :=
    match r.kind with
    | .belongsTo => .hasMany
    | .hasMany => .belongsTo
  table := r.related
  related := r.table
  foreignKey := r.foreignKey
  targetKey := r.targetKey

theorem byConvention?_joins (h : byConvention? base other = some r) :
    r.table = base.name ∧ r.related = other.name := by
  obtain ⟨-, ⟨-, rfl⟩ | ⟨-, -, rfl⟩⟩ := byConvention?_eq_some.mp h
  · exact ⟨rfl, rfl⟩
  · exact ⟨rfl, rfl⟩

/-- The relation back is the same one seen from its related table, or each of the two goes by a
foreign key of its own base table. -/
theorem byConvention?_back (h : byConvention? base other = some r) :
    ∃ r', byConvention? other base = some r'
      ∧ (r' = r.mirror ∨ r.kind = .belongsTo ∧ r'.kind = .belongsTo
        ∧ r'.foreignKey ∈ other.columns.map (·.name)) := by
  obtain ⟨hname, hcases⟩ := byConvention?_eq_some.mp h
  by_cases hback : keyTo base.name ∈ other.columns.map (·.name)
  · refine ⟨_, byConvention?_eq_some.mpr ⟨Ne.symm hname, .inl ⟨hback, rfl⟩⟩, ?_⟩
    obtain ⟨-, rfl⟩ | ⟨-, -, rfl⟩ := hcases
    · exact .inr ⟨rfl, rfl, hback⟩
    · exact .inl rfl
  · obtain ⟨hown, rfl⟩ | ⟨-, hother, -⟩ := hcases
    · exact ⟨_, byConvention?_eq_some.mpr ⟨Ne.symm hname, .inr ⟨hback, hown, rfl⟩⟩, .inl rfl⟩
    · exact absurd hother hback

/-- Of the two relations that a reference implies each is the other one seen from its related
table. -/
theorem find?_byReference (table : String) (column : Column) (a b : String) :
    (byReference table column).find? (·.joins b a)
      = ((byReference table column).find? (·.joins a b)).map mirror := by
  unfold byReference
  split
  next => rfl
  next target _ =>
    split
    next => rfl
    next hne =>
      by_cases hab : table = a ∧ target.table = b
      · obtain ⟨rfl, rfl⟩ := hab
        simp [joins, mirror, Ne.symm hne, hne]
      · by_cases hba : table = b ∧ target.table = a
        · obtain ⟨rfl, rfl⟩ := hba
          simp [joins, mirror, Ne.symm hne, hne]
        · have hback : ¬ (target.table = b ∧ table = a) := fun h => hab ⟨h.2, h.1⟩
          have hforth : ¬ (target.table = a ∧ table = b) := fun h => hba ⟨h.2, h.1⟩
          simp [joins, hab, hba, hback, hforth]

end Relation

namespace RelationMap

open Tabularium.Relation

theorem find?_put : (put r rs).find? (·.joins a b)
    = if r.joins a b then some r else rs.find? (·.joins a b) := by
  induction rs with
  | nil => simp [put, List.find?_singleton]
  | cons r₀ rs ih =>
    rw [put]
    split
    next hsame =>
      obtain ⟨htable, hrelated⟩ := joins_iff.mp hsame
      have hjoins : r₀.joins a b = r.joins a b := by rw [joins, joins, htable, hrelated]
      by_cases hr : r.joins a b <;> simp [hr, hjoins]
    next hother =>
      by_cases hr : r.joins a b
      · have h₀ : r₀.joins a b = false := by
          obtain ⟨rfl, rfl⟩ := joins_iff.mp hr
          simpa using hother
        rw [List.find?_cons_of_neg (by simp [h₀]), ih, if_pos hr, if_pos hr]
      · rw [List.find?_cons, ih, if_neg hr, if_neg hr, List.find?_cons]

/-- Of several relations between two tables the last one is kept. -/
theorem find?_foldl_put : (found.foldl (fun rs r => put r rs) rs).find? (·.joins a b)
    = (found.reverse.find? (·.joins a b)).or (rs.find? (·.joins a b)) := by
  induction found generalizing rs with
  | nil => rfl
  | cons r found ih =>
    rw [List.foldl_cons, ih, find?_put, List.reverse_cons, List.find?_append, Option.or_assoc]
    congr 1
    by_cases hr : r.joins a b <;> simp [hr]

/-- Of several relations between two tables the first one is kept. -/
theorem find?_foldl_add : (found.foldl add rs).find? (·.joins a b)
    = (rs.find? (·.joins a b)).or (found.find? (·.joins a b)) := by
  induction found generalizing rs with
  | nil => rw [List.foldl_nil, List.find?_nil, Option.or_none]
  | cons r found ih =>
    rw [List.foldl_cons, ih, find?_add, Option.or_assoc, ← List.find?_append, List.singleton_append]

theorem find?_conventional (hd : s.tableNames.Nodup) :
    (conventional s).find? (·.joins a b) = some r ↔
      ∃ base ∈ s.tables, ∃ other ∈ s.tables, base.name = a ∧ other.name = b
        ∧ byConvention? base other = some r := by
  have hmem : ∀ r, (conventional s).find? (·.joins a b) = some r →
      ∃ base ∈ s.tables, ∃ other ∈ s.tables, base.name = a ∧ other.name = b
        ∧ byConvention? base other = some r := by
    intro r h
    have hjoins : r.joins a b = true := by simpa using List.find?_some h
    obtain ⟨rfl, rfl⟩ := joins_iff.mp hjoins
    obtain ⟨base, hb, other, ho, hr⟩ := mem_conventional (List.mem_of_find?_eq_some h)
    obtain ⟨htable, hrelated⟩ := byConvention?_joins hr
    exact ⟨base, hb, other, ho, htable.symm, hrelated.symm, hr⟩
  refine ⟨hmem r, ?_⟩
  rintro ⟨base, hb, other, ho, rfl, rfl, hr⟩
  have hfound : ((conventional s).find? (·.joins base.name other.name)).isSome := by
    rw [conventional, find?_foldl_put, List.find?_nil, Option.or_none, List.find?_isSome]
    refine ⟨r, ?_, joins_iff.mpr (byConvention?_joins hr)⟩
    exact List.mem_reverse.mpr
      (List.mem_flatMap.mpr ⟨base, hb, List.mem_filterMap.mpr ⟨other, ho, hr⟩⟩)
  obtain ⟨r', hr'⟩ := Option.isSome_iff_exists.mp hfound
  obtain ⟨base', hb', other', ho', hbase, hother, hconv⟩ := hmem r' hr'
  obtain rfl := List.inj_on_of_nodup_map hd hb' hb hbase
  obtain rfl := List.inj_on_of_nodup_map hd ho' ho hother
  rw [hr', ← hconv, hr]

/-- The relation between two tables is the one that convention implies or else the first one that
references imply. -/
theorem get?_resolve : (resolve s).get? a b
    = ((conventional s).find? (·.joins a b)).or ((referenced s).find? (·.joins a b)) :=
  find?_foldl_add

theorem find?_flatMap_mirror {α : Type} {xs : List α} {f : α → List Relation}
    (h : ∀ x ∈ xs, (f x).find? (·.joins b a) = ((f x).find? (·.joins a b)).map mirror) :
    (xs.flatMap f).find? (·.joins b a) = ((xs.flatMap f).find? (·.joins a b)).map mirror := by
  induction xs with
  | nil => rfl
  | cons x xs ih =>
    obtain ⟨hx, h⟩ := List.forall_mem_cons.mp h
    rw [List.flatMap_cons, List.find?_append, List.find?_append, hx, ih h]
    cases (f x).find? (·.joins a b) <;> rfl

theorem find?_referenced (s : Schema) (a b : String) :
    (referenced s).find? (·.joins b a) = ((referenced s).find? (·.joins a b)).map mirror :=
  find?_flatMap_mirror fun table _ => find?_flatMap_mirror fun column _ =>
    find?_byReference table.name column a b

/-- Where there is a relation there is one back. -/
theorem get?_back (hd : s.tableNames.Nodup) (h : (resolve s).get? a b = some r) :
    ∃ r', (resolve s).get? b a = some r'
      ∧ (r' = r.mirror ∨ r.kind = .belongsTo ∧ r'.kind = .belongsTo
        ∧ ∃ t ∈ s.tables, t.name = b ∧ r'.foreignKey ∈ t.columns.map (·.name)) := by
  rw [get?_resolve] at h ⊢
  rcases Option.or_eq_some_iff.mp h with hconv | ⟨hnone, href⟩
  · obtain ⟨base, hb, other, ho, hbase, hother, hr⟩ := (find?_conventional hd).mp hconv
    obtain ⟨r', hr', hback⟩ := byConvention?_back hr
    have hfound := (find?_conventional hd).mpr ⟨other, ho, base, hb, hother, hbase, hr'⟩
    refine ⟨r', by rw [hfound, Option.some_or], hback.imp_right ?_⟩
    rintro ⟨hkind, hkind', hkey⟩
    exact ⟨hkind, hkind', other, ho, hother, hkey⟩
  · have hopen : (conventional s).find? (·.joins b a) = none := by
      -- a relation back by convention would be answered by one forth
      cases hfound : (conventional s).find? (·.joins b a) with
      | none => rfl
      | some r' =>
        obtain ⟨other, ho, base, hb, hother, hbase, hr'⟩ := (find?_conventional hd).mp hfound
        obtain ⟨r'', hr'', -⟩ := byConvention?_back hr'
        have hforth := (find?_conventional hd).mpr ⟨base, hb, other, ho, hbase, hother, hr''⟩
        rw [hnone] at hforth
        cases hforth
    refine ⟨r.mirror, ?_, .inl rfl⟩
    rw [hopen, Option.none_or, find?_referenced, href]
    rfl

/-- No table is related to itself. -/
theorem get?_self (hd : s.tableNames.Nodup) (a : String) : (resolve s).get? a a = none := by
  cases h : (resolve s).get? a a with
  | none => rfl
  | some r =>
    rw [get?_resolve] at h
    rcases Option.or_eq_some_iff.mp h with hconv | ⟨-, href⟩
    · obtain ⟨base, -, other, -, hbase, hother, hr⟩ := (find?_conventional hd).mp hconv
      exact absurd (hbase.trans hother.symm) (byConvention?_eq_some.mp hr).1
    · have hjoins : r.joins a a = true := by simpa using List.find?_some href
      obtain ⟨htable, hrelated⟩ := joins_iff.mp hjoins
      obtain ⟨base, -, column, -, hr⟩ := mem_referenced (List.mem_of_find?_eq_some href)
      obtain ⟨target, -, hne, rfl | rfl⟩ := mem_byReference.mp hr
      · exact absurd (hrelated.trans htable.symm) hne
      · exact absurd (htable.trans hrelated.symm) hne

/-- Two tables of a compiled schema are related both ways or not at all. When one has many of the
other, the other belongs to it by the same two keys; when one belongs to the other, the other has
many of it by the same two keys or belongs to it by a foreign key of its own. -/
theorem resolve_paired {d : Definition} (h : d.compile = .ok s) (a b : String) :
    (((resolve s).get? a b).isSome ↔ ((resolve s).get? b a).isSome)
      ∧ (∀ r, (resolve s).get? a b = some r → r.kind = .hasMany →
        (resolve s).get? b a = some r.mirror)
      ∧ (∀ r, (resolve s).get? a b = some r → r.kind = .belongsTo →
        (resolve s).get? b a = some r.mirror ∨ ∃ r', (resolve s).get? b a = some r'
          ∧ r'.kind = .belongsTo
          ∧ ∃ t ∈ s.tables, t.name = b ∧ r'.foreignKey ∈ t.columns.map (·.name))
      ∧ (resolve s).get? a a = none := by
  have hd := (Definition.compile_wellFormed h).tablesDistinct
  have hsome : ∀ a b, ((resolve s).get? a b).isSome → ((resolve s).get? b a).isSome := by
    intro a b hab
    obtain ⟨r, hr⟩ := Option.isSome_iff_exists.mp hab
    obtain ⟨r', hr', -⟩ := get?_back hd hr
    exact Option.isSome_iff_exists.mpr ⟨r', hr'⟩
  refine ⟨⟨hsome a b, hsome b a⟩, fun r hr hkind => ?_, fun r hr hkind => ?_, get?_self hd a⟩
  · obtain ⟨r', hr', rfl | ⟨hown, -⟩⟩ := get?_back hd hr
    · exact hr'
    · rw [hkind] at hown
      cases hown
  · obtain ⟨r', hr', rfl | ⟨-, hown, hkey⟩⟩ := get?_back hd hr
    · exact .inl hr'
    · exact .inr ⟨r', hr', hown, hkey⟩

/-- Users and teams that each have a column for the other, and posts that refer to the names of
users. -/
def teams : Definition :=
  ({ name := "club" } : Definition).column "users" "id" "integer primary key"
    |>.column "users" "name" "text unique"
    |>.column "users" "teamId" "integer"
    |>.column "teams" "id" "integer primary key"
    |>.column "teams" "userId" "integer"
    |>.column "posts" "author" "text -> users.name"

def teamsSchema : Schema :=
  ⟨"club", 1, [
    { name := "users"
      columns := [{ name := "id", type := .integer, primaryKey := true },
        { name := "name", type := .text, unique := true },
        { name := "teamId", type := .integer }] },
    { name := "teams"
      columns := [{ name := "id", type := .integer, primaryKey := true },
        { name := "userId", type := .integer }] },
    { name := "posts"
      columns := [{ name := "author", type := .text,
                    references := some ⟨"users", "name", none⟩ }] }]⟩

theorem teams_compiles : teams.compile = .ok teamsSchema := by decide +kernel

theorem resolve_paired_teams :
    teams.compile = .ok teamsSchema
      ∧ (resolve teamsSchema).get? "users" "posts"
        = some ⟨"posts", .hasMany, "users", "posts", "author", "name"⟩
      ∧ (resolve teamsSchema).get? "posts" "users"
        = some ⟨"users", .belongsTo, "posts", "users", "author", "name"⟩
      ∧ (resolve teamsSchema).get? "users" "teams"
        = some ⟨"teams", .belongsTo, "users", "teams", "teamId", "id"⟩
      ∧ ∃ r, (resolve teamsSchema).get? "teams" "users" = some r := by
  have hposts : (resolve teamsSchema).get? "users" "posts"
      = some ⟨"posts", .hasMany, "users", "posts", "author", "name"⟩ := by decide +kernel
  have hteams : (resolve teamsSchema).get? "users" "teams"
      = some ⟨"teams", .belongsTo, "users", "teams", "teamId", "id"⟩ := by decide +kernel
  obtain ⟨-, hmany, -, -⟩ := resolve_paired teams_compiles "users" "posts"
  obtain ⟨hboth, -, -, -⟩ := resolve_paired teams_compiles "users" "teams"
  refine ⟨teams_compiles, hposts, hmany _ hposts rfl, hteams, ?_⟩
  exact Option.isSome_iff_exists.mp (hboth.mp (by rw [hteams]; rfl))

end RelationMap

end Tabularium
