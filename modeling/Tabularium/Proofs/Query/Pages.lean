import Tabularium.Proofs.Query.Paging

namespace Tabularium

namespace BuilderCall

/-- The number of rows that a call limits a query to. -/
def limit? : BuilderCall → Option UInt64
  | take n => some n
  | _ => none

/-- The number of rows or of a page that a call passes over. -/
def offset? : BuilderCall → Option UInt64
  | skip n => some n
  | _ => none

/-- The last limit that calls give. -/
def lastLimit (calls : List BuilderCall) : Option UInt64 :=
  (calls.filterMap limit?).getLast?

/-- The call says nothing of how many rows are taken or passed over. -/
def keepsPaging (call : BuilderCall) : Bool :=
  call.limit?.isNone && call.offset?.isNone

/-- The paging that calls ask for. Of several limits the last one counts, and of several offsets as
well. An offset without a limit in front of it is a number of rows. Behind a limit it is a page,
counted from one, of the size of the last limit, wherever that stands; page zero is the first, and
more rows than a word of 64 bits holds are not passed over. -/
structure Asks (calls : List BuilderCall) (p : Paging) : Prop where
  limit : p.limit = (lastLimit calls).map UInt64.toNat
  unset : calls.filterMap offset? = [] → p.offset = none
  rows : ∀ before n after, calls = before ++ skip n :: after → after.filterMap offset? = [] →
    before.filterMap limit? = [] → p.offset = some n.toNat
  page : ∀ before n after, calls = before ++ skip n :: after → after.filterMap offset? = [] →
    before.filterMap limit? ≠ [] → ∃ size, lastLimit calls = some size
      ∧ p.offset = some (min ((max n.toNat 1 - 1) * size.toNat) (2 ^ 64 - 1))

theorem lastLimit_append (before after : List BuilderCall) :
    lastLimit (before ++ after) = (lastLimit after).or (lastLimit before) := by
  rw [lastLimit, List.filterMap_append, List.getLast?_append]
  rfl

theorem lastLimit_eq_none {calls : List BuilderCall} :
    lastLimit calls = none ↔ calls.filterMap limit? = [] :=
  List.getLast?_eq_none_iff

end BuilderCall

namespace Query

open BuilderCall (limit? offset? lastLimit)

variable {q : Query} {calls before after : List BuilderCall} {table : String} {s : Statement}

theorem apply_limit (call : BuilderCall) : (call.apply q).limit = call.limit?.or q.limit := by
  cases call with
  | including related =>
    rw [BuilderCall.apply, including]
    split <;> rfl
  | _ => rfl

theorem foldl_limit : (calls.foldl BuilderCall.apply q).limit = (lastLimit calls).or q.limit := by
  induction calls generalizing q with
  | nil => rfl
  | cons call calls ih =>
    rw [List.foldl_cons, ih, apply_limit, ← List.singleton_append, BuilderCall.lastLimit_append,
      Option.or_assoc]
    cases call <;> rfl

theorem apply_offset {call : BuilderCall} (h : call.offset? = none) :
    (call.apply q).offset = q.offset := by
  cases call with
  | including related =>
    rw [BuilderCall.apply, including]
    split <;> rfl
  | skip n => cases h
  | _ => rfl

theorem foldl_offset (h : calls.filterMap offset? = []) :
    (calls.foldl BuilderCall.apply q).offset = q.offset := by
  rw [List.filterMap_eq_nil_iff] at h
  induction calls generalizing q with
  | nil => rfl
  | cons call calls ih =>
    obtain ⟨hcall, hcalls⟩ := List.forall_mem_cons.mp h
    rw [List.foldl_cons, ih hcalls, apply_offset hcall]

theorem build_limit (table : String) (calls : List BuilderCall) :
    (build table calls).limit = lastLimit calls := by
  rw [build, foldl_limit, Option.or_none]

theorem build_offset_none (h : calls.filterMap offset? = []) : (build table calls).offset = none :=
  foldl_offset h

/-- The meaning of an offset is settled by the calls in front of it. -/
theorem build_offset {n : UInt64} (h : after.filterMap offset? = []) :
    (build table (before ++ .skip n :: after)).offset =
      some (if (lastLimit before).isSome then .page n else .rows n) := by
  rw [build, List.foldl_append, List.foldl_cons, foldl_offset h, ← build_limit table before]
  rfl

theorem apply_unpaged (call : BuilderCall) : (call.apply q).unpaged =
    if call.keepsPaging then call.apply q.unpaged else q.unpaged := by
  cases call with
  | including related =>
    have hkeeps : (BuilderCall.including related).keepsPaging = true := rfl
    have hincludes : q.unpaged.includes = q.includes := rfl
    rw [if_pos hkeeps]
    show (q.including related).unpaged = q.unpaged.including related
    rw [including, including, hincludes]
    split <;> rfl
  | _ => rfl

/-- What a query asks for beside its paging comes from the other calls. -/
theorem build_unpaged (table : String) (calls : List BuilderCall) :
    (build table calls).unpaged = build table (calls.filter BuilderCall.keepsPaging) := by
  have hfold : ∀ q : Query, (calls.foldl BuilderCall.apply q).unpaged =
      (calls.filter BuilderCall.keepsPaging).foldl BuilderCall.apply q.unpaged := by
    induction calls with
    | nil => exact fun q => rfl
    | cons call calls ih =>
      intro q
      rw [List.foldl_cons, ih, apply_unpaged, List.filter_cons]
      split <;> rfl
  exact hfold { table }

/-- The paging of a query comes from the calls for it. -/
theorem foldl_paging (calls : List BuilderCall) (q q' : Query) (hl : q.limit = q'.limit)
    (ho : q.offset = q'.offset) :
    (calls.foldl BuilderCall.apply q).limit =
        ((calls.filter (!·.keepsPaging)).foldl BuilderCall.apply q').limit ∧
      (calls.foldl BuilderCall.apply q).offset =
        ((calls.filter (!·.keepsPaging)).foldl BuilderCall.apply q').offset := by
  induction calls generalizing q q' with
  | nil => exact ⟨hl, ho⟩
  | cons call calls ih =>
    rw [List.foldl_cons, List.filter_cons]
    cases hkeeps : call.keepsPaging with
    | true =>
      have hnone := hkeeps
      simp only [BuilderCall.keepsPaging, Bool.and_eq_true, Option.isNone_iff_eq_none] at hnone
      refine ih _ _ ?_ ((apply_offset hnone.2).trans ho)
      rw [apply_limit, hnone.1, Option.none_or, hl]
    | false =>
      refine ih _ _ ?_ ?_
      · rw [apply_limit, apply_limit, hl]
      · cases call with
        | skip n => simp only [BuilderCall.apply, skip, hl]
        | take n => exact ho
        | _ => cases hkeeps

theorem skipped_page (size n : UInt64) : (Offset.page n).skipped size =
    min ((max n.toNat 1 - 1) * size.toNat) (2 ^ 64 - 1) := by
  have hpage : max n.toNat 1 - 1 = n.toNat - 1 := by omega
  rw [hpage]
  rfl

/-- Whatever calls build a query, its statement ends in the paging that they ask for. -/
theorem build_asks (table : String) (calls : List BuilderCall) :
    BuilderCall.Asks calls ((build table calls).pagingWith (build table calls).limit) where
  limit := by rw [pagingWith, build_limit]
  unset h := by rw [pagingWith, build_offset_none h, Option.map_none]
  rows before n after hcalls hafter hbefore := by
    subst hcalls
    rw [pagingWith, build_offset hafter, BuilderCall.lastLimit_eq_none.mpr hbefore]
    rfl
  page before n after hcalls hafter hbefore := by
    subst hcalls
    obtain ⟨m, hm⟩ := Option.ne_none_iff_exists'.mp (mt BuilderCall.lastLimit_eq_none.mp hbefore)
    obtain ⟨size, hsize⟩ : ∃ size, lastLimit (before ++ .skip n :: after) = some size := by
      rw [BuilderCall.lastLimit_append, hm]
      cases lastLimit (.skip n :: after) with
      | none => exact ⟨m, rfl⟩
      | some size => exact ⟨size, rfl⟩
    refine ⟨size, hsize, ?_⟩
    rw [pagingWith, build_offset hafter, build_limit, hsize, hm]
    exact congrArg some (skipped_page size n)

/-- The statements have pages of one result: beside the paging they are the same, and page by page
they select what there is, `size` rows each, without a gap or a row twice, as long as the number of
rows up to the page fits into a word. However large the page is, it starts behind the pages in front
of it. -/
structure Tiles (size : Nat) (page : UInt64 → Statement) : Prop where
  alike : ∀ p p', (page p).body = (page p').body ∧ (page p).params = (page p').params
  window : ∀ p, 1 ≤ p.toNat → p.toNat * size < 2 ^ 64 → ∀ {α : Type} (rows : List α),
    (page p).paging.window rows = (rows.drop ((p.toNat - 1) * size)).take size
  position : ∀ p, 1 ≤ p.toNat → p.toNat * size < 2 ^ 64 → ∀ m i,
    i ∈ (page p).paging.window (List.range m) ↔ i < m ∧ i / size + 1 = p.toNat
  whole : ∀ k, k * size < 2 ^ 64 → ∀ {α : Type} (rows : List α),
    ((List.range k).flatMap fun i => (page (.ofNat (i + 1))).paging.window rows) =
      rows.take (k * size)
  ascends : ∀ p p', p ≤ p' → ∃ m m', (page p).paging.offset = some m
    ∧ (page p').paging.offset = some m' ∧ m ≤ m'

/-- Parts of one size that follow each other are the whole. -/
theorem flatMap_windows {α : Type} (rows : List α) (size k : Nat) :
    ((List.range k).flatMap fun i => (rows.drop (i * size)).take size) = rows.take (k * size) := by
  induction k with
  | zero => simp
  | succ k ih => rw [List.range_succ, List.flatMap_append, ih, Nat.succ_mul, List.take_add,
      List.flatMap_singleton]

theorem mem_window_range {size p : Nat} (hs : 1 ≤ size) (hp : 1 ≤ p) (m i : Nat) :
    i ∈ ((List.range m).drop ((p - 1) * size)).take size ↔ i < m ∧ i / size + 1 = p := by
  have hpage : i / size = p - 1 ↔ (p - 1) * size ≤ i ∧ i ≤ (p - 1) * size + size - 1 :=
    Nat.div_eq_iff hs
  rw [List.take_drop, List.take_range, List.range_eq_range', List.drop_range', List.mem_range'_1]
  omega

theorem tiles_of_paging {size : Nat} {page : UInt64 → Statement} (hs : 1 ≤ size)
    (alike : ∀ p p', (page p).body = (page p').body ∧ (page p).params = (page p').params)
    (hp : ∀ p, (page p).paging =
      ⟨some size, some (min ((max p.toNat 1 - 1) * size) (2 ^ 64 - 1))⟩) : Tiles size page := by
  have hwindow : ∀ p : UInt64, 1 ≤ p.toNat → p.toNat * size < 2 ^ 64 → ∀ {α : Type}
      (rows : List α), (page p).paging.window rows =
        (rows.drop ((p.toNat - 1) * size)).take size := by
    intro p hfirst hfits α rows
    have hle : (p.toNat - 1) * size ≤ p.toNat * size := Nat.mul_le_mul_right _ (Nat.sub_le _ _)
    have hoffset : min ((max p.toNat 1 - 1) * size) (2 ^ 64 - 1) = (p.toNat - 1) * size := by
      rw [Nat.max_eq_left hfirst, Nat.min_eq_left (by omega)]
    rw [hp, hoffset]
    rfl
  refine ⟨alike, hwindow, fun p hfirst hfits m i => ?_, fun k hk α rows => ?_, fun p p' hle => ?_⟩
  · rw [hwindow p hfirst hfits, mem_window_range hs hfirst]
  · rw [← flatMap_windows]
    refine List.flatMap_congr fun i hi => ?_
    have hik : (i + 1) * size ≤ k * size := Nat.mul_le_mul_right _ (List.mem_range.mp hi)
    have hword : (UInt64.ofNat (i + 1)).toNat = i + 1 := by
      have := Nat.le_mul_of_pos_right (i + 1) hs
      exact UInt64.toNat_ofNat_of_lt' (by show i + 1 < 2 ^ 64; omega)
    rw [hwindow _ (by omega) (by rw [hword]; omega), hword, Nat.add_sub_cancel]
  · refine ⟨_, _, by rw [hp], by rw [hp], ?_⟩
    have hnat : p.toNat ≤ p'.toNat := hle
    have hmul : (max p.toNat 1 - 1) * size ≤ (max p'.toNat 1 - 1) * size :=
      Nat.mul_le_mul_right _ (by omega)
    omega

/-- The paging of a statement is what the calls ask for. It comes from the calls for a limit and an
offset alone, and the pages that such calls can ask for tile the result. -/
structure Paged (table : String) (calls : List BuilderCall) (s : Statement) : Prop where
  asks : BuilderCall.Asks calls s.paging
  alone : ∀ table' calls' s', calls'.filter (!·.keepsPaging) = calls.filter (!·.keepsPaging) →
    (build table' calls').compile = .ok s' → s'.paging = s.paging
  tiles : ∀ before n after size, calls = before ++ .skip n :: after →
    after.filterMap offset? = [] → before.filterMap limit? ≠ [] → lastLimit calls = some size →
    1 ≤ size.toNat → ∃ page : UInt64 → Statement,
      (∀ p, (build table (before ++ .skip p :: after)).compile = .ok (page p)) ∧
        Tiles size.toNat page

theorem compile_paging (h : (build table calls).compile = .ok s) :
    s.paging = (build table calls).pagingWith (build table calls).limit := by
  obtain ⟨whole, -, -, hcut⟩ := render_cut h
  rw [Statement.paging, hcut]

theorem pagingWith_alone {table' : String} {calls' : List BuilderCall}
    (h : calls'.filter (!·.keepsPaging) = calls.filter (!·.keepsPaging)) :
    (build table' calls').pagingWith (build table' calls').limit =
      (build table calls).pagingWith (build table calls).limit := by
  obtain ⟨hlimit, hoffset⟩ := foldl_paging calls { table } { table } rfl rfl
  obtain ⟨hlimit', hoffset'⟩ := foldl_paging calls' { table := table' } { table } rfl rfl
  rw [h] at hlimit' hoffset'
  have hl : (build table' calls').limit = (build table calls).limit := hlimit'.trans hlimit.symm
  have ho : (build table' calls').offset = (build table calls).offset :=
    hoffset'.trans hoffset.symm
  rw [pagingWith, pagingWith, hl, ho]

/-- Another page is asked for by the same calls with another number, and nothing else changes. -/
theorem compile_turned {n : UInt64} (h : (build table (before ++ .skip n :: after)).compile = .ok s)
    (p : UInt64) : ∃ s', (build table (before ++ .skip p :: after)).compile = .ok s'
      ∧ s'.body = s.body ∧ s'.params = s.params := by
  have hsame : (build table (before ++ .skip p :: after)).unpaged =
      (build table (before ++ .skip n :: after)).unpaged := by
    simp only [build_unpaged, List.filter_append, List.filter_cons]
    rfl
  obtain ⟨whole, hwhole, hparams, hcut⟩ := render_cut h
  obtain ⟨s', hs'⟩ : ∃ s', (build table (before ++ .skip p :: after)).compile = .ok s' := by
    rw [compile, render_eq, hsame, hwhole]
    exact ⟨_, rfl⟩
  obtain ⟨whole', hwhole', hparams', hcut'⟩ := render_cut hs'
  cases (hsame ▸ hwhole').symm.trans hwhole
  refine ⟨s', hs', ?_, hparams'.trans hparams.symm⟩
  rw [Statement.body, Statement.body, hcut, hcut']

/-- Whatever calls build a query that compiles, its pages tile the result. -/
theorem compile_paged (h : (build table calls).compile = .ok s) : Paged table calls s where
  asks := by
    rw [compile_paging h]
    exact build_asks table calls
  alone table' calls' s' hsame hs' := by
    rw [compile_paging h, compile_paging hs', pagingWith_alone hsame]
  tiles before n after size hcalls hafter hbefore hsize hpos := by
    subst hcalls
    have hturned := compile_turned h
    choose page hpage hbody hparams using hturned
    refine ⟨page, hpage, tiles_of_paging hpos (fun p p' => ?_) fun p => ?_⟩
    · exact ⟨(hbody p).trans (hbody p').symm, (hparams p).trans (hparams p').symm⟩
    · have hasks := build_asks table (before ++ .skip p :: after)
      rw [← compile_paging (hpage p)] at hasks
      have hlast : lastLimit (before ++ .skip p :: after) = some size := by
        rw [← hsize, BuilderCall.lastLimit_append, BuilderCall.lastLimit_append]
        rfl
      obtain ⟨size', hsize', hoffset⟩ := hasks.page before p after rfl hafter hbefore
      cases hlast.symm.trans hsize'
      have hlimit := hasks.limit
      rw [hlast] at hlimit
      exact Paging.ext hlimit hoffset

/-- Pages of a size that is changed behind the page number. -/
def resizedCalls : List BuilderCall :=
  [.skip 9, .take 3, .orderBy "rank" .desc, .skip 4, .including "users", .take 2]

theorem compile_paged_resized : ∃ s, (build "posts" resizedCalls).compile = .ok s
    ∧ s.sql = "SELECT * FROM posts ORDER BY rank DESC LIMIT 2 OFFSET 6"
    ∧ Paged "posts" resizedCalls s ∧ ∃ page : UInt64 → Statement,
      (∀ p, (build "posts" ([.skip 9, .take 3, .orderBy "rank" .desc] ++
        .skip p :: [.including "users", .take 2])).compile = .ok (page p)) ∧ Tiles 2 page := by
  have hcompiles : (build "posts" resizedCalls).compile =
      .ok ⟨"SELECT * FROM posts ORDER BY rank DESC LIMIT 2 OFFSET 6", []⟩ := rfl
  have hpaged := compile_paged hcompiles
  exact ⟨_, hcompiles, rfl, hpaged,
    hpaged.tiles _ 4 _ 2 rfl rfl (by simp [limit?]) rfl (by decide)⟩

end Query

end Tabularium
