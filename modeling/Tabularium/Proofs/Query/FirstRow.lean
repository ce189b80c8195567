import Tabularium.Proofs.Query.Pages

namespace Tabularium

namespace Query

open BuilderCall (lastLimit)

variable {q : Query} {calls : List BuilderCall} {table : String} {s : Statement}

/-- One row behind an offset is the first of those that a limit leaves there, unless it leaves
none. -/
theorem window_one {α : Type} (limit offset : Option Nat) (hl : limit ≠ some 0) (rows : List α) :
    Paging.window ⟨some 1, offset⟩ rows = (Paging.window ⟨limit, offset⟩ rows).take 1 := by
  cases limit with
  | none => rfl
  | some n =>
    have hn : min 1 n = 1 := by
      have : n ≠ 0 := fun h => hl (congrArg some h)
      omega
    rw [Paging.window, Paging.window, List.take_take, hn]

/-- Where a limit leaves no row, one row behind the offset is still there, if there are enough. -/
theorem window_one_beyond (offset : Option Nat) : ∃ rows : List Nat,
    Paging.window ⟨some 1, offset⟩ rows ≠ (Paging.window ⟨some 0, offset⟩ rows).take 1 :=
  ⟨List.replicate (offset.getD 0 + 1) 7, by simp [Paging.window]⟩

/-- The statement for the first row has only another limit. -/
theorem compileFirst_of_compile (h : q.compile = .ok s) : ∃ first, q.compileFirst = .ok first
    ∧ first.body = s.body ∧ first.params = s.params
    ∧ first.paging = ⟨some 1, s.paging.offset⟩ := by
  obtain ⟨whole, hwhole, hparams, hcut⟩ := render_cut h
  obtain ⟨first, hfirst⟩ : ∃ first, q.compileFirst = .ok first := by
    rw [compileFirst, render_eq, hwhole]
    exact ⟨_, rfl⟩
  obtain ⟨whole', hwhole', hparams', hcut'⟩ := render_cut hfirst
  cases hwhole.symm.trans hwhole'
  refine ⟨first, hfirst, ?_, hparams'.trans hparams.symm, ?_⟩
  · rw [Statement.body, Statement.body, hcut, hcut']
  · rw [Statement.paging, Statement.paging, hcut, hcut']
    rfl

/-- What selects the first row of a query asks the store for what the query asks for, and takes one
of the rows behind those that the query passes over. Whatever rows there are, that is the first row
of the query or none if it has none, exactly when the last limit is not zero: then the query has no
row. -/
theorem compileFirst_cuts_iff (h : (build table calls).compile = .ok s) :
    ∃ first, (build table calls).compileFirst = .ok first ∧ first.body = s.body
      ∧ first.params = s.params
      ∧ ((∀ {α : Type} (rows : List α), first.paging.window rows = (s.paging.window rows).take 1)
        ↔ lastLimit calls ≠ some 0) := by
  obtain ⟨first, hfirst, hbody, hparams, hpaging⟩ := compileFirst_of_compile h
  have hlimit : s.paging.limit = (lastLimit calls).map UInt64.toNat := by
    rw [compile_paging h, pagingWith, build_limit]
  refine ⟨first, hfirst, hbody, hparams, ?_⟩
  rw [hpaging]
  constructor
  · intro hcuts hzero
    obtain ⟨rows, hrows⟩ := window_one_beyond s.paging.offset
    rw [hzero] at hlimit
    have hs : s.paging = ⟨some 0, s.paging.offset⟩ := Paging.ext hlimit rfl
    exact hrows (hs ▸ hcuts rows)
  · intro hzero α rows
    refine window_one s.paging.limit s.paging.offset (fun hs => hzero ?_) rows
    rw [hlimit] at hs
    obtain ⟨n, hn, hvalue⟩ := Option.map_eq_some_iff.mp hs
    rw [hn, UInt64.toNat_inj.mp (hvalue.trans UInt64.toNat_zero.symm)]

/-- A page that starts behind other rows, of a size that replaces the limit of no rows. -/
def latestPosts : List BuilderCall :=
  [.take 0, .filterBy (.record [("draft", .bool false)]), .skip 4, .take 5, .orderBy "rank" .desc]

theorem compileFirst_cuts_iff_latestPosts :
    ∃ s first, (build "posts" latestPosts).compile = .ok s
      ∧ s.sql = "SELECT * FROM posts WHERE draft = ? ORDER BY rank DESC LIMIT 5 OFFSET 15"
      ∧ (build "posts" latestPosts).compileFirst = .ok first ∧ first.body = s.body
      ∧ first.params = s.params
      ∧ ∀ {α : Type} (rows : List α),
        first.paging.window rows = (s.paging.window rows).take 1 := by
  have hcompiles : (build "posts" latestPosts).compile = .ok
    ⟨"SELECT * FROM posts WHERE draft = ? ORDER BY rank DESC LIMIT 5 OFFSET 15", [.bool false]⟩ :=
      rfl
  obtain ⟨first, hfirst, hbody, hparams, hcuts⟩ := compileFirst_cuts_iff hcompiles
  exact ⟨_, first, hcompiles, rfl, hfirst, hbody, hparams, hcuts.mpr (by decide)⟩

/-- A query that is limited to no row has a first row. -/
theorem first_of_no_rows : ∃ s first, (build "posts" [.take 0]).compile = .ok s
    ∧ (build "posts" [.take 0]).compileFirst = .ok first ∧ first.body = s.body
    ∧ first.params = s.params ∧ s.paging.window [7] = [] ∧ first.paging.window [7] = [7]
    ∧ first.paging.window [7] ≠ (s.paging.window [7]).take 1 :=
  ⟨⟨"SELECT * FROM posts LIMIT 0", []⟩, ⟨"SELECT * FROM posts LIMIT 1", []⟩, rfl, rfl, rfl, rfl,
    rfl, rfl, by decide⟩

end Query

end Tabularium
