import Tabularium.Store.Dialogue

namespace Tabularium

/-- A call with the reply to it. -/
structure Exchange where
  call : Call
  reply : RowsResult

namespace Dialogue

variable {α β : Type} {allowed : List Exchange → Call → Prop}

/-- Whatever the replies are, each further call is allowed after the exchanges before it, and the
outcome is right after all of them. -/
def Keeps (allowed : List Exchange → Call → Prop) (right : List Exchange → α → Prop) :
    List Exchange → Dialogue α → Prop
  | past, finish x => right past x
  | past, ask call resume =>
    allowed past call ∧ ∀ reply, Keeps allowed right (past ++ [⟨call, reply⟩]) (resume reply)

theorem keeps_pure {right : List Exchange → α → Prop} {past : List Exchange} {x : α}
    (h : right past x) : Keeps allowed right past (pure x) :=
  h

theorem keeps_bind {middle : List Exchange → α → Prop} {right : List Exchange → β → Prop}
    {past : List Exchange} {d : Dialogue α} {f : α → Dialogue β} (h : Keeps allowed middle past d)
    (next : ∀ past x, middle past x → Keeps allowed right past (f x)) :
    Keeps allowed right past (d >>= f) := by
  induction d generalizing past with
  | finish x => exact next past x h
  | ask call resume ih => exact ⟨h.1, fun reply => ih reply (h.2 reply)⟩

theorem keeps_map {right : List Exchange → β → Prop} {past : List Exchange} {d : Dialogue α}
    {f : α → β} (h : Keeps allowed (fun past x => right past (f x)) past d) :
    Keeps allowed right past (f <$> d) :=
  keeps_bind h fun _ _ hx => keeps_pure hx

/-- A dialogue that goes on with the outcome of another is run behind it, in the state that the
other leaves. -/
theorem run_bind {σ : Type} (serve : σ → Call → RowsResult × σ) (state : σ) (d : Dialogue α)
    (f : α → Dialogue β) : (d >>= f).run serve state =
      (f (d.run serve state).1).run serve (d.run serve state).2 := by
  induction d generalizing state with
  | finish x => rfl
  | ask call resume ih => exact ih (serve state call).1 (serve state call).2

/-- The dialogue makes the calls of the exchanges and comes to the outcome when it is given the
replies of them. -/
inductive Plays : Dialogue α → List Exchange → α → Prop
  | finish (x : α) : Plays (finish x) [] x
  | ask {call : Call} {resume : RowsResult → Dialogue α} {reply : RowsResult} {es : List Exchange}
    {x : α} (rest : Plays (resume reply) es x) : Plays (ask call resume) (⟨call, reply⟩ :: es) x

theorem plays_pure {x y : α} {es : List Exchange} :
    (pure x : Dialogue α).Plays es y ↔ es = [] ∧ y = x := by
  constructor
  · intro played
    cases played
    exact ⟨rfl, rfl⟩
  · rintro ⟨rfl, rfl⟩
    exact .finish y

/-- A dialogue that goes on with the outcome of another is played one behind the other. -/
theorem plays_bind {d : Dialogue α} {f : α → Dialogue β} {es : List Exchange} {y : β} :
    (d >>= f).Plays es y
      ↔ ∃ first x rest, d.Plays first x ∧ (f x).Plays rest y ∧ es = first ++ rest := by
  constructor
  · intro played
    induction d generalizing es with
    | finish x => exact ⟨[], x, es, .finish x, played, rfl⟩
    | ask call resume ih =>
      cases played with
      | ask more =>
        obtain ⟨first, x, rest, hfirst, hrest, rfl⟩ := ih _ more
        exact ⟨_ :: first, x, rest, .ask hfirst, hrest, rfl⟩
  · rintro ⟨first, x, rest, hfirst, hrest, rfl⟩
    induction hfirst with
    | finish x => exact hrest
    | ask _ ih => exact .ask (ih hrest)

/-- A store that gives replies in turn, whatever it is asked, and keeps what was said. -/
def answering (replies : Nat → RowsResult) (past : List Exchange) (call : Call) :
    RowsResult × List Exchange :=
  (replies past.length, past ++ [⟨call, replies past.length⟩])

/-- What is said to a store that gives replies in turn is played with these replies. -/
theorem plays_answering (replies : Nat → RowsResult) (d : Dialogue α) (past : List Exchange) :
    ∃ es, (d.run (answering replies) past).2 = past ++ es
      ∧ d.Plays es (d.run (answering replies) past).1
      ∧ es.map (·.reply) = (List.range' past.length es.length).map replies := by
  induction d generalizing past with
  | finish x => exact ⟨[], by simp [run], .finish x, rfl⟩
  | ask call resume ih =>
    obtain ⟨es, kept, played, answered⟩ :=
      ih (replies past.length) (past ++ [⟨call, replies past.length⟩])
    refine ⟨⟨call, replies past.length⟩ :: es, ?_, .ask played, ?_⟩
    · rw [run, answering, kept, List.append_assoc, List.singleton_append]
    · rw [List.map_cons, answered, List.length_append, List.length_singleton, List.length_cons,
        List.range'_succ, List.map_cons]

theorem reply_eq {replies : Nat → RowsResult} {es : List Exchange} {e : Exchange} {i : Nat}
    (answered : es.map (·.reply) = (List.range' 0 es.length).map replies) (he : es[i]? = some e) :
    e.reply = replies i := by
  obtain ⟨hi, rfl⟩ := List.getElem?_eq_some_iff.mp he
  have there := congrArg (·[i]?) answered
  simpa [hi] using there

/-- Every call of a dialogue that was played was allowed when it was made, and its outcome is
right. -/
theorem Plays.kept {right : List Exchange → α → Prop} {past es : List Exchange} {d : Dialogue α}
    {x : α} (played : d.Plays es x) (h : Keeps allowed right past d) :
    right (past ++ es) x ∧
      ∀ earlier e, earlier ++ [e] <+: es → allowed (past ++ earlier) e.call := by
  induction played generalizing past with
  | finish x =>
    rw [List.append_nil]
    refine ⟨h, fun earlier e start => ?_⟩
    simp at start
  | @ask call resume reply es x _ ih =>
    obtain ⟨hright, hrest⟩ := ih (h.2 reply)
    refine ⟨by simpa using hright, fun earlier e start => ?_⟩
    cases earlier with
    | nil =>
      have first : e = ⟨call, reply⟩ := by simpa using start
      simpa [first] using h.1
    | cons e' earlier =>
      obtain ⟨rfl, later⟩ := List.cons_prefix_cons.mp start
      simpa using hrest earlier e later

end Dialogue

end Tabularium
