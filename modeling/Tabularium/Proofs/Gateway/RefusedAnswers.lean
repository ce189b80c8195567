import Mathlib.Data.List.Basic
import Tabularium.Gateway.Client

namespace Tabularium

namespace Client

variable {op : Operation} {r : HttpResponse} {bookmark : Option String}

/-- A client is told of a success only when the status of the answer is one and its body says so,
and it is told why when the status is none. -/
structure Tells (op : Operation) (r : HttpResponse) (told : QueryResult op.Payload) : Prop where
  success : told.success = true → Http.isSuccess r.status = true
    ∧ ∃ carried, Draft.decode op.readResult r.body = .ok carried ∧ carried.success = true
  refusal : Http.isSuccess r.status = false →
    told.success = false ∧ ∃ message, told.error = some message ∧ message ≠ ""

/-- The body says why an operation was refused: it carries a failure with a message, or it carries
no result and is not the document of a refusal that is left blank. -/
inductive Explains (op : Operation) (body : String) : Prop
  | failure {carried : QueryResult op.Payload} {message : String}
    (decoded : Draft.decode op.readResult body = .ok carried) (failed : carried.success = false)
    (told : carried.error = some message) (named : message ≠ "")
  | refusal {refusal : ErrorBody} (other : ∀ carried, Draft.decode op.readResult body ≠ .ok carried)
    (decoded : Draft.decode ErrorBody.read body = .ok refusal)
    (named : refusal.error ≠ "" ∨ refusal.reason ≠ none)
  | text (other : ∀ carried, Draft.decode op.readResult body ≠ .ok carried)
    (free : ∀ refusal, Draft.decode ErrorBody.read body ≠ .ok refusal)

theorem withBookmark_success {α : Type} (bookmark : Option String) (r : QueryResult α) :
    (withBookmark bookmark r).success = r.success ∧ (withBookmark bookmark r).error = r.error := by
  cases bookmark <;> exact ⟨rfl, rfl⟩

theorem present_success (r : QueryResult op.Payload) :
    (present op r).success = r.success ∧ (present op r).error = r.error := by
  cases op with
  | first s column =>
    rw [present]
    split <;> exact ⟨rfl, rfl⟩
  | _ => exact ⟨rfl, rfl⟩

/-- A result in the body is taken over with its success and its message, whatever the status is. -/
theorem result_carried (describe : ExchangeFault → String) {carried : QueryResult op.Payload}
    (h : Draft.decode op.readResult r.body = .ok carried) :
    (result describe op r).success = carried.success
      ∧ (result describe op r).error = carried.error := by
  have hechoed := withBookmark_success (Http.readable? r.headers Header.bookmark) carried
  have hshown := present_success (withBookmark (Http.readable? r.headers Header.bookmark) carried)
  rw [result, h]
  exact ⟨hshown.1.trans hechoed.1, hshown.2.trans hechoed.2⟩

theorem result_uncarried (describe : ExchangeFault → String) {fault : Fault}
    (h : Draft.decode op.readResult r.body = .error fault) :
    result describe op r = .failure (if Http.isSuccess r.status then
      "invalid gateway response: " ++ describe (.unreadable fault) else refusalMessage r) := by
  rw [result, h]
  dsimp only
  split <;> rfl

theorem append_ne_empty {s t : String} (h : s ≠ "") : s ++ t ≠ "" := by
  intro hempty
  exact h (String.append_eq_empty_iff.mp hempty).1

/-- The message of a refusal is blank exactly when its document is left blank. -/
theorem refusalMessage_ne_empty_iff : refusalMessage r ≠ ""
    ↔ ∀ refusal, Draft.decode ErrorBody.read r.body = .ok refusal →
      refusal.error ≠ "" ∨ refusal.reason ≠ none := by
  unfold refusalMessage
  split
  next error reason hdecode =>
    refine iff_of_true (fun hempty => ?_) fun refusal h => ?_
    · have hbehind := (String.append_eq_empty_iff.mp hempty).2
      exact absurd hbehind (by decide)
    · cases hdecode.symm.trans h
      exact .inr (Option.some_ne_none reason)
  next error hdecode =>
    constructor
    · intro hnamed refusal h
      cases hdecode.symm.trans h
      exact .inl hnamed
    · intro hnamed
      exact (hnamed _ hdecode).resolve_right (not_not_intro rfl)
  next fault hdecode =>
    refine iff_of_true (append_ne_empty (append_ne_empty (by decide))) fun refusal h => ?_
    cases hdecode.symm.trans h

theorem explains_carried {carried : QueryResult op.Payload}
    (h : Draft.decode op.readResult r.body = .ok carried) : Explains op r.body
      ↔ carried.success = false ∧ ∃ message, carried.error = some message ∧ message ≠ "" := by
  constructor
  · intro hexplains
    cases hexplains with
    | failure decoded failed told named =>
      cases h.symm.trans decoded
      exact ⟨failed, _, told, named⟩
    | refusal other => exact absurd h (other carried)
    | text other => exact absurd h (other carried)
  · rintro ⟨failed, message, told, named⟩
    exact .failure h failed told named

theorem explains_uncarried {fault : Fault} (h : Draft.decode op.readResult r.body = .error fault) :
    Explains op r.body ↔ refusalMessage r ≠ "" := by
  have hother : ∀ carried, Draft.decode op.readResult r.body ≠ .ok carried := by
    intro carried hcarried
    cases h.symm.trans hcarried
  rw [refusalMessage_ne_empty_iff]
  constructor
  · intro hexplains refusal hrefusal
    cases hexplains with
    | failure decoded => exact absurd decoded (hother _)
    | refusal _ decoded named =>
      cases hrefusal.symm.trans decoded
      exact named
    | text _ free => exact absurd hrefusal (free refusal)
  · intro hnamed
    cases hdecode : Draft.decode ErrorBody.read r.body with
    | ok refusal => exact .refusal hother hdecode (hnamed refusal hdecode)
    | error fault =>
      refine .text hother fun refusal hrefusal => ?_
      cases hdecode.symm.trans hrefusal

/-- What is told of an answer is in order when its status is that of a success and what it carries
is taken over, or when it is a failure with a message. -/
theorem tells_iff {told : QueryResult op.Payload}
    (h : told.success = true →
      ∃ carried, Draft.decode op.readResult r.body = .ok carried ∧ carried.success = true) :
    Tells op r told ↔ Http.isSuccess r.status = true
      ∨ told.success = false ∧ ∃ message, told.error = some message ∧ message ≠ "" := by
  constructor
  · intro htells
    cases hstatus : Http.isSuccess r.status with
    | true => exact .inl rfl
    | false => exact .inr (htells.refusal hstatus)
  · rintro (hstatus | hfailure)
    · refine ⟨fun hsuccess => ⟨hstatus, h hsuccess⟩, fun hrefused => ?_⟩
      rw [hstatus] at hrefused
      cases hrefused
    · exact ⟨fun hsuccess => absurd hsuccess (by simp [hfailure.1]), fun _ => hfailure⟩

/-- The answer to an operation is told as a success exactly when its body carries one. The status
has a say in it, and refusals are told with their reasons, exactly when the status is that of a
success or the body says why the operation was refused. -/
theorem result_tells_iff (describe : ExchangeFault → String) (op : Operation) (r : HttpResponse) :
    ((result describe op r).success = true
        ↔ ∃ carried, Draft.decode op.readResult r.body = .ok carried ∧ carried.success = true)
      ∧ (Tells op r (result describe op r)
        ↔ Http.isSuccess r.status = true ∨ Explains op r.body) := by
  cases hdecode : Draft.decode op.readResult r.body with
  | ok carried =>
    obtain ⟨hsuccess, herror⟩ := result_carried describe hdecode
    have hcarried : (result describe op r).success = true
        ↔ ∃ carried, Draft.decode op.readResult r.body = .ok carried ∧ carried.success = true := by
      rw [hsuccess, hdecode]
      exact ⟨fun h => ⟨carried, rfl, h⟩, fun ⟨_, heq, h⟩ => Except.ok.inj heq ▸ h⟩
    rw [hdecode] at hcarried
    refine ⟨hcarried, ?_⟩
    rw [tells_iff (by rw [hdecode]; exact hcarried.mp), explains_carried hdecode, hsuccess, herror]
  | error fault =>
    have hresult := result_uncarried describe hdecode
    have hfailed : (result describe op r).success ≠ true := by
      rw [hresult]
      exact Bool.false_ne_true
    refine ⟨iff_of_false hfailed (by rintro ⟨_, heq, -⟩; cases heq), ?_⟩
    rw [tells_iff fun hsuccess => absurd hsuccess hfailed, explains_uncarried hdecode, hresult]
    cases hstatus : Http.isSuccess r.status <;> simp [QueryResult.failure]

/-- The answer of a server that failed while it says that all went well is told as a success, and
the refusals that leave the message blank or out are told without one. -/
theorem refusals_untold :
    [500, 502, 400].map Http.isSuccess = [false, false, false]
      ∧ (result (fun _ => "") (.exec ⟨"SELECT 1", []⟩)
        { status := 500, body := "\x7b\"success\":true\x7d" }).success = true
      ∧ (result (fun _ => "") (.exec ⟨"SELECT 1", []⟩)
        { status := 502, body := "\x7b\"error\":\"\"\x7d" }).error = some ""
      ∧ (result (fun _ => "") (.exec ⟨"SELECT 1", []⟩)
        { status := 400, body := "\x7b\"success\":false\x7d" }).error = none := by
  decide +kernel

end Client

end Tabularium
