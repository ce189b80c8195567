import Tabularium.Proofs.Gateway.Headers
import Tabularium.Proofs.Gateway.RequestReading
import Tabularium.Proofs.Gateway.ResultReading

namespace Tabularium

theorem Route.ofPath?_path (r : Route) : (Http.pathOf? r.path).bind ofPath? = some r := by
  cases r <;> decide

/-- The request for an operation, whether or not its headers can be sent. -/
def Client.requestOf (c : Client) (op : Operation) (bookmark : Option String) : HttpRequest :=
  { path := op.route.path, headers := c.headers bookmark, body := op.toJson.compact }

/-- A store answers a statement with rows exactly when it succeeds. -/
def RowsOnSuccess {δ : Type} (serve : δ → Call → RowsResult × δ) : Prop :=
  ∀ state s bookmark, (serve state ⟨.exec s, bookmark⟩).1.data.isSome
    = (serve state ⟨.exec s, bookmark⟩).1.success

namespace Gateway

variable {σ δ : Type} {serve : σ → δ → Call → RowsResult × δ} {g : Gateway σ} {now : Instant}
  {c : Client} {store : σ} {op : Operation} {bookmark : Option String}

/-- The gateway serves the database of a client from a store, and the client has its key and a valid
token. -/
structure Admits (g : Gateway σ) (now : Instant) (c : Client) (store : σ) : Prop where
  key : c.gatewayKey = g.key
  plainKey : Http.IsPlain c.gatewayKey
  plainDatabase : Http.IsPlain c.database
  plainToken : Http.IsPlain c.token
  served : g.databases.get? c.database = some store
  valid : ∃ claims, Token.validateAt hmacSha256 c.database c.token g.secret now = .ok claims

/-- The answer to a request when stores that share a state serve the gateway, with the state after
it. -/
def answer (serve : σ → δ → Call → RowsResult × δ) (g : Gateway σ) (now : Instant) (state : δ)
    (request : HttpRequest) : HttpResponse × δ :=
  match g.dispatch now request with
  | .error refusal => (refusal, state)
  | .ok d =>
    let outcome := (d.operation.perform d.bookmark).run (serve d.adapter) state
    (respond d.operation outcome.1, outcome.2)

theorem isReadable_bearer (h : g.Admits now c store) :
    Http.isReadable ("Bearer " ++ c.gatewayKey) = true := by
  rw [Http.isReadable_append, h.plainKey.readable]
  decide

theorem credentials_headers (h : g.Admits now c store) :
    Access.credentials hmacSha256 g.key g.secret now (c.headers bookmark) = .ok c.database := by
  obtain ⟨claims, hvalid⟩ := h.valid
  have hkey := Http.readable?_eq (c.header?_authorization bookmark) (isReadable_bearer h)
  have hdatabase := Http.present?_eq (c.header?_dbName bookmark) h.plainDatabase
  have htoken := Http.present?_eq (c.header?_dbToken bookmark) h.plainToken
  rw [Access.credentials, hkey, Option.bind_some, Access.bearerKey?_bearer h.plainKey.trimStart]
  simp only [h.key, ne_eq, not_true_eq_false, if_false, hdatabase, htoken, hvalid]

theorem adapterFor_headers (h : g.Admits now c store) :
    g.adapterFor now (c.headers bookmark) = .ok store := by
  simp only [adapterFor, credentials_headers h, bind, Except.bind, h.served]
  rfl

/-- A client sends an operation with a point of consistency that a header carries. -/
theorem request?_eq (h : g.Admits now c store) (hb : ∀ b ∈ bookmark, Http.IsPlain b) :
    c.request? op bookmark = some (c.requestOf op bookmark) := by
  have hsendable : (c.headers bookmark).all (fun header => Http.isSendable header.2) = true := by
    rw [List.all_eq_true]
    intro header hheader
    refine Http.isSendable_of_isReadable ?_
    rcases List.mem_append.mp hheader with hfixed | hoptional
    · simp only [List.mem_cons, List.not_mem_nil, or_false] at hfixed
      rcases hfixed with rfl | rfl | rfl | rfl
      · exact isReadable_bearer h
      · exact h.plainDatabase.readable
      · exact h.plainToken.readable
      · decide
    · cases bookmark with
      | none => cases hoptional
      | some b =>
        cases List.mem_singleton.mp hoptional
        exact (hb b rfl).readable
  rw [Client.request?]
  exact if_pos hsendable

theorem readBody_requestOf (hop : op.Carried)
    (hsize : op.toJson.compact.utf8ByteSize ≤ bodyLimit) :
    readBody op.route (c.requestOf op bookmark) = .ok op := by
  rw [readBody, Client.requestOf, if_pos (c.sendsJson bookmark), if_neg (Nat.not_lt.mpr hsize),
    Operation.decode_body hop]

theorem readBody_oversized (hsize : bodyLimit < op.toJson.compact.utf8ByteSize) :
    readBody op.route (c.requestOf op bookmark) = .error 413 := by
  rw [readBody, Client.requestOf, if_pos (c.sendsJson bookmark), if_pos hsize]

/-- The gateway asks the store for the operation that was sent, with its point of consistency. -/
theorem dispatch_requestOf (h : g.Admits now c store) (hop : op.Carried)
    (hb : ∀ b ∈ bookmark, Http.IsPlain b)
    (hsize : op.toJson.compact.utf8ByteSize ≤ bodyLimit) :
    g.dispatch now (c.requestOf op bookmark) = .ok ⟨store, op, bookmark⟩ := by
  have hbody : readBody op.route (c.requestOf op bookmark) = .ok op :=
    readBody_requestOf hop hsize
  simp only [dispatch, Client.requestOf, Route.ofPath?_path, ne_eq, not_true_eq_false, if_false]
    at hbody ⊢
  simp only [adapterFor_headers h, hbody, c.present?_bookmark hb]

theorem dispatch_oversized (h : g.Admits now c store)
    (hsize : bodyLimit < op.toJson.compact.utf8ByteSize) :
    g.dispatch now (c.requestOf op bookmark) = .error { status := 413 } := by
  have hbody : readBody op.route (c.requestOf op bookmark) = .error 413 :=
    readBody_oversized hsize
  simp only [dispatch, Client.requestOf, Route.ofPath?_path, ne_eq, not_true_eq_false, if_false]
    at hbody ⊢
  simp only [adapterFor_headers h, hbody]

end Gateway

namespace Client

variable {op : Operation} {bookmark : Option String} {r : QueryResult op.Payload}

theorem withBookmark_eq {α : Type} {r : QueryResult α} (h : ∀ b ∈ bookmark, r.bookmark = some b) :
    withBookmark bookmark r = r := by
  cases bookmark with
  | none => rfl
  | some b =>
    obtain ⟨m, hm, hb⟩ := Option.bind_eq_some_iff.mp (h b rfl)
    have hsame : { m with bookmark := some b } = m := by rw [← hb]
    rw [withBookmark, hm, Option.getD_some, hsame, ← hm]

/-- The only data that `null` stands for are those of a first row that is not there, and these are
put back. -/
theorem present_carriedData (h : ∀ s column, op = .first s column → r.data.isSome = r.success) :
    present op { r with data := op.carriedData r.data } = r := by
  cases op with
  -- Rows are there exactly on success, so that nothing but a null row is missing from a success.
  | first s column =>
    have hsuccess := h s column rfl
    obtain ⟨success, data, results, error, info⟩ := r
    cases data with
    | none =>
      cases (hsuccess : false = success)
      rfl
    | some value =>
      cases (hsuccess : true = success)
      cases value <;> rfl
  | _ =>
    have hdata := Operation.carriedData_self (fun _ => rfl) r.data
    exact congrArg (fun data => { r with data }) hdata

theorem header?_respond :
    Http.header? (Gateway.respond op r).headers Header.bookmark
      = r.bookmark.filter Http.isSendable := by
  refine (Http.header?_behind (by decide)).trans ?_
  cases r.bookmark.filter Http.isSendable with
  | none => rfl
  | some b => exact Http.header?_here (by decide)

/-- A client reads the result back from the answer of a gateway. -/
theorem result_respond (describe : ExchangeFault → String)
    (h : ∀ s column, op = .first s column → r.data.isSome = r.success) (ht : r.Timed)
    (hf : Json.Faithful 1 (op.resultJson r)) :
    result describe op (Gateway.respond op r) = r := by
  have hdecode : Draft.decode op.readResult (Gateway.respond op r).body
      = .ok { r with data := op.carriedData r.data } :=
    (Draft.decode_compact op.readResult hf.readable).trans (Operation.readResult_resultJson ht hf)
  -- The header repeats what the body says, so taking it over changes nothing.
  have hechoed : ∀ b ∈ Http.readable? (Gateway.respond op r).headers Header.bookmark,
      r.bookmark = some b := by
    intro b hb
    rw [Http.readable?, header?_respond] at hb
    exact (Option.filter_eq_some_iff.mp (Option.filter_eq_some_iff.mp hb).1).1
  rw [result, hdecode]
  have hkept := withBookmark_eq (r := { r with data := op.carriedData r.data }) hechoed
  exact (congrArg (present op) hkept).trans (present_carriedData h)

theorem decode_empty {α : Type} {read : Draft → Except Fault α} {fault : Fault}
    (h : read .broken = .error fault) : Draft.decode read "" = .error fault := by
  have htext : Draft.ofText "" = (.broken, false) := rfl
  rw [Draft.decode, htext]
  dsimp only
  rw [h]

/-- A refusal without a body is reported by its status. -/
theorem result_refused (describe : ExchangeFault → String) (op : Operation) {status : Nat}
    (h : Http.isSuccess status = false) :
    result describe op { status } = .failure ("gateway responded " ++ Http.statusText status) := by
  have hbody : Draft.decode op.readResult "" = .error .malformed := decode_empty rfl
  have hrefusal : Draft.decode ErrorBody.read "" = .error .malformed := decode_empty rfl
  have hblank : trimText "" = "" := rfl
  rw [result, hbody]
  simp only [h, Bool.false_eq_true, if_false, refusalMessage, hrefusal, hblank]
  rw [if_pos (by decide), String.append_empty]

section Gateway

variable {σ δ : Type} {serve : σ → δ → Call → RowsResult × δ} {g : Gateway σ} {now : Instant}
  {c : Client} {store : σ}

/-- The result of an operation that is sent to a gateway, with the state that its stores are left
in. -/
def performAt (describe : ExchangeFault → String) (serve : σ → δ → Call → RowsResult × δ)
    (g : Gateway σ) (now : Instant) (c : Client) (op : Operation) (bookmark : Option String)
    (state : δ) : QueryResult op.Payload × δ :=
  (c.perform describe (fun request => some (g.answer serve now state request).1) op bookmark,
    match c.request? op bookmark with
    | none => state
    | some request => (g.answer serve now state request).2)

theorem performAt_answer (describe : ExchangeFault → String) (state : δ)
    (h : g.Admits now c store) (hb : ∀ b ∈ bookmark, Http.IsPlain b) :
    performAt describe serve g now c op bookmark state =
      (result describe op (g.answer serve now state (c.requestOf op bookmark)).1,
        (g.answer serve now state (c.requestOf op bookmark)).2) := by
  rw [performAt, perform, Gateway.request?_eq h hb]

/-- What a client is given for an operation is read from the answer to the result of the store. -/
theorem performAt_respond (describe : ExchangeFault → String) (state : δ)
    (h : g.Admits now c store) (hop : op.Carried) (hb : ∀ b ∈ bookmark, Http.IsPlain b)
    (hsize : op.toJson.compact.utf8ByteSize ≤ Gateway.bodyLimit) :
    performAt describe serve g now c op bookmark state =
      (result describe op
          (Gateway.respond op ((op.perform bookmark).run (serve store) state).1),
        ((op.perform bookmark).run (serve store) state).2) := by
  have hdispatch := Gateway.dispatch_requestOf h hop hb hsize
  rw [performAt_answer describe state h hb, Gateway.answer, hdispatch]

/-- A request that is too long is refused, and the store is not asked. -/
theorem performAt_oversized (describe : ExchangeFault → String) (state : δ)
    (h : g.Admits now c store) (hb : ∀ b ∈ bookmark, Http.IsPlain b)
    (hsize : Gateway.bodyLimit < op.toJson.compact.utf8ByteSize) :
    performAt describe serve g now c op bookmark state =
      (.failure "gateway responded 413 Payload Too Large", state) := by
  have hdispatch : g.dispatch now (c.requestOf op bookmark) = .error { status := 413 } :=
    Gateway.dispatch_oversized h hsize
  rw [performAt_answer describe state h hb, Gateway.answer, hdispatch]
  exact congrArg (·, state) (result_refused describe op (by decide))

/-- The result of every operation that is sent to a gateway and the state of the stores after it are
those of the store itself, which is asked for that operation with that point of consistency; the
first row that is not there is null. -/
theorem performAt_transparent (describe : ExchangeFault → String) (state : δ)
    (hstore : RowsOnSuccess (serve store)) (h : g.Admits now c store) (hop : op.Carried)
    (hb : ∀ b ∈ bookmark, Http.IsPlain b)
    (hsize : op.toJson.compact.utf8ByteSize ≤ Gateway.bodyLimit)
    (ht : ((op.perform bookmark).run (serve store) state).1.Timed)
    (hf : Json.Faithful 1 (op.resultJson ((op.perform bookmark).run (serve store) state).1)) :
    performAt describe serve g now c op bookmark state
        = (op.perform bookmark).run (serve store) state
      ∧ (c.request? op bookmark).map (g.dispatch now) = some (.ok ⟨store, op, bookmark⟩)
      ∧ ∀ s column, op = .first s column →
        (serve store state ⟨.exec s, bookmark⟩).1.data = some [] →
        (performAt describe serve g now c op bookmark state).1.data.map op.payloadJson = some .null
          ∧ ((op.perform bookmark).run (serve store) state).1.data.map op.payloadJson
            = some .null := by
  have hsame : performAt describe serve g now c op bookmark state
      = (op.perform bookmark).run (serve store) state := by
    rw [performAt_respond describe state h hop hb hsize, result_respond describe ?_ ht hf]
    rintro s column rfl
    exact (Option.isSome_map ..).trans (hstore state s bookmark)
  refine ⟨hsame, ?_, ?_⟩
  · rw [Gateway.request?_eq h hb, Option.map_some, Gateway.dispatch_requestOf h hop hb hsize]
  · rintro s column rfl hrows
    have hnull : (((Operation.first s column).perform bookmark).run (serve store) state).1.data.map
        (Operation.first s column).payloadJson = some .null := by
      have hdata : (((Operation.first s column).perform bookmark).run (serve store) state).1.data
          = (serve store state ⟨.exec s, bookmark⟩).1.data.map (firstValue · column) := rfl
      rw [hdata, hrows]
      rfl
    exact ⟨hsame ▸ hnull, hnull⟩

end Gateway

/-! A gateway with one database, whose store gives the same reply to every call. -/

section Fixed

variable {reply : RowsResult}

def fixedStore (reply : RowsResult) (_ : Unit) (_ : Call) : RowsResult × Unit :=
  (reply, ())

def fixedGateway (reply : RowsResult) : Gateway RowsResult :=
  { key := "gateway-key", secret := "token-secret", databases := .ofList [("main", reply)] }

def epoch : Instant :=
  ⟨0, by decide⟩

/-- A client of the gateway with a token that does not expire. -/
def fixedClient : Client :=
  ⟨"http://localhost:8787", "gateway-key", "main",
    "main.AAECAwQFBgcICQoLDA0ODw.8210266876799999.6vOjNMGgSydHHveWftBu5TUXLYGf8sE4B6sJD118olU"⟩

theorem fixedToken_valid :
    Token.validateAt hmacSha256 fixedClient.database fixedClient.token "token-secret" epoch
      = .ok ⟨"main", ⟨8210266876799999, by decide⟩⟩ := by
  decide +kernel

theorem fixedGateway_admits (reply : RowsResult) :
    (fixedGateway reply).Admits epoch fixedClient reply where
  key := rfl
  plainKey := ⟨by decide, by decide, by decide⟩
  plainDatabase := ⟨by decide, by decide, by decide⟩
  plainToken := ⟨by decide, by decide +kernel, by decide +kernel⟩
  served := rfl
  valid := ⟨_, fixedToken_valid⟩

/-- A search for an author who is not there. -/
def absentAuthor : Operation :=
  .first ⟨"SELECT * FROM users WHERE name = ? AND age < ?", [.text "Grace", .int 37]⟩ none

def noAuthor : RowsResult :=
  .ok [] { bookmark := some "b-7" }

theorem fixedStore_rowsOnSuccess (h : reply.data.isSome = reply.success) :
    RowsOnSuccess (fixedStore reply) :=
  fun _ _ _ => h

theorem noAuthor_faithful :
    Json.Faithful 1 (absentAuthor.resultJson (noAuthor.map absentAuthor.shape)) := by
  have hdocument : absentAuthor.resultJson (noAuthor.map absentAuthor.shape)
      = .record [("success", .bool true), ("data", .null), ("meta", .record [("changes", .int 0),
          ("durationMs", .float .zero), ("bookmark", .text "b-7")])] := rfl
  have hback : Binary64.zero.readBack = .zero := by decide +kernel
  rw [hdocument]
  refine .record 1 _ (by decide) (by decide) fun e he => ?_
  simp only [List.mem_cons, List.not_mem_nil, or_false] at he
  rcases he with rfl | rfl | rfl
  · exact .bool 2 true
  · exact .null 2
  refine .record 2 _ (by decide) (by decide) fun e he => ?_
  simp only [List.mem_cons, List.not_mem_nil, or_false] at he
  rcases he with rfl | rfl | rfl
  · exact .int 3 0 (by decide) (by decide)
  · exact .float 3 .zero (by decide) hback
  · exact .text 3 "b-7"

/-- Nobody is found, and the store reports a point of consistency. -/
theorem performAt_transparent_no_row :
    RowsOnSuccess (fixedStore noAuthor)
      ∧ performAt (fun _ => "") fixedStore (fixedGateway noAuthor) epoch fixedClient absentAuthor
          (some "b-6") () = (noAuthor.map absentAuthor.shape, ())
      ∧ (noAuthor.map absentAuthor.shape).data.map absentAuthor.payloadJson = some .null
      ∧ (noAuthor.map absentAuthor.shape).bookmark = some "b-7" := by
  have hstore : RowsOnSuccess (fixedStore noAuthor) := fixedStore_rowsOnSuccess rfl
  have hop : absentAuthor.Carried := by
    rintro v hv x rfl
    simp at hv
  have hb : ∀ b ∈ some "b-6", Http.IsPlain b := by
    rintro _ ⟨⟩
    exact ⟨by decide, by decide, by decide⟩
  have ht : (((absentAuthor.perform (some "b-6")).run (fixedStore noAuthor) ()).1).Timed :=
    ⟨by rintro _ ⟨⟩; exact (by decide : Binary64.zero.isFinite = true), by rintro _ ⟨⟩⟩
  obtain ⟨hsame, -, hnull⟩ := performAt_transparent (fun _ => "") () hstore
    (fixedGateway_admits noAuthor) hop hb (by decide) ht noAuthor_faithful
  exact ⟨hstore, hsame, (hnull _ _ rfl rfl).2, rfl⟩

/-- A script of blanks whose request is too long. -/
def longScript : Operation :=
  .script (String.ofList (List.replicate (2 ^ 21) ' '))

def noRows : RowsResult :=
  .ok [] {}

def probe : Operation :=
  .exec ⟨"SELECT 1", []⟩

/-- A success whose time is no number. -/
def timeless : RowsResult :=
  .ok [] { durationMs := .infinity false }

/-- A client is not told of a success when its request is longer than a gateway accepts, nor when
the store reports a time that is no number. -/
theorem performAt_differs :
    (RowsOnSuccess (fixedStore noRows)
      ∧ (fixedGateway noRows).Admits epoch fixedClient noRows
      ∧ (performAt (fun _ => "") fixedStore (fixedGateway noRows) epoch fixedClient longScript none
          ()).1.success = false
      ∧ ((longScript.perform none).run (fixedStore noRows) ()).1.success = true)
    ∧ RowsOnSuccess (fixedStore timeless)
      ∧ (fixedGateway timeless).Admits epoch fixedClient timeless
      ∧ (performAt (fun _ => "") fixedStore (fixedGateway timeless) epoch fixedClient probe none
          ()).1.success = false
      ∧ ((probe.perform none).run (fixedStore timeless) ()).1.success = true := by
  have hlong : Gateway.bodyLimit < longScript.toJson.compact.utf8ByteSize := by
    have hsize := Operation.length_lt_script (String.ofList (List.replicate (2 ^ 21) ' '))
    rwa [String.length_ofList, List.length_replicate] at hsize
  have hnone : ∀ b ∈ (none : Option String), Http.IsPlain b := by
    rintro _ ⟨⟩
  have hprobe : probe.Carried := by
    intro v hv
    cases hv
  have htimeless : (result (fun _ => "") probe (Gateway.respond probe
      ((probe.perform none).run (fixedStore timeless) ()).1)).success = false := by
    decide +kernel
  refine ⟨⟨fixedStore_rowsOnSuccess rfl, fixedGateway_admits _, ?_, rfl⟩,
    fixedStore_rowsOnSuccess rfl, fixedGateway_admits _, ?_, rfl⟩
  · rw [performAt_oversized _ () (fixedGateway_admits noRows) hnone hlong]
    rfl
  · rw [performAt_respond _ () (fixedGateway_admits timeless) hprobe hnone (by decide)]
    exact htimeless

end Fixed

end Client

end Tabularium
