import Tabularium.Proofs.Gateway.TokenValidation
import Tabularium.Proofs.Gateway.Transparency
import Tabularium.Proofs.OrderedMap

namespace Tabularium

namespace Http

variable {headers : List (String × String)} {name value : String}

/-- The first header of a name has a value that can be read as text and is not empty. -/
def Carries (headers : List (String × String)) (name value : String) : Prop :=
  header? headers name = some value ∧ isReadable value = true ∧ value ≠ ""

theorem present?_eq_some_iff : present? headers name = some value ↔ Carries headers name value := by
  rw [present?, readable?, Option.filter_eq_some_iff, Option.filter_eq_some_iff, and_assoc,
    Bool.not_eq_true', String.isEmpty_eq_false_iff, Carries]

end Http

namespace Access

variable {mac : KeyedDigest} {key secret database : String} {now : Instant}
  {headers : List (String × String)}

/-- The headers have the key of a gateway behind the word for bearers, name a database and have a
token that is valid for just that database. -/
structure Authorizes (mac : KeyedDigest) (key secret : String) (now : Instant)
    (headers : List (String × String)) (database : String) : Prop where
  key : (Http.readable? headers "authorization").bind bearerKey? = some key
  named : Http.Carries headers "x-db-name" database
  vouched : ∃ token expires, Http.Carries headers "x-db-token" token
    ∧ Token.validateAt mac database token secret now = .ok ⟨database, expires⟩

theorem credentials_eq_ok_iff :
    credentials mac key secret now headers = .ok database
      ↔ Authorizes mac key secret now headers database := by
  constructor
  · intro h
    fun_cases credentials mac key secret now headers
    case case5 given hgiven hkey name token htoken hname claims hvalid =>
      obtain rfl : given = key := not_not.mp hkey
      obtain rfl : name = database := by simp_all [credentials]
      refine ⟨hgiven, Http.present?_eq_some_iff.mp hname, token, claims.expires,
        Http.present?_eq_some_iff.mp htoken, ?_⟩
      rw [hvalid, ← Token.validateAt_database hvalid]
    all_goals simp_all [credentials]
  · rintro ⟨hkey, hname, token, expires, htoken, hvalid⟩
    rw [credentials, Header.authorization, Header.dbName, Header.dbToken, hkey]
    simp only [ne_eq, not_true_eq_false, if_false, Http.present?_eq_some_iff.mpr hname,
      Http.present?_eq_some_iff.mpr htoken, hvalid]

end Access

namespace Route

variable {route : Route} {op : Operation}

theorem ofPath?_eq_some {path : String} (h : ofPath? path = some route) : path = route.path := by
  have hfound := List.find?_some h
  exact (eq_of_beq hfound).symm

theorem ofPath?_self (route : Route) : ofPath? route.path = some route := by
  cases route <;> decide

/-- The body of a request to a route asks for the operation of that route. -/
theorem read_route {d : Draft} (h : route.read d = .ok op) : op.route = route := by
  cases route with
  | run =>
    obtain ⟨s, -, rfl⟩ := map_eq_ok.mp h
    rfl
  | exec =>
    refine Draft.asRecord_keeps (P := fun op => op.route = .exec) ?_ rfl h
    intro field hfield d x y _ hread
    obtain rfl := List.mem_singleton.mp hfield
    obtain ⟨sql, -, rfl⟩ := map_eq_ok.mp hread
    rfl
  | batch =>
    refine Draft.asRecord_keeps (P := fun op => op.route = .batch) ?_ rfl h
    intro field hfield d x y _ hread
    obtain rfl := List.mem_singleton.mp hfield
    obtain ⟨ss, -, rfl⟩ := map_eq_ok.mp hread
    rfl
  | raw =>
    obtain ⟨⟨s, columnNames⟩, -, rfl⟩ := map_eq_ok.mp h
    rfl
  | first =>
    obtain ⟨⟨s, column⟩, -, rfl⟩ := map_eq_ok.mp h
    rfl

end Route

namespace Gateway

variable {σ δ : Type}

/-- What stores that share a state do when an operation is asked of one of them. -/
abbrev Serving (σ δ : Type) : Type :=
  σ → δ → (op : Operation) → Option String → QueryResult op.Payload × δ

/-- The stores with a list of all that is asked of them. -/
def recorded (serve : Serving σ δ) : Serving σ (δ × List (Dispatch σ)) :=
  fun adapter state op bookmark =>
    let outcome := serve adapter state.1 op bookmark
    (outcome.1, outcome.2, state.2 ++ [⟨adapter, op, bookmark⟩])

/-- The answer to a request when stores that share a state serve the gateway, with the state after
it. -/
def handle (serve : Serving σ δ) (g : Gateway σ) (now : Instant) (state : δ)
    (request : HttpRequest) : HttpResponse × δ :=
  match g.dispatch now request with
  | .error refusal => (refusal, state)
  | .ok d =>
    let outcome := serve d.adapter state d.operation d.bookmark
    (respond d.operation outcome.1, outcome.2)

/-- What is asked of which store on behalf of a request. -/
def invocations (serve : Serving σ δ) (g : Gateway σ) (now : Instant) (state : δ)
    (request : HttpRequest) : List (Dispatch σ) :=
  (handle (recorded serve) g now (state, []) request).2.2

/-- A gateway whose stores were registered one after the other. -/
def registering (key secret : String) (registered : List (String × σ)) : Gateway σ :=
  registered.foldl (fun g entry => g.withDatabase entry.1 entry.2) { key, secret }

/-- A request that may be passed on, with what it asks of which store: it is posted to the route of
the operation, authorized for the database that the store was registered for last, and has the
operation in its body. -/
structure Permits (key secret : String) (registered : List (String × σ)) (now : Instant)
    (request : HttpRequest) (d : Dispatch σ) : Prop where
  posted : request.method = "POST"
  routed : Http.pathOf? request.path = some d.operation.route.path
  authorized : ∃ database, Access.Authorizes hmacSha256 key secret now request.headers database
    ∧ OrderedMap.LastUnder registered database d.adapter
  document : (Http.readable? request.headers "content-type").map Http.isJsonMediaType
    = some true
  short : request.body.utf8ByteSize ≤ bodyLimit
  decoded : Draft.decode d.operation.route.read request.body = .ok d.operation
  bookmark : ∀ b, d.bookmark = some b ↔ Http.Carries request.headers "x-d1-bookmark" b

variable {g : Gateway σ} {key secret : String} {registered : List (String × σ)} {now : Instant}
  {request : HttpRequest} {d : Dispatch σ} {route : Route} {op : Operation} {adapter : σ}

theorem registering_eq (key secret : String) (registered : List (String × σ)) :
    registering key secret registered = { key, secret, databases := .ofList registered } := by
  -- Registering changes the stores only, and changes them as the fold of insertions does.
  suffices hfold : ∀ m : OrderedMap σ,
      registered.foldl (fun (g : Gateway σ) entry => g.withDatabase entry.1 entry.2)
          ⟨key, secret, m⟩
        = ⟨key, secret, registered.foldl (fun m entry => m.insert entry.1 entry.2) m⟩ from
    hfold .empty
  induction registered with
  | nil => exact fun _ => rfl
  | cons entry registered ih => exact fun m => ih (m.insert entry.1 entry.2)

theorem adapterFor_eq_ok_iff :
    g.adapterFor now request.headers = .ok adapter
      ↔ ∃ database, Access.Authorizes hmacSha256 g.key g.secret now request.headers database
        ∧ g.databases.get? database = some adapter := by
  constructor
  · intro h
    obtain ⟨database, hcredentials, h⟩ := bind_eq_ok.mp h
    refine ⟨database, Access.credentials_eq_ok_iff.mp hcredentials, ?_⟩
    cases hserved : g.databases.get? database with
    | none => rw [hserved] at h; cases h
    | some served => rw [hserved] at h; cases h; rfl
  · rintro ⟨database, hauthorizes, hserved⟩
    refine bind_eq_ok.mpr ⟨database, Access.credentials_eq_ok_iff.mpr hauthorizes, ?_⟩
    rw [hserved]
    rfl

theorem readBody_eq_ok_iff : readBody route request = .ok op
    ↔ (Http.readable? request.headers Header.contentType).map Http.isJsonMediaType = some true
      ∧ request.body.utf8ByteSize ≤ bodyLimit ∧ Draft.decode route.read request.body = .ok op := by
  have hmedia : ∀ media : Option Bool, media.getD false = true ↔ media = some true := by
    rintro (_ | _ | _) <;> decide
  rw [readBody, ← hmedia, ← Nat.not_lt]
  split
  next hjson =>
    split
    next hlong => exact iff_of_false (by simp) fun h => h.2.1 hlong
    next hshort =>
      cases hdecode : Draft.decode route.read request.body with
      | ok decoded => simp [hjson, hshort]
      | error fault => cases fault <;> simp
  next hother => exact iff_of_false (by simp) fun h => hother h.1

theorem dispatch_eq_ok_iff : (registering key secret registered).dispatch now request = .ok d
    ↔ Permits key secret registered now request d := by
  have hg := registering_eq key secret registered
  generalize registering key secret registered = g at hg ⊢
  constructor
  · intro h
    fun_cases dispatch g now request
    case case5 route hroute hmethod adapter hadapter op hbody =>
      obtain ⟨hmedia, hshort, hdecoded⟩ := readBody_eq_ok_iff.mp hbody
      obtain ⟨database, hauthorizes, hserved⟩ := adapterFor_eq_ok_iff.mp hadapter
      obtain ⟨path, hpath, hofPath⟩ := Option.bind_eq_some_iff.mp hroute
      obtain rfl : d = ⟨adapter, op, Http.present? request.headers Header.bookmark⟩ := by
        simp_all [dispatch]
      have hown : op.route = route := by
        obtain ⟨draft, -, hread⟩ := Draft.decode_eq_ok.mp hdecoded
        exact Route.read_route hread
      subst hg hown
      exact ⟨not_not.mp hmethod, Route.ofPath?_eq_some hofPath ▸ hpath,
        ⟨database, hauthorizes, OrderedMap.get?_ofList.mp hserved⟩, hmedia, hshort, hdecoded,
        fun b => Http.present?_eq_some_iff⟩
    all_goals simp_all [dispatch]
  · rintro ⟨hposted, hrouted, ⟨database, hauthorizes, hlast⟩, hmedia, hshort, hdecoded, hbookmark⟩
    obtain ⟨adapter, op, bookmark⟩ := d
    subst hg
    dsimp only at hrouted hlast hdecoded hbookmark
    have hadapter : Gateway.adapterFor ⟨key, secret, .ofList registered⟩ now request.headers
        = .ok adapter :=
      adapterFor_eq_ok_iff.mpr ⟨database, hauthorizes, OrderedMap.get?_ofList.mpr hlast⟩
    have hbody := readBody_eq_ok_iff.mpr ⟨hmedia, hshort, hdecoded⟩
    have hcarried : Http.present? request.headers Header.bookmark = bookmark :=
      Option.ext fun b => Http.present?_eq_some_iff.trans (hbookmark b).symm
    rw [dispatch, hrouted, Option.bind_some, Route.ofPath?_self]
    dsimp only
    rw [if_neg (not_not_intro hposted), hadapter]
    dsimp only
    rw [hbody, hcarried]

theorem readBody_error {status : Nat} (h : readBody route request = .error status) :
    status = 400 ∨ status = 413 ∨ status = 415 ∨ status = 422 := by
  fun_cases readBody route request <;> simp_all [readBody]

theorem refusal_status {refusal : HttpResponse} (h : g.dispatch now request = .error refusal) :
    400 ≤ refusal.status ∧ refusal.status < 600 := by
  fun_cases dispatch g now request
  case case1 =>
    obtain rfl : { status := 404 } = refusal := by simp_all [dispatch]
    simp
  case case2 =>
    obtain rfl : { status := 405 } = refusal := by simp_all [dispatch]
    simp
  case case3 route hroute hmethod e hadapter =>
    obtain rfl : HttpResponse.ofAccessError e = refusal := by simp_all [dispatch]
    change 400 ≤ e.status ∧ e.status < 600
    cases e <;> simp [AccessError.status]
  case case4 route hroute hmethod adapter hadapter status hbody =>
    obtain rfl : { status } = refusal := by simp_all [dispatch]
    rcases readBody_error hbody with rfl | rfl | rfl | rfl <;> simp
  all_goals simp_all [dispatch]

theorem handle_ok (serve : Serving σ δ) (state : δ) (h : g.dispatch now request = .ok d) :
    handle serve g now state request
      = (respond d.operation (serve d.adapter state d.operation d.bookmark).1,
        (serve d.adapter state d.operation d.bookmark).2) := by
  rw [handle, h]

theorem handle_error (serve : Serving σ δ) (state : δ) {refusal : HttpResponse}
    (h : g.dispatch now request = .error refusal) :
    handle serve g now state request = (refusal, state) := by
  rw [handle, h]

/-- A store is asked for something exactly on behalf of a permitted request. It is asked once, for
what is permitted, and its result is the answer; every other request is answered by an error and
leaves the stores as they are. -/
theorem invocations_permitted (serve : Serving σ δ) (key secret : String)
    (registered : List (String × σ)) (now : Instant) (state : δ) (request : HttpRequest) :
    (invocations serve (registering key secret registered) now state request ≠ []
        ↔ ∃ d, Permits key secret registered now request d)
      ∧ (∀ d, Permits key secret registered now request d →
        invocations serve (registering key secret registered) now state request = [d]
          ∧ handle serve (registering key secret registered) now state request
            = (respond d.operation (serve d.adapter state d.operation d.bookmark).1,
              (serve d.adapter state d.operation d.bookmark).2))
      ∧ ((∀ d, ¬ Permits key secret registered now request d) →
        400 ≤ (handle serve (registering key secret registered) now state request).1.status
          ∧ (handle serve (registering key secret registered) now state request).1.status < 600
          ∧ (handle serve (registering key secret registered) now state request).2 = state) := by
  have hpermits : ∀ d, (registering key secret registered).dispatch now request = .ok d
      ↔ Permits key secret registered now request d := fun _ => dispatch_eq_ok_iff
  generalize registering key secret registered = g at hpermits ⊢
  cases hdispatch : g.dispatch now request with
  | error refusal =>
    have hnone : ∀ d, ¬ Permits key secret registered now request d := by
      intro d hd
      rw [(hpermits d).mpr hd] at hdispatch
      cases hdispatch
    refine ⟨iff_of_false ?_ fun ⟨d, hd⟩ => hnone d hd, fun d hd => absurd hd (hnone d), fun _ => ?_⟩
    · rw [invocations, handle_error _ _ hdispatch]
      exact not_not_intro rfl
    · rw [handle_error _ _ hdispatch]
      exact ⟨(refusal_status hdispatch).1, (refusal_status hdispatch).2, rfl⟩
  | ok d =>
    have hd := (hpermits d).mp hdispatch
    have hasked : invocations serve g now state request = [d] := by
      rw [invocations, handle_ok _ _ hdispatch]
      rfl
    refine ⟨iff_of_true (hasked ▸ List.cons_ne_nil _ _) ⟨d, hd⟩, fun d' hd' => ?_,
      fun hnone => absurd hd (hnone d)⟩
    obtain rfl : d = d' := Except.ok.inj (hdispatch.symm.trans ((hpermits d').mpr hd'))
    exact ⟨hasked, handle_ok _ _ hdispatch⟩

open Client

/-- Stores that give the same reply to every call. -/
def servingFixed : Serving RowsResult Unit :=
  fun reply _ op bookmark => (op.perform bookmark).run (fixedStore reply) ()

/-- A gateway on which a store was replaced by another one. -/
def replacedGateway : Gateway RowsResult :=
  registering "gateway-key" "token-secret" [("main", timeless), ("main", noRows)]

theorem replacedGateway_admits : replacedGateway.Admits epoch fixedClient noRows :=
  have hadmits := fixedGateway_admits noRows
  ⟨rfl, hadmits.plainKey, hadmits.plainDatabase, hadmits.plainToken, rfl, hadmits.valid⟩

/-- The store that was registered last under a name is the one that is asked. -/
theorem invocations_permitted_probe :
    Permits "gateway-key" "token-secret" [("main", timeless), ("main", noRows)] epoch
        (fixedClient.requestOf probe none) ⟨noRows, probe, none⟩
      ∧ invocations servingFixed replacedGateway epoch () (fixedClient.requestOf probe none)
        = [⟨noRows, probe, none⟩] := by
  have hcarried : probe.Carried := by
    intro v hv
    cases hv
  have hnone : ∀ b ∈ (none : Option String), Http.IsPlain b := by
    rintro _ ⟨⟩
  have hpermits := dispatch_eq_ok_iff.mp
    (dispatch_requestOf replacedGateway_admits hcarried hnone (by decide))
  exact ⟨hpermits, ((invocations_permitted servingFixed _ _ _ epoch () _).2.1 _ hpermits).1⟩

section Indistinguishable

variable {σ' : Type} {g' : Gateway σ'} {request' : HttpRequest}

/-- What a request without credentials is refused with depends on the key and the secret only. -/
theorem dispatch_refused (hkey : g.key = g'.key) (hsecret : g.secret = g'.secret)
    (hmethod : request.method = request'.method) (hpath : request.path = request'.path)
    (hheaders : request.headers = request'.headers)
    (hnone : ∀ database,
      ¬ Access.Authorizes hmacSha256 g.key g.secret now request.headers database) :
    ∃ refusal, g.dispatch now request = .error refusal
      ∧ g'.dispatch now request' = .error refusal := by
  have hcredentials : ∃ e, Access.credentials hmacSha256 g.key g.secret now request.headers
      = .error e := by
    cases h : Access.credentials hmacSha256 g.key g.secret now request.headers with
    | error e => exact ⟨e, rfl⟩
    | ok database => exact absurd (Access.credentials_eq_ok_iff.mp h) (hnone database)
  obtain ⟨e, he⟩ := hcredentials
  have hadapter : g.adapterFor now request.headers = .error e := by
    rw [adapterFor, he]
    rfl
  have hadapter' : g'.adapterFor now request'.headers = .error e := by
    rw [adapterFor, ← hkey, ← hsecret, ← hheaders, he]
    rfl
  rw [dispatch, dispatch, ← hmethod, ← hpath, hadapter, hadapter']
  cases (Http.pathOf? request.path).bind Route.ofPath? with
  | none => exact ⟨_, rfl, rfl⟩
  | some route =>
    dsimp only
    split
    · exact ⟨_, rfl, rfl⟩
    · exact ⟨_, rfl, rfl⟩

/-- Without the key of a gateway or a token that is valid for the database that is named, nothing
that depends on the databases or on the body shows in the answer, and no store is touched. -/
theorem handle_indistinguishable {δ' : Type} (serve : Serving σ δ) (serve' : Serving σ' δ')
    (state : δ) (state' : δ') (hkey : g.key = g'.key) (hsecret : g.secret = g'.secret)
    (hmethod : request.method = request'.method) (hpath : request.path = request'.path)
    (hheaders : request.headers = request'.headers)
    (hnone : ∀ database,
      ¬ Access.Authorizes hmacSha256 g.key g.secret now request.headers database) :
    (handle serve g now state request).1 = (handle serve' g' now state' request').1
      ∧ (handle serve g now state request).2 = state
      ∧ (handle serve' g' now state' request').2 = state' := by
  obtain ⟨refusal, hrefused, hrefused'⟩ :=
    dispatch_refused hkey hsecret hmethod hpath hheaders hnone
  rw [handle_error _ _ hrefused, handle_error _ _ hrefused']
  exact ⟨rfl, rfl, rfl⟩

/-- A request with the right key and a token for another database than the one that it names. -/
def foreignRequest (body : String) : HttpRequest where
  path := "/api/run"
  headers := [(Header.authorization, "Bearer gateway-key"), (Header.dbName, "orders"),
    (Header.dbToken, fixedClient.token), (Header.contentType, "application/json")]
  body := body

theorem foreignRequest_unauthorized (body database : String) :
    ¬ Access.Authorizes hmacSha256 "gateway-key" "token-secret" epoch (foreignRequest body).headers
      database := by
  rintro ⟨-, ⟨hname, -⟩, token, expires, ⟨htoken, -⟩, hvalid⟩
  obtain rfl : "orders" = database := Option.some.inj hname
  obtain rfl : fixedClient.token = token := Option.some.inj htoken
  have hforeign : Token.validateAt hmacSha256 "orders" fixedClient.token "token-secret" epoch
      = .error (.rejected .dbMismatch) := by
    decide +kernel
  cases hforeign.symm.trans hvalid

/-- A database that is there and one that is not, a statement and a body that is none, all look
alike to one with a token for another database. -/
theorem handle_indistinguishable_foreign :
    (∀ database, ¬ Access.Authorizes hmacSha256 "gateway-key" "token-secret" epoch
        (foreignRequest probe.toJson.compact).headers database)
      ∧ (handle servingFixed (registering "gateway-key" "token-secret" [("orders", noRows)]) epoch
          () (foreignRequest probe.toJson.compact)).1
        = (handle servingFixed (registering "gateway-key" "token-secret" []) epoch ()
          (foreignRequest "?")).1 := by
  have hnone := foreignRequest_unauthorized probe.toJson.compact
  exact ⟨hnone,
    (handle_indistinguishable servingFixed servingFixed () () rfl rfl rfl rfl rfl hnone).1⟩

end Indistinguishable

end Gateway

end Tabularium
