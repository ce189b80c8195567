import Tabularium.Gateway.Access
import Tabularium.Gateway.Error
import Tabularium.Gateway.Target
import Tabularium.Json.Reader

namespace Tabularium

/-- A gateway with the stores of the databases that it serves. -/
structure Gateway (σ : Type) where
  key : String
  secret : String
  databases : OrderedMap σ := .empty

/-- What a request asks a store for. -/
structure Dispatch (σ : Type) where
  adapter : σ
  operation : Operation
  bookmark : Option String

namespace Gateway

variable {σ : Type}

/-- A gateway that serves no database yet. -/
def ofKeys (key secret : String) : Except GatewayError (Gateway σ) :=
  if key.isEmpty then .error .emptyKey
  else if secret.isEmpty then .error (.token .emptySecret)
  else .ok { key, secret }

def withDatabase (g : Gateway σ) (name : String) (adapter : σ) : Gateway σ :=
  { g with databases := g.databases.insert name adapter }

/-- The store that a request may use. -/
def adapterFor (g : Gateway σ) (now : Instant) (headers : List (String × String)) :
    Except AccessError σ := do
  let database ← Access.credentials hmacSha256 g.key g.secret now headers
  match g.databases.get? database with
  | some adapter => return adapter
  | none => throw (.unknownDatabase database)

/-- The longest body that a request may have, in bytes. -/
def bodyLimit : Nat := 2 * Nat.pow 2 20

/-- The operation in the body of a request, or the status of its refusal. -/
def readBody (route : Route) (request : HttpRequest) : Except Nat Operation :=
  if ((Http.readable? request.headers Header.contentType).map Http.isJsonMediaType).getD false then
    if bodyLimit < request.body.utf8ByteSize then .error 413
    else
      match Draft.decode route.read request.body with
      | .ok op => .ok op
      | .error .malformed => .error 400
      | .error .unfit => .error 422
  else .error 415

/-- What a request asks a store for, or the answer to a request that is refused. -/
def dispatch (g : Gateway σ) (now : Instant) (request : HttpRequest) :
    Except HttpResponse (Dispatch σ) :=
  match (Http.pathOf? request.path).bind Route.ofPath? with
  | none => .error { status := 404 }
  | some route =>
    if request.method ≠ "POST" then .error { status := 405 }
    else
      match g.adapterFor now request.headers with
      | .error e => .error (.ofAccessError e)
      | .ok adapter =>
        match readBody route request with
        | .error status => .error { status }
        | .ok operation =>
          .ok ⟨adapter, operation, Http.present? request.headers Header.bookmark⟩

def respond (op : Operation) (r : QueryResult op.Payload) : HttpResponse :=
  let headers := match r.bookmark.filter Http.isSendable with
    | some b => [(Header.bookmark, b)]
    | none => []
  .json (if r.success then 200 else 400) headers (op.resultJson r)

end Gateway

end Tabularium
