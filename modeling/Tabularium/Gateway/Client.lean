import Tabularium.Gateway.Endpoint
import Tabularium.Gateway.Http
import Tabularium.Gateway.Route
import Tabularium.Json.Reader
import Tabularium.Text.Blank

namespace Tabularium

/-- A store behind a gateway. -/
structure Client where
  address : String
  gatewayKey : String
  database : String
  token : String

inductive ExchangeFault where
  /-- A header cannot be sent. -/
  | unsendable
  /-- The gateway does not answer. -/
  | unreachable
  /-- The body of a success is not a result. -/
  | unreadable (fault : Fault)
deriving DecidableEq

namespace Client

/-- A store behind the gateway at an endpoint. -/
def ofEndpoint (e : Endpoint) (database token : String) : Except ConfigError Client := do
  return ⟨← e.address, e.gatewayKey, database, token⟩

def headers (c : Client) (bookmark : Option String) : List (String × String) :=
  [(Header.authorization, "Bearer " ++ c.gatewayKey), (Header.dbName, c.database),
    (Header.dbToken, c.token), (Header.contentType, "application/json")]
    ++ match bookmark with
      | some b => [(Header.bookmark, b)]
      | none => []

/-- The request for an operation, unless one of its headers cannot be sent. -/
def request? (c : Client) (op : Operation) (bookmark : Option String) : Option HttpRequest :=
  let headers := c.headers bookmark
  if headers.all fun header => Http.isSendable header.2 then
    some { path := op.route.path, headers, body := op.toJson.compact }
  else none

/-- The message of an answer that is neither a result nor a success. -/
def refusalMessage (r : HttpResponse) : String :=
  match Draft.decode ErrorBody.read r.body with
  | .ok ⟨error, some reason⟩ => error ++ " (" ++ reason ++ ")"
  | .ok ⟨error, none⟩ => error
  | .error _ =>
    let text := trimText r.body
    "gateway responded " ++ Http.statusText r.status ++ if text.isEmpty then "" else ": " ++ text

/-- The result with the point of consistency of a header, when there is one. -/
def withBookmark {α : Type} (bookmark : Option String) (r : QueryResult α) : QueryResult α :=
  match bookmark with
  | none => r
  | some b => { r with info := some { r.info.getD {} with bookmark := some b } }

/-- A success of an operation that asks for the first row carries null when there is none. -/
def present : (op : Operation) → QueryResult op.Payload → QueryResult op.Payload
  | .first _ _, r => if r.success && r.data.isNone then { r with data := some Json.null } else r
  | _, r => r

/-- The result that an answer carries. The wording of faults is the caller's. -/
def result (describe : ExchangeFault → String) (op : Operation) (r : HttpResponse) :
    QueryResult op.Payload :=
  match Draft.decode op.readResult r.body with
  | .ok result => present op (withBookmark (Http.readable? r.headers Header.bookmark) result)
  | .error fault =>
    if Http.isSuccess r.status then
      .failure ("invalid gateway response: " ++ describe (.unreadable fault))
    else .failure (refusalMessage r)

/-- The result of an operation, given what becomes of a request; a gateway that cannot be reached
gives no answer. -/
def perform (describe : ExchangeFault → String) (send : HttpRequest → Option HttpResponse)
    (c : Client) (op : Operation) (bookmark : Option String) : QueryResult op.Payload :=
  match c.request? op bookmark with
  | none => .failure ("gateway request failed: " ++ describe .unsendable)
  | some request =>
    match send request with
    | none => .failure ("gateway request failed: " ++ describe .unreachable)
    | some response => result describe op response

end Client

end Tabularium
