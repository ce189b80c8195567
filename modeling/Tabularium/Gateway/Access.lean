import Tabularium.Gateway.Http
import Tabularium.Gateway.Route
import Tabularium.Gateway.Token
import Tabularium.Text.Blank

namespace Tabularium

inductive AccessError where
  | missingKey
  | invalidKey
  | missingDbName
  | missingDbToken
  | token (reason : String)
  | unknownDatabase (name : String)
  | internal
deriving DecidableEq, Repr

namespace AccessError

def status : AccessError → Nat
  | missingKey => 401
  | invalidKey => 401
  | missingDbName => 400
  | missingDbToken => 401
  | token _ => 401
  | unknownDatabase _ => 404
  | internal => 500

def body : AccessError → ErrorBody
  | missingKey => ⟨"unauthorized", some "missing_gateway_key"⟩
  | invalidKey => ⟨"unauthorized", some "invalid_gateway_key"⟩
  | missingDbName => ⟨"missing " ++ Header.dbName ++ " header", none⟩
  | missingDbToken => ⟨"invalid database token", some "missing_token"⟩
  | token reason => ⟨"invalid database token", some reason⟩
  | unknownDatabase name => ⟨"unknown database '" ++ name ++ "'", none⟩
  | internal => ⟨"internal error", none⟩

end AccessError

namespace HttpResponse

def json (status : Nat) (headers : List (String × String)) (j : Json) : HttpResponse :=
  ⟨status, (Header.contentType, "application/json") :: headers, j.compact⟩

def ofAccessError (e : AccessError) : HttpResponse :=
  json e.status [] e.body.toJson

end HttpResponse

namespace Access

/-- The key behind the word for bearers, which stands in either case, and a space; blanks in front
of the key are dropped. -/
def bearerKey? (value : String) : Option String :=
  let scheme := value.toList.take 6
  match value.toList.drop 6 with
  | ' ' :: rest =>
    if sameIgnoringCase (String.ofList scheme) "bearer" then some (String.ofList (trimStart rest))
    else none
  | _ => none

/-- The database and the point of consistency of a request with the right key and with a valid
token for the database. -/
def credentials (mac : KeyedDigest) (key secret : String) (now : Instant)
    (headers : List (String × String)) : Except AccessError String :=
  match (Http.readable? headers Header.authorization).bind bearerKey? with
  | none => .error .missingKey
  | some given =>
    if given ≠ key then .error .invalidKey
    else
      match Http.present? headers Header.dbName, Http.present? headers Header.dbToken with
      | none, _ => .error .missingDbName
      | some _, none => .error .missingDbToken
      | some database, some token =>
        match Token.validateAt mac database token secret now with
        | .ok _ => .ok database
        | .error (.rejected r) => .error (.token r.reason)
        | .error _ => .error .internal

end Access

end Tabularium
