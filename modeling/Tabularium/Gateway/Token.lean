import Tabularium.Digest.Sha256
import Tabularium.Instant
import Tabularium.Numeric.Integer
import Tabularium.Text.Base64
import Tabularium.Text.Pieces

namespace Tabularium

inductive Rejection where
  /-- There are not four segments, or the expiry is no point in time. -/
  | malformed
  | dbMismatch
  | expired
  | badSignature
deriving DecidableEq, Repr

namespace Rejection

def reason : Rejection → String
  | malformed => "malformed"
  | dbMismatch => "db_mismatch"
  | expired => "expired"
  | badSignature => "bad_signature"

def message : Rejection → String
  | malformed => "token is malformed"
  | dbMismatch => "token was issued for another database"
  | expired => "token has expired"
  | badSignature => "token signature is invalid"

end Rejection

inductive TokenError where
  | emptySecret
  | invalidDbName (name : String)
  | rejected (r : Rejection)
deriving DecidableEq, Repr

def TokenError.message : TokenError → String
  | emptySecret => "token secret must not be empty"
  | invalidDbName name =>
    "database name '" ++ name ++ "' must be non-empty and must not contain '.'"
  | rejected r => r.message

/-- What a valid token vouches for. -/
structure Claims where
  database : String
  expires : Instant
deriving DecidableEq

namespace Token

def bytes (s : String) : List UInt8 :=
  s.toUTF8.data.toList

/-- The text that is signed: the database, the random part and the expiry. -/
def payload (database random : String) (expiry : Int) : String :=
  database ++ "." ++ random ++ "." ++ Int.repr expiry

def signature (mac : KeyedDigest) (secret text : String) : List UInt8 :=
  mac (bytes secret) (bytes text)

/-- The segments between the points of a text. -/
def segments (token : String) : List String :=
  (splitAtEach '.' token.toList).map String.ofList

/-- The expiry of a token that lives for a span, capped at the largest word. -/
def expiryAfter (now : Instant) (ttl : Lifetime) : Int :=
  min (now.millis + min (ttl.millis : Int) (Int.pow 2 63 - 1)) (Int.pow 2 63 - 1)

/-- A token for a database that lives for a span, with a random part. -/
def issueAt (mac : KeyedDigest) (database secret : String) (ttl : Lifetime) (now : Instant)
    (random : List UInt8) : Except TokenError String :=
  if database.isEmpty || database.toList.contains '.' then .error (.invalidDbName database)
  else if secret.isEmpty then .error .emptySecret
  else
    let text := payload database (String.ofList (Base64.encode random)) (expiryAfter now ttl)
    .ok (text ++ "." ++ String.ofList (Base64.encode (signature mac secret text)))

/-- What a token vouches for when its segments are those of a valid one. -/
def validateSegments (mac : KeyedDigest) (database secret : String) (now : Instant) :
    List String → Except Rejection Claims
  | [name, random, expiry, sign] =>
    if name ≠ database then .error .dbMismatch
    else
      match (readInteger? expiry.toList).bind int64? with
      | none => .error .malformed
      | some n =>
        match Instant.ofMillis? n.toInt with
        | none => .error .malformed
        | some expires =>
          if expires.millis ≤ now.millis then .error .expired
          else if Base64.decode sign.toList
              = some (signature mac secret (payload name random expires.millis)) then
            .ok ⟨name, expires⟩
          else .error .badSignature
  | _ => .error .malformed

/-- What a token vouches for at a point in time. -/
def validateAt (mac : KeyedDigest) (database token secret : String) (now : Instant) :
    Except TokenError Claims :=
  if secret.isEmpty then .error .emptySecret
  else (validateSegments mac database secret now (segments token)).mapError .rejected

end Token

end Tabularium
