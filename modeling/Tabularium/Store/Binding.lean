import Tabularium.Gateway.Endpoint
import Tabularium.OrderedMap

namespace Tabularium

inductive Transport where
  | embedded
  | actor
  | http
deriving DecidableEq, Repr

def Transport.word : Transport → String
  | embedded => "embedded"
  | actor => "actor"
  | http => "http"

/-- The stores that there are: within the program, at an actor, and behind a gateway. -/
structure Bindings where
  embedded : List String := []
  actors : List String := []
  gateway : Option Endpoint := none

/-- How the store of a database is reached: within the program if it is there, else at an actor,
else through the gateway. -/
def Bindings.select (b : Bindings) (database : String) : Except ConfigError Transport :=
  if b.embedded.contains database then .ok .embedded
  else if b.actors.contains database then .ok .actor
  else
    match b.gateway with
    | none => .error (.noBinding database)
    | some endpoint =>
      match endpoint.dbTokens.get? database with
      | none => .error (.missingToken database)
      | some _ => do
        let _ ← endpoint.address
        return .http

/-- A store that was reached, told apart from others by its number. -/
structure Adapter where
  serial : Nat
  transport : Transport
deriving DecidableEq, Repr

/-- Reaches each store once. -/
structure AdapterFactory where
  bindings : Bindings
  adapters : OrderedMap Adapter := .empty

namespace AdapterFactory

/-- The store of a database, the one from before when it was reached before. -/
def adapterFor (f : AdapterFactory) (database : String) :
    Except ConfigError Adapter × AdapterFactory :=
  match f.adapters.get? database with
  | some adapter => (.ok adapter, f)
  | none =>
    match f.bindings.select database with
    | .error e => (.error e, f)
    | .ok transport =>
      let adapter : Adapter := ⟨f.adapters.entries.length, transport⟩
      (.ok adapter, { f with adapters := f.adapters.insert database adapter })

end AdapterFactory

end Tabularium
