import Tabularium.Gateway.Address
import Tabularium.Gateway.Environment
import Tabularium.Gateway.Error
import Tabularium.Json.Draft

namespace Tabularium

structure DatabaseConfig where
  url : String
  /-- The calls go through an actor, one after the other. -/
  actor : Bool := false
deriving DecidableEq

structure GatewayConfig where
  listenAddr : IpAddress := .v4 127 0 0 1
  listenPort : UInt16 := 8787
  gatewayKey : String := ""
  tokenSecret : String := ""
  /-- The lifetime of a token: thirty days. -/
  tokenTtlSecs : UInt64 := 2592000
  databases : OrderedMap DatabaseConfig := .empty
deriving DecidableEq

namespace DatabaseConfig

def toJson (c : DatabaseConfig) : Json :=
  .record [("url", .text c.url), ("actor", .bool c.actor)]

def read : Draft → Except Fault DatabaseConfig :=
  Draft.asRecord
    [.required "url" Draft.asText fun c url => { c with url },
      .defaulted "actor" Draft.asBool fun c actor => { c with actor }]
    ⟨"", false⟩

/-- Reads a database from settings, where more values than there are fields do no harm. -/
def readSetting : Draft → Except Fault DatabaseConfig
  | .list deep items closed => read (.list deep (items.take 2) closed)
  | d => read d

end DatabaseConfig

def IpAddress.read (d : Draft) : Except Fault IpAddress := do
  match ofText? (← Draft.asText d) with
  | some a => return a
  | none => throw .unfit

namespace GatewayConfig

def sortedDatabases (c : GatewayConfig) : List (String × DatabaseConfig) :=
  c.databases.entries.mergeSort fun a b => a.1 ≤ b.1

def toJson (c : GatewayConfig) : Json :=
  .record [("listen_addr", .text c.listenAddr.text), ("listen_port", .int c.listenPort.toNat),
    ("gateway_key", .text c.gatewayKey), ("token_secret", .text c.tokenSecret),
    ("token_ttl_secs", .int c.tokenTtlSecs.toNat),
    ("databases", .record (c.sortedDatabases.map fun (name, database) => (name, database.toJson)))]

/-- Reads settings, none of which has to be there, with a reader for a database. -/
def readWith (database : Draft → Except Fault DatabaseConfig) :
    Draft → Except Fault GatewayConfig :=
  Draft.asRecord
    [.defaulted "listen_addr" IpAddress.read fun c listenAddr => { c with listenAddr },
      .defaulted "listen_port" (Draft.asWord uint16?) fun c listenPort => { c with listenPort },
      .defaulted "gateway_key" Draft.asText fun c gatewayKey => { c with gatewayKey },
      .defaulted "token_secret" Draft.asText fun c tokenSecret => { c with tokenSecret },
      .defaulted "token_ttl_secs" (Draft.asWord uint64?) fun c tokenTtlSecs =>
        { c with tokenTtlSecs },
      .defaulted "databases" (Draft.asMap database) fun c databases => { c with databases }]
    {}

def read : Draft → Except Fault GatewayConfig :=
  readWith DatabaseConfig.read

def validate (c : GatewayConfig) : Except GatewayError Unit :=
  if (trimText c.gatewayKey).isEmpty then .error (.unset "gateway_key")
  else if (trimText c.tokenSecret).isEmpty then .error (.unset "token_secret")
  else .ok ()

def socketAddress (c : GatewayConfig) : String :=
  c.listenAddr.socketText c.listenPort

/-- The settings in a file, if there is one, with those in the environment laid over them. -/
def load (file : Option String) (environment : List (String × String)) :
    Except GatewayError GatewayConfig := do
  let settings ← match file with
    | none => pure (toJson {})
    | some text =>
      match Toml.read? text with
      | some settings => pure ((toJson {}).overlay settings)
      | none => throw .unreadable
  match (settings.overlay (Environment.settings environment)).decode
      (readWith DatabaseConfig.readSetting) with
  | .error _ => throw .unreadable
  | .ok c =>
    c.validate
    return c

end GatewayConfig

end Tabularium
