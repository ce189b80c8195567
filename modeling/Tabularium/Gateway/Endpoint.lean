import Tabularium.Json.Draft
import Tabularium.Store.Error

namespace Tabularium

/-- Where a gateway is and what it asks for. -/
structure Endpoint where
  baseUrl : String
  gatewayKey : String
  /-- The token for each database. -/
  dbTokens : OrderedMap String := .empty

namespace Endpoint

/-- The address without slashes at its end; it has to be an absolute one. -/
def address (e : Endpoint) : Except ConfigError String :=
  let cs := (e.baseUrl.toList.reverse.dropWhile (· == '/')).reverse
  if "http://".toList.isPrefixOf cs || "https://".toList.isPrefixOf cs then .ok (String.ofList cs)
  else .error (.invalidGatewayUrl e.baseUrl)

def read : Draft → Except Fault Endpoint :=
  Draft.asRecord
    [.required "baseUrl" Draft.asText fun e baseUrl => { e with baseUrl },
      .required "gatewayKey" Draft.asText fun e gatewayKey => { e with gatewayKey },
      .defaulted "dbTokens" (Draft.asMap Draft.asText) fun e dbTokens => { e with dbTokens }]
    ⟨"", "", .empty⟩

end Endpoint

end Tabularium
