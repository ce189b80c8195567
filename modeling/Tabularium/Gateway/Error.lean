import Tabularium.Gateway.Token

namespace Tabularium

inductive GatewayError where
  | emptyKey
  /-- A setting is missing or blank. -/
  | unset (setting : String)
  /-- The settings cannot be read, or do not fit. -/
  | unreadable
  | token (e : TokenError)
deriving DecidableEq, Repr

def GatewayError.message : GatewayError → String
  | emptyKey => "Configuration error: gateway key must not be empty"
  | unset setting => "Configuration error: " ++ setting ++ " must be set and non-empty"
  | unreadable => "Failed to load configuration"
  | token e => "Token error: " ++ e.message

end Tabularium
