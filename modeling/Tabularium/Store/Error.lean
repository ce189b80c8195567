namespace Tabularium

inductive ConfigError where
  | noBinding (database : String)
  | missingToken (database : String)
  | invalidGatewayUrl (url : String)
  | missingSchema
deriving DecidableEq, Repr

def ConfigError.message : ConfigError → String
  | noBinding database => "no adapter binding for database '" ++ database ++ "'"
  | missingToken database =>
    "gateway configured without a token for database '" ++ database ++ "'"
  | invalidGatewayUrl url => "invalid gateway url '" ++ url ++ "'"
  | missingSchema => "a schema with at least one table is required"

end Tabularium
