import Tabularium.QueryResult
import Tabularium.Sql.Statement

namespace Tabularium

/-- What a store is asked to do: one statement, or several that take effect together or not at
all. -/
inductive Request where
  | exec (statement : Statement)
  | batch (statements : List Statement)
deriving DecidableEq

/-- A call to a store with the point of consistency that the caller has seen. -/
structure Call where
  request : Request
  bookmark : Option String
deriving DecidableEq

/-- A computation that makes calls to a store. What it does next depends on the replies only. -/
inductive Dialogue (α : Type) where
  | finish (x : α)
  | ask (call : Call) (resume : RowsResult → Dialogue α)

namespace Dialogue

variable {α β σ : Type}

def bind (f : α → Dialogue β) : Dialogue α → Dialogue β
  | finish x => f x
  | ask call resume => ask call fun reply => bind f (resume reply)

instance : Monad Dialogue where
  pure := finish
  bind d f := bind f d

def call (request : Request) (bookmark : Option String) : Dialogue RowsResult :=
  ask ⟨request, bookmark⟩ finish

/-- The outcome when a store that has a state answers the calls. -/
def run (serve : σ → Call → RowsResult × σ) (state : σ) : Dialogue α → α × σ
  | finish x => (x, state)
  | ask call resume =>
    match serve state call with
    | (reply, state) => run serve state (resume reply)

end Dialogue

end Tabularium
