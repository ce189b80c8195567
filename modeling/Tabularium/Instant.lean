namespace Tabularium

/-- A point in time in milliseconds since 1970, within about 262000 years of it. -/
structure Instant where
  millis : Int
  inRange : -8334601228800000 ≤ millis ∧ millis ≤ 8210266876799999
deriving DecidableEq

namespace Instant

/-- The point in time for a number of milliseconds in range. -/
def ofMillis? (millis : Int) : Option Instant :=
  if h : -8334601228800000 ≤ millis ∧ millis ≤ 8210266876799999 then some ⟨millis, h⟩ else none

end Instant

/-- A span of time. -/
structure Lifetime where
  seconds : Nat
  nanos : Nat := 0
deriving DecidableEq

/-- The whole milliseconds of a span. -/
def Lifetime.millis (t : Lifetime) : Nat :=
  1000 * t.seconds + t.nanos / 1000000

end Tabularium
