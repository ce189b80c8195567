import Tabularium.QueryResult

namespace Tabularium

/-- The latest point of consistency that a caller has seen. -/
structure BookmarkTracker where
  current : Option String := none
deriving DecidableEq, Inhabited

namespace BookmarkTracker

/-- Takes over the point that a success reports; a failure and a success without one change
nothing. -/
def observe {α : Type} (t : BookmarkTracker) (r : QueryResult α) : BookmarkTracker :=
  if r.success then ⟨r.bookmark.or t.current⟩ else t

def clear (_ : BookmarkTracker) : BookmarkTracker := {}

end BookmarkTracker

end Tabularium
