/-!
# Tallies

What one dump contributed to a graph, in numbers.
-/

namespace CallAtlas

/-- The functions registered, the calls added and the calls dropped on behalf of one source. -/
structure Tally where
  source : String
  functions : Nat := 0
  calls : Nat := 0
  dropped : Nat := 0
  deriving DecidableEq, Repr

/-- A tally as one line. -/
def Tally.summary (t : Tally) : String :=
  s!"{t.source}: {t.functions} functions, {t.calls} calls, {t.dropped} dropped"

end CallAtlas
