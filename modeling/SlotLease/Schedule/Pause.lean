import SlotLease.Schedule.Basic

/-!
Pauses of a schedule: stretches of at least a given length in which it does not fire. `findPause`
walks from fire time to fire time, each time to the last one that a pause of that length would have
excluded, until there is none.
-/

namespace SlotLease

structure Pause where
  start : Instant
  resumes : Option Instant
deriving DecidableEq, Repr

def Pause.length (p : Pause) : Option Duration := p.resumes.map p.start.spanTo

namespace Schedule

def longestLimit : Duration := .ofMillis 0x7FFFFFFFFFFFFFFF

def laterBy? (t : Instant) (d : Duration) : Option Instant :=
  if (t.add d).nanos ≤ Instant.last.nanos then some (t.add d) else none

/-- The first pause of at least `limit` that begins at `start` or at a fire time after it, and
before `stop`. -/
def pauseFrom (s : Schedule) (limit : Duration) (stop start : Instant) : Option Pause :=
  if _inside : start.nanos < stop.nanos then
    match (laterBy? start limit).bind s.lastBefore with
    | some fire =>
      if _later : start.nanos < fire.nanos then s.pauseFrom limit stop fire
      else some { start, resumes := s.nextAfter start }
    | none => some { start, resumes := s.nextAfter start }
  else none
termination_by (stop.nanos - start.nanos).toNat
decreasing_by omega

/-- The first pause of at least `limit` that begins within `horizon` of an instant. Nothing pauses
for longer than the longest limit. -/
def findPause (s : Schedule) (now : Instant) (limit horizon : Duration) : Option Pause :=
  if longestLimit.nanos < limit.nanos then none
  else
    let stop :=
      if longestLimit.nanos < horizon.nanos then Instant.last
      else (laterBy? now horizon).getD Instant.last
    s.pauseFrom limit stop now

end Schedule

end SlotLease
