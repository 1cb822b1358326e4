import Pingward.ModelWeb

/-! Run durations (`src/view.rs`): every finish is paired with the start before it. The result is a map from ping ids,
the latest entry first. -/

open StoreProgram

namespace Pingward

def isFinish (kind : PingKind) : Bool := kind = .success ∨ kind = .fail

/-- `Duration::num_seconds`. -/
def numSeconds (d : Int) : Int := d.tdiv nanosPerSec

/-- The key the pings are sorted by: `(created_at, id)`. -/
def runOrder (a b : PingSummary) : Bool := a.createdAt < b.createdAt ∨ a.createdAt = b.createdAt ∧ a.id ≤ b.id

/-- One round of the loop: the pending start, and the map. -/
def runStep (state : Option Instant × List (Int × Int)) (p : PingSummary) : Option Instant × List (Int × Int) :=
  if p.kind = .start then (some p.createdAt, state.2)
  else if !isFinish p.kind then state
  else
    match state.1 with
    | none => state
    | some startedAt =>
        let secs := numSeconds (p.createdAt - startedAt)
        (none, if 0 ≤ secs then (p.id, secs) :: state.2 else state.2)

/-- Finish ping id to seconds since the preceding start, in any input order. -/
def runDurations (pings : List PingSummary) : List (Int × Int) :=
  ((pings.mergeSort runOrder).foldl runStep (none, [])).2

/-- The durations of the default view of a check page. -/
def windowDurations (checkId : Int) (recent : Option (List PingSummary)) : StoreProg AppError (List (Int × Int)) :=
  match recent with
  | some recent => return runDurations recent
  | none => do
      let fetched ← store (.listRecentPingSummaries checkId heartbeatWindow)
      return runDurations fetched

end Pingward
