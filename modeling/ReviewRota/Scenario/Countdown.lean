import ReviewRota.Deadline

/-!
# A deadline on its own

One deadline under a clock that moves by given amounts, checked after every move.
-/

namespace ReviewRota.Scenario

structure Move where
  advance : Binary64
  step : String

/-- What a deadline says after a move of the clock. -/
structure Reading where
  expired : Bool
  remaining : Option Binary64
  check : Except Failure (List Directive)

def Reading.of (d : Option (Deadline Binary64)) (link : Link) (step : String) (now : Binary64) :
    Reading where
  expired := d.any (fun d => decide (d.Expired now))
  remaining := d.map (fun d => d.remaining now)
  check := Deadline.check d link step now now

/-- The readings of a deadline, move after move. To be refused is a reading like any other, but a
check that fails in another way is the end of it. -/
def readings (d : Option (Deadline Binary64)) (link : Link) (now : Binary64) :
    List Move → Except Failure (List Reading)
  | [] => return []
  | m :: ms => do
    let now := now + m.advance
    let r := Reading.of d link m.step now
    match r.check with
    | .ok _ | .error (.refused _) => return r :: (← readings d link now ms)
    | .error e => .error e

def countdown (timeout : Option Number) (link : Link) (now : Binary64) (ms : List Move) :
    Except Failure (List Reading) := do
  let d ← Deadline.start? now timeout
  readings d link now ms

end ReviewRota.Scenario
