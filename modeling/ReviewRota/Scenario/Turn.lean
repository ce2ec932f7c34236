import ReviewRota.Scenario.Step

/-!
# Turns of a scenario

A turn is a step with interjections: at the chosen call of a chosen point other steps are taken, and
then perhaps a failure strikes. Steps taken in between share the world of the one they interrupt,
transaction and clock included, but nothing interrupts them and their calls do not count.
-/

namespace ReviewRota.Scenario

structure Interjection where
  point : Point
  call : Nat
  moment : Moment
  steps : List Step
  failure : Option Failure

structure Turn where
  step : Step
  tick : Binary64
  interjections : List Interjection

def isDirected : Event → Bool
  | .directed _ => true
  | _ => false

/-- Takes a step in between. Of its journal only the directives are kept. -/
def aside (w : World) (s : Step) : World :=
  let (a, v) := s.outcome .none { w with journal := [] }
  { v with journal := w.journal ++ v.journal.filter isDirected, asides := v.asides ++ [a] }

/-- Takes the steps of one interjection after the other, up to the first that fails. -/
def fire : List Interjection → World → Except Failure Unit × World
  | [], w => (.ok (), w)
  | h :: hs, w =>
    let w := h.steps.foldl aside w
    match h.failure with
    | some e => (.error e, w)
    | none => fire hs w

/-- The interruption that a list of interjections makes. The journal tells which call of the point
the present one is. -/
def interruption (hs : List Interjection) : Interruption := fun p m w =>
  fire (hs.filter (fun h =>
    h.point = p && h.moment = m && h.call = w.journal.count (.reached p))) w

structure Report where
  answer : Answer
  asides : List Answer
  directives : Option (List Directive)
  tables : Option Tables

def directive? : Event → Option Directive
  | .directed d => some d
  | _ => none

namespace Turn

/-- A turn starts with the clock at zero and a new journal. -/
def start (t : Turn) (w : World) : World :=
  { w with clock := .zero false, tick := t.tick, journal := [], asides := [] }

def report (t : Turn) (a : Answer) (w : World) : Report where
  answer := a
  asides := w.asides
  directives :=
    if t.step.action.isConfiguration || w.preferences.vendor = "sqlite" then none
    else some (w.journal.filterMap directive?)
  tables :=
    if w.preferences.traced && !t.step.action.isConfiguration then some w.tables else none

def take (t : Turn) (w : World) : Report × World :=
  let (a, v) := t.step.outcome (interruption t.interjections) (t.start w)
  (t.report a v, v)

end Turn

def play : List Turn → World → List Report × World
  | [], w => ([], w)
  | t :: ts, w =>
    let (r, v) := t.take w
    let (rs, u) := play ts v
    (r :: rs, u)

theorem world_play_cons (t : Turn) (ts : List Turn) (w : World) :
    (play (t :: ts) w).2 = (play ts (t.take w).2).2 := rfl

end ReviewRota.Scenario
