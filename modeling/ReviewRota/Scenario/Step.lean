import ReviewRota.Desk.Command
import ReviewRota.Http.Endpoint

/-!
# Steps of a scenario

A step changes the preferences, has the desk or storage do something, or sends a request. Whatever
comes of it is its answer.
-/

namespace ReviewRota.Scenario

inductive Change where
  | maxReviewers (n : Int)
  | operationTimeout (t : Option Number)
  | vendor (name : String)
  | traced (b : Bool)
  deriving DecidableEq

def Change.apply (p : Preferences) : Change → Preferences
  | maxReviewers n => { p with maxReviewers := n }
  | operationTimeout t => { p with operationTimeout := t }
  | vendor name => { p with vendor := name }
  | traced b => { p with traced := b }

inductive Action where
  | configure (changes : List Change)
  | desk (c : Desk.Command) (timeout : Option Number)
  | storage (c : Call)
  | http (r : Request)

namespace Action

def isConfiguration : Action → Bool
  | configure _ => true
  | _ => false

def act : Action → Act Answer
  | configure changes => do
    Act.modify (fun w => { w with preferences := changes.foldl Change.apply w.preferences })
    return .nothing
  | desk c timeout => do
    let r ← (c.operation.act timeout).attempt
    return .of c.answer r
  | storage c => do
    let r ← c.act.attempt
    return .of c.answer r
  | http r => do
    let reply ← r.serve
    return .reply reply

end Action

/-- An action at a time; where none is given the wall clock stays as it is. -/
structure Step where
  now : Option Timestamp
  action : Action

def Step.act (s : Step) : Act Answer := do
  Act.modify (fun w => { w with now := s.now.getD w.now })
  s.action.act

def Step.outcome (s : Step) (i : Interruption) (w : World) : Answer × World :=
  match s.act i w with
  | (.ok a, v) => (a, v)
  | (.error e, v) => (.failed e, v)

end ReviewRota.Scenario
