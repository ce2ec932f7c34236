import ReviewRota.Answer
import ReviewRota.Deadline
import ReviewRota.Store.Tables

/-!
# Acts

An act is a program over the world: the tables, the state of the transaction, the clocks and the
settings, with a journal of what was done. It may be interrupted at every point where it touches
storage: another request may be served in between, or a fault may strike. What interrupts it is a
parameter, so that an act means one function from worlds to worlds for every way of being
interrupted.

A transaction keeps the tables it started from and restores them if a failure leaves it. The
outermost one also checks the references between the tables before it ends.
-/

namespace ReviewRota

/-- The storage calls that can be interrupted as a whole. -/
inductive Port where
  | userCreate
  | userUpdate
  | userGet
  | userSetActive
  | usersOfTeam
  | userList
  | teamCreate
  | teamGet
  | teamList
  | pullRequestCreate
  | pullRequestUpdate
  | pullRequestGet
  | pullRequestsOfReviewer
  | pullRequestList
  deriving DecidableEq

/-- The single statements that storage calls are made of. Those that open, keep or undo a
transaction are not among them: one that cannot be opened fails before anything is written, and one
that cannot be kept is undone, as it is where a reference leads nowhere. -/
inductive Statement where
  | selectUser
  | selectTeamUsers
  | selectUsers
  | insertUser
  | updateUser
  | updateActive
  | selectTeam
  | insertTeam
  | selectTeams
  | selectMembers
  | selectPullRequest
  | pullRequestExists
  | insertPullRequest
  | updatePullRequest
  | deleteReviewers
  | insertReviewers
  | selectReviewed
  | selectPullRequests
  | selectAssignments
  deriving DecidableEq

/-- A place in a run that an interruption can name. -/
inductive Point where
  | port (p : Port)
  | teamInsertion
  | reviewerWriting
  | statement (s : Statement)
  | deadline
  deriving DecidableEq

inductive Moment where
  | before
  | after
  deriving DecidableEq

/-- What the journal tells of a run. -/
inductive Event where
  | reached (p : Point)
  | left (p : Point)
  | passed (step : String)
  | directed (d : Directive)
  | opened
  | closed
  deriving DecidableEq

/-- The settings that requests read while they run. -/
structure Preferences where
  maxReviewers : Int := Roster.defaultLimit
  operationTimeout : Option Number := none
  vendor : String := "sqlite"
  /-- Whether reports show the tables after every step. -/
  traced : Bool := false
  deriving DecidableEq

structure World where
  tables : Tables := {}
  /-- How many transactions are open, one inside the other. -/
  depth : Nat := 0
  /-- Whether a write failed in the open transaction, which can then only be rolled back. -/
  spoiled : Bool := false
  preferences : Preferences := {}
  now : Timestamp
  clock : Binary64 := .zero false
  /-- By how much the clock moves at every check of a deadline. -/
  tick : Binary64 := .zero false
  journal : List Event := []
  /-- The answers to requests that were served in between. -/
  asides : List Answer := []

def World.link (w : World) : Link :=
  ⟨w.preferences.vendor, decide (0 < w.depth), decide (1 < w.depth)⟩

def World.log (w : World) (e : Event) : World := { w with journal := w.journal ++ [e] }

abbrev Interruption := Point → Moment → World → Except Failure Unit × World

/-- A run that nothing interrupts. -/
def Interruption.none : Interruption := fun _ _ w => (.ok (), w)

def Act (α : Type) : Type := Interruption → World → Except Failure α × World

namespace Act

variable {α β : Type}

protected def pure (a : α) : Act α := fun _ w => (.ok a, w)

protected def bind (x : Act α) (f : α → Act β) : Act β := fun i w =>
  match x i w with
  | (.ok a, v) => f a i v
  | (.error e, v) => (.error e, v)

instance : Monad Act where
  pure := Act.pure
  bind := Act.bind

@[simp] theorem pure_apply (a : α) (i : Interruption) (w : World) :
    (pure a : Act α) i w = (.ok a, w) := rfl

@[simp] theorem bind_apply (x : Act α) (f : α → Act β) (i : Interruption) (w : World) :
    (x >>= f) i w =
      match x i w with
      | (.ok a, v) => f a i v
      | (.error e, v) => (.error e, v) := rfl

def fail (e : Failure) : Act α := fun _ w => (.error e, w)

def refuse (r : Refusal) : Act α := fail (.refused r)

def ofExcept (r : Except Failure α) : Act α := fun _ w => (r, w)

/-- Runs an act and hands over its outcome, whichever it is. -/
def attempt (x : Act α) : Act (Except Failure α) := fun i w =>
  match x i w with
  | (r, v) => (.ok r, v)

/-- Goes on with `handler` where an act fails. What the act did stays done. -/
def orElse (x : Act α) (handler : Failure → Act α) : Act α := fun i w =>
  match x i w with
  | (.ok a, v) => (.ok a, v)
  | (.error e, v) => handler e i v

def world : Act World := fun _ w => (.ok w, w)

def modify (f : World → World) : Act Unit := fun _ w => (.ok (), f w)

def log (e : Event) : Act Unit := modify (·.log e)

@[simp] theorem fail_apply (e : Failure) (i : Interruption) (w : World) :
    (fail e : Act α) i w = (.error e, w) := rfl

@[simp] theorem refuse_apply (r : Refusal) (i : Interruption) (w : World) :
    (refuse r : Act α) i w = (.error (.refused r), w) := rfl

@[simp] theorem ofExcept_apply (r : Except Failure α) (i : Interruption) (w : World) :
    ofExcept r i w = (r, w) := rfl

@[simp] theorem attempt_apply (x : Act α) (i : Interruption) (w : World) :
    x.attempt i w = (.ok (x i w).1, (x i w).2) := rfl

@[simp] theorem orElse_apply (x : Act α) (handler : Failure → Act α) (i : Interruption)
    (w : World) :
    x.orElse handler i w =
      match x i w with
      | (.ok a, v) => (.ok a, v)
      | (.error e, v) => handler e i v := rfl

@[simp] theorem world_apply (i : Interruption) (w : World) : world i w = (.ok w, w) := rfl

@[simp] theorem modify_apply (f : World → World) (i : Interruption) (w : World) :
    modify f i w = (.ok (), f w) := rfl

/-! ### Points -/

/-- Enters a point of the run, which may be interrupted there. -/
def reach (p : Point) : Act Unit := fun i w => i p .before (w.log (.reached p))

/-- Leaves a point of the run, which may be interrupted there once more. -/
def leave (p : Point) : Act Unit := fun i w => i p .after (w.log (.left p))

/-- An act as a place that can be interrupted before it and, if it succeeds, after it. -/
def visiting (p : Point) (x : Act α) : Act α := do
  reach p
  let a ← x
  leave p
  return a

/-- A storage call: no error of the database leaves it, whether it arose inside or struck at one of
its two ends. -/
def port (p : Port) (x : Act α) : Act α :=
  (visiting (.port p) x).orElse (fun e => fail e.classified)

/-! ### Transactions -/

def danglingReference : DatabaseError := .integrity "FOREIGN KEY constraint failed"

/-- The world after a transaction that is undone. A transaction that was opened in a spoiled one
leaves it spoiled. -/
def rollBack (before after : World) : World :=
  { after with tables := before.tables, depth := before.depth, spoiled := before.spoiled }

/-- Runs an act in a transaction of its own. A spoiled transaction is undone even where the act
succeeds, and the outermost one where a reference leads nowhere. -/
def atomic (x : Act α) : Act α := fun i w =>
  let (r, v) := x i { w.log .opened with depth := w.depth + 1 }
  let v := v.log .closed
  match r with
  | .error e => (.error e, rollBack w v)
  | .ok a =>
    if v.spoiled then (.ok a, rollBack w v)
    else if w.depth = 0 ∧ ¬v.tables.Linked then
      (.error (.database danglingReference), rollBack w v)
    else (.ok a, { v with depth := w.depth })

/-! ### Statements -/

def spoiledTransaction : DatabaseError :=
  ⟨.transaction, "An error occurred in the current transaction. You can't execute queries " ++
    "until the end of the 'atomic' block.", [], []⟩

/-- Refuses statements in a spoiled transaction. -/
def checkTransaction : Act Unit := fun _ w =>
  if w.spoiled then (.error (.database spoiledTransaction), w) else (.ok (), w)

def read (s : Statement) (f : Tables → Except Failure α) : Act α := do
  reach (.statement s)
  checkTransaction
  let w ← world
  ofExcept (f w.tables)

/-- Replaces the tables. Outside of a transaction every statement checks the references itself. -/
def store (t : Tables) : Act Unit := fun _ w =>
  if w.depth = 0 ∧ ¬t.Linked then (.error (.database danglingReference), w)
  else (.ok (), { w with tables := t })

/-- Marks the open transaction, if there is one, as spoiled. -/
def spoil : Act Unit := modify (fun w => { w with spoiled := w.spoiled || decide (0 < w.depth) })

/-- A statement that writes. Its values are looked at before the state of the transaction is; a
failure of any kind spoils the transaction. -/
def write (s : Statement) (values : Except Failure β) (f : β → Tables → Except Failure (α × Tables)) :
    Act α :=
  (do
    reach (.statement s)
    let b ← ofExcept values
    checkTransaction
    let w ← world
    let (a, t) ← ofExcept (f b w.tables)
    store t
    return a).orElse (fun e => do spoil; fail e)

def now : Act Timestamp := fun _ w => (.ok w.now, w)

/-- Runs an act from a world that nothing interrupts. -/
def run (x : Act α) (w : World) : Except Failure α × World := x .none w

end Act

end ReviewRota
