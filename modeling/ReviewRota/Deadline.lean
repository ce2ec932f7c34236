import ReviewRota.Failure
import ReviewRota.Number.Shortest

/-!
# Deadlines

An operation may be given a number of seconds. Before each use of storage the deadline is checked:
if the clock has reached it the operation is cancelled, and otherwise, on a server that knows
statement timeouts and inside of a transaction, the time that is left becomes the limit of the
statements to come. The rules are the same whatever the arithmetic of the clock.
-/

namespace ReviewRota

/-- A number as a caller writes it: whole or with a point. -/
inductive Number where
  | int (i : Int)
  | float (x : Binary64)
  deriving DecidableEq

def Number.text : Number → String
  | int i => toString i
  | float x => x.text

/-- The arithmetic that deadlines need. `millis` is the whole number of milliseconds. -/
class Seconds (τ : Type) where
  zero : τ
  ofNumber : Number → Except Failure τ
  add : τ → τ → τ
  sub : τ → τ → τ
  le : τ → τ → Bool
  lt : τ → τ → Bool
  millis : τ → Except Failure Int

namespace Binary64

def ofNumber : Number → Except Failure Binary64
  | .float x => .ok x
  | .int i =>
    let x := ofInt i
    if x.IsFinite then .ok x
    else .error (.fault ⟨.overflow, "int too large to convert to float"⟩)

def millis (x : Binary64) : Except Failure Int :=
  match x.times 1000 with
  | .infinite _ => .error (.fault ⟨.overflow, "cannot convert float infinity to integer"⟩)
  | .nan => .error (.fault ⟨.value, "cannot convert float NaN to integer"⟩)
  | y => .ok (y.truncate?.getD 0)

instance : Seconds Binary64 where
  zero := zero false
  ofNumber := ofNumber
  add := add
  sub := sub
  le := le
  lt := lt
  millis := millis

end Binary64

/-- Whole seconds are not rounded on their way to milliseconds. -/
def Number.millis : Number → Except Failure Int
  | int i => .ok (i * 1000)
  | float x => x.millis

/-- What is told to the database server about a transaction. -/
inductive Directive where
  | limit (millis : Int)
  | snapshot
  deriving DecidableEq

def Directive.sql : Directive → String
  | limit millis => "SET LOCAL statement_timeout = " ++ toString millis
  | snapshot => "SET TRANSACTION ISOLATION LEVEL REPEATABLE READ"

/-- What a connection knows of itself: the server's make, whether a transaction is open, and whether
it is nested in another one. -/
structure Link where
  vendor : String
  inTransaction : Bool
  nested : Bool
  deriving DecidableEq

namespace Link

/-- Whether the server takes directives at all. -/
def takesDirectives (l : Link) : Bool := l.vendor = "postgresql" && l.inTransaction

/-- The limit for statements that may take so many milliseconds: at least one, since zero would
mean none. -/
def limit (l : Link) (millis : Except Failure Int) : Except Failure (List Directive) :=
  if l.takesDirectives then millis.map (fun n => [.limit (max 1 n)]) else .ok []

/-- A transaction can only be made a snapshot from its start, so a nested one is left alone. -/
def snapshot (l : Link) : List Directive :=
  if l.takesDirectives && !l.nested then [.snapshot] else []

end Link

/-- A deadline: the seconds that were granted and the reading of the clock at which they are over. -/
structure Deadline (τ : Type) where
  timeout : Number
  expiresAt : τ
  deriving DecidableEq

namespace Deadline

variable {τ : Type} [Seconds τ]

/-- There is no deadline unless seconds are granted. -/
def start? (now : τ) : Option Number → Except Failure (Option (Deadline τ))
  | none => .ok none
  | some timeout => do
    let granted ← Seconds.ofNumber timeout
    return some ⟨timeout, Seconds.add now granted⟩

def Expired (d : Deadline τ) (now : τ) : Prop := Seconds.le d.expiresAt now = true

instance (d : Deadline τ) (now : τ) : Decidable (d.Expired now) := by
  unfold Expired
  infer_instance

def remaining (d : Deadline τ) (now : τ) : τ :=
  let left := Seconds.sub d.expiresAt now
  if Seconds.lt (Seconds.zero : τ) left then left else Seconds.zero

def exceeded (d : Deadline τ) (step : String) : Refusal :=
  ⟨.cancelled, "operation deadline of " ++ d.timeout.text ++ "s exceeded" ++
    (if step.isEmpty then "" else " before " ++ step)⟩

/-- Checks a deadline before a step. The clock is read for the expiry and again for the time left. -/
def check (d : Option (Deadline τ)) (link : Link) (step : String) (now later : τ) :
    Except Failure (List Directive) :=
  match d with
  | none => .ok []
  | some d =>
    if d.Expired now then .error (.refused (d.exceeded step))
    else link.limit (Seconds.millis (d.remaining later))

@[simp] theorem check_none (link : Link) (step : String) (now later : τ) :
    check none link step now later = .ok [] := rfl

end Deadline

end ReviewRota
