import ReviewRota.Refusal

/-!
# Failures

What can stop a step: a refusal, an error of the database, or a fault of the program or its
arguments. Storage lets no database error out: a cancelled query and a lost race are refusals of
their own, and every other error becomes the internal one.
-/

namespace ReviewRota

inductive DatabaseError.Kind where
  | general
  | operational
  | integrity
  | data
  | programming
  | internal
  | transaction
  deriving DecidableEq

/-- An error of the database, with the SQLSTATE codes that it carries itself and those of the driver
error behind it. -/
structure DatabaseError where
  kind : DatabaseError.Kind
  message : String
  codes : List String
  causeCodes : List String
  deriving DecidableEq

namespace DatabaseError

def Kind.name : Kind → String
  | general => "DatabaseError"
  | operational => "OperationalError"
  | integrity => "IntegrityError"
  | data => "DataError"
  | programming => "ProgrammingError"
  | internal => "InternalError"
  | transaction => "TransactionManagementError"

def integrity (message : String) : DatabaseError := ⟨.integrity, message, [], []⟩

/-- The first code that is not empty, the error's own ones before those of its cause. -/
def state? (e : DatabaseError) : Option String :=
  (e.codes ++ e.causeCodes).find? (fun code => !code.isEmpty)

def queryCanceled : String := "57014"

def serializationFailure : String := "40001"

def deadlockDetected : String := "40P01"

/-- What storage makes of a database error. -/
def refusal (e : DatabaseError) : Refusal :=
  if e.state? = some queryCanceled then ⟨.cancelled, "storage query cancelled by deadline"⟩
  else if e.state? = some serializationFailure ∨ e.state? = some deadlockDetected then
    ⟨.conflict, "concurrent write detected, retry the request"⟩
  else .plain .internal

end DatabaseError

inductive Fault.Kind where
  | runtime
  | value
  | key
  | type
  | overflow
  | encoding
  | validation
  deriving DecidableEq

structure Fault where
  kind : Fault.Kind
  message : String
  deriving DecidableEq

def Fault.Kind.name : Fault.Kind → String
  | runtime => "RuntimeError"
  | value => "ValueError"
  | key => "KeyError"
  | type => "TypeError"
  | overflow => "OverflowError"
  | encoding => "UnicodeEncodeError"
  | validation => "ValidationError"

inductive Failure where
  | refused (r : Refusal)
  | database (e : DatabaseError)
  | fault (f : Fault)
  deriving DecidableEq

namespace Failure

def refuse (r : Reason) : Failure := refused (.plain r)

def name : Failure → String
  | refused r => r.reason.name
  | database e => e.kind.name
  | fault f => f.kind.name

def message : Failure → String
  | refused r => r.message
  | database e => e.message
  | fault f => f.message

def code? : Failure → Option String
  | refused r => some r.reason.code
  | _ => none

/-- The failure that leaves storage for one inside of it. -/
def classified : Failure → Failure
  | database e => refused e.refusal
  | f => f

@[simp] theorem classified_refused (r : Refusal) : (refused r).classified = refused r := rfl

@[simp] theorem classified_fault (f : Fault) : (fault f).classified = fault f := rfl

def IsConflict : Failure → Prop
  | refused r => r.reason = .conflict
  | _ => False

instance (f : Failure) : Decidable f.IsConflict := by
  cases f <;> unfold IsConflict <;> infer_instance

def IsNotFound : Failure → Prop
  | refused r => r.reason = .notFound
  | _ => False

instance (f : Failure) : Decidable f.IsNotFound := by
  cases f <;> unfold IsNotFound <;> infer_instance

/-- The failure says that a key is taken. -/
def IsExistence : Failure → Prop
  | refused r => r.reason.isExistence = true
  | _ => False

instance (f : Failure) : Decidable f.IsExistence := by
  cases f <;> unfold IsExistence <;> infer_instance

/-- The failure is a violated key or constraint. -/
def IsIntegrity : Failure → Prop
  | database e => e.kind = .integrity
  | _ => False

instance (f : Failure) : Decidable f.IsIntegrity := by
  cases f <;> unfold IsIntegrity <;> infer_instance

end Failure

end ReviewRota
