import ReviewRota.Refusal
import ReviewRota.Value

/-!
# Replies

A status and a JSON body. A body with a number that is not finite or a text that is no string
cannot be sent, and the request ends in a bare status 500.
-/

namespace ReviewRota

structure Reply where
  status : Nat
  body : Option Value

namespace Reply

def object (fields : List (String × Value)) : Value :=
  .object (fields.map (fun (key, v) => (.plain key, v)))

def json (status : Nat) (fields : List (String × Value)) : Reply := ⟨status, some (object fields)⟩

def bare (status : Nat) : Reply := ⟨status, none⟩

def error (status : Nat) (code message : String) : Reply :=
  json status [("error", object [("code", code), ("message", message)])]

def invalid (message : String) : Reply := error 400 "VALIDATION_ERROR" message

def refused (r : Refusal) : Reply :=
  let (status, code, message) := r.report
  error status code message

def serverError : Reply := refused (.plain .internal)

def methodNotAllowed (method : String) : Reply :=
  json 405 [("detail", "Method \"" ++ method ++ "\" not allowed.")]

def notFound : Reply := bare 404

/-- The reply where another format than JSON is asked for. -/
def unknownFormat : Reply := json 404 [("detail", "Not found.")]

/-- The reply where no media type of JSON is accepted. -/
def unacceptable : Reply := json 406 [("detail", "Could not satisfy the request Accept header.")]

def sent (r : Reply) : Reply :=
  match r.body with
  | some v => if v.isSendable then r else bare 500
  | none => r

end Reply

end ReviewRota
