import ReviewRota.Http.Query
import ReviewRota.Http.Reply

/-!
# Requests

What is known of a request, and the document in its body: nothing at all is an empty object, and a
body that is not JSON by its type or by its bytes is no document. The host that a request names is
taken for one that the service goes by.
-/

namespace ReviewRota

structure Request where
  method : String
  path : String
  query : String
  body : List Nat
  contentType : String
  /-- Whether the database cannot be reached. -/
  databaseDown : Bool
  /-- The media types that the reply may have, between commas. -/
  accept : String := "*/*"

namespace Request

/-- Documents that nest deeper are refused. The reader has no bound of its own and goes as deep as
the stack allows; this is what the stack is assumed to leave to it. -/
def assumedDepth : Nat := 950

/-- A media type in front of its parameters, in lower case. -/
def mediaType (cs : List Char) : List Char :=
  (stripChars (cs.takeWhile (· ≠ ';'))).map Char.toLower

/-- Whether a media type is JSON; a star stands for either half. -/
def isJson (cs : List Char) : Bool :=
  let t := mediaType cs
  let main := t.takeWhile (· ≠ '/')
  let sub := (t.dropWhile (· ≠ '/')).drop 1
  (main = "application".toList || main = ['*']) && (sub = "json".toList || sub = ['*'])

/-- The document in the body. Its bytes are taken for UTF-8, whatever charset the content type may
name among its parameters. -/
def document? (r : Request) : Option Value :=
  if r.body.isEmpty then some (.object [])
  else if !isJson r.contentType.toList then none
  else
    match Utf8.decode? r.body with
    | some cs => Json.parse? assumedDepth cs
    | none => none

/-- Whether the query asks for no other format of the reply than JSON. -/
def asksForJson (r : Request) : Bool :=
  match Query.last? r.query "format" with
  | none => true
  | some format => format.isEmpty || format = "json"

def acceptsJson (r : Request) : Bool := (r.accept.toList.splitOn ',').any isJson

/-- Whether the reply may be JSON. -/
def wantsJson (r : Request) : Bool := r.asksForJson && r.acceptsJson

/-- The reply to a request that wants none in JSON. -/
def unwanted (r : Request) : Reply := if r.asksForJson then .unacceptable else .unknownFormat

end Request

end ReviewRota
