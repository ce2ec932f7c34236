import ReviewRota.Json.Parser
import ReviewRota.Text.Utf8

/-!
# Query strings

Fields between ampersands, in each a name and a value around the first equals sign. A plus sign is a
blank and a percent sign with two hexadecimal digits a byte; the bytes are read as UTF-8, leniently.
-/

namespace ReviewRota.Query

/-- Queries with room for more fields are refused. -/
def maxSize : Nat := 1000

/-- The bytes of an ASCII text, where an escape that is none stands for itself. -/
def bytes : List Char → List Nat
  | '%' :: a :: b :: cs =>
    match Json.hexValue? a, Json.hexValue? b with
    | some x, some y => (x * 16 + y) :: bytes cs
    | _, _ => '%'.toNat :: bytes (a :: b :: cs)
  | c :: cs => c.toNat :: bytes cs
  | [] => []

def isAscii (c : Char) : Bool := c.toNat < 128

/-- Decodes the stretches of ASCII characters, of which `pending` is the present one, last character
first. All other characters stay as they are. -/
def decodeFrom (pending : List Char) : List Char → List Char
  | [] => Utf8.decodeLenient (bytes pending.reverse)
  | c :: cs =>
    if isAscii c then decodeFrom (c :: pending) cs
    else Utf8.decodeLenient (bytes pending.reverse) ++ c :: decodeFrom [] cs

def decode (cs : List Char) : List Char :=
  decodeFrom [] (cs.map (fun c => if c = '+' then ' ' else c))

def field (cs : List Char) : String × String :=
  let name := cs.takeWhile (· ≠ '=')
  let value := (cs.dropWhile (· ≠ '=')).drop 1
  (String.ofList (decode name), String.ofList (decode value))

/-- What stands between the ampersands. -/
def parts (query : String) : List (List Char) := query.toList.splitOn '&'

def fields (query : String) : List (String × String) :=
  ((parts query).filter (fun cs => !cs.isEmpty)).map field

/-- How many fields a query has room for, empty ones included. -/
def size (query : String) : Nat := (parts query).length

/-- The value of a name, the last one if there are several. -/
def last? (query : String) (name : String) : Option String := (fields query).reverse.lookup name

end ReviewRota.Query
