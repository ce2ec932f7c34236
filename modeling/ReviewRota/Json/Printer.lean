import ReviewRota.Value

/-!
# Writing JSON

Everything beyond ASCII is escaped, so the result can be sent in any encoding; characters beyond
the sixteen-bit ones become two surrogate escapes.
-/

namespace ReviewRota.Json

def escapeUnit (n : Nat) : List Char := '\\' :: 'u' :: Quoted.hex 4 n

def escapePoint (p : Nat) : List Char :=
  if p = 34 then ['\\', '"']
  else if p = 92 then ['\\', '\\']
  else if p = 10 then ['\\', 'n']
  else if p = 13 then ['\\', 'r']
  else if p = 9 then ['\\', 't']
  else if 32 ≤ p ∧ p < 127 then [Char.ofNat p]
  else if p ≤ 0xffff then escapeUnit p
  else
    escapeUnit (0xd800 + (p - 0x10000) / 0x400) ++ escapeUnit (0xdc00 + (p - 0x10000) % 0x400)

def printText (t : Text) : String :=
  String.ofList ('"' :: (t.points.flatMap escapePoint ++ ['"']))

def printFloat : Binary64 → String
  | .nan => "NaN"
  | .infinite negative => if negative then "-Infinity" else "Infinity"
  | x => x.text

mutual

def print : Value → String
  | .null => "null"
  | .bool b => if b then "true" else "false"
  | .int i => toString i
  | .float x => printFloat x
  | .text t => printText t
  | .list items => "[" ++ ",".intercalate (printItems items) ++ "]"
  | .object fields => "\x7b" ++ ",".intercalate (printFields fields) ++ "\x7d"

def printItems : List Value → List String
  | [] => []
  | v :: vs => print v :: printItems vs

def printFields : List (Text × Value) → List String
  | [] => []
  | (key, v) :: fields => (printText key ++ ":" ++ print v) :: printFields fields

end

end ReviewRota.Json
