import ReviewRota.Number.Numeral
import ReviewRota.Value

/-!
# Reading JSON

The grammar of JSON over a list of characters. A number with a point or an exponent is a float,
any other one an integer; of a repeated key the last value counts, at the place of the first;
surrogate escapes join into one character where they pair up.
-/

namespace ReviewRota.Json

def isSpace (c : Char) : Bool := c = ' ' || c = '\t' || c = '\n' || c = '\r'

def skipSpace (cs : List Char) : List Char := cs.dropWhile isSpace

def hexValue? (c : Char) : Option Nat :=
  if c.isDigit then some (c.toNat - 48)
  else if 'a' ≤ c && c ≤ 'f' then some (c.toNat - 87)
  else if 'A' ≤ c && c ≤ 'F' then some (c.toNat - 55)
  else none

def unit? (a b c d : Char) : Option Nat := do
  let w ← hexValue? a
  let x ← hexValue? b
  let y ← hexValue? c
  let z ← hexValue? d
  return ((w * 16 + x) * 16 + y) * 16 + z

def escape? : Char → Option Nat
  | '"' => some 34
  | '\\' => some 92
  | '/' => some 47
  | 'b' => some 8
  | 'f' => some 12
  | 'n' => some 10
  | 'r' => some 13
  | 't' => some 9
  | _ => none

def string? : List Char → Option (List Nat × List Char)
  | [] => none
  | '"' :: cs => some ([], cs)
  | '\\' :: 'u' :: a :: b :: c :: d :: cs => do
    let p ← unit? a b c d
    let (ps, rest) ← string? cs
    return (p :: ps, rest)
  | '\\' :: e :: cs => do
    let p ← escape? e
    let (ps, rest) ← string? cs
    return (p :: ps, rest)
  | c :: cs =>
    if c.toNat < 32 then none
    else do
      let (ps, rest) ← string? cs
      return (c.toNat :: ps, rest)

/-- Joins a high surrogate and the low one right after it. -/
def joinPairs : List Nat → List Nat
  | p :: q :: ps =>
    if 0xd800 ≤ p ∧ p ≤ 0xdbff ∧ 0xdc00 ≤ q ∧ q ≤ 0xdfff then
      (0x10000 + (p - 0xd800) * 0x400 + (q - 0xdc00)) :: joinPairs ps
    else p :: joinPairs (q :: ps)
  | ps => ps

def text? (cs : List Char) : Option (Text × List Char) :=
  (string? cs).map (fun (ps, rest) => (.ofPoints (joinPairs ps), rest))

/-- An exponent mark with its sign and digits, if it is complete. -/
def exponent? : List Char → Option (Int × List Char)
  | c :: cs =>
    if c = 'e' || c = 'E' then
      let (negative, cs) := Numeral.signed cs
      let ds := cs.takeWhile Char.isDigit
      if ds.isEmpty then none
      else some (Binary64.signed negative (Numeral.number ds), cs.dropWhile Char.isDigit)
    else none
  | [] => none

def fraction? : List Char → Option (List Char × List Char)
  | '.' :: cs =>
    let ds := cs.takeWhile Char.isDigit
    if ds.isEmpty then none else some (ds, cs.dropWhile Char.isDigit)
  | _ => none

/-- The digits before the point: a zero in front stands alone. -/
def whole? : List Char → Option (List Char × List Char)
  | '0' :: cs => some (['0'], cs)
  | cs =>
    let ds := cs.takeWhile Char.isDigit
    if ds.isEmpty then none else some (ds, cs.dropWhile Char.isDigit)

def number? (cs : List Char) : Option (Value × List Char) := do
  let (negative, cs) := match cs with
    | '-' :: cs => (true, cs)
    | cs => (false, cs)
  let (whole, cs) ← whole? cs
  let fraction := fraction? cs
  let (ds, cs) := fraction.getD ([], cs)
  let exponent := exponent? cs
  let (e, cs) := exponent.getD (0, cs)
  if fraction.isSome || exponent.isSome then
    return (.float (Numeral.decimal negative whole ds e), cs)
  else if Numeral.maxDigits < whole.length then none
  else return (.int (Binary64.signed negative (Numeral.number whole)), cs)

/-- Fields in the order in which their keys first came. -/
def put (key : Text) (v : Value) : List (Text × Value) → List (Text × Value)
  | [] => [(key, v)]
  | (k, w) :: fields => if k = key then (k, v) :: fields else (k, w) :: put key v fields

mutual

/-- The value that the characters begin with. Each round of recursion takes one from `fuel`, each
list or object that is entered one from `depth`. -/
def value? (fuel depth : Nat) (cs : List Char) : Option (Value × List Char) :=
  match fuel with
  | 0 => none
  | fuel + 1 =>
    match cs with
    | '"' :: cs => (text? cs).map (fun (t, rest) => (.text t, rest))
    | '[' :: cs =>
      match depth, skipSpace cs with
      | 0, _ => none
      | _, ']' :: rest => some (.list [], rest)
      | depth + 1, cs => (items? fuel depth cs).map (fun (vs, rest) => (.list vs, rest))
    | '\x7b' :: cs =>
      match depth, skipSpace cs with
      | 0, _ => none
      | _, '\x7d' :: rest => some (.object [], rest)
      | depth + 1, cs => (fields? fuel depth [] cs).map (fun (fs, rest) => (.object fs, rest))
    | 'n' :: 'u' :: 'l' :: 'l' :: rest => some (.null, rest)
    | 't' :: 'r' :: 'u' :: 'e' :: rest => some (.bool true, rest)
    | 'f' :: 'a' :: 'l' :: 's' :: 'e' :: rest => some (.bool false, rest)
    | cs => number? cs

def items? (fuel depth : Nat) (cs : List Char) : Option (List Value × List Char) :=
  match fuel with
  | 0 => none
  | fuel + 1 => do
    let (v, rest) ← value? fuel depth cs
    match skipSpace rest with
    | ']' :: rest => some ([v], rest)
    | ',' :: rest => do
      let (vs, rest) ← items? fuel depth (skipSpace rest)
      return (v :: vs, rest)
    | _ => none

/-- The fields of an object up to its closing brace, added to those that came before. -/
def fields? (fuel depth : Nat) (before : List (Text × Value)) (cs : List Char) :
    Option (List (Text × Value) × List Char) :=
  match fuel, cs with
  | fuel + 1, '"' :: cs => do
    let (key, rest) ← text? cs
    match skipSpace rest with
    | ':' :: rest => do
      let (v, rest) ← value? fuel depth (skipSpace rest)
      match skipSpace rest with
      | '\x7d' :: rest => some (put key v before, rest)
      | ',' :: rest => fields? fuel depth (put key v before) (skipSpace rest)
      | _ => none
    | _ => none
  | _, _ => none

end

def parse? (depth : Nat) (cs : List Char) : Option Value := do
  let (v, rest) ← value? (2 * cs.length + 2) depth (skipSpace cs)
  if (skipSpace rest).isEmpty then some v else none

end ReviewRota.Json
