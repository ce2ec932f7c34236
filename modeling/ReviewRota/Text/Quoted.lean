import ReviewRota.Text.Basic
import ReviewRota.Text.Printable

/-!
# Quoted text

Single quotes stand around a text, double ones if it holds a single quote and no double one. The
quote in use and the backslash are escaped, tab, newline and carriage return have letters, and
every other character without a shape is written by its number in two, four or eight digits.
-/

namespace ReviewRota.Quoted

def hexDigit (n : Nat) : Char := "0123456789abcdef".toList.getD (n % 16) '0'

def hex : Nat → Nat → List Char
  | 0, _ => []
  | places + 1, n => hex places (n / 16) ++ [hexDigit n]

@[simp] theorem length_hex (places n : Nat) : (hex places n).length = places := by
  induction places generalizing n with
  | zero => rfl
  | succ places ih => simp [hex, ih]

def quoteFor (points : List Nat) : Char :=
  if points.contains '\''.toNat && !points.contains '"'.toNat then '"' else '\''

def escape (quote : Char) (point : Nat) : List Char :=
  if point = quote.toNat ∨ point = '\\'.toNat then ['\\', Char.ofNat point]
  else if point = '\t'.toNat then ['\\', 't']
  else if point = '\n'.toNat then ['\\', 'n']
  else if point = '\r'.toNat then ['\\', 'r']
  else if isPrintable point then [Char.ofNat point]
  else if point ≤ 0xff then '\\' :: 'x' :: hex 2 point
  else if point ≤ 0xffff then '\\' :: 'u' :: hex 4 point
  else '\\' :: 'U' :: hex 8 point

def points (ps : List Nat) : List Char :=
  let quote := quoteFor ps
  quote :: (ps.flatMap (escape quote) ++ [quote])

end ReviewRota.Quoted

namespace ReviewRota

def Text.quoted (t : Text) : String := String.ofList (Quoted.points t.points)

def quoted (s : String) : String := (Text.plain s).quoted

end ReviewRota
