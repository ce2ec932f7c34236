import ReviewRota.Number.Binary64
import ReviewRota.Text.Blank
import ReviewRota.Text.Digit

/-!
# Reading numerals

Blanks may stand around a numeral, a sign before it, single underscores between its digits, and
the digits may be those of any script.
-/

namespace ReviewRota.Numeral

/-- The separators of files, groups, records and units are blanks elsewhere, but not here. -/
def isBlank (c : Char) : Bool := ReviewRota.isBlank c && !(28 ≤ c.toNat && c.toNat ≤ 31)

def trim (cs : List Char) : List Char :=
  ((cs.dropWhile isBlank).reverse.dropWhile isBlank).reverse

def plain (cs : List Char) : List Char :=
  cs.map (fun c => ((Digit.value? c).map (fun d => Char.ofNat (48 + d))).getD c)

def number (ds : List Char) : Nat := ds.foldl (fun n c => 10 * n + (c.toNat - 48)) 0

/-- Every underscore stands between two digits. -/
def spaced : List Char → Bool
  | '_' :: _ => false
  | c :: '_' :: d :: cs => c.isDigit && d.isDigit && spaced (d :: cs)
  | [_, '_'] => false
  | _ :: cs => spaced cs
  | [] => true

def withoutUnderscores (cs : List Char) : List Char := cs.filter (· ≠ '_')

def signed : List Char → Bool × List Char
  | '-' :: cs => (true, cs)
  | '+' :: cs => (false, cs)
  | cs => (false, cs)

/-- Why a text is no whole number. -/
inductive Fault where
  | malformed
  | tooLong (digits : Nat)
  deriving DecidableEq

/-- Whole numbers of more digits than this are refused. -/
def maxDigits : Nat := 4300

def int? (cs : List Char) : Except Fault Int :=
  let (negative, rest) := signed (trim (plain cs))
  let body := rest.takeWhile (fun c => c.isDigit || c = '_')
  let ds := withoutUnderscores body
  if !spaced body || ds.isEmpty then .error .malformed
  else if maxDigits < ds.length then .error (.tooLong ds.length)
  else if body.length < rest.length then .error .malformed
  else .ok (Binary64.signed negative (number ds))

def exponent? (cs : List Char) : Option Int :=
  let (negative, ds) := signed cs
  if ds.isEmpty || !ds.all Char.isDigit then none
  else some (Binary64.signed negative (number ds))

def decimal (negative : Bool) (whole fraction : List Char) (exponent : Int) : Binary64 :=
  .ofDecimal negative (number (whole ++ fraction)) (exponent - fraction.length)

/-- The unsigned decimals: digits with at most one point among them, then perhaps an exponent. -/
def unsigned? (negative : Bool) (cs : List Char) : Option Binary64 :=
  let whole := cs.takeWhile Char.isDigit
  let rest := cs.dropWhile Char.isDigit
  let (fraction, rest) := match rest with
    | '.' :: r => (r.takeWhile Char.isDigit, r.dropWhile Char.isDigit)
    | r => ([], r)
  if whole.isEmpty && fraction.isEmpty then none
  else match rest with
    | [] => some (decimal negative whole fraction 0)
    | c :: r =>
      if c = 'e' || c = 'E' then (exponent? r).map (decimal negative whole fraction) else none

/-- Decimals, and in any case of letters `inf`, `infinity` and `nan`. -/
def float? (cs : List Char) : Option Binary64 :=
  let body := trim (plain cs)
  if !spaced body then none
  else
    let (negative, rest) := signed (withoutUnderscores body)
    let word := String.ofList (rest.map Char.toLower)
    if word = "inf" || word = "infinity" then some (.infinite negative)
    else if word = "nan" then some .nan
    else unsigned? negative rest

end ReviewRota.Numeral
