import ReviewRota.Number.Binary64

/-!
# The shortest decimal that reads back

Among the decimals that round to a given number the shortest is written, and of several that short
the nearest. For each count of digits only the two neighbours of the number on that decimal grid
need a look: if a grid has a point in the rounding interval, one of them is in it.
-/

namespace ReviewRota.Shortest

attribute [local instance (high)] instPowNat

/-- The numbers that round to `value / scale`, as a fraction of the same `scale`: everything strictly
between the ends, and the ends too if the significand is even. -/
structure Interval where
  low : Nat
  value : Nat
  high : Nat
  scale : Nat
  closed : Bool

/-- Half a unit lies between a number and the end above it, and below it too except at a power of
two, where the unit below is half as large. -/
def interval (m : Nat) (q : Int) : Interval :=
  let below := if m = 2 ^ (52 : Nat) ∧ -1074 < q then 1 else 2
  let up := 2 ^ (q - 2).toNat
  ⟨(4 * m - below) * up, 4 * m * up, (4 * m + 2) * up, 2 ^ (2 - q).toNat, m % 2 = 0⟩

/-- The interval counted in units of `10 ^ u`. -/
def Interval.inUnits (i : Interval) (u : Int) : Interval :=
  let up := 10 ^ (-u).toNat
  ⟨i.low * up, i.value * up, i.high * up, i.scale * 10 ^ u.toNat, i.closed⟩

def Interval.contains (i : Interval) (c : Nat) : Bool :=
  if i.closed then i.low ≤ c * i.scale && c * i.scale ≤ i.high
  else i.low < c * i.scale && c * i.scale < i.high

/-- The neighbour of the value that reads back, the nearer one if both do. -/
def Interval.hit? (i : Interval) : Option Nat :=
  let c := i.value / i.scale
  match i.contains c, i.contains (c + 1) with
  | true, true => some (Binary64.divEven i.value i.scale)
  | true, false => some c
  | false, true => some (c + 1)
  | false, false => none

/-- The greatest `k` with `10 ^ k ≤ n / d`: the binary logarithm gives it up to one. -/
def log10Ratio (n d : Nat) : Int :=
  let k := Int.fdiv (Binary64.log2Ratio n d * 1233) 4096
  let reaches (k : Int) : Bool := d * 10 ^ k.toNat ≤ n * 10 ^ (-k).toNat
  if reaches (k + 1) then k + 1 else if reaches k then k else k - 1

/-- Tries one digit after another; seventeen always suffice, so the search is over before the
number of rounds is. -/
def search (i : Interval) (k : Int) : Nat → Nat → Nat × Int
  | 0, n => ((i.inUnits (k + 1 - n)).value / (i.inUnits (k + 1 - n)).scale, k + 1 - n)
  | rounds + 1, n =>
    match (i.inUnits (k + 1 - n)).hit? with
    | some c => (c, k + 1 - n)
    | none => search i k rounds (n + 1)

def decimal (m : Nat) (q : Int) : Nat × Int :=
  let i := interval m q
  search i (log10Ratio i.value i.scale) 17 1

/-- How a decimal is laid out: the powers of ten that are written by position, and the least number
of digits of an exponent. -/
structure Layout where
  least : Int
  greatest : Int
  exponentDigits : Nat

/-- Numbers from `0.0001` up to below `10 ^ 16` are written by position, with at least one decimal;
the others with a signed exponent of two or more digits. -/
def Layout.standard : Layout := ⟨-4, 15, 2⟩

def zeros (n : Nat) : List Char := List.replicate n '0'

def withoutTrailingZeros (ds : List Char) : List Char :=
  (ds.reverse.dropWhile (· = '0')).reverse

def Layout.exponent (l : Layout) (e : Int) : List Char :=
  let ds := (toString e.natAbs).toList
  (if e < 0 then '-' else '+') :: (zeros (l.exponentDigits - ds.length) ++ ds)

def Layout.write (l : Layout) (ds : List Char) (point : Int) : List Char :=
  if point - 1 < l.least ∨ l.greatest < point - 1 then
    let tail := ds.drop 1
    ds.take 1 ++ (if tail.isEmpty then [] else '.' :: tail) ++ 'e' :: l.exponent (point - 1)
  else if point ≤ 0 then
    '0' :: '.' :: (zeros (-point).toNat ++ ds)
  else
    let whole := ds.take point.toNat
    let rest := ds.drop point.toNat
    whole ++ zeros (point.toNat - whole.length) ++ '.' :: (if rest.isEmpty then ['0'] else rest)

end ReviewRota.Shortest

namespace ReviewRota

def Binary64.text : Binary64 → String
  | .nan => "nan"
  | .infinite negative => if negative then "-inf" else "inf"
  | .finite negative m q =>
    let sign := if negative then "-" else ""
    if m = 0 then sign ++ "0.0"
    else
      let (c, u) := Shortest.decimal m q
      let ds := (toString c).toList
      sign ++ String.ofList
        (Shortest.Layout.standard.write (Shortest.withoutTrailingZeros ds) (ds.length + u))

end ReviewRota
