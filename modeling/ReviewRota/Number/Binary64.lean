/-!
# Binary floating-point numbers of 53 digits

A number is a sign, a whole significand and a power of two, or an infinity, or not a number.
Each operation computes the exact result and rounds it once, to the nearest number of the
format, a tie to the even significand.
-/

namespace ReviewRota

/-- `finite negative m q` stands for `m * 2 ^ q` with its sign. The operations below build it with
`m < 2 ^ 53` and `-1074 ≤ q ≤ 971`, and with the full 53 digits unless `q = -1074`. -/
inductive Binary64 where
  | finite (negative : Bool) (significand : Nat) (exponent : Int)
  | infinite (negative : Bool)
  | nan
  deriving DecidableEq, Inhabited

namespace Binary64

-- Powers are those of the numbers themselves, whatever other powers are in sight.
attribute [local instance (high)] instPowNat

/-- The whole number nearest to `n / d`, a tie to the even one. -/
def divEven (n d : Nat) : Nat :=
  let q := n / d
  let r := n % d
  if d < 2 * r ∨ (2 * r = d ∧ q % 2 = 1) then q + 1 else q

/-- The greatest `e` with `2 ^ e ≤ n / d`, for positive `n` and `d`. -/
def log2Ratio (n d : Nat) : Int :=
  let e : Int := (n.log2 : Int) - (d.log2 : Int)
  if d * 2 ^ e.toNat ≤ n * 2 ^ (-e).toNat then e else e - 1

def zero (negative : Bool) : Binary64 := .finite negative 0 (-1074)

/-- The number nearest to `n / d`. A rounded significand of 54 digits is the next power of two. -/
def ofRatio (negative : Bool) (n d : Nat) : Binary64 :=
  if n = 0 then zero negative
  else
    let q := max (log2Ratio n d - 52) (-1074)
    let m := divEven (n * 2 ^ (-q).toNat) (d * 2 ^ q.toNat)
    let (m, q) := if m = 2 ^ (53 : Nat) then (2 ^ (52 : Nat), q + 1) else (m, q)
    if 971 < q then .infinite negative else .finite negative m q

def ofScaled (n : Int) (q : Int) : Binary64 :=
  ofRatio (decide (n < 0)) (n.natAbs * 2 ^ q.toNat) (2 ^ (-q).toNat)

def ofInt (i : Int) : Binary64 := ofRatio (decide (i < 0)) i.natAbs 1

def IsFinite : Binary64 → Prop
  | .finite .. => True
  | _ => False

instance (x : Binary64) : Decidable x.IsFinite := by
  cases x <;> unfold IsFinite <;> infer_instance

def signed (negative : Bool) (m : Nat) : Int := if negative then -(m : Int) else m

/-- Truth of a number as a condition: only the zeros are false. -/
def isZero : Binary64 → Bool
  | .finite _ m _ => m == 0
  | _ => false

def neg : Binary64 → Binary64
  | .finite s m q => .finite (!s) m q
  | .infinite s => .infinite (!s)
  | .nan => .nan

/-- An exact sum of zero is positive unless both zeros are negative. -/
def add : Binary64 → Binary64 → Binary64
  | .finite s m p, .finite t n q =>
    let e := min p q
    let sum := signed s m * 2 ^ (p - e).toNat + signed t n * 2 ^ (q - e).toNat
    if sum = 0 then zero (s && t) else ofScaled sum e
  | .infinite s, .infinite t => if s = t then .infinite s else .nan
  | .nan, _ => .nan
  | _, .nan => .nan
  | .infinite s, _ => .infinite s
  | _, .infinite t => .infinite t

def sub (x y : Binary64) : Binary64 := x.add y.neg

instance : Add Binary64 := ⟨add⟩
instance : Sub Binary64 := ⟨sub⟩
instance : Neg Binary64 := ⟨neg⟩

/-- A number times a positive whole number. -/
def times (x : Binary64) (k : Nat) : Binary64 :=
  match x with
  | .finite s m q =>
    if m = 0 then zero s else ofRatio s (m * k * 2 ^ q.toNat) (2 ^ (-q).toNat)
  | x => x

/-- The order of the numbers: both zeros are equal, nothing stands before or after `nan`. -/
def lt : Binary64 → Binary64 → Bool
  | .finite s m p, .finite t n q =>
    let e := min p q
    decide (signed s m * 2 ^ (p - e).toNat < signed t n * 2 ^ (q - e).toNat)
  | .nan, _ => false
  | _, .nan => false
  | .infinite s, .infinite t => s && !t
  | .infinite s, .finite .. => s
  | .finite .., .infinite t => !t

/-- Equality of values, which identifies the zeros and holds nowhere at `nan`. -/
def same : Binary64 → Binary64 → Bool
  | .nan, _ => false
  | _, .nan => false
  | x, y => !x.lt y && !y.lt x

def le (x y : Binary64) : Bool := x.lt y || x.same y

/-- The number without its fraction, where there is a whole number to give. -/
def truncate? : Binary64 → Option Int
  | .finite s m q => some (signed s (m * 2 ^ q.toNat / 2 ^ (-q).toNat))
  | _ => none

@[simp] theorem truncate?_nan : nan.truncate? = none := rfl

@[simp] theorem truncate?_infinite (s : Bool) : (infinite s).truncate? = none := rfl

/-- The number nearest to the decimal `digits * 10 ^ exponent`. Beyond four hundred places either
way the answer is an infinity or a zero, which spares the powers of ten. -/
def ofDecimal (negative : Bool) (digits : Nat) (exponent : Int) : Binary64 :=
  if digits = 0 then zero negative
  else
    let places : Int := (digits.log2 / 3 : Nat) + exponent
    if 400 < exponent then .infinite negative
    else if places < -400 then zero negative
    else ofRatio negative (digits * 10 ^ exponent.toNat) (10 ^ (-exponent).toNat)

end Binary64

end ReviewRota
