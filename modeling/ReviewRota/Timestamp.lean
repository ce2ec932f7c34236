/-!
# Points of time

Calendar time of the one zone that is used, down to the microsecond. The order is that of the
fields from the year on.
-/

namespace ReviewRota

structure Timestamp where
  year : Nat
  month : Nat
  day : Nat
  hour : Nat
  minute : Nat
  second : Nat
  micro : Nat
  deriving DecidableEq, Inhabited

namespace Timestamp

def fields (t : Timestamp) : List Nat :=
  [t.year, t.month, t.day, t.hour, t.minute, t.second, t.micro]

theorem fields_injective {s t : Timestamp} (h : s.fields = t.fields) : s = t := by
  cases s; cases t
  simp_all [fields]

def lt (s t : Timestamp) : Bool := decide (s.fields < t.fields)

def padded (width n : Nat) : String :=
  let ds := toString n
  String.ofList (List.replicate (width - ds.length) '0') ++ ds

/-- What follows the year: the date and the time to the second, without a mark of the zone. -/
def afterYear (t : Timestamp) : String :=
  "-" ++ padded 2 t.month ++ "-" ++ padded 2 t.day ++ "T" ++
    padded 2 t.hour ++ ":" ++ padded 2 t.minute ++ ":" ++ padded 2 t.second

/-- The form with all six places of the fraction. -/
def full (t : Timestamp) : String :=
  padded 4 t.year ++ t.afterYear ++ "." ++ padded 6 t.micro ++ "Z"

/-- The form that drops the fraction, with no zeros in front of the year. -/
def short (t : Timestamp) : String := toString t.year ++ t.afterYear ++ "Z"

def number? (cs : List Char) : Option Nat :=
  if cs.isEmpty || !cs.all Char.isDigit then none
  else some (cs.foldl (fun n c => 10 * n + (c.toNat - 48)) 0)

attribute [local instance (high)] instPowNat in
def fraction? : List Char → Option Nat
  | [] => some 0
  | '.' :: ds =>
    if 6 < ds.length then none
    else (number? ds).map (· * 10 ^ (6 - ds.length))
  | _ => none

/-- Reads `YYYY-MM-DDTHH:MM:SS[.f]Z`. -/
def parse? (s : String) : Option Timestamp :=
  match s.toList with
  | y₁ :: y₂ :: y₃ :: y₄ :: '-' :: m₁ :: m₂ :: '-' :: d₁ :: d₂ :: 'T' :: h₁ :: h₂ :: ':' ::
      n₁ :: n₂ :: ':' :: s₁ :: s₂ :: rest => do
    if rest.getLast? ≠ some 'Z' then none
    else
      let year ← number? [y₁, y₂, y₃, y₄]
      let month ← number? [m₁, m₂]
      let day ← number? [d₁, d₂]
      let hour ← number? [h₁, h₂]
      let minute ← number? [n₁, n₂]
      let second ← number? [s₁, s₂]
      let micro ← fraction? rest.dropLast
      return ⟨year, month, day, hour, minute, second, micro⟩
  | _ => none

end Timestamp

end ReviewRota
