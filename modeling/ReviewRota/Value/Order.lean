import ReviewRota.Failure
import ReviewRota.Value

/-!
# The order of values

Numbers compare by what they count, texts by code points, lists item by item; no other two values
are in any order. A list of values is sorted stably, and the first two that cannot be compared are
reported.
-/

namespace ReviewRota.Value

/-- A number to compare with. It need not be a rounded one. -/
def magnitude? : Value → Option Binary64
  | bool b => some (.finite false (if b then 1 else 0) 0)
  | int i => some (.finite (decide (i < 0)) i.natAbs 0)
  | float x => some x
  | _ => none

mutual

/-- Equality in content: a number equals a number of another kind. -/
def same (v w : Value) : Bool :=
  match v, w with
  | null, null => true
  | text s, text t => s = t
  | list vs, list ws => allSame vs ws
  | object fs, object gs => fs.length == gs.length && fieldsSame fs gs
  | v, w =>
    match v.magnitude?, w.magnitude? with
    | some x, some y => x.same y
    | _, _ => false

def allSame : List Value → List Value → Bool
  | [], [] => true
  | v :: vs, w :: ws => same v w && allSame vs ws
  | _, _ => false

def fieldsSame : List (Text × Value) → List (Text × Value) → Bool
  | [], _ => true
  | (key, v) :: fs, gs =>
    (match gs.lookup key with
      | some w => same v w
      | none => false) && fieldsSame fs gs

end

def kindName : Value → String
  | null => "NoneType"
  | bool _ => "bool"
  | int _ => "int"
  | float _ => "float"
  | text _ => "str"
  | list _ => "list"
  | object _ => "dict"

def incomparable (v w : Value) : Failure :=
  .fault ⟨.type, "'<' not supported between instances of '" ++ v.kindName ++ "' and '" ++
    w.kindName ++ "'"⟩

mutual

/-- Whether one value stands before another. -/
def before? (v w : Value) : Except Failure Bool :=
  match v, w with
  | text s, text t => .ok (s.lt t)
  | list vs, list ws => listBefore? vs ws
  | v, w =>
    match v.magnitude?, w.magnitude? with
    | some x, some y => .ok (x.lt y)
    | _, _ => .error (incomparable v w)

def listBefore? : List Value → List Value → Except Failure Bool
  | _, [] => .ok false
  | [], _ :: _ => .ok true
  | v :: vs, w :: ws => if same v w then listBefore? vs ws else before? v w

end

section Sorting

variable {α : Type} (before : α → α → Except Failure Bool)

/-- How many items in front stand each before the one in front of it, or none of them does. -/
def runLength (descending : Bool) : α → List α → Except Failure Nat
  | _, [] => .ok 0
  | previous, x :: xs => do
    if (← before x previous) = descending then
      return (← runLength descending x xs) + 1
    else return 0

/-- The place for an item among sorted ones, behind its equals: halves the stretch from `low` up to
`high` until nothing is left of it. -/
def placeFor (x : α) (sorted : List α) : Nat → Nat → Nat → Except Failure Nat
  | 0, low, _ => .ok low
  | rounds + 1, low, high =>
    if low < high then do
      let middle := (low + high) / 2
      match sorted[middle]? with
      | none => return low
      | some y =>
        if ← before x y then placeFor x sorted rounds low middle
        else placeFor x sorted rounds (middle + 1) high
    else .ok low

def insertAll (sorted : List α) : List α → Except Failure (List α)
  | [] => .ok sorted
  | x :: xs => do
    let place ← placeFor before x sorted sorted.length 0 sorted.length
    insertAll (sorted.take place ++ x :: sorted.drop place) xs

/-- Sorts by insertion behind the run that the items begin with, a descending one turned round. -/
def sortBy : List α → Except Failure (List α)
  | x :: y :: rest => do
    let descending ← before y x
    let n := (← runLength before descending y rest) + 2
    let items := x :: y :: rest
    let run := items.take n
    insertAll before (if descending then run.reverse else run) (items.drop n)
  | items => .ok items

end Sorting

end ReviewRota.Value
