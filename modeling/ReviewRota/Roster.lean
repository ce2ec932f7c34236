/-!
# Choosing reviewers

The members of a team stand in ascending order of their ids, and the first eligible one is taken:
active, not the author, not assigned yet and not the one to be replaced. The choice depends only
on who is in the team.
-/

namespace ReviewRota

structure Member where
  id : String
  username : String
  active : Bool
  deriving DecidableEq, Inhabited

namespace Roster

def defaultLimit : Int := 2

/-- Ascending order of ids; members of one id stay in the order they came in. -/
def ordered (members : List Member) : List Member :=
  members.mergeSort (fun a b => decide (a.id ≤ b.id))

/-- Whether a member may review: the author and the one to be replaced may be unknown. -/
def Eligible (m : Member) (author : Option String) (assigned : List String)
    (replaced : Option String) : Prop :=
  m.active = true ∧ some m.id ≠ author ∧ some m.id ≠ replaced ∧ m.id ∉ assigned

instance (m : Member) (author : Option String) (assigned : List String)
    (replaced : Option String) : Decidable (Eligible m author assigned replaced) := by
  unfold Eligible
  infer_instance

def next (members : List Member) (author : Option String) (assigned : List String)
    (replaced : Option String) : Option String :=
  ((ordered members).find? (fun m => decide (Eligible m author assigned replaced))).map Member.id

/-- Fills up to so many further places behind those taken. -/
def fill (members : List Member) (author : Option String) : Nat → List String → List String
  | 0, taken => taken
  | places + 1, taken =>
    match next members author taken none with
    | none => taken
    | some id => fill members author places (taken ++ [id])

/-- Fills the places one by one until they or the candidates run out. A limit below zero leaves
no place. -/
def pick (members : List Member) (author : Option String) (limit : Int) : List String :=
  fill members author limit.toNat []

end Roster

end ReviewRota
