import ReviewRota.Roster
import ReviewRota.Value.Order
import ReviewRota.Text.Blank
import ReviewRota.Text.Case

/-!
# The team form

A team as it comes in a document: a name and a list of members, checked field by field. Texts lose
the blanks at their ends and numbers are taken as text; a flag may be given by a word or a number.
The first field that does not pass is named.
-/

namespace ReviewRota.TeamForm

def maxName : Nat := 100

def maxUserId : Nat := 50

def maxUsername : Nat := 100

/-- A text of at most so many characters, not blank and without the null character. -/
def text? (maxLength : Nat) (v : Value) : Option String :=
  let given : Option String := match v with
    | .text t => t.plain?
    | .int _ => some v.spelled
    | .float _ => some v.spelled
    | _ => none
  given.bind (fun s =>
    let s := strip s
    if s.isEmpty || maxLength < s.length || s.toList.contains '\x00' then none else some s)

def trueWords : List String := ["t", "y", "yes", "true", "on", "1"]

def falseWords : List String := ["f", "n", "no", "false", "off", "0"]

def flag? (v : Value) : Option Bool :=
  match v with
  | .text t =>
    t.plain?.bind (fun s =>
      let word := Case.lower s
      if word ∈ trueWords then some true
      else if word ∈ falseWords then some false
      else none)
  | v =>
    if v.same (.bool true) then some true
    else if v.same (.bool false) then some false
    else none

def member? (v : Value) : Option Member := do
  let id ← text? maxUserId (← v.field? "user_id")
  let username ← text? maxUsername (← v.field? "username")
  let active ← flag? (← v.field? "is_active")
  return ⟨id, username, active⟩

/-- The members of a list, whose ids must differ as they will be stored. -/
def members? (v : Value) : Option (List Member) :=
  match v with
  | .list items => do
    let ms ← items.mapM member?
    if (ms.map Member.id).Nodup then some ms else none
  | _ => none

/-- The name and the members, or the name of the field that is wrong. -/
def read (v : Value) : Except String (String × List Member) :=
  match v with
  | .object _ =>
    match (v.field? "team_name").bind (text? maxName) with
    | none => .error "team_name"
    | some name =>
      match (v.field? "members").bind members? with
      | none => .error "members"
      | some ms => .ok (name, ms)
  | _ => .error "non_field_errors"

end ReviewRota.TeamForm
