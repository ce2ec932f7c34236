import ReviewRota.Desk.Plan

/-!
# Requests about teams
-/

namespace ReviewRota.Desk

/-- A member as listed in a request, where a field may be left out. -/
structure MemberEntry where
  id : Option Value
  username : Option Value
  active : Option Value

namespace MemberEntry

def present (key : String) : Option Value → Except Failure Value
  | some v => .ok v
  | none => .error (.fault ⟨.key, quoted key⟩)

/-- The member, if no field was left out. -/
def draft (m : MemberEntry) : Except Failure MemberDraft := do
  let id ← present "user_id" m.id
  let username ← present "username" m.username
  let active ← present "is_active" m.active
  return ⟨id, username, active⟩

def ofDraft (m : MemberDraft) : MemberEntry := ⟨some m.id, some m.username, some m.active⟩

@[simp] theorem draft_ofDraft (m : MemberDraft) : (ofDraft m).draft = .ok m := rfl

end MemberEntry

def createTeamPlan (name : Value) (entries : List MemberEntry) : Plan Team := do
  let members ← .done (entries.mapM MemberEntry.draft)
  .checked "team create"
  match ← Plan.attempt (.teamCreate ⟨name, members⟩) with
  | .ok team => return team
  | .error e => if e.IsExistence then .refuse .teamExists else .fail e

/-- Creates a team with its members; users that exist already are overwritten and moved. The call
to storage is a transaction of its own, so the request needs none. -/
def createTeam (name : Value) (entries : List MemberEntry) : Operation Team :=
  ⟨false, createTeamPlan name entries⟩

def getTeamPlan (name : Value) : Plan Team := do
  .checked "team read"
  let members ← Plan.ask (.teamGet name)
  return ⟨name, members.map Member.draft⟩

def getTeam (name : Value) : Operation Team := ⟨false, getTeamPlan name⟩

/-- Deactivates users one after the other and stops at the first failure. -/
def deactivateEach : List UserRow → Plan (List UserRow)
  | [] => return []
  | u :: us => do
    .checked ("deactivating " ++ u.id)
    let row ← Plan.ask (.userSetActive (.text (.plain u.id)) (.bool false))
    let rows ← deactivateEach us
    return row :: rows

def deactivateTeamPlan (name : Value) : Plan (List UserRow) := do
  .checked "team members read"
  let us ← Plan.ask (.usersOfTeam name)
  deactivateEach us

/-- Deactivates all members of a team. The request is no transaction: what was written before a
failure stays, and a repetition completes it. -/
def deactivateTeam (name : Value) : Operation (List UserRow) := ⟨false, deactivateTeamPlan name⟩

end ReviewRota.Desk
