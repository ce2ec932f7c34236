import ReviewRota.Store.Users

/-!
# Teams in storage

A team is stored together with its members, all or nothing: each listed user is created, or
overwritten and so moved into the team. A team can be read as long as somebody is in it.
-/

namespace ReviewRota.Teams

def missing (name : Value) : Refusal := ⟨.notFound, "Team '" ++ name.message ++ "' not found"⟩

def taken (name : Value) : Refusal := ⟨.alreadyExists, "Team '" ++ name.message ++ "' already exists"⟩

def isStored (name : Value) : Act Bool :=
  .read .selectTeam (fun t => do
    match ← name.column with
    | some name => return decide (t.HasTeam name)
    | none => return false)

def insert (name : Value) : Act Unit :=
  .write .insertTeam (.ok ()) (fun _ t => do
    let name ← Users.required "teams.name" (← name.column)
    if t.HasTeam name then
      .error (.database (.integrity "UNIQUE constraint failed: teams.name"))
    else return ((), t.addTeam name))

def memberOf (team : Value) (m : MemberDraft) : User := ⟨m.id, m.username, team, m.active⟩

/-- Creates or overwrites the listed users one after the other. -/
def enroll (team : Value) : List MemberDraft → Act Unit
  | [] => return
  | m :: ms => do
    let _ ← Users.create (memberOf team m)
    enroll team ms

/-- Stores a new team. A team that came up since the look for it is found by its key. -/
def create (t : Team) : Act Team :=
  .port .teamCreate (do
    .atomic (do
      if ← isStored t.name then .refuse (taken t.name)
      (Act.atomic (.visiting .teamInsertion (insert t.name))).orElse (fun e =>
        if e.IsIntegrity then .refuse (taken t.name) else .fail e)
      enroll t.name t.members)
    let members ← .ofExcept (MemberDraft.ordered t.members)
    return { t with members := members })

def get (name : Value) : Act (List Member) :=
  .port .teamGet (do
    let us ← Users.selectTeam name
    if us.isEmpty then .refuse (missing name) else return us.map UserRow.member)

/-- Gives teams their members; where there is no team, nothing is asked. -/
def complete (names : List String) : Act (List TeamRoster) :=
  if names.isEmpty then return []
  else do
    let us ← .read .selectMembers (fun t => .ok (t.usersIn names))
    return names.map (fun name =>
      ⟨name, Roster.ordered ((us.filter (fun u => u.team = some name)).map UserRow.member)⟩)

def list : Act (List TeamRoster) :=
  .port .teamList (do
    let names ← .read .selectTeams (fun t => .ok t.teamsInOrder)
    complete names)

end ReviewRota.Teams
