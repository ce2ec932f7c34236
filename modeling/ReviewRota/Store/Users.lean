import ReviewRota.Store.Act
import ReviewRota.Store.Column

/-!
# Users in storage

A user is created or overwritten as a whole, or only its flag is set. Reading by team knows the
difference between no team and the users without one.
-/

namespace ReviewRota.Users

def missing (id : Value) : Refusal := ⟨.notFound, "User '" ++ id.message ++ "' not found"⟩

def notNull (column : String) : Failure :=
  .database (.integrity ("NOT NULL constraint failed: " ++ column))

/-- A column that must not be empty. -/
def required {α : Type} (column : String) : Option α → Except Failure α
  | some a => .ok a
  | none => .error (notNull column)

/-- The row that an entity stands for, given its flag. -/
def row (u : User) (active : Option Bool) : Except Failure UserRow := do
  let id ← u.id.column
  let username ← u.username.column
  let team ← u.team.column
  let id ← required "users.id" id
  let username ← required "users.username" username
  let active ← required "users.is_active" active
  return ⟨id, username, team, active⟩

/-! ### Statements -/

def select (id : Value) : Act (Option UserRow) :=
  .read .selectUser (fun t => do
    match ← id.column with
    | some id => return t.user? id
    | none => return none)

def insert (u : User) : Act Unit :=
  .write .insertUser u.active.flag (fun active t => do
    let r ← row u active
    if t.HasUser r.id then
      .error (.database (.integrity "UNIQUE constraint failed: users.id"))
    else return ((), t.addUser r))

/-- Overwrites the user of this id, and says whether there is one. Columns are only checked where a
row is there to be written. -/
def overwrite (u : User) : Act Bool :=
  .write .updateUser u.active.flag (fun active t => do
    let username ← u.username.column
    let team ← u.team.column
    match ← u.id.column with
    | none => return (false, t)
    | some id =>
      if t.HasUser id then
        let username ← required "users.username" username
        let active ← required "users.is_active" active
        return (true, t.modifyUser id (fun r => ⟨r.id, username, team, active⟩))
      else return (false, t))

def setFlag (id active : Value) : Act Bool :=
  .write .updateActive active.flag (fun active t => do
    match ← id.column with
    | none => return (false, t)
    | some id =>
      if t.HasUser id then
        let active ← required "users.is_active" active
        return (true, t.modifyUser id (fun r => { r with active := active }))
      else return (false, t))

/-! ### Calls -/

/-- Inserts a user; if another one took the id in the meantime, that one is found. -/
def insertOrFind (u : User) : Act (Option UserRow) :=
  (Act.atomic (do insert u; return none)).orElse (fun e =>
    if e.IsIntegrity then do
      match ← select u.id with
      | some r => return some r
      | none => .fail e
    else .fail e)

/-- Creates a user or overwrites the one of the same id. -/
def create (u : User) : Act User :=
  .port .userCreate (do
    .atomic (do
      let found ← match ← select u.id with
        | some r => pure (some r)
        | none => insertOrFind u
      if found.isSome then
        let _ ← overwrite u
        return u
      else return u))

def get (id : Value) : Act UserRow :=
  .port .userGet (do
    match ← select id with
    | some r => return r
    | none => .refuse (missing id))

def update (u : User) : Act User :=
  .port .userUpdate (do
    if ← overwrite u then return u else .refuse (missing u.id))

/-- Sets the flag alone and gives the user back as stored. -/
def setActive (id active : Value) : Act UserRow :=
  .port .userSetActive (.atomic (do
    if ← setFlag id active then
      match ← select id with
      | some r => return r
      | none => .refuse (missing id)
    else .refuse (missing id)))

/-- The users whose team column holds the value, where null finds those without a team. -/
def selectTeam (team : Value) : Act (List UserRow) :=
  .read .selectTeamUsers (fun t => do return t.usersOf (← team.column))

/-- The members of a team in order; nobody is in no team. -/
def ofTeam (team : Value) : Act (List UserRow) :=
  .port .usersOfTeam (match team with
    | .null => return []
    | team => selectTeam team)

def list : Act (List UserRow) :=
  .port .userList (.read .selectUsers (fun t => .ok t.usersInOrder))

end ReviewRota.Users
