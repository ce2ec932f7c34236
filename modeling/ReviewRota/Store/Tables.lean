import ReviewRota.Store.Row

/-!
# Tables

Four lists of rows. Keys are unique and references lead to rows; both are propositions about the
tables, checked by the statements that could break them.

Texts are taken to be ordered by their code points, as by SQLite, and by PostgreSQL under the
collation `C`; and a column is taken to hold a text of any length.
-/

namespace ReviewRota

structure Tables where
  teams : List String := []
  users : List UserRow := []
  heads : List PullRequestHead := []
  assigned : List Assignment := []
  deriving DecidableEq, Inhabited

namespace Tables

def user? (t : Tables) (id : String) : Option UserRow := t.users.find? (fun u => u.id = id)

def head? (t : Tables) (id : String) : Option PullRequestHead := t.heads.find? (fun h => h.id = id)

def HasTeam (t : Tables) (name : String) : Prop := name ∈ t.teams

def HasUser (t : Tables) (id : String) : Prop := ∃ u ∈ t.users, u.id = id

def HasHead (t : Tables) (id : String) : Prop := ∃ h ∈ t.heads, h.id = id

def HasAssignment (t : Tables) (pullRequest reviewer : String) : Prop :=
  ∃ a ∈ t.assigned, a.pullRequest = pullRequest ∧ a.reviewer = reviewer

instance (t : Tables) (name : String) : Decidable (t.HasTeam name) := by
  unfold HasTeam
  infer_instance

instance (t : Tables) (id : String) : Decidable (t.HasUser id) := by
  unfold HasUser
  infer_instance

instance (t : Tables) (id : String) : Decidable (t.HasHead id) := by
  unfold HasHead
  infer_instance

instance (t : Tables) (pullRequest reviewer : String) :
    Decidable (t.HasAssignment pullRequest reviewer) := by
  unfold HasAssignment
  infer_instance

/-- Each key occurs once, and nobody is assigned twice to one pull request. -/
structure Keyed (t : Tables) : Prop where
  teams : t.teams.Nodup
  users : (t.users.map UserRow.id).Nodup
  heads : (t.heads.map PullRequestHead.id).Nodup
  assigned : (t.assigned.map (fun a => (a.pullRequest, a.reviewer))).Nodup

/-- Every reference leads to a row: the team of a user, the author of a pull request, the two ends
of an assignment. -/
def Linked (t : Tables) : Prop :=
  (∀ u ∈ t.users, ∀ name ∈ u.team, t.HasTeam name) ∧
  (∀ h ∈ t.heads, t.HasUser h.author) ∧
  ∀ a ∈ t.assigned, t.HasHead a.pullRequest ∧ t.HasUser a.reviewer

instance (t : Tables) : Decidable t.Linked := by
  unfold Linked
  infer_instance

/-! ### Reading -/

def idOrder (us : List UserRow) : List UserRow := us.mergeSort (fun a b => decide (a.id ≤ b.id))

def usersInOrder (t : Tables) : List UserRow := idOrder t.users

/-- The users of a team, or those without one. -/
def usersOf (t : Tables) (team : Option String) : List UserRow :=
  idOrder (t.users.filter (fun u => u.team = team))

/-- Earlier creation first, and among equal times the smaller id. -/
def createdBefore (p q : PullRequestHead) : Bool :=
  p.createdAt.lt q.createdAt || (p.createdAt = q.createdAt && decide (p.id ≤ q.id))

def creationOrder (hs : List PullRequestHead) : List PullRequestHead := hs.mergeSort createdBefore

/-- Pull requests joined with the assignments of a user: as many rows of a pull request as there are
assignments of the user to it. -/
def joined (t : Tables) (reviewer : String) : List PullRequestHead :=
  t.heads.flatMap (fun h => (t.assigned.filter (fun a =>
    a.pullRequest = h.id ∧ a.reviewer = reviewer)).map (fun _ => h))

def reviewedBy (t : Tables) (reviewer : String) : List PullRequestHead :=
  creationOrder (t.joined reviewer)

/-- The pull requests that a join leaves without an assignment. -/
def unreviewed (t : Tables) : List PullRequestHead :=
  creationOrder (t.heads.filter (fun h => t.assigned.all (fun a => a.pullRequest ≠ h.id)))

/-- The assignment among others in order, before those of its own position. -/
def insertInPosition (a : Assignment) : List Assignment → List Assignment
  | [] => [a]
  | b :: bs => if a.position ≤ b.position then a :: b :: bs else b :: insertInPosition a bs

def inPosition (as : List Assignment) : List Assignment := as.foldr insertInPosition []

/-- The assignments to any of several pull requests, in one list. -/
def assignedTo (t : Tables) (ids : List String) : List Assignment :=
  inPosition (t.assigned.filter (fun a => a.pullRequest ∈ ids))

def teamsInOrder (t : Tables) : List String := t.teams.mergeSort (fun a b => decide (a ≤ b))

/-- The users who are in any of several teams, in one list. -/
def usersIn (t : Tables) (teams : List String) : List UserRow :=
  t.users.filter (fun u => u.team.any (· ∈ teams))

/-! ### Pull requests with their reviewers -/

def reviewersOf (t : Tables) (id : String) : List String :=
  (inPosition (t.assigned.filter (fun a => a.pullRequest = id))).map Assignment.reviewer

def whole (t : Tables) (h : PullRequestHead) : PullRequestRow := ⟨h, t.reviewersOf h.id⟩

def pullRequests (t : Tables) : List PullRequestRow := t.heads.map t.whole

def pullRequest? (t : Tables) (id : String) : Option PullRequestRow :=
  t.pullRequests.find? (fun p => p.id = id)

def pullRequestsInOrder (t : Tables) : List PullRequestRow := (creationOrder t.heads).map t.whole

def rosters (t : Tables) : List TeamRoster :=
  t.teamsInOrder.map (fun name =>
    ⟨name, Roster.ordered ((t.users.filter (fun u => u.team = some name)).map UserRow.member)⟩)

/-! ### Writing -/

def addTeam (t : Tables) (name : String) : Tables := { t with teams := t.teams ++ [name] }

def addUser (t : Tables) (u : UserRow) : Tables := { t with users := t.users ++ [u] }

def addHead (t : Tables) (h : PullRequestHead) : Tables := { t with heads := t.heads ++ [h] }

def addAssignment (t : Tables) (a : Assignment) : Tables := { t with assigned := t.assigned ++ [a] }

def modifyUser (t : Tables) (id : String) (f : UserRow → UserRow) : Tables :=
  { t with users := t.users.map (fun u => if u.id = id then f u else u) }

def modifyHead (t : Tables) (id : String) (f : PullRequestHead → PullRequestHead) : Tables :=
  { t with heads := t.heads.map (fun h => if h.id = id then f h else h) }

/-- Takes all assignments to a pull request away. -/
def unassign (t : Tables) (id : String) : Tables :=
  { t with assigned := t.assigned.filter (fun a => a.pullRequest ≠ id) }

@[simp] theorem teams_addUser (t : Tables) (u : UserRow) : (t.addUser u).teams = t.teams := rfl

@[simp] theorem teams_modifyUser (t : Tables) (id : String) (f : UserRow → UserRow) :
    (t.modifyUser id f).teams = t.teams := rfl

@[simp] theorem pullRequests_addUser (t : Tables) (u : UserRow) :
    (t.addUser u).pullRequests = t.pullRequests := rfl

@[simp] theorem pullRequests_modifyUser (t : Tables) (id : String) (f : UserRow → UserRow) :
    (t.modifyUser id f).pullRequests = t.pullRequests := rfl

@[simp] theorem users_addTeam (t : Tables) (name : String) : (t.addTeam name).users = t.users := rfl

@[simp] theorem pullRequests_addTeam (t : Tables) (name : String) :
    (t.addTeam name).pullRequests = t.pullRequests := rfl

theorem mem_users_addUser {t : Tables} {u v : UserRow} :
    v ∈ (t.addUser u).users ↔ v ∈ t.users ∨ v = u := by simp [addUser]

end Tables

end ReviewRota
