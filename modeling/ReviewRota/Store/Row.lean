import ReviewRota.Roster
import ReviewRota.Timestamp

/-!
# Rows

What is stored of users, pull requests and assignments. A team is stored by its name alone. The
reviewers of a pull request are rows of a table of their own, and they are put together with the
pull request when it is read.
-/

namespace ReviewRota

structure UserRow where
  id : String
  username : String
  team : Option String
  active : Bool
  deriving DecidableEq, Inhabited

def Status.opened : String := "OPEN"

def Status.merged : String := "MERGED"

/-- What the table of pull requests holds. The status is one of two texts for every pull request
that the desk wrote; storage itself takes any text. -/
structure PullRequestHead where
  id : String
  name : String
  author : String
  status : String
  createdAt : Timestamp
  mergedAt : Option Timestamp
  version : Int
  deriving DecidableEq, Inhabited

/-- A reviewer of a pull request. Where the reviewer stands among the others is told by the position
alone. -/
structure Assignment where
  pullRequest : String
  reviewer : String
  position : Nat
  deriving DecidableEq, Inhabited

/-- A pull request together with its reviewers, as it is read. -/
structure PullRequestRow extends head : PullRequestHead where
  reviewers : List String
  deriving DecidableEq, Inhabited

def UserRow.member (u : UserRow) : Member := ⟨u.id, u.username, u.active⟩

@[simp] theorem UserRow.id_member (u : UserRow) : u.member.id = u.id := rfl

@[simp] theorem UserRow.active_member (u : UserRow) : u.member.active = u.active := rfl

def PullRequestRow.IsMerged (p : PullRequestRow) : Prop := p.status = Status.merged

instance (p : PullRequestRow) : Decidable p.IsMerged := by
  unfold PullRequestRow.IsMerged
  infer_instance

/-- A name with an id in brackets, as users and pull requests are shown. -/
def titled (name id : String) : String := name ++ " (" ++ id ++ ")"

/-- A reviewer on a pull request, as an assignment is shown. -/
def assignmentTitle (reviewer pullRequest : String) : String := reviewer ++ " -> " ++ pullRequest

/-- A team with its members in order. -/
structure TeamRoster where
  name : String
  members : List Member
  deriving DecidableEq

end ReviewRota
