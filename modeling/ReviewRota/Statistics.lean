import ReviewRota.Failure
import ReviewRota.Number.Binary64
import ReviewRota.Store.Row

/-!
# Statistics

Counts over one reading of all pull requests, users and teams: how many there are, how many are
open or merged or active, and who reviews how much.
-/

namespace ReviewRota

/-- How many pull requests a user reviews, and how many of them are not merged and merged. -/
structure ReviewLoad where
  user : String
  username : String
  total : Nat
  unmerged : Nat
  merged : Nat
  deriving DecidableEq

structure Statistics where
  pullRequests : Nat
  users : Nat
  teams : Nat
  opened : Nat
  merged : Nat
  activeUsers : Nat
  averageReviewers : Binary64
  loads : List ReviewLoad
  deriving DecidableEq

def ReviewLoad.counted (l : ReviewLoad) (merged : Bool) : ReviewLoad :=
  if merged then { l with total := l.total + 1, merged := l.merged + 1 }
  else { l with total := l.total + 1, unmerged := l.unmerged + 1 }

namespace Statistics

def totalAssignments (ps : List PullRequestRow) : Nat :=
  (ps.flatMap PullRequestRow.reviewers).length

/-- A user's name; nobody reviews without one, but the reading goes on without it. -/
def usernameOf (us : List UserRow) (id : String) : String :=
  ((us.find? (fun u => u.id = id)).map UserRow.username).getD ""

def noReviews (us : List UserRow) (user : String) : ReviewLoad :=
  ⟨user, usernameOf us user, 0, 0, 0⟩

/-- Whoever reviews for the first time is entered without reviews. -/
def entered (us : List UserRow) (loads : List ReviewLoad) (user : String) : List ReviewLoad :=
  if user ∈ loads.map ReviewLoad.user then loads else loads ++ [noReviews us user]

def recorded (us : List UserRow) (merged : Bool) (loads : List ReviewLoad) (user : String) :
    List ReviewLoad :=
  (entered us loads user).map (fun l => if l.user = user then l.counted merged else l)

/-- Everyone who reviews, in the order of their first reviews, after one pull request after the
other has been gone through. -/
def tally (ps : List PullRequestRow) (us : List UserRow) : List ReviewLoad :=
  ps.foldl (fun loads p => p.reviewers.foldl (recorded us (decide p.IsMerged)) loads) []

/-- More reviews first, and among equals the smaller id. -/
def heavier (a b : ReviewLoad) : Bool :=
  b.total < a.total || (a.total = b.total && decide (a.user ≤ b.user))

def loadsOf (ps : List PullRequestRow) (us : List UserRow) : List ReviewLoad :=
  (tally ps us).mergeSort heavier

/-- Assignments per pull request, zero if there is none. No number stands for a quotient that is too
large. -/
def average (ps : List PullRequestRow) : Except Failure Binary64 :=
  if ps.isEmpty then .ok (.zero false)
  else
    let mean := .ofRatio false (totalAssignments ps) ps.length
    if mean.IsFinite then .ok mean
    else .error (.fault ⟨.overflow, "integer division result too large for a float"⟩)

def of (ps : List PullRequestRow) (us : List UserRow) (ts : List TeamRoster) :
    Except Failure Statistics := do
  let averageReviewers ← average ps
  return {
    pullRequests := ps.length
    users := us.length
    teams := ts.length
    opened := ps.countP (fun p => p.status = Status.opened)
    merged := ps.countP (fun p => p.status = Status.merged)
    activeUsers := us.countP UserRow.active
    averageReviewers
    loads := loadsOf ps us }

end Statistics

end ReviewRota
