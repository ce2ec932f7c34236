import ReviewRota.Desk.Overview
import ReviewRota.Desk.PullRequests
import ReviewRota.Desk.Teams
import ReviewRota.Desk.Users

/-!
# Commands

The nine requests that the desk serves, as data.
-/

namespace ReviewRota.Desk

inductive Command where
  | createTeam (name : Value) (entries : List MemberEntry)
  | getTeam (name : Value)
  | deactivateTeam (name : Value)
  | setUserActive (id active : Value)
  | reviewAssignments (id : Value)
  | createPullRequest (id name author : Value)
  | merge (id : Value)
  | reassign (id old : Value)
  | overview

namespace Command

@[reducible] def Result : Command → Type
  | createTeam .. => Team
  | getTeam _ => Team
  | deactivateTeam _ => List UserRow
  | setUserActive .. => UserRow
  | reviewAssignments _ => List PullRequestRow
  | createPullRequest .. => PullRequest
  | merge _ => PullRequest
  | reassign .. => PullRequest × String
  | overview => Statistics

def operation : (c : Command) → Operation c.Result
  | createTeam name entries => Desk.createTeam name entries
  | getTeam name => Desk.getTeam name
  | deactivateTeam name => Desk.deactivateTeam name
  | setUserActive id active => Desk.setUserActive id active
  | reviewAssignments id => Desk.reviewAssignments id
  | createPullRequest id name author => Desk.createPullRequest id name author
  | merge id => Desk.merge id
  | reassign id old => Desk.reassign id old
  | overview => Desk.overview

def answer : (c : Command) → c.Result → Answer
  | createTeam .., t => .team t
  | getTeam _, t => .team t
  | deactivateTeam _, us => .users us
  | setUserActive .., u => .user u.entity
  | reviewAssignments _, ps => .pullRequests ps
  | createPullRequest .., p => .pullRequest p
  | merge _, p => .pullRequest p
  | reassign .., (p, successor) => .reassigned p successor
  | overview, s => .statistics s

end Command

end ReviewRota.Desk
