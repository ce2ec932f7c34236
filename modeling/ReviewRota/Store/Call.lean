import ReviewRota.Store.PullRequests
import ReviewRota.Store.Teams

/-!
# Storage calls

The calls that the desk makes, as data: what is asked, what kind of answer there is to it, and how
it is carried out.
-/

namespace ReviewRota

inductive Call where
  | userCreate (u : User)
  | userUpdate (u : User)
  | userGet (id : Value)
  | userSetActive (id active : Value)
  | usersOfTeam (team : Value)
  | userList
  | teamCreate (t : Team)
  | teamGet (name : Value)
  | teamList
  | pullRequestCreate (p : PullRequest)
  | pullRequestUpdate (p : PullRequest)
  | pullRequestGet (id : Value)
  | pullRequestsOfReviewer (id : Value)
  | pullRequestList

namespace Call

@[reducible] def Result : Call → Type
  | userCreate _ => User
  | userUpdate _ => User
  | userGet _ => UserRow
  | userSetActive _ _ => UserRow
  | usersOfTeam _ => List UserRow
  | userList => List UserRow
  | teamCreate _ => Team
  | teamGet _ => List Member
  | teamList => List TeamRoster
  | pullRequestCreate _ => PullRequest
  | pullRequestUpdate _ => PullRequest
  | pullRequestGet _ => PullRequestRow
  | pullRequestsOfReviewer _ => List PullRequestRow
  | pullRequestList => List PullRequestRow

def act : (c : Call) → Act c.Result
  | userCreate u => Users.create u
  | userUpdate u => Users.update u
  | userGet id => Users.get id
  | userSetActive id active => Users.setActive id active
  | usersOfTeam team => Users.ofTeam team
  | userList => Users.list
  | teamCreate t => Teams.create t
  | teamGet name => Teams.get name
  | teamList => Teams.list
  | pullRequestCreate p => PullRequests.create p
  | pullRequestUpdate p => PullRequests.update p
  | pullRequestGet id => PullRequests.get id
  | pullRequestsOfReviewer id => PullRequests.ofReviewer id
  | pullRequestList => PullRequests.list

def answer : (c : Call) → c.Result → Answer
  | userCreate _, u => .user u
  | userUpdate _, u => .user u
  | userGet _, r => .user r.entity
  | userSetActive _ _, r => .user r.entity
  | usersOfTeam _, rs => .users rs
  | userList, rs => .users rs
  | teamCreate _, t => .team t
  | teamGet name, ms => .team ⟨name, ms.map Member.draft⟩
  | teamList, ts => .teams ts
  | pullRequestCreate _, p => .pullRequest p
  | pullRequestUpdate _, p => .pullRequest p
  | pullRequestGet _, r => .pullRequest r.entity
  | pullRequestsOfReviewer _, rs => .pullRequests rs
  | pullRequestList, rs => .pullRequests rs

end Call

end ReviewRota
