import ReviewRota.Store.Row
import ReviewRota.Value.Order

/-!
# Entities

Users, teams and pull requests as callers hand them in and get them back: every id and name may be
any value. Rows are entities whose values are strings and flags.
-/

namespace ReviewRota

structure MemberDraft where
  id : Value
  username : Value
  active : Value

structure User where
  id : Value
  username : Value
  team : Value
  active : Value

structure Team where
  name : Value
  members : List MemberDraft

structure PullRequest where
  id : Value
  name : Value
  author : Value
  status : Value
  reviewers : List Value
  createdAt : Option Timestamp
  mergedAt : Option Timestamp
  version : Int

def Member.draft (m : Member) : MemberDraft := ⟨m.id, m.username, .bool m.active⟩

/-- A team is shown by its name, which has to be a text. -/
def Team.title (t : Team) : Except Failure Text :=
  match t.name with
  | .text name => .ok name
  | v => .error (.fault ⟨.type, "__str__ returned non-string (type " ++ v.kindName ++ ")"⟩)

def TeamRoster.entity (r : TeamRoster) : Team := ⟨r.name, r.members.map Member.draft⟩

/-- A text if there is one, and nothing otherwise. -/
def Value.ofOption : Option String → Value
  | some s => s
  | none => .null

def UserRow.entity (u : UserRow) : User :=
  ⟨u.id, u.username, .ofOption u.team, .bool u.active⟩

def PullRequestRow.entity (p : PullRequestRow) : PullRequest where
  id := p.id
  name := p.name
  author := p.author
  status := p.status
  reviewers := p.reviewers.map (fun r => .text (.plain r))
  createdAt := some p.createdAt
  mergedAt := p.mergedAt
  version := p.version

namespace MemberDraft

/-- A member whose fields are strings and a flag. -/
def member? (m : MemberDraft) : Option Member :=
  match m.id, m.username, m.active with
  | .text (.plain id), .text (.plain username), .bool active => some ⟨id, username, active⟩
  | _, _, _ => none

@[simp] theorem member?_draft (m : Member) : m.draft.member? = some m := rfl

/-- Members in ascending order of ids. Strings can always be ordered, other values not always. -/
def ordered (ms : List MemberDraft) : Except Failure (List MemberDraft) :=
  match ms.mapM member? with
  | some members => .ok ((Roster.ordered members).map Member.draft)
  | none => Value.sortBy (fun a b => a.id.before? b.id) ms

end MemberDraft

end ReviewRota
