import ReviewRota.Http.Document
import ReviewRota.Proofs.Desk.Delivery

/-!
# Shapes of documents

A shape says which fields an object has and what kind of value is in each. What has a shape can be
sent. The documents of users, teams, pull requests and statistics have each the shape of their kind,
as long as their texts are strings and their numbers finite.
-/

namespace ReviewRota

inductive Shape where
  | text
  | flag
  | whole
  | number
  | any
  | optional (s : Shape)
  | list (item : Shape)
  | object (fields : List (String × Shape))

namespace Shape

mutual

/-- Whether a value has the shape. Objects have their fields in order. -/
def admits : Shape → Value → Bool
  | text, .text t => t.plain?.isSome
  | flag, .bool _ => true
  | whole, .int _ => true
  | number, .float x => decide x.IsFinite
  | any, v => v.isSendable
  | optional _, .null => true
  | optional s, v => s.admits v
  | list item, .list vs => vs.all item.admits
  | object fields, .object entries => admitsFields fields entries
  | _, _ => false

def admitsFields : List (String × Shape) → List (Text × Value) → Bool
  | [], [] => true
  | (key, s) :: fields, (name, v) :: entries =>
    name == .plain key && s.admits v && admitsFields fields entries
  | _, _ => false

end

/-- What is listed in an array is sent with it. -/
theorem areSendable_of_forall {vs : List Value} (all : ∀ v ∈ vs, v.isSendable = true) :
    Value.areSendable vs = true := by
  induction vs with
  | nil => rfl
  | cons v vs ih =>
    rw [Value.areSendable, all v List.mem_cons_self, Bool.true_and]
    exact ih fun w member => all w (List.mem_cons_of_mem v member)

mutual

theorem isSendable_of_admits : (s : Shape) → (v : Value) → s.admits v = true → v.isSendable = true
  | text, .text t, has => by simpa [admits, Value.isSendable] using has
  | flag, .bool _, _ => rfl
  | whole, .int _, _ => rfl
  | number, .float x, has => by simpa [admits, Value.isSendable] using has
  | any, v, has => has
  | optional s, v, has => by
    cases v with
    | null => rfl
    | _ => exact isSendable_of_admits s _ has
  | list item, .list vs, has => by
    rw [Value.isSendable]
    apply areSendable_of_forall
    intro v member
    exact isSendable_of_admits item v (List.all_eq_true.mp has v member)
  | object fields, .object entries, has => fieldsSendable_of_admits fields entries has

theorem fieldsSendable_of_admits : (fields : List (String × Shape)) →
    (entries : List (Text × Value)) → admitsFields fields entries = true →
      Value.fieldsSendable entries = true
  | [], [], _ => rfl
  | (key, s) :: fields, (name, v) :: entries, has => by
    simp only [admitsFields, Bool.and_eq_true, beq_iff_eq] at has
    obtain ⟨⟨rfl, value⟩, rest⟩ := has
    simp [Value.fieldsSendable, isSendable_of_admits s v value,
      fieldsSendable_of_admits fields entries rest]

end

/-! ### The shape of each kind of document -/

def member : Shape := object [("user_id", text), ("username", text), ("is_active", flag)]

def team : Shape := object [("team_name", text), ("members", list member)]

def user : Shape :=
  object [("user_id", text), ("username", text), ("team_name", optional text),
    ("is_active", flag)]

def pullRequest : Shape :=
  object [("pull_request_id", text), ("pull_request_name", text), ("author_id", text),
    ("status", text), ("assigned_reviewers", list text), ("createdAt", optional text),
    ("mergedAt", optional text)]

def pullRequestInBrief : Shape :=
  object [("pull_request_id", text), ("pull_request_name", text), ("author_id", text),
    ("status", text)]

def load : Shape :=
  object [("user_id", text), ("username", text), ("prs_reviewed", whole),
    ("open_prs_reviewed", whole), ("merged_prs_reviewed", whole)]

def statistics : Shape :=
  object [("total_prs", whole), ("total_users", whole), ("total_teams", whole),
    ("open_prs", whole), ("merged_prs", whole), ("active_users", whole),
    ("average_reviewers", number), ("user_review_stats", list load)]

end Shape

namespace Document

open Shape (admits admitsFields)

@[simp] theorem admits_string (s : String) : Shape.text.admits s = true := rfl

theorem admits_asText {v : Value} (spelled : v.IsSpelled) :
    Shape.text.admits (asText v) = true := by
  obtain ⟨s, same⟩ := spelled
  simp [asText, same]

@[simp] theorem admits_flag (v : Value) : Shape.flag.admits (flag v) = true := by
  cases v <;> rfl

@[simp] theorem admits_ofOption (s : Option String) :
    (Shape.optional .text).admits (.ofOption s) = true := by
  cases s <;> rfl

@[simp] theorem admits_time (t : Option Timestamp) :
    (Shape.optional .text).admits (time t) = true := by
  cases t <;> rfl

theorem admits_list {α : Type} {item : Shape} {f : α → Value} {xs : List α}
    (all : ∀ x ∈ xs, item.admits (f x) = true) : (Shape.list item).admits (.list (xs.map f)) := by
  simpa [admits] using all

@[simp] theorem admits_object (fields : List (String × Shape)) (entries : List (String × Value)) :
    (Shape.object fields).admits (Reply.object entries) =
      admitsFields fields (entries.map fun (key, v) => (.plain key, v)) := rfl

@[simp] theorem admitsFields_nil : admitsFields [] [] = true := rfl

@[simp] theorem admitsFields_cons (key : String) (s : Shape) (v : Value)
    (fields : List (String × Shape)) (entries : List (Text × Value)) :
    admitsFields ((key, s) :: fields) ((.plain key, v) :: entries) =
      (s.admits v && admitsFields fields entries) := by
  simp [admitsFields]

@[simp] theorem admits_bool (b : Bool) : Shape.flag.admits (.bool b) = true := rfl

@[simp] theorem admits_int (i : Int) : Shape.whole.admits (.int i) = true := rfl

theorem admits_member {m : MemberDraft} (id : m.id.IsSpelled) (username : m.username.IsSpelled) :
    Shape.member.admits (member m) = true := by
  simp [Shape.member, member, admits_asText id, admits_asText username]

theorem admits_team {t : Team} (spelled : t.IsSpelled) : Shape.team.admits (team t) = true := by
  have members : (Shape.list .member).admits (.list (t.members.map member)) = true :=
    admits_list fun m here => admits_member (spelled.members m here).1 (spelled.members m here).2
  simp [Shape.team, team, admits_asText spelled.name, members]

theorem admits_user (u : UserRow) : Shape.user.admits (user u) = true := by
  simp [Shape.user, user]

theorem admits_pullRequest {p : PullRequest} (spelled : p.IsSpelled) :
    Shape.pullRequest.admits (pullRequest p) = true := by
  have reviewers : (Shape.list .text).admits (.list (p.reviewers.map asText)) = true :=
    admits_list fun r here => admits_asText (spelled.reviewers r here)
  simp [Shape.pullRequest, pullRequest, admits_asText spelled.id, admits_asText spelled.name,
    admits_asText spelled.author, admits_asText spelled.status, reviewers]

theorem admits_pullRequestInBrief (p : PullRequestRow) :
    Shape.pullRequestInBrief.admits (pullRequestInBrief p) = true := by
  simp [Shape.pullRequestInBrief, pullRequestInBrief]

theorem admits_load (l : ReviewLoad) : Shape.load.admits (load l) = true := by
  simp [Shape.load, load]

theorem admits_statistics {s : Statistics} (finite : s.averageReviewers.IsFinite) :
    Shape.statistics.admits (statistics s) = true := by
  have average : Shape.number.admits (.float s.averageReviewers) = true := decide_eq_true finite
  have loads : (Shape.list .load).admits (.list (s.loads.map load)) = true :=
    admits_list fun l _ => admits_load l
  simp [Shape.statistics, statistics, average, loads]

end Document

end ReviewRota
