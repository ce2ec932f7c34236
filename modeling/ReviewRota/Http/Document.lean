import ReviewRota.Answer

/-!
# Documents in replies

How users, teams, pull requests and statistics look in the body of a reply. Ids and names are sent
as text whatever they were given as.
-/

namespace ReviewRota.Document

open Reply (object)

def asText (v : Value) : Value := .text v.asText

/-- A flag given as a flag or as something that counts as one. -/
def flag (v : Value) : Value :=
  match v with
  | .bool b => .bool b
  | v => .bool (!v.isMissing)

def member (m : MemberDraft) : Value :=
  object [("user_id", asText m.id), ("username", asText m.username),
    ("is_active", flag m.active)]

def team (t : Team) : Value :=
  object [("team_name", asText t.name), ("members", .list (t.members.map member))]

def user (u : UserRow) : Value :=
  object [("user_id", u.id), ("username", u.username), ("team_name", .ofOption u.team),
    ("is_active", .bool u.active)]

def time : Option Timestamp → Value
  | some t => t.short
  | none => .null

def pullRequest (p : PullRequest) : Value :=
  object [("pull_request_id", asText p.id), ("pull_request_name", asText p.name),
    ("author_id", asText p.author), ("status", asText p.status),
    ("assigned_reviewers", .list (p.reviewers.map asText)),
    ("createdAt", time p.createdAt), ("mergedAt", time p.mergedAt)]

def pullRequestInBrief (p : PullRequestRow) : Value :=
  object [("pull_request_id", p.id), ("pull_request_name", p.name), ("author_id", p.author),
    ("status", p.status)]

def load (l : ReviewLoad) : Value :=
  object [("user_id", l.user), ("username", l.username), ("prs_reviewed", .int l.total),
    ("open_prs_reviewed", .int l.unmerged), ("merged_prs_reviewed", .int l.merged)]

def statistics (s : Statistics) : Value :=
  object [("total_prs", .int s.pullRequests), ("total_users", .int s.users),
    ("total_teams", .int s.teams), ("open_prs", .int s.opened), ("merged_prs", .int s.merged),
    ("active_users", .int s.activeUsers), ("average_reviewers", .float s.averageReviewers),
    ("user_review_stats", .list (s.loads.map load))]

end ReviewRota.Document
