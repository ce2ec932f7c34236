import ReviewRota.Desk.Plan

/-!
# Requests about pull requests

Creation assigns reviewers from the author's team, a merge is final, and a reassignment puts the
next eligible member of the author's team in the place of a reviewer. All three are transactions.
-/

namespace ReviewRota.Desk

def withoutTeam (author : Value) : Refusal :=
  ⟨.notFound, "Author '" ++ author.message ++ "' has no team"⟩

/-- A new pull request of an author, with reviewers. -/
def opened (id name author : Value) (reviewers : List String) (now : Timestamp) : PullRequest where
  id := id
  name := name
  author := author
  status := Status.opened
  reviewers := reviewers.map (fun r => .text (.plain r))
  createdAt := some now
  mergedAt := none
  version := 1

def createPullRequestPlan (id name author : Value) : Plan PullRequest := do
  .checked "PR lookup"
  match ← Plan.attempt (.pullRequestGet id) with
  | .ok _ => .refuse .pullRequestExists
  | .error e =>
    if ¬e.IsNotFound then .fail e
    else do
      .checked "author read"
      let u ← Plan.ask (.userGet author)
      match u.team with
      | none => .fail (.refused (withoutTeam author))
      | some team => do
        .checked "roster read"
        let roster ← Plan.ask (.usersOfTeam (.text (.plain team)))
        let limit ← Plan.limit
        let reviewers := Roster.pick (roster.map UserRow.member) author.string? limit
        let now ← Plan.clock
        .checked "PR insert"
        match ← Plan.attempt (.pullRequestCreate (opened id name author reviewers now)) with
        | .ok p => return p
        | .error e => if e.IsExistence then .refuse .pullRequestExists else .fail e

def createPullRequest (id name author : Value) : Operation PullRequest :=
  ⟨true, createPullRequestPlan id name author⟩

/-- The pull request as merged at a time. -/
def merged (p : PullRequestRow) (now : Timestamp) : PullRequest :=
  { p.entity with status := Status.merged, mergedAt := some now }

def mergePlan (id : Value) : Plan PullRequest := do
  .checked "PR read"
  let p ← Plan.ask (.pullRequestGet id)
  if p.IsMerged then return p.entity
  else do
    let now ← Plan.clock
    .checked "PR update"
    match ← Plan.attempt (.pullRequestUpdate (merged p now)) with
    | .ok p => return p
    | .error e =>
      if e.IsConflict then do
        let current ← Plan.ask (.pullRequestGet id)
        if current.IsMerged then return current.entity else .fail e
      else .fail e

/-- Marks a pull request as merged. A merge that lost the race to another one answers with what the
other one wrote. -/
def merge (id : Value) : Operation PullRequest := ⟨true, mergePlan id⟩

/-- The reviewers that stay when one leaves. -/
def staying (p : PullRequestRow) (leaving : String) : List String :=
  p.reviewers.filter (· ≠ leaving)

/-- The pull request with other reviewers. -/
def withReviewers (p : PullRequestRow) (reviewers : List String) : PullRequest :=
  { p.entity with reviewers := reviewers.map (fun r => .text (.plain r)) }

def reassignPlan (id old : Value) : Plan (PullRequest × String) := do
  .checked "PR read"
  let p ← Plan.ask (.pullRequestGet id)
  if p.IsMerged then .refuse .pullRequestMerged
  else
    match old.string? with
    | none => .refuse .notAssigned
    | some leaving =>
      if leaving ∉ p.reviewers then .refuse .notAssigned
      else do
        .checked "author read"
        let u ← Plan.ask (.userGet (.text (.plain p.author)))
        .checked "roster read"
        let roster ← Plan.ask (.usersOfTeam (.ofOption u.team))
        let stay := staying p leaving
        match Roster.next (roster.map UserRow.member) (some p.author) stay (some leaving) with
        | none => .refuse .noCandidate
        | some successor => do
          .checked "PR update"
          let q ← Plan.ask (.pullRequestUpdate (withReviewers p (stay ++ [successor])))
          return (q, successor)

/-- Replaces a reviewer by the next eligible member of the author's team, at the end of the list. -/
def reassign (id old : Value) : Operation (PullRequest × String) := ⟨true, reassignPlan id old⟩

end ReviewRota.Desk
