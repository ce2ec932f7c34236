import ReviewRota.Store.Users

/-!
# Pull requests in storage

A pull request is written with its reviewers in one transaction, and it is read together with them
in two statements: one for the pull requests, one for the assignments to all of them. An update goes
through only if the version is the one that was read, and it counts the version up. Reviewers are
written anew as a whole, numbered in the order they are given in.
-/

namespace ReviewRota.PullRequests

def missing (id : Value) : Refusal := ⟨.notFound, "PR '" ++ id.message ++ "' not found"⟩

def taken (id : Value) : Refusal := ⟨.alreadyExists, "PR '" ++ id.message ++ "' already exists"⟩

def outdated (id : Value) : Refusal :=
  ⟨.conflict, "PR '" ++ id.message ++ "' was modified concurrently"⟩

/-! ### Statements -/

def select (id : Value) : Act (Option PullRequestHead) :=
  .read .selectPullRequest (fun t => do
    match ← id.column with
    | some id => return t.head? id
    | none => return none)

def isStored (id : Value) : Act Bool :=
  .read .pullRequestExists (fun t => do
    match ← id.column with
    | some id => return (t.head? id).isSome
    | none => return false)

/-- A pull request with those of the assignments that lead to it. -/
def withReviewers (as : List Assignment) (h : PullRequestHead) : PullRequestRow :=
  ⟨h, (as.filter (fun a => a.pullRequest = h.id)).map Assignment.reviewer⟩

/-- The assignments to any of the pull requests. -/
def selectAssignments (hs : List PullRequestHead) : Act (List Assignment) :=
  .read .selectAssignments (fun t => .ok (t.assignedTo (hs.map PullRequestHead.id)))

/-- Completes pull requests by their reviewers; where there is none of them, nothing is asked. -/
def complete (hs : List PullRequestHead) : Act (List PullRequestRow) :=
  if hs.isEmpty then return []
  else do
    let as ← selectAssignments hs
    return hs.map (withReviewers as)

/-- Inserts a pull request at its first version. -/
def insert (p : PullRequest) (createdAt : Timestamp) : Act Unit :=
  .write .insertPullRequest (.ok ()) (fun _ t => do
    let id ← p.id.column
    let name ← p.name.column
    let author ← p.author.column
    let status ← p.status.column
    let id ← Users.required "pull_requests.id" id
    let name ← Users.required "pull_requests.name" name
    let author ← Users.required "pull_requests.author_id" author
    let status ← Users.required "pull_requests.status" status
    if (t.head? id).isSome then
      .error (.database (.integrity "UNIQUE constraint failed: pull_requests.id"))
    else return ((), t.addHead ⟨id, name, author, status, createdAt, p.mergedAt, 1⟩))

/-- Overwrites name, status and time of the merge and counts the version up, if a pull request of
this id has this version. -/
def overwrite (p : PullRequest) : Act Bool :=
  .write .updatePullRequest (.ok ()) (fun _ t => do
    let name ← p.name.column
    let status ← p.status.column
    match ← p.id.column with
    | none => return (false, t)
    | some id =>
      if (t.head? id).any (fun h => h.version = p.version) then
        let name ← Users.required "pull_requests.name" name
        let status ← Users.required "pull_requests.status" status
        return (true, t.modifyHead id (fun h =>
          { h with name := name, status := status, mergedAt := p.mergedAt,
                   version := h.version + 1 }))
      else return (false, t))

def deleteReviewers (id : Value) : Act Unit :=
  .write .deleteReviewers (.ok ()) (fun _ t => do
    match ← id.column with
    | some id => return ((), t.unassign id)
    | none => return ((), t))

/-- The table of assignments with one more row, if nothing speaks against the row. -/
def assign (pullRequest reviewer : Option String) (position : Nat) (t : Tables) :
    Except Failure Tables := do
  let pullRequest ← Users.required "review_assignments.pull_request_id" pullRequest
  let reviewer ← Users.required "review_assignments.reviewer_id" reviewer
  if t.HasAssignment pullRequest reviewer then
    .error (.database (.integrity
      ("UNIQUE constraint failed: review_assignments.pull_request_id, " ++
        "review_assignments.reviewer_id")))
  else return t.addAssignment ⟨pullRequest, reviewer, position⟩

/-- The rows of several reviewers, one after the other, with ascending positions. -/
def assignFrom (pullRequest : Option String) (position : Nat) :
    List (Option String) → Tables → Except Failure Tables
  | [], t => .ok t
  | reviewer :: reviewers, t => do
    assignFrom pullRequest (position + 1) reviewers (← assign pullRequest reviewer position t)

/-- Assigns reviewers in one statement, however many they are. -/
def insertReviewers (id : Value) (reviewers : List Value) : Act Unit :=
  .write .insertReviewers (.ok ()) (fun _ t => do
    let id ← id.column
    let reviewers ← reviewers.mapM Value.column
    return ((), ← assignFrom id 0 reviewers t))

/-- Replaces the reviewers, keeping the order they are given in. -/
def writeReviewers (id : Value) (reviewers : List Value) : Act Unit :=
  .visiting .reviewerWriting (do
    deleteReviewers id
    if reviewers.isEmpty then return else insertReviewers id reviewers)

/-! ### Calls -/

/-- Stores a new pull request. Whatever key or reference is violated, an id that is taken is
reported first. -/
def create (p : PullRequest) : Act PullRequest :=
  .port .pullRequestCreate (do
    let now ← Act.now
    let createdAt := p.createdAt.getD now
    (Act.atomic (do
      insert p createdAt
      writeReviewers p.id p.reviewers)).orElse (fun e => do
        if e.IsIntegrity then
          if ← isStored p.id then .refuse (taken p.id) else .fail e
        else .fail e)
    return { p with createdAt := some createdAt, version := 1 })

def get (id : Value) : Act PullRequestRow :=
  .port .pullRequestGet (do
    match ← select id with
    | some h => return withReviewers (← selectAssignments [h]) h
    | none => .refuse (missing id))

/-- Writes a pull request that was read at its present version. -/
def update (p : PullRequest) : Act PullRequest :=
  .port .pullRequestUpdate (do
    .atomic (do
      if ← overwrite p then writeReviewers p.id p.reviewers
      else if ← isStored p.id then .refuse (outdated p.id)
      else .refuse (missing p.id))
    return { p with version := p.version + 1 })

/-- The pull requests that a user reviews, in order of creation; nobody reviews those without
reviewers. -/
def ofReviewer (id : Value) : Act (List PullRequestRow) :=
  .port .pullRequestsOfReviewer (do
    let hs ← .read .selectReviewed (fun t => do
      match ← id.column with
      | some id => return t.reviewedBy id
      | none => return t.unreviewed)
    complete hs)

def list : Act (List PullRequestRow) :=
  .port .pullRequestList (do
    let hs ← .read .selectPullRequests (fun t => .ok (Tables.creationOrder t.heads))
    complete hs)

end ReviewRota.PullRequests
