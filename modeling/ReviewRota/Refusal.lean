/-!
# Refusals

The reasons for which the desk turns a request down, each with the code and the HTTP status that
callers see. A refusal that is nobody's fault but the server's is reported without its text.
-/

namespace ReviewRota

inductive Reason where
  | unspecified
  | notFound
  | alreadyExists
  | pullRequestExists
  | teamExists
  | pullRequestMerged
  | notAssigned
  | noCandidate
  | conflict
  | cancelled
  | internal
  deriving DecidableEq

namespace Reason

def name : Reason → String
  | unspecified => "ServiceError"
  | notFound => "NotFound"
  | alreadyExists => "AlreadyExists"
  | pullRequestExists => "PRExists"
  | teamExists => "TeamExists"
  | pullRequestMerged => "PRMerged"
  | notAssigned => "NotAssigned"
  | noCandidate => "NoCandidate"
  | conflict => "Conflict"
  | cancelled => "OperationCancelled"
  | internal => "InternalError"

def all : List Reason :=
  [unspecified, notFound, alreadyExists, pullRequestExists, teamExists, pullRequestMerged,
    notAssigned, noCandidate, conflict, cancelled, internal]

theorem mem_all (r : Reason) : r ∈ all := by cases r <;> decide

def ofName? (s : String) : Option Reason := all.find? (·.name = s)

def code : Reason → String
  | unspecified => "SERVER_ERROR"
  | notFound => "NOT_FOUND"
  | alreadyExists => "ALREADY_EXISTS"
  | pullRequestExists => "PR_EXISTS"
  | teamExists => "TEAM_EXISTS"
  | pullRequestMerged => "PR_MERGED"
  | notAssigned => "NOT_ASSIGNED"
  | noCandidate => "NO_CANDIDATE"
  | conflict => "CONFLICT"
  | cancelled => "CANCELLED"
  | internal => "SERVER_ERROR"

def defaultMessage : Reason → String
  | unspecified => "Internal server error"
  | notFound => "resource not found"
  | alreadyExists => "resource already exists"
  | pullRequestExists => "PR id already exists"
  | teamExists => "team_name already exists"
  | pullRequestMerged => "cannot reassign on merged PR"
  | notAssigned => "reviewer is not assigned to this PR"
  | noCandidate => "no active replacement candidate in team"
  | conflict => "PR was modified concurrently, retry the request"
  | cancelled => "operation deadline exceeded"
  | internal => "Internal server error"

/-- The HTTP status, where the reason is told to the caller. -/
def status? : Reason → Option Nat
  | notFound => some 404
  | teamExists => some 400
  | alreadyExists => some 409
  | pullRequestExists => some 409
  | pullRequestMerged => some 409
  | notAssigned => some 409
  | noCandidate => some 409
  | conflict => some 409
  | cancelled => some 503
  | unspecified => none
  | internal => none

/-- The reasons that say a key is taken. -/
def isExistence : Reason → Bool
  | alreadyExists => true
  | pullRequestExists => true
  | teamExists => true
  | _ => false

end Reason

structure Refusal where
  reason : Reason
  message : String
  deriving DecidableEq

namespace Refusal

/-- A refusal in the words of its reason. -/
def plain (r : Reason) : Refusal := ⟨r, r.defaultMessage⟩

/-- A refusal in words of its own, unless there are none. -/
def worded (r : Reason) (message : Option String) : Refusal :=
  match message with
  | none => plain r
  | some "" => plain r
  | some m => ⟨r, m⟩

def report (r : Refusal) : Nat × String × String :=
  match r.reason.status? with
  | some status => (status, r.reason.code, r.message)
  | none => (500, Reason.internal.code, Reason.internal.defaultMessage)

end Refusal

end ReviewRota
