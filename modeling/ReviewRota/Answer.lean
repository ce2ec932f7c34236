import ReviewRota.Entity
import ReviewRota.Failure
import ReviewRota.Http.Reply
import ReviewRota.Statistics

/-!
# Answers

Everything that a request to the desk, to storage or over HTTP can be answered with.
-/

namespace ReviewRota

inductive Answer where
  | failed (f : Failure)
  | nothing
  | user (u : User)
  | users (us : List UserRow)
  | team (t : Team)
  | teams (ts : List TeamRoster)
  | pullRequest (p : PullRequest)
  | pullRequests (ps : List PullRequestRow)
  | reassigned (p : PullRequest) (successor : String)
  | statistics (s : Statistics)
  | reply (r : Reply)

def Answer.of {α : Type} (f : α → Answer) : Except Failure α → Answer
  | .ok a => f a
  | .error e => failed e

end ReviewRota
