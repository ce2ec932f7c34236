import ReviewRota.Desk.Plan

/-!
# Requests about users
-/

namespace ReviewRota.Desk

def setUserActivePlan (id active : Value) : Plan UserRow := do
  .checked "user update"
  Plan.ask (.userSetActive id active)

def setUserActive (id active : Value) : Operation UserRow := ⟨false, setUserActivePlan id active⟩

def reviewAssignmentsPlan (id : Value) : Plan (List PullRequestRow) := do
  .checked "user read"
  let _ ← Plan.ask (.userGet id)
  .checked "reviewer PRs read"
  Plan.ask (.pullRequestsOfReviewer id)

def reviewAssignments (id : Value) : Operation (List PullRequestRow) :=
  ⟨false, reviewAssignmentsPlan id⟩

end ReviewRota.Desk
