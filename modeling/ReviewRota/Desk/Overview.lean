import ReviewRota.Desk.Plan

/-!
# The overview

The statistics over one reading of everything, which a server with snapshots reads from one.
-/

namespace ReviewRota.Desk

def overviewPlan : Plan Statistics :=
  .snapshot (do
    .checked "PR list"
    let ps ← Plan.ask .pullRequestList
    .checked "user list"
    let us ← Plan.ask .userList
    .checked "team list"
    let ts ← Plan.ask .teamList
    .done (Statistics.of ps us ts))

def overview : Operation Statistics := ⟨true, overviewPlan⟩

end ReviewRota.Desk
