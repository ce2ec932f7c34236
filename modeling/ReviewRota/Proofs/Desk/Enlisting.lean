import ReviewRota.Desk.Command
import ReviewRota.Proofs.Desk.Plan
import ReviewRota.Proofs.Store.Calls

/-!
# Who writes users and teams

Users and teams are written by two kinds of calls only. A request to create a team stores the team
that it describes, and flags are set one user at a time: for the user that the request names, or for
the members that a deactivation of their team has read.
-/

namespace ReviewRota.Desk

namespace Command

/-- The writes of users and teams that a command makes after these exchanges. -/
def Enlists (command : Command) (xs : List Exchange) : Call → Prop
  | .teamCreate t => ∃ name entries members, command = .createTeam name entries ∧
      entries.mapM MemberEntry.draft = .ok members ∧ t = ⟨name, members⟩
  | .userSetActive id active =>
      command = .setUserActive id active ∨
      ∃ name us u, command = .deactivateTeam name ∧ ⟨.usersOfTeam name, .ok us⟩ ∈ xs ∧ u ∈ us ∧
        id = .text (.plain u.id) ∧ active = .bool false
  | .userCreate _ | .userUpdate _ => False
  | _ => True

def enlistment (command : Command) : Contract command.Result where
  rely _ _ := True
  warrant := command.Enlists
  conclude _ _ := True

theorem enlists_createTeam (name : Value) (entries : List MemberEntry) :
    (createTeamPlan name entries).Honours (createTeam name entries).enlistment [] := by
  refine Plan.Honours.bind (p := .done (entries.mapM MemberEntry.draft)) ?_
  cases drafted : entries.mapM MemberEntry.draft with
  | error e => trivial
  | ok members =>
    refine ⟨fun _ => trivial, ⟨name, entries, members, rfl, drafted, rfl⟩, fun r _ => ?_⟩
    cases r with
    | ok team => trivial
    | error e =>
      show (if e.IsExistence then _ else _ : Plan Team).Honours _ _
      split <;> trivial

theorem enlists_getTeam (name : Value) :
    (getTeamPlan name).Honours (getTeam name).enlistment [] := by
  refine ⟨fun _ => trivial, trivial, fun r _ => ?_⟩
  cases r <;> trivial

/-- The deactivations of users who are among those that were read. -/
theorem enlists_deactivateEach {k : Contract (List UserRow)} {listed : List UserRow}
    {name : Value} (conclude : ∀ xs r, k.conclude xs r)
    (warrant : ∀ xs id active, (deactivateTeam name).Enlists xs (.userSetActive id active) →
      k.warrant xs (.userSetActive id active))
    (us : List UserRow) (among : ∀ u ∈ us, u ∈ listed) {xs : List Exchange}
    (read : ⟨.usersOfTeam name, .ok listed⟩ ∈ xs) : (deactivateEach us).Honours k xs := by
  induction us generalizing k xs with
  | nil => exact conclude _ _
  | cons u us ih =>
    obtain ⟨first, rest⟩ := List.forall_mem_cons.mp among
    refine ⟨fun e => conclude _ _,
      warrant _ _ _ (.inr ⟨name, listed, u, rfl, read, first, rfl, rfl⟩), fun r _ => ?_⟩
    cases r with
    | error e => exact conclude _ _
    | ok row =>
      refine Plan.Honours.bind (p := deactivateEach us)
        (ih (k := Plan.before k _) (fun ys r => ?_) warrant rest (List.mem_append_left _ read))
      cases r <;> exact conclude _ _

theorem enlists_deactivateTeam (name : Value) :
    (deactivateTeamPlan name).Honours (deactivateTeam name).enlistment [] := by
  refine ⟨fun _ => trivial, trivial, fun r _ => ?_⟩
  cases r with
  | error e => trivial
  | ok us =>
    exact enlists_deactivateEach (k := (deactivateTeam name).enlistment) (fun _ _ => trivial)
      (fun _ _ _ => id) us (fun _ => id) (List.mem_singleton_self _)

theorem enlists_setUserActive (id active : Value) :
    (setUserActivePlan id active).Honours (setUserActive id active).enlistment [] :=
  ⟨fun _ => trivial, .inl rfl, fun _ _ => trivial⟩

theorem enlists_reviewAssignments (id : Value) :
    (reviewAssignmentsPlan id).Honours (reviewAssignments id).enlistment [] := by
  refine ⟨fun _ => trivial, trivial, fun r _ => ?_⟩
  cases r with
  | error e => trivial
  | ok u => exact ⟨fun _ => trivial, trivial, fun _ _ => trivial⟩

theorem enlists_createPullRequest (id name author : Value) :
    (createPullRequestPlan id name author).Honours (createPullRequest id name author).enlistment
      [] := by
  refine ⟨fun _ => trivial, trivial, fun r _ => ?_⟩
  cases r with
  | ok p => trivial
  | error e =>
    show Plan.Honours _ (if ¬e.IsNotFound then _ else _ : Plan PullRequest) _
    split
    · trivial
    refine ⟨fun _ => trivial, trivial, fun r _ => ?_⟩
    cases r with
    | error e => trivial
    | ok u =>
      dsimp only [Plan.bind]
      split
      · trivial
      refine ⟨fun _ => trivial, trivial, fun roster _ => ?_⟩
      cases roster with
      | error e => trivial
      | ok roster =>
        intro limit now
        refine ⟨fun _ => trivial, trivial, fun r _ => ?_⟩
        cases r with
        | ok p => trivial
        | error e =>
          show Plan.Honours _ (if e.IsExistence then _ else _ : Plan PullRequest) _
          split <;> trivial

theorem enlists_merge (id : Value) : (mergePlan id).Honours (merge id).enlistment [] := by
  refine ⟨fun _ => trivial, trivial, fun r _ => ?_⟩
  cases r with
  | error e => trivial
  | ok p =>
    show Plan.Honours _ (if p.IsMerged then _ else _ : Plan PullRequest) _
    split
    · trivial
    intro now
    refine ⟨fun _ => trivial, trivial, fun r _ => ?_⟩
    cases r with
    | ok q => trivial
    | error e =>
      show Plan.Honours _ (if e.IsConflict then _ else _ : Plan PullRequest) _
      split
      · refine ⟨trivial, fun r _ => ?_⟩
        cases r with
        | error e => trivial
        | ok current =>
          show Plan.Honours _ (if current.IsMerged then _ else _ : Plan PullRequest) _
          split <;> trivial
      · trivial

theorem enlists_reassign (id old : Value) :
    (reassignPlan id old).Honours (reassign id old).enlistment [] := by
  refine ⟨fun _ => trivial, trivial, fun r _ => ?_⟩
  cases r with
  | error e => trivial
  | ok p =>
    show Plan.Honours _ (if p.IsMerged then _ else _ : Plan (PullRequest × String)) _
    split
    · trivial
    split
    · trivial
    split
    · trivial
    refine ⟨fun _ => trivial, trivial, fun r _ => ?_⟩
    cases r with
    | error e => trivial
    | ok u =>
      refine ⟨fun _ => trivial, trivial, fun r _ => ?_⟩
      cases r with
      | error e => trivial
      | ok roster =>
        dsimp only [Plan.bind]
        split
        · trivial
        refine ⟨fun _ => trivial, trivial, fun r _ => ?_⟩
        cases r <;> trivial

theorem enlists_overview : overviewPlan.Honours overview.enlistment [] := by
  refine ⟨fun _ => trivial, fun _ => trivial, trivial, fun ps _ => ?_⟩
  cases ps with
  | error e => trivial
  | ok ps =>
    refine ⟨fun _ => trivial, trivial, fun us _ => ?_⟩
    cases us with
    | error e => trivial
    | ok us =>
      refine ⟨fun _ => trivial, trivial, fun ts _ => ?_⟩
      cases ts <;> trivial

theorem enlists (command : Command) : command.operation.plan.Honours command.enlistment [] := by
  cases command with
  | createTeam name entries => exact enlists_createTeam name entries
  | getTeam name => exact enlists_getTeam name
  | deactivateTeam name => exact enlists_deactivateTeam name
  | setUserActive id active => exact enlists_setUserActive id active
  | reviewAssignments id => exact enlists_reviewAssignments id
  | createPullRequest id name author => exact enlists_createPullRequest id name author
  | merge id => exact enlists_merge id
  | reassign id old => exact enlists_reassign id old
  | overview => exact enlists_overview

/-- Only requests that are no transaction write users and teams. -/
theorem Enlists.untransacted {command : Command} {xs : List Exchange} {c : Call}
    (enlists : command.Enlists xs c) (writes : c.WritesRoster) :
    command.operation.transactional = false := by
  cases c with
  | teamCreate t =>
    obtain ⟨name, entries, members, rfl, -, -⟩ := enlists
    rfl
  | userSetActive id active => obtain rfl | ⟨name, us, u, rfl, -⟩ := enlists <;> rfl
  | userCreate | userUpdate => exact enlists.elim
  | _ => exact writes.elim

end Command

end ReviewRota.Desk
