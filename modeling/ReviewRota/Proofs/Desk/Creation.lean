import ReviewRota.Desk.Command
import ReviewRota.Proofs.Desk.Delivery

/-!
# Requests that create

A request to create a team or a pull request ends in one insertion, and its outcome is the outcome
of the request, except that a key that is taken is reported in words of its own. A pull request is
inserted with reviewers from a roster that the request has read, under an author that it has found.
-/

namespace ReviewRota

namespace Plan

variable {α : Type} {inserts : Call → Prop}

/-- After a call of this kind nothing is left to be done. -/
def Last (inserts : Call → Prop) : Plan α → Prop
  | done _ => True
  | check _ next => next.Last inserts
  | now next => ∀ t, (next t).Last inserts
  | maxReviewers next => ∀ n, (next n).Last inserts
  | snapshot next => next.Last inserts
  | call c next => (inserts c → ∀ r, ∃ o, next r = .done o) ∧ ∀ r, (next r).Last inserts

theorem last_of_forall_not (never : ∀ c, ¬inserts c) (p : Plan α) : p.Last inserts := by
  induction p with
  | done r => trivial
  | check name next ih => exact ih
  | now next ih => exact ih
  | maxReviewers next ih => exact ih
  | snapshot next ih => exact ih
  | call c next ih => exact ⟨fun is => absurd is (never c), ih⟩

theorem Last.step {p : Plan α} (last : p.Last inserts) (transactional : Bool)
    (d : Option (Deadline Binary64)) (w : World) :
    (p.step transactional d w).1.Last inserts := by
  cases p with
  | done r => exact last
  | check name next =>
    simp only [Plan.step]
    generalize (checkAct d name).enclosed transactional .none w = outcome
    obtain ⟨e | _, v⟩ := outcome
    · trivial
    · exact last
  | now next => exact last _
  | maxReviewers next => exact last _
  | snapshot next =>
    simp only [Plan.step]
    generalize snapshotAct.enclosed transactional .none w = outcome
    obtain ⟨e | _, v⟩ := outcome
    · trivial
    · exact last
  | call c next => exact last.2 _

theorem last_of_ends {c : Call} {next : Except Failure c.Result → Plan α}
    (ends : ∀ r, ∃ o, next r = .done o) : (call c next).Last inserts := by
  refine ⟨fun _ => ends, fun r => ?_⟩
  obtain ⟨o, done⟩ := ends r
  rw [done]
  trivial

end Plan

namespace Desk

def settled {α : Type} (reason : Reason) : Except Failure α → Except Failure α
  | .ok a => .ok a
  | .error e => .error (if e.IsExistence then .refuse reason else e)

namespace Command

/-- The outcome of the insertion that the request has come to, if the exchange is this one. -/
def insertion? : (command : Command) → Exchange → Option (Except Failure command.Result)
  | createTeam .., ⟨.teamCreate _, r⟩ => some r
  | createPullRequest .., ⟨.pullRequestCreate _, r⟩ => some r
  | _, _ => none

def Creates : Command → Prop
  | createTeam .. | createPullRequest .. => True
  | _ => False

def existence : Command → Reason
  | createTeam .. => .teamExists
  | _ => .pullRequestExists

/-- What is inserted is what the request asks for, and what it found out for it. -/
def Prepares (command : Command) (xs : List Exchange) (call : Call) : Prop :=
  match command, call with
  | createTeam name entries, .teamCreate t =>
    ∃ members, entries.mapM MemberEntry.draft = .ok members ∧ t = ⟨name, members⟩
  | createTeam .., _ => False
  | createPullRequest id name author, .pullRequestCreate q =>
    ∃ u team roster limit now, ⟨.userGet author, .ok u⟩ ∈ xs ∧
      ⟨.usersOfTeam team, .ok roster⟩ ∈ xs ∧
      q = opened id name author (Roster.pick (roster.map UserRow.member) author.string? limit) now
  | _, _ => True

/-- The outcome of the request is that of its insertion, and nothing succeeds without one. -/
structure Settles (command : Command) (xs : List Exchange)
    (r : Except Failure command.Result) : Prop where
  settled : ∀ x ∈ xs, ∀ o, command.insertion? x = some o → r = settled command.existence o
  inserted : command.Creates → ∀ a, r = .ok a → ∃ x ∈ xs, command.insertion? x = some (.ok a)

/-- The contract about insertions. -/
def creation (command : Command) : Contract command.Result where
  rely _ _ := True
  warrant := command.Prepares
  conclude := command.Settles

theorem settles_error {command : Command} {xs : List Exchange}
    (before : ∀ x ∈ xs, command.insertion? x = none) (e : Failure) :
    command.Settles xs (.error e) := by
  refine ⟨fun x member o inserted => ?_, nofun⟩
  rw [before x member] at inserted
  cases inserted

theorem settles_concat (command : Command) {xs : List Exchange} {x : Exchange}
    {o : Except Failure command.Result} (before : ∀ y ∈ xs, command.insertion? y = none)
    (inserted : command.insertion? x = some o) :
    command.Settles (xs ++ [x]) (Desk.settled command.existence o) := by
  constructor
  · intro y member o' found
    rcases List.mem_append.mp member with old | new
    · rw [before y old] at found
      cases found
    · rw [List.mem_singleton.mp new, inserted] at found
      rw [Option.some.inj found]
  · intro _ a succeeds
    cases o with
    | error e => cases succeeds
    | ok b =>
      cases succeeds
      exact ⟨x, by simp, inserted⟩

theorem honours_settled {α : Type} {k : Contract α} {xs : List Exchange} {reason : Reason}
    {e : Failure} (concludes : k.conclude xs (Desk.settled reason (.error e))) :
    (if e.IsExistence then .refuse reason else .fail e : Plan α).Honours k xs := by
  replace concludes : k.conclude xs (.error (if e.IsExistence then .refuse reason else e)) :=
    concludes
  split
  · rwa [if_pos ‹_›] at concludes
  · rwa [if_neg ‹_›] at concludes

theorem creation_createTeam (name : Value) (entries : List MemberEntry) :
    (createTeamPlan name entries).Honours (createTeam name entries).creation [] := by
  have before : ∀ x ∈ [], (createTeam name entries).insertion? x = none := by simp
  refine Plan.Honours.bind (p := .done (entries.mapM MemberEntry.draft)) ?_
  cases members : entries.mapM MemberEntry.draft with
  | error e => exact settles_error before e
  | ok ms =>
    have concludes (r : Except Failure Team) :=
      settles_concat (createTeam name entries) before (x := ⟨.teamCreate ⟨name, ms⟩, r⟩) (o := r)
        rfl
    refine ⟨settles_error before, ⟨ms, members, rfl⟩, fun r _ => ?_⟩
    cases r with
    | ok t => exact concludes (.ok t)
    | error e => exact honours_settled (concludes (.error e))

theorem creation_createPullRequest (id name author : Value) :
    (createPullRequestPlan id name author).Honours (createPullRequest id name author).creation
      [] := by
  have fails (xs : List Exchange)
      (before : ∀ x ∈ xs, (createPullRequest id name author).insertion? x = none) (e : Failure) :
      (createPullRequest id name author).creation.conclude xs (.error e) := settles_error before e
  refine ⟨fails _ (by simp), trivial, fun r _ => ?_⟩
  cases r with
  | ok p => exact fails _ (by simp [insertion?]) _
  | error e =>
    show Plan.Honours _ (if ¬e.IsNotFound then _ else _ : Plan PullRequest) _
    split
    · exact fails _ (by simp [insertion?]) _
    refine ⟨fails _ (by simp [insertion?]), trivial, fun r _ => ?_⟩
    cases r with
    | error e => exact fails _ (by simp [insertion?]) _
    | ok u =>
      dsimp only [Plan.bind]
      split
      · exact fails _ (by simp [insertion?]) _
      rename_i team of
      refine ⟨fails _ (by simp [insertion?]), trivial, fun roster _ => ?_⟩
      cases roster with
      | error e => exact fails _ (by simp [insertion?]) _
      | ok roster =>
        intro limit now
        have before : ∀ x ∈ [⟨.pullRequestGet id, .error e⟩, ⟨.userGet author, .ok u⟩,
            ⟨.usersOfTeam (.text (.plain team)), .ok roster⟩],
            (createPullRequest id name author).insertion? x = none := by simp [insertion?]
        have concludes (q : PullRequest) (r : Except Failure PullRequest) :=
          settles_concat (createPullRequest id name author) before
            (x := ⟨.pullRequestCreate q, r⟩) (o := r) rfl
        refine ⟨fails _ (by simp [insertion?]),
          ⟨u, .text (.plain team), roster, limit, now, by simp, by simp, rfl⟩, fun r _ => ?_⟩
        cases r with
        | ok p => exact concludes _ (.ok p)
        | error e => exact honours_settled (concludes _ (.error e))

theorem creation_honours (command : Command) :
    command.operation.plan.Honours command.creation [] := by
  have others {command : Command} (creates : ¬command.Creates)
      (prepares : ∀ xs call, command.Prepares xs call)
      (silent : ∀ x, command.insertion? x = none) :
      command.operation.plan.Honours command.creation [] := by
    have settles (xs : List Exchange) (r : Except Failure command.Result) :
        command.Settles xs r := by
      refine ⟨fun x _ o found => ?_, fun creating => absurd creating creates⟩
      rw [silent x] at found
      cases found
    exact Plan.honours_of_forall prepares settles _ _
  cases command with
  | createTeam name entries => exact creation_createTeam name entries
  | createPullRequest id name author => exact creation_createPullRequest id name author
  | _ => exact others id (fun _ _ => trivial) fun _ => rfl

/-! ### The last call -/

def Inserts : Command → Call → Prop
  | createTeam .., .teamCreate _ => True
  | createPullRequest .., .pullRequestCreate _ => True
  | _, _ => False

instance (command : Command) (call : Call) : Decidable (command.Inserts call) := by
  cases command <;> cases call <;> dsimp only [Inserts] <;> infer_instance

theorem isSome_insertion? {command : Command} {x : Exchange} :
    (command.insertion? x).isSome ↔ command.Inserts x.call := by
  obtain ⟨call, r⟩ := x
  cases command <;> cases call <;> simp [insertion?, Inserts]

theorem ends_settled {α : Type} (reason : Reason) (e : Failure) :
    ∃ o, (if e.IsExistence then .refuse reason else .fail e : Plan α) = .done o := by
  by_cases taken : e.IsExistence <;> simp [taken, Plan.refuse, Plan.fail]

theorem last_createTeam (name : Value) (entries : List MemberEntry) :
    (createTeamPlan name entries).Last (createTeam name entries).Inserts := by
  unfold createTeamPlan
  cases entries.mapM MemberEntry.draft with
  | error e => trivial
  | ok members =>
    show Plan.Last _ (Plan.check _ (Plan.call (.teamCreate ⟨name, members⟩) _))
    refine Plan.last_of_ends fun r => ?_
    cases r with
    | ok t => exact ⟨_, rfl⟩
    | error e => exact ends_settled .teamExists e

theorem last_createPullRequest (id name author : Value) :
    (createPullRequestPlan id name author).Last (createPullRequest id name author).Inserts := by
  refine ⟨nofun, fun r => ?_⟩
  cases r with
  | ok p => trivial
  | error e =>
    show Plan.Last _ (if ¬e.IsNotFound then _ else _ : Plan PullRequest)
    split
    · trivial
    refine ⟨nofun, fun r => ?_⟩
    cases r with
    | error e => trivial
    | ok u =>
      dsimp only [Plan.bind]
      split
      · trivial
      refine ⟨nofun, fun roster => ?_⟩
      cases roster with
      | error e => trivial
      | ok roster =>
        intro limit now
        show Plan.Last _ (Plan.check _ (Plan.call (.pullRequestCreate _) _))
        refine Plan.last_of_ends fun r => ?_
        cases r with
        | ok p => exact ⟨_, rfl⟩
        | error e => exact ends_settled .pullRequestExists e

/-- The insertion is the last thing that a request does. -/
theorem last_insertion (command : Command) :
    command.operation.plan.Last command.Inserts := by
  cases command with
  | createTeam name entries => exact last_createTeam name entries
  | createPullRequest id name author => exact last_createPullRequest id name author
  | _ => exact Plan.last_of_forall_not (fun _ => id) _

end Command

end Desk

end ReviewRota
