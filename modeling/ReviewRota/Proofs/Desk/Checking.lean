import ReviewRota.Desk.Command
import ReviewRota.Proofs.Desk.Timeline
import ReviewRota.Scenario.Turn

/-!
# Requests look before they call

Every plan of the desk checks its deadline before each of its calls, with one exception. A merge
that lost a race reads the pull request again right after its update, and so it can still call
storage, and even answer, when its time is over.
-/

namespace ReviewRota

namespace Operation

variable {α : Type} (o : Operation α) (timeout : Option Number) (i : Interruption) (w : World)

/-- The world in which the plan of an operation begins. -/
def begun : World := if o.transactional then w.deeper else w

@[simp] theorem clock_begun : (o.begun w).clock = w.clock := by
  unfold begun
  split <;> rfl

/-- What an operation does, up to its end. It does nothing if its seconds are no clock reading. -/
def timeline : List Deed :=
  match Deadline.start? w.clock timeout with
  | .error _ => []
  | .ok d => o.plan.timeline d i (o.begun w)

variable {o timeout i w}

theorem timeline_eq {d : Option (Deadline Binary64)}
    (start : Deadline.start? w.clock timeout = .ok d) :
    o.timeline timeout i w = o.plan.timeline d i (o.begun w) := by
  rw [timeline, start]

theorem timeline_cases (o : Operation α) (timeout : Option Number) (i : Interruption) (w : World) :
    o.timeline timeout i w = [] ∨ ∃ d, Deadline.start? w.clock timeout = .ok d := by
  cases start : Deadline.start? w.clock timeout with
  | error e =>
    left
    rw [timeline, start]
  | ok d => exact .inr ⟨d, rfl⟩

theorem act_of_plan_error {d : Option (Deadline Binary64)} {e : Failure}
    (start : Deadline.start? w.clock timeout = .ok d)
    (fails : (o.plan.act d i (o.begun w)).1 = .error e) : (o.act timeout i w).1 = .error e := by
  have body : (o.body timeout i (o.begun w)).1 = .error e := by
    rw [body_eq_plan o (by rwa [clock_begun])]
    exact fails
  rw [act_eq_enclosed, Act.enclosed]
  unfold begun at body
  split
  · rename_i transactional
    rw [if_pos transactional] at body
    generalize run : o.body timeout i w.deeper = outcome at body
    obtain ⟨r, v⟩ := outcome
    obtain rfl : r = .error e := body
    rw [Act.atomic_error run]
  · rename_i untransacted
    rwa [if_neg untransacted] at body

end Operation

namespace Desk

namespace Command

/-- The second read of a merge, right after its update lost a race. -/
def Rereads : Command → Exchange → Call → Prop
  | merge id, x, c =>
    (∃ p e, x = ⟨.pullRequestUpdate p, .error e⟩ ∧ e.IsConflict) ∧ c = .pullRequestGet id
  | _, _, _ => False

/-! ### The plans of the requests -/

section

variable {excuses : Exchange → Call → Prop}

theorem heeds_createTeam (name : Value) (entries : List MemberEntry) :
    (createTeamPlan name entries).Heeds excuses .begun := by
  unfold createTeamPlan
  cases entries.mapM MemberEntry.draft with
  | error e => trivial
  | ok ms =>
    refine ⟨trivial, fun r => ?_⟩
    cases r with
    | ok team => trivial
    | error e =>
      show Plan.Heeds _ (if e.IsExistence then _ else _ : Plan Team) _
      split <;> trivial

theorem heeds_getTeam (name : Value) : (getTeamPlan name).Heeds excuses .begun := by
  refine ⟨trivial, fun r => ?_⟩
  cases r <;> trivial

theorem heeds_deactivateEach (us : List UserRow) (s : Plan.Standing) :
    (deactivateEach us).Heeds excuses s := by
  induction us generalizing s with
  | nil => trivial
  | cons u us ih =>
    refine ⟨trivial, fun r => ?_⟩
    cases r with
    | error e => trivial
    | ok row =>
      apply Plan.Heeds.bind (p := deactivateEach us)
      · exact ih _
      · exact fun rows s => trivial

theorem heeds_deactivateTeam (name : Value) : (deactivateTeamPlan name).Heeds excuses .begun := by
  refine ⟨trivial, fun r => ?_⟩
  cases r with
  | error e => trivial
  | ok us => exact heeds_deactivateEach us _

theorem heeds_setUserActive (id active : Value) :
    (setUserActivePlan id active).Heeds excuses .begun :=
  ⟨trivial, fun _ => trivial⟩

theorem heeds_reviewAssignments (id : Value) :
    (reviewAssignmentsPlan id).Heeds excuses .begun := by
  refine ⟨trivial, fun r => ?_⟩
  cases r with
  | error e => trivial
  | ok u => exact ⟨trivial, fun _ => trivial⟩

theorem heeds_createPullRequest (id name author : Value) :
    (createPullRequestPlan id name author).Heeds excuses .begun := by
  refine ⟨trivial, fun r => ?_⟩
  cases r with
  | ok p => trivial
  | error e =>
    show Plan.Heeds _ (if ¬e.IsNotFound then _ else _ : Plan PullRequest) _
    split
    · trivial
    refine ⟨trivial, fun r => ?_⟩
    cases r with
    | error e => trivial
    | ok u =>
      dsimp only [Plan.bind]
      split
      · trivial
      refine ⟨trivial, fun roster => ?_⟩
      cases roster with
      | error e => trivial
      | ok roster =>
        intro limit now
        refine ⟨trivial, fun r => ?_⟩
        cases r with
        | ok p => trivial
        | error e =>
          show Plan.Heeds _ (if e.IsExistence then _ else _ : Plan PullRequest) _
          split <;> trivial

theorem heeds_merge (id : Value) : (mergePlan id).Heeds (merge id).Rereads .begun := by
  refine ⟨trivial, fun r => ?_⟩
  cases r with
  | error e => trivial
  | ok p =>
    show Plan.Heeds _ (if p.IsMerged then _ else _ : Plan PullRequest) _
    split
    · trivial
    intro now
    refine ⟨trivial, fun r => ?_⟩
    cases r with
    | ok p => trivial
    | error e =>
      show Plan.Heeds _ (if e.IsConflict then _ else _ : Plan PullRequest) _
      split
      · rename_i lost
        refine ⟨⟨⟨_, e, rfl, lost⟩, rfl⟩, fun r => ?_⟩
        cases r with
        | error e => trivial
        | ok current =>
          show Plan.Heeds _ (if current.IsMerged then _ else _ : Plan PullRequest) _
          split <;> trivial
      · trivial

theorem heeds_reassign (id old : Value) : (reassignPlan id old).Heeds excuses .begun := by
  refine ⟨trivial, fun r => ?_⟩
  cases r with
  | error e => trivial
  | ok p =>
    show Plan.Heeds _ (if p.IsMerged then _ else _ : Plan (PullRequest × String)) _
    split
    · trivial
    split
    · trivial
    split
    · trivial
    refine ⟨trivial, fun r => ?_⟩
    cases r with
    | error e => trivial
    | ok u =>
      refine ⟨trivial, fun r => ?_⟩
      cases r with
      | error e => trivial
      | ok roster =>
        dsimp only [Plan.bind]
        split
        · trivial
        refine ⟨trivial, fun r => ?_⟩
        cases r <;> trivial

theorem heeds_overview : overviewPlan.Heeds excuses .begun := by
  refine ⟨trivial, fun ps => ?_⟩
  cases ps with
  | error e => trivial
  | ok ps =>
    refine ⟨trivial, fun us => ?_⟩
    cases us with
    | error e => trivial
    | ok us =>
      refine ⟨trivial, fun ts => ?_⟩
      cases ts <;> trivial

end

/-- Every request checks its deadline before it calls storage, up to the second read of a merge. -/
theorem heeds (command : Command) : command.operation.plan.Heeds command.Rereads .begun := by
  cases command with
  | createTeam name entries => exact heeds_createTeam name entries
  | getTeam name => exact heeds_getTeam name
  | deactivateTeam name => exact heeds_deactivateTeam name
  | setUserActive id active => exact heeds_setUserActive id active
  | reviewAssignments id => exact heeds_reviewAssignments id
  | createPullRequest id name author => exact heeds_createPullRequest id name author
  | merge id => exact heeds_merge id
  | reassign id old => exact heeds_reassign id old
  | overview => exact heeds_overview

/-- Whatever happens while a request is served: right before each of its calls it looked at the
clock, found time left, and there still is some, unless the call is the second read of a merge. A
look that finds none left is the last thing that the request does, and cancels it. -/
theorem calls_checked (command : Command) (timeout : Option Number) (i : Interruption) (w : World) :
    (∀ earlier later clock x,
      command.operation.timeline timeout i w = earlier ++ .asked clock x :: later →
        (∃ r, earlier.getLast? = some (.looked r) ∧ r.expired = false ∧
          ∀ d, Deadline.start? w.clock timeout = .ok (some d) → ¬d.Expired clock) ∨
        ∃ t y, earlier.getLast? = some (.asked t y) ∧ command.Rereads y x.call) ∧
    ∀ earlier later r,
      command.operation.timeline timeout i w = earlier ++ .looked r :: later → r.expired = true →
        later = [] ∧ ∃ refusal,
          (command.operation.act timeout i w).1 = .error (.refused refusal) ∧
            refusal.reason = .cancelled := by
  rcases command.operation.timeline_cases timeout i w with idle | ⟨d, start⟩
  · rw [idle]
    constructor
    · intro earlier later clock x deeds
      simp at deeds
    · intro earlier later r deeds
      simp at deeds
  · have orderly : Orderly command.Rereads d none (command.operation.timeline timeout i w) := by
      rw [Operation.timeline_eq start]
      exact command.heeds.orderly i rfl
    constructor
    · intro earlier later clock x deeds
      have follows := (deeds ▸ orderly).follows
      rw [Option.or_none] at follows
      rcases follows.asks clock x rfl with ⟨r, look, unexpired⟩ | reread
      · left
        have looked : .looked r ∈ command.operation.timeline timeout i w := by
          rw [deeds]
          exact List.mem_append_left _ (List.mem_of_getLast? look)
        rw [Operation.timeline_eq start] at looked
        obtain ⟨link, step, t, rfl⟩ := Plan.exists_of_looked_mem looked
        obtain ⟨ds, passed⟩ := follows.passed _ look
        refine ⟨_, look, ?_, fun e same => unexpired e ?_⟩
        · exact Scenario.Reading.expired_of_check passed
        · rw [start] at same
          cases same
          rfl
      · exact .inr reread
    · intro earlier later r deeds expired
      have looked : .looked r ∈ command.operation.timeline timeout i w := by
        rw [deeds]
        exact List.mem_append_right _ List.mem_cons_self
      rw [Operation.timeline_eq start] at looked
      obtain ⟨link, step, t, rfl⟩ := Plan.exists_of_looked_mem looked
      obtain ⟨e, -, stops⟩ := Scenario.Reading.check_of_expired expired
      constructor
      · cases later with
        | nil => rfl
        | cons deed later =>
          -- A deed behind a look would mean that the look has passed.
          rw [List.append_cons] at deeds
          have follows := (deeds ▸ orderly).follows
          obtain ⟨ds, passed⟩ := follows.passed (.of d link step t) (by simp)
          rw [stops] at passed
          cases passed
      · have fails := Operation.act_of_plan_error start (Plan.act_of_stopped looked stops)
        exact ⟨e.exceeded step, fails, rfl⟩

def reviewing : World where
  tables :=
    { teams := ["core"]
      users := ["u1", "u2"].map fun id => ⟨id, id, some "core", true⟩
      heads := [⟨"pr-1", "Search", "u1", Status.opened, default, none, 1⟩]
      assigned := [⟨"pr-1", "u2", 0⟩] }
  now := default
  tick := .ofInt 1

def overtaking : List Scenario.Interjection :=
  [⟨.port .pullRequestUpdate, 1, .before, [⟨none, .desk (.merge "pr-1") none⟩], none⟩]

/-- What a merge with three seconds to go does when it is overtaken. -/
def overtaken : List Deed :=
  (merge "pr-1").operation.timeline (some (.int 3)) (Scenario.interruption overtaking) reviewing

/-- It reads the pull request again right behind its update, at the fourth second, and answers. -/
theorem rereads_late :
    overtaken[3]?.bind Deed.clock? = some (.ofInt 2) ∧
      overtaken[4]?.bind Deed.clock? = some (.ofInt 4) ∧
      Deadline.start? reviewing.clock (some (.int 3)) = .ok (some ⟨.int 3, .ofInt 3⟩) ∧
      (⟨.int 3, .ofInt 3⟩ : Deadline Binary64).Expired (.ofInt 4) ∧
      ((merge "pr-1").operation.act (some (.int 3)) (Scenario.interruption overtaking)
        reviewing).1.isOk = true := by
  refine ⟨?_, ?_, ?_, ?_, ?_⟩ <;> decide +kernel

end Command

end Desk

end ReviewRota
