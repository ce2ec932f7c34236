import ReviewRota.Proofs.Desk.Edits
import ReviewRota.Proofs.Desk.Plan
import ReviewRota.Proofs.Store.Calls

/-!
# Contracts of the requests

A request creates pull requests with chosen reviewers only, and updates them only by edits of what
it has read itself. How it ends is told by the exchanges that it has had, and one that is a
transaction and fails has written nothing.
-/

namespace ReviewRota

/-- The edit is what the command asks for, of the pull request that it names by `id`. -/
def Edit.Of : Edit → Desk.Command → Value → Prop
  | merge _, .merge target, id => target = id
  | replace leaving _, .reassign target old, id => target = id ∧ old.string? = some leaving
  | _, _, _ => False

namespace Exchange

/-- A pull request that was read once is found again. -/
def Recalls (xs : List Exchange) : Exchange → Prop
  | ⟨.pullRequestGet id, r⟩ => ∀ p, ⟨.pullRequestGet id, .ok p⟩ ∈ xs → ∃ q, r = .ok q
  | _ => True

def WritesNothing (x : Exchange) : Prop := x.call.WritesPullRequest → ∃ f, x.outcome = .error f

end Exchange

namespace Desk.Command

structure Asks (command : Command) (xs : List Exchange) (edit : Edit) (p : PullRequestRow) :
    Prop where
  read : ∃ id, edit.Of command id ∧ ⟨.pullRequestGet id, .ok p⟩ ∈ xs
  fits : edit.Fits p

/-- Pull requests are created with chosen reviewers and updated by edits of what was read. All else
that a transaction does is to read. -/
def Warrants (command : Command) (xs : List Exchange) : Call → Prop
  | .pullRequestCreate q => ∃ id name author members limit now,
      command = .createPullRequest id name author ∧
      q = opened id name author (Roster.pick members author.string? limit) now
  | .pullRequestUpdate q => ∃ edit p, command.Asks xs edit p ∧ q = (edit.written p).entity
  | c => command.operation.transactional = true → c.IsReading

theorem Warrants.isReading {command : Command} {xs : List Exchange} {c : Call}
    (warrants : command.Warrants xs c) (call : ¬c.WritesPullRequest)
    (transactional : command.operation.transactional = true) : c.IsReading := by
  cases c with
  | pullRequestCreate | pullRequestUpdate => exact absurd trivial call
  | _ => exact warrants transactional

/-- What an answer to a merge or a reassignment says about the exchanges that led to it. -/
def Answers : (command : Command) → List Exchange → Except Failure command.Result → Prop
  | merge id, xs, r =>
    (∀ q, r = .ok q →
      (∃ p, ⟨.pullRequestGet id, .ok p⟩ ∈ xs ∧ p.IsMerged ∧ q = p.entity) ∨
      ∃ p now, ⟨.pullRequestGet id, .ok p⟩ ∈ xs ∧
        ⟨.pullRequestUpdate (merged p now), .ok q⟩ ∈ xs) ∧
    ∀ u f, ⟨.pullRequestUpdate u, .error f⟩ ∈ xs → r = .error f ∨ ∃ q, r = .ok q
  | reassign .., xs, r => ∀ u f, ⟨.pullRequestUpdate u, .error f⟩ ∈ xs → r = .error f
  | _, _, _ => True

structure Concludes (command : Command) (xs : List Exchange)
    (r : Except Failure command.Result) : Prop where
  undone : command.operation.transactional = true → ∀ e, r = .error e → ∀ x ∈ xs, x.WritesNothing
  answers : command.Answers xs r

def contract (command : Command) : Contract command.Result where
  rely := Exchange.Recalls
  warrant := command.Warrants
  conclude := command.Concludes

/-! ### Requests that write no pull request -/

theorem concludes_of_untransacted {command : Command}
    (untransacted : command.operation.transactional = false) {xs : List Exchange}
    {r : Except Failure command.Result} (answers : command.Answers xs r) :
    command.Concludes xs r :=
  ⟨fun transactional => absurd (untransacted.symm.trans transactional) Bool.false_ne_true, answers⟩

theorem honours_createTeam (name : Value) (entries : List MemberEntry) :
    (createTeamPlan name entries).Honours (createTeam name entries).contract [] := by
  have ends (xs : List Exchange) (r : Except Failure Team) :
      (createTeam name entries).Concludes xs r := concludes_of_untransacted rfl trivial
  refine Plan.Honours.bind (p := .done (entries.mapM MemberEntry.draft)) ?_
  cases entries.mapM MemberEntry.draft with
  | error e => exact ends _ _
  | ok members =>
    refine ⟨fun e => ends _ _, nofun, fun r _ => ?_⟩
    cases r with
    | ok team => exact ends _ _
    | error e =>
      show (if e.IsExistence then _ else _ : Plan Team).Honours _ _
      split <;> exact ends _ _

theorem honours_deactivateEach {k : Contract (List UserRow)}
    (warrant : ∀ xs id active, k.warrant xs (.userSetActive id active))
    (conclude : ∀ xs r, k.conclude xs r) (us : List UserRow) (xs : List Exchange) :
    (deactivateEach us).Honours k xs := by
  induction us generalizing k xs with
  | nil => exact conclude _ _
  | cons u us ih =>
    refine ⟨fun e => conclude _ _, warrant _ _ _, fun r _ => ?_⟩
    cases r with
    | error e => exact conclude _ _
    | ok row =>
      refine Plan.Honours.bind (p := deactivateEach us)
        (ih (k := Plan.before k _) warrant (fun ys r => ?_) _)
      cases r with
      | error e => exact conclude _ _
      | ok rows => exact conclude _ _

theorem honours_deactivateTeam (name : Value) :
    (deactivateTeamPlan name).Honours (deactivateTeam name).contract [] := by
  have ends (xs : List Exchange) (r : Except Failure (List UserRow)) :
      (deactivateTeam name).Concludes xs r := concludes_of_untransacted rfl trivial
  refine ⟨fun e => ends _ _, nofun, fun r _ => ?_⟩
  cases r with
  | error e => exact ends _ _
  | ok us =>
    have untransacted (xs : List Exchange) (id active : Value) :
        (deactivateTeam name).Warrants xs (.userSetActive id active) := nofun
    exact honours_deactivateEach untransacted ends us _

theorem honours_getTeam (name : Value) :
    (getTeamPlan name).Honours (getTeam name).contract [] := by
  have ends (xs : List Exchange) (r : Except Failure Team) : (getTeam name).Concludes xs r :=
    concludes_of_untransacted rfl trivial
  refine ⟨fun e => ends _ _, nofun, fun r _ => ?_⟩
  cases r <;> exact ends _ _

theorem honours_setUserActive (id active : Value) :
    (setUserActivePlan id active).Honours (setUserActive id active).contract [] := by
  have ends (xs : List Exchange) (r : Except Failure UserRow) :
      (setUserActive id active).Concludes xs r := concludes_of_untransacted rfl trivial
  exact ⟨fun e => ends _ _, nofun, fun r _ => ends _ _⟩

theorem honours_reviewAssignments (id : Value) :
    (reviewAssignmentsPlan id).Honours (reviewAssignments id).contract [] := by
  have ends (xs : List Exchange) (r : Except Failure (List PullRequestRow)) :
      (reviewAssignments id).Concludes xs r := concludes_of_untransacted rfl trivial
  refine ⟨fun e => ends _ _, nofun, fun r _ => ?_⟩
  cases r with
  | error e => exact ends _ _
  | ok u => exact ⟨fun e => ends _ _, nofun, fun r _ => ends _ _⟩

/-- A transaction that has only read may end in any way that its answers allow. -/
theorem concludes_of_reading {command : Command} {xs : List Exchange}
    {r : Except Failure command.Result} (reading : ∀ x ∈ xs, ¬x.call.WritesPullRequest)
    (answers : command.Answers xs r) : command.Concludes xs r :=
  ⟨fun _ _ _ x member writes => absurd writes (reading x member), answers⟩

theorem honours_overview : overviewPlan.Honours overview.contract [] := by
  have ends (xs : List Exchange) (reading : ∀ x ∈ xs, ¬x.call.WritesPullRequest)
      (r : Except Failure Statistics) : overview.Concludes xs r :=
    concludes_of_reading reading trivial
  refine ⟨fun e => ends _ (by simp) _, fun e => ends _ (by simp) _, fun _ => trivial,
    fun ps _ => ?_⟩
  cases ps with
  | error e => exact ends _ (by simp) _
  | ok ps =>
    refine ⟨fun e => ends _ (by simp) _, fun _ => trivial, fun us _ => ?_⟩
    cases us with
    | error e => exact ends _ (by simp) _
    | ok us =>
      refine ⟨fun e => ends _ (by simp) _, fun _ => trivial, fun ts _ => ?_⟩
      cases ts <;> exact ends _ (by simp) _

/-! ### Requests about pull requests -/

theorem honours_createPullRequest (id name author : Value) :
    (createPullRequestPlan id name author).Honours (createPullRequest id name author).contract
      [] := by
  have ends (xs : List Exchange) (reading : ∀ x ∈ xs, ¬x.call.WritesPullRequest)
      (r : Except Failure PullRequest) : (createPullRequest id name author).Concludes xs r :=
    concludes_of_reading reading trivial
  refine ⟨fun e => ends _ (by simp) _, fun _ => trivial, fun r _ => ?_⟩
  cases r with
  | ok p => exact ends _ (by simp) _
  | error e =>
    show Plan.Honours _ (if ¬e.IsNotFound then _ else _ : Plan PullRequest) _
    split
    · exact ends _ (by simp) _
    refine ⟨fun e => ends _ (by simp) _, fun _ => trivial, fun r _ => ?_⟩
    cases r with
    | error e => exact ends _ (by simp) _
    | ok u =>
      dsimp only [Plan.bind]
      split
      · exact ends _ (by simp) _
      refine ⟨fun e => ends _ (by simp) _, fun _ => trivial, fun roster _ => ?_⟩
      cases roster with
      | error e => exact ends _ (by simp) _
      | ok roster =>
        intro limit now
        refine ⟨fun e => ends _ (by simp) _, ⟨id, name, author, _, limit, now, rfl, rfl⟩,
          fun r _ => ?_⟩
        cases r with
        | ok p => exact ⟨fun _ e failed => absurd failed (by simp), trivial⟩
        | error e =>
          show Plan.Honours _ (if e.IsExistence then _ else _ : Plan PullRequest) _
          split <;> exact ⟨fun _ _ _ => by simp [Exchange.WritesNothing], trivial⟩

theorem honours_merge (id : Value) : (mergePlan id).Honours (merge id).contract [] := by
  have reads (xs : List Exchange) (e : Failure) (reading : ∀ x ∈ xs, ¬x.call.WritesPullRequest) :
      (merge id).Concludes xs (.error e) := by
    refine concludes_of_reading reading
      ⟨fun q failed => absurd failed (by simp), fun u f member => ?_⟩
    exact absurd trivial (reading _ member)
  refine ⟨fun e => reads _ e (by simp), fun _ => trivial, fun r _ => ?_⟩
  cases r with
  | error e => exact reads _ _ (by simp)
  | ok p =>
    show Plan.Honours _ (if p.IsMerged then _ else _ : Plan PullRequest) _
    split
    · rename_i final
      refine concludes_of_reading (by simp) ⟨fun q answered => ?_, fun u f member => ?_⟩
      · cases answered
        exact .inl ⟨p, by simp, final, rfl⟩
      · simp at member
    · rename_i unmerged
      intro now
      refine ⟨fun e => reads _ _ (by simp), ⟨.merge now, p, ⟨⟨id, rfl, by simp⟩, unmerged,
        fun _ _ h => Edit.noConfusion h⟩, (Edit.entity_written_merge now p).symm⟩, fun r _ => ?_⟩
      cases r with
      | ok q =>
        refine ⟨fun _ e failed => absurd failed (by simp), fun q' answered => ?_,
          fun u f member => ?_⟩
        · cases answered
          exact .inr ⟨p, now, by simp, by simp⟩
        · simp at member
      | error e =>
        have fails (xs : List Exchange) (undone : ∀ x ∈ xs, x.WritesNothing)
            (only : ∀ u f, ⟨.pullRequestUpdate u, .error f⟩ ∈ xs → f = e) :
            (merge id).Concludes xs (.error e) :=
          ⟨fun _ _ _ => undone, fun q failed => absurd failed (by simp),
            fun u f member => .inl (only u f member ▸ rfl)⟩
        show Plan.Honours _ (if e.IsConflict then _ else _ : Plan PullRequest) _
        split
        · -- The second read finds the pull request again, since the first one had found it.
          refine ⟨fun _ => trivial, fun r found => ?_⟩
          obtain ⟨current, rfl⟩ := found p (by simp)
          show Plan.Honours _ (if current.IsMerged then _ else _ : Plan PullRequest) _
          split
          · rename_i final
            refine ⟨fun _ e failed => absurd failed (by simp), fun q answered => ?_,
              fun u f member => .inr ⟨_, rfl⟩⟩
            cases answered
            exact .inl ⟨current, by simp, final, rfl⟩
          · exact fails _ (by simp [Exchange.WritesNothing]) (by simp)
        · exact fails _ (by simp [Exchange.WritesNothing]) (by simp)

theorem honours_reassign (id old : Value) :
    (reassignPlan id old).Honours (reassign id old).contract [] := by
  have reads (xs : List Exchange) (e : Failure) (reading : ∀ x ∈ xs, ¬x.call.WritesPullRequest) :
      (reassign id old).Concludes xs (.error e) :=
    concludes_of_reading reading fun u f member => absurd trivial (reading _ member)
  refine ⟨fun e => reads _ e (by simp), fun _ => trivial, fun r _ => ?_⟩
  cases r with
  | error e => exact reads _ _ (by simp)
  | ok p =>
    show Plan.Honours _ (if p.IsMerged then _ else _ : Plan (PullRequest × String)) _
    split
    · exact reads _ _ (by simp)
    rename_i unmerged
    split
    · exact reads _ _ (by simp)
    rename_i leaving named
    split
    · exact reads _ _ (by simp)
    rename_i assigned
    refine ⟨fun e => reads _ _ (by simp), fun _ => trivial, fun r _ => ?_⟩
    cases r with
    | error e => exact reads _ _ (by simp)
    | ok u =>
      refine ⟨fun e => reads _ _ (by simp), fun _ => trivial, fun r _ => ?_⟩
      cases r with
      | error e => exact reads _ _ (by simp)
      | ok roster =>
        dsimp only [Plan.bind]
        split
        · exact reads _ _ (by simp)
        rename_i successor chosen
        have fits : (Edit.replace leaving successor).Fits p :=
          Edit.fits_of_next unmerged (not_not.mp assigned) chosen
        refine ⟨fun e => reads _ _ (by simp), ⟨.replace leaving successor, p,
          ⟨⟨id, ⟨rfl, named⟩, by simp⟩, fits⟩,
          (Edit.entity_written_replace leaving successor p).symm⟩, fun r _ => ?_⟩
        cases r with
        | ok q => exact ⟨fun _ e failed => absurd failed (by simp), fun u f member => by
            simp at member⟩
        | error e =>
          refine ⟨fun _ _ _ => by simp [Exchange.WritesNothing], fun u f member => ?_⟩
          obtain ⟨-, rfl⟩ : u = _ ∧ f = e := by simpa using member
          rfl

theorem concludes_unstarted (command : Command) (e : Failure) :
    command.Concludes [] (.error e) := by
  refine concludes_of_reading (by simp) ?_
  cases command with
  | merge id =>
    exact ⟨fun q answered => absurd answered (by simp), fun u f member => by simp at member⟩
  | reassign id old => exact fun u f member => by simp at member
  | _ => trivial

theorem honours (command : Command) : command.operation.plan.Honours command.contract [] := by
  cases command with
  | createTeam name entries => exact honours_createTeam name entries
  | getTeam name => exact honours_getTeam name
  | deactivateTeam name => exact honours_deactivateTeam name
  | setUserActive id active => exact honours_setUserActive id active
  | reviewAssignments id => exact honours_reviewAssignments id
  | createPullRequest id name author => exact honours_createPullRequest id name author
  | merge id => exact honours_merge id
  | reassign id old => exact honours_reassign id old
  | overview => exact honours_overview

end Desk.Command

end ReviewRota
