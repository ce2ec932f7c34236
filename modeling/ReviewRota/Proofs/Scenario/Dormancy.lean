import ReviewRota.Proofs.Desk.Dormancy
import ReviewRota.Proofs.Http.Authors

/-!
# After a deactivation

A deactivation that has returned leaves its team dormant, and whatever is served afterwards, one
request after the other, leaves it so, as long as nobody who was in the team at that moment is
activated again. Until then the team has no reviewers to offer.
-/

namespace ReviewRota.Scenario

namespace Turn

/-- The request that the desk serves in a turn. -/
def command? (t : Turn) : Option Desk.Command :=
  match t.step.action with
  | .desk command _ => some command
  | .http r => r.command?
  | _ => none

/-- A turn on its own that leaves storage to the desk. -/
structure IsServed (t : Turn) : Prop where
  alone : t.interjections = []
  served : ∀ call, t.step.action ≠ .storage call

variable {t : Turn} {w : World}

theorem take_congr {v : World} (same : t.start w = t.start v) : t.take w = t.take v := by
  unfold take
  rw [same]

theorem IsServed.take (served : t.IsServed) :
    (t.command? = none ∧ ∃ preferences,
      (t.take w).2 = { t.begun w with preferences := preferences }) ∨
    ∃ command timeout, t.command? = some command ∧
      (t.take w).2 = (command.operation.act timeout .none (t.begun w)).2 := by
  unfold command?
  cases action : t.step.action with
  | configure changes =>
    refine .inl ⟨rfl, changes.foldl Change.apply (t.begun w).preferences, ?_⟩
    rw [world_take served.alone, action]
    rfl
  | desk command timeout =>
    refine .inr ⟨command, timeout, rfl, ?_⟩
    rw [world_take served.alone, action]
    rfl
  | storage call => exact absurd action (served.served call)
  | http r =>
    rw [world_take_http served.alone action]
    dsimp only
    cases r.command? with
    | none => exact .inl ⟨rfl, _, rfl⟩
    | some command => exact .inr ⟨command, _, rfl, rfl⟩

end Turn

structure Idle (team : String) (former : List String) (w : World) : Prop where
  resting : w.Resting
  keyed : w.tables.Keyed
  dormant : w.tables.Dormant team former

namespace Idle

variable {team : String} {former : List String} {w : World}

theorem begun (idle : Idle team former w) (t : Turn) : Idle team former (t.begun w) where
  resting := ⟨idle.resting.depth, idle.resting.unspoiled, idle.resting.linked⟩
  keyed := idle.keyed
  dormant := idle.dormant

theorem take (idle : Idle team former w) {t : Turn} (served : t.IsServed)
    (spares : ∀ command, t.command? = some command → ¬command.Reactivates former) :
    Idle team former (t.take w).2 := by
  have begun := idle.begun t
  obtain ⟨-, preferences, taken⟩ | ⟨command, timeout, asks, taken⟩ := served.take (w := w)
  · rw [taken]
    have rests := begun.resting
    exact ⟨⟨rests.depth, rests.unspoiled, rests.linked⟩, begun.keyed, begun.dormant⟩
  · rw [taken]
    constructor
    · exact command.operation.keeps_resting _ _ begun.resting
    · exact command.operation.keeps_keyed _ _ begun.keyed
    · exact command.keeps_dormant (spares command asks) timeout begun.resting begun.dormant

theorem play (idle : Idle team former w) {turns : List Turn} (served : ∀ t ∈ turns, t.IsServed)
    (spared : ∀ t ∈ turns, ∀ command, t.command? = some command → ¬command.Reactivates former) :
    Idle team former (play turns w).2 := by
  induction turns generalizing w with
  | nil => exact idle
  | cons t turns ih =>
    obtain ⟨first, rest⟩ := List.forall_mem_cons.mp served
    obtain ⟨now, later⟩ := List.forall_mem_cons.mp spared
    exact ih (idle.take first now) rest later

end Idle

theorem idle_of_deactivated {w v : World} (resting : w.Resting) (keyed : w.tables.Keyed)
    {name : Value} {key : String} (column : name.column = .ok (some key))
    (stored : w.tables.HasTeam key) {timeout : Option Number} {rows : List UserRow}
    (returned : (Desk.deactivateTeam name).act timeout .none w = (.ok rows, v)) :
    Idle key ((v.tables.usersOf (some key)).map UserRow.id) v := by
  have rests := (Desk.deactivateTeam name).keeps_resting timeout w resting
  have keeps := (Desk.deactivateTeam name).keeps_keyed timeout w keyed
  rw [returned] at rests keeps
  obtain ⟨r, t, j, c, run, ends⟩ :=
    Desk.deactivateTeam_ensures resting column timeout w.journal w.clock
  obtain ⟨rfl, rfl⟩ := Prod.mk.inj (returned.symm.trans run)
  obtain ⟨_, -, rfl⟩ | ⟨e, failed, -⟩ := ends
  · exact ⟨rests, keeps, Tables.dormant_deactivated stored⟩
  · cases failed

/-- After a deactivation of a stored team has returned, whatever is served and whatever teams are
founded: as long as nobody who was a member then is activated again, a pull request of an author in
the team gets no reviewers when it is created, and no other ones later. -/
theorem unreviewed_of_deactivated (db : Interleaving.Database) (now : Timestamp)
    (moves : List Interleaving.Move) {name : Value} {key : String}
    (column : name.column = .ok (some key))
    (stored : ((Interleaving.State.start db now).run moves).world.tables.HasTeam key)
    (timeout : Option Number) {rows : List UserRow} {v : World}
    (returned : (Desk.deactivateTeam name).act timeout .none
      ((Interleaving.State.start db now).run moves).world = (.ok rows, v))
    {turns : List Turn} (served : ∀ t ∈ turns, t.IsServed)
    (spared : ∀ t ∈ turns, ∀ command, t.command? = some command →
      ¬command.Reactivates ((v.tables.usersOf (some key)).map UserRow.id)) (next : Turn) :
    let u := next.begun (play turns v).2
    (∀ id title author a granted, author.column = .ok (some a) →
      u.tables.teamOf a = some key → Desk.Unreviewed u id title author granted
        ((Desk.createPullRequest id title author).act granted .none u)) ∧
    ∀ p id old granted, id.column = .ok (some p.id) → u.tables.pullRequest? p.id = some p →
      u.tables.teamOf p.author = some key →
      Desk.Unreplaced u p old granted ((Desk.reassign id old).act granted .none u) := by
  intro u
  have consistent := (Interleaving.State.consistent_start db now).run moves
  have deactivated := idle_of_deactivated consistent.resting consistent.keyed column stored returned
  have idle : Idle key _ u := (deactivated.play served spared).begun next
  constructor
  · intro id title author a granted written present
    exact Desk.createPullRequest_unreviewed idle.resting idle.dormant id title written present
      granted
  · intro p id old granted written found present
    exact Desk.reassign_unreplaced idle.resting idle.dormant idle.keyed written found present old
      granted

/-! ### A member who leaves for a new team -/

/-- A team of two, one of them with a pull request that the other one reviews. -/
def pair : Interleaving.Database where
  tables :=
    { teams := ["core"]
      users := ["u1", "u2"].map fun id => ⟨id, id, some "core", true⟩
      heads := [⟨"pr-1", "Search", "u1", Status.opened, default, none, 1⟩]
      assigned := [⟨"pr-1", "u2", 0⟩] }
  keyed := ⟨by decide, by decide, by decide, by decide⟩
  linked := by decide

/-- A new team takes over the reviewer, who is active in it. -/
def leaving : Turn :=
  let entry : Desk.MemberEntry := ⟨some "u2", some "Ben", some (.bool true)⟩
  ⟨⟨none, .desk (.createTeam "late" [entry]) none⟩, .zero false, []⟩

def busy : World := ((Interleaving.State.start pair default).run []).world

def retired : World :=
  { busy with
    tables := busy.tables.deactivated ((busy.tables.usersOf (some "core")).map UserRow.id) }

/-- The world after the reviewer has left, too. -/
def deserted : World := leaving.begun (play [leaving] retired).2

theorem deserted_of_deactivated : ∃ rows v,
    (Desk.deactivateTeam "core").act none .none busy = (.ok rows, v) ∧
      leaving.begun (play [leaving] v).2 = deserted := by
  have resting : busy.Resting := (Interleaving.State.consistent_start _ _).resting
  obtain ⟨r, t, j, c, run, ends⟩ := Desk.deactivateTeam_ensures resting
    (Value.column_plain "core") none busy.journal busy.clock
  obtain ⟨rows, rfl, rfl⟩ | ⟨e, -, overruns⟩ := ends
  · refine ⟨rows, _, run, ?_⟩
    have same : leaving.take { retired with journal := j, clock := c } = leaving.take retired :=
      Turn.take_congr rfl
    rw [deserted, world_play_cons, world_play_cons, ← same]
    rfl
  · exact absurd overruns Deadline.not_overruns_none

theorem unreviewed_of_deactivated_leaving :
    (∃ p, ((Desk.createPullRequest "pr-2" "Index" "u1").act none .none deserted).1 = .ok p ∧
      p.reviewers = []) ∧
    ((Desk.reassign "pr-1" "u2").act none .none deserted).1 = .error (.refuse .noCandidate) := by
  obtain ⟨rows, v, returned, later⟩ := deserted_of_deactivated
  have served : ∀ t ∈ [leaving], t.IsServed := List.forall_mem_singleton.mpr ⟨rfl, nofun⟩
  have unreviewed := unreviewed_of_deactivated pair default [] (Value.column_plain "core")
    (by decide) none returned served
    (List.forall_mem_singleton.mpr fun _ asks => by cases asks; exact id) leaving
  rw [later] at unreviewed
  obtain ⟨creations, reassignments⟩ := unreviewed
  have members : (busy.tables.usersOf (some "core")).map UserRow.id = ["u1", "u2"] := by
    rw [Tables.usersOf, Tables.idOrder, List.mergeSort_of_pairwise (by decide)]
    rfl
  have author : deserted.tables.teamOf "u1" = some "core" := by
    rw [deserted, retired, members]
    decide +kernel
  have fresh : deserted.tables.pullRequest? "pr-2" = none := by
    rw [deserted, retired, members]
    decide +kernel
  let p : PullRequestRow := ⟨⟨"pr-1", "Search", "u1", Status.opened, default, none, 1⟩, ["u2"]⟩
  have stored : deserted.tables.pullRequest? "pr-1" = some p := by
    rw [deserted, retired, members]
    decide +kernel
  constructor
  · have creation := creations "pr-2" "Index" "u1" "u1" none rfl author
    obtain ⟨p, succeeded⟩ := creation.succeeds rfl "pr-2" "Index" rfl rfl fresh
    exact ⟨p, succeeded, (creation.stored p succeeded).1⟩
  · have reassignment := reassignments p "pr-1" "u2" none rfl stored author
    obtain refused | ⟨e, -, overruns⟩ := reassignment.exhausted (by decide) "u2" (by decide) rfl
    · exact refused
    · exact absurd overruns Deadline.not_overruns_none

end ReviewRota.Scenario
