import ReviewRota.Proofs.Desk.Deactivating
import ReviewRota.Proofs.Desk.Enlisting
import ReviewRota.Proofs.Desk.Opening
import ReviewRota.Proofs.Desk.Reassigning
import ReviewRota.Proofs.Interleaving.Whole
import ReviewRota.Proofs.Store.Attaining

/-!
# Teams in which nobody is active

Nobody joins a team that is stored, since its name is taken: its members can only leave it, and the
ones that come back to be active by a new team are moved into it. So a team in which nobody is
active stays so until a flag is set for one who has been in it, and it has no reviewers to offer.
-/

namespace ReviewRota

namespace Tables

variable {t u : Tables} {team name : String} {former : List String}

/-- A stored team in which nobody is active, and nobody is but former members. -/
structure Dormant (t : Tables) (team : String) (former : List String) : Prop where
  stored : t.HasTeam team
  members : ∀ u ∈ t.users, u.team = some team → u.active = false ∧ u.id ∈ former

theorem dormant_deactivated (stored : t.HasTeam team) :
    let u := t.deactivated ((t.usersOf (some team)).map UserRow.id)
    u.Dormant team ((u.usersOf (some team)).map UserRow.id) := by
  intro u
  refine ⟨stored, fun v member of => ⟨?_, List.mem_map_of_mem (mem_usersOf.mpr ⟨member, of⟩)⟩⟩
  obtain ⟨r, old, rfl⟩ := mem_deactivated.mp member
  have among : r.id ∈ (t.usersOf (some team)).map UserRow.id :=
    List.mem_map_of_mem (mem_usersOf.mpr ⟨old, of⟩)
  simp [among]

namespace Dormant

variable (dormant : t.Dormant team former)
include dormant

theorem of_pullRequestWrite (wrote : t.PullRequestWrite u) : u.Dormant team former := by
  constructor
  · rw [HasTeam, wrote.teams]
    exact dormant.stored
  · rw [wrote.users]
    exact dormant.members

theorem upsert {r : UserRow} (elsewhere : r.team ≠ some team) :
    (t.upsert r).Dormant team former := by
  constructor
  · rw [HasTeam, teams_upsert]
    exact dormant.stored
  · intro v member of
    rcases mem_users_upsert member with old | same
    · exact dormant.members v old of
    · exact absurd (same.symm.trans of) elsewhere

theorem founded (fresh : ¬t.HasTeam name) (members : List Member) :
    (t.founded name members).Dormant team former := by
  have other : name ≠ team := fun same => fresh (same ▸ dormant.stored)
  have enrolled (u : Tables) (dormant : u.Dormant team former) : Dormant
      (members.foldl (fun t m => t.upsert ⟨m.id, m.username, some name, m.active⟩) u) team
      former := by
    induction members generalizing u with
    | nil => exact dormant
    | cons m ms ih => exact ih _ (dormant.upsert fun same => other (Option.some.inj same))
  exact enrolled _ ⟨List.mem_append_left _ dormant.stored, dormant.members⟩

theorem flagged {id : String} {b : Bool} (spared : b = true → id ∉ former) :
    (t.modifyUser id fun u => { u with active := b }).Dormant team former := by
  refine ⟨dormant.stored, fun v member of => ?_⟩
  obtain ⟨r, old, rfl⟩ := List.mem_map.mp member
  split at of
  · rename_i same
    obtain ⟨-, among⟩ := dormant.members r old of
    rw [if_pos same]
    exact ⟨Bool.eq_false_iff.mpr fun active => spared active (same ▸ among), among⟩
  · rename_i other
    rw [if_neg other]
    exact dormant.members r old of

/-- A dormant team has no candidates. -/
theorem chosen_eq_nil (author : Value) (limit : Int) : Desk.chosen t team author limit = [] := by
  have none : Roster.candidates ((t.usersOf (some team)).map UserRow.member) author.string? =
      [] := by
    refine List.eq_nil_iff_forall_not_mem.mpr fun id candidate => ?_
    obtain ⟨m, listed, ⟨active, -⟩, -⟩ := Roster.mem_candidates.mp candidate
    obtain ⟨u, member, rfl⟩ := List.mem_map.mp listed
    obtain ⟨stored, of⟩ := mem_usersOf.mp member
    rw [UserRow.active_member, (dormant.members u stored of).1] at active
    cases active
  rw [Desk.chosen, Roster.pick_eq_take, none, List.take_nil]

theorem not_canReplace {p : PullRequestRow} (present : t.teamOf p.author = some team)
    (leaving id : String) : ¬t.CanReplace p leaving id := by
  intro can
  obtain ⟨team', present', u, stored, of, active, -⟩ := can.colleague
  obtain rfl := Option.some.inj (present.symm.trans present')
  rw [(dormant.members u stored of).1] at active
  cases active

end Dormant

end Tables

namespace Desk

variable {w : World} {team : String} {former : List String}

namespace Command

def Reactivates (former : List String) : Command → Prop
  | setUserActive id active =>
    active.flag = .ok (some true) ∧ ∃ key ∈ former, id.column = .ok (some key)
  | _ => False

variable {command : Command}

theorem Enlists.keeps_dormant (spares : ¬command.Reactivates former) {xs : List Exchange} {c : Call}
    (enlists : command.Enlists xs c) :
    c.act.Keeps (fun w => w.Resting ∧ w.tables.Dormant team former) .none := by
  rintro w ⟨resting, dormant⟩
  refine ⟨Call.keeps_resting Interruption.resting_none c w resting, ?_⟩
  by_cases writes : c.WritesRoster
  · cases c with
    | teamCreate t =>
      generalize run : (Call.teamCreate t).act .none w = outcome
      obtain ⟨r, v⟩ := outcome
      have ends := Teams.create_run resting.unspoiled run
      generalize v.tables = after at ends
      cases ends with
      | rejected e => exact dormant
      | founded column fresh spelled answers => exact dormant.founded fresh _
    | userSetActive id active =>
      generalize run : (Call.userSetActive id active).act .none w = outcome
      obtain ⟨r, v⟩ := outcome
      obtain ⟨e, -, same⟩ | ⟨u, -, key, b, column, flag, -, changed⟩ :=
        Users.setActive_run resting.unspoiled run
      · exact same ▸ dormant
      · rw [changed]
        refine dormant.flagged fun set among => ?_
        subst set
        obtain rfl | ⟨name, us, u, rfl, -, -, -, rfl⟩ := enlists
        · exact spares ⟨flag, key, among, column⟩
        · cases (Users.flag_bool false).symm.trans flag
    | userCreate | userUpdate => exact enlists.elim
    | _ => exact writes.elim
  · exact Call.keeps_of_pullRequestWrite (I := fun t => t.Dormant team former)
      (Interruption.with_none _) (fun _ _ wrote dormant => dormant.of_pullRequestWrite wrote) writes
      w dormant

/-- A request that reactivates nobody keeps a team dormant. -/
theorem keeps_dormant (spares : ¬command.Reactivates former) (timeout : Option Number)
    (resting : w.Resting) (dormant : w.tables.Dormant team former) :
    (command.operation.act timeout .none w).2.tables.Dormant team former := by
  rw [Operation.act_eq_enclosed]
  cases transactional : command.operation.transactional with
  | false =>
    have kept : (command.operation.body timeout).Keeps
        (fun w => w.Resting ∧ w.tables.Dormant team former) .none := by
      refine .bind .world fun w => .bind (.ofExcept _) fun d => ?_
      refine Plan.keeps_of_honours (Interruption.keeps_none fun w e h => ?_) (fun w b h => ?_)
        (k := command.enlistment) (fun _ _ => trivial)
        (fun _ _ enlists => enlists.keeps_dormant spares) d command.enlists
      · exact ⟨Interruption.resting_none.log w e h.1, h.2⟩
      · exact ⟨⟨h.1.depth, h.1.unspoiled, h.1.linked⟩, h.2⟩
    exact (kept w ⟨resting, dormant⟩).2
  | true =>
    refine Act.Keeps.enclosed (I := fun t => t.Dormant team former) true
      (.bind .world fun w => .bind (.ofExcept _) fun d => ?_) w dormant
    refine Plan.keeps_of_honours (Interruption.with_none _) (fun _ _ h => h)
      (k := command.enlistment) (fun _ _ => trivial) (fun xs c enlists => ?_) d command.enlists
    refine Call.keeps_of_pullRequestWrite (Interruption.with_none _)
      (fun _ _ wrote dormant => dormant.of_pullRequestWrite wrote) fun writes => ?_
    cases transactional.symm.trans (enlists.untransacted writes)

end Command

/-! ### What a dormant team offers -/

/-- What becomes of a creation that finds no candidates: it stores a pull request without reviewers,
or it fails and stores nothing. -/
structure Unreviewed (w : World) (id name author : Value) (timeout : Option Number)
    (outcome : Except Failure PullRequest × World) : Prop where
  failed : ∀ e, outcome.1 = .error e → outcome.2.tables = w.tables
  stored : ∀ p, outcome.1 = .ok p → p.reviewers = [] ∧ ∃ row : PullRequestRow,
    id.column = .ok (some row.id) ∧ author.column = .ok (some row.author) ∧ row.reviewers = [] ∧
    outcome.2.tables = w.tables.addPullRequest row
  succeeds : timeout = none → ∀ key title, id.column = .ok (some key) →
    name.column = .ok (some title) → w.tables.pullRequest? key = none → ∃ p, outcome.1 = .ok p

/-- What becomes of a reassignment that finds no candidates: it fails and changes nothing, and if
there was a reviewer to replace, this is its reason. -/
structure Unreplaced (w : World) (p : PullRequestRow) (old : Value) (timeout : Option Number)
    (outcome : Except Failure (PullRequest × String) × World) : Prop where
  fails : ∃ e, outcome.1 = .error e
  unchanged : outcome.2.tables = w.tables
  exhausted : ¬p.IsMerged → ∀ leaving ∈ p.reviewers, old.string? = some leaving →
    outcome.1 = .error (.refuse .noCandidate) ∨
      ∃ e, outcome.1 = .error e ∧ Deadline.Overruns timeout e

section

variable (resting : w.Resting) (dormant : w.tables.Dormant team former)
include resting dormant

theorem createPullRequest_unreviewed {a : String} (id name : Value) {author : Value}
    (column : author.column = .ok (some a)) (present : w.tables.teamOf a = some team)
    (timeout : Option Number) :
    Unreviewed w id name author timeout
      ((createPullRequest id name author).act timeout .none w) := by
  obtain ⟨u, stored, of⟩ := Option.bind_eq_some_iff.mp present
  have known := Users.found_of_stored column stored
  obtain ⟨r, t, j, c, run, ends⟩ :=
    createPullRequest_ensures resting id name author timeout w.journal w.clock
  replace run : (createPullRequest id name author).act timeout .none w =
    (r, { w with tables := t, journal := j, clock := c }) := run
  rw [run]
  constructor
  · intro e failed
    obtain own | ⟨-, -, -, same⟩ := ends
    · exact own.unchanged failed
    · exact same
  · rintro p rfl
    obtain own | ⟨e, failed, -⟩ := ends
    · cases own with
      | opened written fresh named known' present' =>
        cases known.symm.trans known'
        cases of.symm.trans present'
        rw [dormant.chosen_eq_nil]
        exact ⟨rfl, _, written, (Users.found_eq_ok known).1, rfl, rfl⟩
    · cases failed
  · rintro rfl key title written named fresh
    exact ⟨_, (ends.of_none.opens written fresh named known of).1⟩

theorem reassign_unreplaced (keyed : w.tables.Keyed) {p : PullRequestRow} {id : Value}
    (column : id.column = .ok (some p.id)) (stored : w.tables.pullRequest? p.id = some p)
    (present : w.tables.teamOf p.author = some team) (old : Value) (timeout : Option Number) :
    Unreplaced w p old timeout ((reassign id old).act timeout .none w) := by
  obtain ⟨r, t, j, c, run, ends⟩ :=
    reassign_ensures resting keyed id old column timeout w.journal w.clock
  replace run : (reassign id old).act timeout .none w =
    (r, { w with tables := t, journal := j, clock := c }) := run
  rw [run]
  obtain own | ⟨e, rfl, overruns, rfl⟩ := ends
  · have outcome := own.replacement stored
    have nobody (leaving id : String) := dormant.not_canReplace present leaving id
    have fails : ∃ e, r = .error e := by
      cases outcome with
      | replaced _ _ _ least => exact absurd least.1 (nobody _ _)
      | _ => exact ⟨_, rfl⟩
    obtain ⟨e, failed⟩ := fails
    refine ⟨⟨e, failed⟩, own.unchanged failed, fun unmerged leaving assigned named => .inl ?_⟩
    obtain ⟨refused, -⟩ | ⟨successor, least, -⟩ :=
      outcome.exhausted_or_replaced unmerged assigned named
    · exact refused
    · exact absurd least.1 (nobody _ _)
  · exact ⟨⟨e, rfl⟩, rfl, fun _ _ _ _ => .inr ⟨e, rfl, overruns⟩⟩

end

end Desk

end ReviewRota
