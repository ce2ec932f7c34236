import ReviewRota.Proofs.Desk.Edits
import ReviewRota.Proofs.Desk.Ensuring
import ReviewRota.Proofs.Interleaving.Consistency
import ReviewRota.Proofs.Roster.Selection

/-!
# Reassignments from end to end

A reassignment looks for reasons to refuse in one order: the pull request is missing, it is merged,
the reviewer is not assigned, nobody can take over. With none of them the least of those who can
take over does so. They are sought in the team that the author is in now, whatever the team was when
the pull request was opened.
-/

namespace ReviewRota

namespace Tables

def teamOf (t : Tables) (id : String) : Option String := (t.user? id).bind UserRow.team

/-- Who can take the place of a reviewer: another active member of the author's present team who
does not review the pull request yet. -/
structure CanReplace (t : Tables) (p : PullRequestRow) (leaving id : String) : Prop where
  colleague : ∃ team, t.teamOf p.author = some team ∧
    ∃ u ∈ t.users, u.team = some team ∧ u.active = true ∧ u.id = id
  foreign : id ≠ p.author
  other : id ≠ leaving
  free : id ∉ p.reviewers

def colleagues (t : Tables) (id : String) : List UserRow :=
  match t.teamOf id with
  | some team => t.usersOf (some team)
  | none => []

variable {t : Tables} {p : PullRequestRow} {id leaving : String}

theorem mem_colleagues {u : UserRow} :
    u ∈ t.colleagues id ↔ u ∈ t.users ∧ ∃ team, t.teamOf id = some team ∧ u.team = some team := by
  unfold colleagues
  cases t.teamOf id with
  | none => simp
  | some team => simp [mem_usersOf]

theorem mem_choosable_colleagues :
    id ∈ Roster.Choosable ((t.colleagues p.author).map UserRow.member) (some p.author)
      (Desk.staying p leaving) (some leaving) ↔ t.CanReplace p leaving id := by
  rw [Roster.mem_choosable]
  constructor
  · rintro ⟨_, listed, ⟨active, foreign, other, free⟩, rfl⟩
    obtain ⟨u, member, rfl⟩ := List.mem_map.mp listed
    obtain ⟨stored, team, present, of⟩ := mem_colleagues.mp member
    replace other : u.id ≠ leaving := fun same => other (congrArg some same)
    constructor
    · exact ⟨team, present, u, stored, of, active, rfl⟩
    · exact fun same => foreign (congrArg some same)
    · exact other
    · exact fun assigned => free (Edit.mem_staying.mpr ⟨assigned, other⟩)
  · rintro ⟨⟨team, present, u, stored, of, active, rfl⟩, foreign, other, free⟩
    refine ⟨u.member, List.mem_map_of_mem (mem_colleagues.mpr ⟨stored, team, present, of⟩),
      ⟨active, ?_, ?_, fun stays => free (Edit.mem_staying.mp stays).1⟩, rfl⟩
    · exact fun same => foreign (Option.some.inj same)
    · exact fun same => other (Option.some.inj same)

theorem CanReplace.hasUser (can : t.CanReplace p leaving id) : t.HasUser id := by
  obtain ⟨team, -, u, stored, -, -, same⟩ := can.colleague
  exact ⟨u, stored, same⟩

/-- A stored user may take the place of a reviewer without leaving a reference to nobody. -/
theorem Linked.replace (linked : t.Linked) (stored : p ∈ t.pullRequests) (known : t.HasUser id)
    (leaving key : String) : (t.modifyPullRequest key
      (·.overwrittenBy ((Edit.replace leaving id).written p))).Linked := by
  refine linked.overwrite fun r assigned => ?_
  rcases List.mem_append.mp assigned with stays | new
  · exact (linked.people stored).2 r (Edit.mem_staying.mp stays).1
  · exact List.mem_singleton.mp new ▸ known

end Tables

theorem Users.listed_teamOf (t : Tables) (id : String) :
    listed t (.ofOption (t.teamOf id)) = .ok (t.colleagues id) := by
  unfold Tables.colleagues
  cases t.teamOf id with
  | none => rfl
  | some team => exact listed_of_column rfl

namespace Desk

variable {t u : Tables} {id old : Value} {key : String} {p : PullRequestRow}
  {r : Except Failure (PullRequest × String)}

/-- How a reassignment ends that has found the pull request `p`, and with which tables. -/
inductive Replacement (t : Tables) (p : PullRequestRow) (old : Value) :
    Except Failure (PullRequest × String) → Tables → Prop
  | merged (final : p.IsMerged) : Replacement t p old (.error (.refuse .pullRequestMerged)) t
  | unassigned (unmerged : ¬p.IsMerged) (unknown : ∀ r ∈ p.reviewers, old.string? ≠ some r) :
      Replacement t p old (.error (.refuse .notAssigned)) t
  | exhausted {leaving : String} (unmerged : ¬p.IsMerged) (assigned : leaving ∈ p.reviewers)
      (named : old.string? = some leaving) (nobody : ∀ c, ¬t.CanReplace p leaving c) :
      Replacement t p old (.error (.refuse .noCandidate)) t
  | replaced {leaving successor : String} (unmerged : ¬p.IsMerged)
      (assigned : leaving ∈ p.reviewers) (named : old.string? = some leaving)
      (least : IsLeast {c | t.CanReplace p leaving c} successor) :
      Replacement t p old (.ok (((Edit.replace leaving successor).apply p).entity, successor))
        (t.modifyPullRequest p.id fun _ => (Edit.replace leaving successor).apply p)

inductive Reassigned (t : Tables) (id : Value) (key : String) (old : Value) :
    Except Failure (PullRequest × String) → Tables → Prop
  | missing (absent : t.pullRequest? key = none) :
      Reassigned t id key old (.error (.refused (PullRequests.missing id))) t
  | found {p : PullRequestRow} {r : Except Failure (PullRequest × String)} {u : Tables}
      (stored : t.pullRequest? key = some p) (ends : Replacement t p old r u) :
      Reassigned t id key old r u

theorem replacement_ensures {w : World} {d : Option (Deadline Binary64)}
    {timeout : Option Number} {leaving successor : String} (resting : w.Resting)
    (keyed : w.tables.Keyed) (stored : w.tables.pullRequest? p.id = some p) (unmerged : ¬p.IsMerged)
    (assigned : leaving ∈ p.reviewers) (named : old.string? = some leaving)
    (least : IsLeast {c | w.tables.CanReplace p leaving c} successor) :
    (Plan.call (.pullRequestUpdate (withReviewers p (staying p leaving ++ [successor]))) fun r =>
      (Plan.done r).bind fun q => .done (.ok (q, successor))).Ensures d
      { w with depth := w.depth + 1 }
      (Act.Ensures.Commits w.tables
        (Operation.InTime timeout w.tables (Reassigned w.tables id p.id old))) := by
  let edit : Edit := .replace leaving successor
  have can : w.tables.CanReplace p leaving successor := least.1
  have listed := (Tables.pullRequest?_mem stored).1
  have distinct : (edit.written p).reviewers.Nodup := by
    refine List.nodup_append.mpr ⟨(keyed.reviewers p listed).filter _, List.nodup_singleton _, ?_⟩
    intro r stays s new same
    obtain rfl := List.mem_singleton.mp new
    exact can.free (same ▸ (Edit.mem_staying.mp stays).1)
  have linked := resting.linked.replace listed can.hasUser leaving p.id
  have applied : w.tables.modifyPullRequest p.id (·.overwrittenBy (edit.written p)) =
      w.tables.modifyPullRequest p.id fun _ => edit.apply p :=
    Tables.modifyPullRequest_congr keyed stored (Edit.overwrittenBy_written edit p)
  refine .call_ends (c := .pullRequestUpdate (edit.written p).entity)
    (r := .ok (edit.apply p).entity)
    (t := w.tables.modifyPullRequest p.id fun _ => edit.apply p) (fun j c => ?_) (.done ⟨?_, ?_⟩)
  · rw [← applied, ← Edit.entity_apply]
    exact PullRequests.update_ends_written (q := edit.written p) (by exact resting.unspoiled)
      (by simpa using stored) (by simp) distinct fun _ => linked
  · exact applied ▸ linked
  · exact .inl (.found stored (.replaced unmerged assigned named least))

/-- A reassignment comes to one of its ends, unless its deadline stops it. -/
theorem reassign_ensures {w : World} (resting : w.Resting) (keyed : w.tables.Keyed)
    (id old : Value) (column : id.column = .ok (some key)) (timeout : Option Number) :
    ((reassign id old).act timeout).Ensures w
      (Operation.InTime timeout w.tables (Reassigned w.tables id key old)) := by
  refine Operation.ensures_transaction_inTime rfl resting.unspoiled fun d stops => ?_
  let v : World := { w with depth := w.depth + 1 }
  have unspoiled : v.spoiled = false := resting.unspoiled
  show (reassignPlan id old).Ensures d v _
  refine .check stops (.pullRequestGet unspoiled ?_)
  cases stored : w.tables.pullRequest? key with
  | none =>
    rw [PullRequests.found_of_absent column stored]
    exact .done (.inl (.missing stored))
  | some p =>
    obtain ⟨member, rfl⟩ := Tables.pullRequest?_mem stored
    rw [PullRequests.found_of_stored column stored]
    show Plan.Ensures (if p.IsMerged then _ else _) d v _
    split
    · exact .done (.inl (.found stored (.merged ‹_›)))
    rename_i unmerged
    split
    · rename_i unnamed
      refine .done (.inl (.found stored (.unassigned unmerged fun r _ same => ?_)))
      rw [unnamed] at same
      cases same
    rename_i leaving named
    split
    · rename_i unknown
      refine .done (.inl (.found stored (.unassigned unmerged fun r assigned same => ?_)))
      exact unknown (Option.some.inj (named.symm.trans same) ▸ assigned)
    rename_i assigned
    replace assigned := not_not.mp assigned
    -- The author of a stored pull request is stored, so that the second read cannot miss.
    obtain ⟨a, author⟩ := (resting.linked.people member).1.exists_user?
    refine .check stops (.userGet unspoiled ?_)
    rw [Users.found_of_stored rfl author]
    refine .check stops (.usersOfTeam unspoiled ?_)
    have of : w.tables.teamOf p.author = a.team := by rw [Tables.teamOf, author]; rfl
    rw [← of, Users.listed_teamOf]
    dsimp only [Plan.bind]
    split
    · rename_i nobody
      refine .done (.inl (.found stored (.exhausted unmerged assigned named fun c can => ?_)))
      exact Roster.next_eq_none_iff.mp nobody c (Tables.mem_choosable_colleagues.mpr can)
    · rename_i successor chosen
      have same : {c | w.tables.CanReplace p leaving c} = _ :=
        Set.ext fun c => Tables.mem_choosable_colleagues.symm
      exact .check stops (replacement_ensures resting keyed stored unmerged assigned named
        (same ▸ Roster.next_eq_some_iff.mp chosen))

/-! ### Which end it comes to -/

namespace Replacement

variable (ends : Replacement t p old r u)
include ends

theorem not_missing (id : Value) : r ≠ .error (.refused (PullRequests.missing id)) := by
  cases ends <;> simp [Failure.refuse, Refusal.plain, PullRequests.missing]

theorem unchanged {e : Failure} (failed : r = .error e) : u = t := by
  cases ends with
  | replaced => cases failed
  | _ => rfl

theorem merged_iff : r = .error (.refuse .pullRequestMerged) ↔ p.IsMerged := by
  cases ends with
  | merged final => simp [final]
  | unassigned unmerged => simp [unmerged, Failure.refuse, Refusal.plain]
  | exhausted unmerged => simp [unmerged, Failure.refuse, Refusal.plain]
  | replaced unmerged => simp [unmerged]

theorem unassigned_iff (unmerged : ¬p.IsMerged) :
    r = .error (.refuse .notAssigned) ↔ ∀ r ∈ p.reviewers, old.string? ≠ some r := by
  have known {leaving : String} (assigned : leaving ∈ p.reviewers)
      (named : old.string? = some leaving) : ¬∀ r ∈ p.reviewers, old.string? ≠ some r :=
    fun unknown => unknown leaving assigned named
  cases ends with
  | merged final => exact absurd final unmerged
  | unassigned _ unknown => exact ⟨fun _ => unknown, fun _ => rfl⟩
  | exhausted _ assigned named =>
    simp [known assigned named, Failure.refuse, Refusal.plain]
  | replaced _ assigned named => simp [known assigned named]

theorem exhausted_or_replaced {leaving : String} (unmerged : ¬p.IsMerged)
    (assigned : leaving ∈ p.reviewers) (named : old.string? = some leaving) :
    (r = .error (.refuse .noCandidate) ∧ ∀ c, ¬t.CanReplace p leaving c) ∨
      ∃ successor, IsLeast {c | t.CanReplace p leaving c} successor ∧
        r = .ok (((Edit.replace leaving successor).apply p).entity, successor) ∧
        u = t.modifyPullRequest p.id fun _ => (Edit.replace leaving successor).apply p := by
  cases ends with
  | merged final => exact absurd final unmerged
  | unassigned _ unknown => exact absurd named (unknown leaving assigned)
  | exhausted _ _ named' nobody =>
    obtain rfl := Option.some.inj (named.symm.trans named')
    exact .inl ⟨rfl, nobody⟩
  | @replaced _ successor _ _ named' least =>
    obtain rfl := Option.some.inj (named.symm.trans named')
    exact .inr ⟨successor, least, rfl, rfl⟩

end Replacement

theorem Reassigned.missing_iff (ends : Reassigned t id key old r u) :
    r = .error (.refused (PullRequests.missing id)) ↔ t.pullRequest? key = none := by
  cases ends with
  | missing absent => simp [absent]
  | found stored ends => simp [stored, ends.not_missing]

theorem Reassigned.unchanged (ends : Reassigned t id key old r u) {e : Failure}
    (failed : r = .error e) : u = t := by
  cases ends with
  | missing absent => rfl
  | found stored ends => exact ends.unchanged failed

theorem Reassigned.replacement (ends : Reassigned t id key old r u)
    (stored : t.pullRequest? key = some p) : Replacement t p old r u := by
  cases ends with
  | missing absent =>
    rw [stored] at absent
    cases absent
  | found stored' ends =>
    obtain rfl := Option.some.inj (stored.symm.trans stored')
    exact ends

/-- What a successful reassignment answers and leaves behind. The rows of the former reviewers are
gone, and those of the present ones are numbered along their list. -/
structure Succeeds (w : World) (p : PullRequestRow) (leaving successor : String)
    (outcome : Except Failure (PullRequest × String) × World) (q : PullRequestRow) : Prop where
  least : IsLeast {c | w.tables.CanReplace p leaving c} successor
  row : q = { p with reviewers := p.reviewers.filter (· ≠ leaving) ++ [successor],
                     version := p.version + 1 }
  length : q.reviewers.length = p.reviewers.length
  answer : outcome.1 = .ok (q.entity, successor)
  reread : (PullRequests.get (.text (.plain p.id)) .none outcome.2).1 = .ok q
  users : outcome.2.tables.users = w.tables.users
  teams : outcome.2.tables.teams = w.tables.teams
  heads : outcome.2.tables.heads =
    w.tables.heads.map fun h => if h.id = p.id then q.head else h
  assigned : outcome.2.tables.assigned =
    w.tables.assigned.filter (fun a => a.pullRequest ≠ p.id) ++ Tables.numbered p.id 0 q.reviewers
  pullRequests : outcome.2.tables.pullRequests =
    w.tables.pullRequests.map fun r => if r.id = p.id then q else r

theorem succeeds_of_replaced {w v : World} {leaving successor : String}
    (keyed : w.tables.Keyed) (unspoiled : v.spoiled = false)
    (stored : w.tables.pullRequest? p.id = some p) (assigned : leaving ∈ p.reviewers)
    (least : IsLeast {c | w.tables.CanReplace p leaving c} successor)
    (answers : r = .ok (((Edit.replace leaving successor).apply p).entity, successor))
    (tables : v.tables = w.tables.modifyPullRequest p.id fun _ =>
      (Edit.replace leaving successor).apply p) :
    Succeeds w p leaving successor (r, v) ((Edit.replace leaving successor).apply p) where
  least := least
  row := rfl
  length := by
    have shorter := Edit.length_staying (keyed.reviewers p (Tables.pullRequest?_mem stored).1)
      assigned
    simpa [Edit.apply, Edit.written] using shorter
  answer := answers
  reread := by
    obtain ⟨j, run⟩ := PullRequests.get_ends unspoiled (.text (.plain p.id))
    rw [run, tables]
    refine PullRequests.found_of_stored rfl ?_
    rw [Edit.id_apply]
    exact Edit.stored_apply stored _
  users := by rw [tables, Tables.users_modifyPullRequest]
  teams := by rw [tables, Tables.teams_modifyPullRequest]
  heads := by rw [tables]; exact Tables.heads_modifyPullRequest stored
  assigned := by rw [tables]; exact Tables.assigned_modifyPullRequest stored
  pullRequests := by
    rw [tables]
    exact Tables.pullRequests_modifyPullRequest (fun _ _ => Edit.id_apply _ p) keyed

/-- Whatever has gone before, a reassignment without a deadline is refused for the first reason
there is, and otherwise succeeds. -/
theorem reassign_iff (db : Interleaving.Database) (now : Timestamp)
    (moves : List Interleaving.Move) (id : String) (old : Text) :
    let w := ((Interleaving.State.start db now).run moves).world
    let outcome := (reassign (.text (.plain id)) (.text old)).act none .none w
    (outcome.1 = .error (.refused (PullRequests.missing id)) ↔ w.tables.pullRequest? id = none) ∧
      (∀ e, outcome.1 = .error e → outcome.2.tables = w.tables) ∧
      ∀ p, w.tables.pullRequest? id = some p →
        (outcome.1 = .error (.refuse .pullRequestMerged) ↔ p.IsMerged) ∧
        (¬p.IsMerged →
          (outcome.1 = .error (.refuse .notAssigned) ↔ ∀ r ∈ p.reviewers, old ≠ .plain r) ∧
          ∀ leaving ∈ p.reviewers, old = .plain leaving →
            (outcome.1 = .error (.refuse .noCandidate) ↔ ∀ c, ¬w.tables.CanReplace p leaving c) ∧
            ((∃ c, w.tables.CanReplace p leaving c) →
              ∃ successor q, Succeeds w p leaving successor outcome q)) := by
  intro w outcome
  have consistent := (Interleaving.State.consistent_start db now).run moves
  obtain ⟨r, t, j, c, run, ends⟩ := reassign_ensures consistent.resting consistent.keyed
    (.text (.plain id)) (.text old) rfl none w.journal w.clock
  replace ends := ends.of_none
  replace run : outcome = (r, { w with tables := t, journal := j, clock := c }) := run
  rw [run]
  refine ⟨ends.missing_iff, fun e failed => ends.unchanged failed, fun p stored => ?_⟩
  obtain ⟨-, rfl⟩ := Tables.pullRequest?_mem stored
  replace ends := ends.replacement stored
  refine ⟨ends.merged_iff, fun unmerged => ⟨?_, fun leaving assigned named => ?_⟩⟩
  · simpa [Value.string?] using ends.unassigned_iff unmerged
  obtain ⟨refused, nobody⟩ | ⟨successor, least, answers, rfl⟩ :=
    ends.exhausted_or_replaced unmerged assigned (Text.plain?_eq_some.mpr named)
  · refine ⟨⟨fun _ => nobody, fun _ => refused⟩, ?_⟩
    rintro ⟨c, can⟩
    exact absurd can (nobody c)
  · refine ⟨⟨fun refused => ?_, fun nobody => absurd least.1 (nobody successor)⟩, fun _ => ?_⟩
    · rw [answers] at refused
      cases refused
    · exact ⟨successor, _, succeeds_of_replaced consistent.keyed consistent.resting.unspoiled
        stored assigned least answers rfl⟩

/-- Where nothing is stored, a text that cannot be written is not answered as missing. -/
theorem reassign_unwritable :
    let w := ((Interleaving.State.start .empty default).run []).world
    let id : Value := .text (.broken [0xd800])
    let outcome := (reassign id (.text (.plain "u2"))).act none .none w
    w.tables.pullRequests = [] ∧ outcome.1 = .error (Text.unwritable [0xd800]) ∧
      outcome.1 ≠ .error (.refused (PullRequests.missing id)) := by
  intro w id outcome
  have fails : outcome.1 = .error (Text.unwritable [0xd800]) := rfl
  refine ⟨rfl, fails, fun same => ?_⟩
  rw [fails] at same
  cases same

end Desk

end ReviewRota
