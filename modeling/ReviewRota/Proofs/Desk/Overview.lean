import Mathlib.Data.List.Permutation
import Mathlib.Tactic
import ReviewRota.Proofs.Desk.Ensuring
import ReviewRota.Proofs.Interleaving.Consistency
import ReviewRota.Proofs.Statistics
import ReviewRota.Proofs.Store.Teams

/-!
# The overview and the reviews of one user

The overview reads everything once and describes what it has read. A user who asks for the pull
requests to review gets those out of all pull requests that have the user among their reviewers, in
the same order, and as many of them as the overview counts.
-/

namespace ReviewRota

/-! ### The order of creation -/

def PullRequestRow.Precedes (p q : PullRequestRow) : Prop :=
  p.createdAt.lt q.createdAt = true ∨ p.createdAt = q.createdAt ∧ p.id < q.id

namespace Tables

/-- What pull requests are ordered by. -/
def age (h : PullRequestHead) : List ℕ ×ₗ String := toLex (h.createdAt.fields, h.id)

theorem fields_eq_iff {s t : Timestamp} : s.fields = t.fields ↔ s = t :=
  ⟨Timestamp.fields_injective, congrArg _⟩

theorem createdBefore_iff (g h : PullRequestHead) : createdBefore g h = true ↔ age g ≤ age h := by
  simp [createdBefore, Timestamp.lt, age, Prod.Lex.toLex_le_toLex, fields_eq_iff]

theorem precedes_iff (p q : PullRequestRow) : p.Precedes q ↔ age p.head < age q.head := by
  simp [PullRequestRow.Precedes, Timestamp.lt, age, Prod.Lex.toLex_lt_toLex, fields_eq_iff]

variable {t : Tables}

theorem nodup_age (keyed : t.Keyed) : (t.heads.map age).Nodup := by
  have ids : (t.heads.map age).map (fun a => (ofLex a).2) = t.heads.map PullRequestHead.id :=
    List.map_map
  exact .of_map _ (ids ▸ keyed.heads)

theorem perm_pullRequestsInOrder (t : Tables) : t.pullRequestsInOrder.Perm t.pullRequests :=
  (List.mergeSort_perm _ _).map _

theorem pairwise_pullRequestsInOrder (keyed : t.Keyed) :
    t.pullRequestsInOrder.Pairwise PullRequestRow.Precedes :=
  List.pairwise_map.mpr ((pairwise_lt_mergeSort age createdBefore_iff (nodup_age keyed)).imp
    fun {g h} => (precedes_iff (t.whole g) (t.whole h)).mpr)

/-- What the join with the assignments of a user gives is what the lists of reviewers tell, in the
order of all pull requests: it brings each of them once, because nobody is assigned twice. -/
theorem map_whole_reviewedBy (keyed : t.Keyed) (id : String) :
    (t.reviewedBy id).map t.whole = t.pullRequestsInOrder.filter fun p => id ∈ p.reviewers := by
  rw [pullRequestsInOrder, List.filter_map, reviewedBy, keyed.joined_eq, creationOrder,
    mergeSort_filter age createdBefore_iff]
  rfl

/-- What the rows of assignments tell of the pull requests that a user reviews: they come out of the
join, one for each row of the user, and each of them has everybody for a reviewer who is assigned to
it. -/
structure Joins (t : Tables) (id : String) (own : List PullRequestRow) : Prop where
  heads : own.map (fun p => p.head) = t.reviewedBy id
  rows : (own.map fun p => p.id).Perm
    ((t.assigned.filter fun a => a.reviewer = id).map Assignment.pullRequest)
  complete : ∀ p ∈ own, ∀ r, r ∈ p.reviewers ↔ t.HasAssignment p.id r

/-- Since every row leads to a pull request and no pair stands in two rows, the rows of a user are
of as many pull requests. -/
theorem perm_reviewed (keyed : t.Keyed) (linked : t.Linked) (id : String) :
    ((t.heads.filter fun h => id ∈ t.reviewersOf h.id).map PullRequestHead.id).Perm
      ((t.assigned.filter fun a => a.reviewer = id).map Assignment.pullRequest) := by
  refine (List.perm_ext_iff_of_nodup (keyed.heads.sublist (List.filter_sublist.map _))
    (keyed.pullRequests_of_reviewer id)).mpr fun k => ?_
  simp only [List.mem_map, List.mem_filter, mem_reviewersOf, decide_eq_true_eq]
  constructor
  · rintro ⟨h, ⟨-, a, row, led, reviews⟩, rfl⟩
    exact ⟨a, ⟨row, reviews⟩, led⟩
  · rintro ⟨a, ⟨row, reviews⟩, rfl⟩
    obtain ⟨h, stored, same⟩ := (linked.2.2 a row).1
    exact ⟨h, ⟨stored, a, row, same.symm, reviews⟩, same⟩

theorem joins (keyed : t.Keyed) (linked : t.Linked) (id : String) :
    t.Joins id (t.pullRequestsInOrder.filter fun p => id ∈ p.reviewers) where
  heads := by
    rw [← map_whole_reviewedBy keyed, List.map_map]
    exact List.map_id _
  rows := by
    rw [← map_whole_reviewedBy keyed, List.map_map]
    refine ((List.mergeSort_perm _ _).map _).trans ?_
    rw [keyed.joined_eq]
    exact perm_reviewed keyed linked id
  complete p member r := by
    have stored := (perm_pullRequestsInOrder t).mem_iff.mp (List.mem_of_mem_filter member)
    rw [(mem_pullRequests.mp stored).2, mem_reviewersOf]

theorem perm_usersInOrder (t : Tables) : t.usersInOrder.Perm t.users := List.mergeSort_perm _ _

theorem length_rosters (t : Tables) : t.rosters.length = t.teams.length := by
  rw [rosters, List.length_map, teamsInOrder, List.length_mergeSort]

end Tables

/-! ### How the requests end -/

namespace Plan.Ensures

variable {α : Type} {w : World} {d : Option (Deadline Binary64)}
  {Q : Except Failure α → Tables → Prop} (unspoiled : w.spoiled = false)
include unspoiled

theorem pullRequestList {next : Except Failure (List PullRequestRow) → Plan α}
    (rest : (next (.ok w.tables.pullRequestsInOrder)).Ensures d w Q) :
    (Plan.call .pullRequestList next).Ensures d w Q :=
  call_reads unspoiled (fun _ unspoiled same => same ▸ PullRequests.list_ends unspoiled) rest

theorem userList {next : Except Failure (List UserRow) → Plan α}
    (rest : (next (.ok w.tables.usersInOrder)).Ensures d w Q) :
    (Plan.call .userList next).Ensures d w Q :=
  call_reads unspoiled (fun _ unspoiled same => same ▸ Users.list_ends unspoiled) rest

theorem teamList {next : Except Failure (List TeamRoster) → Plan α}
    (rest : (next (.ok w.tables.rosters)).Ensures d w Q) :
    (Plan.call .teamList next).Ensures d w Q :=
  call_reads unspoiled (fun _ unspoiled same => same ▸ Teams.list_ends unspoiled) rest

theorem pullRequestsOfReviewer {id : Value} {key : String} (column : id.column = .ok (some key))
    {next : Except Failure (List PullRequestRow) → Plan α}
    (rest : (next (.ok ((w.tables.reviewedBy key).map w.tables.whole))).Ensures d w Q) :
    (Plan.call (.pullRequestsOfReviewer id) next).Ensures d w Q :=
  call_reads unspoiled
    (fun _ unspoiled same => same ▸ PullRequests.ofReviewer_ends unspoiled column) rest

end Plan.Ensures

namespace Desk

theorem overview_ensures {w : World} (resting : w.Resting) (timeout : Option Number) :
    (overview.act timeout).Ensures w (Operation.InTime timeout w.tables fun r u =>
      r = Statistics.of w.tables.pullRequestsInOrder w.tables.usersInOrder w.tables.rosters ∧
        u = w.tables) := by
  refine Operation.ensures_transaction_inTime rfl resting.unspoiled fun d stops => ?_
  let v : World := { w with depth := w.depth + 1 }
  have unspoiled : v.spoiled = false := resting.unspoiled
  show overviewPlan.Ensures d v _
  refine .snapshot (.check stops (.pullRequestList unspoiled ?_))
  refine .check stops (.userList unspoiled (.check stops (.teamList unspoiled (.done ?_))))
  show Act.Ensures.Commits w.tables _ (Statistics.of w.tables.pullRequestsInOrder
    w.tables.usersInOrder w.tables.rosters) w.tables
  generalize Statistics.of w.tables.pullRequestsInOrder _ _ = r
  cases r with
  | error e => exact .inl ⟨rfl, rfl⟩
  | ok s => exact ⟨resting.linked, .inl ⟨rfl, rfl⟩⟩

theorem reviewAssignments_ensures {w : World} (resting : w.Resting) (keyed : w.tables.Keyed)
    {id : Value} {key : String} (column : id.column = .ok (some key)) (known : w.tables.HasUser key)
    (timeout : Option Number) :
    ((reviewAssignments id).act timeout).Ensures w (Operation.InTime timeout w.tables fun r u =>
      r = .ok (w.tables.pullRequestsInOrder.filter fun p => key ∈ p.reviewers) ∧
        u = w.tables) := by
  refine Operation.ensures_steps_inTime rfl fun d stops => ?_
  have unspoiled := resting.unspoiled
  obtain ⟨u, stored⟩ := known.exists_user?
  refine .check stops (.userGet unspoiled ?_)
  rw [Users.found_of_stored column stored]
  refine .check stops (.pullRequestsOfReviewer unspoiled column (.done ?_))
  exact .inl ⟨congrArg Except.ok (Tables.map_whole_reviewedBy keyed key), rfl⟩

/-! ### What they answer -/

variable {w : World} {s : Statistics}

theorem twoStatuses_run (now : Timestamp) (moves : List Interleaving.Move) :
    ((Interleaving.State.start .empty now).run moves).world.tables.TwoStatuses := by
  refine (Interleaving.State.chronicle_run .empty now moves).forall_pullRequest nofun
    (fun e _ p creates => .inl creates.opened.1) fun edit p _ status => ?_
  cases edit with
  | merge => exact .inr rfl
  | replace => exact status

theorem describes_overview (resting : w.Resting) (keyed : w.tables.Keyed)
    (statuses : w.tables.TwoStatuses) (answers : Statistics.of w.tables.pullRequestsInOrder
      w.tables.usersInOrder w.tables.rosters = .ok s) : s.Describes w.tables :=
  Statistics.describes_of keyed resting.linked statuses (Tables.perm_pullRequestsInOrder _)
    (Tables.perm_usersInOrder _) (Tables.length_rosters _) answers

/-- In every state that requests lead to from the empty database, the overview changes nothing and
describes what is stored, unless its deadline stops it, or there are too many users for an average
that is a number. -/
theorem overview_describes (now : Timestamp) (moves : List Interleaving.Move)
    (timeout : Option Number) :
    let w := ((Interleaving.State.start .empty now).run moves).world
    let outcome := overview.act timeout .none w
    outcome.2.tables = w.tables ∧
      ((∃ s, outcome.1 = .ok s ∧ s.Describes w.tables) ∨
        (∃ limit e, timeout = some limit ∧ outcome.1 = .error e ∧
          Deadline.Overruns timeout e) ∨
        2 ^ 1023 ≤ w.tables.users.length ∧ outcome.1 =
          .error (.fault ⟨.overflow, "integer division result too large for a float"⟩)) := by
  intro w outcome
  have consistent := (Interleaving.State.consistent_start .empty now).run moves
  have keyed : w.tables.Keyed := consistent.keyed
  have resting : w.Resting := consistent.resting
  have statuses : w.tables.TwoStatuses := twoStatuses_run now moves
  obtain ⟨r, t, j, c, run, ends⟩ := overview_ensures resting timeout w.journal w.clock
  replace run : outcome = (r, { w with tables := t, journal := j, clock := c }) := run
  rw [run]
  obtain ⟨rfl, rfl⟩ | ⟨e, rfl, overruns, rfl⟩ := ends
  · refine ⟨rfl, ?_⟩
    obtain ⟨s, answers⟩ | ⟨many, fails⟩ := Statistics.of_answers keyed resting.linked
      (Tables.perm_pullRequestsInOrder w.tables) w.tables.usersInOrder w.tables.rosters
    · exact .inl ⟨s, answers, describes_overview resting keyed statuses answers⟩
    · exact .inr (.inr ⟨many, fails⟩)
  · refine ⟨rfl, .inr (.inl ?_)⟩
    cases timeout with
    | none => exact absurd overruns Deadline.not_overruns_none
    | some limit => exact ⟨limit, e, rfl, rfl, overruns⟩

/-- There is a place for a reviewer while the first one of three pull requests is created, and none
later on. -/
def thirdsMoves : List Interleaving.Move :=
  let member (id : String) : MemberEntry := ⟨some id, some id, some (.bool true)⟩
  let creation (client : Nat) (id : String) : List Interleaving.Move :=
    .arrive (.createPullRequest id "Search" "u1") none :: List.replicate 10 (.advance client)
  [.arrive (.createTeam "core" [member "u1", member "u2"]) none, .advance 0, .advance 0] ++
    creation 1 "pr-1" ++ [.prefer { maxReviewers := 0 }] ++ creation 2 "pr-2" ++ creation 3 "pr-3"

theorem reviewers_thirds :
    let w := ((Interleaving.State.start .empty default).run thirdsMoves).world
    w.tables.pullRequests.map PullRequestRow.reviewers = [["u2"], [], []] := by
  cbv

/-- One third is no number of the format. -/
theorem overview_inexact :
    let w := ((Interleaving.State.start .empty default).run thirdsMoves).world
    ∃ s, (overview.act none .none w).1 = .ok s ∧
      s.averageReviewers.value ≠ w.tables.assignments / w.tables.pullRequests.length := by
  have reviewers := reviewers_thirds
  have resting := ((Interleaving.State.consistent_start .empty default).run thirdsMoves).resting
  generalize ((Interleaving.State.start .empty default).run thirdsMoves).world = w at *
  have one : w.tables.assignments = 1 := by
    have lengths := congrArg (fun lists => (lists.map List.length).sum) reviewers
    rwa [List.map_map] at lengths
  have three : w.tables.pullRequests.length = 3 := by simpa using congrArg List.length reviewers
  have rows := Tables.perm_pullRequestsInOrder w.tables
  have assigned : Statistics.totalAssignments w.tables.pullRequestsInOrder = 1 := by
    rw [Statistics.totalAssignments_eq, (rows.map _).sum_eq]
    exact one
  have mean := Statistics.average_eq assigned (rows.length_eq.trans three) (by decide)
    (by decide +kernel)
  have third : Binary64.ofRatio false 1 3 = .finite false 6004799503160661 (-54) := by
    decide +kernel
  obtain ⟨r, t, j, c, run, ends⟩ := overview_ensures resting none w.journal w.clock
  obtain ⟨rfl, -⟩ := ends.of_none
  rw [Statistics.of, mean] at run
  refine ⟨_, congrArg Prod.fst run, ?_⟩
  rw [one, three]
  show (Binary64.ofRatio false 1 3).value ≠ _
  rw [third]
  norm_num [Binary64.value, Binary64.signed]

end Desk

/-- The statistics have an entry for the user if there is anything in the list, and the entry counts
what is in it. -/
structure Statistics.Agrees (s : Statistics) (id : String) (own : List PullRequestRow) : Prop where
  entry : id ∈ s.loads.map ReviewLoad.user ↔ own ≠ []
  counts : ∀ l ∈ s.loads, l.user = id → l.total = own.length ∧
    l.unmerged = own.countP (fun p => p.status = Status.opened) ∧
    l.merged = own.countP fun p => p.status = Status.merged

theorem Statistics.Describes.agrees {s : Statistics} {t : Tables} (describes : s.Describes t)
    {all : List PullRequestRow} (rows : all.Perm t.pullRequests) (id : String) :
    s.Agrees id (all.filter fun p => id ∈ p.reviewers) where
  entry := by
    rw [describes.reviewers, Ne, List.filter_eq_nil_iff]
    simp [rows.mem_iff]
  counts l member same := by
    subst same
    obtain ⟨-, total, opened, merged, -⟩ := describes.loads l member
    rw [total, opened, merged, ← List.countP_eq_length_filter, List.countP_filter,
      List.countP_filter, rows.countP_eq, rows.countP_eq, rows.countP_eq]
    simp [and_comm]

namespace Desk

/-- In every state that requests lead to from the empty database, a stored user gets those out of
all pull requests that have the user among their reviewers, in the order of all and one for each row
by which the user is assigned, and the statistics agree with this list. -/
theorem reviewAssignments_agree (now : Timestamp) (moves : List Interleaving.Move) (id : String) :
    let w := ((Interleaving.State.start .empty now).run moves).world
    let overviewed := (overview.act none .none w).1
    w.tables.HasUser id → ∃ all, (PullRequests.list .none w).1 = .ok all ∧
      all.Perm w.tables.pullRequests ∧ all.Pairwise PullRequestRow.Precedes ∧
      let own := all.filter fun p => id ∈ p.reviewers
      ((reviewAssignments id).act none .none w).1 = .ok own ∧ own.Nodup ∧ w.tables.Joins id own ∧
        (∀ s, overviewed = .ok s → s.Agrees id own) ∧
        ((∃ s, overviewed = .ok s) ∨ 2 ^ 1023 ≤ w.tables.users.length) := by
  intro w overviewed known
  have consistent := (Interleaving.State.consistent_start .empty now).run moves
  have keyed : w.tables.Keyed := consistent.keyed
  have resting : w.Resting := consistent.resting
  have rows := Tables.perm_pullRequestsInOrder w.tables
  obtain ⟨_, listed⟩ := PullRequests.list_ends resting.unspoiled
  obtain ⟨r, t, j, c, run, ends⟩ := reviewAssignments_ensures resting keyed (Value.column_plain id)
    known none w.journal w.clock
  obtain ⟨rfl, -⟩ := ends.of_none
  obtain ⟨r, t, j, c, run', ends'⟩ := overview_ensures resting none w.journal w.clock
  obtain ⟨rfl, -⟩ := ends'.of_none
  have distinct : w.tables.pullRequestsInOrder.Nodup := rows.nodup_iff.mpr keyed.pullRequests.of_map
  refine ⟨_, congrArg Prod.fst listed, rows, Tables.pairwise_pullRequestsInOrder keyed,
    congrArg Prod.fst run, distinct.filter _, Tables.joins keyed resting.linked id,
    fun s answers => ?_, ?_⟩
  · have described := describes_overview resting keyed (twoStatuses_run now moves)
      ((congrArg Prod.fst run').symm.trans answers)
    exact described.agrees rows id
  · exact (Statistics.of_answers keyed resting.linked rows _ _).imp
      (fun ⟨s, answers⟩ => ⟨s, (congrArg Prod.fst run').trans answers⟩) And.left

/-- Two pull requests of a team of four. A reviewer of the first one is replaced, and the second one
is merged. -/
def sharedMoves : List Interleaving.Move :=
  let member (id : String) : MemberEntry := ⟨some id, some id, some (.bool true)⟩
  let request (client : Nat) (command : Desk.Command) : List Interleaving.Move :=
    .arrive command none :: List.replicate 10 (.advance client)
  request 0 (.createTeam "core" [member "u1", member "u2", member "u3", member "u4"]) ++
    request 1 (.createPullRequest "pr-1" "Search" "u1") ++
    request 2 (.createPullRequest "pr-2" "Index" "u2") ++ request 3 (.reassign "pr-1" "u2") ++
    request 4 (.merge "pr-2")

theorem users_shared :
    ((Interleaving.State.start .empty default).run sharedMoves).world.tables.users.map UserRow.id =
      ["u1", "u2", "u3", "u4"] := by
  cbv

theorem reviews_shared :
    let w := ((Interleaving.State.start .empty default).run sharedMoves).world
    (((reviewAssignments "u3").act none .none w).1.toOption.map fun own =>
      own.map fun p => (p.id, p.status, p.reviewers)) =
    some [("pr-1", Status.opened, ["u3", "u4"]), ("pr-2", Status.merged, ["u1", "u3"])] := by
  cbv

theorem reviewAssignments_agree_shared :
    let w := ((Interleaving.State.start .empty default).run sharedMoves).world
    ∃ own s, ((reviewAssignments "u3").act none .none w).1 = .ok own ∧
      own.map (fun p => (p.id, p.status, p.reviewers)) =
        [("pr-1", Status.opened, ["u3", "u4"]), ("pr-2", Status.merged, ["u1", "u3"])] ∧
      w.tables.Joins "u3" own ∧ (overview.act none .none w).1 = .ok s ∧ s.Agrees "u3" own := by
  have users := users_shared
  have told := reviews_shared
  have agree := reviewAssignments_agree default sharedMoves "u3"
  generalize ((Interleaving.State.start .empty default).run sharedMoves).world = w at *
  have known : w.tables.HasUser "u3" := by simp [Tables.hasUser_iff_mem_map, users]
  have four : w.tables.users.length = 4 := by rw [← List.length_map UserRow.id, users]; rfl
  have few (k : ℕ) (large : 4 ≤ k) : ¬2 ^ k ≤ w.tables.users.length :=
    Nat.not_le.mpr (four ▸ large.trans_lt Nat.lt_two_pow_self)
  obtain ⟨all, -, -, -, own, -, joins, agrees, overviewed⟩ := agree known
  obtain ⟨s, overviewed⟩ := overviewed.resolve_right (few 1023 (by decide))
  dsimp only at told
  rw [own] at told
  exact ⟨_, s, own, Option.some.inj told, joins, overviewed, agrees s overviewed⟩

end Desk

end ReviewRota
