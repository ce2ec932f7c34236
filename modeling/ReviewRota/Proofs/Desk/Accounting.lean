import ReviewRota.Proofs.Desk.Merging
import ReviewRota.Proofs.Desk.Opening
import ReviewRota.Proofs.Desk.Overview
import ReviewRota.Proofs.Desk.Reassigning
import ReviewRota.Proofs.Interleaving.Whole

/-!
# How requests move the overview

The overview is worked out anew each time, over all that is stored. A request writes one pull
request only, so that two overviews differ by what this one row counts for before and after.
-/

namespace ReviewRota

/-! ### One row in place of another -/

namespace Tables

variable {t : Tables} {p : PullRequestRow}

/-- A row that is changed keeps its place among the others, which stay as they are. -/
theorem split_modifyPullRequest (keyed : t.Keyed) (stored : t.pullRequest? p.id = some p)
    {q : PullRequestRow} (same : q.id = p.id) :
    ∃ before after, t.pullRequests = before ++ p :: after ∧
      (t.modifyPullRequest p.id fun _ => q).pullRequests = before ++ q :: after := by
  obtain ⟨before, after, split⟩ := List.append_of_mem (pullRequest?_mem stored).1
  refine ⟨before, after, split, ?_⟩
  have distinct := keyed.pullRequests
  rw [split, List.map_append, List.map_cons, List.nodup_middle, List.nodup_cons,
    ← List.map_append] at distinct
  have others (rows : List PullRequestRow) (among : rows ⊆ before ++ after) :
      rows.map (fun r => if r.id = p.id then q else r) = rows := by
    conv_rhs => rw [← List.map_id rows]
    refine List.map_congr_left fun r member => if_neg fun same => distinct.1 ?_
    exact same ▸ List.mem_map_of_mem (among member)
  rw [pullRequests_modifyPullRequest (fun _ _ => same) keyed, split, List.map_append, List.map_cons,
    if_pos rfl]
  rw [others before (List.subset_append_left _ _), others after (List.subset_append_right _ _)]

theorem countP_modifyPullRequest (keyed : t.Keyed) (stored : t.pullRequest? p.id = some p)
    {q : PullRequestRow} (same : q.id = p.id) (P : PullRequestRow → Prop) [DecidablePred P] :
    (t.modifyPullRequest p.id fun _ => q).pullRequests.countP (fun r => P r) +
        (if P p then 1 else 0) =
      t.pullRequests.countP (fun r => P r) + if P q then 1 else 0 := by
  obtain ⟨before, after, was, becomes⟩ := split_modifyPullRequest keyed stored same
  rw [was, becomes]
  simp only [List.countP_append, List.countP_cons, decide_eq_true_eq]
  omega

theorem assignments_modifyPullRequest (keyed : t.Keyed) (stored : t.pullRequest? p.id = some p)
    {q : PullRequestRow} (same : q.id = p.id) (length : q.reviewers.length = p.reviewers.length) :
    (t.modifyPullRequest p.id fun _ => q).assignments = t.assignments := by
  obtain ⟨before, after, was, becomes⟩ := split_modifyPullRequest keyed stored same
  simp [assignments, was, becomes, length]

theorem TwoStatuses.addPullRequest (statuses : t.TwoStatuses)
    (fresh : t.pullRequest? p.id = none) (opened : p.status = Status.opened) :
    (t.addPullRequest p).TwoStatuses := by
  intro q member
  rcases (mem_pullRequests_addPullRequest fresh).mp member with old | rfl
  · exact statuses q old
  · exact .inl opened

theorem TwoStatuses.edit (statuses : t.TwoStatuses) (keyed : t.Keyed)
    (stored : t.pullRequest? p.id = some p) (edit : Edit) :
    (t.modifyPullRequest p.id fun _ => edit.apply p).TwoStatuses := by
  intro q member
  obtain ⟨row, old, rfl⟩ :=
    (mem_modifyPullRequest (fun _ _ => Edit.id_apply edit p) keyed).mp member
  split
  · cases edit with
    | merge now => exact .inr rfl
    | replace leaving successor => exact statuses p (pullRequest?_mem stored).1
  · exact statuses row old

/-- The reviews of a user, as the overview has them for those who review. -/
def loadOf (t : Tables) (user : String) : ReviewLoad where
  user := user
  username := ((t.user? user).map UserRow.username).getD ""
  total := t.pullRequests.countP fun p => user ∈ p.reviewers
  unmerged := t.pullRequests.countP fun p => user ∈ p.reviewers ∧ p.status = Status.opened
  merged := t.pullRequests.countP fun p => user ∈ p.reviewers ∧ p.status = Status.merged

theorem total_loadOf_pos {user : String} :
    0 < (t.loadOf user).total ↔ ∃ p ∈ t.pullRequests, user ∈ p.reviewers := by
  simp [loadOf, List.countP_pos_iff]

theorem countP_of_idle {user : String} (idle : (t.loadOf user).total = 0)
    (P : PullRequestRow → Prop) [DecidablePred P] :
    t.pullRequests.countP (fun p => user ∈ p.reviewers ∧ P p) = 0 := by
  refine List.countP_eq_zero.mpr fun p member counts => ?_
  have assigned : user ∈ p.reviewers ∧ P p := by simpa using counts
  exact absurd idle (Nat.pos_iff_ne_zero.mp (total_loadOf_pos.mpr ⟨p, member, assigned.1⟩))

end Tables

namespace ReviewLoad

/-- What somebody's reviews become when one row becomes another. -/
structure Turns (l l' : ReviewLoad) (p q : PullRequestRow) : Prop where
  user : l'.user = l.user
  username : l'.username = l.username
  total : l'.total + (if l.user ∈ p.reviewers then 1 else 0) =
    l.total + if l.user ∈ q.reviewers then 1 else 0
  unmerged : l'.unmerged + (if l.user ∈ p.reviewers ∧ p.status = Status.opened then 1 else 0) =
    l.unmerged + if l.user ∈ q.reviewers ∧ q.status = Status.opened then 1 else 0
  merged : l'.merged + (if l.user ∈ p.reviewers ∧ p.status = Status.merged then 1 else 0) =
    l.merged + if l.user ∈ q.reviewers ∧ q.status = Status.merged then 1 else 0

theorem turns_loadOf {t : Tables} {p q : PullRequestRow} (keyed : t.Keyed)
    (stored : t.pullRequest? p.id = some p) (same : q.id = p.id) (user : String) :
    (t.loadOf user).Turns ((t.modifyPullRequest p.id fun _ => q).loadOf user) p q where
  user := rfl
  username := by simp only [Tables.loadOf, Tables.user?, Tables.users_modifyPullRequest]
  total := Tables.countP_modifyPullRequest keyed stored same fun r => user ∈ r.reviewers
  unmerged := Tables.countP_modifyPullRequest keyed stored same
    fun r => user ∈ r.reviewers ∧ r.status = Status.opened
  merged := Tables.countP_modifyPullRequest keyed stored same
    fun r => user ∈ r.reviewers ∧ r.status = Status.merged

theorem opened_ne_merged : Status.opened ≠ Status.merged := by decide

/-- One of the open reviews is one of the merged ones from now on. -/
def settled (l : ReviewLoad) : ReviewLoad :=
  { l with unmerged := l.unmerged - 1, merged := l.merged + 1 }

namespace Turns

variable {l l' : ReviewLoad} {p : PullRequestRow} (opened : p.status = Status.opened)
include opened

theorem of_merge {now : Timestamp} (turns : l.Turns l' p ((Edit.merge now).apply p)) :
    (l.user ∈ p.reviewers → 0 < l.unmerged) ∧
      l' = if l.user ∈ p.reviewers then l.settled else l := by
  obtain ⟨user, username, total, unmerged, merged⟩ := turns
  obtain ⟨user', username', total', unmerged', merged'⟩ := l'
  simp only [Edit.apply, Edit.written, opened, opened_ne_merged, opened_ne_merged.symm, and_true,
    and_false, if_false] at *
  subst user username
  by_cases assigned : l.user ∈ p.reviewers
  · simp only [assigned, if_true] at total unmerged merged
    refine ⟨fun _ => by omega, ?_⟩
    rw [if_pos assigned, settled, ReviewLoad.mk.injEq]
    exact ⟨rfl, rfl, by omega, by omega, by omega⟩
  · simp only [assigned, if_false] at total unmerged merged
    refine ⟨fun listed => absurd listed assigned, ?_⟩
    rw [if_neg assigned]
    obtain ⟨rfl, rfl, rfl⟩ : total' = l.total ∧ unmerged' = l.unmerged ∧ merged' = l.merged := by
      omega
    rfl

theorem of_replace {leaving successor : String}
    (turns : l.Turns l' p ((Edit.replace leaving successor).apply p))
    (assigned : leaving ∈ p.reviewers) (free : successor ∉ p.reviewers) :
    l'.total + (if l.user = leaving then 1 else 0) =
        l.total + (if l.user = successor then 1 else 0) ∧
      l'.unmerged + (if l.user = leaving then 1 else 0) =
        l.unmerged + (if l.user = successor then 1 else 0) ∧
      l'.merged = l.merged := by
  have member : l.user ∈ ((Edit.replace leaving successor).apply p).reviewers ↔
      l.user ∈ p.reviewers ∧ l.user ≠ leaving ∨ l.user = successor := by
    simp [Edit.apply, Edit.written, Edit.mem_staying]
  have status : ((Edit.replace leaving successor).apply p).status = Status.opened := opened
  obtain ⟨-, -, total, unmerged, merged⟩ := turns
  simp only [status, opened, opened_ne_merged, and_true, and_false, if_false, member]
    at total unmerged merged
  refine ⟨?_, ?_, merged⟩
  all_goals
    by_cases left : l.user = leaving
    · have stays : l.user ≠ successor := fun same => free (same ▸ left ▸ assigned)
      simp_all
    · by_cases joins : l.user = successor <;> simp_all

end Turns

end ReviewLoad

/-! ### What the overview has of a user -/

namespace Statistics

/-- The entry of a user. Whoever has none has no reviews. -/
def load (s : Statistics) (user : String) : ReviewLoad :=
  (s.loads.find? fun l => l.user = user).getD ⟨user, "", 0, 0, 0⟩

namespace Describes

variable {s : Statistics} {t : Tables} {user : String} (describes : s.Describes t)
include describes

theorem eq_loadOf {l : ReviewLoad} (member : l ∈ s.loads) : l = t.loadOf l.user := by
  obtain ⟨⟨u, stored, named⟩, total, opened, merged, -⟩ := describes.loads l member
  obtain ⟨user, username, _, _, _⟩ := l
  simp only [Tables.loadOf, stored, Option.map_some, Option.getD_some]
  congr

theorem loads_eq : s.loads = (s.loads.map ReviewLoad.user).map t.loadOf := by
  rw [List.map_map]
  conv_lhs => rw [← List.map_id s.loads]
  exact List.map_congr_left fun l member => describes.eq_loadOf member

theorem listed_iff : user ∈ s.loads.map ReviewLoad.user ↔ 0 < (t.loadOf user).total := by
  rw [describes.reviewers, Tables.total_loadOf_pos]

/-- A number of the entry, which is zero for those who review nothing, is the one of the tables. -/
theorem load_eq (number : ReviewLoad → ℕ) (none : ∀ name, number ⟨user, name, 0, 0, 0⟩ = 0)
    (idle : (t.loadOf user).total = 0 → number (t.loadOf user) = 0) :
    number (s.load user) = number (t.loadOf user) := by
  unfold load
  cases found : s.loads.find? fun l => l.user = user with
  | some l =>
    have same : l.user = user := by simpa using List.find?_some found
    rw [Option.getD_some, describes.eq_loadOf (List.mem_of_find?_eq_some found), same]
  | none =>
    have absent : user ∉ s.loads.map ReviewLoad.user := by
      simpa [List.find?_eq_none] using found
    rw [Option.getD_none, none, idle]
    exact Nat.eq_zero_of_not_pos (mt describes.listed_iff.mpr absent)

theorem total_load : (s.load user).total = t.pullRequests.countP fun p => user ∈ p.reviewers :=
  describes.load_eq ReviewLoad.total (fun _ => rfl) id

theorem unmerged_load : (s.load user).unmerged =
    t.pullRequests.countP fun p => user ∈ p.reviewers ∧ p.status = Status.opened :=
  describes.load_eq ReviewLoad.unmerged (fun _ => rfl) fun idle => Tables.countP_of_idle idle _

theorem merged_load : (s.load user).merged =
    t.pullRequests.countP fun p => user ∈ p.reviewers ∧ p.status = Status.merged :=
  describes.load_eq ReviewLoad.merged (fun _ => rfl) fun idle => Tables.countP_of_idle idle _

theorem ordered : (s.loads.map ReviewLoad.user).Pairwise fun a b =>
    (t.loadOf a).Precedes (t.loadOf b) := by
  refine List.pairwise_map.mpr (describes.order.imp_of_mem fun {a b} first second precedes => ?_)
  rwa [← describes.eq_loadOf first, ← describes.eq_loadOf second]

end Describes

theorem Describes.users_eq {s s' : Statistics} {t u : Tables} (before : s.Describes t)
    (after : s'.Describes u) (same : ∀ user, (u.loadOf user).total = (t.loadOf user).total) :
    s'.loads.map ReviewLoad.user = s.loads.map ReviewLoad.user := by
  have perm : (s'.loads.map ReviewLoad.user).Perm (s.loads.map ReviewLoad.user) := by
    refine (List.perm_ext_iff_of_nodup after.distinct before.distinct).mpr fun user => ?_
    rw [after.listed_iff, before.listed_iff, same]
  have later : (s'.loads.map ReviewLoad.user).Pairwise fun a b =>
      (t.loadOf a).Precedes (t.loadOf b) := by
    refine after.ordered.imp fun {a b} precedes => ?_
    rwa [ReviewLoad.Precedes, same, same] at precedes
  have asymm (a b : String) (ab : (t.loadOf a).Precedes (t.loadOf b))
      (ba : (t.loadOf b).Precedes (t.loadOf a)) : a = b := by
    rw [precedes_iff] at ab ba
    exact absurd ab (lt_asymm ba)
  exact perm.eq_of_pairwise (fun a b _ _ => asymm a b) later before.ordered

/-! ### Two overviews compared -/

structure Surveys (s : Statistics) (t : Tables) : Prop where
  describes : s.Describes t
  mean : average t.pullRequestsInOrder = .ok s.averageReviewers

/-- Nobody joins or leaves, and nobody turns active or inactive. -/
structure SameStaff (s s' : Statistics) : Prop where
  users : s'.users = s.users
  teams : s'.teams = s.teams
  activeUsers : s'.activeUsers = s.activeUsers

/-- There is one more pull request, an open one with these reviewers. -/
structure Opens (s s' : Statistics) (reviewers : List String) : Prop extends SameStaff s s' where
  pullRequests : s'.pullRequests = s.pullRequests + 1
  opened : s'.opened = s.opened + 1
  merged : s'.merged = s.merged
  total : ∀ user,
    (s'.load user).total = (s.load user).total + if user ∈ reviewers then 1 else 0
  unmergedLoad : ∀ user,
    (s'.load user).unmerged = (s.load user).unmerged + if user ∈ reviewers then 1 else 0
  mergedLoad : ∀ user, (s'.load user).merged = (s.load user).merged

/-- An open pull request with these reviewers is merged from now on. -/
structure Settles (s s' : Statistics) (reviewers : List String) : Prop extends SameStaff s s' where
  pullRequests : s'.pullRequests = s.pullRequests
  opened : s'.opened + 1 = s.opened
  merged : s'.merged = s.merged + 1
  averageReviewers : s'.averageReviewers = s.averageReviewers
  listed : ∀ r ∈ reviewers, r ∈ s.loads.map ReviewLoad.user
  unsettled : ∀ l ∈ s.loads, l.user ∈ reviewers → 0 < l.unmerged
  /-- Everyone keeps place and number of reviews. -/
  loads : s'.loads = s.loads.map fun l => if l.user ∈ reviewers then l.settled else l

/-- One open review passes from one user to another. -/
structure Passes (s s' : Statistics) (leaving successor : String) : Prop
    extends SameStaff s s' where
  pullRequests : s'.pullRequests = s.pullRequests
  opened : s'.opened = s.opened
  merged : s'.merged = s.merged
  averageReviewers : s'.averageReviewers = s.averageReviewers
  other : successor ≠ leaving
  total : ∀ user, (s'.load user).total + (if user = leaving then 1 else 0) =
    (s.load user).total + if user = successor then 1 else 0
  unmergedLoad : ∀ user, (s'.load user).unmerged + (if user = leaving then 1 else 0) =
    (s.load user).unmerged + if user = successor then 1 else 0
  mergedLoad : ∀ user, (s'.load user).merged = (s.load user).merged
  /-- Whoever has no review left has no entry. -/
  listed : ∀ user, user ∈ s'.loads.map ReviewLoad.user ↔ 0 < (s'.load user).total

section

variable {s s' : Statistics} {t u : Tables}

theorem sameStaff (before : s.Describes t) (after : s'.Describes u) (users : u.users = t.users)
    (teams : u.teams = t.teams) : SameStaff s s' where
  users := by rw [before.users, after.users, users]
  teams := by rw [before.teams, after.teams, teams]
  activeUsers := by rw [before.activeUsers, after.activeUsers, users]

theorem average_congr (ps qs : List PullRequestRow)
    (assigned : totalAssignments ps = totalAssignments qs) (length : ps.length = qs.length) :
    average ps = average qs := by
  have empty : ps.isEmpty = qs.isEmpty := by
    rw [Bool.eq_iff_iff, List.isEmpty_iff_length_eq_zero, List.isEmpty_iff_length_eq_zero, length]
  rw [average, average, empty, assigned, length]

theorem Surveys.averageReviewers_eq (before : s.Surveys t) (after : s'.Surveys u)
    (assigned : u.assignments = t.assignments)
    (length : u.pullRequests.length = t.pullRequests.length) :
    s'.averageReviewers = s.averageReviewers := by
  have inOrder (t : Tables) : totalAssignments t.pullRequestsInOrder = t.assignments := by
    rw [totalAssignments_eq, ((Tables.perm_pullRequestsInOrder t).map _).sum_eq]
    rfl
  have same := average_congr u.pullRequestsInOrder t.pullRequestsInOrder
    (by rw [inOrder, inOrder, assigned])
    (by rw [(Tables.perm_pullRequestsInOrder u).length_eq,
      (Tables.perm_pullRequestsInOrder t).length_eq, length])
  exact Except.ok.inj (after.mean.symm.trans (same.trans before.mean))

theorem opens_of_added (before : s.Describes t) {p : PullRequestRow}
    (fresh : t.pullRequest? p.id = none) (after : s'.Describes (t.addPullRequest p))
    (opened : p.status = Status.opened) :
    Opens s s' p.reviewers where
  toSameStaff := sameStaff before after rfl rfl
  pullRequests := by
    rw [before.pullRequests, after.pullRequests, Tables.pullRequests_addPullRequest fresh,
      List.length_append]
    rfl
  opened := by
    rw [before.opened, after.opened]
    simp [Tables.pullRequests_addPullRequest fresh, List.countP_append, opened]
  merged := by
    rw [before.merged, after.merged]
    simp [Tables.pullRequests_addPullRequest fresh, List.countP_append, opened, Status.opened,
      Status.merged]
  total user := by
    rw [before.total_load, after.total_load]
    simp [Tables.pullRequests_addPullRequest fresh, List.countP_append, List.countP_singleton]
  unmergedLoad user := by
    rw [before.unmerged_load, after.unmerged_load]
    simp [Tables.pullRequests_addPullRequest fresh, List.countP_append, List.countP_singleton,
      opened]
  mergedLoad user := by
    rw [before.merged_load, after.merged_load]
    simp [Tables.pullRequests_addPullRequest fresh, List.countP_append, opened, Status.opened,
      Status.merged]

variable {p : PullRequestRow} (keyed : t.Keyed) (stored : t.pullRequest? p.id = some p)
  (opened : p.status = Status.opened)
include keyed stored opened

theorem settles_of_merge {now : Timestamp} (before : s.Surveys t)
    (after : s'.Surveys (t.modifyPullRequest p.id fun _ => (Edit.merge now).apply p)) :
    Settles s s' p.reviewers := by
  let q := (Edit.merge now).apply p
  have same : q.id = p.id := rfl
  have counts := Tables.countP_modifyPullRequest keyed stored same
  have was : p.status ≠ Status.merged := opened ▸ ReviewLoad.opened_ne_merged
  have becomes : q.status ≠ Status.opened := ReviewLoad.opened_ne_merged.symm
  have turns (user : String) := (ReviewLoad.turns_loadOf keyed stored same user).of_merge opened
  constructor
  · exact sameStaff before.describes after.describes (Tables.users_modifyPullRequest ..)
      (Tables.teams_modifyPullRequest ..)
  · rw [before.describes.pullRequests, after.describes.pullRequests,
      Tables.length_modifyPullRequest (fun _ _ => same) keyed]
  · have opened' := counts fun r => r.status = Status.opened
    rw [if_pos opened, if_neg becomes] at opened'
    rw [before.describes.opened, after.describes.opened, opened']
    rfl
  · have merged := counts fun r => r.status = Status.merged
    rw [if_neg was, if_pos (show q.status = Status.merged from rfl)] at merged
    rw [before.describes.merged, after.describes.merged]
    exact merged
  · exact before.averageReviewers_eq after
      (Tables.assignments_modifyPullRequest keyed stored same rfl)
      (Tables.length_modifyPullRequest (fun _ _ => same) keyed)
  · intro r assigned
    exact (before.describes.reviewers r).mpr ⟨p, (Tables.pullRequest?_mem stored).1, assigned⟩
  · intro l member assigned
    rw [before.describes.eq_loadOf member]
    exact (turns l.user).1 assigned
  · have users := before.describes.users_eq after.describes fun user => by
      rw [(turns user).2]
      split <;> rfl
    rw [after.describes.loads_eq, users, List.map_map]
    refine List.map_congr_left fun l member => ?_
    rw [Function.comp_apply, (turns l.user).2, ← before.describes.eq_loadOf member]

theorem passes_of_replace {leaving successor : String} (before : s.Surveys t)
    (assigned : leaving ∈ p.reviewers) (free : successor ∉ p.reviewers)
    (after : s'.Surveys
      (t.modifyPullRequest p.id fun _ => (Edit.replace leaving successor).apply p)) :
    Passes s s' leaving successor := by
  let q := (Edit.replace leaving successor).apply p
  have same : q.id = p.id := rfl
  have counts := Tables.countP_modifyPullRequest keyed stored same
  have status : q.status = p.status := rfl
  have distinct := keyed.reviewers p (Tables.pullRequest?_mem stored).1
  have length : q.reviewers.length = p.reviewers.length := by
    have shorter := Edit.length_staying distinct assigned
    simpa [q, Edit.apply, Edit.written] using shorter
  have turns (user : String) :=
    (ReviewLoad.turns_loadOf keyed stored same user).of_replace opened assigned free
  constructor
  · exact sameStaff before.describes after.describes (Tables.users_modifyPullRequest ..)
      (Tables.teams_modifyPullRequest ..)
  · rw [before.describes.pullRequests, after.describes.pullRequests,
      Tables.length_modifyPullRequest (fun _ _ => same) keyed]
  · have opened' := counts fun r => r.status = Status.opened
    rw [status] at opened'
    rw [before.describes.opened, after.describes.opened]
    exact Nat.add_right_cancel opened'
  · have merged := counts fun r => r.status = Status.merged
    rw [status] at merged
    rw [before.describes.merged, after.describes.merged]
    exact Nat.add_right_cancel merged
  · exact before.averageReviewers_eq after
      (Tables.assignments_modifyPullRequest keyed stored same length)
      (Tables.length_modifyPullRequest (fun _ _ => same) keyed)
  · rintro rfl
    exact free assigned
  · intro user
    rw [before.describes.total_load, after.describes.total_load]
    exact (turns user).1
  · intro user
    rw [before.describes.unmerged_load, after.describes.unmerged_load]
    exact (turns user).2.1
  · intro user
    rw [before.describes.merged_load, after.describes.merged_load]
    exact (turns user).2.2
  · intro user
    rw [after.describes.listed_iff, after.describes.total_load]
    rfl

end

end Statistics

/-! ### Requests -/

/-- A world at rest whose keys occur once and whose pull requests are open or merged. -/
structure World.Orderly (w : World) : Prop where
  resting : w.Resting
  keyed : w.tables.Keyed
  statuses : w.tables.TwoStatuses

namespace Desk

variable {w v : World} {s : Statistics} {timeout : Option Number}

theorem orderly_run (now : Timestamp) (moves : List Interleaving.Move) :
    ((Interleaving.State.start .empty now).run moves).world.Orderly :=
  have consistent := (Interleaving.State.consistent_start .empty now).run moves
  ⟨consistent.resting, consistent.keyed, twoStatuses_run now moves⟩

theorem orderly_of_operation {α : Type} {o : Operation α} {r : Except Failure α}
    (orderly : w.Orderly) (run : o.act timeout .none w = (r, v))
    (statuses : v.tables.TwoStatuses) : v.Orderly := by
  have resting := o.keeps_resting timeout w orderly.resting
  have keyed := o.keeps_keyed timeout w orderly.keyed
  rw [run] at resting keyed
  exact ⟨resting, keyed, statuses⟩

theorem overview_eq (resting : w.Resting) : (overview.act none .none w).1 =
    Statistics.of w.tables.pullRequestsInOrder w.tables.usersInOrder w.tables.rosters := by
  obtain ⟨r, t, j, c, run, ends⟩ := overview_ensures resting none w.journal w.clock
  obtain ⟨rfl, -⟩ := ends.of_none
  exact congrArg Prod.fst run

theorem surveys_of_overview (orderly : w.Orderly) (answers : (overview.act none .none w).1 = .ok s) :
    s.Surveys w.tables := by
  rw [overview_eq orderly.resting] at answers
  refine ⟨describes_overview orderly.resting orderly.keyed orderly.statuses answers, ?_⟩
  obtain ⟨mean, average, counted⟩ := bind_eq_ok_iff.mp answers
  cases counted
  exact average

theorem overview_answers (orderly : w.Orderly) :
    (∃ s, (overview.act none .none w).1 = .ok s) ∨ 2 ^ 1023 ≤ w.tables.users.length := by
  rw [overview_eq orderly.resting]
  exact (Statistics.of_answers orderly.keyed orderly.resting.linked
    (Tables.perm_pullRequestsInOrder _) _ _).imp_right And.left

/-- The overviews of two worlds compare like this. There are two, unless there are too many users
for an average that is a number. -/
structure Compares (w v : World) (R : Statistics → Statistics → Prop) : Prop where
  compare : ∀ s s', (overview.act none .none w).1 = .ok s →
    (overview.act none .none v).1 = .ok s' → R s s'
  answers : (∃ s s', (overview.act none .none w).1 = .ok s ∧
    (overview.act none .none v).1 = .ok s') ∨ 2 ^ 1023 ≤ w.tables.users.length

theorem compares_of_surveys {R : Statistics → Statistics → Prop} (before : w.Orderly)
    (after : v.Orderly) (users : v.tables.users = w.tables.users)
    (compare : ∀ s s', s.Surveys w.tables → s'.Surveys v.tables → R s s') : Compares w v R where
  compare s s' answers answers' :=
    compare s s' (surveys_of_overview before answers) (surveys_of_overview after answers')
  answers := by
    rcases overview_answers before with ⟨s, answers⟩ | many
    · rcases overview_answers after with ⟨s', answers'⟩ | many
      · exact .inl ⟨s, s', answers, answers'⟩
      · exact .inr (users ▸ many)
    · exact .inr many

theorem compares_of_createPullRequest (orderly : w.Orderly) {id name author : Value}
    {p : PullRequest} (run : (createPullRequest id name author).act timeout .none w = (.ok p, v)) :
    ∃ chosen : List String, p.reviewers = chosen.map (fun r => .text (.plain r)) ∧
      Compares w v (Statistics.Opens · · chosen) := by
  obtain ⟨r, t, j, c, run', ends⟩ :=
    createPullRequest_ensures orderly.resting id name author timeout w.journal w.clock
  cases run.symm.trans run'
  rcases ends with ends | ⟨e, failed, -⟩
  · cases ends with
    | @opened key title team a column fresh named known present =>
      refine ⟨chosen w.tables team author w.preferences.maxReviewers, rfl, ?_⟩
      have after := orderly_of_operation orderly run (orderly.statuses.addPullRequest fresh rfl)
      exact compares_of_surveys orderly after rfl fun s s' before after =>
        Statistics.opens_of_added before.describes fresh after.describes rfl
  · cases failed

/-- The first merge of a pull request settles its reviews, and any other one changes nothing. -/
theorem compares_of_merge (orderly : w.Orderly) {id : Value} {p : PullRequest}
    (run : (merge id).act timeout .none w = (.ok p, v)) :
    ∃ q, ((PullRequests.get id).run w).1 = .ok q ∧
      (¬q.IsMerged → Compares w v (Statistics.Settles · · q.reviewers)) ∧
      (q.IsMerged → v.tables = w.tables ∧
        (overview.act none .none v).1 = (overview.act none .none w).1) := by
  obtain ⟨j, get⟩ := PullRequests.get_ends orderly.resting.unspoiled id
  obtain ⟨r, t, j, c, run', ends⟩ :=
    merge_ensures orderly.resting orderly.keyed id timeout w.journal w.clock
  cases run.symm.trans run'
  rcases ends with ends | ⟨e, failed, -⟩
  · cases ends with
    | @repeated q found final =>
      refine ⟨q, (congrArg Prod.fst get).trans found, fun unmerged => absurd final unmerged,
        fun _ => ⟨rfl, ?_⟩⟩
      have after := orderly_of_operation orderly run orderly.statuses
      rw [overview_eq orderly.resting, overview_eq after.resting]
    | @merged q found unmerged =>
      refine ⟨q, (congrArg Prod.fst get).trans found, fun _ => ?_,
        fun final => absurd final unmerged⟩
      have stored := (PullRequests.found_eq_ok found).2
      have opened := (orderly.statuses q (Tables.pullRequest?_mem stored).1).resolve_right unmerged
      have after := orderly_of_operation orderly run (orderly.statuses.edit orderly.keyed stored _)
      exact compares_of_surveys orderly after (Tables.users_modifyPullRequest ..) fun s s' =>
        Statistics.settles_of_merge orderly.keyed stored opened
  · cases failed

theorem reassign_unread (resting : w.Resting) {id : Value} {e : Failure}
    (failed : PullRequests.found w.tables id = .error e) (old : Value) (timeout : Option Number) :
    ((reassign id old).act timeout).Ensures w fun r _ => ∃ f, r = .error f := by
  refine Operation.ensures_transaction rfl resting.unspoiled (fun f _ => ⟨f, rfl⟩) fun d _ => ?_
  let v : World := { w with depth := w.depth + 1 }
  have unspoiled : v.spoiled = false := resting.unspoiled
  show (reassignPlan id old).Ensures d v _
  refine .check (fun f _ => ⟨f, rfl⟩) (.pullRequestGet unspoiled ?_)
  rw [show PullRequests.found v.tables id = .error e from failed]
  exact .done ⟨e, rfl⟩

theorem compares_of_reassign (orderly : w.Orderly) {id old : Value} {p : PullRequest}
    {successor : String}
    (run : (reassign id old).act timeout .none w = (.ok (p, successor), v)) :
    ∃ leaving : String, old = .text (.plain leaving) ∧
      Compares w v (Statistics.Passes · · leaving successor) := by
  cases found : PullRequests.found w.tables id with
  | error e =>
    obtain ⟨r, t, j, c, run', f, failed⟩ :=
      reassign_unread orderly.resting found old timeout w.journal w.clock
    cases failed
    cases run.symm.trans run'
  | ok q =>
    obtain ⟨column, stored⟩ := PullRequests.found_eq_ok found
    obtain ⟨r, t, j, c, run', ends⟩ := reassign_ensures orderly.resting orderly.keyed id old column
      timeout w.journal w.clock
    cases run.symm.trans run'
    rcases ends with ends | ⟨e, failed, -⟩
    · cases ends.replacement stored with
      | @replaced leaving _ unmerged assigned named least =>
        refine ⟨leaving, Value.string?_eq_some.mp named, ?_⟩
        have opened :=
          (orderly.statuses q (Tables.pullRequest?_mem stored).1).resolve_right unmerged
        have after := orderly_of_operation orderly run (orderly.statuses.edit orderly.keyed stored _)
        exact compares_of_surveys orderly after (Tables.users_modifyPullRequest ..) fun s s' before =>
          Statistics.passes_of_replace orderly.keyed stored opened before assigned least.1.free
    · cases failed

/-- In every state that requests lead to from the empty database, a request that succeeds moves the
overview by what it has written, and by nothing else. -/
theorem overview_moves (now : Timestamp) (moves : List Interleaving.Move)
    (timeout : Option Number) :
    let w := ((Interleaving.State.start .empty now).run moves).world
    (∀ id name author p v,
      (createPullRequest id name author).act timeout .none w = (.ok p, v) →
        ∃ chosen : List String, p.reviewers = chosen.map (fun r => .text (.plain r)) ∧
          Compares w v (Statistics.Opens · · chosen)) ∧
    (∀ id p v, (merge id).act timeout .none w = (.ok p, v) →
      ∃ q, ((PullRequests.get id).run w).1 = .ok q ∧
        (¬q.IsMerged → Compares w v (Statistics.Settles · · q.reviewers)) ∧
        (q.IsMerged → v.tables = w.tables ∧
          (overview.act none .none v).1 = (overview.act none .none w).1)) ∧
    ∀ id old p successor v,
      (reassign id old).act timeout .none w = (.ok (p, successor), v) →
        ∃ leaving : String, old = .text (.plain leaving) ∧
          Compares w v (Statistics.Passes · · leaving successor) :=
  have orderly := orderly_run now moves
  ⟨fun _ _ _ _ _ run => compares_of_createPullRequest orderly run,
    fun _ _ _ run => compares_of_merge orderly run,
    fun _ _ _ _ _ run => compares_of_reassign orderly run⟩

/-- A team of three, with one open pull request and a merged one. -/
def balanceMoves : List Interleaving.Move :=
  let member (id : String) : MemberEntry := ⟨some id, some id, some (.bool true)⟩
  let request (client : Nat) (command : Desk.Command) : List Interleaving.Move :=
    .arrive command none :: List.replicate 10 (.advance client)
  [.prefer { maxReviewers := 1 }] ++
    request 0 (.createTeam "core" [member "u1", member "u2", member "u3"]) ++
    request 1 (.createPullRequest "pr-1" "Search" "u1") ++
    request 2 (.createPullRequest "pr-2" "Search" "u1") ++ request 3 (.merge "pr-2")

theorem answers_balance :
    let w := ((Interleaving.State.start .empty default).run balanceMoves).world
    (((createPullRequest "pr-3" "Search" "u1").act none .none w).1.isOk,
      ((merge "pr-1").act none .none w).1.isOk, ((merge "pr-2").act none .none w).1.isOk,
      ((reassign "pr-1" "u2").act none .none w).1.isOk,
      ((PullRequests.get "pr-1").run w).1.toOption.map fun p => p.status,
      ((PullRequests.get "pr-2").run w).1.toOption.map fun p => p.status) =
    (true, true, true, true, some Status.opened, some Status.merged) := by
  cbv

theorem overview_moves_balance :
    let w := ((Interleaving.State.start .empty default).run balanceMoves).world
    (∃ p v chosen, (createPullRequest "pr-3" "Search" "u1").act none .none w = (.ok p, v) ∧
      Compares w v (Statistics.Opens · · chosen)) ∧
    (∃ p v reviewers, (merge "pr-1").act none .none w = (.ok p, v) ∧
      Compares w v (Statistics.Settles · · reviewers)) ∧
    (∃ p v, (merge "pr-2").act none .none w = (.ok p, v) ∧ v.tables = w.tables) ∧
    ∃ p successor v, (reassign "pr-1" "u2").act none .none w = (.ok (p, successor), v) ∧
      Compares w v (Statistics.Passes · · "u2" successor) := by
  have answers := answers_balance
  have moved := overview_moves default balanceMoves none
  generalize ((Interleaving.State.start .empty default).run balanceMoves).world = w at *
  simp only [Prod.mk.injEq] at answers
  obtain ⟨created, settled, repeated, reassigned, opened, merged⟩ := answers
  have succeeds {α : Type} (outcome : Except Failure α × World) (ok : outcome.1.isOk = true) :
      ∃ a v, outcome = (.ok a, v) := by
    obtain ⟨_ | a, v⟩ := outcome
    · cases ok
    · exact ⟨a, v, rfl⟩
  obtain ⟨opens, merges, passes⟩ := moved
  refine ⟨?_, ?_, ?_, ?_⟩
  · obtain ⟨p, v, run⟩ := succeeds _ created
    obtain ⟨chosen, -, compares⟩ := opens _ _ _ _ _ run
    exact ⟨p, v, chosen, run, compares⟩
  · obtain ⟨p, v, run⟩ := succeeds _ settled
    obtain ⟨q, get, first, -⟩ := merges _ _ _ run
    rw [get] at opened
    refine ⟨p, v, q.reviewers, run, first fun final => ?_⟩
    exact ReviewLoad.opened_ne_merged ((Option.some.inj opened).symm.trans final)
  · obtain ⟨p, v, run⟩ := succeeds _ repeated
    obtain ⟨q, get, -, again⟩ := merges _ _ _ run
    rw [get] at merged
    exact ⟨p, v, run, (again (Option.some.inj merged)).1⟩
  · obtain ⟨⟨p, successor⟩, v, run⟩ := succeeds _ reassigned
    obtain ⟨leaving, same, compares⟩ := passes _ _ _ _ _ run
    cases same
    exact ⟨p, successor, v, run, compares⟩

end Desk

end ReviewRota
