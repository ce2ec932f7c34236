import Mathlib.Algebra.BigOperators.Group.List.Lemmas
import Mathlib.Algebra.Order.BigOperators.Group.List
import Mathlib.Data.Prod.Lex
import Mathlib.Data.String.Basic
import ReviewRota.Proofs.Number.Nearest
import ReviewRota.Proofs.Sorting
import ReviewRota.Proofs.Store.Users
import ReviewRota.Statistics

/-!
# What the statistics count

The pass over the pull requests adds one review after the other, each to the entry of its reviewer.
In the end every entry counts the reviews of its user, whatever the order was. Where nobody is
assigned twice to one pull request these are the pull requests that the user reviews.
-/

namespace ReviewRota

/-! ### One review after the other -/

/-- The reviewers of all pull requests, each with whether the pull request is merged. -/
def reviews (ps : List PullRequestRow) : List (String × Bool) :=
  ps.flatMap fun p => p.reviewers.map fun r => (r, decide p.IsMerged)

/-- The entry counts the reviews of its user among those given. -/
structure ReviewLoad.Counts (l : ReviewLoad) (us : List UserRow) (rs : List (String × Bool)) :
    Prop where
  username : l.username = Statistics.usernameOf us l.user
  total : l.total = rs.countP (fun r => r.1 = l.user)
  unmerged : l.unmerged = rs.countP (fun r => r.1 = l.user ∧ r.2 = false)
  merged : l.merged = rs.countP (fun r => r.1 = l.user ∧ r.2 = true)

namespace Statistics

variable {us : List UserRow} {rs : List (String × Bool)} {loads : List ReviewLoad} {user : String}

theorem counts_noReviews (us : List UserRow) (fresh : user ∉ rs.map Prod.fst) :
    (noReviews us user).Counts us rs := by
  have others (r : String × Bool) (member : r ∈ rs) : r.1 ≠ user := fun same =>
    fresh (List.mem_map.mpr ⟨r, member, same⟩)
  refine ⟨rfl, ?_, ?_, ?_⟩ <;>
    exact (List.countP_eq_zero.mpr fun r member => by simp [noReviews, others r member]).symm

theorem counts_counted {l : ReviewLoad} (counts : l.Counts us rs) (merged : Bool) :
    (l.counted merged).Counts us (rs ++ [(l.user, merged)]) := by
  obtain ⟨username, total, unmerged, merged'⟩ := counts
  cases merged <;> constructor <;> simp [ReviewLoad.counted, List.countP_append, *]

theorem counts_other {l : ReviewLoad} (counts : l.Counts us rs) (other : l.user ≠ user)
    (merged : Bool) : l.Counts us (rs ++ [(user, merged)]) := by
  obtain ⟨username, total, unmerged, merged'⟩ := counts
  constructor <;> simp [List.countP_append, *, other.symm]

/-- There is one entry for each of the reviewers, and it counts their reviews. -/
structure Tallied (us : List UserRow) (rs : List (String × Bool)) (loads : List ReviewLoad) :
    Prop where
  distinct : (loads.map ReviewLoad.user).Nodup
  reviewers : ∀ user, user ∈ loads.map ReviewLoad.user ↔ user ∈ rs.map Prod.fst
  counts : ∀ l ∈ loads, l.Counts us rs

theorem user_counted (l : ReviewLoad) (merged : Bool) : (l.counted merged).user = l.user := by
  cases merged <;> rfl

theorem users_recorded (us : List UserRow) (merged : Bool) (loads : List ReviewLoad)
    (user : String) :
    (recorded us merged loads user).map ReviewLoad.user =
      (entered us loads user).map ReviewLoad.user :=
  map_ite_key ReviewLoad.user _ user _ fun l same => (user_counted l merged).trans same

theorem Tallied.entered (tallied : Tallied us rs loads) (user : String) :
    ((entered us loads user).map ReviewLoad.user).Nodup ∧
      (∀ id, id ∈ (entered us loads user).map ReviewLoad.user ↔ id ∈ rs.map Prod.fst ∨ id = user) ∧
      ∀ l ∈ entered us loads user, l.Counts us rs := by
  unfold Statistics.entered
  split
  · rename_i present
    refine ⟨tallied.distinct, fun id => ?_, tallied.counts⟩
    rw [tallied.reviewers]
    refine ⟨.inl, ?_⟩
    rintro (known | rfl)
    · exact known
    · exact (tallied.reviewers _).mp present
  · rename_i fresh
    refine ⟨?_, fun id => ?_, fun l member => ?_⟩
    · rw [List.map_append]
      exact tallied.distinct.append (List.nodup_singleton _) (by simpa [noReviews] using fresh)
    · rw [List.map_append, List.mem_append, tallied.reviewers]
      simp [noReviews]
    · rcases List.mem_append.mp member with old | new
      · exact tallied.counts l old
      · obtain rfl := List.mem_singleton.mp new
        exact counts_noReviews us fun known => fresh ((tallied.reviewers user).mpr known)

theorem Tallied.recorded (tallied : Tallied us rs loads) (user : String) (merged : Bool) :
    Tallied us (rs ++ [(user, merged)]) (recorded us merged loads user) := by
  obtain ⟨distinct, reviewers, counts⟩ := tallied.entered user
  constructor
  · rw [users_recorded]
    exact distinct
  · intro id
    rw [users_recorded, reviewers, List.map_append, List.mem_append]
    simp
  · intro l member
    obtain ⟨old, listed, rfl⟩ := List.mem_map.mp member
    split
    · rename_i same
      exact same ▸ counts_counted (counts old listed) merged
    · rename_i other
      exact counts_other (counts old listed) other merged

theorem tally_eq (ps : List PullRequestRow) (us : List UserRow) :
    tally ps us = (reviews ps).foldl (fun loads r => Statistics.recorded us r.2 loads r.1) [] := by
  simp only [tally, reviews, List.foldl_flatMap, List.foldl_map]

theorem Tallied.foldl (tallied : Tallied us rs loads) (more : List (String × Bool)) :
    Tallied us (rs ++ more)
      (more.foldl (fun loads r => Statistics.recorded us r.2 loads r.1) loads) := by
  induction more generalizing rs loads with
  | nil => simpa using tallied
  | cons r more ih =>
    have next := ih (tallied.recorded r.1 r.2)
    rwa [List.append_assoc] at next

theorem tallied_tally (ps : List PullRequestRow) (us : List UserRow) :
    Tallied us (reviews ps) (tally ps us) := by
  have none : Tallied us [] [] := ⟨.nil, fun _ => Iff.rfl, nofun⟩
  rw [tally_eq]
  exact none.foldl (reviews ps)

/-! ### Counted by pull requests -/

theorem countP_reviews {ps : List PullRequestRow} (distinct : ∀ p ∈ ps, p.reviewers.Nodup)
    (user : String) (q : Bool → Prop) [DecidablePred q] :
    (reviews ps).countP (fun r => r.1 = user ∧ q r.2) =
      ps.countP fun p => user ∈ p.reviewers ∧ q (decide p.IsMerged) := by
  induction ps with
  | nil => rfl
  | cons p ps ih =>
    have rest := ih fun p' member => distinct p' (List.mem_cons_of_mem _ member)
    have own : (p.reviewers.map fun r => (r, decide p.IsMerged)).countP
        (fun r => r.1 = user ∧ q r.2) =
          if user ∈ p.reviewers ∧ q (decide p.IsMerged) then 1 else 0 := by
      rw [List.countP_map]
      by_cases counted : q (decide p.IsMerged)
      · have once := (distinct p List.mem_cons_self).count (a := user)
        simpa [Function.comp_def, counted, List.count, beq_eq_decide] using once
      · simp [Function.comp_def, counted]
    rw [List.countP_cons, ← rest, reviews, List.flatMap_cons, List.countP_append, own, Nat.add_comm]
    simp [reviews]

theorem countP_statuses {ps : List PullRequestRow}
    (statuses : ∀ p ∈ ps, p.status = Status.opened ∨ p.status = Status.merged)
    (q : PullRequestRow → Prop) [DecidablePred q] :
    ps.countP (fun p => q p ∧ p.status = Status.opened) +
      ps.countP (fun p => q p ∧ p.status = Status.merged) = ps.countP fun p => q p := by
  have other : Status.opened ≠ Status.merged := by decide
  induction ps with
  | nil => rfl
  | cons p ps ih =>
    have rest := ih fun p' member => statuses p' (List.mem_cons_of_mem _ member)
    have own := statuses p List.mem_cons_self
    simp only [List.countP_cons, decide_eq_true_eq]
    by_cases counted : q p <;> rcases own with same | same <;>
      simp only [counted, same, other, other.symm, true_and, false_and, if_true, if_false] <;> omega

theorem fst_reviews (ps : List PullRequestRow) :
    (reviews ps).map Prod.fst = ps.flatMap PullRequestRow.reviewers := by
  simp [reviews, List.map_flatMap, Function.comp_def]

theorem length_reviews (ps : List PullRequestRow) :
    (reviews ps).length = (ps.map fun p => p.reviewers.length).sum := by
  simp [reviews, List.length_flatMap]

theorem Tallied.sum_total (tallied : Tallied us rs loads) :
    (loads.map ReviewLoad.total).sum = rs.length := by
  have totals : loads.map ReviewLoad.total =
      (loads.map ReviewLoad.user).map fun user => (rs.map Prod.fst).count user := by
    rw [List.map_map]
    refine List.map_congr_left fun l member => ?_
    rw [(tallied.counts l member).total, Function.comp_apply, List.count, List.countP_map]
    rfl
  have users : (loads.map ReviewLoad.user).Perm (rs.map Prod.fst).dedup := by
    refine (List.perm_ext_iff_of_nodup tallied.distinct (List.nodup_dedup _)).mpr fun user => ?_
    rw [tallied.reviewers, List.mem_dedup]
  rw [totals, (users.map _).sum_eq, List.sum_map_count_dedup_eq_length, List.length_map]

/-! ### The order of the entries -/

end Statistics

def ReviewLoad.Precedes (a b : ReviewLoad) : Prop :=
  b.total < a.total ∨ a.total = b.total ∧ a.user < b.user

namespace Statistics

def rank (l : ReviewLoad) : ℕᵒᵈ ×ₗ String := toLex (OrderDual.toDual l.total, l.user)

theorem heavier_iff (a b : ReviewLoad) : heavier a b = true ↔ rank a ≤ rank b := by
  simp [heavier, rank, Prod.Lex.toLex_le_toLex]

theorem precedes_iff (a b : ReviewLoad) : a.Precedes b ↔ rank a < rank b := by
  simp [ReviewLoad.Precedes, rank, Prod.Lex.toLex_lt_toLex]

theorem pairwise_loadsOf (ps : List PullRequestRow) (us : List UserRow) :
    (loadsOf ps us).Pairwise ReviewLoad.Precedes := by
  have users : ((tally ps us).map rank).map (fun r => (ofLex r).2) =
      (tally ps us).map ReviewLoad.user := List.map_map
  have distinct : ((tally ps us).map rank).Nodup :=
    .of_map _ (users ▸ (tallied_tally ps us).distinct)
  exact (pairwise_lt_mergeSort rank heavier_iff distinct).imp (precedes_iff _ _).mpr

theorem tallied_loadsOf (ps : List PullRequestRow) (us : List UserRow) :
    Tallied us (reviews ps) (loadsOf ps us) := by
  obtain ⟨distinct, reviewers, counts⟩ := tallied_tally ps us
  have perm : (loadsOf ps us).Perm (tally ps us) := List.mergeSort_perm _ _
  constructor
  · exact (perm.map _).nodup_iff.mpr distinct
  · exact fun user => (perm.map _).mem_iff.trans (reviewers user)
  · exact fun l member => counts l (perm.mem_iff.mp member)

end Statistics

/-! ### Described tables -/

/-- How many assignments there are, over all pull requests. -/
def Tables.assignments (t : Tables) : ℕ := (t.pullRequests.map fun p => p.reviewers.length).sum

/-- The entry belongs to a stored user and counts the pull requests that they review. -/
structure ReviewLoad.Describes (l : ReviewLoad) (t : Tables) : Prop where
  username : ∃ u, t.user? l.user = some u ∧ l.username = u.username
  total : l.total = t.pullRequests.countP fun p => l.user ∈ p.reviewers
  opened : l.unmerged =
    t.pullRequests.countP fun p => l.user ∈ p.reviewers ∧ p.status = Status.opened
  merged : l.merged =
    t.pullRequests.countP fun p => l.user ∈ p.reviewers ∧ p.status = Status.merged
  split : l.total = l.unmerged + l.merged

/-- The numbers are those of the tables, and there is one entry for everyone who reviews. -/
structure Statistics.Describes (s : Statistics) (t : Tables) : Prop where
  pullRequests : s.pullRequests = t.pullRequests.length
  users : s.users = t.users.length
  teams : s.teams = t.teams.length
  activeUsers : s.activeUsers = t.users.countP UserRow.active
  opened : s.opened = t.pullRequests.countP fun p => p.status = Status.opened
  merged : s.merged = t.pullRequests.countP fun p => p.status = Status.merged
  split : s.opened + s.merged = s.pullRequests
  average : s.averageReviewers.IsNearest (t.assignments / t.pullRequests.length)
  averageless : t.pullRequests = [] → s.averageReviewers = .zero false
  distinct : (s.loads.map ReviewLoad.user).Nodup
  reviewers : ∀ user, user ∈ s.loads.map ReviewLoad.user ↔
    ∃ p ∈ t.pullRequests, user ∈ p.reviewers
  loads : ∀ l ∈ s.loads, l.Describes t
  assignments : (s.loads.map ReviewLoad.total).sum = t.assignments
  order : s.loads.Pairwise ReviewLoad.Precedes

/-- Every pull request is open or merged. -/
def Tables.TwoStatuses (t : Tables) : Prop :=
  ∀ p ∈ t.pullRequests, p.status = Status.opened ∨ p.status = Status.merged

namespace Statistics

variable {t : Tables} {ps : List PullRequestRow} {us : List UserRow} {ts : List TeamRoster}

theorem usernameOf_stored (keyed : t.Keyed) (users : us.Perm t.users) {id : String}
    (has : t.HasUser id) : ∃ u, t.user? id = some u ∧ usernameOf us id = u.username := by
  obtain ⟨u, stored⟩ := has.exists_user?
  have distinct : (us.map UserRow.id).Nodup := (users.map _).nodup_iff.mpr keyed.users
  have found : us.find? (fun v => v.id = id) = some u :=
    (find?_key_eq_some_iff UserRow.id distinct).mpr
      ⟨users.mem_iff.mpr (Tables.user?_mem stored).1, (Tables.user?_mem stored).2⟩
  exact ⟨u, stored, by rw [usernameOf, found]; rfl⟩

theorem describes_load (keyed : t.Keyed) (statuses : t.TwoStatuses) (rows : ps.Perm t.pullRequests)
    (users : us.Perm t.users) {l : ReviewLoad} (has : t.HasUser l.user)
    (counts : l.Counts us (reviews ps)) : l.Describes t := by
  have distinct (p : PullRequestRow) (member : p ∈ ps) : p.reviewers.Nodup :=
    keyed.reviewers p (rows.mem_iff.mp member)
  have counted (q : Bool → Prop) [DecidablePred q] :=
    (countP_reviews distinct l.user q).trans (rows.countP_eq _)
  have other : Status.opened ≠ Status.merged := by decide
  obtain ⟨u, stored, named⟩ := usernameOf_stored keyed users has
  have total : l.total = t.pullRequests.countP fun p => l.user ∈ p.reviewers := by
    simpa [counts.total] using counted fun _ => True
  have unmerged : l.unmerged =
      t.pullRequests.countP fun p => l.user ∈ p.reviewers ∧ p.status = Status.opened := by
    rw [counts.unmerged, counted (· = false)]
    refine List.countP_congr fun p member => ?_
    rcases statuses p member with same | same <;>
      simp [PullRequestRow.IsMerged, same, other, other.symm]
  have merged : l.merged =
      t.pullRequests.countP fun p => l.user ∈ p.reviewers ∧ p.status = Status.merged := by
    rw [counts.merged, counted (· = true)]
    refine List.countP_congr fun p _ => ?_
    simp only [decide_eq_true_eq]
    rfl
  refine ⟨⟨u, stored, counts.username.trans named⟩, total, unmerged, merged, ?_⟩
  rw [total, unmerged, merged]
  exact (countP_statuses statuses fun p => l.user ∈ p.reviewers).symm

theorem totalAssignments_eq (ps : List PullRequestRow) :
    totalAssignments ps = (ps.map fun p => p.reviewers.length).sum := List.length_flatMap

theorem average_eq_ok {mean : Binary64} (answers : average ps = .ok mean) :
    mean.IsNearest ((ps.map fun p => p.reviewers.length).sum / ps.length) ∧
      (ps = [] → mean = .zero false) := by
  unfold average at answers
  split at answers
  · cases answers
    obtain rfl := List.isEmpty_iff.mp ‹_›
    exact ⟨by simpa using Binary64.isNearest_zero, fun _ => rfl⟩
  · rename_i some
    have positive : 0 < ps.length := by simpa [List.length_pos_iff] using some
    dsimp only at answers
    split at answers
    · rename_i finite
      cases answers
      refine ⟨?_, fun none => absurd (List.isEmpty_iff.mpr none) some⟩
      rw [← totalAssignments_eq]
      exact Binary64.isNearest_ofRatio positive finite
    · cases answers

theorem average_eq {n d : ℕ} (assigned : totalAssignments ps = n) (length : ps.length = d)
    (some : 0 < d) (finite : (Binary64.ofRatio false n d).IsFinite) :
    average ps = .ok (.ofRatio false n d) := by
  subst assigned length
  have occupied : ¬ps.isEmpty = true := by simpa [List.length_pos_iff] using some
  rw [average, if_neg occupied]
  exact if_pos finite

theorem length_reviewers_le (keyed : t.Keyed) (linked : t.Linked) {p : PullRequestRow}
    (stored : p ∈ t.pullRequests) : p.reviewers.length ≤ t.users.length := by
  have known : p.reviewers ⊆ t.users.map UserRow.id := fun r member => by
    obtain ⟨u, stored, same⟩ := (linked.people stored).2 r member
    exact List.mem_map.mpr ⟨u, stored, same⟩
  simpa using (List.subperm_of_subset (keyed.reviewers p stored) known).length_le

theorem mean_le (keyed : t.Keyed) (linked : t.Linked) (rows : ps.Perm t.pullRequests)
    (some : 0 < ps.length) : (totalAssignments ps : ℚ) / ps.length ≤ t.users.length := by
  have most : (ps.map fun p => p.reviewers.length).sum ≤ ps.length * t.users.length := by
    rw [← List.length_map fun p : PullRequestRow => p.reviewers.length, ← Nat.nsmul_eq_mul]
    refine List.sum_le_card_nsmul _ _ fun n member => ?_
    obtain ⟨p, listed, rfl⟩ := List.mem_map.mp member
    exact length_reviewers_le keyed linked (rows.mem_iff.mp listed)
  have positive : (0 : ℚ) < ps.length := by exact_mod_cast some
  rw [totalAssignments_eq, div_le_iff₀ positive, mul_comm]
  exact_mod_cast most

/-- An average is too large only for more users than any memory holds. -/
theorem average_answers (keyed : t.Keyed) (linked : t.Linked) (rows : ps.Perm t.pullRequests) :
    (∃ mean, average ps = .ok mean) ∨ 2 ^ 1023 ≤ t.users.length ∧ average ps =
      .error (.fault ⟨.overflow, "integer division result too large for a float"⟩) := by
  unfold average
  split
  · exact .inl ⟨_, rfl⟩
  rename_i some
  have positive : 0 < ps.length := by simpa [List.length_pos_iff] using some
  dsimp only
  split
  · exact .inl ⟨_, rfl⟩
  · rename_i infinite
    refine .inr ⟨?_, rfl⟩
    by_contra few
    have small : (t.users.length : ℚ) < 2 ^ (1023 : ℤ) := by exact_mod_cast not_le.mp few
    exact infinite (Binary64.isFinite_ofRatio false positive
      ((mean_le keyed linked rows positive).trans_lt small))

theorem describes_of (keyed : t.Keyed) (linked : t.Linked) (statuses : t.TwoStatuses)
    (rows : ps.Perm t.pullRequests) (users : us.Perm t.users)
    (teams : ts.length = t.teams.length) {s : Statistics} (counted : of ps us ts = .ok s) :
    s.Describes t := by
  obtain ⟨mean, average, counted⟩ := bind_eq_ok_iff.mp counted
  cases counted
  obtain ⟨nearest, averageless⟩ := average_eq_ok average
  obtain ⟨distinct, reviewers, counts⟩ := tallied_loadsOf ps us
  have assigned : (ps.map fun p => p.reviewers.length).sum = t.assignments :=
    (rows.map _).sum_eq
  have reviewing (user : String) : user ∈ (loadsOf ps us).map ReviewLoad.user ↔
      ∃ p ∈ t.pullRequests, user ∈ p.reviewers := by
    rw [reviewers, fst_reviews, List.mem_flatMap]
    exact exists_congr fun p => and_congr_left' rows.mem_iff
  constructor
  · exact rows.length_eq
  · exact users.length_eq
  · exact teams
  · exact users.countP_eq _
  · exact rows.countP_eq _
  · exact rows.countP_eq _
  · show ps.countP _ + ps.countP _ = ps.length
    rw [rows.countP_eq, rows.countP_eq, rows.length_eq]
    simpa using countP_statuses statuses fun _ => True
  · rw [← assigned, ← rows.length_eq]
    exact nearest
  · exact fun none => averageless (List.perm_nil.mp (none ▸ rows))
  · exact distinct
  · exact reviewing
  · intro l member
    obtain ⟨p, stored, assigned⟩ := (reviewing l.user).mp (List.mem_map_of_mem member)
    exact describes_load keyed statuses rows users ((linked.people stored).2 l.user assigned)
      (counts l member)
  · rw [← assigned, ← length_reviews]
    exact (tallied_loadsOf ps us).sum_total
  · exact pairwise_loadsOf ps us

theorem of_answers (keyed : t.Keyed) (linked : t.Linked) (rows : ps.Perm t.pullRequests)
    (us : List UserRow) (ts : List TeamRoster) :
    (∃ s, of ps us ts = .ok s) ∨ 2 ^ 1023 ≤ t.users.length ∧ of ps us ts =
      .error (.fault ⟨.overflow, "integer division result too large for a float"⟩) := by
  unfold of
  obtain ⟨mean, answers⟩ | ⟨many, fails⟩ := average_answers keyed linked rows
  · rw [answers]
    exact .inl ⟨_, rfl⟩
  · rw [fails]
    exact .inr ⟨many, rfl⟩

end Statistics

end ReviewRota
