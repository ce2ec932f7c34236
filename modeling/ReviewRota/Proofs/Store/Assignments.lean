import ReviewRota.Proofs.Sorting
import ReviewRota.Store.PullRequests

/-!
# Assignments as rows

The reviewers of a pull request are so many rows with ascending positions, and a read puts them back
into the order of the positions. What comes back is the list that was written, wherever the rows
stand in the table and whichever other rows stand between them. That a user is joined at most once
with a pull request is due to the key of the rows alone.
-/

namespace ReviewRota

namespace Tables

/-- The rows of reviewers in the order of the list, numbered from a position on. -/
def numbered (pullRequest : String) (position : Nat) : List String → List Assignment
  | [] => []
  | reviewer :: reviewers =>
    ⟨pullRequest, reviewer, position⟩ :: numbered pullRequest (position + 1) reviewers

def addAssignments (t : Tables) (as : List Assignment) : Tables :=
  { t with assigned := t.assigned ++ as }

/-- The reviewers of a pull request replaced by others. -/
def setReviewers (t : Tables) (id : String) (reviewers : List String) : Tables :=
  (t.unassign id).addAssignments (numbered id 0 reviewers)

variable {t : Tables} {k id : String} {n : Nat} {rs : List String}

/-! ### Numbered rows -/

theorem pullRequest_of_mem_numbered {a : Assignment} (member : a ∈ numbered k n rs) :
    a.pullRequest = k := by
  induction rs generalizing n with
  | nil => cases member
  | cons r rs ih =>
    rcases List.mem_cons.mp member with rfl | later
    · rfl
    · exact ih later

@[simp] theorem map_reviewer_numbered (k : String) (n : Nat) (rs : List String) :
    (numbered k n rs).map Assignment.reviewer = rs := by
  induction rs generalizing n with
  | nil => rfl
  | cons r rs ih => simp [numbered, ih]

theorem le_position_of_mem_numbered {a : Assignment} (member : a ∈ numbered k n rs) :
    n ≤ a.position := by
  induction rs generalizing n with
  | nil => cases member
  | cons r rs ih =>
    rcases List.mem_cons.mp member with rfl | later
    · exact le_rfl
    · exact Nat.le_of_succ_le (ih later)

theorem pairwise_position_numbered :
    (numbered k n rs).Pairwise fun a b => a.position < b.position := by
  induction rs generalizing n with
  | nil => exact .nil
  | cons r rs ih =>
    exact List.pairwise_cons.mpr ⟨fun a later => le_position_of_mem_numbered later, ih⟩

theorem filter_numbered (k : String) (n : Nat) (rs : List String) (id : String) :
    (numbered k n rs).filter (fun a => a.pullRequest = id) =
      if id = k then numbered k n rs else [] := by
  split
  · rename_i same
    refine List.filter_eq_self.mpr fun a member => ?_
    simp [pullRequest_of_mem_numbered member, same]
  · rename_i other
    refine List.filter_eq_nil_iff.mpr fun a member => ?_
    simpa [pullRequest_of_mem_numbered member] using Ne.symm other

/-! ### Reading in order -/

theorem position_order (a b : Assignment) :
    decide (a.position ≤ b.position) = true ↔ a.position ≤ b.position := decide_eq_true_iff

theorem perm_insertInPosition (a : Assignment) (as : List Assignment) :
    (insertInPosition a as).Perm (a :: as) := by
  induction as with
  | nil => exact .refl _
  | cons b as ih =>
    unfold insertInPosition
    split
    · exact .refl _
    · exact (ih.cons b).trans (.swap a b as)

theorem pairwise_insertInPosition (a : Assignment) {as : List Assignment}
    (ascends : as.Pairwise fun a b => a.position ≤ b.position) :
    (insertInPosition a as).Pairwise fun a b => a.position ≤ b.position := by
  induction as with
  | nil => exact List.pairwise_singleton _ _
  | cons b as ih =>
    obtain ⟨least, ascends'⟩ := List.pairwise_cons.mp ascends
    unfold insertInPosition
    split
    · rename_i below
      refine List.pairwise_cons.mpr ⟨fun c member => ?_, ascends⟩
      rcases List.mem_cons.mp member with rfl | later
      · exact below
      · exact below.trans (least c later)
    · rename_i above
      refine List.pairwise_cons.mpr ⟨fun c member => ?_, ih ascends'⟩
      rcases List.mem_cons.mp ((perm_insertInPosition a as).mem_iff.mp member) with rfl | later
      · exact (Nat.lt_of_not_le above).le
      · exact least c later

/-- Among the assignments of one position, the inserted one comes first. -/
theorem filter_insertInPosition (a : Assignment) (as : List Assignment) (n : Nat) :
    (insertInPosition a as).filter (fun b => b.position = n) =
      (a :: as).filter fun b => b.position = n := by
  induction as with
  | nil => rfl
  | cons b as ih =>
    unfold insertInPosition
    split
    · rfl
    · rename_i above
      rw [List.filter_cons, ih]
      by_cases first : a.position = n
      · have second : b.position ≠ n := by omega
        simp [first, second]
      · simp [List.filter_cons, first]

theorem inPosition_eq_mergeSort (as : List Assignment) :
    inPosition as = as.mergeSort fun a b => decide (a.position ≤ b.position) := by
  have ascends : (inPosition as).Pairwise fun a b => a.position ≤ b.position := by
    induction as with
    | nil => exact .nil
    | cons a as ih => exact pairwise_insertInPosition a ih
  have parts (n : Nat) : (inPosition as).filter (fun a => a.position = n) =
      as.filter fun a => a.position = n := by
    clear ascends
    induction as with
    | nil => rfl
    | cons a as ih =>
      show (insertInPosition a (inPosition as)).filter _ = _
      rw [filter_insertInPosition, List.filter_cons, List.filter_cons, ih]
  refine eq_of_pairwise_le Assignment.position ascends
    (pairwise_le_mergeSort Assignment.position position_order as) fun n => ?_
  rw [parts, filter_key_mergeSort Assignment.position position_order]

theorem perm_inPosition (as : List Assignment) : (inPosition as).Perm as :=
  inPosition_eq_mergeSort as ▸ List.mergeSort_perm _ _

/-- In whatever order the rows are found, their positions put them back. -/
theorem inPosition_of_perm {as : List Assignment} (rows : as.Perm (numbered k n rs)) :
    inPosition as = numbered k n rs := by
  have ascending := @pairwise_position_numbered k n rs
  have distinct : ((numbered k n rs).map Assignment.position).Nodup :=
    List.pairwise_map.mpr (ascending.imp Nat.ne_of_lt)
  have perm : (inPosition as).Perm (numbered k n rs) := (perm_inPosition as).trans rows
  have sorted := pairwise_le_mergeSort Assignment.position position_order as
  rw [← inPosition_eq_mergeSort] at sorted
  -- No two of the rows share a position, so that they ascend in one order only.
  refine perm.eq_of_pairwise (fun a b first second below above => ?_) sorted
    (ascending.imp Nat.le_of_lt)
  exact List.inj_on_of_nodup_map distinct (perm.mem_iff.mp first) second
    (Nat.le_antisymm below above)

theorem inPosition_filter (as : List Assignment) (keep : Assignment → Bool) :
    inPosition (as.filter keep) = (inPosition as).filter keep := by
  rw [inPosition_eq_mergeSort, inPosition_eq_mergeSort,
    mergeSort_filter Assignment.position position_order]

/-- Rows that are numbered along a list are read as this list. -/
theorem reviewersOf_of_perm
    (rows : (t.assigned.filter fun a => a.pullRequest = id).Perm (numbered id n rs)) :
    t.reviewersOf id = rs := by
  rw [reviewersOf, inPosition_of_perm rows, map_reviewer_numbered]

/-- The list that was written comes back, and no other pull request notices. -/
theorem reviewersOf_setReviewers (t : Tables) (k : String) (rs : List String) (id : String) :
    (t.setReviewers k rs).reviewersOf id = if id = k then rs else t.reviewersOf id := by
  -- Of the pull request itself the rows written last are left, of every other one all rows.
  have rows : (t.setReviewers k rs).assigned.filter (fun a => a.pullRequest = id) =
      if id = k then numbered k 0 rs else t.assigned.filter fun a => a.pullRequest = id := by
    simp only [setReviewers, addAssignments, unassign, List.filter_append, List.filter_filter,
      filter_numbered]
    split
    · rename_i same
      subst same
      simp
    · rename_i other
      rw [List.append_nil]
      refine List.filter_congr fun a _ => ?_
      by_cases hit : a.pullRequest = id <;> simp [hit, other]
  split
  · rename_i same
    subst same
    exact reviewersOf_of_perm (by rw [rows, if_pos rfl])
  · rename_i other
    rw [reviewersOf, rows, if_neg other, reviewersOf]

@[simp] theorem mem_reviewersOf : k ∈ t.reviewersOf id ↔ t.HasAssignment id k := by
  simp [reviewersOf, (perm_inPosition _).mem_iff, HasAssignment, and_assoc]

/-- What is fetched for several pull requests holds the reviewers of each of them, in order. -/
theorem withReviewers_assignedTo {ids : List String} {h : PullRequestHead} (asked : h.id ∈ ids) :
    PullRequests.withReviewers (t.assignedTo ids) h = t.whole h := by
  have rows : (t.assignedTo ids).filter (fun a => a.pullRequest = h.id) =
      inPosition (t.assigned.filter fun a => a.pullRequest = h.id) := by
    rw [assignedTo, ← inPosition_filter, List.filter_filter]
    congr 1
    refine List.filter_congr fun a _ => ?_
    by_cases hit : a.pullRequest = h.id <;> simp [hit, asked]
  rw [PullRequests.withReviewers, rows]
  rfl

/-! ### Joining -/

/-- Nothing makes the rows of the join distinct: a pull request comes as often as it has assignments
of the reviewer. -/
theorem count_joined (t : Tables) (reviewer : String) (h : PullRequestHead) :
    (t.joined reviewer).count h =
      t.heads.count h * t.assigned.countP fun a =>
        a.pullRequest = h.id ∧ a.reviewer = reviewer := by
  unfold joined
  induction t.heads with
  | nil => simp
  | cons g hs ih =>
    rw [List.flatMap_cons, List.count_append, ih, List.count_cons]
    by_cases same : g = h
    · subst same
      simp [List.countP_eq_length_filter, Nat.add_mul, Nat.add_comm]
    · simp [same, List.count_replicate]

theorem Keyed.eq_of_pair (keyed : t.Keyed) {a b : Assignment} (first : a ∈ t.assigned)
    (second : b ∈ t.assigned) (pullRequest : a.pullRequest = b.pullRequest)
    (reviewer : a.reviewer = b.reviewer) : a = b :=
  List.inj_on_of_nodup_map keyed.assigned first second (Prod.ext pullRequest reviewer)

theorem Keyed.pullRequests_of_reviewer (keyed : t.Keyed) (reviewer : String) :
    ((t.assigned.filter fun a => a.reviewer = reviewer).map Assignment.pullRequest).Nodup := by
  refine List.Nodup.map_on (fun a first b second same => ?_) (keyed.assigned.of_map.filter _)
  simp only [List.mem_filter, decide_eq_true_eq] at first second
  exact keyed.eq_of_pair first.1 second.1 same (first.2.trans second.2.symm)

/-- The rows of one pull request are of different reviewers. -/
theorem Keyed.reviewers_of_pullRequest (keyed : t.Keyed) (id : String) :
    ((t.assigned.filter fun a => a.pullRequest = id).map Assignment.reviewer).Nodup := by
  refine List.Nodup.map_on (fun a first b second same => ?_) (keyed.assigned.of_map.filter _)
  simp only [List.mem_filter, decide_eq_true_eq] at first second
  exact keyed.eq_of_pair first.1 second.1 (first.2.trans second.2.symm) same

/-- Each pair stands in one row at most. -/
theorem Keyed.filter_assigned (keyed : t.Keyed) (id reviewer : String) :
    (t.assigned.filter fun a => a.pullRequest = id ∧ a.reviewer = reviewer).length =
      if t.HasAssignment id reviewer then 1 else 0 := by
  have count : (t.assigned.map fun a => (a.pullRequest, a.reviewer)).count (id, reviewer) =
      (t.assigned.filter fun a => a.pullRequest = id ∧ a.reviewer = reviewer).length := by
    rw [List.count, List.countP_map, List.countP_eq_length_filter]
    congr 2
    ext a
    exact Bool.eq_iff_iff.mpr (by simp)
  rw [← count, keyed.assigned.count]
  simp [HasAssignment]

/-- Under the key, the join picks the pull requests that have the user among their reviewers. -/
theorem Keyed.joined_eq (keyed : t.Keyed) (reviewer : String) :
    t.joined reviewer = t.heads.filter fun h => reviewer ∈ t.reviewersOf h.id := by
  unfold joined
  induction t.heads with
  | nil => rfl
  | cons h hs ih =>
    rw [List.flatMap_cons, ih, List.map_const', keyed.filter_assigned]
    by_cases assigned : t.HasAssignment h.id reviewer <;> simp [assigned]

end Tables

end ReviewRota
