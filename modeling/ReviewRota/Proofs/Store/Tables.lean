import ReviewRota.Proofs.Store.Assignments

/-!
# Rows under writes

What a lookup by key finds after a write, and that the writes keep the keys. A change that leaves
the id of a row alone changes what is found under that id and nothing else. A pull request is
written to two tables, and what is read of it afterwards is the row that was to be written.
-/

namespace ReviewRota

theorem find?_key_eq_some_iff {α κ : Type} [DecidableEq κ] (key : α → κ) {rows : List α}
    (nodup : (rows.map key).Nodup) {k : κ} {a : α} :
    rows.find? (fun r => key r = k) = some a ↔ a ∈ rows ∧ key a = k := by
  constructor
  · intro found
    exact ⟨List.mem_of_find?_eq_some found, by simpa using List.find?_some found⟩
  · rintro ⟨member, rfl⟩
    cases found : rows.find? (fun r => key r = key a) with
    | none =>
      have other := List.find?_eq_none.mp found a member
      simp at other
    | some b =>
      have same : key b = key a := by simpa using List.find?_some found
      rw [List.inj_on_of_nodup_map nodup (List.mem_of_find?_eq_some found) member same]

theorem find?_map_ite_key {α κ : Type} [DecidableEq κ] (key : α → κ) (rows : List α) (k l : κ)
    (f : α → α) (keeps : ∀ a, key a = k → key (f a) = k) :
    (rows.map (fun a => if key a = k then f a else a)).find? (fun a => key a = l) =
      if l = k then (rows.find? (fun a => key a = l)).map f
      else rows.find? (fun a => key a = l) := by
  induction rows with
  | nil => simp
  | cons a rows ih =>
    have kept : key (if key a = k then f a else a) = key a := by
      split
      · simp [*]
      · rfl
    by_cases hit : key a = l
    · by_cases target : l = k
      · simp [hit, target, keeps]
      · simp [hit, target]
    · simp only [List.map_cons, List.find?_cons, kept, hit, decide_false, ih]

theorem map_ite_key {α κ : Type} [DecidableEq κ] (key : α → κ) (rows : List α) (k : κ)
    (f : α → α) (keeps : ∀ a, key a = k → key (f a) = k) :
    (rows.map (fun a => if key a = k then f a else a)).map key = rows.map key := by
  rw [List.map_map]
  apply List.map_congr_left
  intro a _
  by_cases h : key a = k <;> simp [h, keeps]

namespace Tables

variable {t : Tables} {id : String}

/-! ### Pull requests and their reviewers -/

theorem head?_mem {h : PullRequestHead} (found : t.head? id = some h) : h ∈ t.heads ∧ h.id = id :=
  ⟨List.mem_of_find?_eq_some found, by simpa using List.find?_some found⟩

theorem pullRequest?_eq (t : Tables) (id : String) : t.pullRequest? id = (t.head? id).map t.whole :=
  List.find?_map

theorem isSome_pullRequest? (t : Tables) (id : String) :
    (t.pullRequest? id).isSome = (t.head? id).isSome := by
  rw [pullRequest?_eq, Option.isSome_map]

theorem pullRequest?_eq_none_iff : t.pullRequest? id = none ↔ t.head? id = none := by
  rw [pullRequest?_eq, Option.map_eq_none_iff]

theorem id_ne_of_fresh (fresh : t.pullRequest? id = none) {h : PullRequestHead}
    (member : h ∈ t.heads) : h.id ≠ id := by
  simpa using List.find?_eq_none.mp (pullRequest?_eq_none_iff.mp fresh) h member

theorem pullRequest?_mem {p : PullRequestRow} (h : t.pullRequest? id = some p) :
    p ∈ t.pullRequests ∧ p.id = id :=
  ⟨List.mem_of_find?_eq_some h, by simpa using List.find?_some h⟩

theorem mem_pullRequests {p : PullRequestRow} :
    p ∈ t.pullRequests ↔ p.head ∈ t.heads ∧ p.reviewers = t.reviewersOf p.id := by
  constructor
  · intro member
    obtain ⟨h, stored, rfl⟩ := List.mem_map.mp member
    exact ⟨stored, rfl⟩
  · rintro ⟨stored, reviewers⟩
    refine List.mem_map.mpr ⟨p.head, stored, ?_⟩
    rw [whole, ← reviewers]

theorem map_id_pullRequests (t : Tables) :
    t.pullRequests.map (fun p => p.id) = t.heads.map PullRequestHead.id := List.map_map

theorem Keyed.pullRequests (keyed : t.Keyed) : (t.pullRequests.map fun p => p.id).Nodup :=
  t.map_id_pullRequests ▸ keyed.heads

theorem Keyed.reviewers (keyed : t.Keyed) (p : PullRequestRow) (member : p ∈ t.pullRequests) :
    p.reviewers.Nodup := by
  rw [(mem_pullRequests.mp member).2, reviewersOf]
  exact ((perm_inPosition _).map _).nodup_iff.mpr (keyed.reviewers_of_pullRequest p.id)

theorem pullRequest?_eq_some_iff (keyed : t.Keyed) {p : PullRequestRow} :
    t.pullRequest? id = some p ↔ p ∈ t.pullRequests ∧ p.id = id :=
  find?_key_eq_some_iff (fun p : PullRequestRow => p.id) keyed.pullRequests

theorem whole_eq_of_stored (keyed : t.Keyed) {p : PullRequestRow}
    (stored : t.pullRequest? id = some p) {h : PullRequestHead} (member : h ∈ t.heads)
    (same : h.id = id) : t.whole h = p := by
  have found : t.pullRequest? id = some (t.whole h) :=
    (pullRequest?_eq_some_iff keyed).mpr ⟨List.mem_map_of_mem member, same⟩
  exact Option.some.inj (found.symm.trans stored)

theorem Linked.people (linked : t.Linked) {p : PullRequestRow} (member : p ∈ t.pullRequests) :
    t.HasUser p.author ∧ ∀ r ∈ p.reviewers, t.HasUser r := by
  obtain ⟨stored, reviewers⟩ := mem_pullRequests.mp member
  refine ⟨linked.2.1 p.head stored, fun r assigned => ?_⟩
  rw [reviewers, mem_reviewersOf] at assigned
  obtain ⟨a, row, -, rfl⟩ := assigned
  exact (linked.2.2 a row).2

/-! ### Writing a pull request -/

def addPullRequest (t : Tables) (p : PullRequestRow) : Tables :=
  (t.addHead p.head).setReviewers p.id p.reviewers

/-- The pull request of an id changed as a whole. -/
def modifyPullRequest (t : Tables) (id : String) (f : PullRequestRow → PullRequestRow) : Tables :=
  match t.pullRequest? id with
  | none => t
  | some p => (t.modifyHead id fun h => (f (t.whole h)).head).setReviewers id (f p).reviewers

theorem modifyPullRequest_of_missing (missing : t.pullRequest? id = none)
    (f : PullRequestRow → PullRequestRow) : t.modifyPullRequest id f = t := by
  rw [modifyPullRequest, missing]

theorem modifyPullRequest_of_stored {p : PullRequestRow} (stored : t.pullRequest? id = some p)
    (f : PullRequestRow → PullRequestRow) :
    t.modifyPullRequest id f =
      (t.modifyHead id fun h => (f (t.whole h)).head).setReviewers id (f p).reviewers := by
  rw [modifyPullRequest, stored]

@[simp] theorem users_addPullRequest (t : Tables) (p : PullRequestRow) :
    (t.addPullRequest p).users = t.users := rfl

@[simp] theorem teams_addPullRequest (t : Tables) (p : PullRequestRow) :
    (t.addPullRequest p).teams = t.teams := rfl

@[simp] theorem users_modifyPullRequest (t : Tables) (id : String)
    (f : PullRequestRow → PullRequestRow) : (t.modifyPullRequest id f).users = t.users := by
  unfold modifyPullRequest
  split <;> rfl

@[simp] theorem teams_modifyPullRequest (t : Tables) (id : String)
    (f : PullRequestRow → PullRequestRow) : (t.modifyPullRequest id f).teams = t.teams := by
  unfold modifyPullRequest
  split <;> rfl

/-- Where no assignment leads to an id, all of them stay when it is taken. -/
theorem assigned_addPullRequest (linked : t.Linked) {p : PullRequestRow}
    (fresh : t.pullRequest? p.id = none) :
    (t.addPullRequest p).assigned = t.assigned ++ numbered p.id 0 p.reviewers := by
  have others : t.assigned.filter (fun a => a.pullRequest ≠ p.id) = t.assigned := by
    refine List.filter_eq_self.mpr fun a member => decide_eq_true fun same => ?_
    obtain ⟨h, stored, equal⟩ := (linked.2.2 a member).1
    exact id_ne_of_fresh fresh stored (equal.trans same)
  show t.assigned.filter (fun a => a.pullRequest ≠ p.id) ++ _ = _
  rw [others]

theorem heads_modifyPullRequest {p q : PullRequestRow} (stored : t.pullRequest? p.id = some p) :
    (t.modifyPullRequest p.id fun _ => q).heads =
      t.heads.map fun h => if h.id = p.id then q.head else h := by
  rw [modifyPullRequest_of_stored stored]
  rfl

theorem assigned_modifyPullRequest {p q : PullRequestRow} (stored : t.pullRequest? p.id = some p) :
    (t.modifyPullRequest p.id fun _ => q).assigned =
      t.assigned.filter (fun a => a.pullRequest ≠ p.id) ++ numbered p.id 0 q.reviewers := by
  rw [modifyPullRequest_of_stored stored]
  rfl

theorem pullRequest?_congr {t u : Tables} (h : u.pullRequests = t.pullRequests) (id : String) :
    u.pullRequest? id = t.pullRequest? id := by
  unfold pullRequest?
  rw [h]

theorem whole_setReviewers (t : Tables) (k : String) (rs : List String) (h : PullRequestHead) :
    (t.setReviewers k rs).whole h = if h.id = k then ⟨h, rs⟩ else t.whole h := by
  rw [whole, reviewersOf_setReviewers]
  split <;> rfl

theorem pullRequests_addPullRequest {p : PullRequestRow} (fresh : t.pullRequest? p.id = none) :
    (t.addPullRequest p).pullRequests = t.pullRequests ++ [p] := by
  have old : t.heads.map (t.addPullRequest p).whole = t.heads.map t.whole :=
    List.map_congr_left fun h member =>
      (whole_setReviewers _ _ _ h).trans (if_neg (id_ne_of_fresh fresh member))
  have new : (t.addPullRequest p).whole p.head = p :=
    (whole_setReviewers _ _ _ p.head).trans (if_pos rfl)
  show (t.heads ++ [p.head]).map (t.addPullRequest p).whole = _
  rw [List.map_append, List.map_singleton, old, new]
  rfl

theorem mem_pullRequests_addPullRequest {p q : PullRequestRow}
    (fresh : t.pullRequest? p.id = none) :
    q ∈ (t.addPullRequest p).pullRequests ↔ q ∈ t.pullRequests ∨ q = p := by
  rw [pullRequests_addPullRequest fresh, List.mem_append, List.mem_singleton]

theorem pullRequest?_addPullRequest {p : PullRequestRow} (fresh : t.pullRequest? p.id = none)
    (id : String) :
    (t.addPullRequest p).pullRequest? id =
      (t.pullRequest? id).or (if p.id = id then some p else none) := by
  rw [pullRequest?, pullRequests_addPullRequest fresh]
  by_cases h : p.id = id <;> simp [pullRequest?, List.find?_append, h]

theorem head?_modifyHead {k : String} {f : PullRequestHead → PullRequestHead}
    (keeps : ∀ h, h.id = k → (f h).id = k) (t : Tables) (id : String) :
    (t.modifyHead k f).head? id = if id = k then (t.head? id).map f else t.head? id :=
  find?_map_ite_key PullRequestHead.id t.heads k id f keeps

section

variable {k : String} {f : PullRequestRow → PullRequestRow} (keeps : ∀ p, p.id = k → (f p).id = k)
include keeps

theorem pullRequest?_modifyPullRequest (t : Tables) (id : String) :
    (t.modifyPullRequest k f).pullRequest? id =
      if id = k then (t.pullRequest? id).map f else t.pullRequest? id := by
  cases stored : t.pullRequest? k with
  | none =>
    rw [modifyPullRequest_of_missing stored]
    split
    · rename_i same
      rw [same, stored, Option.map_none]
    · rfl
  | some p =>
    rw [modifyPullRequest_of_stored stored, pullRequest?_eq]
    show (Option.map _ ((t.modifyHead k fun h => (f (t.whole h)).head).head? id)) = _
    rw [head?_modifyHead fun h same => keeps (t.whole h) same, pullRequest?_eq t]
    by_cases same : id = k
    · rw [if_pos same, if_pos same, same]
      rw [pullRequest?_eq] at stored
      obtain ⟨h, found, rfl⟩ := Option.map_eq_some_iff.mp stored
      have kept : (f (t.whole h)).id = k := keeps _ (head?_mem found).2
      simp only [found, Option.map_some, whole_setReviewers, if_pos kept]
    · rw [if_neg same, if_neg same]
      refine Option.map_congr fun h found => ?_
      have other : h.id ≠ k := fun hit => same ((head?_mem found).2 ▸ hit)
      rw [whole_setReviewers, if_neg other]
      rfl

theorem pullRequest?_changed {p : PullRequestRow} (stored : t.pullRequest? k = some p) :
    (t.modifyPullRequest k f).pullRequest? k = some (f p) := by
  rw [pullRequest?_modifyPullRequest keeps, if_pos rfl, stored, Option.map_some]

theorem pullRequests_modifyPullRequest (keyed : t.Keyed) :
    (t.modifyPullRequest k f).pullRequests =
      t.pullRequests.map fun p => if p.id = k then f p else p := by
  cases stored : t.pullRequest? k with
  | none =>
    rw [modifyPullRequest_of_missing stored, pullRequests, List.map_map]
    refine List.map_congr_left fun h member => ?_
    exact (if_neg (id_ne_of_fresh stored member)).symm
  | some p =>
    rw [modifyPullRequest_of_stored stored]
    show (List.map _ (t.heads.map _)) = _
    rw [pullRequests, List.map_map, List.map_map]
    refine List.map_congr_left fun h member => ?_
    simp only [Function.comp_apply, whole_setReviewers]
    by_cases same : h.id = k
    · -- The change was made for the row that was found, and no other row has its id.
      obtain rfl := whole_eq_of_stored keyed stored member same
      rw [if_pos same, if_pos (keeps _ same)]
      exact (if_pos same).symm
    · rw [if_neg same, if_neg same]
      exact (if_neg same).symm

theorem length_modifyPullRequest (keyed : t.Keyed) :
    (t.modifyPullRequest k f).pullRequests.length = t.pullRequests.length := by
  rw [pullRequests_modifyPullRequest keeps keyed, List.length_map]

theorem mem_modifyPullRequest (keyed : t.Keyed) {p : PullRequestRow} :
    p ∈ (t.modifyPullRequest k f).pullRequests ↔
      ∃ q ∈ t.pullRequests, (if q.id = k then f q else q) = p := by
  rw [pullRequests_modifyPullRequest keeps keyed, List.mem_map]

end

theorem modifyPullRequest_congr (keyed : t.Keyed) {p : PullRequestRow}
    (stored : t.pullRequest? p.id = some p) {f g : PullRequestRow → PullRequestRow}
    (same : f p = g p) : t.modifyPullRequest p.id f = t.modifyPullRequest p.id g := by
  rw [modifyPullRequest_of_stored stored, modifyPullRequest_of_stored stored, same]
  congr 1
  simp only [modifyHead]
  congr 1
  refine List.map_congr_left fun h member => ?_
  split
  · rename_i equal
    obtain rfl := whole_eq_of_stored keyed stored member equal
    rw [same]
  · rfl

/-! ### Users -/

theorem hasUser_iff_mem_map : t.HasUser id ↔ id ∈ t.users.map UserRow.id := by
  simp [HasUser]

/-! ### Keys -/

namespace Keyed

theorem addTeam (keyed : t.Keyed) {name : String} (fresh : ¬t.HasTeam name) :
    (t.addTeam name).Keyed where
  teams := List.nodup_append_comm.mp (List.nodup_cons.mpr ⟨fresh, keyed.teams⟩)
  users := keyed.users
  heads := keyed.heads
  assigned := keyed.assigned

theorem addUser (keyed : t.Keyed) {u : UserRow} (fresh : ¬t.HasUser u.id) :
    (t.addUser u).Keyed where
  teams := keyed.teams
  users := by
    rw [hasUser_iff_mem_map] at fresh
    simpa [Tables.addUser] using
      List.nodup_append_comm.mp (List.nodup_cons.mpr ⟨fresh, keyed.users⟩)
  heads := keyed.heads
  assigned := keyed.assigned

theorem modifyUser (keyed : t.Keyed) (k : String) {f : UserRow → UserRow}
    (keeps : ∀ u, u.id = k → (f u).id = k) : (t.modifyUser k f).Keyed where
  teams := keyed.teams
  users := by
    simpa only [Tables.modifyUser, map_ite_key UserRow.id t.users k f keeps] using keyed.users
  heads := keyed.heads
  assigned := keyed.assigned

theorem addHead (keyed : t.Keyed) {h : PullRequestHead} (fresh : t.head? h.id = none) :
    (t.addHead h).Keyed where
  teams := keyed.teams
  users := keyed.users
  heads := by
    have absent : h.id ∉ t.heads.map PullRequestHead.id := by
      simpa [head?, List.find?_eq_none] using fresh
    simpa [Tables.addHead] using
      List.nodup_append_comm.mp (List.nodup_cons.mpr ⟨absent, keyed.heads⟩)
  assigned := keyed.assigned

theorem modifyHead (keyed : t.Keyed) (k : String) {f : PullRequestHead → PullRequestHead}
    (keeps : ∀ h, h.id = k → (f h).id = k) : (t.modifyHead k f).Keyed where
  teams := keyed.teams
  users := keyed.users
  heads := by
    simpa only [Tables.modifyHead, map_ite_key PullRequestHead.id t.heads k f keeps] using
      keyed.heads
  assigned := keyed.assigned

theorem unassign (keyed : t.Keyed) (k : String) : (t.unassign k).Keyed where
  teams := keyed.teams
  users := keyed.users
  heads := keyed.heads
  assigned := keyed.assigned.sublist (List.filter_sublist.map _)

theorem addAssignment (keyed : t.Keyed) {a : Assignment}
    (fresh : ¬t.HasAssignment a.pullRequest a.reviewer) : (t.addAssignment a).Keyed where
  teams := keyed.teams
  users := keyed.users
  heads := keyed.heads
  assigned := by
    have absent : (a.pullRequest, a.reviewer) ∉
        t.assigned.map fun a => (a.pullRequest, a.reviewer) := by
      simpa [HasAssignment] using fresh
    simpa [Tables.addAssignment] using
      List.nodup_append_comm.mp (List.nodup_cons.mpr ⟨absent, keyed.assigned⟩)

end Keyed

end Tables

end ReviewRota
