import ReviewRota.Proofs.Store.Tables
import ReviewRota.Proofs.Store.Undisturbed
import ReviewRota.Store.PullRequests

/-!
# Pull requests under undisturbed calls

A read finds what is stored, reviewers in order. An update is a comparison and an exchange in one:
it fails and changes nothing unless the version is the stored one, and then the stored pull request
takes on all that the update brings. A creation adds one pull request, under an id that was free. In
both, the rows of the former reviewers go and those of the new ones come, one after the other.
-/

namespace ReviewRota

/-- A row as an update by another one leaves it: author and time of creation stay. -/
def PullRequestRow.overwrittenBy (p q : PullRequestRow) : PullRequestRow :=
  { p with name := q.name, status := q.status, reviewers := q.reviewers, mergedAt := q.mergedAt,
           version := p.version + 1 }

@[simp] theorem PullRequestRow.id_overwrittenBy (p q : PullRequestRow) :
    (p.overwrittenBy q).id = p.id := rfl

namespace PullRequests

variable {w : World}

/-! ### Reading -/

def sought (t : Tables) (id : Value) : Except Failure (Option PullRequestHead) := do
  match ← id.column with
  | some key => return t.head? key
  | none => return none

def found (t : Tables) (id : Value) : Except Failure PullRequestRow := do
  match (← id.column).bind t.pullRequest? with
  | some p => return p
  | none => .error (.refused (missing id))

theorem classified_of_column {v : Value} {e : Failure} (h : v.column = .error e) :
    e.classified = e := by
  unfold Value.column at h
  split at h
  · cases h
  · split at h
    · cases h
    · cases h
      rfl

theorem selectAssignments_ends (unspoiled : w.spoiled = false) (hs : List PullRequestHead) :
    (selectAssignments hs).Ends w
      (.ok (w.tables.assignedTo (hs.map PullRequestHead.id))) w.tables :=
  .read unspoiled _ _

/-- Pull requests that were read are completed to what the tables hold of them. -/
theorem complete_ends (unspoiled : w.spoiled = false) (hs : List PullRequestHead) :
    (complete hs).Ends w (.ok (hs.map w.tables.whole)) w.tables := by
  cases hs with
  | nil => exact .pure []
  | cons h hs =>
    have rows : (h :: hs).map (withReviewers (w.tables.assignedTo
        ((h :: hs).map PullRequestHead.id))) = (h :: hs).map w.tables.whole :=
      List.map_congr_left fun g member =>
        Tables.withReviewers_assignedTo (List.mem_map_of_mem member)
    rw [← rows]
    exact .bind (selectAssignments_ends unspoiled _) fun _ => .pure _

theorem get_ends (unspoiled : w.spoiled = false) (id : Value) :
    (get id).Ends w (found w.tables id) w.tables := by
  have read : (select id).Ends (w.log (.reached (.port .pullRequestGet)))
      (sought w.tables id) w.tables :=
    Act.Ends.read (w := w.log (.reached (.port .pullRequestGet))) unspoiled _ _
  unfold sought at read
  unfold found
  cases column : id.column with
  | error e =>
    rw [column] at read
    exact classified_of_column column ▸ .port_error _ (.bind_error read)
  | ok key =>
    rw [column] at read
    cases key with
    | none => exact .port_refused _ (.bind read fun _ => .refuse _)
    | some key =>
      cases stored : w.tables.head? key with
      | none =>
        simp only [bind, Except.bind, stored] at read
        simp only [bind, Except.bind, Option.bind, Tables.pullRequest?_eq, stored]
        exact .port_refused _ (.bind read fun _ => .refuse _)
      | some h =>
        simp only [bind, Except.bind, stored] at read
        simp only [bind, Except.bind, Option.bind, Tables.pullRequest?_eq, stored]
        have row : withReviewers (w.tables.assignedTo ([h].map PullRequestHead.id)) h =
            w.tables.whole h := Tables.withReviewers_assignedTo List.mem_cons_self
        refine .port _ (.bind read fun j => ?_)
        show Act.Ends _ _ (.ok (w.tables.whole h)) _
        rw [← row]
        exact .bind (selectAssignments_ends (by exact unspoiled) [h]) fun _ => .pure _

theorem found_eq_ok {t : Tables} {id : Value} {p : PullRequestRow} (h : found t id = .ok p) :
    id.column = .ok (some p.id) ∧ t.pullRequest? p.id = some p := by
  unfold found at h
  obtain ⟨key, column, h⟩ := bind_eq_ok_iff.mp h
  split at h
  · rename_i q stored
    cases h
    obtain ⟨key, rfl, stored⟩ := Option.bind_eq_some_iff.mp stored
    obtain rfl := (Tables.pullRequest?_mem stored).2
    exact ⟨column, stored⟩
  · cases h

theorem found_of_absent {t : Tables} {id : Value} {key : String}
    (column : id.column = .ok (some key)) (absent : t.pullRequest? key = none) :
    found t id = .error (.refused (missing id)) := by
  simp [found, column, absent, bind, Except.bind]

theorem found_of_stored {t : Tables} {id : Value} {p : PullRequestRow}
    (column : id.column = .ok (some p.id)) (stored : t.pullRequest? p.id = some p) :
    found t id = .ok p := by
  simp [found, column, stored, bind, Except.bind, pure, Except.pure]

theorem list_ends (unspoiled : w.spoiled = false) :
    list.Ends w (.ok w.tables.pullRequestsInOrder) w.tables := by
  let v := w.log (.reached (.port .pullRequestList))
  have read : (Act.read .selectPullRequests fun t => .ok (Tables.creationOrder t.heads)).Ends v
      (.ok (Tables.creationOrder w.tables.heads)) w.tables := .read (w := v) unspoiled _ _
  exact .port _ (.bind read fun _ => complete_ends (by exact unspoiled) _)

theorem ofReviewer_ends (unspoiled : w.spoiled = false) {id : Value} {key : String}
    (column : id.column = .ok (some key)) :
    (ofReviewer id).Ends w (.ok ((w.tables.reviewedBy key).map w.tables.whole)) w.tables := by
  let v := w.log (.reached (.port .pullRequestsOfReviewer))
  let rows (t : Tables) : Except Failure (List PullRequestHead) := do
    match ← id.column with
    | some id => return t.reviewedBy id
    | none => return t.unreviewed
  have read : (Act.read .selectReviewed rows).Ends v (rows w.tables) w.tables :=
    .read (w := v) unspoiled _ _
  have answers : rows w.tables = .ok (w.tables.reviewedBy key) := by
    simp only [rows, column]
    rfl
  rw [answers] at read
  exact .port _ (.bind read fun _ => complete_ends (by exact unspoiled) _)

/-! ### Writing reviewers -/

def repeatedReviewer : DatabaseError :=
  .integrity ("UNIQUE constraint failed: review_assignments.pull_request_id, " ++
    "review_assignments.reviewer_id")

theorem mapM_column (rs : List String) :
    (rs.map fun r => Value.text (.plain r)).mapM Value.column = .ok (rs.map some) := by
  induction rs with
  | nil => rfl
  | cons r rs ih =>
    rw [List.map_cons, List.mapM_cons, ih]
    rfl

theorem assign_eq (k r : String) (n : Nat) (t : Tables) :
    assign (some k) (some r) n t =
      if t.HasAssignment k r then .error (.database repeatedReviewer)
      else .ok (t.addAssignment ⟨k, r, n⟩) := rfl

/-- Rows are numbered one after the other until one of them repeats another. -/
theorem assignFrom_eq (k : String) (n : Nat) (rs : List String) (t : Tables) :
    assignFrom (some k) n (rs.map some) t =
      if rs.Nodup ∧ ∀ r ∈ rs, ¬t.HasAssignment k r then
        .ok (t.addAssignments (Tables.numbered k n rs))
      else .error (.database repeatedReviewer) := by
  induction rs generalizing n t with
  | nil => simp [assignFrom, Tables.numbered, Tables.addAssignments]
  | cons r rs ih =>
    rw [List.map_cons, assignFrom, assign_eq]
    by_cases taken : t.HasAssignment k r
    · rw [if_pos taken, if_neg fun fresh => fresh.2 r List.mem_cons_self taken]
      rfl
    · rw [if_neg taken]
      show assignFrom (some k) (n + 1) (rs.map some) (t.addAssignment ⟨k, r, n⟩) = _
      -- For those who come later in the list, the row that was just added is one to be repeated.
      have later (s : String) : (t.addAssignment ⟨k, r, n⟩).HasAssignment k s ↔
          t.HasAssignment k s ∨ r = s := by
        simp [Tables.HasAssignment, Tables.addAssignment, or_and_right, exists_or]
      have rows : (t.addAssignment ⟨k, r, n⟩).addAssignments (Tables.numbered k (n + 1) rs) =
          t.addAssignments (Tables.numbered k n (r :: rs)) := by
        simp [Tables.addAssignment, Tables.addAssignments, Tables.numbered]
      rw [ih, rows]
      congr 1
      simp only [later, not_or, List.nodup_cons, List.forall_mem_cons, eq_iff_iff]
      constructor
      · rintro ⟨distinct, fresh⟩
        exact ⟨⟨fun again => (fresh r again).2 rfl, distinct⟩, taken, fun s member =>
          (fresh s member).1⟩
      · rintro ⟨⟨once, distinct⟩, -, fresh⟩
        exact ⟨distinct, fun s member => ⟨fresh s member, fun same => once (same ▸ member)⟩⟩

section

variable {id : Value} {key : String} {rs : List String}

theorem deleteReviewers_ends (unspoiled : w.spoiled = false) (inside : 0 < w.depth)
    (column : id.column = .ok (some key)) :
    (deleteReviewers id).Ends w (.ok ()) (w.tables.unassign key) := by
  refine .write unspoiled inside _ ?_
  rw [column]
  rfl

theorem insertReviewers_effect (column : id.column = .ok (some key)) (rs : List String)
    (t : Tables) :
    (do
      let id ← id.column
      let reviewers ← (rs.map fun r => Value.text (.plain r)).mapM Value.column
      return ((), ← assignFrom id 0 reviewers t)) =
    if rs.Nodup ∧ ∀ r ∈ rs, ¬t.HasAssignment key r then
      .ok ((), t.addAssignments (Tables.numbered key 0 rs))
    else (.error (.database repeatedReviewer) : Except Failure (Unit × Tables)) := by
  rw [column, mapM_column]
  show (do return ((), ← assignFrom (some key) 0 (rs.map some) t)) = _
  rw [assignFrom_eq]
  split <;> rfl

theorem not_hasAssignment_unassign (t : Tables) (key r : String) :
    ¬(t.unassign key).HasAssignment key r := by
  rintro ⟨a, member, same, -⟩
  exact of_decide_eq_true (List.mem_filter.mp member).2 same

theorem insertReviewers_ends (unspoiled : w.spoiled = false) (inside : 0 < w.depth)
    (column : id.column = .ok (some key)) (distinct : rs.Nodup)
    (fresh : ∀ r ∈ rs, ¬w.tables.HasAssignment key r) :
    (insertReviewers id (rs.map fun r => .text (.plain r))).Ends w (.ok ())
      (w.tables.addAssignments (Tables.numbered key 0 rs)) :=
  .write unspoiled inside _
    ((insertReviewers_effect column rs w.tables).trans (if_pos ⟨distinct, fresh⟩))

theorem insertReviewers_fails (unspoiled : w.spoiled = false)
    (column : id.column = .ok (some key)) (repeated : ¬rs.Nodup) :
    (insertReviewers id (rs.map fun r => .text (.plain r))).Fails w (.database repeatedReviewer) :=
  .write unspoiled _ ((insertReviewers_effect column rs w.tables).trans
    (if_neg fun fresh => repeated fresh.1))

theorem writeReviewers_ends (unspoiled : w.spoiled = false) (inside : 0 < w.depth)
    (column : id.column = .ok (some key)) (distinct : rs.Nodup) :
    (writeReviewers id (rs.map fun r => .text (.plain r))).Ends w (.ok ())
      (w.tables.setReviewers key rs) := by
  have deleted := deleteReviewers_ends (w := w.log (.reached .reviewerWriting)) unspoiled inside
    column
  refine .visiting _ (.bind deleted fun j => ?_)
  cases rs with
  | nil =>
    have none : w.tables.setReviewers key [] = w.tables.unassign key := by
      simp [Tables.setReviewers, Tables.addAssignments, Tables.numbered]
    rw [none]
    exact .pure ()
  | cons r rs =>
    exact insertReviewers_ends (by exact unspoiled) (by exact inside) column distinct
      fun s _ => not_hasAssignment_unassign _ key s

theorem writeReviewers_fails (unspoiled : w.spoiled = false) (inside : 0 < w.depth)
    (column : id.column = .ok (some key)) (repeated : ¬rs.Nodup) :
    (writeReviewers id (rs.map fun r => .text (.plain r))).Fails w
      (.database repeatedReviewer) := by
  have deleted := deleteReviewers_ends (w := w.log (.reached .reviewerWriting)) unspoiled inside
    column
  refine .visiting _ (.bind deleted fun j => ?_)
  cases rs with
  | nil => exact absurd .nil repeated
  | cons r rs => exact insertReviewers_fails (by exact unspoiled) column repeated

end

/-! ### Updating -/

/-- How an update by the row `q` ends, and with which tables. -/
inductive UpdateOutcome (t : Tables) (q : PullRequestRow) :
    Except Failure PullRequest → Tables → Prop
  | missing (absent : t.pullRequest? q.id = none) :
      UpdateOutcome t q (.error (.refused (missing q.id))) t
  | outdated {p : PullRequestRow} (stored : t.pullRequest? q.id = some p)
      (stale : p.version ≠ q.version) : UpdateOutcome t q (.error (.refused (outdated q.id))) t
  | rejected {p : PullRequestRow} (stored : t.pullRequest? q.id = some p)
      (current : p.version = q.version) (e : Failure) : UpdateOutcome t q (.error e) t
  | written {p : PullRequestRow} (stored : t.pullRequest? q.id = some p)
      (current : p.version = q.version) (distinct : q.reviewers.Nodup) :
      UpdateOutcome t q (.ok { q.entity with version := q.version + 1 })
        (t.modifyPullRequest q.id (·.overwrittenBy q))

/-- The part of an update that leaves the reviewers alone. -/
def overwriting (q : PullRequestRow) (h : PullRequestHead) : PullRequestHead :=
  { h with name := q.name, status := q.status, mergedAt := q.mergedAt, version := h.version + 1 }

theorem any_version {t : Tables} {id : String} {version : Int} :
    (t.head? id).any (fun h => h.version = version) =
      (t.pullRequest? id).any fun p => p.version = version := by
  rw [Tables.pullRequest?_eq]
  cases t.head? id <;> rfl

theorem overwrite_ends (unspoiled : w.spoiled = false) (inside : 0 < w.depth) {p q : PullRequestRow}
    (stored : w.tables.pullRequest? q.id = some p) (current : p.version = q.version) :
    (overwrite q.entity).Ends w (.ok true) (w.tables.modifyHead q.id (overwriting q)) := by
  refine .write unspoiled inside _ (if_pos ?_)
  show (w.tables.head? q.id).any (fun h => h.version = q.version) = true
  rw [any_version, stored]
  exact decide_eq_true current

theorem overwrite_ends_false (unspoiled : w.spoiled = false) (inside : 0 < w.depth)
    {q : PullRequestRow} (stale : ∀ p ∈ w.tables.pullRequest? q.id, p.version ≠ q.version) :
    (overwrite q.entity).Ends w (.ok false) w.tables := by
  refine .write unspoiled inside _ (if_neg ?_)
  show ¬(w.tables.head? q.id).any (fun h => h.version = q.version) = true
  rw [any_version]
  cases stored : w.tables.pullRequest? q.id with
  | none => exact Bool.false_ne_true
  | some p => exact mt of_decide_eq_true (stale p stored)

def stored (t : Tables) (id : Value) : Except Failure Bool := do
  match ← id.column with
  | some key => return (t.head? key).isSome
  | none => return false

theorem isStored_ends (unspoiled : w.spoiled = false) {id : Value} {key : String}
    (column : id.column = .ok (some key)) :
    (isStored id).Ends w (.ok (w.tables.pullRequest? key).isSome) w.tables := by
  have read : (isStored id).Ends w (stored w.tables id) w.tables := .read unspoiled _ _
  rw [stored, column] at read
  rw [Tables.isSome_pullRequest?]
  exact read

def exchange (p : PullRequest) : Act Unit := do
  if ← overwrite p then writeReviewers p.id p.reviewers
  else if ← isStored p.id then .refuse (outdated p.id)
  else .refuse (missing p.id)

theorem exchange_missing (unspoiled : w.spoiled = false) (inside : 0 < w.depth)
    {q : PullRequestRow} (absent : w.tables.pullRequest? q.id = none) :
    (exchange q.entity).Fails w (.refused (missing q.id)) := by
  have overwritten := overwrite_ends_false (q := q) unspoiled inside (by simp [absent])
  refine .bind overwritten fun j => .bind (isStored_ends (by exact unspoiled) rfl) fun k => ?_
  show Act.Fails (if (w.tables.pullRequest? q.id).isSome then _ else _) _ _
  rw [absent]
  exact (Act.Ends.refuse _).fails

theorem exchange_outdated (unspoiled : w.spoiled = false) (inside : 0 < w.depth)
    {p q : PullRequestRow} (stored : w.tables.pullRequest? q.id = some p)
    (stale : p.version ≠ q.version) : (exchange q.entity).Fails w (.refused (outdated q.id)) := by
  have overwritten := overwrite_ends_false (q := q) unspoiled inside (by simpa [stored] using stale)
  refine .bind overwritten fun j => .bind (isStored_ends (by exact unspoiled) rfl) fun k => ?_
  show Act.Fails (if (w.tables.pullRequest? q.id).isSome then _ else _) _ _
  rw [stored]
  exact (Act.Ends.refuse _).fails

theorem exchange_repeated (unspoiled : w.spoiled = false) (inside : 0 < w.depth)
    {p q : PullRequestRow} (stored : w.tables.pullRequest? q.id = some p)
    (current : p.version = q.version) (repeated : ¬q.reviewers.Nodup) :
    (exchange q.entity).Fails w (.database repeatedReviewer) :=
  .bind (overwrite_ends unspoiled inside stored current) fun _ =>
    writeReviewers_fails (by exact unspoiled) (by exact inside) rfl repeated

theorem exchange_written (unspoiled : w.spoiled = false) (inside : 0 < w.depth)
    {p q : PullRequestRow} (stored : w.tables.pullRequest? q.id = some p)
    (current : p.version = q.version) (distinct : q.reviewers.Nodup) :
    (exchange q.entity).Ends w (.ok ())
      (w.tables.modifyPullRequest q.id (·.overwrittenBy q)) := by
  rw [Tables.modifyPullRequest_of_stored stored]
  exact .bind (overwrite_ends unspoiled inside stored current) fun _ =>
    writeReviewers_ends (by exact unspoiled) (by exact inside) rfl distinct

theorem update_ends_written (unspoiled : w.spoiled = false) {p q : PullRequestRow}
    (stored : w.tables.pullRequest? q.id = some p) (current : p.version = q.version)
    (distinct : q.reviewers.Nodup)
    (linked : w.depth = 0 → (w.tables.modifyPullRequest q.id (·.overwrittenBy q)).Linked) :
    (update q.entity).Ends w (.ok { q.entity with version := q.version + 1 })
      (w.tables.modifyPullRequest q.id (·.overwrittenBy q)) := by
  let v := w.log (.reached (.port .pullRequestUpdate))
  have written := exchange_written (w := v.deeper) unspoiled (Nat.succ_pos _) stored current
    distinct
  exact .port _ (.bind (.atomic written unspoiled linked) fun _ => .pure _)

theorem update_ends (unspoiled : w.spoiled = false) (q : PullRequestRow) :
    ∃ r t, (update q.entity).Ends w r t ∧ UpdateOutcome w.tables q r t := by
  let v := w.log (.reached (.port .pullRequestUpdate))
  have inside : 0 < v.deeper.depth := Nat.succ_pos _
  have refused {r : Refusal} (failed : (exchange q.entity).Fails v.deeper (.refused r)) :
      (update q.entity).Ends w (.error (.refused r)) w.tables :=
    .port_refused _ (.bind_error (.atomic_error failed))
  cases stored : w.tables.pullRequest? q.id with
  | none =>
    exact ⟨_, _, refused (exchange_missing (w := v.deeper) unspoiled inside stored),
      .missing stored⟩
  | some p =>
    by_cases current : p.version = q.version
    · by_cases distinct : q.reviewers.Nodup
      · by_cases dangling : w.depth = 0 ∧ ¬(w.tables.modifyPullRequest q.id
            (·.overwrittenBy q)).Linked
        · have written := exchange_written (w := v.deeper) unspoiled inside stored current distinct
          exact ⟨_, _, .port_error _ (.bind_error
            (.atomic_dangling written unspoiled dangling.1 dangling.2)), .rejected stored current _⟩
        · have linked (outermost : w.depth = 0) :=
            of_not_not fun broken => dangling ⟨outermost, broken⟩
          exact ⟨_, _, update_ends_written unspoiled stored current distinct linked,
            .written stored current distinct⟩
      · have failed := exchange_repeated (w := v.deeper) unspoiled inside stored current distinct
        exact ⟨_, _, .port_error _ (.bind_error (.atomic_error failed)), .rejected stored current _⟩
    · exact ⟨_, _, refused (exchange_outdated (w := v.deeper) unspoiled inside stored current),
        .outdated stored current⟩

/-! ### Creating -/

/-- How the creation of a pull request with the reviewers `rs` ends, and with which tables. -/
inductive CreateOutcome (t : Tables) (p : PullRequest) (rs : List String) (createdAt : Timestamp) :
    Except Failure PullRequest → Tables → Prop
  | rejected (e : Failure) : CreateOutcome t p rs createdAt (.error e) t
  | created {id name author status : String} (fresh : t.pullRequest? id = none)
      (distinct : rs.Nodup) (hid : p.id.column = .ok (some id))
      (hname : p.name.column = .ok (some name)) (hauthor : p.author.column = .ok (some author))
      (hstatus : p.status.column = .ok (some status)) :
      CreateOutcome t p rs createdAt (.ok { p with createdAt := some createdAt, version := 1 })
        (t.addPullRequest ⟨⟨id, name, author, status, createdAt, p.mergedAt, 1⟩, rs⟩)

theorem required_eq_ok {α : Type} {column : String} {v : Option α} {a : α}
    (h : Users.required column v = .ok a) : v = some a := by
  cases v with
  | none => cases h
  | some b => cases h; rfl

def insertion (p : PullRequest) (createdAt : Timestamp) (t : Tables) :
    Except Failure (Unit × Tables) := do
  let id ← p.id.column
  let name ← p.name.column
  let author ← p.author.column
  let status ← p.status.column
  let id ← Users.required "pull_requests.id" id
  let name ← Users.required "pull_requests.name" name
  let author ← Users.required "pull_requests.author_id" author
  let status ← Users.required "pull_requests.status" status
  if (t.head? id).isSome then
    .error (.database (.integrity "UNIQUE constraint failed: pull_requests.id"))
  else return ((), t.addHead ⟨id, name, author, status, createdAt, p.mergedAt, 1⟩)

theorem insert_eq (p : PullRequest) (createdAt : Timestamp) :
    insert p createdAt = .write .insertPullRequest (.ok ()) fun _ => insertion p createdAt := rfl

theorem insertion_eq_ok {p : PullRequest} {createdAt : Timestamp} {t : Tables} {r : Unit × Tables}
    (done : insertion p createdAt t = .ok r) :
    ∃ id name author status, p.id.column = .ok (some id) ∧ p.name.column = .ok (some name) ∧
      p.author.column = .ok (some author) ∧ p.status.column = .ok (some status) ∧
      t.pullRequest? id = none ∧
      r = ((), t.addHead ⟨id, name, author, status, createdAt, p.mergedAt, 1⟩) := by
  obtain ⟨idColumn, hid, done⟩ := bind_eq_ok_iff.mp done
  obtain ⟨nameColumn, hname, done⟩ := bind_eq_ok_iff.mp done
  obtain ⟨authorColumn, hauthor, done⟩ := bind_eq_ok_iff.mp done
  obtain ⟨statusColumn, hstatus, done⟩ := bind_eq_ok_iff.mp done
  obtain ⟨id, sameId, done⟩ := bind_eq_ok_iff.mp done
  obtain ⟨name, sameName, done⟩ := bind_eq_ok_iff.mp done
  obtain ⟨author, sameAuthor, done⟩ := bind_eq_ok_iff.mp done
  obtain ⟨status, sameStatus, done⟩ := bind_eq_ok_iff.mp done
  rw [required_eq_ok sameId] at hid
  rw [required_eq_ok sameName] at hname
  rw [required_eq_ok sameAuthor] at hauthor
  rw [required_eq_ok sameStatus] at hstatus
  split at done
  · cases done
  · rename_i free
    cases done
    exact ⟨id, name, author, status, hid, hname, hauthor, hstatus,
      Tables.pullRequest?_eq_none_iff.mpr (by simpa using free), rfl⟩

/-- An insertion fails, or it adds the row of the columns at its first version. -/
theorem insert_cases (unspoiled : w.spoiled = false) (inside : 0 < w.depth) (p : PullRequest)
    (createdAt : Timestamp) :
    (∃ e, (insert p createdAt).Fails w e) ∨
    ∃ id name author status, p.id.column = .ok (some id) ∧ p.name.column = .ok (some name) ∧
      p.author.column = .ok (some author) ∧ p.status.column = .ok (some status) ∧
      w.tables.pullRequest? id = none ∧
      (insert p createdAt).Ends w (.ok ())
        (w.tables.addHead ⟨id, name, author, status, createdAt, p.mergedAt, 1⟩) := by
  rw [insert_eq]
  cases done : insertion p createdAt w.tables with
  | error e => exact .inl ⟨e, .write unspoiled _ done⟩
  | ok r =>
    right
    obtain ⟨id, name, author, status, hid, hname, hauthor, hstatus, fresh, rfl⟩ :=
      insertion_eq_ok done
    exact ⟨id, name, author, status, hid, hname, hauthor, hstatus, fresh,
      .write unspoiled inside _ done⟩

/-- After an insertion that failed, the look at the id changes nothing and the failure stays one. -/
theorem create_handler (unspoiled : w.spoiled = false) (id : Value) (e : Failure) :
    Act.Declines (do
      if e.IsIntegrity then
        if ← isStored id then .refuse (taken id) else .fail e
      else .fail e : Act Unit) w := by
  split
  · have look : (isStored id).Ends w (stored w.tables id) w.tables := .read unspoiled _ _
    generalize stored w.tables id = found at look
    rcases found with f | _ | _
    · exact ⟨f, .bind_error look⟩
    · exact ⟨e, .bind look fun _ => .fail e⟩
    · exact ⟨.refused (taken id), .bind look fun _ => .refuse _⟩
  · exact ⟨e, .fail e⟩

/-- The columns of the entity are those of the row, and the row is at its first version. -/
structure Spells (p : PullRequest) (row : PullRequestRow) : Prop where
  id : p.id.column = .ok (some row.id)
  name : p.name.column = .ok (some row.name)
  author : p.author.column = .ok (some row.author)
  status : p.status.column = .ok (some row.status)
  reviewers : p.reviewers = row.reviewers.map fun r => .text (.plain r)
  mergedAt : p.mergedAt = row.mergedAt
  version : row.version = 1

section

variable {p : PullRequest} {row : PullRequestRow}

theorem Spells.insertion (spells : Spells p row) (t : Tables) :
    insertion p row.createdAt t =
      if (t.pullRequest? row.id).isSome then
        .error (.database (.integrity "UNIQUE constraint failed: pull_requests.id"))
      else .ok ((), t.addHead row.head) := by
  obtain ⟨⟨id, name, author, status, createdAt, mergedAt, version⟩, rs⟩ := row
  obtain ⟨hid, hname, hauthor, hstatus, -, rfl, rfl⟩ := spells
  unfold PullRequests.insertion
  rw [hid, hname, hauthor, hstatus, Tables.isSome_pullRequest?]
  rfl

theorem insert_ends (unspoiled : w.spoiled = false) (inside : 0 < w.depth) (spells : Spells p row)
    (fresh : w.tables.pullRequest? row.id = none) :
    (insert p row.createdAt).Ends w (.ok ()) (w.tables.addHead row.head) := by
  rw [insert_eq]
  refine .write unspoiled inside _ ((spells.insertion w.tables).trans (if_neg ?_))
  simp [fresh]

theorem place_ends (unspoiled : w.spoiled = false) (inside : 0 < w.depth) (spells : Spells p row)
    (fresh : w.tables.pullRequest? row.id = none) (distinct : row.reviewers.Nodup) :
    (do
      insert p row.createdAt
      writeReviewers p.id p.reviewers : Act Unit).Ends w (.ok ())
      (w.tables.addPullRequest row) := by
  refine .bind (insert_ends unspoiled inside spells fresh) fun j => ?_
  rw [spells.reviewers]
  exact writeReviewers_ends (by exact unspoiled) (by exact inside) spells.id distinct

/-- The insertion is made before the repetition of a reviewer is found out. -/
theorem place_fails (unspoiled : w.spoiled = false) (inside : 0 < w.depth) (spells : Spells p row)
    (fresh : w.tables.pullRequest? row.id = none) (repeated : ¬row.reviewers.Nodup) :
    (do
      insert p row.createdAt
      writeReviewers p.id p.reviewers : Act Unit).Fails w (.database repeatedReviewer) := by
  refine .bind (insert_ends unspoiled inside spells fresh) fun j => ?_
  rw [spells.reviewers]
  exact writeReviewers_fails (by exact unspoiled) (by exact inside) spells.id repeated

/-- A creation under a free id adds the row, if its references lead to rows. -/
theorem create_ends_placed (unspoiled : w.spoiled = false) (spells : Spells p row)
    (createdAt : p.createdAt.getD w.now = row.createdAt)
    (fresh : w.tables.pullRequest? row.id = none) (distinct : row.reviewers.Nodup)
    (linked : w.depth = 0 → (w.tables.addPullRequest row).Linked) :
    (create p).Ends w (.ok { p with createdAt := some row.createdAt, version := 1 })
      (w.tables.addPullRequest row) := by
  let v := w.log (.reached (.port .pullRequestCreate))
  have placed := place_ends (w := v.deeper) unspoiled (Nat.succ_pos _) spells fresh distinct
  refine .port _ (.bind_now ?_)
  show Act.Ends (do
    (Act.atomic (do
      insert p (p.createdAt.getD w.now)
      writeReviewers p.id p.reviewers)).orElse _
    return { p with createdAt := some (p.createdAt.getD w.now), version := 1 }) _ _ _
  rw [createdAt]
  exact .bind (.orElse (.atomic placed unspoiled linked)) fun _ => .pure _

theorem create_ends_taken (unspoiled : w.spoiled = false) (spells : Spells p row)
    (createdAt : p.createdAt.getD w.now = row.createdAt)
    (stored : (w.tables.pullRequest? row.id).isSome) :
    (create p).Ends w (.error (.refused (taken p.id))) w.tables := by
  let v := w.log (.reached (.port .pullRequestCreate))
  have violated : (insert p (p.createdAt.getD w.now)).Fails v.deeper
      (.database (.integrity "UNIQUE constraint failed: pull_requests.id")) := by
    rw [createdAt, insert_eq]
    exact .write (w := v.deeper) unspoiled _ ((spells.insertion w.tables).trans (if_pos stored))
  have look (j : List Event) : (isStored p.id).Ends { v with journal := j } (.ok true)
      w.tables := by
    have read : (isStored p.id).Ends { v with journal := j }
        (.ok (w.tables.pullRequest? row.id).isSome) w.tables :=
      isStored_ends (by exact unspoiled) spells.id
    rw [stored] at read
    exact read
  refine .port_refused _ (.bind_now (.bind_error (.orElse_error
    (.atomic_error (.bind_first violated)) fun j => ?_)))
  rw [if_pos (by exact rfl)]
  exact .bind (look j) fun k => .refuse _

end

theorem create_ends (unspoiled : w.spoiled = false) {p : PullRequest} {rs : List String}
    (reviewers : p.reviewers = rs.map fun r => .text (.plain r)) :
    ∃ r t, (create p).Ends w r t ∧ CreateOutcome w.tables p rs (p.createdAt.getD w.now) r t := by
  let v := w.log (.reached (.port .pullRequestCreate))
  let createdAt := p.createdAt.getD w.now
  let body : Act Unit := do
    insert p createdAt
    writeReviewers p.id p.reviewers
  have inside : 0 < v.deeper.depth := Nat.succ_pos _
  have rejected (declined : (Act.atomic body).Declines v) :
      ∃ r t, (create p).Ends w r t ∧ CreateOutcome w.tables p rs createdAt r t := by
    obtain ⟨e, ends⟩ : (create p).Declines w :=
      .port _ (.bind_now (.bind (.orElse declined fun e _ =>
        create_handler (by exact unspoiled) p.id e)))
    exact ⟨_, _, ends, .rejected e⟩
  obtain ⟨e, failed⟩ | ⟨id, name, author, status, hid, hname, hauthor, hstatus, fresh, inserted⟩ :=
    insert_cases (w := v.deeper) unspoiled inside p createdAt
  · exact rejected (.atomic (.bind_first failed))
  let row : PullRequestRow := ⟨⟨id, name, author, status, createdAt, p.mergedAt, 1⟩, rs⟩
  have spells : Spells p row := ⟨hid, hname, hauthor, hstatus, reviewers, rfl, rfl⟩
  by_cases distinct : rs.Nodup
  · by_cases dangling : w.depth = 0 ∧ ¬(w.tables.addPullRequest row).Linked
    · have placed := place_ends (w := v.deeper) unspoiled inside spells fresh distinct
      exact rejected ⟨_, .atomic_dangling placed unspoiled dangling.1 dangling.2⟩
    · have linked (outermost : w.depth = 0) : (w.tables.addPullRequest row).Linked :=
        of_not_not fun broken => dangling ⟨outermost, broken⟩
      exact ⟨_, _, create_ends_placed unspoiled spells (Eq.refl createdAt) fresh distinct linked,
        .created fresh distinct hid hname hauthor hstatus⟩
  · have failed : body.Fails v.deeper (.database repeatedReviewer) := by
      refine .bind inserted fun j => ?_
      rw [reviewers]
      exact writeReviewers_fails (by exact unspoiled) (by exact inside) hid distinct
    exact rejected (.atomic failed)

end PullRequests

end ReviewRota
