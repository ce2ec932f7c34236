import ReviewRota.Proofs.Store.PullRequests

/-!
# Users under undisturbed calls

A creation writes the row of its columns: it overwrites the user of this id, or adds one. Users are
never removed, so what a read of users has found is stored from then on.
-/

namespace ReviewRota

/-- The user of this id is overwritten, or added if there is none. -/
def Tables.upsert (t : Tables) (u : UserRow) : Tables :=
  if t.HasUser u.id then t.modifyUser u.id fun r => { u with id := r.id } else t.addUser u

namespace Tables

variable {t : Tables} {u : UserRow} {name : String}

theorem user?_eq_none_iff {id : String} : t.user? id = none ↔ ¬t.HasUser id := by
  simp [user?, HasUser, List.find?_eq_none]

theorem user?_mem {id : String} (h : t.user? id = some u) : u ∈ t.users ∧ u.id = id :=
  ⟨List.mem_of_find?_eq_some h, by simpa using List.find?_some h⟩

theorem HasUser.exists_user? {id : String} (has : t.HasUser id) : ∃ u, t.user? id = some u := by
  cases found : t.user? id with
  | none => exact absurd has (user?_eq_none_iff.mp found)
  | some u => exact ⟨u, rfl⟩

theorem mem_usersOf {team : Option String} : u ∈ t.usersOf team ↔ u ∈ t.users ∧ u.team = team := by
  simp only [usersOf, idOrder, List.mem_mergeSort, List.mem_filter, decide_eq_true_eq]

theorem hasUser_modifyUser {id k : String} {f : UserRow → UserRow}
    (keeps : ∀ u, u.id = k → (f u).id = k) : (t.modifyUser k f).HasUser id ↔ t.HasUser id := by
  rw [hasUser_iff_mem_map, hasUser_iff_mem_map]
  simp only [modifyUser, map_ite_key UserRow.id t.users k f keeps]

theorem user?_modifyUser (t : Tables) (k : String) {f : UserRow → UserRow}
    (keeps : ∀ u, u.id = k → (f u).id = k) (id : String) :
    (t.modifyUser k f).user? id = if id = k then (t.user? id).map f else t.user? id :=
  find?_map_ite_key UserRow.id t.users k id f keeps

theorem user?_congr {u : Tables} (h : u.users = t.users) (id : String) :
    u.user? id = t.user? id := by
  unfold user?
  rw [h]

theorem HasUser.addUser {id : String} (has : t.HasUser id) (u : UserRow) :
    (t.addUser u).HasUser id := by
  obtain ⟨v, member, same⟩ := has
  exact ⟨v, mem_users_addUser.mpr (.inl member), same⟩

theorem HasUser.upsert {id : String} (has : t.HasUser id) (u : UserRow) :
    (t.upsert u).HasUser id := by
  unfold Tables.upsert
  split
  · exact (hasUser_modifyUser (f := fun r => { u with id := r.id }) fun _ same => same).mpr has
  · exact has.addUser u

theorem user?_upsert (t : Tables) (u : UserRow) (id : String) :
    (t.upsert u).user? id = if u.id = id then some u else t.user? id := by
  unfold upsert
  split
  · rename_i has
    rw [user?_modifyUser t u.id (f := fun r => { u with id := r.id }) (fun _ same => same)]
    by_cases same : u.id = id
    · subst same
      obtain ⟨row, found⟩ := has.exists_user?
      simp [found, (user?_mem found).2]
    · rw [if_neg same, if_neg fun other => same other.symm]
  · rename_i fresh
    by_cases same : u.id = id
    · subst same
      have absent : t.users.find? (fun r => r.id = u.id) = none := user?_eq_none_iff.mpr fresh
      simp [user?, addUser, List.find?_append, absent]
    · simp [user?, addUser, List.find?_append, same]

theorem user?_foldl_upsert (rows : List UserRow) (t : Tables) (id : String) :
    (rows.foldl upsert t).user? id =
      (rows.reverse.find? (fun r => r.id = id)).or (t.user? id) := by
  induction rows generalizing t with
  | nil => rfl
  | cons r rows ih =>
    rw [List.foldl_cons, ih, user?_upsert, List.reverse_cons, List.find?_append, Option.or_assoc]
    by_cases same : r.id = id <;> simp [same]

@[simp] theorem teams_upsert (t : Tables) (u : UserRow) : (t.upsert u).teams = t.teams := by
  unfold upsert
  split <;> rfl

@[simp] theorem pullRequests_upsert (t : Tables) (u : UserRow) :
    (t.upsert u).pullRequests = t.pullRequests := by
  unfold upsert
  split <;> rfl

theorem heads_upsert (t : Tables) (u : UserRow) : (t.upsert u).heads = t.heads := by
  unfold upsert
  split <;> rfl

theorem assigned_upsert (t : Tables) (u : UserRow) : (t.upsert u).assigned = t.assigned := by
  unfold upsert
  split <;> rfl

theorem mem_users_upsert {v : UserRow} (member : v ∈ (t.upsert u).users) :
    v ∈ t.users ∨ v.team = u.team := by
  unfold upsert at member
  split at member
  · obtain ⟨r, old, rfl⟩ := List.mem_map.mp member
    split
    · exact .inr rfl
    · exact .inl old
  · rcases mem_users_addUser.mp member with old | rfl
    · exact .inl old
    · exact .inr rfl

namespace Linked

theorem addTeam (linked : t.Linked) (name : String) : (t.addTeam name).Linked :=
  ⟨fun u member team of => List.mem_append_left _ (linked.1 u member team of), linked.2⟩

/-- Users may be changed as long as their teams are there and no id goes away. -/
theorem of_users (linked : t.Linked) {v : Tables} (heads : v.heads = t.heads)
    (assigned : v.assigned = t.assigned) (teams : ∀ u ∈ v.users, ∀ name ∈ u.team, v.HasTeam name)
    (known : ∀ id, t.HasUser id → v.HasUser id) : v.Linked := by
  refine ⟨teams, fun h member => known _ (linked.2.1 h (heads ▸ member)), fun a member => ?_⟩
  obtain ⟨head, reviewer⟩ := linked.2.2 a (assigned ▸ member)
  refine ⟨?_, known _ reviewer⟩
  unfold HasHead
  rw [heads]
  exact head

/-- A change of a user that keeps id and team breaks no reference. -/
theorem modifyUser (linked : t.Linked) {k : String} {f : UserRow → UserRow}
    (id : ∀ u, (f u).id = u.id) (team : ∀ u, (f u).team = u.team) : (t.modifyUser k f).Linked := by
  have keeps (u : UserRow) (same : u.id = k) : (f u).id = k := (id u).trans same
  refine linked.of_users rfl rfl ?_ fun _ has => (hasUser_modifyUser keeps).mpr has
  intro v member name of
  obtain ⟨u, old, rfl⟩ := List.mem_map.mp member
  split at of
  · exact linked.1 u old name (team u ▸ of)
  · exact linked.1 u old name of

theorem upsert (linked : t.Linked) (known : ∀ name ∈ u.team, t.HasTeam name) :
    (t.upsert u).Linked := by
  refine linked.of_users (heads_upsert t u) (assigned_upsert t u) ?_ fun _ has => has.upsert u
  intro v member name of
  unfold HasTeam
  rw [teams_upsert]
  rcases mem_users_upsert member with old | same
  · exact linked.1 v old name of
  · exact known name (same ▸ of)

theorem HasHead.addHead {id : String} (has : t.HasHead id) (h : PullRequestHead) :
    (t.addHead h).HasHead id := by
  obtain ⟨g, member, same⟩ := has
  exact ⟨g, List.mem_append_left _ member, same⟩

theorem setReviewers (linked : t.Linked) {k : String} {rs : List String} (stored : t.HasHead k)
    (known : ∀ r ∈ rs, t.HasUser r) : (t.setReviewers k rs).Linked := by
  refine ⟨linked.1, linked.2.1, fun a member => ?_⟩
  rcases List.mem_append.mp member with old | new
  · exact linked.2.2 a (List.mem_filter.mp old).1
  · rw [pullRequest_of_mem_numbered new]
    refine ⟨stored, known _ ?_⟩
    rw [← map_reviewer_numbered k 0 rs]
    exact List.mem_map_of_mem new

theorem hasHead_modifyHead {id k : String} {f : PullRequestHead → PullRequestHead}
    (keeps : ∀ h, (f h).id = h.id) : (t.modifyHead k f).HasHead id ↔ t.HasHead id := by
  have ids : (t.modifyHead k f).heads.map PullRequestHead.id = t.heads.map PullRequestHead.id :=
    map_ite_key PullRequestHead.id t.heads k f fun h same => (keeps h).trans same
  simpa [HasHead] using congrArg (id ∈ ·) ids

theorem modifyHead (linked : t.Linked) {k : String} {f : PullRequestHead → PullRequestHead}
    (id : ∀ h, (f h).id = h.id) (author : ∀ h, (f h).author = h.author) :
    (t.modifyHead k f).Linked := by
  refine ⟨linked.1, fun h member => ?_, fun a member => ?_⟩
  · obtain ⟨g, old, rfl⟩ := List.mem_map.mp member
    split
    · exact author g ▸ linked.2.1 g old
    · exact linked.2.1 g old
  · obtain ⟨head, reviewer⟩ := linked.2.2 a member
    exact ⟨(hasHead_modifyHead id).mpr head, reviewer⟩

theorem addHead (linked : t.Linked) {h : PullRequestHead} (author : t.HasUser h.author) :
    (t.addHead h).Linked := by
  refine ⟨linked.1, fun g member => ?_, fun a member => ?_⟩
  · rcases List.mem_append.mp member with old | new
    · exact linked.2.1 g old
    · rw [List.mem_singleton.mp new]
      exact author
  · obtain ⟨head, reviewer⟩ := linked.2.2 a member
    exact ⟨HasHead.addHead head h, reviewer⟩

/-- A pull request may be overwritten if its reviewers will be stored users. -/
theorem overwrite (linked : t.Linked) {k : String} {q : PullRequestRow}
    (known : ∀ r ∈ q.reviewers, t.HasUser r) :
    (t.modifyPullRequest k (·.overwrittenBy q)).Linked := by
  cases stored : t.pullRequest? k with
  | none => rwa [modifyPullRequest_of_missing stored]
  | some p =>
    rw [modifyPullRequest_of_stored stored]
    obtain ⟨h, found, -⟩ := Option.map_eq_some_iff.mp ((pullRequest?_eq t k).symm.trans stored)
    obtain ⟨member, same⟩ := head?_mem found
    let f (h : PullRequestHead) : PullRequestHead := ((t.whole h).overwrittenBy q).head
    have relinked : (t.modifyHead k f).Linked := linked.modifyHead (fun _ => rfl) fun _ => rfl
    exact relinked.setReviewers
      ((hasHead_modifyHead (f := f) fun _ => rfl).mpr ⟨h, member, same⟩) known

theorem addPullRequest {p : PullRequestRow} (linked : t.Linked) (author : t.HasUser p.author)
    (reviewers : ∀ r ∈ p.reviewers, t.HasUser r) : (t.addPullRequest p).Linked :=
  (linked.addHead (h := p.head) author).setReviewers
    ⟨p.head, List.mem_append_right _ List.mem_cons_self, rfl⟩ reviewers

end Linked

end Tables

namespace Users

variable {w : World} {u : User} {r : UserRow}

/-- The columns of the entity are those of the row. -/
structure Spells (u : User) (r : UserRow) : Prop where
  id : u.id.column = .ok (some r.id)
  username : u.username.column = .ok (some r.username)
  team : u.team.column = .ok r.team
  active : u.active.flag = .ok (some r.active)

theorem Spells.row (spells : Spells u r) : row u (some r.active) = .ok r := by
  unfold Users.row
  rw [spells.id, spells.username, spells.team]
  rfl

theorem insert_ends (unspoiled : w.spoiled = false) (inside : 0 < w.depth) (spells : Spells u r)
    (fresh : ¬w.tables.HasUser r.id) : (insert u).Ends w (.ok ()) (w.tables.addUser r) := by
  unfold insert
  rw [spells.active]
  refine .write unspoiled inside _ ?_
  rw [spells.row]
  exact if_neg fresh

theorem overwrite_ends (unspoiled : w.spoiled = false) (inside : 0 < w.depth)
    (spells : Spells u r) (stored : w.tables.HasUser r.id) :
    (overwrite u).Ends w (.ok true) (w.tables.modifyUser r.id fun v => { r with id := v.id }) := by
  unfold overwrite
  rw [spells.active]
  refine .write unspoiled inside _ ?_
  rw [spells.username, spells.team, spells.id]
  exact if_pos stored

def sought (t : Tables) (id : Value) : Except Failure (Option UserRow) := do
  match ← id.column with
  | some key => return t.user? key
  | none => return none

theorem select_ends (unspoiled : w.spoiled = false) (id : Value) :
    (select id).Ends w (sought w.tables id) w.tables := .read unspoiled _ _

theorem sought_of_column {t : Tables} {id : Value} {key : String}
    (column : id.column = .ok (some key)) : sought t id = .ok (t.user? key) := by
  rw [sought, column]
  rfl

theorem flag_bool (b : Bool) : (Value.bool b).flag = .ok (some b) := by
  cases b <;> simp [Value.flag, Value.same, Value.magnitude?, Binary64.same, Binary64.lt,
    Binary64.signed]

/-- A user whose columns can be written is written. -/
theorem create_ends (unspoiled : w.spoiled = false) (inside : 0 < w.depth) (spells : Spells u r) :
    (create u).Ends w (.ok u) (w.tables.upsert r) := by
  let v := w.log (.reached (.port .userCreate))
  have deep : 0 < v.deeper.depth := Nat.succ_pos _
  have look : (select u.id).Ends v.deeper (sought w.tables u.id) w.tables :=
    select_ends (w := v.deeper) unspoiled u.id
  rw [sought_of_column spells.id] at look
  cases found : w.tables.user? r.id with
  | some row =>
    rw [found] at look
    refine .port _ (.atomic (.bind look fun j => ?_)
      unspoiled fun outermost => absurd outermost (Nat.ne_of_gt inside))
    have stored : w.tables.HasUser r.id :=
      Decidable.not_not.mp (mt Tables.user?_eq_none_iff.mpr (by simp [found]))
    rw [Tables.upsert, if_pos stored]
    exact .bind (.pure _) fun k =>
      .bind (overwrite_ends (by exact unspoiled) (by exact deep) spells stored) fun l => .pure u
  | none =>
    rw [found] at look
    refine .port _ (.atomic (.bind look fun j => ?_)
      unspoiled fun outermost => absurd outermost (Nat.ne_of_gt inside))
    have fresh := Tables.user?_eq_none_iff.mp found
    rw [Tables.upsert, if_neg fresh]
    refine .bind (.orElse (.atomic (.bind (insert_ends (by exact unspoiled)
      (by exact Nat.succ_pos _) spells fresh) fun k => .pure none) (by exact unspoiled) ?_))
      fun l => .pure u
    exact fun outermost => absurd outermost (Nat.ne_of_gt deep)

theorem setFlag_ends (unspoiled : w.spoiled = false) (inside : 0 < w.depth) {id active : Value}
    {key : String} {b : Bool} (column : id.column = .ok (some key))
    (flag : active.flag = .ok (some b)) (stored : w.tables.HasUser key) :
    (setFlag id active).Ends w (.ok true)
      (w.tables.modifyUser key fun u => { u with active := b }) := by
  unfold setFlag
  rw [flag]
  refine .write unspoiled inside _ ?_
  rw [column]
  exact if_pos stored

theorem setActive_ends (unspoiled : w.spoiled = false) (linked : w.depth = 0 → w.tables.Linked)
    {id active : Value} {b : Bool} {u : UserRow} (column : id.column = .ok (some u.id))
    (flag : active.flag = .ok (some b)) (stored : w.tables.user? u.id = some u) :
    (setActive id active).Ends w (.ok { u with active := b })
      (w.tables.modifyUser u.id fun u => { u with active := b }) := by
  let v := w.log (.reached (.port .userSetActive))
  have has : w.tables.HasUser u.id := ⟨u, (Tables.user?_mem stored).1, rfl⟩
  refine .port _ (.atomic (.bind (setFlag_ends (w := v.deeper) (by exact unspoiled)
    (Nat.succ_pos _) column flag has) fun j => ?_) (by exact unspoiled)
    fun outermost => (linked outermost).modifyUser (fun _ => rfl) fun _ => rfl)
  let after := w.tables.modifyUser u.id fun u => { u with active := b }
  have again : sought after id = .ok (some { u with active := b }) := by
    have changed := Tables.user?_modifyUser w.tables u.id (f := fun v => { v with active := b })
      (fun _ same => same) u.id
    rw [if_pos rfl, stored] at changed
    exact (sought_of_column column).trans (congrArg Except.ok changed)
  have read := select_ends (w := { v.deeper with tables := after, journal := j }) unspoiled id
  rw [show sought _ id = _ from again] at read
  exact .bind read fun k => .pure _

def found (t : Tables) (id : Value) : Except Failure UserRow := do
  match (← id.column).bind t.user? with
  | some u => return u
  | none => .error (.refused (missing id))

theorem get_ends_found (unspoiled : w.spoiled = false) (id : Value) :
    (get id).Ends w (found w.tables id) w.tables := by
  have read := select_ends (w := w.log (.reached (.port .userGet))) unspoiled id
  unfold sought at read
  unfold found
  cases column : id.column with
  | error e =>
    rw [column] at read
    exact PullRequests.classified_of_column column ▸ .port_error _ (.bind_error read)
  | ok key =>
    rw [column] at read
    cases key with
    | none => exact .port_refused _ (.bind read fun _ => .refuse _)
    | some key =>
      cases stored : w.tables.user? key with
      | none =>
        replace read : (select id).Ends (w.log (.reached (.port .userGet)))
          (.ok (w.tables.user? key)) w.tables := read
        simp only [bind, Except.bind, Option.bind, stored] at read ⊢
        exact .port_refused _ (.bind read fun _ => .refuse _)
      | some u =>
        replace read : (select id).Ends (w.log (.reached (.port .userGet)))
          (.ok (w.tables.user? key)) w.tables := read
        simp only [bind, Except.bind, Option.bind, stored] at read ⊢
        exact .port _ (.bind read fun _ => .pure u)

theorem found_of_stored {t : Tables} {id : Value} {key : String} {u : UserRow}
    (column : id.column = .ok (some key)) (stored : t.user? key = some u) :
    found t id = .ok u := by
  simp [found, column, stored, bind, Except.bind, pure, Except.pure]

theorem found_eq_ok {t : Tables} {id : Value} {u : UserRow} (h : found t id = .ok u) :
    id.column = .ok (some u.id) ∧ t.user? u.id = some u := by
  unfold found at h
  obtain ⟨key, column, h⟩ := bind_eq_ok_iff.mp h
  split at h
  · rename_i v stored
    cases h
    obtain ⟨key, rfl, stored⟩ := Option.bind_eq_some_iff.mp stored
    obtain rfl := (Tables.user?_mem stored).2
    exact ⟨column, stored⟩
  · cases h

theorem get_ends (unspoiled : w.spoiled = false) (id : Value) :
    ∃ r, (get id).Ends w r w.tables ∧
      ∀ u, r = .ok u → id.column = .ok (some u.id) ∧ w.tables.HasUser u.id := by
  refine ⟨_, get_ends_found unspoiled id, fun u read => ?_⟩
  obtain ⟨column, stored⟩ := found_eq_ok read
  exact ⟨column, u, (Tables.user?_mem stored).1, rfl⟩

def listed (t : Tables) : Value → Except Failure (List UserRow)
  | .null => .ok []
  | team => do return t.usersOf (← team.column)

theorem ofTeam_ends_listed (unspoiled : w.spoiled = false) (team : Value) :
    (ofTeam team).Ends w (listed w.tables team) w.tables := by
  let v := w.log (.reached (.port .usersOfTeam))
  have read : (selectTeam team).Ends v (do return w.tables.usersOf (← team.column)) w.tables :=
    .read (w := v) unspoiled _ _
  have named (asked : ofTeam team = .port .usersOfTeam (selectTeam team))
      (sought : listed w.tables team = do return w.tables.usersOf (← team.column)) :
      (ofTeam team).Ends w (listed w.tables team) w.tables := by
    rw [asked, sought]
    cases column : team.column with
    | error e =>
      rw [column] at read
      exact PullRequests.classified_of_column column ▸ .port_error _ read
    | ok content =>
      rw [column] at read
      exact .port _ read
  cases team with
  | null => exact .port _ (.pure [])
  | _ => exact named rfl rfl

theorem listed_of_column {t : Tables} {team : Value} {key : String}
    (column : team.column = .ok (some key)) : listed t team = .ok (t.usersOf (some key)) := by
  cases team with
  | null => cases column
  | _ =>
    simp only [listed, column]
    rfl

theorem list_ends (unspoiled : w.spoiled = false) :
    list.Ends w (.ok w.tables.usersInOrder) w.tables :=
  .port_read unspoiled _ _ rfl

/-- A read by team finds stored users. -/
theorem ofTeam_ends (unspoiled : w.spoiled = false) (team : Value) :
    ∃ r, (ofTeam team).Ends w r w.tables ∧
      ∀ us, r = .ok us → ∀ u ∈ us, w.tables.HasUser u.id := by
  refine ⟨_, ofTeam_ends_listed unspoiled team, fun us read u member => ?_⟩
  cases team with
  | null =>
    cases read
    cases member
  | _ =>
    obtain ⟨content, -, read⟩ := bind_eq_ok_iff.mp read
    cases read
    exact ⟨u, (Tables.mem_usersOf.mp member).1, rfl⟩

end Users

end ReviewRota
