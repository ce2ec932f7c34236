import ReviewRota.Proofs.Store.Blindness
import ReviewRota.Proofs.Store.Outcomes
import ReviewRota.Proofs.Store.Users

/-!
# Teams under undisturbed calls

A creation under a name that is taken is refused and changes nothing. Under a free name it adds the
team and writes its members one after the other. It looks for the name first and inserts it then:
the insertion comes to the same as the whole creation, if it is made at this moment, whatever
happened since the look.
-/

namespace ReviewRota

/-- The tables with a new team: its members are overwritten, and so moved, or added. -/
def Tables.founded (t : Tables) (name : String) (members : List Member) : Tables :=
  members.foldl (fun t m => t.upsert ⟨m.id, m.username, some name, m.active⟩) (t.addTeam name)

@[simp] theorem Tables.teams_founded (t : Tables) (name : String) (members : List Member) :
    (t.founded name members).teams = t.teams ++ [name] := by
  have enrolled (u : Tables) : (members.foldl (fun t m =>
      t.upsert ⟨m.id, m.username, some name, m.active⟩) u).teams = u.teams := by
    induction members generalizing u with
    | nil => rfl
    | cons m ms ih => exact (ih _).trans (teams_upsert u _)
  exact enrolled (t.addTeam name)

def Member.row (m : Member) (team : String) : UserRow := ⟨m.id, m.username, some team, m.active⟩

theorem Tables.user?_founded (t : Tables) (name : String) (members : List Member) (id : String) :
    (t.founded name members).user? id =
      ((members.map (Member.row · name)).reverse.find? (fun r => r.id = id)).or (t.user? id) := by
  rw [← user?_congr (t := t) (u := t.addTeam name) rfl, ← user?_foldl_upsert, List.foldl_map]
  rfl

theorem Tables.Linked.founded {t : Tables} (linked : t.Linked) (name : String)
    (members : List Member) : (t.founded name members).Linked := by
  have enrolled (u : Tables) (linked : u.Linked) (known : u.HasTeam name) : Tables.Linked
      (members.foldl (fun t m => t.upsert ⟨m.id, m.username, some name, m.active⟩) u) := by
    induction members generalizing u with
    | nil => exact linked
    | cons m ms ih =>
      refine ih _ (linked.upsert ?_) ?_
      · rintro _ ⟨⟩
        exact known
      · unfold Tables.HasTeam
        rw [Tables.teams_upsert]
        exact known
  exact enrolled _ (linked.addTeam name) (List.mem_append_right _ (List.mem_singleton_self name))

namespace Act.Ends

variable {α : Type} {x y : Act α} {w : World} {r : Except Failure α} {t : Tables}

theorem agree (first : x.Ends w r t) (second : y.Ends w r t) :
    Agree (x .none w) (y .none w) := by
  obtain ⟨j, run⟩ := first
  obtain ⟨k, run'⟩ := second
  rw [run, run']
  exact ⟨rfl, k, rfl⟩

end Act.Ends

namespace Teams

variable {w : World} {t : Team} {name : Value} {key : String}

/-! ### Two halves -/

def look (name : Value) : Act Unit := do
  if ← isStored name then .refuse (taken name)

def store (t : Team) : Act Unit := do
  (Act.atomic (.visiting .teamInsertion (insert t.name))).orElse (fun e =>
    if e.IsIntegrity then .refuse (taken t.name) else .fail e)
  enroll t.name t.members

def committing (t : Team) (x : Act Unit) : Act Team :=
  .port .teamCreate (do
    .atomic x
    let members ← .ofExcept (MemberDraft.ordered t.members)
    return { t with members := members })

/-- The first half of a creation, which only looks. -/
def seeking (t : Team) : Act Unit := .port .teamCreate (.atomic (look t.name))

/-- The second half, which writes. -/
def founding (t : Team) : Act Team := committing t (store t)

theorem create_eq (t : Team) : create t = committing t (do
    look t.name
    store t) := by
  have body : (do
      if ← isStored t.name then .refuse (taken t.name)
      (Act.atomic (.visiting .teamInsertion (insert t.name))).orElse (fun e =>
        if e.IsIntegrity then .refuse (taken t.name) else .fail e)
      enroll t.name t.members : Act Unit) = (do
      look t.name
      store t) := by
    funext i v
    simp only [look, Act.bind_apply]
    generalize isStored t.name i v = outcome
    obtain ⟨e | _ | _, u⟩ := outcome <;> rfl
  unfold create committing
  rw [body]

theorem blind_store (t : Team) : (store t).Blind := by
  refine .bind (.orElse (.atomic (.visiting _ (.write _ _ _))) fun e => ?_) fun _ =>
    blind_enroll t.name t.members
  split
  · exact .refuse _
  · exact .fail e

theorem filter_usersIn (t : Tables) {names : List String} {name : String} (asked : name ∈ names) :
    (t.usersIn names).filter (fun u => u.team = some name) =
      t.users.filter fun u => u.team = some name := by
  rw [Tables.usersIn, List.filter_filter]
  refine List.filter_congr fun u _ => ?_
  by_cases of : u.team = some name <;> simp [of, asked]

theorem complete_ends (unspoiled : w.spoiled = false) (names : List String) :
    (complete names).Ends w (.ok (names.map fun name => ⟨name, Roster.ordered
      ((w.tables.users.filter fun u => u.team = some name).map UserRow.member)⟩)) w.tables := by
  cases names with
  | nil => exact .pure []
  | cons name names =>
    have read : (Act.read .selectMembers fun t => .ok (t.usersIn (name :: names))).Ends w
        (.ok (w.tables.usersIn (name :: names))) w.tables := .read unspoiled _ _
    have rosters : ((name :: names).map fun other => (⟨other, Roster.ordered
        (((w.tables.usersIn (name :: names)).filter fun u => u.team = some other).map
          UserRow.member)⟩ : TeamRoster)) = (name :: names).map fun other => ⟨other, Roster.ordered
        ((w.tables.users.filter fun u => u.team = some other).map UserRow.member)⟩ :=
      List.map_congr_left fun other asked => by rw [filter_usersIn _ asked]
    rw [← rosters]
    exact .bind read fun _ => .pure _

theorem list_ends (unspoiled : w.spoiled = false) :
    list.Ends w (.ok w.tables.rosters) w.tables := by
  let v := w.log (.reached (.port .teamList))
  have read : (Act.read .selectTeams fun t => .ok t.teamsInOrder).Ends v
      (.ok w.tables.teamsInOrder) w.tables := .read (w := v) unspoiled _ _
  exact .port _ (.bind read fun _ => complete_ends (by exact unspoiled) _)

def stored (t : Tables) (name : Value) : Except Failure Bool := do
  match ← name.column with
  | some key => return decide (t.HasTeam key)
  | none => return false

def looked (t : Tables) (name : Value) : Except Failure Unit := do
  if ← stored t name then .error (.refused (taken name))

theorem look_ends (unspoiled : w.spoiled = false) (name : Value) :
    (look name).Ends w (looked w.tables name) w.tables := by
  have read : (isStored name).Ends w (stored w.tables name) w.tables := .read unspoiled _ _
  unfold look looked
  generalize stored w.tables name = found at read
  rcases found with e | _ | _
  · exact .bind_error read
  · exact .bind read fun _ => .pure ()
  · exact .bind read fun _ => .refuse _

theorem committing_error {x : Act Unit} {e : Failure}
    (failed : x.Fails (w.log (.reached (.port .teamCreate))).deeper e) :
    (committing t x).Ends w (.error e.classified) w.tables :=
  .port_error _ (.bind_error (.atomic_error failed))

theorem insert_fails_column (unspoiled : w.spoiled = false) {e : Failure}
    (column : name.column = .error e) : (insert name).Fails w e := by
  refine .write unspoiled _ ?_
  rw [column]
  rfl

theorem insert_fails_taken (unspoiled : w.spoiled = false) (column : name.column = .ok (some key))
    (stored : w.tables.HasTeam key) :
    (insert name).Fails w (.database (.integrity "UNIQUE constraint failed: teams.name")) := by
  refine .write unspoiled _ ?_
  rw [column]
  exact if_pos stored

/-- Where a look would fail, the insertion fails in the same way. -/
theorem store_fails (unspoiled : w.spoiled = false) {e : Failure}
    (fails : looked w.tables t.name = .error e) : (store t).Fails w e := by
  have failing {f : Failure}
      (failed : (insert t.name).Fails (w.deeper.log (.reached .teamInsertion)) f)
      (handled : (if f.IsIntegrity then .refused (taken t.name) else f) = e) :
      (store t).Fails w e := by
    refine .bind_first (Act.Ends.fails (t := w.tables) ?_)
    refine .orElse_error (.atomic_error (.visiting _ failed)) fun j => ?_
    rw [← handled]
    split
    · exact .refuse _
    · exact .fail f
  unfold looked stored at fails
  cases column : t.name.column with
  | error f =>
    rw [column] at fails
    obtain rfl : f = e := Except.error.inj fails
    have same := PullRequests.classified_of_column column
    refine failing (insert_fails_column (by exact unspoiled) column) (if_neg ?_)
    cases f with
    | database d => cases same
    | _ => exact id
  | ok content =>
    rw [column] at fails
    cases content with
    | none => cases fails
    | some key =>
      by_cases has : w.tables.HasTeam key
      · refine failing (insert_fails_taken (by exact unspoiled) column has)
          ((if_pos (by exact rfl)).trans ?_)
        simpa [has, bind, Except.bind, pure, Except.pure] using fails
      · simp [has, bind, Except.bind, pure, Except.pure] at fails

/-- The second half of a creation comes to the same as a whole creation at this moment. -/
theorem create_agrees (unspoiled : w.spoiled = false) (t : Team) :
    Act.Agree (create t .none w) (founding t .none w) := by
  rw [create_eq]
  let v := (w.log (.reached (.port .teamCreate))).deeper
  have ends : (look t.name).Ends v (looked w.tables t.name) w.tables :=
    look_ends (w := v) unspoiled t.name
  cases looks : looked w.tables t.name with
  | error e =>
    rw [looks] at ends
    have failed : (do look t.name; store t : Act Unit).Fails v e := .bind_first ends.fails
    exact (committing_error failed).agree
      (committing_error (store_fails (w := v) unspoiled looks))
  | ok _ =>
    rw [looks] at ends
    obtain ⟨j, run⟩ := ends
    refine .port _ (.bind (.atomic (.refl _) ?_) fun _ => .bind (.ofExcept _) fun _ => .pure _)
    show Act.Agree ((look t.name >>= fun _ => store t) .none v) (store t .none v)
    rw [Act.bind_apply, run]
    exact blind_store t _ _ ⟨_, rfl⟩

theorem seeking_ends (unspoiled : w.spoiled = false) (linked : w.depth = 0 → w.tables.Linked)
    (t : Team) :
    (seeking t).Ends w (.ok ()) w.tables ∨
      ∃ e, (seeking t).Ends w (.error e) w.tables ∧ (create t).Ends w (.error e) w.tables := by
  let v := (w.log (.reached (.port .teamCreate))).deeper
  have ends : (look t.name).Ends v (looked w.tables t.name) w.tables :=
    look_ends (w := v) unspoiled t.name
  cases looks : looked w.tables t.name with
  | error e =>
    rw [looks] at ends
    have failed : (do look t.name; store t : Act Unit).Fails v e := .bind_first ends.fails
    rw [create_eq]
    exact .inr ⟨_, .port_error _ (.atomic_error ends.fails), committing_error failed⟩
  | ok _ =>
    rw [looks] at ends
    exact .inl (.port _ (.atomic ends unspoiled linked))

/-! ### Outcomes -/

theorem looked_eq_error (column : name.column = .ok (some key)) {t : Tables}
    (has : t.HasTeam key) : looked t name = .error (.refused (taken name)) := by
  unfold looked stored
  rw [column]
  simp [has, bind, Except.bind, pure, Except.pure]

theorem looked_eq_ok (column : name.column = .ok (some key)) {t : Tables}
    (fresh : ¬t.HasTeam key) : looked t name = .ok () := by
  unfold looked stored
  rw [column]
  simp [fresh, bind, Except.bind, pure, Except.pure]

theorem create_ends_taken (unspoiled : w.spoiled = false)
    (column : t.name.column = .ok (some key)) (has : w.tables.HasTeam key) :
    (create t).Ends w (.error (.refused (taken t.name))) w.tables := by
  let v := (w.log (.reached (.port .teamCreate))).deeper
  have ends : (look t.name).Ends v (looked w.tables t.name) w.tables :=
    look_ends (w := v) unspoiled t.name
  rw [looked_eq_error column has] at ends
  rw [create_eq]
  exact committing_error (.bind_first ends.fails)

theorem insert_ends (unspoiled : w.spoiled = false) (inside : 0 < w.depth)
    (column : name.column = .ok (some key)) (fresh : ¬w.tables.HasTeam key) :
    (insert name).Ends w (.ok ()) (w.tables.addTeam key) := by
  refine .write unspoiled inside _ ?_
  rw [column]
  exact if_neg fresh

theorem enroll_ends (unspoiled : w.spoiled = false) (inside : 0 < w.depth)
    (column : name.column = .ok (some key)) (members : List Member) :
    (enroll name (members.map Member.draft)).Ends w (.ok ())
      (members.foldl (fun t m => t.upsert ⟨m.id, m.username, some key, m.active⟩) w.tables) := by
  induction members generalizing w with
  | nil => exact .pure ()
  | cons m ms ih =>
    have spells : Users.Spells (memberOf name m.draft) ⟨m.id, m.username, some key, m.active⟩ :=
      ⟨rfl, rfl, column, Users.flag_bool m.active⟩
    exact .bind (Users.create_ends unspoiled inside spells) fun j =>
      ih (by exact unspoiled) (by exact inside)

theorem create_ends_founded (unspoiled : w.spoiled = false)
    (linked : w.depth = 0 → w.tables.Linked) (column : name.column = .ok (some key))
    (fresh : ¬w.tables.HasTeam key) (members : List Member) :
    (create ⟨name, members.map Member.draft⟩).Ends w
      (.ok ⟨name, (Roster.ordered members).map Member.draft⟩) (w.tables.founded key members) := by
  let v := (w.log (.reached (.port .teamCreate))).deeper
  have ends : (look name).Ends v (looked w.tables name) w.tables :=
    look_ends (w := v) unspoiled name
  rw [looked_eq_ok column fresh] at ends
  have inside : 0 < v.depth := Nat.succ_pos _
  have stores : (do look name; store ⟨name, members.map Member.draft⟩ : Act Unit).Ends v (.ok ())
      (w.tables.founded key members) := by
    refine .bind ends fun j => .bind (.orElse (.atomic (.visiting _ (insert_ends
      (by exact unspoiled) (by exact Nat.succ_pos _) column fresh)) (by exact unspoiled) ?_))
      fun k => ?_
    · exact fun outermost => absurd outermost (Nat.ne_of_gt inside)
    · exact enroll_ends (by exact unspoiled) (by exact inside) column members
  rw [create_eq]
  refine .port _ (.bind (.atomic stores (by exact unspoiled) fun outermost =>
    (linked outermost).founded key members) fun j => ?_)
  dsimp only
  rw [MemberDraft.ordered_drafts]
  exact .pure _

end Teams

end ReviewRota
