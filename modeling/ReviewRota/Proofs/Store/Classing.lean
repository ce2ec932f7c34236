import ReviewRota.Proofs.Store.Calls
import ReviewRota.Proofs.Store.PullRequests
import ReviewRota.Proofs.Store.Striking
import ReviewRota.Proofs.Store.Users

/-!
# What storage makes of an error

An error of the database that strikes a storage call leaves it as the refusal that its code stands
for, through whatever transactions, handlers and inner calls. There are two exceptions: a violation
that strikes the insertion of a team says that the team is there, and one that strikes the insertion
of a pull request says so if it is.
-/

namespace ReviewRota

/-! ### Refusals -/

/-- What the strike makes of a part of a call in which no team is inserted. -/
abbrev Act.Elsewhere (P : Statement → Failure → Prop) : Statement → Failure → Prop :=
  fun s f => s ≠ .insertTeam ∧ P s f

namespace Teams

/-- What is made of the error if it strikes the creation of a team. -/
def struckRefusal (e : DatabaseError) (name : Value) (s : Statement) : Refusal :=
  if s = .insertTeam ∧ e.kind = .integrity then taken name else e.refusal

end Teams

namespace PullRequests

def isTaken (t : Tables) (id : Value) : Bool :=
  match id.column with
  | .ok (some key) => (t.pullRequest? key).isSome
  | _ => false

theorem stored_eq {id : Value} {content : Option String} (column : id.column = .ok content)
    (t : Tables) : stored t id = .ok (isTaken t id) := by
  unfold stored isTaken
  rw [column]
  cases content with
  | none => rfl
  | some key => exact congrArg Except.ok (t.isSome_pullRequest? key).symm

/-- What is made of the error if it strikes the creation of a pull request under the id. The look
whether the id is stored is no part of the insertion. -/
def struckRefusal (e : DatabaseError) (t : Tables) (id : Value) (s : Statement) : Refusal :=
  if s ≠ .pullRequestExists ∧ e.kind = .integrity ∧ isTaken t id then taken id else e.refusal

end PullRequests

/-! ### Calls -/

variable {j : Interruption} {n : ℕ} {e : DatabaseError} (calm : j.Calm)
include calm

theorem PullRequests.breaks_complete (hs : List PullRequestHead) :
    (PullRequests.complete hs).Breaks (j.striking n e) n (Act.Bare e) := by
  unfold PullRequests.complete
  split
  · exact .pure _
  · exact .bind (.read calm _ _ rfl) fun _ => .pure _

theorem Call.IsReading.breaks {c : Call} (reading : c.IsReading) :
    c.act.Breaks (j.striking n e) n (Act.Classed e) := by
  cases c with
  | userGet id =>
    refine .port_classed calm _ (.bind (.read calm _ _ rfl) fun found => ?_)
    cases found with
    | none => exact .refuse _
    | some r => exact .pure r
  | usersOfTeam team =>
    refine .port_classed calm _ ?_
    split
    · exact .pure _
    · exact .read calm _ _ rfl
  | userList => exact .port_classed calm _ (.read calm _ _ rfl)
  | teamGet name =>
    refine .port_classed calm _ (.bind (.read calm _ _ rfl) fun us => ?_)
    split
    · exact .refuse _
    · exact .pure _
  | teamList =>
    refine .port_classed calm _ (.bind (.read calm _ _ rfl) fun names => ?_)
    unfold Teams.complete
    split
    · exact .pure _
    · exact .bind (.read calm _ _ rfl) fun _ => .pure _
  | pullRequestGet id =>
    refine .port_classed calm _ (.bind (.read calm _ _ rfl) fun found => ?_)
    cases found with
    | none => exact .refuse _
    | some h => exact .bind (.read calm _ _ rfl) fun _ => .pure _
  | pullRequestsOfReviewer id =>
    exact .port_classed calm _ (.bind (.read calm _ _ rfl) fun hs =>
      PullRequests.breaks_complete calm hs)
  | pullRequestList =>
    exact .port_classed calm _ (.bind (.read calm _ _ rfl) fun hs =>
      PullRequests.breaks_complete calm hs)
  | userCreate | userUpdate | userSetActive | teamCreate | pullRequestCreate
  | pullRequestUpdate => exact reading.elim

namespace Users

theorem breaks_setActive (id active : Value) :
    (setActive id active).Breaks (j.striking n e) n (Act.Classed e) := by
  refine .port_classed calm _ (.atomic (.bind (.write calm _ _ _ rfl) fun found => ?_))
  split
  · refine .bind (.read calm _ _ rfl) fun stored => ?_
    cases stored with
    | none => exact .refuse _
    | some r => exact .pure r
  · exact .refuse _

/-- With the strike past, a look for a user finds what is stored. -/
theorem select_late (id : Value) {w : World} {struck : Statement}
    (place : w.statements[n]? = some struck) (unspoiled : w.spoiled = false) :
    ∃ v, select id (j.striking n e) w = (sought w.tables id, v) ∧
      v.statements[n]? = some struck := by
  obtain ⟨v, run, -, -, later⟩ := Act.read_late (e := e) calm .selectUser
    (fun t => sought t id) place unspoiled
  exact ⟨v, run, later⟩

theorem breaks_select (id : Value) :
    (select id).Breaks (j.striking n e) n (Act.Elsewhere (Act.Bare e)) :=
  .read calm _ _ ⟨by decide, rfl⟩

/-- A violation that strikes the insertion of a user who was not found stays one: nobody has come up
who could be found instead. -/
theorem stricken_insertOrFind {u : User} {w v : World}
    (selected : select u.id (j.striking n e) w = (.ok none, v))
    (awaits : v.statements.length ≤ n) :
    Stricken n (Act.Elsewhere (Act.Bare e)) (insertOrFind u (j.striking n e) v) := by
  obtain ⟨unspoiled, absent⟩ := Act.read_eq_ok selected
  replace absent : sought v.tables u.id = .ok none := absent
  have inserting : (Act.atomic (do insert u; return none) : Act (Option UserRow)).Breaks
      (j.striking n e) n (Act.Elsewhere (Act.Bare e)) :=
    .atomic (.bind (.write calm _ _ _ ⟨by decide, rfl⟩) fun _ => .pure _)
  refine (inserting v awaits).orElse (fun s f u' failed place told => ?_)
    fun f u' _ awaits => ?_
  · obtain ⟨tables, spoiled⟩ := Act.atomic_restores failed
    split
    · obtain ⟨v', run, later⟩ := select_late (e := e) calm u.id place (spoiled.trans unspoiled)
      rw [Act.bind_apply, run, tables, absent]
      exact .struck later rfl told
    · exact .struck place rfl told
  · split
    · refine (breaks_select calm u.id u' awaits).bind fun found v' _ awaits => ?_
      cases found with
      | none => exact .spared awaits
      | some r => exact .spared awaits
    · exact .spared awaits

theorem breaks_create (u : User) :
    (create u).Breaks (j.striking n e) n (Act.Elsewhere (Act.Classed e)) := by
  have rest (found : Option UserRow) : Act.Breaks (j.striking n e) n (Act.Elsewhere (Act.Bare e))
      (if found.isSome then do
        let _ ← overwrite u
        return u
      else return u) := by
    split
    · exact .bind (.write calm _ _ _ ⟨by decide, rfl⟩) fun _ => .pure u
    · exact .pure u
  refine .port (P := Act.Elsewhere (Act.Bare e)) calm _ (.atomic fun w awaits => ?_) ?_
  · refine (breaks_select calm u.id w awaits).bind fun found v selected awaits => ?_
    cases found with
    | some r => exact rest (some r) v awaits
    | none =>
      exact (stricken_insertOrFind calm selected awaits).bind fun found v' _ => rest found v'
  · rintro s f ⟨other, rfl⟩
    exact ⟨other, rfl⟩

end Users

namespace Teams

theorem breaks_enroll (team : Value) (ms : List MemberDraft) :
    (enroll team ms).Breaks (j.striking n e) n (Act.Elsewhere (Act.Classed e)) := by
  induction ms with
  | nil => exact .pure ()
  | cons m ms ih => exact .bind (Users.breaks_create calm (memberOf team m)) fun _ => ih

theorem breaks_insertion (name : Value) :
    ((Act.atomic (.visiting .teamInsertion (insert name))).orElse fun f =>
      if f.IsIntegrity then .refuse (taken name) else .fail f).Breaks (j.striking n e) n
        fun s f => f.classified = .refused (struckRefusal e name s) := by
  have inserting : (Act.atomic (.visiting .teamInsertion (insert name))).Breaks (j.striking n e) n
      fun s f => s = .insertTeam ∧ f = .database e :=
    .atomic (.visiting calm rfl (.write calm _ _ _ ⟨rfl, rfl⟩))
  refine .orElse inserting ?_ fun f => ?_
  · rintro s f ⟨rfl, rfl⟩ v place
    by_cases violated : e.kind = .integrity
    · rw [if_pos (show (Failure.database e).IsIntegrity from violated)]
      exact .struck place rfl (by simp [struckRefusal, violated])
    · rw [if_neg (show ¬(Failure.database e).IsIntegrity from violated)]
      exact .struck place rfl (by simp [struckRefusal, violated, Failure.classified])
  · split
    · exact .refuse _
    · exact .fail f

theorem breaks_create (t : Team) :
    (create t).Breaks (j.striking n e) n fun s f => f = .refused (struckRefusal e t.name s) := by
  let told : Statement → Failure → Prop :=
    fun s f => f.classified = .refused (struckRefusal e t.name s)
  have elsewhere (s : Statement) (f : Failure) (other : Act.Elsewhere (Act.Classed e) s f) :
      told s f := by
    obtain ⟨other, rfl⟩ := other
    simp [told, struckRefusal, other]
  have rest : (do
      (Act.atomic (.visiting .teamInsertion (insert t.name))).orElse fun f =>
        if f.IsIntegrity then .refuse (taken t.name) else .fail f
      enroll t.name t.members : Act Unit).Breaks (j.striking n e) n told :=
    .bind (breaks_insertion calm t.name) fun _ =>
      (breaks_enroll calm t.name t.members).mono elsewhere
  refine .port (P := told) calm _ (.bind (.atomic (.bind (.read calm _ _ ?_) fun stored => ?_))
    fun _ => .bind (.ofExcept _) fun _ => .pure _) fun s f told => told
  · simp [told, struckRefusal, Failure.classified]
  · split
    · exact .bind (.refuse _) fun _ => rest
    · exact rest

end Teams

namespace PullRequests

/-! ### Reading -/

theorem get_eq_ok {id : Value} {w v : World} {row : PullRequestRow}
    (run : get id (j.striking n e) w = (.ok row, v)) :
    id.column = .ok (some row.id) ∧ (v.tables.pullRequest? row.id).isSome := by
  obtain ⟨u, body, rfl⟩ := Act.port_eq_ok calm run
  obtain ⟨found, u', looked, answered⟩ := Act.bind_eq_ok body
  obtain ⟨-, read⟩ := Act.read_eq_ok looked
  cases found with
  | none => cases answered
  | some h =>
    obtain ⟨as, v', fetched, answered⟩ := Act.bind_eq_ok answered
    cases answered
    replace read : sought u'.tables id = .ok (some h) := read
    obtain ⟨content, column, read⟩ := bind_eq_ok_iff.mp read
    cases content with
    | none => cases read
    | some key =>
      have stored : u'.tables.head? key = some h := Except.ok.inj read
      obtain rfl := (Tables.head?_mem stored).2
      refine ⟨column, calm.stored _ _ _ _ ?_⟩
      rw [World.log, Act.read_tables calm fetched, Tables.isSome_pullRequest?]
      exact Option.isSome_of_eq_some stored

theorem get_late {id : Value} {key : String} (column : id.column = .ok (some key)) {w : World}
    {struck : Statement} (place : w.statements[n]? = some struck) (sound : w.Sound [key]) :
    ∃ row v, get id (j.striking n e) w = (.ok row, v) ∧ v.statements[n]? = some struck ∧
      v.tables.Linked := by
  let u := w.entered (j.striking n e) .pullRequestGet
  have sound' : u.Sound [key] := calm.sound_entered sound _
  have place' : u.statements[n]? = some struck := by rwa [Act.statements_entered calm]
  have isStored := sound'.stored key List.mem_cons_self
  rw [Tables.isSome_pullRequest?] at isStored
  obtain ⟨h, stored⟩ := Option.isSome_iff_exists.mp isStored
  have sought : sought u.tables id = .ok (some h) := by
    unfold sought
    rw [column]
    exact congrArg Except.ok stored
  obtain ⟨v, run, tables, unspoiled, later⟩ := Act.read_late (e := e) calm .selectPullRequest
    (fun t => PullRequests.sought t id) place' sound'.unspoiled
  obtain ⟨v', fetched, same, -, last⟩ := Act.read_late (e := e) calm .selectAssignments
    (fun t => .ok (t.assignedTo [h.id])) later unspoiled
  refine ⟨withReviewers (v.tables.assignedTo [h.id]) h,
    (j (.port .pullRequestGet) .after (v'.log (.left (.port .pullRequestGet)))).2, ?_, ?_, ?_⟩
  · have looked : select id (j.striking n e) u = (.ok (some h), v) := by
      rw [← sought]
      exact run
    have joined : selectAssignments [h] (j.striking n e) v =
        (.ok (v.tables.assignedTo [h.id]), v') := fetched
    simp only [get, Act.port_eq calm, Act.bind_apply]
    rw [looked]
    simp only [Act.bind_apply, joined]
    rfl
  · rwa [Act.statements_calm calm, v'.statements_log rfl]
  · exact calm.linked _ _ _ (by rw [World.log, same, tables]; exact sound'.linked)

/-! ### Writing -/

theorem breaks_writeReviewers (id : Value) (reviewers : List Value) {P : Statement → Failure → Prop}
    (deleting : P .deleteReviewers (.database e)) (inserting : P .insertReviewers (.database e)) :
    (writeReviewers id reviewers).Breaks (j.striking n e) n P := by
  refine .visiting calm rfl (.bind (.write calm _ _ _ deleting) fun _ => ?_)
  split
  · exact .pure _
  · exact .write calm _ _ _ inserting

theorem breaks_update (p : PullRequest) :
    (update p).Breaks (j.striking n e) n (Act.Classed e) := by
  refine .port_classed calm _ (.bind (.atomic (.bind (.write calm _ _ _ rfl) fun written => ?_))
    fun _ => .pure _)
  split
  · exact breaks_writeReviewers calm _ _ rfl rfl
  · refine .bind (.read calm _ _ rfl) fun stored => ?_
    split <;> exact .refuse _

theorem update_restores {p : PullRequest} {w v : World} {f : Failure}
    (run : update p (j.striking n e) w = (.error f, v)) :
    v.tables = (w.entered (j.striking n e) .pullRequestUpdate).tables ∧
      v.spoiled = (w.entered (j.striking n e) .pullRequestUpdate).spoiled := by
  obtain ⟨g, body, -⟩ := Act.port_eq_error calm run
  rw [Act.bind_apply] at body
  generalize exchanged : Act.atomic _ (j.striking n e) _ = outcome at body
  obtain ⟨h | a, u⟩ := outcome
  · cases body
    exact Act.atomic_restores exchanged
  · cases body

theorem isStored_late {id : Value} {content : Option String} (column : id.column = .ok content)
    {w : World} {struck : Statement} (place : w.statements[n]? = some struck)
    (unspoiled : w.spoiled = false) :
    ∃ v, isStored id (j.striking n e) w = (.ok (isTaken w.tables id), v) ∧
      v.statements[n]? = some struck := by
  obtain ⟨v, run, -, -, later⟩ := Act.read_late (e := e) calm .pullRequestExists
    (fun t => stored t id) place unspoiled
  rw [stored_eq column] at run
  exact ⟨v, run, later⟩

theorem stricken_create {p : PullRequest} {content : Option String}
    (column : p.id.column = .ok content) {w : World} (awaits : w.statements.length ≤ n)
    (unspoiled : w.spoiled = false) :
    Stricken n (fun s f => f = .refused (struckRefusal e
        (w.entered (j.striking n e) .pullRequestCreate).tables p.id s))
      (create p (j.striking n e) w) := by
  let u := w.entered (j.striking n e) .pullRequestCreate
  let told : Statement → Failure → Prop :=
    fun s f => f.classified = .refused (struckRefusal e u.tables p.id s)
  have entered : u.statements.length ≤ n := by rwa [Act.statements_entered calm]
  have sound : u.spoiled = false := (calm.spoiled _ _ _).trans unspoiled
  have looking : told .pullRequestExists (.database e) := by
    simp [told, struckRefusal, Failure.classified]
  have handling (f : Failure) : Act.Breaks (j.striking n e) n told (do
      if f.IsIntegrity then
        if ← isStored p.id then .refuse (taken p.id) else .fail f
      else .fail f : Act Unit) := by
    split
    · refine .bind (.read calm _ _ looking) fun found => ?_
      split
      · exact .refuse _
      · exact .fail f
    · exact .fail f
  have placing (createdAt : Timestamp) : (Act.atomic (do
      insert p createdAt
      writeReviewers p.id p.reviewers)).Breaks (j.striking n e) n
        fun s f => s ≠ .pullRequestExists ∧ f = .database e :=
    .atomic (.bind (.write calm _ _ _ ⟨by decide, rfl⟩) fun _ =>
      breaks_writeReviewers calm _ _ ⟨by decide, rfl⟩ ⟨by decide, rfl⟩)
  refine .port (P := told) calm _ ?_ fun s f told => told
  refine (Act.Breaks.now u entered).bind fun now v begun awaits => ?_
  cases begun
  refine Stricken.bind ((placing _ u awaits).orElse ?_ fun f v _ => handling f v)
    fun _ v _ awaits => Act.Breaks.pure _ v awaits
  rintro s f v failed place ⟨inserting, rfl⟩
  obtain ⟨tables, spoiled⟩ := Act.atomic_restores failed
  by_cases violated : e.kind = .integrity
  · rw [if_pos (show (Failure.database e).IsIntegrity from violated)]
    obtain ⟨v', run, later⟩ := isStored_late (e := e) calm column place (spoiled.trans sound)
    rw [Act.bind_apply, run, tables]
    cases stored : isTaken u.tables p.id with
    | true => exact .struck later rfl (by simp [told, struckRefusal, inserting, violated, stored])
    | false =>
      exact .struck later rfl (by simp [told, struckRefusal, stored, Failure.classified])
  · rw [if_neg (show ¬(Failure.database e).IsIntegrity from violated)]
    exact .struck place rfl (by simp [told, struckRefusal, violated, Failure.classified])

end PullRequests

/-- The call knows no key whose violation it would tell of. -/
def Call.IsPlain : Call → Prop
  | .teamCreate _ | .pullRequestCreate _ => False
  | _ => True

theorem Call.IsPlain.breaks {c : Call} (plain : c.IsPlain) :
    c.act.Breaks (j.striking n e) n (Act.Classed e) := by
  cases c with
  | userCreate u => exact (Users.breaks_create calm u).mono fun _ _ told => told.2
  | userUpdate u =>
    refine .port_classed calm _ (.bind (.write calm _ _ _ rfl) fun written => ?_)
    split
    · exact .pure u
    · exact .refuse _
  | userSetActive id active => exact Users.breaks_setActive calm id active
  | pullRequestUpdate p => exact PullRequests.breaks_update calm p
  | userGet | usersOfTeam | userList | teamGet | teamList | pullRequestGet
  | pullRequestsOfReviewer | pullRequestList => exact Call.IsReading.breaks calm trivial
  | teamCreate | pullRequestCreate => exact plain.elim

end ReviewRota
