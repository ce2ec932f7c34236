import ReviewRota.Proofs.Store.Keeping
import ReviewRota.Proofs.Store.Tables
import ReviewRota.Store.Call

/-!
# What storage calls keep

Calls that only read keep every property that the interruption keeps, calls about users and teams
keep the pull requests, every call keeps the keys, and outside of transactions every call keeps the
references.
-/

namespace ReviewRota

/-! ### Calls that read -/

def Call.IsReading : Call → Prop
  | .userCreate _ | .userUpdate _ | .userSetActive .. | .teamCreate _ => False
  | .pullRequestCreate _ | .pullRequestUpdate _ => False
  | _ => True

section Reading

variable {I : World → Prop} {i : Interruption}

theorem Users.keeps_get (hi : i.Keeps I) (id : Value) : (Users.get id).Keeps I i := by
  refine .port hi _ (.bind (.read hi _ _) fun found => ?_)
  cases found with
  | none => exact .refuse _
  | some u => exact .pure u

theorem Users.keeps_ofTeam (hi : i.Keeps I) (team : Value) : (Users.ofTeam team).Keeps I i := by
  refine .port hi _ ?_
  split
  · exact .pure _
  · exact .read hi _ _

theorem Teams.keeps_get (hi : i.Keeps I) (name : Value) : (Teams.get name).Keeps I i := by
  refine .port hi _ (.bind (.read hi _ _) fun us => ?_)
  split
  · exact .refuse _
  · exact .pure _

theorem Teams.keeps_complete (hi : i.Keeps I) (names : List String) :
    (Teams.complete names).Keeps I i := by
  unfold Teams.complete
  split
  · exact .pure _
  · exact .bind (.read hi _ _) fun _ => .pure _

theorem PullRequests.keeps_get (hi : i.Keeps I) (id : Value) :
    (PullRequests.get id).Keeps I i := by
  refine .port hi _ (.bind (.read hi _ _) fun found => ?_)
  cases found with
  | none => exact .refuse _
  | some h => exact .bind (.read hi _ _) fun _ => .pure _

theorem PullRequests.keeps_complete (hi : i.Keeps I) (hs : List PullRequestHead) :
    (PullRequests.complete hs).Keeps I i := by
  unfold PullRequests.complete
  split
  · exact .pure _
  · exact .bind (.read hi _ _) fun _ => .pure _

theorem Call.IsReading.keeps {c : Call} (reading : c.IsReading) (hi : i.Keeps I) :
    c.act.Keeps I i := by
  cases c with
  | userGet id => exact Users.keeps_get hi id
  | usersOfTeam team => exact Users.keeps_ofTeam hi team
  | userList => exact .port hi _ (.read hi _ _)
  | teamGet name => exact Teams.keeps_get hi name
  | teamList => exact .port hi _ (.bind (.read hi _ _) fun _ => Teams.keeps_complete hi _)
  | pullRequestGet id => exact PullRequests.keeps_get hi id
  | pullRequestsOfReviewer id =>
    exact .port hi _ (.bind (.read hi _ _) fun _ => PullRequests.keeps_complete hi _)
  | pullRequestList =>
    exact .port hi _ (.bind (.read hi _ _) fun _ => PullRequests.keeps_complete hi _)
  | userCreate | userUpdate | userSetActive | teamCreate | pullRequestCreate
  | pullRequestUpdate => exact reading.elim

end Reading

/-! ### Calls that write -/

/-- What a statement about users or teams can do to the tables. -/
inductive Tables.RosterWrite (t : Tables) : Tables → Prop
  | nothing : RosterWrite t t
  | team {name : String} (fresh : ¬t.HasTeam name) : RosterWrite t (t.addTeam name)
  | user {u : UserRow} (fresh : ¬t.HasUser u.id) : RosterWrite t (t.addUser u)
  | change (id : String) {f : UserRow → UserRow} (keeps : ∀ u, u.id = id → (f u).id = id) :
      RosterWrite t (t.modifyUser id f)

namespace Tables.RosterWrite

variable {t u : Tables}

theorem keyed (h : t.RosterWrite u) (keyed : t.Keyed) : u.Keyed := by
  cases h with
  | nothing => exact keyed
  | team fresh => exact keyed.addTeam fresh
  | user fresh => exact keyed.addUser fresh
  | change id keeps => exact keyed.modifyUser id keeps

theorem pullRequests (h : t.RosterWrite u) : u.pullRequests = t.pullRequests := by
  cases h <;> rfl

end Tables.RosterWrite

section RosterWrites

variable {I : Tables → Prop} {i : Interruption} (hi : i.Keeps (World.With I))
  (hI : ∀ t u : Tables, t.RosterWrite u → I t → I u)
include hi hI

namespace Users

theorem keeps_insert (u : User) : (insert u).Keeps (World.With I) i := by
  refine .write hi _ _ fun active t _ v done => hI t v ?_
  obtain ⟨r, _, done⟩ := bind_eq_ok_iff.mp done
  split at done
  · cases done
  · cases done
    exact .user ‹_›

theorem keeps_overwrite (u : User) : (overwrite u).Keeps (World.With I) i := by
  refine .write hi _ _ fun active t _ v done => hI t v ?_
  obtain ⟨username, _, done⟩ := bind_eq_ok_iff.mp done
  obtain ⟨team, _, done⟩ := bind_eq_ok_iff.mp done
  obtain ⟨id, _, done⟩ := bind_eq_ok_iff.mp done
  cases id with
  | none =>
    cases done
    exact .nothing
  | some id =>
    dsimp only at done
    split at done
    · obtain ⟨username, _, done⟩ := bind_eq_ok_iff.mp done
      obtain ⟨active, _, done⟩ := bind_eq_ok_iff.mp done
      cases done
      exact .change id fun _ same => same
    · cases done
      exact .nothing

theorem keeps_setFlag (id active : Value) : (setFlag id active).Keeps (World.With I) i := by
  refine .write hi _ _ fun active t _ v done => hI t v ?_
  obtain ⟨id, _, done⟩ := bind_eq_ok_iff.mp done
  cases id with
  | none =>
    cases done
    exact .nothing
  | some id =>
    dsimp only at done
    split at done
    · obtain ⟨active, _, done⟩ := bind_eq_ok_iff.mp done
      cases done
      exact .change id fun _ same => same
    · cases done
      exact .nothing

theorem keeps_insertOrFind (u : User) : (insertOrFind u).Keeps (World.With I) i := by
  refine .orElse (.atomic (.bind (keeps_insert hi hI u) fun _ => .pure _)) fun e => ?_
  split
  · refine .bind (.read hi _ _) fun found => ?_
    cases found with
    | none => exact .fail e
    | some r => exact .pure _
  · exact .fail e

theorem keeps_create (u : User) : (create u).Keeps (World.With I) i := by
  refine .port hi _ (.atomic (.bind (.read hi _ _) fun found => ?_))
  have rest (found : Option UserRow) : Act.Keeps (World.With I) i (if found.isSome then do
      let _ ← overwrite u
      return u
    else return u) := by
    split
    · exact .bind (keeps_overwrite hi hI u) fun _ => .pure u
    · exact .pure u
  cases found with
  | none => exact .bind (keeps_insertOrFind hi hI u) rest
  | some r => exact rest (some r)

theorem keeps_update (u : User) : (update u).Keeps (World.With I) i := by
  refine .port hi _ (.bind (keeps_overwrite hi hI u) fun found => ?_)
  split
  · exact .pure u
  · exact .refuse _

theorem keeps_setActive (id active : Value) : (setActive id active).Keeps (World.With I) i := by
  refine .port hi _ (.atomic (.bind (keeps_setFlag hi hI id active) fun found => ?_))
  split
  · refine .bind (.read hi _ _) fun stored => ?_
    cases stored with
    | none => exact .refuse _
    | some r => exact .pure r
  · exact .refuse _

end Users

namespace Teams

theorem keeps_insert (name : Value) : (insert name).Keeps (World.With I) i := by
  refine .write hi _ _ fun _ t _ v done => hI t v ?_
  obtain ⟨column, _, done⟩ := bind_eq_ok_iff.mp done
  obtain ⟨name, _, done⟩ := bind_eq_ok_iff.mp done
  split at done
  · cases done
  · cases done
    exact .team ‹_›

theorem keeps_enroll (team : Value) (ms : List MemberDraft) :
    (enroll team ms).Keeps (World.With I) i := by
  induction ms with
  | nil => exact .pure ()
  | cons m ms ih => exact .bind (Users.keeps_create hi hI (memberOf team m)) fun _ => ih

theorem keeps_create (t : Team) : (create t).Keeps (World.With I) i := by
  refine .port hi _ (.bind (.atomic (.bind (.read hi _ _) fun stored => ?_)) fun _ =>
    .bind (.ofExcept _) fun _ => .pure _)
  have rest : Act.Keeps (World.With I) i (do
      (Act.atomic (.visiting .teamInsertion (insert t.name))).orElse (fun e =>
        if e.IsIntegrity then .refuse (taken t.name) else .fail e)
      enroll t.name t.members) := by
    refine .bind (.orElse (.atomic (.visiting hi _ (keeps_insert hi hI t.name))) fun e => ?_)
      fun _ => keeps_enroll hi hI t.name t.members
    split
    · exact .refuse _
    · exact .fail e
  split
  · exact .bind (.refuse _) fun _ => rest
  · exact rest

end Teams

end RosterWrites

@[simp] def Call.WritesPullRequest : Call → Prop
  | .pullRequestCreate _ | .pullRequestUpdate _ => True
  | _ => False

theorem Call.keeps_of_rosterWrite {I : Tables → Prop} {i : Interruption}
    (hi : i.Keeps (World.With I)) (hI : ∀ t u : Tables, t.RosterWrite u → I t → I u) {c : Call}
    (h : ¬c.WritesPullRequest) :
    c.act.Keeps (World.With I) i := by
  cases c with
  | userCreate u => exact Users.keeps_create hi hI u
  | userUpdate u => exact Users.keeps_update hi hI u
  | userSetActive id active => exact Users.keeps_setActive hi hI id active
  | teamCreate t => exact Teams.keeps_create hi hI t
  | pullRequestCreate | pullRequestUpdate => exact absurd trivial h
  | userGet | usersOfTeam | userList | teamGet | teamList | pullRequestGet
  | pullRequestsOfReviewer | pullRequestList => exact Call.IsReading.keeps trivial hi

theorem Call.keeps_pullRequests {rows : List PullRequestRow} {i : Interruption}
    (hi : i.Keeps (World.With fun t => t.pullRequests = rows)) {c : Call}
    (h : ¬c.WritesPullRequest) :
    c.act.Keeps (World.With fun t => t.pullRequests = rows) i :=
  Call.keeps_of_rosterWrite hi (fun _ _ wrote same => wrote.pullRequests.trans same) h

/-- What a statement about pull requests can do to the tables; one that inserts several rows does so
row by row. -/
inductive Tables.PullRequestWrite (t : Tables) : Tables → Prop
  | nothing : PullRequestWrite t t
  | added {h : PullRequestHead} (fresh : t.head? h.id = none) : PullRequestWrite t (t.addHead h)
  | change (id : String) {f : PullRequestHead → PullRequestHead}
      (keeps : ∀ h, h.id = id → (f h).id = id) : PullRequestWrite t (t.modifyHead id f)
  | unassigned (id : String) : PullRequestWrite t (t.unassign id)
  | assigned {a : Assignment} (fresh : ¬t.HasAssignment a.pullRequest a.reviewer) :
      PullRequestWrite t (t.addAssignment a)

namespace Tables.PullRequestWrite

variable {t u : Tables}

theorem keyed (h : t.PullRequestWrite u) (keyed : t.Keyed) : u.Keyed := by
  cases h with
  | nothing => exact keyed
  | added fresh => exact keyed.addHead fresh
  | change id keeps => exact keyed.modifyHead id keeps
  | unassigned id => exact keyed.unassign id
  | assigned fresh => exact keyed.addAssignment fresh

theorem users (h : t.PullRequestWrite u) : u.users = t.users := by
  cases h <;> rfl

theorem teams (h : t.PullRequestWrite u) : u.teams = t.teams := by
  cases h <;> rfl

end Tables.PullRequestWrite

namespace PullRequests

variable {I : Tables → Prop} {i : Interruption} (hi : i.Keeps (World.With I))
  (hI : ∀ t u : Tables, t.PullRequestWrite u → I t → I u)
include hi hI

theorem keeps_insert (p : PullRequest) (createdAt : Timestamp) :
    (insert p createdAt).Keeps (World.With I) i := by
  refine .write hi _ _ fun _ t _ v done => hI t v ?_
  obtain ⟨_, _, done⟩ := bind_eq_ok_iff.mp done
  obtain ⟨_, _, done⟩ := bind_eq_ok_iff.mp done
  obtain ⟨_, _, done⟩ := bind_eq_ok_iff.mp done
  obtain ⟨_, _, done⟩ := bind_eq_ok_iff.mp done
  obtain ⟨id, _, done⟩ := bind_eq_ok_iff.mp done
  obtain ⟨_, _, done⟩ := bind_eq_ok_iff.mp done
  obtain ⟨_, _, done⟩ := bind_eq_ok_iff.mp done
  obtain ⟨_, _, done⟩ := bind_eq_ok_iff.mp done
  split at done
  · cases done
  · rename_i fresh
    cases done
    exact .added (by simpa using fresh)

theorem keeps_overwrite (p : PullRequest) : (overwrite p).Keeps (World.With I) i := by
  refine .write hi _ _ fun _ t _ v done => hI t v ?_
  obtain ⟨_, _, done⟩ := bind_eq_ok_iff.mp done
  obtain ⟨_, _, done⟩ := bind_eq_ok_iff.mp done
  obtain ⟨id, _, done⟩ := bind_eq_ok_iff.mp done
  cases id with
  | none =>
    cases done
    exact .nothing
  | some id =>
    dsimp only at done
    split at done
    · obtain ⟨_, _, done⟩ := bind_eq_ok_iff.mp done
      obtain ⟨_, _, done⟩ := bind_eq_ok_iff.mp done
      cases done
      exact .change id fun _ same => same
    · cases done
      exact .nothing

omit hi in
theorem assign_keeps {k r : Option String} {n : Nat} {t u : Tables} (done : assign k r n t = .ok u)
    (holds : I t) : I u := by
  obtain ⟨k, _, done⟩ := bind_eq_ok_iff.mp done
  obtain ⟨r, _, done⟩ := bind_eq_ok_iff.mp done
  split at done
  · cases done
  · rename_i fresh
    cases done
    exact hI t _ (.assigned fresh) holds

omit hi in
theorem assignFrom_keeps {k : Option String} {rs : List (Option String)} {n : Nat} {t u : Tables}
    (done : assignFrom k n rs t = .ok u) (holds : I t) : I u := by
  induction rs generalizing n t with
  | nil =>
    cases done
    exact holds
  | cons r rs ih =>
    obtain ⟨v, first, later⟩ := bind_eq_ok_iff.mp done
    exact ih later (assign_keeps hI first holds)

theorem keeps_deleteReviewers (id : Value) : (deleteReviewers id).Keeps (World.With I) i := by
  refine .write hi _ _ fun _ t _ v done => hI t v ?_
  obtain ⟨id, _, done⟩ := bind_eq_ok_iff.mp done
  cases id with
  | none =>
    cases done
    exact .nothing
  | some id =>
    cases done
    exact .unassigned id

theorem keeps_insertReviewers (id : Value) (rs : List Value) :
    (insertReviewers id rs).Keeps (World.With I) i := by
  refine .write hi _ _ fun _ t _ v done holds => ?_
  obtain ⟨_, _, done⟩ := bind_eq_ok_iff.mp done
  obtain ⟨_, _, done⟩ := bind_eq_ok_iff.mp done
  obtain ⟨u, assigned, done⟩ := bind_eq_ok_iff.mp done
  cases done
  exact assignFrom_keeps hI assigned holds

theorem keeps_writeReviewers (id : Value) (rs : List Value) :
    (writeReviewers id rs).Keeps (World.With I) i := by
  refine .visiting hi _ (.bind (keeps_deleteReviewers hi hI id) fun _ => ?_)
  split
  · exact .pure ()
  · exact keeps_insertReviewers hi hI id rs

theorem keeps_create (p : PullRequest) : (create p).Keeps (World.With I) i := by
  refine .port hi _ (.bind .now fun _ => .bind (.orElse (.atomic (.bind
    (keeps_insert hi hI p _) fun _ => keeps_writeReviewers hi hI _ _)) fun e => ?_)
    fun _ => .pure _)
  split
  · refine .bind (.read hi _ _) fun stored => ?_
    split
    · exact .refuse _
    · exact .fail e
  · exact .fail e

theorem keeps_update (p : PullRequest) : (update p).Keeps (World.With I) i := by
  refine .port hi _ (.bind (.atomic (.bind (keeps_overwrite hi hI p) fun written => ?_))
    fun _ => .pure _)
  split
  · exact keeps_writeReviewers hi hI _ _
  · refine .bind (.read hi _ _) fun stored => ?_
    split <;> exact .refuse _

end PullRequests

@[simp] def Call.WritesRoster : Call → Prop
  | .userCreate _ | .userUpdate _ | .userSetActive .. | .teamCreate _ => True
  | _ => False

theorem Call.keeps_of_pullRequestWrite {I : Tables → Prop} {i : Interruption}
    (hi : i.Keeps (World.With I)) (hI : ∀ t u : Tables, t.PullRequestWrite u → I t → I u) {c : Call}
    (h : ¬c.WritesRoster) : c.act.Keeps (World.With I) i := by
  cases c with
  | pullRequestCreate p => exact PullRequests.keeps_create hi hI p
  | pullRequestUpdate p => exact PullRequests.keeps_update hi hI p
  | userCreate | userUpdate | userSetActive | teamCreate => exact absurd trivial h
  | userGet | usersOfTeam | userList | teamGet | teamList | pullRequestGet
  | pullRequestsOfReviewer | pullRequestList => exact Call.IsReading.keeps trivial hi

/-- Every call keeps the keys. -/
theorem Call.keeps_keyed {i : Interruption} (hi : i.Keeps (World.With Tables.Keyed)) (c : Call) :
    c.act.Keeps (World.With Tables.Keyed) i := by
  by_cases h : c.WritesPullRequest
  · apply Call.keeps_of_pullRequestWrite hi fun _ _ wrote keyed => wrote.keyed keyed
    cases c with
    | pullRequestCreate | pullRequestUpdate => exact id
    | _ => exact h.elim
  · exact Call.keeps_of_rosterWrite hi (fun _ _ wrote keyed => wrote.keyed keyed) h

/-- Outside of transactions every call keeps the references and leaves no transaction open. -/
theorem Call.keeps_resting {i : Interruption} (hi : i.Keeps World.Resting) (c : Call) :
    c.act.Keeps World.Resting i := by
  cases c with
  | userCreate u => exact .port hi _ (.resting_atomic _)
  | userUpdate u =>
    refine .port hi _ (.bind (.resting_write hi _ _ _) fun found => ?_)
    split
    · exact .pure u
    · exact .refuse _
  | userSetActive id active => exact .port hi _ (.resting_atomic _)
  | teamCreate t =>
    exact .port hi _ (.bind (.resting_atomic _) fun _ => .bind (.ofExcept _) fun _ => .pure _)
  | pullRequestCreate p =>
    refine .port hi _ (.bind .now fun _ => .bind (.orElse (.resting_atomic _) fun e => ?_)
      fun _ => .pure _)
    split
    · refine .bind (.read hi _ _) fun stored => ?_
      split
      · exact .refuse _
      · exact .fail e
    · exact .fail e
  | pullRequestUpdate p =>
    exact .port hi _ (.bind (.resting_atomic _) fun _ => .pure _)
  | userGet | usersOfTeam | userList | teamGet | teamList | pullRequestGet
  | pullRequestsOfReviewer | pullRequestList => exact Call.IsReading.keeps trivial hi

end ReviewRota
