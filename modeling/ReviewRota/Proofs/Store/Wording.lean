import ReviewRota.Proofs.Store.Striking
import ReviewRota.Store.Call

/-!
# The words of an error

Storage looks at the kind of an error and at its codes and never at its message. Two runs that are
struck alike but for the message of the error take the same way and do the same to the world. Inside
a storage call they may fail in different words, but none of them leaves it.
-/

namespace ReviewRota

/-- The failures differ in the message of an error of the database at most. -/
inductive Failure.Reworded : Failure → Failure → Prop
  | same (f : Failure) : Reworded f f
  | database (e : DatabaseError) (message : String) :
    Reworded (.database e) (.database { e with message := message })

namespace Failure.Reworded

variable {f g : Failure}

theorem isIntegrity_iff (reworded : f.Reworded g) : f.IsIntegrity ↔ g.IsIntegrity := by
  cases reworded <;> rfl

theorem classified (reworded : f.Reworded g) : f.classified = g.classified := by
  cases reworded <;> rfl

end Failure.Reworded

/-- The runs have ended in the same world, with the same result or in failures that differ in their
words. -/
inductive Act.Twin {α : Type} : Except Failure α × World → Except Failure α × World → Prop
  | same (o : Except Failure α × World) : Twin o o
  | failed {f g : Failure} (reworded : f.Reworded g) (w : World) : Twin (.error f, w) (.error g, w)

/-- The same happens under both but for the words of errors, and at the checks of a deadline quite
the same. -/
structure Interruption.Twins (i j : Interruption) : Prop where
  point : ∀ p m w, Act.Twin (i p m w) (j p m w)
  deadline : ∀ m w, i .deadline m w = j .deadline m w

namespace Act

variable {α β : Type} {i j : Interruption}

def Same (i j : Interruption) (x y : Act α) : Prop := ∀ w, x i w = y j w

def Alike (i j : Interruption) (x y : Act α) : Prop := ∀ w, Twin (x i w) (y j w)

namespace Alike

variable {x y : Act α}

/-! ### Rules -/

theorem of_same (same : Same i j x y) : Alike i j x y := fun w => same w ▸ .same _

theorem pure (a : α) : Alike i j (pure a) (pure a) := of_same fun _ => rfl

theorem refuse (r : Refusal) : Alike i j (refuse r : Act α) (refuse r) := of_same fun _ => rfl

theorem ofExcept (r : Except Failure α) : Alike i j (ofExcept r) (ofExcept r) :=
  of_same fun _ => rfl

theorem fail {f g : Failure} (reworded : f.Reworded g) : Alike i j (fail f : Act α) (fail g) :=
  fun w => .failed reworded w

theorem bind {f g : α → Act β} (first : Alike i j x y) (rest : ∀ a, Alike i j (f a) (g a)) :
    Alike i j (x >>= f) (y >>= g) := by
  intro w
  have twin := first w
  rw [bind_apply, bind_apply]
  generalize x i w = o at twin
  generalize y j w = o' at twin
  cases twin with
  | failed reworded v => exact .failed reworded v
  | same =>
    obtain ⟨h | a, v⟩ := o
    · exact .same _
    · exact rest a v

theorem orElse {h k : Failure → Act α} (first : Alike i j x y)
    (rest : ∀ f g, f.Reworded g → Alike i j (h f) (k g)) :
    Alike i j (x.orElse h) (y.orElse k) := by
  intro w
  have twin := first w
  rw [orElse_apply, orElse_apply]
  generalize x i w = o at twin
  generalize y j w = o' at twin
  cases twin with
  | failed reworded v => exact rest _ _ reworded v
  | same =>
    obtain ⟨f | a, v⟩ := o
    · exact rest f f (.same f) v
    · exact .same _

theorem ite_isIntegrity {f g : Failure} (reworded : f.Reworded g) {x' y' : Act α}
    (violated : Alike i j x y) (other : Alike i j x' y') :
    Alike i j (if f.IsIntegrity then x else x') (if g.IsIntegrity then y else y') := by
  by_cases integrity : f.IsIntegrity
  · rw [if_pos integrity, if_pos (reworded.isIntegrity_iff.mp integrity)]
    exact violated
  · rw [if_neg integrity, if_neg (mt reworded.isIntegrity_iff.mpr integrity)]
    exact other

theorem atomic (inner : Alike i j x y) : Alike i j (atomic x) (atomic y) := by
  intro w
  have twin := inner w.deeper
  generalize run : x i w.deeper = o at twin
  generalize run' : y j w.deeper = o' at twin
  cases twin with
  | failed reworded v =>
    rw [atomic_error run, atomic_error run']
    exact .failed reworded _
  | same =>
    obtain ⟨f | a, v⟩ := o
    · rw [atomic_error run, atomic_error run']
      exact .same _
    · rw [atomic_ok run, atomic_ok run']
      exact .same _

section

variable (twins : i.Twins j)
include twins

theorem reach (p : Point) : Alike i j (reach p) (reach p) := fun _ => twins.point p .before _

theorem leave (p : Point) : Alike i j (leave p) (leave p) := fun _ => twins.point p .after _

theorem visiting (p : Point) (inner : Alike i j x y) :
    Alike i j (visiting p x) (visiting p y) :=
  .bind (.reach twins p) fun _ => .bind inner fun a => .bind (.leave twins p) fun _ => .pure a

theorem read (s : Statement) (f : Tables → Except Failure α) :
    Alike i j (read s f) (read s f) :=
  .bind (.reach twins _) fun _ => .bind (.of_same fun _ => rfl) fun _ =>
    .bind (.of_same fun _ => rfl) fun _ => .ofExcept _

theorem write (s : Statement) (values : Except Failure β)
    (f : β → Tables → Except Failure (α × Tables)) :
    Alike i j (write s values f) (write s values f) :=
  .orElse (.bind (.reach twins _) fun _ => .of_same fun _ => rfl) fun _ _ reworded =>
    .bind (.of_same fun _ => rfl) fun _ => .fail reworded

end

end Alike

theorem Same.bind {x y : Act α} {f g : α → Act β} (first : Same i j x y)
    (rest : ∀ a, Same i j (f a) (g a)) : Same i j (x >>= f) (y >>= g) := by
  intro w
  rw [bind_apply, bind_apply, first w]
  generalize y j w = o
  obtain ⟨f | a, v⟩ := o
  · rfl
  · exact rest a v

theorem Same.atomic {x y : Act α} (inner : Same i j x y) : Same i j (atomic x) (atomic y) := by
  intro w
  unfold Act.atomic
  rw [inner]

/-- A storage call drops the words of the error. -/
theorem Same.port (twins : i.Twins j) (p : Port) {x y : Act α} (inner : Alike i j x y) :
    Same i j (port p x) (port p y) := by
  intro w
  have twin := Alike.visiting twins (.port p) inner w
  unfold Act.port
  rw [orElse_apply, orElse_apply]
  generalize visiting (.port p) x i w = o at twin
  generalize visiting (.port p) y j w = o' at twin
  cases twin with
  | failed reworded v => exact congrArg (fun f => (Except.error f, v)) reworded.classified
  | same => rfl

end Act

/-! ### Calls -/

section

variable {i j : Interruption} (twins : i.Twins j)
include twins

theorem Users.alike_insertOrFind (u : User) :
    Act.Alike i j (insertOrFind u) (insertOrFind u) := by
  refine .orElse (.atomic (.bind (.write twins _ _ _) fun _ => .pure _)) fun f g reworded => ?_
  refine .ite_isIntegrity reworded (.bind (.read twins _ _) fun found => ?_) (.fail reworded)
  cases found with
  | some r => exact .pure _
  | none => exact .fail reworded

theorem Users.same_create (u : User) : Act.Same i j (create u) (create u) := by
  let rest (found : Option UserRow) : Act User :=
    if found.isSome then do
      let _ ← overwrite u
      return u
    else return u
  have overwriting (found : Option UserRow) : Act.Alike i j (rest found) (rest found) := by
    dsimp only [rest]
    split
    · exact .bind (.write twins _ _ _) fun _ => .pure u
    · exact .pure u
  refine .port twins _ (.atomic (.bind (.read twins _ _) fun found => ?_))
  cases found with
  | some r => exact overwriting (some r)
  | none => exact .bind (alike_insertOrFind twins u) overwriting

theorem Teams.alike_enroll (team : Value) (ms : List MemberDraft) :
    Act.Alike i j (enroll team ms) (enroll team ms) := by
  induction ms with
  | nil => exact .pure ()
  | cons m ms ih => exact .bind (.of_same (Users.same_create twins (memberOf team m))) fun _ => ih

theorem Teams.same_create (t : Team) : Act.Same i j (create t) (create t) := by
  refine .port twins _ (.bind (.atomic (.bind (.read twins _ _) fun stored => ?_)) fun _ =>
    .bind (.ofExcept _) fun _ => .pure _)
  have inserting : Act.Alike i j (Act.atomic (.visiting .teamInsertion (insert t.name)))
      (Act.atomic (.visiting .teamInsertion (insert t.name))) :=
    .atomic (.visiting twins _ (.write twins _ _ _))
  have rest := (inserting.orElse fun f g reworded =>
    .ite_isIntegrity reworded (.refuse (taken t.name)) (.fail reworded)).bind
      fun _ => alike_enroll twins t.name t.members
  split
  · exact .bind (.refuse _) fun _ => rest
  · exact rest

theorem PullRequests.alike_writeReviewers (id : Value) (reviewers : List Value) :
    Act.Alike i j (writeReviewers id reviewers) (writeReviewers id reviewers) := by
  refine .visiting twins _ (.bind (.write twins _ _ _) fun _ => ?_)
  split
  · exact .pure _
  · exact .write twins _ _ _

theorem PullRequests.same_create (p : PullRequest) : Act.Same i j (create p) (create p) := by
  refine .port twins _ (.bind (.of_same fun _ => rfl) fun now => .bind (.orElse (.atomic
    (.bind (.write twins _ _ _) fun _ => alike_writeReviewers twins _ _)) fun f g reworded => ?_)
    fun _ => .pure _)
  refine .ite_isIntegrity reworded (.bind (.read twins _ _) fun stored => ?_) (.fail reworded)
  split
  · exact .refuse _
  · exact .fail reworded

theorem PullRequests.same_update (p : PullRequest) : Act.Same i j (update p) (update p) := by
  refine .port twins _ (.bind (.atomic (.bind (.write twins _ _ _) fun written => ?_)) fun _ =>
    .pure _)
  split
  · exact alike_writeReviewers twins _ _
  · refine .bind (.read twins _ _) fun stored => ?_
    split <;> exact .refuse _

theorem Teams.alike_complete (names : List String) :
    Act.Alike i j (complete names) (complete names) := by
  unfold complete
  split
  · exact .pure _
  · exact .bind (.read twins _ _) fun _ => .pure _

theorem PullRequests.alike_complete (hs : List PullRequestHead) :
    Act.Alike i j (complete hs) (complete hs) := by
  unfold complete
  split
  · exact .pure _
  · exact .bind (.read twins _ _) fun _ => .pure _

theorem Call.same_act (c : Call) : Act.Same i j c.act c.act := by
  cases c with
  | userCreate u => exact Users.same_create twins u
  | userUpdate u =>
    refine .port twins _ (.bind (.write twins _ _ _) fun written => ?_)
    split
    · exact .pure u
    · exact .refuse _
  | userGet id =>
    refine .port twins _ (.bind (.read twins _ _) fun found => ?_)
    cases found with
    | some r => exact .pure r
    | none => exact .refuse _
  | userSetActive id active =>
    refine .port twins _ (.atomic (.bind (.write twins _ _ _) fun written => ?_))
    split
    · refine .bind (.read twins _ _) fun found => ?_
      cases found with
      | some r => exact .pure r
      | none => exact .refuse _
    · exact .refuse _
  | usersOfTeam team =>
    refine .port twins _ ?_
    split
    · exact .pure _
    · exact .read twins _ _
  | userList => exact .port twins _ (.read twins _ _)
  | teamCreate t => exact Teams.same_create twins t
  | teamGet name =>
    refine .port twins _ (.bind (.read twins _ _) fun us => ?_)
    split
    · exact .refuse _
    · exact .pure _
  | teamList =>
    exact .port twins _ (.bind (.read twins _ _) fun _ => Teams.alike_complete twins _)
  | pullRequestCreate p => exact PullRequests.same_create twins p
  | pullRequestUpdate p => exact PullRequests.same_update twins p
  | pullRequestGet id =>
    refine .port twins _ (.bind (.read twins _ _) fun found => ?_)
    cases found with
    | some h => exact .bind (.read twins _ _) fun _ => .pure _
    | none => exact .refuse _
  | pullRequestsOfReviewer id =>
    exact .port twins _ (.bind (.read twins _ _) fun _ => PullRequests.alike_complete twins _)
  | pullRequestList =>
    exact .port twins _ (.bind (.read twins _ _) fun _ => PullRequests.alike_complete twins _)

end

end ReviewRota
