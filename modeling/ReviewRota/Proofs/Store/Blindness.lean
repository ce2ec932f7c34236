import ReviewRota.Proofs.Store.Keeping
import ReviewRota.Store.Teams

/-!
# The journal has no say

Acts write the journal and never read it. From worlds that differ in nothing else, undisturbed runs
give the same result and end in worlds that differ in nothing else. There is one rule for each way
of building acts.
-/

namespace ReviewRota

/-- The worlds differ in their journals at most. -/
def World.Alike (w v : World) : Prop := ∃ journal, v = { w with journal := journal }

namespace World.Alike

variable {u v w : World}

theorem refl (w : World) : w.Alike w := ⟨w.journal, rfl⟩

theorem log (w : World) (e : Event) : w.Alike (w.log e) := ⟨_, rfl⟩

theorem symm (alike : w.Alike v) : v.Alike w := by
  obtain ⟨j, rfl⟩ := alike
  exact ⟨w.journal, rfl⟩

theorem trans (first : w.Alike v) (second : v.Alike u) : w.Alike u := by
  obtain ⟨j, rfl⟩ := first
  obtain ⟨k, rfl⟩ := second
  exact ⟨k, rfl⟩

theorem deeper (alike : w.Alike v) : w.deeper.Alike v.deeper := by
  obtain ⟨j, rfl⟩ := alike
  exact ⟨_, rfl⟩

theorem tables (alike : w.Alike v) : v.tables = w.tables := by
  obtain ⟨j, rfl⟩ := alike
  rfl

theorem resting (alike : w.Alike v) (resting : w.Resting) : v.Resting := by
  obtain ⟨j, rfl⟩ := alike
  exact ⟨resting.depth, resting.unspoiled, resting.linked⟩

end World.Alike

namespace Act

variable {α β : Type}

/-- The runs had the same result and left worlds that differ in their journals at most. -/
structure Agree (r s : Except Failure α × World) : Prop where
  result : r.1 = s.1
  world : r.2.Alike s.2

/-- The act does the same whatever the journal tells. -/
def Blind (x : Act α) : Prop := ∀ w v, w.Alike v → Agree (x .none w) (x .none v)

namespace Agree

variable {x y : Act α} {w v : World}

theorem bind {f : α → Act β} (first : Agree (x .none w) (y .none v)) (rest : ∀ a, (f a).Blind) :
    Agree ((x >>= f) .none w) ((y >>= f) .none v) := by
  rw [bind_apply, bind_apply]
  generalize x .none w = r at first
  generalize y .none v = s at first
  obtain ⟨e | a, w'⟩ := r <;> obtain ⟨e' | a', v'⟩ := s <;> obtain ⟨result, world⟩ := first <;>
    cases result
  · exact ⟨rfl, world⟩
  · exact rest a w' v' world

theorem orElse {handler : Failure → Act α} (first : Agree (x .none w) (y .none v))
    (rest : ∀ e, (handler e).Blind) :
    Agree (x.orElse handler .none w) (y.orElse handler .none v) := by
  rw [orElse_apply, orElse_apply]
  generalize x .none w = r at first
  generalize y .none v = s at first
  obtain ⟨e | a, w'⟩ := r <;> obtain ⟨e' | a', v'⟩ := s <;> obtain ⟨result, world⟩ := first <;>
    cases result
  · exact rest e w' v' world
  · exact ⟨rfl, world⟩

theorem atomic (alike : w.Alike v) (inner : Agree (x .none w.deeper) (y .none v.deeper)) :
    Agree (atomic x .none w) (atomic y .none v) := by
  obtain ⟨j, rfl⟩ := alike
  generalize run : x .none w.deeper = r at inner
  generalize run' : y .none (World.deeper { w with journal := j }) = s at inner
  obtain ⟨e | a, u⟩ := r <;> obtain ⟨e' | a', u'⟩ := s <;> obtain ⟨result, k, rfl⟩ := inner <;>
    cases result
  · rw [atomic_error run, atomic_error run']
    exact ⟨rfl, _, rfl⟩
  · rw [atomic_ok run, atomic_ok run']
    by_cases spoiled : u.spoiled = true
    · rw [if_pos spoiled, if_pos spoiled]
      exact ⟨rfl, _, rfl⟩
    · rw [if_neg spoiled, if_neg spoiled]
      by_cases dangling : w.depth = 0 ∧ ¬u.tables.Linked
      · rw [if_pos dangling, if_pos dangling]
        exact ⟨rfl, _, rfl⟩
      · rw [if_neg dangling, if_neg dangling]
        exact ⟨rfl, _, rfl⟩

end Agree

namespace Blind

theorem pure (a : α) : (pure a : Act α).Blind := fun _ _ alike => ⟨rfl, alike⟩

theorem fail (e : Failure) : (fail e : Act α).Blind := fun _ _ alike => ⟨rfl, alike⟩

theorem refuse (r : Refusal) : (refuse r : Act α).Blind := fun _ _ alike => ⟨rfl, alike⟩

theorem ofExcept (r : Except Failure α) : (ofExcept r).Blind := fun _ _ alike => ⟨rfl, alike⟩

theorem bind {x : Act α} {f : α → Act β} (first : x.Blind) (rest : ∀ a, (f a).Blind) :
    (x >>= f).Blind :=
  fun w v alike => (first w v alike).bind rest

theorem orElse {x : Act α} {handler : Failure → Act α} (first : x.Blind)
    (rest : ∀ e, (handler e).Blind) : (x.orElse handler).Blind :=
  fun w v alike => (first w v alike).orElse rest

theorem reach (p : Point) : (reach p).Blind :=
  fun w v alike => ⟨rfl, ((World.Alike.log w _).symm.trans alike).trans (.log v _)⟩

theorem leave (p : Point) : (leave p).Blind :=
  fun w v alike => ⟨rfl, ((World.Alike.log w _).symm.trans alike).trans (.log v _)⟩

theorem visiting (p : Point) {x : Act α} (inner : x.Blind) : (visiting p x).Blind :=
  .bind (.reach p) fun _ => .bind inner fun a => .bind (.leave p) fun _ => .pure a

theorem port (p : Port) {x : Act α} (inner : x.Blind) : (port p x).Blind :=
  .orElse (.visiting _ inner) fun _ => .fail _

theorem atomic {x : Act α} (inner : x.Blind) : (atomic x).Blind :=
  fun w v alike => .atomic alike (inner w.deeper v.deeper alike.deeper)

theorem checkTransaction : checkTransaction.Blind := by
  rintro w _ ⟨j, rfl⟩
  unfold Act.checkTransaction
  by_cases spoiled : w.spoiled = true
  · rw [if_pos spoiled, if_pos spoiled]
    exact ⟨rfl, j, rfl⟩
  · rw [if_neg spoiled, if_neg spoiled]
    exact ⟨rfl, j, rfl⟩

theorem world {f : World → Act α} (blind : ∀ w, (f w).Blind)
    (same : ∀ w j, f { w with journal := j } = f w) : (Act.world >>= f).Blind := by
  rintro w _ ⟨j, rfl⟩
  have agree := blind w w { w with journal := j } ⟨j, rfl⟩
  rw [bind_apply, bind_apply]
  simp only [world_apply, same]
  exact agree

theorem read (s : Statement) (f : Tables → Except Failure α) : (read s f).Blind :=
  .bind (.reach _) fun _ => .bind .checkTransaction fun _ => .world (fun _ => .ofExcept _)
    fun _ _ => rfl

theorem store (t : Tables) : (store t).Blind := by
  rintro w _ ⟨j, rfl⟩
  unfold Act.store
  by_cases dangling : w.depth = 0 ∧ ¬t.Linked
  · rw [if_pos dangling, if_pos dangling]
    exact ⟨rfl, j, rfl⟩
  · rw [if_neg dangling, if_neg dangling]
    exact ⟨rfl, j, rfl⟩

theorem spoil : spoil.Blind := by
  rintro w _ ⟨j, rfl⟩
  exact ⟨rfl, j, rfl⟩

theorem write (s : Statement) (values : Except Failure β)
    (f : β → Tables → Except Failure (α × Tables)) : (write s values f).Blind := by
  refine .orElse ?_ fun e => .bind .spoil fun _ => .fail e
  refine .bind (.reach _) fun _ => .bind (.ofExcept _) fun b => .bind .checkTransaction fun _ => ?_
  exact .world (fun _ => .bind (.ofExcept _) fun r => .bind (.store _) fun _ => .pure _)
    fun _ _ => rfl

end Blind

theorem Agree.port (p : Port) {x y : Act α} {w v : World}
    (inner : Agree (x .none (w.log (.reached (.port p)))) (y .none (v.log (.reached (.port p))))) :
    Agree (port p x .none w) (port p y .none v) := by
  refine .orElse ?_ fun e => .fail e.classified
  exact .bind inner fun a => .bind (.leave _) fun _ => .pure a

end Act

/-! ### Teams -/

theorem Users.blind_create (u : User) : (create u).Blind := by
  have inserting : (insertOrFind u).Blind := by
    refine .orElse (.atomic (.bind (.write _ _ _) fun _ => .pure _)) fun e => ?_
    split
    · refine .bind (.read _ _) fun found => ?_
      cases found with
      | none => exact .fail e
      | some r => exact .pure _
    · exact .fail e
  have rest (found : Option UserRow) : Act.Blind (if found.isSome then do
      let _ ← overwrite u
      return u
    else return u) := by
    split
    · exact .bind (.write _ _ _) fun _ => .pure u
    · exact .pure u
  refine .port _ (.atomic (.bind (.read _ _) fun found => ?_))
  cases found with
  | none => exact .bind inserting rest
  | some r => exact rest (some r)

theorem Teams.blind_enroll (team : Value) (ms : List MemberDraft) : (enroll team ms).Blind := by
  induction ms with
  | nil => exact .pure ()
  | cons m ms ih => exact .bind (Users.blind_create (memberOf team m)) fun _ => ih

end ReviewRota
