import Mathlib.Logic.Basic
import ReviewRota.Store.Act

/-!
# What acts keep

A property of worlds is kept by an act under an interruption if the act leads from worlds that have
it to worlds that have it, whether it succeeds or fails. There is one rule for each way of building
acts. Properties of the tables alone are also kept by transactions, which end with the tables of
their act or with those that they began with.
-/

namespace ReviewRota

/-- The journal has no part in the property, and no interruption destroys it. -/
structure Interruption.Keeps (I : World → Prop) (i : Interruption) : Prop where
  log : ∀ w e, I w → I (w.log e)
  point : ∀ p m w, I w → I (i p m w).2

abbrev World.With (I : Tables → Prop) : World → Prop := fun w => I w.tables

theorem Interruption.keeps_none {I : World → Prop} (log : ∀ w e, I w → I (w.log e)) :
    Interruption.none.Keeps I :=
  ⟨log, fun _ _ _ h => h⟩

theorem Interruption.with_none (I : Tables → Prop) : Interruption.none.Keeps (World.With I) :=
  keeps_none fun _ _ h => h

theorem bind_eq_ok_iff {ε α β : Type} {x : Except ε α} {f : α → Except ε β} {b : β} :
    (x >>= f) = .ok b ↔ ∃ a, x = .ok a ∧ f a = .ok b := by
  cases x with
  | error e => exact ⟨nofun, nofun⟩
  | ok a => exact ⟨fun h => ⟨a, rfl, h⟩, fun ⟨_, same, h⟩ => by cases same; exact h⟩

/-! ### Transactions -/

def World.deeper (w : World) : World := { w.log .opened with depth := w.depth + 1 }

namespace Act

variable {α β : Type} {I : World → Prop} {i : Interruption}

theorem atomic_ok {x : Act α} {w v : World} {a : α} (run : x i w.deeper = (.ok a, v)) :
    atomic x i w =
      if v.spoiled then (.ok a, rollBack w (v.log .closed))
      else if w.depth = 0 ∧ ¬v.tables.Linked then
        (.error (.database danglingReference), rollBack w (v.log .closed))
      else (.ok a, { v.log .closed with depth := w.depth }) := by
  unfold World.deeper at run
  unfold atomic
  rw [run]
  rfl

theorem atomic_error {x : Act α} {w v : World} {e : Failure} (run : x i w.deeper = (.error e, v)) :
    atomic x i w = (.error e, rollBack w (v.log .closed)) := by
  unfold World.deeper at run
  unfold atomic
  rw [run]

/-! ### Rules -/

def Keeps (I : World → Prop) (i : Interruption) (x : Act α) : Prop := ∀ w, I w → I (x i w).2

namespace Keeps

theorem pure (a : α) : (pure a : Act α).Keeps I i := fun _ h => h

theorem fail (e : Failure) : (fail e : Act α).Keeps I i := fun _ h => h

theorem refuse (r : Refusal) : (refuse r : Act α).Keeps I i := fun _ h => h

theorem ofExcept (r : Except Failure α) : (ofExcept r).Keeps I i := fun _ h => h

theorem world : Act.world.Keeps I i := fun _ h => h

theorem now : Act.now.Keeps I i := fun _ h => h

theorem modify {f : World → World} (hf : ∀ w, I w → I (f w)) : (Act.modify f).Keeps I i := hf

theorem bind {x : Act α} {f : α → Act β} (hx : x.Keeps I i) (hf : ∀ a, (f a).Keeps I i) :
    (x >>= f).Keeps I i := by
  intro w h
  have first := hx w h
  rw [bind_apply]
  generalize x i w = outcome at first ⊢
  obtain ⟨_ | a, v⟩ := outcome
  · exact first
  · exact hf a v first

theorem attempt {x : Act α} (hx : x.Keeps I i) : x.attempt.Keeps I i := hx

theorem orElse {x : Act α} {handler : Failure → Act α} (hx : x.Keeps I i)
    (hh : ∀ e, (handler e).Keeps I i) : (x.orElse handler).Keeps I i := by
  intro w h
  have first := hx w h
  rw [orElse_apply]
  generalize x i w = outcome at first ⊢
  obtain ⟨e | _, v⟩ := outcome
  · exact hh e v first
  · exact first

theorem reach (hi : i.Keeps I) (p : Point) : (reach p).Keeps I i :=
  fun w h => hi.point p .before (w.log (.reached p)) (hi.log w _ h)

theorem leave (hi : i.Keeps I) (p : Point) : (leave p).Keeps I i :=
  fun w h => hi.point p .after (w.log (.left p)) (hi.log w _ h)

theorem visiting (hi : i.Keeps I) (p : Point) {x : Act α} (hx : x.Keeps I i) :
    (visiting p x).Keeps I i :=
  .bind (.reach hi p) fun _ => .bind hx fun a => .bind (.leave hi p) fun _ => .pure a

theorem port (hi : i.Keeps I) (p : Port) {x : Act α} (hx : x.Keeps I i) : (port p x).Keeps I i :=
  .orElse (.visiting hi (.port p) hx) fun _ => .fail _

theorem checkTransaction : Act.checkTransaction.Keeps I i := by
  intro w h
  unfold Act.checkTransaction
  split <;> exact h

theorem read (hi : i.Keeps I) (s : Statement) (f : Tables → Except Failure α) :
    (read s f).Keeps I i :=
  .bind (.reach hi _) fun _ => .bind .checkTransaction fun _ => .bind .world fun _ => .ofExcept _

end Keeps

/-! ### Properties of the tables -/

namespace Keeps

variable {I : Tables → Prop}

/-- A transaction ends with the tables of its act or with those that it began with. -/
theorem atomic {x : Act α} (hx : x.Keeps (World.With I) i) :
    (atomic x).Keeps (World.With I) i := by
  intro w h
  have inner := hx w.deeper h
  generalize run : x i w.deeper = outcome at inner
  obtain ⟨e | a, v⟩ := outcome
  · rw [atomic_error run]
    exact h
  · rw [atomic_ok run]
    split
    · exact h
    · split
      · exact h
      · exact inner

theorem write (hi : i.Keeps (World.With I)) (s : Statement) (values : Except Failure β)
    {f : β → Tables → Except Failure (α × Tables)}
    (hf : ∀ b t a u, f b t = .ok (a, u) → I t → I u) :
    (write s values f).Keeps (World.With I) i := by
  refine .orElse ?_ fun e => .bind (.modify fun _ h => h) fun _ => .fail e
  refine .bind (.reach hi _) fun _ => .bind (.ofExcept _) fun b =>
    .bind .checkTransaction fun _ => ?_
  intro w h
  simp only [bind_apply, world_apply, ofExcept_apply]
  cases effect : f b w.tables with
  | error e => exact h
  | ok r =>
    obtain ⟨a, u⟩ := r
    simp only [store]
    by_cases dangling : w.depth = 0 ∧ ¬u.Linked
    · simpa [dangling] using h
    · simpa [dangling] using hf b w.tables a u effect h

end Keeps

end Act

/-! ### Rest -/

/-- Between transactions none is open or spoiled, and every reference leads to a row. -/
structure World.Resting (w : World) : Prop where
  depth : w.depth = 0
  unspoiled : w.spoiled = false
  linked : w.tables.Linked

theorem Interruption.resting_none : Interruption.none.Keeps World.Resting :=
  keeps_none fun _ _ h => ⟨h.depth, h.unspoiled, h.linked⟩

namespace Act.Keeps

variable {α β : Type} {i : Interruption}

/-- Whatever is done in an outermost transaction, its end checks the references or undoes it. -/
theorem resting_atomic (x : Act α) : (Act.atomic x).Keeps World.Resting i := by
  intro w h
  have undone (v : World) : World.Resting (rollBack w v) := ⟨h.depth, h.unspoiled, h.linked⟩
  generalize run : x i w.deeper = outcome
  obtain ⟨e | a, v⟩ := outcome
  · rw [atomic_error run]
    exact undone _
  · rw [atomic_ok run]
    split
    · exact undone _
    · rename_i spoiled
      split
      · exact undone _
      · rename_i dangling
        refine ⟨h.depth, Bool.eq_false_iff.mpr spoiled, ?_⟩
        exact of_not_not fun broken => dangling ⟨h.depth, broken⟩

theorem resting_write (hi : i.Keeps World.Resting) (s : Statement) (values : Except Failure β)
    (f : β → Tables → Except Failure (α × Tables)) :
    (Act.write s values f).Keeps World.Resting i := by
  have unspoilt (w : World) (h : w.Resting) :
      World.Resting { w with spoiled := w.spoiled || decide (0 < w.depth) } :=
    ⟨h.depth, by simp [h.unspoiled, h.depth], h.linked⟩
  refine .orElse ?_ fun e => .bind (.modify unspoilt) fun _ => .fail e
  refine .bind (.reach hi _) fun _ => .bind (.ofExcept _) fun b => .bind .checkTransaction fun _ =>
    .bind .world fun v => .bind (.ofExcept _) fun r => .bind ?_ fun _ => .pure _
  intro w h
  unfold Act.store
  split
  · exact h
  · rename_i dangling
    exact ⟨h.depth, h.unspoiled, of_not_not fun broken => dangling ⟨h.depth, broken⟩⟩

end Act.Keeps

end ReviewRota
