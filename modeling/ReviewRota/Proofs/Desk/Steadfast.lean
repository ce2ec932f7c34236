import ReviewRota.Proofs.Desk.Rollback
import ReviewRota.Proofs.Store.Users

/-!
# Acts that faults cannot mislead

A fault makes an act fail. Where an act succeeds although faults may strike and time may pass, it
has done what it does wherever nothing fails. There is one rule for each way of building acts,
handlers included, as long as they fail in the end.
-/

namespace ReviewRota

/-- The worlds agree in what is stored and in the transaction, not in clocks and settings. -/
structure World.Matches (w v : World) : Prop where
  tables : v.tables = w.tables
  depth : v.depth = w.depth
  spoiled : v.spoiled = w.spoiled

namespace World.Matches

variable {u v w : World}

theorem refl (w : World) : w.Matches w := ⟨rfl, rfl, rfl⟩

theorem trans (first : w.Matches v) (second : v.Matches u) : w.Matches u where
  tables := second.tables.trans first.tables
  depth := second.depth.trans first.depth
  spoiled := second.spoiled.trans first.spoiled

theorem symm (same : w.Matches v) : v.Matches w :=
  ⟨same.tables.symm, same.depth.symm, same.spoiled.symm⟩

theorem log (same : w.Matches v) (d e : Event) : (w.log d).Matches (v.log e) :=
  ⟨same.tables, same.depth, same.spoiled⟩

theorem deeper (same : w.Matches v) : w.deeper.Matches v.deeper :=
  ⟨same.tables, congrArg (· + 1) same.depth, same.spoiled⟩

theorem resting (same : w.Matches v) (resting : w.Resting) : v.Resting where
  depth := same.depth.trans resting.depth
  unspoiled := same.spoiled.trans resting.unspoiled
  linked := by
    rw [same.tables]
    exact resting.linked

end World.Matches

/-! ### Interruptions without other writers -/

namespace Interruption

/-- Faults that strike inside of storage calls while nobody else writes. A call whose transaction has
ended does nothing more that could fail. Time may pass. -/
structure Solitary (i : Interruption) : Prop where
  matching : ∀ (p : Point) (m : Moment) (w : World), w.Matches (i p m w).2
  inside : ∀ p w, (i (.port p) .after w).1 = .ok ()

/-- Time may pass, but no fault strikes. -/
structure Quiet (i : Interruption) : Prop where
  matching : ∀ (p : Point) (m : Moment) (w : World), w.Matches (i p m w).2
  passes : ∀ p m w, (i p m w).1 = .ok ()

variable {i : Interruption}

theorem Quiet.solitary (quiet : i.Quiet) : i.Solitary :=
  ⟨quiet.matching, fun p => quiet.passes (.port p) .after⟩

theorem quiet_none : Interruption.none.Quiet := ⟨fun _ _ w => .refl w, fun _ _ _ => rfl⟩

namespace Solitary

theorem faulty (solitary : i.Solitary) : i.Faulty :=
  ⟨fun p m w => (solitary.matching p m w).tables, solitary.inside⟩

theorem resting (solitary : i.Solitary) : i.Keeps World.Resting :=
  ⟨fun _ _ h => ⟨h.depth, h.unspoiled, h.linked⟩, fun p m w => (solitary.matching p m w).resting⟩

end Solitary

end Interruption

/-- Failures that a scenario provokes strike a request that has the storage to itself, if nobody
takes a step in between. -/
theorem Scenario.solitary_interruption {hs : List Interjection} (still : ∀ h ∈ hs, h.steps = [])
    (inside : ∀ h ∈ hs, ∀ p, h.point = .port p → h.moment = .before) :
    (interruption hs).Solitary where
  matching p m w := by
    unfold interruption
    rw [fire_of_still fun h member => still h (List.mem_of_mem_filter member)]
    exact .refl w
  inside := (faulty_interruption still inside).inside

/-! ### Acts -/

namespace Act

variable {α β : Type} {i j : Interruption} {x : Act α}

/-- Where the act succeeds under `i`, it succeeds under `j`, too, with the same result and
tables. -/
def Steadfast (i j : Interruption) (x : Act α) : Prop :=
  ∀ w w' a v, w.Matches w' → x i w = (.ok a, v) → ∃ v', x j w' = (.ok a, v') ∧ v.Matches v'

def Fruitless (i : Interruption) (x : Act α) : Prop := ∀ w, ∃ e v, x i w = (.error e, v)

namespace Steadfast

theorem pure (a : α) : (pure a : Act α).Steadfast i j := by
  intro w w' b v same run
  cases run
  exact ⟨w', rfl, same⟩

theorem ofExcept (r : Except Failure α) : (ofExcept r).Steadfast i j := by
  intro w w' a v same run
  cases run
  exact ⟨w', rfl, same⟩

theorem refuse (r : Refusal) : (refuse r : Act α).Steadfast i j := by
  intro w w' a v same run
  cases run

theorem bind {f : α → Act β} (first : x.Steadfast i j) (rest : ∀ a, (f a).Steadfast i j) :
    (x >>= f).Steadfast i j := by
  intro w w' b v same run
  rw [bind_apply] at run
  generalize began : x i w = outcome at run
  obtain ⟨e | a, u⟩ := outcome
  · cases run
  · obtain ⟨u', again, still⟩ := first w w' a u same began
    rw [bind_apply, again]
    exact rest a u u' b v still run

theorem orElse {handler : Failure → Act α} (inner : x.Steadfast i j)
    (fruitless : ∀ e, (handler e).Fruitless i) : (x.orElse handler).Steadfast i j := by
  intro w w' a v same run
  rw [orElse_apply] at run
  generalize began : x i w = outcome at run
  obtain ⟨e | b, u⟩ := outcome
  · obtain ⟨f, u', failed⟩ := fruitless e u
    replace run : handler e i u = (.ok a, v) := run
    rw [failed] at run
    cases run
  · cases run
    obtain ⟨v', again, still⟩ := inner w w' a v same began
    refine ⟨v', ?_, still⟩
    rw [orElse_apply, again]

theorem checkTransaction : Act.checkTransaction.Steadfast i j := by
  intro w w' a v same run
  unfold Act.checkTransaction at run ⊢
  rw [same.spoiled]
  split at run
  · cases run
  · rename_i unspoiled
    cases run
    rw [if_neg unspoiled]
    exact ⟨w', rfl, same⟩

/-- What is done with the tables does not depend on the rest of the world. -/
theorem tables {f : Tables → Act α} (inner : ∀ t, (f t).Steadfast i j) :
    (Act.world >>= fun w => f w.tables).Steadfast i j := by
  intro w w' a v same run
  show ∃ v', f w'.tables j w' = _ ∧ _
  rw [same.tables]
  exact inner w.tables w w' a v same run

theorem store (t : Tables) : (Act.store t).Steadfast i j := by
  intro w w' a v same run
  unfold Act.store at run ⊢
  split at run
  · cases run
  · rename_i linked
    cases run
    rw [if_neg (by rwa [same.depth])]
    exact ⟨_, rfl, rfl, same.depth, same.spoiled⟩

theorem atomic (inner : x.Steadfast i j) : (Act.atomic x).Steadfast i j := by
  intro w w' a v same run
  generalize began : x i w.deeper = outcome
  obtain ⟨e | b, u⟩ := outcome
  · rw [atomic_error began] at run
    cases run
  obtain ⟨u', again, still⟩ := inner w.deeper w'.deeper b u same.deeper began
  rw [atomic_ok began] at run
  rw [atomic_ok again, still.spoiled, same.depth, still.tables]
  split at run
  · rename_i spoiled
    cases run
    rw [if_pos spoiled]
    exact ⟨_, rfl, same.tables, same.depth, same.spoiled⟩
  · rename_i unspoiled
    rw [if_neg unspoiled]
    split at run
    · cases run
    · rename_i linked
      cases run
      rw [if_neg linked]
      exact ⟨_, rfl, still.tables, rfl, still.spoiled⟩

section

variable (solitary : i.Solitary) (quiet : j.Quiet)
include solitary quiet

/-- Both ends of a visit are places where the first run may fail and the second one goes on. -/
theorem point (p : Point) (m : Moment) (e : Event) :
    Act.Steadfast i j fun i w => i p m (w.log e) := by
  intro w w' a v same run
  have first := solitary.matching p m (w.log e)
  have second := quiet.matching p m (w'.log e)
  have passes := quiet.passes p m (w'.log e)
  dsimp only at run ⊢
  rw [run] at first
  generalize j p m (w'.log e) = outcome at second passes
  obtain ⟨r, v'⟩ := outcome
  cases passes
  exact ⟨v', rfl, first.symm.trans ((same.log e e).trans second)⟩

theorem visiting (p : Point) (inner : x.Steadfast i j) : (Act.visiting p x).Steadfast i j :=
  .bind (.point solitary quiet p .before _) fun _ => .bind inner fun a =>
    .bind (.point solitary quiet p .after _) fun _ => .pure a

theorem port (p : Port) (inner : x.Steadfast i j) : (Act.port p x).Steadfast i j :=
  .orElse (.visiting solitary quiet _ inner) fun e w => ⟨e.classified, w, rfl⟩

theorem read (s : Statement) (f : Tables → Except Failure α) : (Act.read s f).Steadfast i j := by
  have look (t : Tables) : (Act.ofExcept (f t)).Steadfast i j := .ofExcept _
  exact .bind (.point solitary quiet _ .before _) fun _ => .bind .checkTransaction fun _ =>
    .tables look

theorem write (s : Statement) (values : Except Failure β)
    (f : β → Tables → Except Failure (α × Tables)) : (Act.write s values f).Steadfast i j := by
  have effect (b : β) (t : Tables) :
      (Act.ofExcept (f b t) >>= fun r => Act.store r.2 >>= fun _ => Pure.pure r.1).Steadfast i j :=
    .bind (.ofExcept _) fun r => .bind (.store r.2) fun _ => .pure r.1
  exact .orElse (.bind (.point solitary quiet _ .before _) fun _ => .bind (.ofExcept values)
    fun b => .bind .checkTransaction fun _ => .tables (effect b)) fun e w => ⟨e, _, rfl⟩

end

end Steadfast

end Act

/-! ### Calls -/

namespace Users

variable {i j : Interruption} (solitary : i.Solitary) (quiet : j.Quiet)
include solitary quiet

theorem steadfast_setActive (id active : Value) : (setActive id active).Steadfast i j := by
  refine .port solitary quiet _ (.atomic (.bind (.write solitary quiet _ _ _) fun written => ?_))
  cases written with
  | false => exact .refuse _
  | true =>
    refine .bind (.read solitary quiet _ _) fun found => ?_
    cases found with
    | none => exact .refuse _
    | some r => exact .pure r

theorem steadfast_ofTeam (team : Value) : (ofTeam team).Steadfast i j := by
  cases team with
  | null => exact .port solitary quiet _ (.pure [])
  | _ => exact .port solitary quiet _ (.read solitary quiet _ _)

end Users

end ReviewRota
