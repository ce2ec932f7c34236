import ReviewRota.Proofs.Interleaving.Consistency

/-!
# Requests in one go

A request that nothing interrupts is served in one go, its transaction around all of its calls. The
tables that it leaves are again the end of a chronicle, of its own calls alone or, if the
transaction is undone, of none.
-/

namespace ReviewRota

/-! ### What operations keep -/

namespace Plan

variable {α : Type} {I : World → Prop} {i : Interruption}

theorem keeps_act (hi : i.Keeps I) (clock : ∀ w b, I w → I { w with clock := b })
    (calls : ∀ c : Call, c.act.Keeps I i) (d : Option (Deadline Binary64)) (p : Plan α) :
    (p.act d).Keeps I i :=
  keeps_of_honours (k := ⟨fun _ _ => True, fun _ _ => True, fun _ _ => True⟩) hi clock
    (fun _ _ => trivial) (fun _ c _ => calls c) d
    (honours_of_forall (fun _ _ => trivial) (fun _ _ => trivial) p [])

end Plan

namespace Operation

variable {α : Type} (o : Operation α) (timeout : Option Number)

theorem keeps_keyed : (o.act timeout).Keeps (World.With Tables.Keyed) .none := by
  rw [act_eq_enclosed]
  refine Act.Keeps.enclosed _ (.bind .world fun w => .bind (.ofExcept _) fun d => ?_)
  exact Plan.keeps_act (Interruption.with_none _) (fun _ _ h => h)
    (Call.keeps_keyed (Interruption.with_none _)) d o.plan

theorem keeps_resting : (o.act timeout).Keeps World.Resting .none := by
  rw [act_eq_enclosed]
  refine Act.Keeps.resting_enclosed _ (.bind .world fun w => .bind (.ofExcept _) fun d => ?_)
  exact Plan.keeps_act Interruption.resting_none
    (fun _ _ h => ⟨h.depth, h.unspoiled, h.linked⟩) (Call.keeps_resting Interruption.resting_none) d
    o.plan

end Operation

namespace Interleaving

/-! ### Calls of a run -/

/-- Nothing is spoiled, and without a transaction around the calls the world is at rest. -/
structure Ready (transactional : Bool) (w : World) : Prop where
  unspoiled : w.spoiled = false
  resting : transactional = false → w.Resting

variable {command : Desk.Command} {w v : World} {xs : List Exchange}

theorem keeps_ready (transactional : Bool) : Interruption.none.Keeps (Ready transactional) := by
  refine Interruption.keeps_none fun w e ready => ⟨ready.unspoiled, fun outside => ?_⟩
  exact Interruption.resting_none.log w e (ready.resting outside)

theorem Ready.clock {transactional : Bool} (ready : Ready transactional w) (b : Binary64) :
    Ready transactional { w with clock := b } := by
  refine ⟨ready.unspoiled, fun outside => ?_⟩
  have rests := ready.resting outside
  exact ⟨rests.depth, rests.unspoiled, rests.linked⟩

/-- A call leaves the world ready for the next one: in a transaction it spoils nothing, since what
it writes there is written in a transaction of its own, and outside it comes to rest. -/
theorem ready_of_call {c : Call} (warrants : command.Warrants xs c)
    (ready : Ready command.operation.transactional w) :
    Ready command.operation.transactional (c.act .none w).2 := by
  cases transactional : command.operation.transactional with
  | false =>
    have rests := Call.keeps_resting Interruption.resting_none c w (ready.resting transactional)
    exact ⟨rests.unspoiled, fun _ => rests⟩
  | true =>
    refine ⟨?_, by simp⟩
    by_cases writes : c.WritesPullRequest
    · cases c with
      | pullRequestCreate q =>
        obtain ⟨id, name, author, members, limit, now, -, rfl⟩ := warrants
        obtain ⟨r, t, ⟨j, ends⟩, -⟩ := PullRequests.create_ends ready.unspoiled
          (p := Desk.opened id name author (Roster.pick members author.string? limit) now) rfl
        rw [Call.act, ends]
        exact ready.unspoiled
      | pullRequestUpdate q =>
        obtain ⟨edit, p, -, rfl⟩ := warrants
        obtain ⟨r, t, ⟨j, ends⟩, -⟩ := PullRequests.update_ends ready.unspoiled (edit.written p)
        rw [Call.act, ends]
        exact ready.unspoiled
      | _ => exact writes.elim
    · have reading := warrants.isReading writes transactional
      exact reading.keeps (I := fun w => w.spoiled = false)
        (Interruption.keeps_none fun _ _ h => h) w ready.unspoiled

/-! ### Runs -/

/-- A plan that honours its contract runs through a chronicle of its calls. -/
theorem chronicle_of_plan {p : Plan command.Result} (d : Option (Deadline Binary64))
    (honours : p.Honours command.contract xs) (ready : Ready command.operation.transactional w)
    (keyed : w.tables.Keyed) (stand : ∀ x ∈ xs, x.Stands w.tables) :
    ∃ log, Chronicle w.tables log (p.act d .none w).2.tables ∧ ∀ e ∈ log, e.command = command := by
  induction p generalizing w xs with
  | done r => exact ⟨[], .nil, List.forall_mem_nil _⟩
  | check name next ih =>
    have same := Plan.keeps_checkAct (Interruption.with_none (· = w.tables)) (fun _ _ h => h) d name
      w rfl
    have still :=
      Plan.keeps_checkAct (keeps_ready _) (fun _ b ready => ready.clock b) d name w ready
    rw [Plan.act, Act.bind_apply]
    generalize Plan.checkAct d name .none w = outcome at same still
    obtain ⟨e | _, v⟩ := outcome
    · exact ⟨[], same ▸ .nil, List.forall_mem_nil _⟩
    · rw [← same] at keyed stand ⊢
      exact ih honours.2 still keyed stand
  | now next ih => exact ih _ (honours _) ready keyed stand
  | maxReviewers next ih => exact ih _ (honours _) ready keyed stand
  | snapshot next ih =>
    have same := Plan.keeps_snapshotAct (Interruption.with_none (· = w.tables)) w rfl
    have still := Plan.keeps_snapshotAct (keeps_ready _) w ready
    rw [← same] at keyed stand ⊢
    exact ih honours.2 still keyed stand
  | call c next ih =>
    -- Only here do the tables move: by one entry, and what it tells stands when the rest begins.
    obtain ⟨warrants, continues⟩ := honours
    have fit : w.Fit false := ⟨ready.unspoiled, by simp⟩
    have still := ready_of_call warrants ready
    have keys := Call.keeps_keyed (Interruption.with_none _) c w keyed
    generalize run : c.act .none w = outcome at still keys
    obtain ⟨r, v⟩ := outcome
    have effect := effect_of_call fit keyed 0 warrants stand run
    have recalls := recalls_of_call fit stand run
    obtain ⟨log, rest, own⟩ := ih r (continues r recalls) still keys
      (stands_of_call fit effect stand run)
    have goes : (Plan.call c next).act d .none w = (next r).act d .none v := by
      rw [Plan.act, Act.bind_apply, Act.attempt_apply, run]
    rw [goes]
    exact ⟨_, .cons keyed effect rest, List.forall_mem_cons.mpr ⟨rfl, own⟩⟩

/-- A request that is served in one go leaves the tables at the end of a chronicle of its calls. -/
theorem chronicle_of_act (command : Desk.Command) (timeout : Option Number) (resting : w.Resting)
    (keyed : w.tables.Keyed) :
    ∃ log, Chronicle w.tables log (command.operation.act timeout .none w).2.tables ∧
      ∀ e ∈ log, e.command = command := by
  have body {w : World} (ready : Ready command.operation.transactional w)
      (keyed : w.tables.Keyed) :
      ∃ log, Chronicle w.tables log (command.operation.body timeout .none w).2.tables ∧
        ∀ e ∈ log, e.command = command := by
    cases start : Deadline.start? w.clock timeout with
    | error e =>
      rw [Operation.body_eq_error _ start]
      exact ⟨[], .nil, List.forall_mem_nil _⟩
    | ok d =>
      rw [Operation.body_eq_plan _ start]
      exact chronicle_of_plan d command.honours ready keyed (List.forall_mem_nil _)
  rw [Operation.act_eq_enclosed, Act.enclosed]
  split
  · -- An undone transaction leaves the tables that it began with, at the end of no entries.
    rename_i transactional
    have inside : Ready command.operation.transactional w.deeper := by
      rw [transactional]
      exact ⟨resting.unspoiled, by simp⟩
    obtain ⟨log, chronicle, own⟩ := body inside keyed
    generalize run : command.operation.body timeout .none w.deeper = outcome at chronicle
    obtain ⟨e | a, v⟩ := outcome
    · rw [Act.atomic_error run]
      exact ⟨[], .nil, List.forall_mem_nil _⟩
    · rw [Act.atomic_ok run]
      split
      · exact ⟨[], .nil, List.forall_mem_nil _⟩
      · split
        · exact ⟨[], .nil, List.forall_mem_nil _⟩
        · exact ⟨log, chronicle, own⟩
  · exact body ⟨resting.unspoiled, fun _ => resting⟩ keyed

end Interleaving

end ReviewRota
