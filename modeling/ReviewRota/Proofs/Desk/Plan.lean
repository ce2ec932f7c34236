import Mathlib.Logic.Function.Iterate
import ReviewRota.Desk.Plan
import ReviewRota.Proofs.Store.Enclosed

/-!
# Plans, step by step

A plan can be carried out one node at a time, each of its calls a step of its own that hands on what
was asked and answered. Running the steps one after the other is running the plan in one go.

What a request does depends on the answers that it gets, and these depend on what other requests do
in between. A contract says what a plan owes whatever the answers are: which calls it may make and
how it may end, after the exchanges that it has had.
-/

namespace ReviewRota

structure Exchange where
  call : Call
  outcome : Except Failure call.Result

/-- What a plan may rely on in an answer, which calls it makes, and how it ends, each given the
exchanges before. -/
structure Contract (α : Type) where
  rely : List Exchange → Exchange → Prop
  warrant : List Exchange → Call → Prop
  conclude : List Exchange → Except Failure α → Prop

namespace Plan

variable {α β : Type}

/-! ### Steps -/

/-- Carries out the first node of a plan, with nothing in between. What remains is to be done, and
the exchange is there if the node was a call. -/
def step (transactional : Bool) (d : Option (Deadline Binary64)) :
    Plan α → World → Plan α × Option Exchange × World
  | done r, w => (done r, none, w)
  | check name next, w =>
    match (checkAct d name).enclosed transactional .none w with
    | (.ok (), v) => (next, none, v)
    | (.error e, v) => (done (.error e), none, v)
  | now next, w => (next w.now, none, w)
  | maxReviewers next, w => (next w.preferences.maxReviewers, none, w)
  | snapshot next, w =>
    match snapshotAct.enclosed transactional .none w with
    | (.ok (), v) => (next, none, v)
    | (.error e, v) => (done (.error e), none, v)
  | call c next, w =>
    match c.act.enclosed transactional .none w with
    | (r, v) => (next r, some ⟨c, r⟩, v)

def remaining (d : Option (Deadline Binary64)) (s : Plan α × World) : Plan α × World :=
  ((s.1.step false d s.2).1, (s.1.step false d s.2).2.2)

/-- A plan outside of a transaction does step by step what it does in one go, and comes to an
end. -/
theorem exists_iterate_remaining (d : Option (Deadline Binary64)) (p : Plan α) (w : World) :
    ∃ n, (remaining d)^[n] (p, w) = (done (p.act d .none w).1, (p.act d .none w).2) := by
  induction p generalizing w with
  | done r => exact ⟨0, rfl⟩
  | check name next ih =>
    cases run : checkAct d name .none w with
    | mk r v =>
      have first : remaining d (check name next, w) = (match r with
          | .ok () => (next, v)
          | .error e => (done (.error e), v)) := by
        simp only [remaining, step, Act.enclosed, Bool.false_eq_true, if_false, run]
        cases r <;> rfl
      cases r with
      | error e => exact ⟨1, by simp only [Function.iterate_one, first, act, Act.bind_apply, run]⟩
      | ok _ =>
        obtain ⟨n, ends⟩ := ih v
        refine ⟨n + 1, ?_⟩
        rw [Function.iterate_succ_apply, first, ends]
        simp only [act, Act.bind_apply, run]
  | now next ih =>
    obtain ⟨n, ends⟩ := ih w.now w
    exact ⟨n + 1, ends⟩
  | maxReviewers next ih =>
    obtain ⟨n, ends⟩ := ih w.preferences.maxReviewers w
    exact ⟨n + 1, ends⟩
  | snapshot next ih =>
    obtain ⟨n, ends⟩ := ih (snapshotAct .none w).2
    exact ⟨n + 1, ends⟩
  | call c next ih =>
    obtain ⟨n, ends⟩ := ih (c.act .none w).1 (c.act .none w).2
    exact ⟨n + 1, ends⟩

/-! ### Contracts -/

/-- A check may end the plan wherever there is one. -/
def Honours (k : Contract α) : Plan α → List Exchange → Prop
  | done r, xs => k.conclude xs r
  | check _ next, xs => (∀ e, k.conclude xs (.error e)) ∧ next.Honours k xs
  | now next, xs => ∀ t, (next t).Honours k xs
  | maxReviewers next, xs => ∀ n, (next n).Honours k xs
  | snapshot next, xs => (∀ e, k.conclude xs (.error e)) ∧ next.Honours k xs
  | call c next, xs =>
    k.warrant xs c ∧ ∀ r, k.rely xs ⟨c, r⟩ → (next r).Honours k (xs ++ [⟨c, r⟩])

def before (k : Contract β) (f : α → Plan β) : Contract α where
  rely := k.rely
  warrant := k.warrant
  conclude
    | xs, .ok a => (f a).Honours k xs
    | xs, .error e => k.conclude xs (.error e)

theorem Honours.bind {k : Contract β} {p : Plan α} {f : α → Plan β} {xs : List Exchange}
    (first : p.Honours (before k f) xs) : (p.bind f).Honours k xs := by
  induction p generalizing xs with
  | done r =>
    cases r with
    | error e => exact first
    | ok a => exact first
  | check name next ih => exact ⟨first.1, ih first.2⟩
  | now next ih => exact fun t => ih t (first t)
  | maxReviewers next ih => exact fun n => ih n (first n)
  | snapshot next ih => exact ⟨first.1, ih first.2⟩
  | call c next ih => exact ⟨first.1, fun r relied => ih r (first.2 r relied)⟩

theorem honours_of_forall {k : Contract α} (warrant : ∀ xs c, k.warrant xs c)
    (conclude : ∀ xs r, k.conclude xs r) (p : Plan α) (xs : List Exchange) : p.Honours k xs := by
  induction p generalizing xs with
  | done r => exact conclude xs r
  | check step next ih => exact ⟨fun e => conclude xs _, ih xs⟩
  | now next ih => exact fun t => ih t xs
  | maxReviewers next ih => exact fun n => ih n xs
  | snapshot next ih => exact ⟨fun e => conclude xs _, ih xs⟩
  | call c next ih => exact ⟨warrant xs c, fun r _ => ih r _⟩

/-! ### What the steps between the calls keep -/

section

variable {I : World → Prop} {i : Interruption} (hi : i.Keeps I)
include hi

theorem keeps_direct (directives : List Directive) :
    (Act.modify fun w => directives.foldl (fun w d => w.log (.directed d)) w).Keeps I i := by
  refine .modify fun w h => ?_
  induction directives generalizing w with
  | nil => exact h
  | cons d ds ih => exact ih _ (hi.log w _ h)

theorem keeps_checkAct (clock : ∀ w b, I w → I { w with clock := b })
    (d : Option (Deadline Binary64)) (name : String) : (checkAct d name).Keeps I i :=
  .bind (.modify fun w h => clock w _ h) fun _ => .bind (.reach hi _) fun _ => .bind .world fun _ =>
    .bind (.ofExcept _) fun ds => .bind (keeps_direct hi ds) fun _ =>
      .modify fun w h => hi.log w _ h

theorem keeps_snapshotAct : snapshotAct.Keeps I i := fun w h => keeps_direct hi w.link.snapshot w h

/-- A plan keeps what every call keeps that its contract lets it make, whatever the answers are. -/
theorem keeps_of_honours (clock : ∀ w b, I w → I { w with clock := b }) {k : Contract α}
    (rely : ∀ xs x, k.rely xs x) (calls : ∀ xs c, k.warrant xs c → c.act.Keeps I i)
    (d : Option (Deadline Binary64)) {p : Plan α} {xs : List Exchange} (honours : p.Honours k xs) :
    (p.act d).Keeps I i := by
  induction p generalizing xs with
  | done r => exact .ofExcept r
  | check name next ih => exact .bind (keeps_checkAct hi clock d name) fun _ => ih honours.2
  | now next ih => exact .bind .now fun t => ih t (honours t)
  | maxReviewers next ih => exact .bind .world fun w => ih _ (honours _)
  | snapshot next ih => exact .bind (keeps_snapshotAct hi) fun _ => ih honours.2
  | call c next ih =>
    exact .bind (.attempt (calls xs c honours.1)) fun r => ih r (honours.2 r (rely xs _))

end

/-- A step is either no call, and then it leaves the tables and the contracts alone, or it is the
call at the head of the plan. -/
inductive Stepped (transactional : Bool) (p : Plan α) (w : World) :
    Plan α × Option Exchange × World → Prop
  | quiet {q : Plan α} {v : World} (tables : v.tables = w.tables)
      (resting : w.Resting → v.Resting)
      (honours : ∀ k xs, p.Honours k xs → q.Honours k xs) : Stepped transactional p w (q, none, v)
  | called {c : Call} {next : Except Failure c.Result → Plan α} {r : Except Failure c.Result}
      {v : World} (head : p = call c next) (run : c.act.enclosed transactional .none w = (r, v)) :
      Stepped transactional p w (next r, some ⟨c, r⟩, v)

theorem stepped_of_act {transactional : Bool} {x : Act Unit} {p next : Plan α} {w : World}
    (tables : x.Keeps (World.With (· = w.tables)) .none) (resting : x.Keeps World.Resting .none)
    (fails : ∀ k xs e, p.Honours k xs → (done (.error e) : Plan α).Honours k xs)
    (passes : ∀ k xs, p.Honours k xs → next.Honours k xs) :
    Stepped transactional p w (match x.enclosed transactional .none w with
      | (.ok (), v) => (next, none, v)
      | (.error e, v) => (done (.error e), none, v)) := by
  have same := tables.enclosed transactional w rfl
  have rests := resting.resting_enclosed transactional w
  generalize x.enclosed transactional .none w = outcome at same rests ⊢
  obtain ⟨e | _, v⟩ := outcome
  · exact .quiet same rests fun k xs => fails k xs e
  · exact .quiet same rests passes

theorem stepped (transactional : Bool) (d : Option (Deadline Binary64)) (p : Plan α) (w : World) :
    Stepped transactional p w (p.step transactional d w) := by
  cases p with
  | done r => exact .quiet rfl id fun k xs h => h
  | check name next =>
    have clock (w : World) (b : Binary64) (h : w.Resting) : World.Resting { w with clock := b } :=
      ⟨h.depth, h.unspoiled, h.linked⟩
    exact stepped_of_act (keeps_checkAct (Interruption.with_none _) (fun _ _ h => h) d name)
      (keeps_checkAct Interruption.resting_none clock d name) (fun k xs e h => h.1 e)
      (fun k xs h => h.2)
  | now next => exact .quiet rfl id fun k xs h => h _
  | maxReviewers next => exact .quiet rfl id fun k xs h => h _
  | snapshot next =>
    exact stepped_of_act (keeps_snapshotAct (Interruption.with_none _))
      (keeps_snapshotAct Interruption.resting_none) (fun k xs e h => h.1 e) (fun k xs h => h.2)
  | call c next => exact .called rfl rfl

theorem quiet_of_step {transactional : Bool} {d : Option (Deadline Binary64)} {p q : Plan α}
    {w v : World} (step : p.step transactional d w = (q, none, v)) :
    v.tables = w.tables ∧ (w.Resting → v.Resting) ∧
      ∀ (k : Contract α) (xs : List Exchange), p.Honours k xs → q.Honours k xs := by
  have stepped := p.stepped transactional d w
  rw [step] at stepped
  cases stepped with
  | quiet tables resting honours => exact ⟨tables, resting, honours⟩

end Plan

namespace Operation

variable {α : Type} (o : Operation α) (timeout : Option Number)

def body : Act α := do
  let w ← Act.world
  let d ← Act.ofExcept (Deadline.start? w.clock timeout)
  o.plan.act d

theorem act_eq_enclosed : o.act timeout = (o.body timeout).enclosed o.transactional := rfl

variable {timeout} {i : Interruption} {w : World}

theorem body_eq_error {e : Failure} (start : Deadline.start? w.clock timeout = .error e) :
    o.body timeout i w = (.error e, w) := by
  simp only [body, Act.bind_apply, Act.world_apply, Act.ofExcept_apply, start]

theorem body_eq_plan {d : Option (Deadline Binary64)}
    (start : Deadline.start? w.clock timeout = .ok d) : o.body timeout i w = o.plan.act d i w := by
  simp only [body, Act.bind_apply, Act.world_apply, Act.ofExcept_apply, start]

end Operation

end ReviewRota
