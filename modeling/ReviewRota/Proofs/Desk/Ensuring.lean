import ReviewRota.Proofs.Desk.Plan

/-!
# What a request on its own ensures

A request that nothing comes in between of works on the tables. What it does depends neither on the
journal nor, unless its own deadline stops it, on the clock. How it ends and which tables it leaves
is worked out node by node along its plan, each call by what is known of this call.
-/

namespace ReviewRota

variable {α β : Type} {w : World}

namespace Act

variable {x : Act α} {Q R : Except Failure α → Tables → Prop}

/-- Whatever journal and clock say, the run ends with an outcome and tables of which `Q` holds, and
with changes to nothing else. -/
def Ensures (x : Act α) (w : World) (Q : Except Failure α → Tables → Prop) : Prop :=
  ∀ j c, ∃ r t j' c', x .none { w with journal := j, clock := c } =
    (r, { w with tables := t, journal := j', clock := c' }) ∧ Q r t

namespace Ensures

theorem mono (first : x.Ensures w Q) (weaker : ∀ r t, Q r t → R r t) : x.Ensures w R := by
  intro j c
  obtain ⟨r, t, j', c', run, holds⟩ := first j c
  exact ⟨r, t, j', c', run, weaker r t holds⟩

theorem of_ends (ends : ∀ j c, ∃ r t, x.Ends { w with journal := j, clock := c } r t ∧ Q r t) :
    x.Ensures w Q := by
  intro j c
  obtain ⟨r, t, ⟨j', run⟩, holds⟩ := ends j c
  exact ⟨r, t, j', c, run, holds⟩

theorem ofExcept {r : Except Failure α} (holds : Q r w.tables) : (ofExcept r).Ensures w Q :=
  fun j c => ⟨r, w.tables, j, c, rfl, holds⟩

theorem attempt {Q : Except Failure (Except Failure α) → Tables → Prop}
    (inner : x.Ensures w fun r t => Q (.ok r) t) : x.attempt.Ensures w Q := by
  intro j c
  obtain ⟨r, t, j', c', run, holds⟩ := inner j c
  exact ⟨.ok r, t, j', c', by rw [attempt_apply, run], holds⟩

theorem modify {f : World → World} {Q : Except Failure Unit → Tables → Prop}
    (touches : ∀ v, ∃ j c, f v = { v with journal := j, clock := c })
    (holds : Q (.ok ()) w.tables) : (modify f).Ensures w Q := by
  intro j c
  obtain ⟨j', c', same⟩ := touches { w with journal := j, clock := c }
  exact ⟨.ok (), w.tables, j', c', by rw [modify_apply, same], holds⟩

theorem reach (p : Point) {Q : Except Failure Unit → Tables → Prop}
    (holds : Q (.ok ()) w.tables) : (reach p).Ensures w Q :=
  fun j c => ⟨.ok (), w.tables, j ++ [.reached p], c, rfl, holds⟩

def Continues (f : α → Act β) (w : World) (Q : Except Failure β → Tables → Prop) :
    Except Failure α → Tables → Prop
  | .ok a, t => (f a).Ensures { w with tables := t } Q
  | .error e, t => Q (.error e) t

theorem bind {f : α → Act β} {Q : Except Failure β → Tables → Prop}
    (first : x.Ensures w (Continues f w Q)) : (x >>= f).Ensures w Q := by
  intro j c
  obtain ⟨r, t, j', c', run, holds⟩ := first j c
  rw [bind_apply, run]
  cases r with
  | error e => exact ⟨.error e, t, j', c', rfl, holds⟩
  | ok a => exact holds j' c'

theorem bind_world {f : World → Act α} (rest : ∀ v, (f v).Ensures w Q) :
    (Act.world >>= f).Ensures w Q :=
  fun j c => rest { w with journal := j, clock := c } j c

/-- What is ensured inside of a transaction: a failure undoes everything, and what is to stay has to
be linked. -/
def Commits (t : Tables) (Q : Except Failure α → Tables → Prop) :
    Except Failure α → Tables → Prop
  | .ok a, u => u.Linked ∧ Q (.ok a) u
  | .error e, _ => Q (.error e) t

theorem atomic (unspoiled : w.spoiled = false)
    (inner : x.Ensures { w with depth := w.depth + 1 } (Commits w.tables Q)) :
    (Act.atomic x).Ensures w Q := by
  intro j c
  obtain ⟨r, t, j', c', run, holds⟩ := inner (j ++ [.opened]) c
  let v : World := { w with journal := j, clock := c }
  have run : x .none v.deeper = _ := run
  cases r with
  | error e =>
    refine ⟨.error e, w.tables, j' ++ [.closed], c', ?_, holds⟩
    rw [Act.atomic_error run]
    rfl
  | ok a =>
    have spoiled : ¬(w.spoiled = true) := by simp [unspoiled]
    have whole : ¬(w.depth = 0 ∧ ¬t.Linked) := fun ⟨_, dangling⟩ => dangling holds.1
    refine ⟨.ok a, t, j' ++ [.closed], c', ?_, holds.2⟩
    rw [atomic_ok run]
    exact (if_neg spoiled).trans (if_neg whole)

end Ensures

end Act

/-! ### Deadlines -/

namespace Deadline

/-- A look at the deadline can end in this failure. -/
def Stops (d : Option (Deadline Binary64)) (e : Failure) : Prop :=
  ∃ link step now, check d link step now now = .error e

theorem not_stops_none {e : Failure} : ¬Stops none e := by
  rintro ⟨link, step, now, looks⟩
  cases looks

/-- An operation that is granted these seconds can be stopped with this failure by its deadline, or
by seconds that no deadline can be made of. -/
def Overruns (timeout : Option Number) (e : Failure) : Prop :=
  ∃ clock, start? (τ := Binary64) clock timeout = .error e ∨
    ∃ d, start? clock timeout = .ok d ∧ Stops d e

theorem not_overruns_none {e : Failure} : ¬Overruns none e := by
  rintro ⟨clock, start | ⟨d, start, stops⟩⟩
  · cases start
  · cases start
    exact not_stops_none stops

end Deadline

/-! ### Plans -/

theorem World.exists_direct (directives : List Directive) (w : World) :
    ∃ j c, directives.foldl (fun w d => w.log (.directed d)) w =
      { w with journal := j, clock := c } := by
  induction directives generalizing w with
  | nil => exact ⟨w.journal, w.clock, rfl⟩
  | cons directive directives ih =>
    obtain ⟨j, c, told⟩ := ih (w.log (.directed directive))
    exact ⟨j, c, told⟩

namespace Plan

variable {d : Option (Deadline Binary64)} {Q R : Except Failure α → Tables → Prop}

def Ensures (p : Plan α) (d : Option (Deadline Binary64)) (w : World)
    (Q : Except Failure α → Tables → Prop) : Prop :=
  (p.act d).Ensures w Q

theorem checkAct_ensures (step : String) {Q : Except Failure Unit → Tables → Prop}
    (stops : ∀ e, Deadline.Stops d e → Q (.error e) w.tables) (passes : Q (.ok ()) w.tables) :
    (checkAct d step).Ensures w Q := by
  refine .bind (.modify (fun v => ⟨v.journal, _, rfl⟩) (.bind (.reach _ (.bind_world fun v =>
    .bind (.ofExcept ?_)))))
  cases looks : Deadline.check d v.link step v.clock v.clock with
  | error e => exact stops e ⟨v.link, step, v.clock, looks⟩
  | ok directives =>
    exact .bind (.modify (World.exists_direct directives)
      (.modify (fun v => ⟨_, v.clock, rfl⟩) passes))

theorem act_bind (d : Option (Deadline Binary64)) (p : Plan α) (f : α → Plan β) :
    (p.bind f).act d = p.act d >>= fun a => (f a).act d := by
  have after {γ : Type} (x : Act γ) {g h : γ → Act β} (same : g = h) : x >>= g = x >>= h := by
    rw [same]
  have assoc {γ : Type} (x : Act γ) (g : γ → Act α) (h : α → Act β) :
      (x >>= fun c => g c >>= h) = (x >>= g) >>= h := by
    funext i w
    simp only [Act.bind_apply]
    generalize x i w = outcome
    obtain ⟨e | a, v⟩ := outcome <;> rfl
  induction p with
  | done r => cases r <;> rfl
  | check step next ih => exact (after _ (funext fun _ => ih)).trans (assoc _ _ _)
  | now next ih => exact (after _ (funext ih)).trans (assoc _ _ _)
  | maxReviewers next ih => exact (after _ (funext fun w => ih _)).trans (assoc _ _ _)
  | snapshot next ih => exact (after _ (funext fun _ => ih)).trans (assoc _ _ _)
  | call c next ih => exact (after _ (funext ih)).trans (assoc _ _ _)

namespace Ensures

theorem mono {p : Plan α} (first : p.Ensures d w Q) (weaker : ∀ r t, Q r t → R r t) :
    p.Ensures d w R :=
  Act.Ensures.mono first weaker

theorem bind {p : Plan α} {f : α → Plan β} {Q : Except Failure β → Tables → Prop}
    (first : p.Ensures d w (Act.Ensures.Continues (fun a => (f a).act d) w Q)) :
    (p.bind f).Ensures d w Q := by
  rw [Plan.Ensures, act_bind]
  exact .bind first

theorem done {r : Except Failure α} (holds : Q r w.tables) : (done r).Ensures d w Q :=
  .ofExcept holds

theorem check {step : String} {next : Plan α}
    (stops : ∀ e, Deadline.Stops d e → Q (.error e) w.tables) (rest : next.Ensures d w Q) :
    (check step next).Ensures d w Q :=
  Act.Ensures.bind (checkAct_ensures step stops rest)

theorem now {next : Timestamp → Plan α} (rest : (next w.now).Ensures d w Q) :
    (now next).Ensures d w Q := rest

theorem maxReviewers {next : Int → Plan α}
    (rest : (next w.preferences.maxReviewers).Ensures d w Q) :
    (maxReviewers next).Ensures d w Q := rest

theorem snapshot {next : Plan α} (rest : next.Ensures d w Q) : (snapshot next).Ensures d w Q :=
  Act.Ensures.bind (.modify (fun v => World.exists_direct v.link.snapshot v) rest)

theorem call {c : Call} {next : Except Failure c.Result → Plan α}
    (outcome : c.act.Ensures w fun r t => (next r).Ensures d { w with tables := t } Q) :
    (call c next).Ensures d w Q :=
  Act.Ensures.bind (.attempt outcome)

theorem call_ends {c : Call} {next : Except Failure c.Result → Plan α}
    {r : Except Failure c.Result} {t : Tables}
    (ends : ∀ j c', c.act.Ends { w with journal := j, clock := c' } r t)
    (rest : (next r).Ensures d { w with tables := t } Q) : (Plan.call c next).Ensures d w Q :=
  call (.of_ends fun j c' => ⟨r, t, ends j c', rest⟩)

theorem call_reads {c : Call} {next : Except Failure c.Result → Plan α}
    {r : Except Failure c.Result} (unspoiled : w.spoiled = false)
    (ends : ∀ v : World, v.spoiled = false → v.tables = w.tables → c.act.Ends v r v.tables)
    (rest : (next r).Ensures d w Q) : (Plan.call c next).Ensures d w Q :=
  call_ends (t := w.tables) (fun _ _ => ends _ (by exact unspoiled) rfl) rest

theorem pullRequestGet (unspoiled : w.spoiled = false) {id : Value}
    {next : Except Failure PullRequestRow → Plan α}
    (rest : (next (PullRequests.found w.tables id)).Ensures d w Q) :
    (Plan.call (.pullRequestGet id) next).Ensures d w Q :=
  call_reads unspoiled (fun _ unspoiled same => same ▸ PullRequests.get_ends unspoiled id) rest

theorem userGet (unspoiled : w.spoiled = false) {id : Value}
    {next : Except Failure UserRow → Plan α}
    (rest : (next (Users.found w.tables id)).Ensures d w Q) :
    (Plan.call (.userGet id) next).Ensures d w Q :=
  call_reads unspoiled (fun _ unspoiled same => same ▸ Users.get_ends_found unspoiled id) rest

theorem usersOfTeam (unspoiled : w.spoiled = false) {team : Value}
    {next : Except Failure (List UserRow) → Plan α}
    (rest : (next (Users.listed w.tables team)).Ensures d w Q) :
    (Plan.call (.usersOfTeam team) next).Ensures d w Q :=
  call_reads unspoiled (fun _ unspoiled same => same ▸ Users.ofTeam_ends_listed unspoiled team)
    rest

end Ensures

end Plan

/-! ### Operations -/

namespace Operation

variable {o : Operation α} {timeout : Option Number} {Q : Except Failure α → Tables → Prop}

/-- The operation comes to one of its own ends, or its deadline stops it and nothing is changed. -/
def InTime (timeout : Option Number) (t : Tables) (Q : Except Failure α → Tables → Prop)
    (r : Except Failure α) (u : Tables) : Prop :=
  Q r u ∨ ∃ e, r = .error e ∧ Deadline.Overruns timeout e ∧ u = t

theorem InTime.of_none {t u : Tables} {r : Except Failure α} (h : InTime none t Q r u) : Q r u := by
  rcases h with own | ⟨e, -, overruns, -⟩
  · exact own
  · exact absurd overruns Deadline.not_overruns_none

theorem body_ensures (stops : ∀ e, Deadline.Overruns timeout e → Q (.error e) w.tables)
    (plan : ∀ d, (∀ e, Deadline.Stops d e → Deadline.Overruns timeout e) → o.plan.Ensures d w Q) :
    (o.body timeout).Ensures w Q := by
  refine .bind_world fun v => .bind (.ofExcept ?_)
  cases start : Deadline.start? v.clock timeout with
  | error e => exact stops e ⟨v.clock, .inl start⟩
  | ok d => exact plan d fun e stopped => ⟨v.clock, .inr ⟨d, start, stopped⟩⟩

theorem ensures_steps (plain : o.transactional = false)
    (stops : ∀ e, Deadline.Overruns timeout e → Q (.error e) w.tables)
    (plan : ∀ d, (∀ e, Deadline.Stops d e → Deadline.Overruns timeout e) → o.plan.Ensures d w Q) :
    (o.act timeout).Ensures w Q := by
  rw [act_eq_enclosed, plain]
  exact body_ensures stops plan

/-- A transaction that fails leaves no trace, wherever its plan was when it failed. -/
theorem ensures_transaction (transactional : o.transactional = true)
    (unspoiled : w.spoiled = false)
    (stops : ∀ e, Deadline.Overruns timeout e → Q (.error e) w.tables)
    (plan : ∀ d, (∀ e, Deadline.Stops d e → Deadline.Overruns timeout e) →
      o.plan.Ensures d { w with depth := w.depth + 1 } (Act.Ensures.Commits w.tables Q)) :
    (o.act timeout).Ensures w Q := by
  rw [act_eq_enclosed, transactional]
  exact .atomic unspoiled (body_ensures stops plan)

theorem ensures_steps_inTime (plain : o.transactional = false)
    (plan : ∀ d, (∀ e, Deadline.Stops d e → InTime timeout w.tables Q (.error e) w.tables) →
      o.plan.Ensures d w (InTime timeout w.tables Q)) :
    (o.act timeout).Ensures w (InTime timeout w.tables Q) := by
  refine ensures_steps plain (fun e overruns => .inr ⟨e, rfl, overruns, rfl⟩)
    fun d within => plan d fun e stopped => ?_
  exact .inr ⟨e, rfl, within e stopped, rfl⟩

/-- A transaction that its deadline stops has changed nothing, so that only its own ends are left to
be found. -/
theorem ensures_transaction_inTime (transactional : o.transactional = true)
    (unspoiled : w.spoiled = false)
    (plan : ∀ d, (∀ e, Deadline.Stops d e →
        Act.Ensures.Commits w.tables (InTime timeout w.tables Q) (.error e) w.tables) →
      o.plan.Ensures d { w with depth := w.depth + 1 }
        (Act.Ensures.Commits w.tables (InTime timeout w.tables Q))) :
    (o.act timeout).Ensures w (InTime timeout w.tables Q) := by
  refine ensures_transaction transactional unspoiled
    (fun e overruns => .inr ⟨e, rfl, overruns, rfl⟩) fun d within => plan d fun e stopped => ?_
  exact .inr ⟨e, rfl, within e stopped, rfl⟩

end Operation

end ReviewRota
