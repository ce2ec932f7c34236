import ReviewRota.Proofs.Desk.Recording
import ReviewRota.Proofs.Number.Rounding

/-!
# What a deadline changes

A server that takes no directives learns nothing of a deadline. It then shows at the looks alone,
and a look either stops the operation or lets it go on as if there were no deadline: an operation is
cancelled, or it does what it does without one. Since sums keep the order, an operation that is
given more time meets a later deadline, and does nothing else than with less if that was enough.
-/

namespace ReviewRota

variable {α : Type}

/-- The failure says that the time was up. -/
def Failure.IsCancellation : Failure → Prop
  | refused r => r.reason = .cancelled
  | _ => False

instance (f : Failure) : Decidable f.IsCancellation :=
  match f with
  | .refused r => inferInstanceAs (Decidable (r.reason = .cancelled))
  | .database _ | .fault _ => inferInstanceAs (Decidable False)

/-- The operation was cancelled. -/
def Cancelled : Except Failure α → Prop
  | .error e => e.IsCancellation
  | .ok _ => False

instance (r : Except Failure α) : Decidable (Cancelled r) := by
  cases r <;> dsimp only [Cancelled] <;> infer_instance

/-! ### Later deadlines -/

namespace Deadline

/-- The deadline is never reached before the other one. -/
def Outlasts (later sooner : Option (Deadline Binary64)) : Prop :=
  ∀ now, (∃ e ∈ later, e.Expired now) → ∃ e ∈ sooner, e.Expired now

theorem none_outlasts (d : Option (Deadline Binary64)) : Outlasts none d := by
  rintro now ⟨e, member, -⟩
  cases member

theorem start?_some {clock t : Binary64} {timeout : Number}
    (granted : Binary64.ofNumber timeout = .ok t) :
    start? clock (some timeout) = .ok (some ⟨timeout, clock.add t⟩) := by
  show (do
    let granted ← Binary64.ofNumber timeout
    return some ⟨timeout, clock.add granted⟩ : Except Failure (Option (Deadline Binary64))) = _
  rw [granted]
  rfl

theorem outlasts_of_le {clock t t' : Binary64} (finite : clock.IsFinite) (more : t.le t' = true)
    (timeout timeout' : Number) :
    Outlasts (some ⟨timeout', clock.add t'⟩) (some ⟨timeout, clock.add t⟩) := by
  rintro now ⟨e, member, reached⟩
  cases member
  cases clock with
  | finite s m q => exact ⟨_, rfl, Binary64.le_trans (Binary64.add_le_add more) reached⟩
  | _ => exact finite.elim

end Deadline

/-! ### Looks of which the server is not told -/

theorem World.not_takes_of_vendor {w : World} (silent : w.preferences.vendor ≠ "postgresql") :
    w.link.takesDirectives = false := by
  simp [World.link, Link.takesDirectives, silent]

theorem Scenario.Reading.check_cases (d : Option (Deadline Binary64)) {link : Link}
    (silent : link.takesDirectives = false) (step : String) (clock : Binary64) :
    ((∃ e ∈ d, e.Expired clock) ∧
        ∃ f, (of d link step clock).check = .error f ∧ f.IsCancellation) ∨
      (¬(∃ e ∈ d, e.Expired clock) ∧ (of d link step clock).check = .ok []) := by
  cases d with
  | none => exact .inr ⟨nofun, rfl⟩
  | some e =>
    by_cases reached : e.Expired clock
    · refine .inl ⟨⟨e, rfl, reached⟩, _, if_pos reached, ?_⟩
      rfl
    · refine .inr ⟨?_, ?_⟩
      · rintro ⟨f, same, reached'⟩
        cases same
        exact reached reached'
      · show (if e.Expired clock then _ else _) = _
        rw [if_neg reached, Link.limit, silent]
        rfl

/-! ### Operations under two deadlines -/

variable {i : Interruption} {d d' : Option (Deadline Binary64)}

theorem Act.atomic_cancelled_or_eq {x y : Act α} {w : World}
    (inner : Cancelled (x i w.deeper).1 ∨ x i w.deeper = y i w.deeper) :
    Cancelled (atomic x i w).1 ∨ atomic x i w = atomic y i w := by
  rcases inner with cancelled | same
  · left
    generalize run : x i w.deeper = outcome at cancelled
    obtain ⟨e | a, v⟩ := outcome
    · rw [atomic_error run]
      exact cancelled
    · exact cancelled.elim
  · right
    unfold World.deeper at same
    unfold atomic
    rw [same]

/-- Under the sooner one of two deadlines a plan is cancelled, or it does what it does under the
later one. Up to the first look that tells them apart both runs are the same. -/
theorem Plan.act_cancelled_or_eq (outlasts : Deadline.Outlasts d' d) (remote : i.Remote)
    (p : Plan α) {w : World} (silent : w.preferences.vendor ≠ "postgresql") :
    Cancelled (p.act d i w).1 ∨ p.act d i w = p.act d' i w := by
  induction p generalizing w with
  | done r => exact .inr rfl
  | check step next ih =>
    have comes := continues_beforeLook remote w
    rw [act, act, Act.bind_apply, Act.bind_apply, checkAct_eq, checkAct_eq]
    generalize beforeLook i w = outcome at comes ⊢
    obtain ⟨e | _, v⟩ := outcome
    · exact .inr rfl
    · have told : v.link.takesDirectives = false := by
        rw [comes.link]
        exact World.not_takes_of_vendor silent
      rcases Scenario.Reading.check_cases d told step v.clock with
        ⟨-, f, stops, cancels⟩ | ⟨unexpired, passes⟩
      · left
        dsimp only
        rw [stops]
        exact cancels
      · -- Where the sooner deadline is not reached, the later one is not either.
        have passes' : (Scenario.Reading.of d' v.link step v.clock).check = .ok [] := by
          rcases Scenario.Reading.check_cases d' told step v.clock with ⟨reached, -⟩ | ⟨-, passes'⟩
          · exact absurd (outlasts v.clock reached) unexpired
          · exact passes'
        dsimp only
        rw [passes, passes']
        exact ih (comes.vendor ▸ silent)
  | now next ih => exact ih _ silent
  | maxReviewers next ih => exact ih _ silent
  | snapshot next ih =>
    exact ih ((w.continues_told w.link.snapshot).vendor ▸ silent)
  | call c next ih =>
    obtain ⟨es, -, comes⟩ := c.balances remote w
    exact ih _ (comes.vendor ▸ silent)

theorem Operation.act_cancelled_or_eq (o : Operation α) {timeout timeout' : Option Number}
    {w : World} (start : Deadline.start? w.clock timeout = .ok d)
    (start' : Deadline.start? w.clock timeout' = .ok d') (outlasts : Deadline.Outlasts d' d)
    (remote : i.Remote) (silent : w.preferences.vendor ≠ "postgresql") :
    Cancelled (o.act timeout i w).1 ∨ o.act timeout i w = o.act timeout' i w := by
  have body (v : World) (clock : v.clock = w.clock) (same : v.preferences = w.preferences) :
      Cancelled (o.body timeout i v).1 ∨ o.body timeout i v = o.body timeout' i v := by
    rw [body_eq_plan o (by rwa [clock]), body_eq_plan o (by rwa [clock])]
    apply Plan.act_cancelled_or_eq outlasts remote
    rwa [same]
  rw [act_eq_enclosed, act_eq_enclosed]
  unfold Act.enclosed
  split
  · exact Act.atomic_cancelled_or_eq (body w.deeper rfl rfl)
  · exact body w rfl rfl

/-! ### Clocks -/

/-- The clock shows the given readings, one at each check of a deadline. -/
def Interruption.clocked (readings : ℕ → Binary64) : Interruption := fun p _ w =>
  if p = .deadline then
    (.ok (), { w with clock := readings (w.journal.count (.reached .deadline)) })
  else (.ok (), w)

theorem Interruption.remote_clocked (readings : ℕ → Binary64) : (clocked readings).Remote := by
  intro p m w
  unfold clocked
  split
  · exact ⟨(List.append_nil _).symm, rfl, rfl⟩
  · exact .refl w

namespace Desk.Command

/-- Where the server takes no directives, a deadline only cancels: with a timeout a request is
cancelled, or it has the outcome and leaves the world that it does without a timeout, and with every
greater one as well. -/
theorem deadline_only_cancels (command : Command) (remote : i.Remote) {w : World}
    (silent : w.preferences.vendor ≠ "postgresql") (finite : w.clock.IsFinite) {timeout : Number}
    {t : Binary64} (granted : Binary64.ofNumber timeout = .ok t) :
    let run (timeout : Option Number) := command.operation.act timeout i w
    Cancelled (run (some timeout)).1 ∨
      run (some timeout) = run none ∧
        ∀ greater t', Binary64.ofNumber greater = .ok t' → t.le t' = true →
          run (some greater) = run (some timeout) := by
  intro run
  by_cases cancelled : Cancelled (run (some timeout)).1
  · exact .inl cancelled
  · refine .inr ⟨?_, fun greater t' granted' more => ?_⟩
    · exact (command.operation.act_cancelled_or_eq (Deadline.start?_some granted) rfl
        (Deadline.none_outlasts _) remote silent).resolve_left cancelled
    · exact ((command.operation.act_cancelled_or_eq (Deadline.start?_some granted)
        (Deadline.start?_some granted') (Deadline.outlasts_of_le finite more timeout greater) remote
        silent).resolve_left cancelled).symm

def seconds : Interruption := .clocked fun n => .ofInt n

/-- Three looks take three seconds. Four of them are enough, and so are ten. -/
theorem deadline_only_cancels_overview :
    Cancelled (overview.operation.act (some (.int 3)) seconds reviewing).1 ∧
      ¬Cancelled (overview.operation.act (some (.int 4)) seconds reviewing).1 ∧
      overview.operation.act (some (.int 10)) seconds reviewing =
        overview.operation.act (some (.int 4)) seconds reviewing := by
  have four : Binary64.ofNumber (.int 4) = .ok (.ofInt 4) := by decide +kernel
  have ten : Binary64.ofNumber (.int 10) = .ok (.ofInt 10) := by decide +kernel
  have enough : ¬Cancelled (overview.operation.act (some (.int 4)) seconds reviewing).1 := by
    decide +kernel
  obtain ⟨-, more⟩ := (deadline_only_cancels overview (Interruption.remote_clocked _)
    (w := reviewing) (by decide) trivial four).resolve_left enough
  exact ⟨by decide +kernel, enough, more (.int 10) _ ten (by decide)⟩

/-- Seconds that are too many for a number with a point are refused as such. -/
theorem deadline_too_late :
    let run (timeout : Option Number) := overview.operation.act timeout .none reviewing
    ¬Cancelled (run (some (.int (10 ^ 400)))).1 ∧ run (some (.int (10 ^ 400))) ≠ run none := by
  refine ⟨by decide +kernel, fun same => ?_⟩
  have fails :
      (overview.operation.act (some (.int (10 ^ 400))) .none reviewing).1.isOk = false := by
    decide +kernel
  have answers : (overview.operation.act none .none reviewing).1.isOk = true := by
    decide +kernel
  have same : overview.operation.act (some (.int (10 ^ 400))) .none reviewing =
      overview.operation.act none .none reviewing := same
  rw [same, answers] at fails
  cases fails

end Desk.Command

end ReviewRota
