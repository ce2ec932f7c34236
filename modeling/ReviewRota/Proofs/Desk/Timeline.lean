import ReviewRota.Desk.Command
import ReviewRota.Proofs.Desk.Plan
import ReviewRota.Scenario.Countdown
import ReviewRota.Scenario.Turn

/-!
# Timelines

Under a deadline an operation looks at the clock and calls storage, one after the other. A look that
finds the deadline reached is the last thing that it does, and every call comes right after a look
that found time left. One call is not looked after: a merge whose update lost a race reads the pull
request once more straight away.
-/

namespace ReviewRota

/-- A look at the clock with what the deadline says there, or a storage call with the clock as it
begins. -/
inductive Deed where
  | looked (r : Scenario.Reading)
  | asked (clock : Binary64) (x : Exchange)

/-- The clock as a call begins. -/
def Deed.clock? : Deed → Option Binary64
  | looked _ => none
  | asked clock _ => some clock

def World.told (w : World) (ds : List Directive) : World :=
  ds.foldl (fun w d => w.log (.directed d)) w

theorem World.told_eq (w : World) (ds : List Directive) :
    w.told ds = { w with journal := w.journal ++ ds.map .directed } := by
  induction ds generalizing w with
  | nil => simp [told]
  | cons d ds ih =>
    show (w.log (.directed d)).told ds = _
    rw [ih]
    simp [World.log]

@[simp] theorem World.clock_told (w : World) (ds : List Directive) :
    (w.told ds).clock = w.clock := by
  rw [told_eq]

namespace Scenario.Reading

variable {d : Option (Deadline Binary64)} {link : Link} {step : String} {clock : Binary64}
  {ds : List Directive}

theorem check_of_expired (expired : (of d link step clock).expired = true) :
    ∃ e, d = some e ∧ (of d link step clock).check = .error (.refused (e.exceeded step)) := by
  cases d with
  | none => cases expired
  | some e =>
    have reached : e.Expired clock := of_decide_eq_true expired
    exact ⟨e, rfl, if_pos reached⟩

theorem not_expired_of_check (passed : (of d link step clock).check = .ok ds) :
    ∀ e ∈ d, ¬e.Expired clock := by
  rintro e rfl reached
  have expired : (of (some e) link step clock).expired = true := decide_eq_true reached
  obtain ⟨f, -, stopped⟩ := check_of_expired expired
  rw [stopped] at passed
  cases passed

theorem expired_of_check (passed : (of d link step clock).check = .ok ds) :
    (of d link step clock).expired = false := by
  cases d with
  | none => rfl
  | some e => exact decide_eq_false (not_expired_of_check passed e rfl)

end Scenario.Reading

namespace Plan

variable {α β : Type} {d : Option (Deadline Binary64)} {i : Interruption}

/-! ### Looking and calling -/

/-- The clock moves on to a check, and something may happen before it is read. -/
def beforeLook : Act Unit := do
  Act.modify (fun w => { w with clock := w.clock + w.tick })
  Act.reach .deadline

def recount (d : Option (Deadline Binary64)) :
    Plan α → Interruption → World → List Deed × (Except Failure α × World)
  | done r, _, w => ([], r, w)
  | check step next, i, w =>
    match beforeLook i w with
    | (.error e, v) => ([], .error e, v)
    | (.ok (), v) =>
      let r : Scenario.Reading := .of d v.link step v.clock
      match r.check with
      | .error e => ([.looked r], .error e, v)
      | .ok ds =>
        let rest := recount d next i ((v.told ds).log (.passed step))
        (.looked r :: rest.1, rest.2)
  | now next, i, w => recount d (next w.now) i w
  | maxReviewers next, i, w => recount d (next w.preferences.maxReviewers) i w
  | snapshot next, i, w => recount d next i (w.told w.link.snapshot)
  | call c next, i, w =>
    let rest := recount d (next (c.act i w).1) i (c.act i w).2
    (.asked w.clock ⟨c, (c.act i w).1⟩ :: rest.1, rest.2)

def timeline (d : Option (Deadline Binary64)) (p : Plan α) (i : Interruption) (w : World) :
    List Deed :=
  (p.recount d i w).1

/-- A check told in terms of the look. -/
theorem checkAct_eq (d : Option (Deadline Binary64)) (step : String) (i : Interruption)
    (w : World) :
    checkAct d step i w =
      match beforeLook i w with
      | (.error e, v) => (.error e, v)
      | (.ok (), v) =>
        match (Scenario.Reading.of d v.link step v.clock).check with
        | .error e => (.error e, v)
        | .ok ds => (.ok (), (v.told ds).log (.passed step)) := by
  unfold checkAct beforeLook
  simp only [Act.bind_apply, Act.modify_apply]
  generalize Act.reach .deadline i { w with clock := w.clock + w.tick } = outcome
  obtain ⟨e | _, v⟩ := outcome
  · rfl
  · simp only [Act.world_apply, Act.ofExcept_apply, Scenario.Reading.of]
    cases Deadline.check d v.link step v.clock v.clock <;> rfl

/-- The run that is recounted is the run of the plan. -/
theorem recount_outcome (d : Option (Deadline Binary64)) (p : Plan α) (i : Interruption)
    (w : World) : (p.recount d i w).2 = p.act d i w := by
  induction p generalizing w with
  | done r => rfl
  | check step next ih =>
    rw [act, Act.bind_apply, checkAct_eq, recount]
    generalize beforeLook i w = outcome
    obtain ⟨e | _, v⟩ := outcome
    · rfl
    · dsimp only
      cases (Scenario.Reading.of d v.link step v.clock).check with
      | error e => rfl
      | ok ds => exact ih _
  | now next ih => exact ih _ _
  | maxReviewers next ih => exact ih _ _
  | snapshot next ih => exact ih _
  | call c next ih => exact ih _ _

/-- How a check can end: something strikes before the look, the look stops the plan, or it passes
and the plan goes on after the server was told. -/
inductive CheckOutcome (d : Option (Deadline Binary64)) (step : String) (next : Plan α)
    (i : Interruption) (w : World) : Prop
  | struck {e : Failure} {v : World} (before : beforeLook i w = (.error e, v))
      (timeline : (check step next).timeline d i w = [])
      (act : (check step next).act d i w = (.error e, v))
  | stopped {e : Failure} {v : World} (before : beforeLook i w = (.ok (), v))
      (look : (Scenario.Reading.of d v.link step v.clock).check = .error e)
      (timeline : (check step next).timeline d i w = [.looked (.of d v.link step v.clock)])
      (act : (check step next).act d i w = (.error e, v))
  | passed {ds : List Directive} {v : World} (before : beforeLook i w = (.ok (), v))
      (look : (Scenario.Reading.of d v.link step v.clock).check = .ok ds)
      (timeline : (check step next).timeline d i w =
        .looked (.of d v.link step v.clock) ::
          next.timeline d i ((v.told ds).log (.passed step)))
      (act : (check step next).act d i w = next.act d i ((v.told ds).log (.passed step)))

theorem checkOutcome (d : Option (Deadline Binary64)) (step : String) (next : Plan α)
    (i : Interruption) (w : World) : CheckOutcome d step next i w := by
  have check := checkAct_eq d step i w
  generalize before : beforeLook i w = outcome at check
  obtain ⟨e | _, v⟩ := outcome
  · dsimp only at check
    apply CheckOutcome.struck before
    · rw [timeline, recount, before]
    · rw [act, Act.bind_apply, check]
  · dsimp only at check
    generalize look : (Scenario.Reading.of d v.link step v.clock).check = r at check
    cases r with
    | error e =>
      apply CheckOutcome.stopped before look
      · rw [timeline, recount, before]
        dsimp only
        rw [look]
      · rw [act, Act.bind_apply, check]
    | ok ds =>
      apply CheckOutcome.passed before look
      · rw [timeline, recount, before]
        dsimp only
        rw [look]
        rfl
      · rw [act, Act.bind_apply, check]

theorem exists_of_looked_mem {p : Plan α} {w : World} {r : Scenario.Reading}
    (member : .looked r ∈ p.timeline d i w) :
    ∃ link step clock, r = .of d link step clock := by
  induction p generalizing w with
  | done _ => cases member
  | check step next ih =>
    cases checkOutcome d step next i w with
    | struck _ timeline _ =>
      rw [timeline] at member
      cases member
    | @stopped _ v _ _ timeline _ =>
      rw [timeline, List.mem_singleton] at member
      cases member
      exact ⟨v.link, step, v.clock, rfl⟩
    | @passed _ v _ _ timeline _ =>
      rw [timeline] at member
      rcases List.mem_cons.mp member with same | later
      · cases same
        exact ⟨v.link, step, v.clock, rfl⟩
      · exact ih later
  | now next ih => exact ih _ member
  | maxReviewers next ih => exact ih _ member
  | snapshot next ih => exact ih member
  | call c next ih =>
    rcases List.mem_cons.mp member with same | later
    · cases same
    · exact ih _ later

theorem act_of_stopped {p : Plan α} {w : World} {r : Scenario.Reading} {e : Failure}
    (member : .looked r ∈ p.timeline d i w) (stops : r.check = .error e) :
    (p.act d i w).1 = .error e := by
  induction p generalizing w with
  | done _ => cases member
  | check step next ih =>
    cases checkOutcome d step next i w with
    | struck _ timeline _ =>
      rw [timeline] at member
      cases member
    | stopped _ look timeline act =>
      rw [timeline, List.mem_singleton] at member
      cases member
      cases look.symm.trans stops
      rw [act]
    | passed _ look timeline act =>
      rw [timeline] at member
      rw [act]
      rcases List.mem_cons.mp member with same | later
      · cases same
        rw [look] at stops
        cases stops
      · exact ih later
  | now next ih => exact ih _ member
  | maxReviewers next ih => exact ih _ member
  | snapshot next ih => exact ih member
  | call c next ih =>
    rcases List.mem_cons.mp member with same | later
    · cases same
    · exact ih _ later

/-! ### Plans that look before they call -/

inductive Standing where
  | begun
  | checked
  | called (x : Exchange)

/-- A call may be made behind a check, and behind another call if that excuses it. -/
def Standing.Admits (excuses : Exchange → Call → Prop) : Standing → Call → Prop
  | begun, _ => False
  | checked, _ => True
  | called x, c => excuses x c

def Heeds (excuses : Exchange → Call → Prop) : Plan α → Standing → Prop
  | done _, _ => True
  | check _ next, _ => next.Heeds excuses .checked
  | now next, s => ∀ t, (next t).Heeds excuses s
  | maxReviewers next, s => ∀ n, (next n).Heeds excuses s
  | snapshot next, s => next.Heeds excuses s
  | call c next, s => s.Admits excuses c ∧ ∀ r, (next r).Heeds excuses (.called ⟨c, r⟩)

theorem Heeds.bind {excuses : Exchange → Call → Prop} {p : Plan α} {f : α → Plan β} {s : Standing}
    (first : p.Heeds excuses s) (rest : ∀ a s, (f a).Heeds excuses s) :
    (p.bind f).Heeds excuses s := by
  induction p generalizing s with
  | done r =>
    cases r with
    | error e => trivial
    | ok a => exact rest a s
  | check step next ih => exact ih first
  | now next ih =>
    intro t
    exact ih t (first t)
  | maxReviewers next ih =>
    intro n
    exact ih n (first n)
  | snapshot next ih => exact ih first
  | call c next ih =>
    constructor
    · exact first.1
    · intro r
      exact ih r (first.2 r)

end Plan

/-! ### Timelines in order -/

/-- What may come behind the last deed: nothing after a look that stops, and a call only after a
look, with time left, or behind another call that excuses it. -/
structure Deed.Follows (excuses : Exchange → Call → Prop) (d : Option (Deadline Binary64))
    (last : Option Deed) (deed : Deed) : Prop where
  passed : ∀ r, last = some (.looked r) → ∃ ds, r.check = .ok ds
  asks : ∀ clock x, deed = .asked clock x →
    (∃ r, last = some (.looked r) ∧ ∀ e ∈ d, ¬e.Expired clock) ∨
      ∃ t y, last = some (.asked t y) ∧ excuses y x.call

def Orderly (excuses : Exchange → Call → Prop) (d : Option (Deadline Binary64)) :
    Option Deed → List Deed → Prop
  | _, [] => True
  | last, deed :: deeds => deed.Follows excuses d last ∧ Orderly excuses d (some deed) deeds

theorem Orderly.follows {excuses : Exchange → Call → Prop} {d : Option (Deadline Binary64)}
    {last : Option Deed} {earlier later : List Deed} {deed : Deed}
    (orderly : Orderly excuses d last (earlier ++ deed :: later)) :
    deed.Follows excuses d (earlier.getLast?.or last) := by
  induction earlier generalizing last with
  | nil => exact orderly.1
  | cons first earlier ih =>
    rw [List.getLast?_cons, Option.some_or, ← Option.or_some]
    exact ih orderly.2

namespace Plan

variable {α : Type} {d : Option (Deadline Binary64)} {excuses : Exchange → Call → Prop}

/-- The last deed is what the plan has done last, and a check that has passed still holds. -/
def Standing.Meets (d : Option (Deadline Binary64)) (w : World) : Standing → Option Deed → Prop
  | begun, last => last = none
  | checked, last =>
    ∃ r ds, last = some (.looked r) ∧ r.check = .ok ds ∧ ∀ e ∈ d, ¬e.Expired w.clock
  | called x, last => ∃ t, last = some (.asked t x)

theorem Standing.Meets.passed {s : Standing} {w : World} {last : Option Deed}
    (meets : s.Meets d w last) (r : Scenario.Reading) (look : last = some (.looked r)) :
    ∃ ds, r.check = .ok ds := by
  subst look
  cases s with
  | begun => cases meets
  | checked =>
    obtain ⟨r', ds, same, passes, -⟩ := meets
    cases same
    exact ⟨ds, passes⟩
  | called x =>
    obtain ⟨t, same⟩ := meets
    cases same

theorem Standing.Meets.asks {s : Standing} {w : World} {last : Option Deed} {c : Call}
    (meets : s.Meets d w last) (admits : s.Admits excuses c) (r : Except Failure c.Result) :
    Deed.Follows excuses d last (.asked w.clock ⟨c, r⟩) := by
  constructor
  · exact meets.passed
  · rintro clock x same
    cases same
    cases s with
    | begun => exact admits.elim
    | checked =>
      obtain ⟨r', ds, look, -, unexpired⟩ := meets
      exact .inl ⟨r', look, unexpired⟩
    | called y =>
      obtain ⟨t, called⟩ := meets
      exact .inr ⟨t, y, called, admits⟩

theorem Standing.Meets.told {s : Standing} {w : World} {last : Option Deed}
    (meets : s.Meets d w last) (ds : List Directive) : s.Meets d (w.told ds) last := by
  cases s with
  | begun => exact meets
  | checked =>
    obtain ⟨r, ds', look, passes, unexpired⟩ := meets
    refine ⟨r, ds', look, passes, ?_⟩
    rwa [World.clock_told]
  | called x => exact meets

/-- A plan that looks before it calls has an orderly timeline, whatever happens meanwhile. The clock
moves at checks and in calls only, so what a look has found holds until the next of them. -/
theorem Heeds.orderly {p : Plan α} {s : Standing} (heeds : p.Heeds excuses s) (i : Interruption)
    {w : World} {last : Option Deed} (meets : s.Meets d w last) :
    Orderly excuses d last (p.timeline d i w) := by
  -- On the plan, with any deed before it: `Meets` is what one node hands on to the next.
  induction p generalizing s w last with
  | done r => trivial
  | check step next ih =>
    have look (r : Scenario.Reading) : Deed.Follows excuses d last (.looked r) :=
      ⟨meets.passed, fun _ _ same => by cases same⟩
    cases checkOutcome d step next i w with
    | struck _ timeline _ =>
      rw [timeline]
      trivial
    | stopped _ _ timeline _ =>
      rw [timeline]
      exact ⟨look _, trivial⟩
    | @passed ds v _ passes timeline _ =>
      have unexpired := Scenario.Reading.not_expired_of_check passes
      rw [timeline]
      refine ⟨look _, ih heeds ⟨_, ds, rfl, passes, ?_⟩⟩
      rwa [← World.clock_told v ds] at unexpired
  | now next ih => exact ih _ (heeds _) meets
  | maxReviewers next ih => exact ih _ (heeds _) meets
  | snapshot next ih => exact ih heeds (meets.told w.link.snapshot)
  | call c next ih =>
    obtain ⟨admits, continues⟩ := heeds
    exact ⟨meets.asks admits _, ih _ (continues _) ⟨w.clock, rfl⟩⟩

end Plan

end ReviewRota
