import Mathlib.Data.Nat.Notation
import ReviewRota.Proofs.Store.Keeping

/-!
# Errors that strike at a statement

An error of the database strikes at one statement of a run, whichever it is, while others may write
between the statements. The run up to there goes on as if nothing were to come, and the act that is
struck fails. There is one rule for each way of building acts.
-/

namespace ReviewRota

/-! ### The strike -/

def Event.statement? : Event → Option Statement
  | reached (.statement s) => some s
  | _ => none

namespace World

def statements (w : World) : List Statement := w.journal.filterMap Event.statement?

theorem statements_log_statement (w : World) (s : Statement) :
    (w.log (.reached (.statement s))).statements = w.statements ++ [s] := by
  unfold statements log
  rw [List.filterMap_append]
  rfl

theorem statements_log (w : World) {e : Event} (other : e.statement? = none) :
    (w.log e).statements = w.statements := by
  unfold statements log
  rw [List.filterMap_append, List.filterMap_cons_none other, List.filterMap_nil, List.append_nil]

def entered (w : World) (i : Interruption) (p : Port) : World :=
  (i (.port p) .before (w.log (.reached (.port p)))).2

end World

/-- The transaction is sound, references lead to rows, and the pull requests of these ids are
stored. -/
structure World.Sound (ids : List String) (w : World) : Prop where
  unspoiled : w.spoiled = false
  linked : w.tables.Linked
  stored : ∀ id ∈ ids, (w.tables.pullRequest? id).isSome

namespace Interruption

/-- An error of the database strikes at the statement that has `n` others before it in the
journal. -/
def striking (j : Interruption) (n : ℕ) (e : DatabaseError) : Interruption := fun p m w =>
  match p, m with
  | .statement _, .before =>
    if w.statements.length = n + 1 then (.error (.database e), w) else j p m w
  | _, _ => j p m w

/-- Others may write wherever a run can be interrupted but at its statements. They do so on their
own connections, keep the references and every stored pull request, and let nothing fail. -/
structure Calm (j : Interruption) : Prop where
  passes : ∀ p m w, (j p m w).1 = .ok ()
  journal : ∀ p m w, (j p m w).2.journal = w.journal
  spoiled : ∀ p m w, (j p m w).2.spoiled = w.spoiled
  linked : ∀ p m w, w.tables.Linked → (j p m w).2.tables.Linked
  stored : ∀ p m w id, (w.tables.pullRequest? id).isSome →
    ((j p m w).2.tables.pullRequest? id).isSome
  statement : ∀ s m w, (j (.statement s) m w).2.tables = w.tables

theorem Calm.sound {j : Interruption} (calm : j.Calm) {ids : List String} {w : World}
    (sound : w.Sound ids) (p : Point) (m : Moment) : (j p m w).2.Sound ids where
  unspoiled := (calm.spoiled p m w).trans sound.unspoiled
  linked := calm.linked p m w sound.linked
  stored id listed := calm.stored p m w id (sound.stored id listed)

theorem Calm.keeps_sound {j : Interruption} (calm : j.Calm) (n : ℕ) (e : DatabaseError)
    (ids : List String) : (j.striking n e).Keeps (World.Sound ids) where
  log _ _ sound := ⟨sound.unspoiled, sound.linked, sound.stored⟩
  point p m w sound := by
    unfold striking
    split
    · split
      · exact sound
      · exact calm.sound sound _ _
    · exact calm.sound sound p m

end Interruption

/-- How a run goes on which the strike at the statement number `n` may fall: it is still to come, or
it has fallen at a statement, and the run has failed as `P` tells. -/
inductive Stricken {α : Type} (n : ℕ) (P : Statement → Failure → Prop)
    (o : Except Failure α × World) : Prop
  | spared (awaits : o.2.statements.length ≤ n)
  | struck {s : Statement} {f : Failure} (place : o.2.statements[n]? = some s)
      (fails : o.1 = .error f) (told : P s f)

namespace Act

variable {α β : Type} {j : Interruption} {n : ℕ} {e : DatabaseError}
  {P Q : Statement → Failure → Prop} {w : World}

/-! ### Points -/

section

variable (calm : j.Calm)
include calm

theorem statements_calm (p : Point) (m : Moment) (w : World) :
    (j p m w).2.statements = w.statements := by
  unfold World.statements
  rw [calm.journal]

/-- A point that is no statement is passed, and others may have written meanwhile. -/
theorem reach_eq {p : Point} (other : (Event.reached p).statement? = none) (w : World) :
    reach p (j.striking n e) w = (.ok (), (j p .before (w.log (.reached p))).2) := by
  have passes := calm.passes p .before (w.log (.reached p))
  have same : reach p (j.striking n e) w = j p .before (w.log (.reached p)) := by
    cases p with
    | statement s => cases other
    | _ => rfl
  rw [same, ← passes]

theorem leave_eq (p : Point) (w : World) :
    leave p (j.striking n e) w = (.ok (), (j p .after (w.log (.left p))).2) := by
  have passes := calm.passes p .after (w.log (.left p))
  have same : leave p (j.striking n e) w = j p .after (w.log (.left p)) := by
    cases p <;> rfl
  rw [same, ← passes]

/-- A statement that is not the one to be struck is passed, and nobody has written meanwhile. -/
theorem reach_passed (s : Statement) (w : World) (unstruck : w.statements.length ≠ n) :
    ∃ v, reach (.statement s) (j.striking n e) w = (.ok (), v) ∧ v.tables = w.tables ∧
      v.spoiled = w.spoiled ∧ v.statements = w.statements ++ [s] := by
  let u := w.log (.reached (.statement s))
  have counted : u.statements = w.statements ++ [s] := w.statements_log_statement s
  have later : ¬u.statements.length = n + 1 := by
    rw [counted, List.length_append, List.length_singleton]
    omega
  have passes := calm.passes (.statement s) .before u
  have same : reach (.statement s) (j.striking n e) w = j (.statement s) .before u := if_neg later
  refine ⟨(j (.statement s) .before u).2, ?_, calm.statement s .before u, calm.spoiled _ _ u,
    (statements_calm calm _ _ u).trans counted⟩
  rw [same, ← passes]

end

theorem reach_struck (s : Statement) (w : World) (struck : w.statements.length = n) :
    reach (.statement s) (j.striking n e) w =
      (.error (.database e), w.log (.reached (.statement s))) := by
  refine if_pos ?_
  rw [World.statements_log_statement, List.length_append, List.length_singleton, struck]

end Act

/-! ### Storage calls -/

namespace Act

section

variable {α : Type} {j : Interruption} {n : ℕ} {e : DatabaseError} (calm : j.Calm)
include calm

theorem statements_entered (p : Port) (w : World) :
    (w.entered (j.striking n e) p).statements = w.statements :=
  (statements_calm calm _ _ _).trans (w.statements_log rfl)

theorem port_eq (p : Port) (x : Act α) (w : World) :
    port p x (j.striking n e) w =
      match x (j.striking n e) (w.entered (j.striking n e) p) with
      | (.ok a, v) => (.ok a, (j (.port p) .after (v.log (.left (.port p)))).2)
      | (.error f, v) => (.error f.classified, v) := by
  have body : visiting (.port p) x (j.striking n e) w =
      match x (j.striking n e) (w.entered (j.striking n e) p) with
      | (.ok a, v) => (.ok a, (j (.port p) .after (v.log (.left (.port p)))).2)
      | (.error f, v) => (.error f, v) := by
    unfold visiting
    rw [bind_apply, reach_eq calm rfl]
    show (x >>= _) (j.striking n e) (w.entered (j.striking n e) p) = _
    rw [bind_apply]
    generalize x (j.striking n e) (w.entered (j.striking n e) p) = outcome
    obtain ⟨f | a, v⟩ := outcome
    · rfl
    · show (leave (.port p) >>= _) (j.striking n e) v = _
      rw [bind_apply, leave_eq calm]
      rfl
  unfold port
  rw [orElse_apply, body]
  generalize x (j.striking n e) (w.entered (j.striking n e) p) = outcome
  obtain ⟨f | a, v⟩ := outcome <;> rfl

theorem port_eq_error {p : Port} {x : Act α} {w v : World} {f : Failure}
    (run : port p x (j.striking n e) w = (.error f, v)) :
    ∃ g, x (j.striking n e) (w.entered (j.striking n e) p) = (.error g, v) ∧ f = g.classified := by
  rw [port_eq calm] at run
  generalize x (j.striking n e) (w.entered (j.striking n e) p) = outcome at run
  obtain ⟨g | a, u⟩ := outcome
  · cases run
    exact ⟨g, rfl, rfl⟩
  · cases run

theorem port_eq_ok {p : Port} {x : Act α} {w v : World} {a : α}
    (run : port p x (j.striking n e) w = (.ok a, v)) :
    ∃ u, x (j.striking n e) (w.entered (j.striking n e) p) = (.ok a, u) ∧
      v = (j (.port p) .after (u.log (.left (.port p)))).2 := by
  rw [port_eq calm] at run
  generalize x (j.striking n e) (w.entered (j.striking n e) p) = outcome at run
  obtain ⟨g | b, u⟩ := outcome
  · cases run
  · cases run
    exact ⟨u, rfl, rfl⟩

end

end Act

theorem Interruption.Calm.sound_entered {j : Interruption} (calm : j.Calm) {n : ℕ}
    {e : DatabaseError} {ids : List String} {w : World} (sound : w.Sound ids) (p : Port) :
    (w.entered (j.striking n e) p).Sound ids := by
  have keeps := calm.keeps_sound n e ids
  exact keeps.point _ _ _ (keeps.log w _ sound)

namespace Act

variable {α : Type} {i : Interruption} {w : World}

theorem statements_atomic (x : Act α) (i : Interruption) (w : World) :
    (atomic x i w).2.statements = (x i w.deeper).2.statements := by
  generalize run : x i w.deeper = outcome
  obtain ⟨f | a, v⟩ := outcome
  · rw [atomic_error run]
    exact v.statements_log rfl
  · rw [atomic_ok run]
    split
    · exact v.statements_log rfl
    · split <;> exact v.statements_log rfl

/-- A transaction ends as its act does if the references lead to rows where that succeeds. -/
theorem result_atomic {x : Act α}
    (linked : ∀ a, (x i w.deeper).1 = .ok a → (x i w.deeper).2.tables.Linked) :
    (atomic x i w).1 = (x i w.deeper).1 := by
  generalize run : x i w.deeper = outcome at linked
  obtain ⟨f | a, v⟩ := outcome
  · rw [atomic_error run]
  · rw [atomic_ok run]
    split
    · rfl
    · rw [if_neg fun dangling => dangling.2 (linked a rfl)]

end Act

/-! ### Rules for runs -/

namespace Stricken

open Act

variable {α β : Type} {i : Interruption} {n : ℕ} {P Q : Statement → Failure → Prop} {w : World}
  {x : Act α}

theorem mono {o : Except Failure α × World} (stricken : Stricken n P o)
    (weaker : ∀ s f, P s f → Q s f) : Stricken n Q o := by
  cases stricken with
  | spared awaits => exact .spared awaits
  | struck place fails told => exact .struck place fails (weaker _ _ told)

theorem bind {f : α → Act β} (first : Stricken n P (x i w))
    (rest : ∀ a v, x i w = (.ok a, v) → v.statements.length ≤ n → Stricken n P (f a i v)) :
    Stricken n P ((x >>= f) i w) := by
  rw [bind_apply]
  generalize x i w = outcome at first rest
  obtain ⟨g | a, v⟩ := outcome
  · cases first with
    | spared awaits => exact .spared awaits
    | struck place fails told => exact .struck place (by cases fails; rfl) told
  · cases first with
    | spared awaits => exact rest a v rfl awaits
    | struck place fails told => cases fails

theorem orElse {handler : Failure → Act α} (first : Stricken n P (x i w))
    (handled : ∀ s f v, x i w = (.error f, v) → v.statements[n]? = some s → P s f →
      Stricken n Q (handler f i v))
    (rest : ∀ f v, x i w = (.error f, v) → v.statements.length ≤ n →
      Stricken n Q (handler f i v)) :
    Stricken n Q (x.orElse handler i w) := by
  rw [orElse_apply]
  generalize x i w = outcome at first handled rest
  obtain ⟨g | a, v⟩ := outcome
  · cases first with
    | spared awaits => exact rest g v rfl awaits
    | struck place fails told =>
      cases fails
      exact handled _ _ v rfl place told
  · cases first with
    | spared awaits => exact .spared awaits
    | struck place fails told => cases fails

theorem atomic (inner : Stricken n P (x i w.deeper)) : Stricken n P (Act.atomic x i w) := by
  have same := statements_atomic x i w
  cases inner with
  | spared awaits => exact .spared (same ▸ awaits)
  | struck place fails told =>
    refine .struck (same ▸ place) ((result_atomic fun a done => ?_).trans fails) told
    cases fails.symm.trans done

theorem port {j : Interruption} {e : DatabaseError} (calm : j.Calm) (p : Port)
    (inner : Stricken n P (x (j.striking n e) (w.entered (j.striking n e) p)))
    (classed : ∀ s f, P s f → Q s f.classified) :
    Stricken n Q (Act.port p x (j.striking n e) w) := by
  rw [port_eq calm]
  generalize x (j.striking n e) (w.entered (j.striking n e) p) = outcome at inner
  obtain ⟨g | a, v⟩ := outcome
  · cases inner with
    | spared awaits => exact .spared awaits
    | struck place fails told =>
      cases fails
      exact .struck place rfl (classed _ _ told)
  · cases inner with
    | struck place fails told => cases fails
    | spared awaits =>
      refine .spared ?_
      show ((j _ _ _).2.statements).length ≤ n
      rwa [statements_calm calm, v.statements_log rfl]

end Stricken

/-! ### Rules for acts -/

namespace Act

variable {α β : Type} {j : Interruption} {n : ℕ} {e : DatabaseError}
  {P Q : Statement → Failure → Prop}

/-- If the strike falls in the act, the act fails as `P` tells. -/
def Breaks (i : Interruption) (n : ℕ) (P : Statement → Failure → Prop) (x : Act α) : Prop :=
  ∀ w : World, w.statements.length ≤ n → Stricken n P (x i w)

abbrev Bare (e : DatabaseError) : Statement → Failure → Prop := fun _ f => f = .database e

/-- The strike ends the act as the refusal that its code stands for. -/
abbrev Classed (e : DatabaseError) : Statement → Failure → Prop := fun _ f => f = .refused e.refusal

namespace Breaks

variable {i : Interruption}

theorem mono {x : Act α} (breaks : x.Breaks i n P) (weaker : ∀ s f, P s f → Q s f) :
    x.Breaks i n Q :=
  fun w awaits => (breaks w awaits).mono weaker

theorem of_silent {x : Act α} (silent : ∀ w, (x i w).2.statements = w.statements) :
    x.Breaks i n P :=
  fun w awaits => .spared (by rwa [silent])

theorem pure (a : α) : (pure a : Act α).Breaks i n P := .of_silent fun _ => rfl

theorem fail (f : Failure) : (fail f : Act α).Breaks i n P := .of_silent fun _ => rfl

theorem refuse (r : Refusal) : (refuse r : Act α).Breaks i n P := .of_silent fun _ => rfl

theorem ofExcept (r : Except Failure α) : (ofExcept r).Breaks i n P := .of_silent fun _ => rfl

theorem world : Act.world.Breaks i n P := .of_silent fun _ => rfl

theorem now : Act.now.Breaks i n P := .of_silent fun _ => rfl

theorem spoil : Act.spoil.Breaks i n P := .of_silent fun _ => rfl

theorem checkTransaction : Act.checkTransaction.Breaks i n P := by
  refine .of_silent fun w => ?_
  unfold Act.checkTransaction
  split <;> rfl

theorem store (t : Tables) : (store t).Breaks i n P := by
  refine .of_silent fun w => ?_
  unfold Act.store
  split <;> rfl

theorem bind {x : Act α} {f : α → Act β} (first : x.Breaks i n P)
    (rest : ∀ a, (f a).Breaks i n P) : (x >>= f).Breaks i n P :=
  fun w awaits => (first w awaits).bind fun a v _ => rest a v

theorem orElse {x : Act α} {handler : Failure → Act α} (first : x.Breaks i n P)
    (handled : ∀ s f, P s f → ∀ v : World, v.statements[n]? = some s →
      Stricken n Q (handler f i v))
    (rest : ∀ f, (handler f).Breaks i n Q) : (x.orElse handler).Breaks i n Q :=
  fun w awaits => (first w awaits).orElse (fun s f v _ place told => handled s f told v place)
    fun f v _ => rest f v

theorem atomic {x : Act α} (inner : x.Breaks i n P) : (atomic x).Breaks i n P := by
  intro w awaits
  have counted : w.deeper.statements = w.statements := w.statements_log rfl
  exact .atomic (inner w.deeper (by rwa [counted]))

section

variable (calm : j.Calm)
include calm

theorem reach {p : Point} (other : (Event.reached p).statement? = none) :
    (reach p).Breaks (j.striking n e) n P := by
  refine .of_silent fun w => ?_
  rw [reach_eq calm other]
  exact (statements_calm calm _ _ _).trans (w.statements_log other)

theorem leave (p : Point) : (leave p).Breaks (j.striking n e) n P := by
  refine .of_silent fun w => ?_
  rw [leave_eq calm]
  exact (statements_calm calm _ _ _).trans (w.statements_log rfl)

theorem reach_statement {s : Statement} (told : P s (.database e)) :
    (Act.reach (.statement s)).Breaks (j.striking n e) n P := by
  intro w awaits
  by_cases struck : w.statements.length = n
  · rw [reach_struck s w struck]
    refine .struck ?_ rfl told
    rw [World.statements_log_statement, ← struck]
    exact List.getElem?_concat_length
  · obtain ⟨v, run, -, -, counted⟩ := reach_passed calm s w struck
    rw [run]
    refine .spared ?_
    rw [counted, List.length_append, List.length_singleton]
    omega

theorem visiting {p : Point} (other : (Event.reached p).statement? = none) {x : Act α}
    (inner : x.Breaks (j.striking n e) n P) : (visiting p x).Breaks (j.striking n e) n P :=
  .bind (.reach calm other) fun _ => .bind inner fun a => .bind (.leave calm p) fun _ => .pure a

theorem port (p : Port) {x : Act α} (inner : x.Breaks (j.striking n e) n P)
    (classed : ∀ s f, P s f → Q s f.classified) :
    (port p x).Breaks (j.striking n e) n Q :=
  fun w awaits => .port calm p (inner _ (by rwa [statements_entered calm])) classed

theorem port_classed (p : Port) {x : Act α} (inner : x.Breaks (j.striking n e) n (Bare e)) :
    (Act.port p x).Breaks (j.striking n e) n (Classed e) :=
  .port calm p inner fun _ _ told => by rw [told]; rfl

theorem read (s : Statement) (f : Tables → Except Failure α) (told : P s (.database e)) :
    (read s f).Breaks (j.striking n e) n P :=
  .bind (.reach_statement calm told) fun _ => .bind .checkTransaction fun _ => .bind .world fun _ =>
    .ofExcept _

theorem write (s : Statement) (values : Except Failure β)
    (f : β → Tables → Except Failure (α × Tables)) (told : P s (.database e)) :
    (write s values f).Breaks (j.striking n e) n P :=
  .orElse
    (.bind (.reach_statement calm told) fun _ => .bind (.ofExcept _) fun _ =>
      .bind .checkTransaction fun _ => .bind .world fun _ => .bind (.ofExcept _) fun r =>
        .bind (.store r.2) fun _ => .pure _)
    (fun _ _ told _ place => .struck place rfl told)
    fun f => .bind .spoil fun _ => .fail f

end

end Breaks

/-! ### What a run tells of the tables -/

theorem atomic_restores {i : Interruption} {x : Act α} {w v : World} {f : Failure}
    (run : atomic x i w = (.error f, v)) : v.tables = w.tables ∧ v.spoiled = w.spoiled := by
  generalize inner : x i w.deeper = outcome
  obtain ⟨g | a, u⟩ := outcome
  · rw [atomic_error inner] at run
    cases run
    exact ⟨rfl, rfl⟩
  · rw [atomic_ok inner] at run
    split at run
    · cases run
    · split at run <;> cases run
      exact ⟨rfl, rfl⟩

theorem bind_eq_ok {i : Interruption} {x : Act α} {f : α → Act β} {w v : World} {b : β}
    (run : (x >>= f) i w = (.ok b, v)) :
    ∃ a u, x i w = (.ok a, u) ∧ f a i u = (.ok b, v) := by
  rw [bind_apply] at run
  generalize x i w = outcome at run
  obtain ⟨g | a, u⟩ := outcome
  · cases run
  · exact ⟨a, u, rfl, run⟩

theorem checkTransaction_eq_ok {i : Interruption} {w v : World} {a : Unit}
    (run : checkTransaction i w = (.ok a, v)) : v = w ∧ w.spoiled = false := by
  unfold checkTransaction at run
  split at run
  · cases run
  · cases run
    exact ⟨rfl, Bool.eq_false_iff.mpr ‹_›⟩

theorem read_eq_ok {i : Interruption} {s : Statement} {f : Tables → Except Failure α} {a : α}
    {w v : World} (run : read s f i w = (.ok a, v)) : v.spoiled = false ∧ f v.tables = .ok a := by
  unfold read at run
  obtain ⟨_, u, -, reached⟩ := bind_eq_ok run
  obtain ⟨_, u', checked, passed⟩ := bind_eq_ok reached
  obtain ⟨_, u'', same, answered⟩ := bind_eq_ok passed
  obtain ⟨rfl, unspoiled⟩ := checkTransaction_eq_ok checked
  cases same
  obtain ⟨result, rfl⟩ := Prod.mk.inj answered
  exact ⟨unspoiled, result⟩

section

variable (calm : j.Calm)
include calm

theorem read_tables {s : Statement} {f : Tables → Except Failure α} {r : Except Failure α}
    {w v : World} (run : read s f (j.striking n e) w = (r, v)) : v.tables = w.tables := by
  unfold read at run
  rw [bind_apply] at run
  by_cases struck : w.statements.length = n
  · rw [reach_struck s w struck] at run
    cases run
    rfl
  · obtain ⟨u, reached, tables, -, -⟩ := reach_passed (e := e) calm s w struck
    rw [reached] at run
    simp only [bind_apply, checkTransaction, world_apply, ofExcept_apply] at run
    rw [← tables]
    by_cases spoiled : u.spoiled = true
    · rw [if_pos spoiled] at run
      cases run
      rfl
    · rw [if_neg spoiled] at run
      cases run
      rfl

/-- A read that fails does so on account of the database or of what it reads. -/
theorem read_eq_error {s : Statement} {f : Tables → Except Failure α} {g : Failure} {w v : World}
    (run : read s f (j.striking n e) w = (.error g, v)) :
    (∃ d, g = .database d) ∨ ∃ t, f t = .error g := by
  unfold read at run
  rw [bind_apply] at run
  by_cases struck : w.statements.length = n
  · rw [reach_struck s w struck] at run
    cases run
    exact .inl ⟨e, rfl⟩
  · obtain ⟨u, reached, -, -, -⟩ := reach_passed (e := e) calm s w struck
    rw [reached] at run
    simp only [bind_apply, checkTransaction, world_apply, ofExcept_apply] at run
    by_cases spoiled : u.spoiled = true
    · rw [if_pos spoiled] at run
      cases run
      exact .inl ⟨spoiledTransaction, rfl⟩
    · rw [if_neg spoiled] at run
      exact .inr ⟨u.tables, congrArg Prod.fst run⟩

/-- With the strike past, a read in a sound transaction gives what is stored. -/
theorem read_late (s : Statement) (f : Tables → Except Failure α) {w : World} {struck : Statement}
    (place : w.statements[n]? = some struck) (unspoiled : w.spoiled = false) :
    ∃ v, read s f (j.striking n e) w = (f w.tables, v) ∧ v.tables = w.tables ∧
      v.spoiled = false ∧ v.statements[n]? = some struck := by
  obtain ⟨late, -⟩ := List.getElem?_eq_some_iff.mp place
  obtain ⟨v, run, tables, spoiled, counted⟩ := reach_passed (e := e) calm s w (Nat.ne_of_gt late)
  refine ⟨v, ?_, tables, spoiled.trans unspoiled, ?_⟩
  · unfold read
    rw [bind_apply, run]
    simp only [checkTransaction, bind_apply, spoiled, unspoiled, world_apply, ofExcept_apply,
      tables, Bool.false_eq_true, if_false]
  · rw [counted, List.getElem?_append_left late, place]

end

end Act

end ReviewRota
