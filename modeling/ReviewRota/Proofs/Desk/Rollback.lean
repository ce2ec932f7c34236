import ReviewRota.Proofs.Desk.Ids
import ReviewRota.Proofs.Desk.Plan
import ReviewRota.Proofs.Store.Calls
import ReviewRota.Scenario.Turn

/-!
# All or nothing

Faults may strike at every statement and at every other place inside of a storage call. An act that
restores leaves the tables as they were whenever it fails: a transaction does, and so does an act
that reads, with or without one that restores behind it. All requests but one are made of these; the
deactivation of a team writes user by user.
-/

namespace ReviewRota

/-- Faults that strike inside of storage calls. Clocks and settings may change meanwhile. -/
structure Interruption.Faulty (i : Interruption) : Prop where
  tables : ∀ p m w, (i p m w).2.tables = w.tables
  inside : ∀ p w, (i (.port p) .after w).1 = .ok ()

theorem Interruption.Faulty.keeps {i : Interruption} (faulty : i.Faulty) (t : Tables) :
    i.Keeps (World.With (· = t)) :=
  ⟨fun _ _ h => h, fun p m w h => (faulty.tables p m w).trans h⟩

namespace Scenario

theorem fire_of_still {hs : List Interjection} (still : ∀ h ∈ hs, h.steps = []) (w : World) :
    (fire hs w).2 = w := by
  induction hs with
  | nil => rfl
  | cons h hs ih =>
    have quiet : h.steps.foldl aside w = w := by
      rw [still h List.mem_cons_self]
      rfl
    unfold fire
    dsimp only
    rw [quiet]
    split
    · rfl
    · exact ih fun h' member => still h' (List.mem_cons_of_mem _ member)

/-- Failures that a scenario provokes are faults if nobody takes a step in between. -/
theorem faulty_interruption {hs : List Interjection} (still : ∀ h ∈ hs, h.steps = [])
    (inside : ∀ h ∈ hs, ∀ p, h.point = .port p → h.moment = .before) :
    (interruption hs).Faulty where
  tables p m w := by
    unfold interruption
    rw [fire_of_still fun h member => still h (List.mem_of_mem_filter member)]
  inside p w := by
    unfold interruption
    rw [List.filter_eq_nil_iff.mpr]
    · rfl
    · intro h member struck
      simp only [Bool.and_eq_true, decide_eq_true_eq] at struck
      have before := inside h member p struck.1.1
      rw [before] at struck
      cases struck.1.2

end Scenario

namespace Act

variable {α β : Type} {i : Interruption} {x : Act α} {f : α → Act β}

/-- The tables are always left as they were. -/
abbrev Reads (i : Interruption) (x : Act α) : Prop := ∀ t, x.Keeps (World.With (· = t)) i

/-- The tables are left as they were by every failure. -/
def Restores (i : Interruption) (x : Act α) : Prop :=
  ∀ w e v, x i w = (.error e, v) → v.tables = w.tables

namespace Restores

theorem of_reads (reads : x.Reads i) : x.Restores i := by
  intro w e v failed
  have kept := reads w.tables w rfl
  rwa [failed] at kept

theorem atomic (x : Act α) : (atomic x).Restores i := by
  intro w e v failed
  generalize run : x i w.deeper = outcome
  obtain ⟨e' | a, u⟩ := outcome
  · rw [atomic_error run] at failed
    cases failed
    rfl
  · rw [atomic_ok run] at failed
    split at failed
    · cases failed
    · split at failed
      · cases failed
        rfl
      · cases failed

theorem bind (reads : x.Reads i) (rest : ∀ a, (f a).Restores i) : (x >>= f).Restores i := by
  intro w e v failed
  have kept := reads w.tables w rfl
  rw [bind_apply] at failed
  generalize x i w = outcome at kept failed
  obtain ⟨e' | a, u⟩ := outcome
  · cases failed
    exact kept
  · exact (rest a u e v failed).trans kept

/-- What follows an act that restores may change the tables if it never fails. -/
theorem bind_ok (first : x.Restores i) (rest : ∀ a w, ∃ b v, f a i w = (.ok b, v)) :
    (x >>= f).Restores i := by
  intro w e v failed
  rw [bind_apply] at failed
  generalize run : x i w = outcome at failed
  obtain ⟨e' | a, u⟩ := outcome
  · cases failed
    exact first w e v run
  · replace failed : f a i u = (.error e, v) := failed
    obtain ⟨b, u', done⟩ := rest a u
    rw [done] at failed
    cases failed

/-- What follows is the last thing to write: after a failure of the act it only reads, and after
its success it never fails. -/
theorem bind_attempt {g : Except Failure α → Act β} (first : x.Restores i)
    (failed : ∀ e, (g (.error e)).Reads i) (done : ∀ a w, ∃ b v, g (.ok a) i w = (.ok b, v)) :
    (x.attempt >>= g).Restores i := by
  intro w e v fails
  replace fails : g (x i w).1 i (x i w).2 = (.error e, v) := fails
  generalize run : x i w = outcome at fails
  obtain ⟨e' | a, u⟩ := outcome
  · have kept := failed e' u.tables u rfl
    dsimp only at fails
    rw [fails] at kept
    exact kept.trans (first w e' u run)
  · obtain ⟨b, u', ends⟩ := done a u
    dsimp only at fails
    rw [ends] at fails
    cases fails

theorem port (faulty : i.Faulty) (p : Port) (inner : x.Restores i) : (port p x).Restores i := by
  have visited : (visiting (.port p) x).Restores i := by
    refine .bind (fun t => .reach (faulty.keeps t) _) fun _ => .bind_ok inner fun a w => ?_
    have left := faulty.inside p (w.log (.left (.port p)))
    refine ⟨a, (i (.port p) .after (w.log (.left (.port p)))).2, ?_⟩
    rw [bind_apply, leave]
    generalize i (.port p) .after (w.log (.left (.port p))) = outcome at left ⊢
    obtain ⟨r, v⟩ := outcome
    obtain rfl : r = .ok () := left
    rfl
  intro w e v failed
  rw [Act.port, orElse_apply] at failed
  generalize run : visiting (.port p) x i w = outcome at failed
  obtain ⟨e' | a, u⟩ := outcome
  · cases failed
    exact visited w e' v run
  · cases failed

end Restores

end Act

namespace Plan

variable {α : Type}

def IsReading : Plan α → Prop
  | done _ => True
  | check _ next => next.IsReading
  | now next => ∀ t, (next t).IsReading
  | maxReviewers next => ∀ n, (next n).IsReading
  | snapshot next => next.IsReading
  | call c next => c.IsReading ∧ ∀ r, (next r).IsReading

theorem IsReading.keeps {p : Plan α} (reading : p.IsReading) {I : World → Prop} {i : Interruption}
    (hi : i.Keeps I) (clock : ∀ w b, I w → I { w with clock := b })
    (d : Option (Deadline Binary64)) : (p.act d).Keeps I i := by
  induction p with
  | done r => exact .ofExcept r
  | check name next ih => exact .bind (keeps_checkAct hi clock d name) fun _ => ih reading
  | now next ih => exact .bind .now fun t => ih t (reading t)
  | maxReviewers next ih => exact .bind .world fun w => ih _ (reading _)
  | snapshot next ih => exact .bind (keeps_snapshotAct hi) fun _ => ih reading
  | call c next ih => exact .bind (.attempt (reading.1.keeps hi)) fun r => ih r (reading.2 r)

end Plan

section

variable {α : Type} {i : Interruption}

theorem Operation.restores_of_transactional {o : Operation α}
    (transactional : o.transactional = true) (timeout : Option Number) :
    (o.act timeout).Restores i := by
  unfold Operation.act
  rw [if_pos transactional]
  exact .atomic _

theorem Operation.restores_of_plan {plan : Plan α} (restores : ∀ d, (plan.act d).Restores i)
    (timeout : Option Number) : (Operation.act ⟨false, plan⟩ timeout).Restores i :=
  .bind (fun _ => .world) fun _ => .bind (fun _ => .ofExcept _) fun d => restores d

variable (faulty : i.Faulty)
include faulty

theorem Plan.IsReading.restores {plan : Plan α} (reading : plan.IsReading)
    (d : Option (Deadline Binary64)) : (plan.act d).Restores i :=
  .of_reads fun t => reading.keeps (faulty.keeps t) (fun _ _ h => h) d

theorem Plan.restores_checked {name : String} {next : Plan α} {d : Option (Deadline Binary64)}
    (restores : (next.act d).Restores i) : ((Plan.check name next).act d).Restores i :=
  .bind (fun t => keeps_checkAct (faulty.keeps t) (fun _ _ h => h) d name) fun _ => restores

theorem Users.restores_setActive (id active : Value) : (Users.setActive id active).Restores i :=
  .port faulty _ (.atomic _)

theorem Teams.restores_create {t : Team} {sorted : List MemberDraft}
    (ordered : MemberDraft.ordered t.members = .ok sorted) : (Teams.create t).Restores i := by
  refine .port faulty _ (.bind_ok (.atomic _) fun _ w => ⟨{ t with members := sorted }, w, ?_⟩)
  rw [ordered]
  rfl

end

namespace Desk

variable {i : Interruption} (faulty : i.Faulty)
include faulty

theorem restores_setUserActive (id active : Value) (d : Option (Deadline Binary64)) :
    ((setUserActivePlan id active).act d).Restores i :=
  Plan.restores_checked faulty (.bind_attempt (Users.restores_setActive faulty id active)
    (fun _ _ => .ofExcept _) fun a w => ⟨a, w, rfl⟩)

theorem restores_createTeam (name : Value) {entries : List MemberEntry}
    (orderable : ∀ ms, entries.mapM MemberEntry.draft = .ok ms →
      ∃ sorted, MemberDraft.ordered ms = .ok sorted) (d : Option (Deadline Binary64)) :
    ((createTeamPlan name entries).act d).Restores i := by
  unfold createTeamPlan
  cases drafts : entries.mapM MemberEntry.draft with
  | error e => exact .of_reads fun _ => .ofExcept _
  | ok ms =>
    obtain ⟨sorted, ordered⟩ := orderable ms drafts
    refine Plan.restores_checked faulty (.bind_attempt (Teams.restores_create faulty ordered)
      (fun e => ?_) fun team w => ⟨team, w, rfl⟩)
    show Act.Reads i ((if e.IsExistence then _ else _ : Plan Team).act d)
    split <;> exact fun _ => .ofExcept _

omit faulty

theorem isReading_getTeam (name : Value) : (getTeamPlan name).IsReading := by
  refine ⟨trivial, fun r => ?_⟩
  cases r <;> trivial

theorem isReading_reviewAssignments (id : Value) : (reviewAssignmentsPlan id).IsReading := by
  refine ⟨trivial, fun r => ?_⟩
  cases r with
  | error e => trivial
  | ok u => exact ⟨trivial, fun _ => trivial⟩

theorem Command.restores (command : Command) (whole : ∀ name, command ≠ .deactivateTeam name)
    (orderable : command.Orderable) (faulty : i.Faulty) (timeout : Option Number) :
    (command.operation.act timeout).Restores i := by
  cases command with
  | deactivateTeam name => exact absurd rfl (whole name)
  | createTeam name entries =>
    exact Operation.restores_of_plan (restores_createTeam faulty name orderable) timeout
  | setUserActive id active =>
    exact Operation.restores_of_plan (restores_setUserActive faulty id active) timeout
  | getTeam name =>
    exact Operation.restores_of_plan ((isReading_getTeam name).restores faulty) timeout
  | reviewAssignments id =>
    exact Operation.restores_of_plan ((isReading_reviewAssignments id).restores faulty) timeout
  | createPullRequest id name author => exact Operation.restores_of_transactional rfl timeout
  | merge id => exact Operation.restores_of_transactional rfl timeout
  | reassign id old => exact Operation.restores_of_transactional rfl timeout
  | overview => exact Operation.restores_of_transactional rfl timeout

/-- A request that fails leaves the tables as they were, whatever is stored, how much time there is
and where faults strike. The deactivation of a team is left out: it stops where it fails. -/
theorem Command.failure_restores (command : Command)
    (whole : ∀ name, command ≠ .deactivateTeam name) (orderable : command.Orderable)
    (faulty : i.Faulty) (timeout : Option Number) (w : World) {e : Failure} {v : World}
    (failed : command.operation.act timeout i w = (.error e, v)) : v.tables = w.tables := by
  have restores := command.restores whole orderable faulty timeout
  exact restores w e v failed

/-- A team of two members. -/
def team (first second : Value) : Command :=
  .createTeam "core" [⟨some first, some "Ann", some (.bool true)⟩,
    ⟨some second, some "Ben", some (.bool true)⟩]

/-- The second user cannot be inserted. -/
def secondInsertion : List Scenario.Interjection :=
  [⟨.statement .insertUser, 2, .before, [], some (.fault ⟨.runtime, "boom"⟩)⟩]

def nowhere : World := { now := default }

theorem Command.failure_restores_team : ∃ e v,
    (team "u1" "u2").operation.act none (Scenario.interruption secondInsertion) nowhere =
      (.error e, v) ∧ v.tables = nowhere.tables := by
  have fails : ((team "u1" "u2").operation.act none (Scenario.interruption secondInsertion)
      nowhere).1.isOk = false := by decide +kernel
  generalize run : (team "u1" "u2").operation.act none (Scenario.interruption secondInsertion)
    nowhere = outcome at fails
  obtain ⟨e | t, v⟩ := outcome
  · have faulty : (Scenario.interruption secondInsertion).Faulty :=
      Scenario.faulty_interruption (by simp [secondInsertion]) (by simp [secondInsertion])
    have texts : ∀ v ∈ (team "u1" "u2").ids, v.IsText := by
      simp [team, ids, Value.IsText]
    have whole (name : Value) : team "u1" "u2" ≠ .deactivateTeam name := by simp [team]
    exact ⟨e, v, rfl, Command.failure_restores _ whole (orderable_of_texts texts) faulty none
      nowhere run⟩
  · cases fails

/-- Members whose ids are a number and a text stay stored although the request fails. -/
theorem Command.unordered_team_stays : ∃ e v,
    (team (.int 1) "u2").operation.act none .none nowhere = (.error e, v) ∧
      v.tables ≠ nowhere.tables := by
  have fails : ((team (.int 1) "u2").operation.act none .none nowhere).1.isOk = false := by
    decide +kernel
  have stays : ((team (.int 1) "u2").operation.act none .none nowhere).2.tables ≠ nowhere.tables :=
    by decide +kernel
  generalize (team (.int 1) "u2").operation.act none .none nowhere = outcome at fails stays
  obtain ⟨e | t, v⟩ := outcome
  · exact ⟨e, v, rfl, stays⟩
  · cases fails

end Desk

end ReviewRota
