import Mathlib.Data.String.Basic
import Mathlib.Tactic
import ReviewRota.Proofs.Desk.Checking
import ReviewRota.Proofs.Desk.Deactivating
import ReviewRota.Proofs.Desk.Policy
import ReviewRota.Proofs.Desk.Steadfast
import ReviewRota.Proofs.Interleaving.Whole
import ReviewRota.Proofs.Sorting

/-!
# Deactivations that are taken up again

A deactivation that stops has written the flags of the first members and nothing else: each member
is written as a whole or not at all, and the next one comes after that. So whoever repeats it until
it returns has deactivated every member, like somebody whom nothing has stopped.
-/

namespace ReviewRota

/-! ### Flags -/

def UserRow.deactivated (u : UserRow) (ids : List String) : UserRow :=
  if u.id ∈ ids then { u with active := false } else u

namespace UserRow

@[simp] theorem id_deactivated (u : UserRow) (ids : List String) : (u.deactivated ids).id = u.id := by
  unfold deactivated
  split <;> rfl

@[simp] theorem team_deactivated (u : UserRow) (ids : List String) :
    (u.deactivated ids).team = u.team := by
  unfold deactivated
  split <;> rfl

theorem deactivated_deactivated (u : UserRow) (ids ids' : List String) :
    (u.deactivated ids).deactivated ids' = u.deactivated (ids ++ ids') := by
  by_cases first : u.id ∈ ids <;> simp [deactivated, first]

theorem inactive_deactivated (u : UserRow) (ids : List String) :
    { u.deactivated ids with active := false } = { u with active := false } := by
  unfold deactivated
  split <;> rfl

end UserRow

namespace Tables

variable {t : Tables}

theorem users_deactivated (t : Tables) (ids : List String) :
    (t.deactivated ids).users = t.users.map fun u => u.deactivated ids := rfl

theorem deactivated_congr {ids ids' : List String} (same : ∀ id, id ∈ ids ↔ id ∈ ids') :
    t.deactivated ids = t.deactivated ids' := by
  simp only [deactivated, same]

theorem deactivated_deactivated (t : Tables) (ids ids' : List String) :
    (t.deactivated ids).deactivated ids' = t.deactivated (ids ++ ids') := by
  have users : ((t.deactivated ids).deactivated ids').users =
      (t.deactivated (ids ++ ids')).users := by
    simp only [users_deactivated, List.map_map, Function.comp_def, UserRow.deactivated_deactivated]
  exact congrArg (fun us => { t with users := us }) users

theorem Keyed.deactivated (keyed : t.Keyed) (ids : List String) : (t.deactivated ids).Keyed where
  teams := keyed.teams
  users := by
    simpa only [users_deactivated, List.map_map, Function.comp_def, UserRow.id_deactivated]
      using keyed.users
  heads := keyed.heads
  assigned := keyed.assigned

/-- Who was deactivated is stored as inactive. -/
theorem user?_deactivated (keyed : t.Keyed) {ids : List String} {u : UserRow} (stored : u ∈ t.users)
    (among : u.id ∈ ids) : (t.deactivated ids).user? u.id = some { u with active := false } := by
  refine (find?_key_eq_some_iff UserRow.id (keyed.deactivated ids).users).mpr ⟨?_, rfl⟩
  refine mem_deactivated.mpr ⟨u, stored, ?_⟩
  simp [among]

theorem user?_modifyUser_others {us : List UserRow} {id : String}
    (stored : ∀ u ∈ us, t.user? u.id = some u) (other : id ∉ us.map UserRow.id)
    {f : UserRow → UserRow} (keeps : ∀ u, u.id = id → (f u).id = id) :
    ∀ u ∈ us, (t.modifyUser id f).user? u.id = some u := by
  intro u member
  have apart : u.id ≠ id := fun same => other (same ▸ List.mem_map_of_mem member)
  rw [user?_modifyUser t id keeps, if_neg apart]
  exact stored u member

theorem usersOf_deactivated (t : Tables) (ids : List String) (team : Option String) :
    (t.deactivated ids).usersOf team = (t.usersOf team).map fun u => u.deactivated ids := by
  have sorted (us : List UserRow) : (idOrder us).map (fun u => u.deactivated ids) =
      idOrder (us.map fun u => u.deactivated ids) :=
    List.map_mergeSort fun u _ v _ => by simp only [UserRow.id_deactivated]
  rw [usersOf, usersOf, users_deactivated, List.filter_map, sorted]
  simp only [Function.comp_def, UserRow.team_deactivated]

/-! ### Members -/

/-- The members of a team in order. No team has a name that cannot be written. -/
def membersOf (t : Tables) : Text → List UserRow
  | .plain name => t.usersOf (some name)
  | .broken _ => []

theorem membersOf_deactivated (t : Tables) (ids : List String) (name : Text) :
    (t.deactivated ids).membersOf name = (t.membersOf name).map fun u => u.deactivated ids := by
  cases name with
  | plain name => exact usersOf_deactivated t ids (some name)
  | broken points => rfl

theorem map_id_membersOf_deactivated (t : Tables) (ids : List String) (name : Text) :
    ((t.deactivated ids).membersOf name).map UserRow.id = (t.membersOf name).map UserRow.id := by
  simp only [membersOf_deactivated, List.map_map, Function.comp_def, UserRow.id_deactivated]

structure IsRoster (t : Tables) (name : Text) (roster : List UserRow) : Prop where
  mem : ∀ u, u ∈ roster ↔ u ∈ t.users ∧ u.team.map Text.plain = some name
  ascending : roster.Pairwise fun u v => u.id < v.id

theorem isRoster_membersOf (keyed : t.Keyed) (name : Text) : t.IsRoster name (t.membersOf name) := by
  cases name with
  | plain name =>
    constructor
    · intro u
      simp only [membersOf, mem_usersOf, Option.map_eq_some_iff, Text.plain.injEq,
        exists_eq_right]
    · refine pairwise_lt_mergeSort UserRow.id (fun _ _ => decide_eq_true_iff) ?_
      exact keyed.users.sublist (List.filter_sublist.map _)
  | broken points =>
    constructor
    · intro u
      simp [membersOf]
    · exact .nil

end Tables

/-! ### Calls under faults -/

variable {i : Interruption} {w : World}

/-- How a call can end under faults that would end with `r` and leave the tables `t` without them:
it fails and leaves everything as it was, or it does what it would do without faults. -/
inductive Call.Faces (c : Call) (i : Interruption) (w : World) (r : Except Failure c.Result)
    (t : Tables) : Except Failure c.Result × World → Prop
  | failed {e : Failure} {v : World} (resting : v.Resting) (kept : v.tables = w.tables)
      (loud : i.Quiet → ∃ f, r = .error f) : Faces c i w r t (.error e, v)
  | answered {a : c.Result} {v : World} (resting : v.Resting) (answer : r = .ok a)
      (left : v.tables = t) : Faces c i w r t (.ok a, v)

theorem Call.faces {c : Call} {r : Except Failure c.Result} {t : Tables} (solitary : i.Solitary)
    (resting : w.Resting) (restores : c.act.Restores i)
    (steadfast : ∀ {i j : Interruption}, i.Solitary → j.Quiet → c.act.Steadfast i j)
    (ends : c.act.Ends w r t) : c.Faces i w r t (c.act i w) := by
  obtain ⟨j, undisturbed⟩ := ends
  have rests := Call.keeps_resting solitary.resting c w resting
  generalize run : c.act i w = outcome at rests ⊢
  obtain ⟨e | a, v⟩ := outcome
  · refine .failed rests (restores w e v run) fun quiet => ?_
    cases r with
    | error f => exact ⟨f, rfl⟩
    | ok a =>
      obtain ⟨v', again, -⟩ :=
        steadfast Interruption.quiet_none.solitary quiet w w a _ (.refl w) undisturbed
      rw [run] at again
      cases again
  · obtain ⟨v', again, same⟩ := steadfast solitary Interruption.quiet_none w w a v (.refl w) run
    rw [undisturbed] at again
    cases again
    exact .answered rests rfl same.tables.symm

theorem Users.faces_setActive (solitary : i.Solitary) (resting : w.Resting) {u : UserRow}
    (stored : w.tables.user? u.id = some u) (b : Bool) :
    let c : Call := .userSetActive (.text (.plain u.id)) (.bool b)
    c.Faces i w (.ok { u with active := b })
      (w.tables.modifyUser u.id fun u => { u with active := b }) (c.act i w) :=
  Call.faces solitary resting (restores_setActive solitary.faulty _ _)
    (fun solitary quiet => steadfast_setActive solitary quiet _ _)
    (setActive_ends resting.unspoiled (fun _ => resting.linked) rfl (flag_bool b) stored)

theorem Users.faces_ofTeam (solitary : i.Solitary) (resting : w.Resting) (team : Value) :
    let c : Call := .usersOfTeam team
    c.Faces i w (listed w.tables team) w.tables (c.act i w) :=
  Call.faces solitary resting
    (.of_reads fun t => Call.IsReading.keeps trivial (solitary.faulty.keeps t))
    (fun solitary quiet => steadfast_ofTeam solitary quiet _)
    (ofTeam_ends_listed resting.unspoiled team)

/-! ### Plans under faults -/

def Deed.deactivates? : Deed → Option String
  | asked _ ⟨.userSetActive (.text (.plain id)) (.bool false), .ok _⟩ => some id
  | _ => none

namespace Plan

variable {α β : Type} {d : Option (Deadline Binary64)}

/-- A plan that is followed by another one does what both do, one after the other. -/
theorem recount_bind (d : Option (Deadline Binary64)) (p : Plan α) (f : α → Plan β)
    (i : Interruption) (w : World) :
    (p.bind f).recount d i w =
      match p.recount d i w with
      | (deeds, .error e, v) => (deeds, .error e, v)
      | (deeds, .ok a, v) => (deeds ++ ((f a).recount d i v).1, ((f a).recount d i v).2) := by
  induction p generalizing w with
  | done r => cases r <;> rfl
  | check step next ih =>
    simp only [Plan.bind, recount]
    generalize beforeLook i w = outcome
    obtain ⟨e | _, v⟩ := outcome
    · rfl
    · dsimp only
      cases (Scenario.Reading.of d v.link step v.clock).check with
      | error e => rfl
      | ok ds =>
        dsimp only
        rw [ih]
        generalize next.recount d i ((v.told ds).log (.passed step)) = run
        obtain ⟨deeds, e | a, u⟩ := run <;> rfl
  | now next ih => exact ih _ _
  | maxReviewers next ih => exact ih _ _
  | snapshot next ih => exact ih _
  | call c next ih =>
    simp only [Plan.bind, recount]
    rw [ih]
    generalize (next (c.act i w).1).recount d i (c.act i w).2 = run
    obtain ⟨deeds, e | a, u⟩ := run <;> rfl

inductive Checked (d : Option (Deadline Binary64)) (next : Plan α) (i : Interruption) (w : World) :
    List Deed × (Except Failure α × World) → Prop
  | stopped {deeds : List Deed} {e : Failure} {v : World} (same : w.Matches v)
      (idle : deeds.filterMap Deed.deactivates? = []) (late : i.Quiet → Deadline.Stops d e) :
      Checked d next i w (deeds, .error e, v)
  | passed {r : Scenario.Reading} {v : World} (same : w.Matches v) :
      Checked d next i w (.looked r :: (next.recount d i v).1, (next.recount d i v).2)

theorem recount_check (solitary : i.Solitary) (d : Option (Deadline Binary64)) (step : String)
    (next : Plan α) (w : World) : Checked d next i w ((check step next).recount d i w) := by
  let u : World := { w with clock := w.clock + w.tick }
  have moved : w.Matches (u.log (.reached .deadline)) := ⟨rfl, rfl, rfl⟩
  have same : w.Matches (beforeLook i w).2 := moved.trans (solitary.matching .deadline .before _)
  have struck : i.Quiet → (beforeLook i w).1 = .ok () := fun quiet =>
    quiet.passes .deadline .before (u.log (.reached .deadline))
  rw [recount]
  generalize beforeLook i w = outcome at same struck ⊢
  obtain ⟨e | _, v⟩ := outcome
  · exact .stopped same rfl fun quiet => by cases struck quiet
  · dsimp only
    cases look : (Scenario.Reading.of d v.link step v.clock).check with
    | error e => exact .stopped same rfl fun _ => ⟨v.link, step, v.clock, look⟩
    | ok ds =>
      refine .passed (same.trans ?_)
      rw [World.told_eq]
      exact ⟨rfl, rfl, rfl⟩

end Plan

theorem Operation.run_cases {α : Type} {o : Operation α} (steps : o.transactional = false)
    (timeout : Option Number) (i : Interruption) (w : World) :
    (∃ e, Deadline.start? (τ := Binary64) w.clock timeout = .error e ∧
        o.timeline timeout i w = [] ∧ o.act timeout i w = (.error e, w)) ∨
      ∃ d, Deadline.start? w.clock timeout = .ok d ∧
        o.timeline timeout i w = (o.plan.recount d i w).1 ∧
        o.act timeout i w = (o.plan.recount d i w).2 := by
  have body : o.act timeout i w = o.body timeout i w := by
    rw [act_eq_enclosed, Act.enclosed, steps]
    rfl
  cases start : Deadline.start? w.clock timeout with
  | error e => exact .inl ⟨e, rfl, by rw [timeline, start], by rw [body, body_eq_error o start]⟩
  | ok d =>
    refine .inr ⟨d, rfl, ?_, ?_⟩
    · rw [timeline_eq start, begun, steps]
      rfl
    · rw [body, body_eq_plan o start, Plan.recount_outcome]

/-! ### Deactivations -/

/-- What has happened when a deactivation of these users ends, returned or stopped: the flags of the
first ones were written, one after the other, and nothing else. -/
structure Deactivates (excused : Failure → Prop) (i : Interruption) (us : List UserRow)
    (t : Tables) (deeds : List Deed) (outcome : Except Failure (List UserRow) × World) : Prop where
  resting : outcome.2.Resting
  begins : deeds.filterMap Deed.deactivates? <+: us.map UserRow.id
  tables : outcome.2.tables = t.deactivated (deeds.filterMap Deed.deactivates?)
  returns : ∀ rows, outcome.1 = .ok rows →
    deeds.filterMap Deed.deactivates? = us.map UserRow.id ∧
      rows = us.map fun u => { u with active := false }
  /-- Without faults it stops for these reasons only. -/
  stops : ∀ e, outcome.1 = .error e → i.Quiet → excused e

namespace Deactivates

variable {excused excused' : Failure → Prop} {us : List UserRow} {t : Tables} {deeds : List Deed}
  {outcome : Except Failure (List UserRow) × World}

theorem mono (run : Deactivates excused i us t deeds outcome)
    (weaker : ∀ e, excused e → excused' e) : Deactivates excused' i us t deeds outcome :=
  { run with stops := fun e failed quiet => weaker e (run.stops e failed quiet) }

/-- Nothing was written yet. -/
theorem of_idle {e : Failure} {v : World} (resting : v.Resting) (tables : v.tables = t)
    (idle : deeds.filterMap Deed.deactivates? = []) (stops : i.Quiet → excused e) :
    Deactivates excused i us t deeds (.error e, v) where
  resting := resting
  begins := idle ▸ List.nil_prefix
  tables := by rw [tables, idle, Tables.deactivated_nil]
  returns _ returned := nomatch returned
  stops _ failed quiet := Except.error.inj failed ▸ stops quiet

theorem cons_idle {deed : Deed} (run : Deactivates excused i us t deeds outcome)
    (idle : deed.deactivates? = none) : Deactivates excused i us t (deed :: deeds) outcome := by
  have same : (deed :: deeds).filterMap Deed.deactivates? = deeds.filterMap Deed.deactivates? :=
    List.filterMap_cons_none idle
  exact ⟨run.resting, same ▸ run.begins, same ▸ run.tables, same ▸ run.returns, run.stops⟩

theorem cons {u : UserRow} {r : Except Failure (List UserRow)} {v : World} (clock : Binary64)
    (run : Deactivates excused i us (t.modifyUser u.id fun u => { u with active := false }) deeds
      (r, v)) :
    let row : UserRow := { u with active := false }
    Deactivates excused i (u :: us) t
      (.asked clock ⟨.userSetActive (.text (.plain u.id)) (.bool false), .ok row⟩ :: deeds)
      (r.map (row :: ·), v) := by
  intro row
  let deed : Deed := .asked clock ⟨.userSetActive (.text (.plain u.id)) (.bool false), .ok row⟩
  have written : (deed :: deeds).filterMap Deed.deactivates? =
      u.id :: deeds.filterMap Deed.deactivates? := List.filterMap_cons_some rfl
  constructor
  · exact run.resting
  · rw [written]
    exact List.cons_prefix_cons.mpr ⟨rfl, run.begins⟩
  · rw [written, Tables.deactivated_cons]
    exact run.tables
  · intro rows returned
    cases r with
    | error e => cases returned
    | ok others =>
      obtain ⟨all, rfl⟩ := run.returns others rfl
      cases returned
      exact ⟨written.trans (congrArg _ all), rfl⟩
  · intro e failed
    cases r with
    | error f =>
      cases failed
      exact run.stops e rfl
    | ok others => cases failed

end Deactivates

namespace Desk

variable {d : Option (Deadline Binary64)} {us : List UserRow}

theorem deactivates_cons {excused : Failure → Prop} {u : UserRow} {t : Tables} (clock : Binary64)
    (others : Deactivates excused i us (t.modifyUser u.id fun u => { u with active := false })
      ((deactivateEach us).recount d i w).1 ((deactivateEach us).recount d i w).2) :
    let row : UserRow := { u with active := false }
    let rest := (deactivateEach us).bind fun rows => .done (.ok (row :: rows))
    Deactivates excused i (u :: us) t
      (.asked clock ⟨.userSetActive (.text (.plain u.id)) (.bool false), .ok row⟩ ::
        (rest.recount d i w).1) (rest.recount d i w).2 := by
  intro row rest
  rw [Plan.recount_bind]
  generalize (deactivateEach us).recount d i w = run at others ⊢
  obtain ⟨deeds, e | rows, v⟩ := run
  · exact .cons clock others
  · dsimp only
    rw [Plan.recount, List.append_nil]
    exact .cons clock others

theorem deactivateEach_deactivates (solitary : i.Solitary) (resting : w.Resting)
    (keyed : (us.map UserRow.id).Nodup) (stored : ∀ u ∈ us, w.tables.user? u.id = some u) :
    Deactivates (Deadline.Stops d) i us w.tables ((deactivateEach us).recount d i w).1
      ((deactivateEach us).recount d i w).2 := by
  induction us generalizing w with
  | nil =>
    exact ⟨resting, List.prefix_rfl, (Tables.deactivated_nil _).symm,
      fun rows returned => ⟨rfl, (Except.ok.inj returned).symm⟩, nofun⟩
  | cons u us ih =>
    obtain ⟨first, rest⟩ := List.forall_mem_cons.mp stored
    obtain ⟨new, keyed⟩ := List.nodup_cons.mp keyed
    let c : Call := .userSetActive (.text (.plain u.id)) (.bool false)
    let next (r : Except Failure UserRow) : Plan (List UserRow) :=
      (Plan.done r).bind fun row => (deactivateEach us).bind fun rows => .done (.ok (row :: rows))
    show Deactivates _ i _ _ ((Plan.check _ (.call c next)).recount d i w).1
      ((Plan.check _ (.call c next)).recount d i w).2
    have check := Plan.recount_check solitary d ("deactivating " ++ u.id) (.call c next) w
    generalize (Plan.check _ (.call c next)).recount d i w = run at check ⊢
    cases check with
    | stopped same idle late => exact .of_idle (same.resting resting) same.tables idle late
    | @passed r v same =>
      refine .cons_idle ?_ rfl
      have rests := same.resting resting
      rw [← same.tables] at first rest ⊢
      have call := Users.faces_setActive solitary rests first false
      rw [Plan.recount]
      dsimp only at call ⊢
      generalize c.act i v = outcome at call ⊢
      cases call with
      | failed resting kept loud =>
        refine .of_idle resting kept rfl fun quiet => ?_
        obtain ⟨f, wrong⟩ := loud quiet
        cases wrong
      | @answered a v' resting answer left =>
        cases answer
        -- Ids are distinct, so that those who are left are stored as they were read.
        have kept := Tables.user?_modifyUser_others rest new
          (f := fun u => { u with active := false }) fun _ same => same
        rw [← left] at kept
        have others := ih resting keyed kept
        rw [left] at others
        exact deactivates_cons v.clock others

variable {name : Text} {timeout : Option Number}

/-- What a deactivation may be stopped by without faults: its deadline, or a name that cannot be
written. -/
def Excused (name : Text) (timeout : Option Number) (e : Failure) : Prop :=
  Deadline.Overruns timeout e ∨ ∃ points, name = .broken points

theorem listed_text (t : Tables) (name : Text) :
    Users.listed t (.text name) = .ok (t.membersOf name) ∨ ∃ points, name = .broken points := by
  cases name with
  | plain name => exact .inl (Users.listed_of_column (Value.column_plain name))
  | broken points => exact .inr ⟨points, rfl⟩

/-- How the beginning of a deactivation can end: it is stopped, or it has read the members. -/
inductive Begun (name : Text) (timeout : Option Number) (d : Option (Deadline Binary64))
    (i : Interruption) (w : World) :
    List Deed × (Except Failure (List UserRow) × World) → Prop
  | stopped {deeds : List Deed} {e : Failure} {v : World} (resting : v.Resting)
      (kept : v.tables = w.tables) (idle : deeds.filterMap Deed.deactivates? = [])
      (excuse : i.Quiet → Excused name timeout e) : Begun name timeout d i w (deeds, .error e, v)
  | read {key : String} {r : Scenario.Reading} {clock : Binary64} {us : List UserRow} {v : World}
      (plain : name = .plain key) (members : us = w.tables.membersOf name) (resting : v.Resting)
      (kept : v.tables = w.tables) :
      Begun name timeout d i w
        (.looked r :: .asked clock ⟨.usersOfTeam (.text name), .ok us⟩ ::
          ((deactivateEach us).recount d i v).1, ((deactivateEach us).recount d i v).2)

theorem begun (solitary : i.Solitary) (resting : w.Resting)
    (within : ∀ e, Deadline.Stops d e → Deadline.Overruns timeout e) :
    Begun name timeout d i w ((deactivateTeamPlan (.text name)).recount d i w) := by
  let c : Call := .usersOfTeam (.text name)
  let next (r : Except Failure (List UserRow)) : Plan (List UserRow) :=
    (Plan.done r).bind deactivateEach
  show Begun _ _ _ i _ ((Plan.check _ (.call c next)).recount d i w)
  have check := Plan.recount_check solitary d "team members read" (.call c next) w
  generalize (Plan.check _ (.call c next)).recount d i w = run at check ⊢
  cases check with
  | stopped same idle late =>
    exact .stopped (same.resting resting) same.tables idle fun quiet => .inl (within _ (late quiet))
  | @passed r v same =>
    have call := Users.faces_ofTeam solitary (same.resting resting) (.text name)
    have listed := listed_text w.tables name
    rw [← same.tables] at listed
    rw [Plan.recount]
    dsimp only at call ⊢
    generalize c.act i v = outcome at call ⊢
    cases call with
    | failed resting kept loud =>
      refine .stopped resting (kept.trans same.tables) rfl fun quiet => ?_
      obtain ⟨f, wrong⟩ := loud quiet
      rcases listed with listed | broken
      · cases wrong.symm.trans listed
      · exact .inr broken
    | @answered us v' resting answer left =>
      cases name with
      | broken points => cases answer
      | plain key =>
        refine .read rfl ?_ resting (left.trans same.tables)
        rw [← same.tables]
        exact Except.ok.inj (answer.symm.trans (Users.listed_of_column (Value.column_plain key)))

theorem Begun.deactivates {run : List Deed × (Except Failure (List UserRow) × World)}
    (begun : Begun name timeout d i w run) (solitary : i.Solitary) (keyed : w.tables.Keyed)
    (within : ∀ e, Deadline.Stops d e → Deadline.Overruns timeout e) :
    Deactivates (Excused name timeout) i (w.tables.membersOf name) w.tables run.1 run.2 := by
  cases begun with
  | stopped resting kept idle excuse => exact .of_idle resting kept idle excuse
  | read plain members resting kept =>
    subst members
    have roster := Tables.isRoster_membersOf keyed name
    have distinct : ((w.tables.membersOf name).map UserRow.id).Nodup :=
      List.pairwise_map.mpr (roster.ascending.imp ne_of_lt)
    have each := deactivateEach_deactivates (d := d) solitary resting distinct fun u member => by
      rw [kept]
      exact (find?_key_eq_some_iff UserRow.id keyed.users).mpr ⟨((roster.mem u).mp member).1, rfl⟩
    rw [kept] at each
    exact ((each.mono fun e stops => .inl (within e stops)).cons_idle rfl).cons_idle rfl

/-- A deactivation of a team, under whatever faults: it has written the flags of the first members
and nothing else, and if it returns, of all of them. -/
theorem deactivateTeam_deactivates (solitary : i.Solitary) (resting : w.Resting)
    (keyed : w.tables.Keyed) (name : Text) (timeout : Option Number) :
    Deactivates (Excused name timeout) i (w.tables.membersOf name) w.tables
      ((deactivateTeam (.text name)).timeline timeout i w)
      ((deactivateTeam (.text name)).act timeout i w) := by
  obtain ⟨e, start, idle, fails⟩ | ⟨d, start, deeds, outcome⟩ :=
    Operation.run_cases (o := deactivateTeam (.text name)) rfl timeout i w
  · rw [idle, fails]
    exact .of_idle resting rfl rfl fun _ => .inl ⟨w.clock, .inl start⟩
  · rw [deeds, outcome]
    have within (e : Failure) (stops : Deadline.Stops d e) : Deadline.Overruns timeout e :=
      ⟨w.clock, .inr ⟨d, start, stops⟩⟩
    exact (begun solitary resting within).deactivates solitary keyed within

theorem plain_of_deactivateTeam (solitary : i.Solitary) (resting : w.Resting) {rows : List UserRow}
    (returned : ((deactivateTeam (.text name)).act timeout i w).1 = .ok rows) :
    ∃ key, name = .plain key := by
  obtain ⟨e, start, idle, fails⟩ | ⟨d, start, -, outcome⟩ :=
    Operation.run_cases (o := deactivateTeam (.text name)) rfl timeout i w
  · rw [fails] at returned
    cases returned
  · have begun : Begun name timeout d i w ((deactivateTeam (.text name)).plan.recount d i w) :=
      begun solitary resting fun e stops => ⟨w.clock, .inr ⟨d, start, stops⟩⟩
    rw [outcome] at returned
    generalize (deactivateTeam (.text name)).plan.recount d i w = run at begun returned
    cases begun with
    | stopped => cases returned
    | @read key => exact ⟨key, ‹_›⟩

/-! ### Repetitions -/

/-- Any number of runs with nobody else writing. Each of them may be stopped, and between them time
may pass and settings may change. -/
inductive Attempts (name : Text) (w : World) : World → Prop
  | start {v : World} (same : w.Matches v) : Attempts name w v
  | again {i : Interruption} {timeout : Option Number} {u v : World}
      (earlier : Attempts name w u) (solitary : i.Solitary)
      (same : ((deactivateTeam (.text name)).act timeout i u).2.Matches v) : Attempts name w v

namespace Attempts

variable {u v : World}

/-- However often it was tried, some members are inactive now and nothing else has changed. -/
theorem underway (attempts : Attempts name w v) (resting : w.Resting) (keyed : w.tables.Keyed) :
    v.Resting ∧ ∃ ids, ids ⊆ (w.tables.membersOf name).map UserRow.id ∧
      v.tables = w.tables.deactivated ids := by
  induction attempts with
  | start same =>
    refine ⟨same.resting resting, [], List.nil_subset _, ?_⟩
    rw [Tables.deactivated_nil, same.tables]
  | @again i timeout u v earlier solitary same ih =>
    obtain ⟨rests, ids, members, tables⟩ := ih
    have run := deactivateTeam_deactivates solitary rests (tables ▸ keyed.deactivated ids) name
      timeout
    let deeds := (deactivateTeam (.text name)).timeline timeout i u
    refine ⟨same.resting run.resting, ids ++ deeds.filterMap Deed.deactivates?, ?_, ?_⟩
    · have written := run.begins.subset
      rw [tables, Tables.map_id_membersOf_deactivated] at written
      exact List.append_subset.mpr ⟨members, written⟩
    · rw [same.tables, run.tables, tables, Tables.deactivated_deactivated]

/-- Whoever repeats it until it returns has deactivated every member. -/
theorem returns (attempts : Attempts name w v) (resting : w.Resting) (keyed : w.tables.Keyed)
    (solitary : i.Solitary) {rows : List UserRow}
    (run : (deactivateTeam (.text name)).act timeout i v = (.ok rows, u)) :
    u.Resting ∧
      u.tables = w.tables.deactivated ((w.tables.membersOf name).map UserRow.id) ∧
      rows = (w.tables.membersOf name).map fun r => { r with active := false } := by
  obtain ⟨rests, ids, members, tables⟩ := attempts.underway resting keyed
  have last := deactivateTeam_deactivates solitary rests (tables ▸ keyed.deactivated ids) name
    timeout
  rw [run] at last
  obtain ⟨all, same⟩ := last.returns rows rfl
  -- What was written before was written to members, all of whom the last run has written.
  have left := last.tables
  rw [all, tables, Tables.map_id_membersOf_deactivated, Tables.deactivated_deactivated] at left
  refine ⟨last.resting, left.trans (Tables.deactivated_congr fun id => ?_), ?_⟩
  · rw [List.mem_append, or_iff_right_of_imp fun member => members member]
  · rw [same, tables, Tables.membersOf_deactivated, List.map_map]
    exact List.map_congr_left fun r _ => UserRow.inactive_deactivated r ids

theorem completes (attempts : Attempts name w v) (resting : w.Resting) (keyed : w.tables.Keyed)
    (quiet : i.Quiet) (plain : ∃ key, name = .plain key) :
    ∃ rows u, (deactivateTeam (.text name)).act none i v = (.ok rows, u) := by
  obtain ⟨rests, ids, -, tables⟩ := attempts.underway resting keyed
  have run := deactivateTeam_deactivates quiet.solitary rests (tables ▸ keyed.deactivated ids) name
    none
  generalize (deactivateTeam (.text name)).act none i v = outcome at run
  obtain ⟨e | rows, u⟩ := outcome
  · obtain ⟨key, rfl⟩ := plain
    rcases run.stops e rfl quiet with overruns | ⟨points, broken⟩
    · exact absurd overruns Deadline.not_overruns_none
    · cases broken
  · exact ⟨rows, u, rfl⟩

end Attempts

/-- The team is deactivated: further runs change nothing, and those that return, as those do that
nothing stops, return the same rows. -/
structure Settled (name : Text) (rows : List UserRow) (u : World) : Prop where
  kept : ∀ i timeout, i.Solitary →
    ((deactivateTeam (.text name)).act timeout i u).2.tables = u.tables
  repeats : ∀ i timeout rows', i.Solitary →
    ((deactivateTeam (.text name)).act timeout i u).1 = .ok rows' → rows' = rows
  completes : ∀ i, i.Quiet → ((deactivateTeam (.text name)).act none i u).1 = .ok rows

theorem Attempts.settled {u v : World} (attempts : Attempts name w v) (resting : w.Resting)
    (keyed : w.tables.Keyed) (solitary : i.Solitary) {rows : List UserRow}
    (run : (deactivateTeam (.text name)).act timeout i v = (.ok rows, u)) :
    Settled name rows u := by
  obtain ⟨rests, tables, same⟩ := attempts.returns resting keyed solitary run
  have further : Attempts name w u := attempts.again solitary (by rw [run]; exact .refl u)
  have repeats (i : Interruption) (timeout : Option Number) (rows' : List UserRow)
      (solitary : i.Solitary)
      (returned : ((deactivateTeam (.text name)).act timeout i u).1 = .ok rows') :
      rows' = rows := by
    generalize again : (deactivateTeam (.text name)).act timeout i u = outcome at returned
    obtain ⟨r, u'⟩ := outcome
    cases returned
    exact (further.returns resting keyed solitary again).2.2.trans same.symm
  refine ⟨fun i timeout solitary => ?_, repeats, fun i quiet => ?_⟩
  · have again := deactivateTeam_deactivates solitary rests (tables ▸ keyed.deactivated _) name
      timeout
    have written := again.begins.subset
    rw [tables, Tables.map_id_membersOf_deactivated] at written
    rw [again.tables, tables, Tables.deactivated_deactivated]
    refine Tables.deactivated_congr fun id => ?_
    rw [List.mem_append, or_iff_left_of_imp fun member => written member]
  · have plain : ∃ key, name = .plain key :=
      plain_of_deactivateTeam solitary (attempts.underway resting keyed).1 (congrArg Prod.fst run)
    obtain ⟨rows', u', again⟩ := further.completes resting keyed quiet plain
    rw [again, repeats i none rows' quiet.solitary (congrArg Prod.fst again)]

/-- Whatever has gone before: a deactivation that is stopped has written the flags of the first
members of the roster and nothing else. Repeated until it returns it leaves the tables, and answers
with the rows, that it would have left and answered with at once, and from then on it changes
nothing. -/
theorem deactivateTeam_converges (db : Interleaving.Database) (now : Timestamp)
    (moves : List Interleaving.Move) (name : Text) :
    let w := ((Interleaving.State.start db now).run moves).world
    let o := deactivateTeam (.text name)
    ∃ roster, w.tables.IsRoster name roster ∧
      (∀ i timeout, i.Solitary → Deactivates (Excused name timeout) i roster w.tables
        (o.timeline timeout i w) (o.act timeout i w)) ∧
      ∀ v, Attempts name w v → ∀ i timeout rows u, i.Solitary →
        o.act timeout i v = (.ok rows, u) →
          (∀ row ∈ rows, u.tables.user? row.id = some row) ∧
          (∃ whole, o.act none .none w = (.ok rows, whole) ∧ whole.tables = u.tables) ∧
          Settled name rows u := by
  intro w o
  have consistent : Interleaving.State.Consistent _ :=
    (Interleaving.State.consistent_start db now).run moves
  obtain ⟨resting, keyed⟩ : w.Resting ∧ w.tables.Keyed := ⟨consistent.resting, consistent.keyed⟩
  have roster := Tables.isRoster_membersOf keyed name
  refine ⟨w.tables.membersOf name, roster, fun i timeout solitary =>
    deactivateTeam_deactivates solitary resting keyed name timeout, ?_⟩
  intro v attempts i timeout rows u solitary run
  obtain ⟨-, tables, same⟩ := attempts.returns resting keyed solitary run
  refine ⟨?_, ?_, attempts.settled resting keyed solitary run⟩
  · rintro row member
    rw [same] at member
    obtain ⟨r, listed, rfl⟩ := List.mem_map.mp member
    have stored : r ∈ w.tables.users := ((roster.mem r).mp listed).1
    rw [tables]
    exact Tables.user?_deactivated (u := r) keyed stored (List.mem_map_of_mem listed)
  · have plain : ∃ key, name = .plain key :=
      plain_of_deactivateTeam solitary (attempts.underway resting keyed).1 (congrArg Prod.fst run)
    have start : Attempts name w w := .start (.refl w)
    obtain ⟨rows', whole, undisturbed⟩ :=
      start.completes resting keyed Interruption.quiet_none plain
    obtain ⟨-, tables', same'⟩ :=
      start.returns resting keyed Interruption.quiet_none.solitary undisturbed
    exact ⟨whole, by rw [same, ← same']; exact undisturbed, tables'.trans tables.symm⟩

/-- The connection is lost before the second member is written. -/
def lostAtSecond : List Scenario.Interjection :=
  [⟨.port .userSetActive, 2, .before, [],
    some (.database ⟨.operational, "connection lost", [], []⟩)⟩]

theorem lostAtSecond_solitary : (Scenario.interruption lostAtSecond).Solitary :=
  Scenario.solitary_interruption (by decide) (by simp [lostAtSecond])

theorem answers_lostAtSecond :
    let w := ((Interleaving.State.start trio default).run []).world
    let o := deactivateTeam (.text "core")
    let outcome := o.act none (Scenario.interruption lostAtSecond) w
    (outcome.1.isOk, (o.timeline none (Scenario.interruption lostAtSecond) w).filterMap
      Deed.deactivates?, (o.act none .none outcome.2).1.isOk) = (false, ["u1"], true) := by
  cbv

/-- The first run is stopped behind the first of three members, and the second one returns. -/
theorem deactivateTeam_converges_trio :
    let w := ((Interleaving.State.start trio default).run []).world
    let o := deactivateTeam (.text "core")
    ∃ e v rows u, o.act none (Scenario.interruption lostAtSecond) w = (.error e, v) ∧
      v.tables = w.tables.deactivated ["u1"] ∧ o.act none .none v = (.ok rows, u) ∧
      (∃ whole, o.act none .none w = (.ok rows, whole) ∧ whole.tables = u.tables) ∧
      Settled "core" rows u := by
  intro w o
  have answers := answers_lostAtSecond
  simp only [Prod.mk.injEq] at answers
  obtain ⟨fails, written, retried⟩ := answers
  obtain ⟨roster, -, stops, converges⟩ := deactivateTeam_converges trio default [] "core"
  have stopped := (stops _ none lostAtSecond_solitary).tables
  rw [written] at stopped
  have attempts : Attempts "core" w (o.act none (Scenario.interruption lostAtSecond) w).2 :=
    .again (.start (.refl w)) lostAtSecond_solitary (.refl _)
  generalize run : o.act none (Scenario.interruption lostAtSecond) w = outcome
    at fails stopped retried attempts
  obtain ⟨e | _, v⟩ := outcome
  · generalize again : o.act none .none v = outcome at retried
    obtain ⟨_ | rows, u⟩ := outcome
    · cases retried
    · have quiet := Interruption.quiet_none.solitary
      exact ⟨e, v, rows, u, rfl, stopped, again, (converges v attempts _ _ rows u quiet again).2⟩
  · cases fails

end Desk

end ReviewRota
