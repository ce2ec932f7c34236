import ReviewRota.Desk.Teams
import ReviewRota.Proofs.Desk.Ensuring

/-!
# Deactivations from end to end

A deactivation reads the members of a team and sets their flags one after the other. It may stop
anywhere, and what was set stays; one that has returned has set them all.
-/

namespace ReviewRota

namespace Tables

variable {t : Tables} {u : UserRow}

/-- The tables after the users of these ids were deactivated. -/
def deactivated (t : Tables) (ids : List String) : Tables :=
  { t with users := t.users.map fun u => if u.id ∈ ids then { u with active := false } else u }

@[simp] theorem deactivated_nil (t : Tables) : t.deactivated [] = t := by
  simp [deactivated]

theorem deactivated_cons (t : Tables) (id : String) (ids : List String) :
    t.deactivated (id :: ids) =
      (t.modifyUser id fun u => { u with active := false }).deactivated ids := by
  simp only [deactivated, modifyUser, List.map_map]
  congr 1
  apply List.map_congr_left
  intro u _
  by_cases first : u.id = id <;> simp [first]

theorem mem_deactivated {ids : List String} : u ∈ (t.deactivated ids).users ↔
    ∃ v ∈ t.users, u = { v with active := v.active && decide (v.id ∉ ids) } := by
  simp only [deactivated, List.mem_map]
  constructor
  · rintro ⟨v, stored, rfl⟩
    refine ⟨v, stored, ?_⟩
    by_cases among : v.id ∈ ids <;> simp [among]
  · rintro ⟨v, stored, rfl⟩
    refine ⟨v, stored, ?_⟩
    by_cases among : v.id ∈ ids <;> simp [among]

end Tables

namespace Desk

variable {w : World} {d : Option (Deadline Binary64)} {name : Value} {key : String}

/-- Users are deactivated one after the other, up to the last one or until the deadline stops it. -/
theorem deactivateEach_ensures (us : List UserRow) (resting : w.Resting)
    (stored : ∀ u ∈ us, w.tables.HasUser u.id) :
    (deactivateEach us).Ensures d w fun r t =>
      (∃ rows, r = .ok rows ∧ t = w.tables.deactivated (us.map UserRow.id)) ∨
        ∃ e, r = .error e ∧ Deadline.Stops d e := by
  induction us generalizing w with
  | nil => exact .done (.inl ⟨[], rfl, (Tables.deactivated_nil _).symm⟩)
  | cons u us ih =>
    obtain ⟨first, rest⟩ := List.forall_mem_cons.mp stored
    obtain ⟨row, found⟩ := first.exists_user?
    obtain ⟨-, same⟩ := Tables.user?_mem found
    rw [← same] at found
    let t := w.tables.modifyUser row.id fun u => { u with active := false }
    have linked : t.Linked := resting.linked.modifyUser (fun _ => rfl) fun _ => rfl
    have kept (v : UserRow) (member : v ∈ us) : t.HasUser v.id :=
      (Tables.hasUser_modifyUser (f := fun u => { u with active := false })
        fun _ same => same).mpr (rest v member)
    refine .check (fun e stops => .inr ⟨e, rfl, stops⟩) (.call_ends
      (r := .ok { row with active := false }) (t := t) (fun j c => ?_) ?_)
    · exact Users.setActive_ends (w := { w with journal := j, clock := c }) resting.unspoiled
        (fun _ => resting.linked) (same ▸ rfl) (Users.flag_bool false) found
    · refine Plan.Ensures.bind (p := deactivateEach us) ((ih (w := { w with tables := t })
        ⟨resting.depth, resting.unspoiled, linked⟩ kept).mono ?_)
      rintro _ v (⟨rows, rfl, rfl⟩ | ⟨e, rfl, stops⟩)
      · refine Plan.Ensures.done (.inl ⟨_, rfl, ?_⟩)
        rw [List.map_cons, ← same, Tables.deactivated_cons]
      · exact .inr ⟨e, rfl, stops⟩

theorem deactivateTeam_ensures (resting : w.Resting) (column : name.column = .ok (some key))
    (timeout : Option Number) : ((deactivateTeam name).act timeout).Ensures w fun r t =>
      (∃ rows, r = .ok rows ∧
        t = w.tables.deactivated ((w.tables.usersOf (some key)).map UserRow.id)) ∨
      ∃ e, r = .error e ∧ Deadline.Overruns timeout e := by
  refine Operation.ensures_steps rfl (fun e overruns => .inr ⟨e, rfl, overruns⟩) fun d within => ?_
  show (deactivateTeamPlan name).Ensures d w _
  refine .check (fun e stops => .inr ⟨e, rfl, within e stops⟩) (.usersOfTeam resting.unspoiled ?_)
  rw [Users.listed_of_column column]
  refine (deactivateEach_ensures _ resting fun u member =>
    ⟨u, (Tables.mem_usersOf.mp member).1, rfl⟩).mono ?_
  rintro r t (returned | ⟨e, failed, stops⟩)
  · exact .inl returned
  · exact .inr ⟨e, failed, within e stops⟩

end Desk

end ReviewRota
