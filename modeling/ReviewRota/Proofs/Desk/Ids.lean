import ReviewRota.Desk.Command
import ReviewRota.Proofs.Store.Keeping

/-!
# Texts as ids

Callers may hand in any value as an id, but the ids of users, teams and pull requests are meant to
be texts. A text names exactly what is stored under it, and texts can always be put in order.
-/

namespace ReviewRota

def Value.IsText (v : Value) : Prop := ∃ t, v = .text t

theorem Value.IsText.string?_of_column {v : Value} (text : v.IsText) {s : String}
    (column : v.column = .ok (some s)) : v.string? = some s := by
  obtain ⟨t, rfl⟩ := text
  cases t with
  | plain s' =>
    cases column
    rfl
  | broken ps => cases column

/-! ### Sorting -/

namespace Value

section

variable {α : Type} {before : α → α → Except Failure Bool} {P : α → Prop}
  (total : ∀ x y, P x → P y → ∃ b, before x y = .ok b)
include total

theorem exists_runLength (descending : Bool) {x : α} {xs : List α} (first : P x)
    (all : ∀ y ∈ xs, P y) : ∃ n, runLength before descending x xs = .ok n := by
  induction xs generalizing x with
  | nil => exact ⟨0, rfl⟩
  | cons y ys ih =>
    have next : P y := all y List.mem_cons_self
    obtain ⟨b, compared⟩ := total y x next first
    obtain ⟨n, counted⟩ := ih next fun z member => all z (List.mem_cons_of_mem _ member)
    by_cases same : b = descending
    · exact ⟨n + 1, by simp [runLength, compared, counted, same, bind, Except.bind, pure,
        Except.pure]⟩
    · exact ⟨0, by simp [runLength, compared, same, bind, Except.bind, pure, Except.pure]⟩

theorem exists_placeFor {x : α} {sorted : List α} (item : P x) (all : ∀ y ∈ sorted, P y)
    (rounds low high : Nat) : ∃ n, placeFor before x sorted rounds low high = .ok n := by
  induction rounds generalizing low high with
  | zero => exact ⟨low, rfl⟩
  | succ rounds ih =>
    unfold placeFor
    split
    · dsimp only
      split
      · exact ⟨low, rfl⟩
      · rename_i y found
        obtain ⟨b, compared⟩ := total x y item (all y (List.mem_of_getElem? found))
        rw [compared]
        cases b with
        | false => exact ih _ _
        | true => exact ih _ _
    · exact ⟨low, rfl⟩

theorem exists_insertAll {sorted xs : List α} (ordered : ∀ y ∈ sorted, P y)
    (all : ∀ x ∈ xs, P x) : ∃ ys, insertAll before sorted xs = .ok ys := by
  induction xs generalizing sorted with
  | nil => exact ⟨sorted, rfl⟩
  | cons x xs ih =>
    have item : P x := all x List.mem_cons_self
    obtain ⟨n, placed⟩ := exists_placeFor total item ordered sorted.length 0 sorted.length
    have longer : ∀ y ∈ sorted.take n ++ x :: sorted.drop n, P y := by
      intro y member
      rcases List.mem_append.mp member with front | rest
      · exact ordered y (List.mem_of_mem_take front)
      · rcases List.mem_cons.mp rest with rfl | back
        · exact item
        · exact ordered y (List.mem_of_mem_drop back)
    obtain ⟨ys, inserted⟩ := ih longer fun z member => all z (List.mem_cons_of_mem _ member)
    exact ⟨ys, by simp [insertAll, placed, inserted, bind, Except.bind]⟩

/-- Items that can be compared two by two can be sorted. -/
theorem exists_sortBy {xs : List α} (all : ∀ x ∈ xs, P x) : ∃ ys, sortBy before xs = .ok ys := by
  match xs with
  | [] => exact ⟨[], rfl⟩
  | [x] => exact ⟨[x], rfl⟩
  | x :: y :: rest =>
    have second : P y := all y (by simp)
    obtain ⟨b, compared⟩ := total y x second (all x (by simp))
    have others : ∀ z ∈ rest, P z := fun z member => all z (by simp [member])
    obtain ⟨n, counted⟩ := exists_runLength total b second others
    have run : ∀ z ∈ (x :: y :: rest).take (n + 2), P z := fun z member =>
      all z (List.mem_of_mem_take member)
    have turned : ∀ z ∈ (if b then ((x :: y :: rest).take (n + 2)).reverse
        else (x :: y :: rest).take (n + 2)), P z := by
      intro z member
      split at member
      · exact run z (List.mem_reverse.mp member)
      · exact run z member
    obtain ⟨ys, inserted⟩ := exists_insertAll total turned
      fun z member => all z (List.mem_of_mem_drop member)
    refine ⟨ys, ?_⟩
    unfold sortBy
    simp only [compared, counted, bind, Except.bind]
    exact inserted

end

end Value

theorem MemberDraft.exists_ordered {ms : List MemberDraft} (texts : ∀ m ∈ ms, m.id.IsText) :
    ∃ sorted, ordered ms = .ok sorted := by
  unfold ordered
  split
  · exact ⟨_, rfl⟩
  · refine Value.exists_sortBy (P := fun m => m.id.IsText) ?_ texts
    rintro a b ⟨s, first⟩ ⟨t, second⟩
    rw [first, second]
    exact ⟨s.lt t, rfl⟩

namespace Desk

theorem MemberEntry.id_of_draft {entry : MemberEntry} {m : MemberDraft}
    (drafted : entry.draft = .ok m) : entry.id = some m.id := by
  obtain ⟨id, given, rest⟩ := bind_eq_ok_iff.mp drafted
  obtain ⟨username, -, rest⟩ := bind_eq_ok_iff.mp rest
  obtain ⟨active, -, rest⟩ := bind_eq_ok_iff.mp rest
  cases rest
  cases present : entry.id with
  | none =>
    rw [present] at given
    cases given
  | some v =>
    rw [present] at given
    cases given
    rfl

theorem MemberEntry.exists_entry {entries : List MemberEntry} {ms : List MemberDraft}
    (drafted : entries.mapM draft = .ok ms) {m : MemberDraft} (member : m ∈ ms) :
    ∃ entry ∈ entries, entry.id = some m.id := by
  induction entries generalizing ms with
  | nil =>
    cases drafted
    cases member
  | cons entry entries ih =>
    rw [List.mapM_cons] at drafted
    obtain ⟨first, one, rest⟩ := bind_eq_ok_iff.mp drafted
    obtain ⟨others, many, rest⟩ := bind_eq_ok_iff.mp rest
    cases rest
    rcases List.mem_cons.mp member with rfl | later
    · exact ⟨entry, List.mem_cons_self, id_of_draft one⟩
    · obtain ⟨found, present, same⟩ := ih many later
      exact ⟨found, List.mem_cons_of_mem _ present, same⟩

namespace Command

/-- The ids and names by which a command refers to users, teams and pull requests. -/
def ids : Command → List Value
  | createTeam name entries => name :: entries.filterMap MemberEntry.id
  | getTeam name | deactivateTeam name => [name]
  | setUserActive id _ | reviewAssignments id | merge id => [id]
  | createPullRequest id _ author => [id, author]
  | reassign id old => [id, old]
  | overview => []

/-- Members to be stored can be put in order of their ids. Nothing else is asked of a command. -/
def Orderable : Command → Prop
  | createTeam _ entries => ∀ ms, entries.mapM MemberEntry.draft = .ok ms →
      ∃ sorted, MemberDraft.ordered ms = .ok sorted
  | _ => True

theorem orderable_of_texts {command : Command} (texts : ∀ v ∈ command.ids, v.IsText) :
    command.Orderable := by
  cases command with
  | createTeam name entries =>
    intro ms drafted
    refine MemberDraft.exists_ordered fun m member => ?_
    obtain ⟨entry, present, named⟩ := MemberEntry.exists_entry drafted member
    refine texts m.id (List.mem_cons_of_mem _ ?_)
    exact List.mem_filterMap.mpr ⟨entry, present, named⟩
  | _ => trivial

end Command

end Desk

end ReviewRota
