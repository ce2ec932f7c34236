import ReviewRota.Roster
import Mathlib.Data.List.Nodup

/-!
# Who is chosen

The next reviewer is an eligible member of the roster. Filled places therefore hold distinct
members, and never the author.
-/

namespace ReviewRota.Roster

variable {members : List Member} {author replaced : Option String} {assigned : List String}

theorem mem_ordered {m : Member} : m ∈ ordered members ↔ m ∈ members := List.mem_mergeSort

theorem eligible_of_next {id : String} (h : next members author assigned replaced = some id) :
    ∃ m ∈ members, Eligible m author assigned replaced ∧ m.id = id := by
  obtain ⟨m, found, rfl⟩ := Option.map_eq_some_iff.mp h
  have eligible := List.find?_some found
  exact ⟨m, mem_ordered.mp (List.mem_of_find?_eq_some found), of_decide_eq_true eligible, rfl⟩

theorem mem_fill {places : Nat} {id : String} (member : id ∈ fill members author places assigned) :
    id ∈ assigned ∨ ∃ m ∈ members, m.id = id := by
  induction places generalizing assigned with
  | zero => exact .inl member
  | succ places ih =>
    unfold fill at member
    split at member
    · exact .inl member
    · rename_i chosen found
      rcases ih member with before | listed
      · rcases List.mem_append.mp before with old | new
        · exact .inl old
        · obtain ⟨m, listed, -, rfl⟩ := eligible_of_next found
          exact .inr ⟨m, listed, (List.mem_singleton.mp new).symm⟩
      · exact .inr listed

theorem mem_pick {limit : Int} {id : String} (member : id ∈ pick members author limit) :
    ∃ m ∈ members, m.id = id := by
  rcases mem_fill member with before | listed
  · cases before
  · exact listed

/-- Places that hold distinct members, none of them the author. -/
structure Taken (author : Option String) (ids : List String) : Prop where
  distinct : ids.Nodup
  foreign : ∀ id ∈ ids, some id ≠ author

theorem Taken.concat {id : String} (taken : Taken author assigned)
    (h : next members author assigned replaced = some id) : Taken author (assigned ++ [id]) := by
  obtain ⟨m, -, ⟨-, foreign, -, free⟩, rfl⟩ := eligible_of_next h
  constructor
  · exact List.nodup_append.mpr ⟨taken.distinct, List.nodup_singleton _, by
      intro a member b same
      obtain rfl := List.mem_singleton.mp same
      exact fun equal => free (equal ▸ member)⟩
  · intro id member
    rcases List.mem_append.mp member with old | new
    · exact taken.foreign id old
    · obtain rfl := List.mem_singleton.mp new
      exact foreign

theorem taken_fill {places : Nat} {ids : List String} (taken : Taken author ids) :
    Taken author (fill members author places ids) := by
  induction places generalizing ids with
  | zero => exact taken
  | succ places ih =>
    unfold fill
    split
    · exact taken
    · rename_i chosen
      exact ih (taken.concat chosen)

theorem taken_pick (members : List Member) (author : Option String) (limit : Int) :
    Taken author (pick members author limit) :=
  taken_fill ⟨.nil, fun _ member => absurd member List.not_mem_nil⟩

end ReviewRota.Roster
