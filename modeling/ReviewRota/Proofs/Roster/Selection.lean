import ReviewRota.Proofs.Roster
import ReviewRota.Proofs.Sorting
import ReviewRota.Text.Basic
import Mathlib.Data.List.Dedup
import Mathlib.Data.List.Sort
import Mathlib.Data.String.Basic
import Mathlib.Order.Bounds.Basic
import Mathlib.Order.Bounds.Image

/-!
# The choice in one pass

The next reviewer has the least id among the eligible members. Since every round excludes what the
rounds before it took, filling the places reads off a prefix of one list: the ids of the candidates,
sorted, each of them once. That list depends on the roster only through who is in it.
-/

namespace ReviewRota.Roster

variable {members others : List Member} {author replaced : Option String} {assigned : List String}

theorem pairwise_ordered (members : List Member) :
    (ordered members).Pairwise (fun a b => a.id ≤ b.id) :=
  pairwise_le_mergeSort Member.id (fun _ _ => decide_eq_true_iff) members

/-- The ids that may be taken. -/
def Choosable (members : List Member) (author : Option String) (assigned : List String)
    (replaced : Option String) : Set String :=
  {id | ∃ m ∈ members, Eligible m author assigned replaced ∧ m.id = id}

theorem mem_choosable {id : String} : id ∈ Choosable members author assigned replaced ↔
    ∃ m ∈ members, Eligible m author assigned replaced ∧ m.id = id := Iff.rfl

theorem next_eq_none_iff : next members author assigned replaced = none ↔
    ∀ id, id ∉ Choosable members author assigned replaced := by
  unfold next
  rw [Option.map_eq_none_iff, List.find?_eq_none]
  constructor
  · rintro none id ⟨m, member, eligible, -⟩
    exact none m (mem_ordered.mpr member) (decide_eq_true eligible)
  · intro none m member eligible
    exact none m.id ⟨m, mem_ordered.mp member, of_decide_eq_true eligible, rfl⟩

theorem isLeast_of_next {id : String} (h : next members author assigned replaced = some id) :
    IsLeast (Choosable members author assigned replaced) id := by
  constructor
  · exact eligible_of_next h
  · rintro _ ⟨other, member, eligible, rfl⟩
    obtain ⟨m, found, rfl⟩ := Option.map_eq_some_iff.mp h
    obtain ⟨-, before, after, split, passed⟩ := List.find?_eq_some_iff_append.mp found
    have sorted := pairwise_ordered members
    have listed := mem_ordered.mpr member
    rw [split] at sorted listed
    rcases List.mem_append.mp listed with early | late
    · have ineligible := passed other early
      simp [eligible] at ineligible
    · rcases List.mem_cons.mp late with rfl | behind
      · exact le_rfl
      · have tail := (List.pairwise_append.mp sorted).2.1
        exact (List.pairwise_cons.mp tail).1 other behind

theorem next_eq_some_iff {id : String} : next members author assigned replaced = some id ↔
    IsLeast (Choosable members author assigned replaced) id := by
  constructor
  · exact isLeast_of_next
  · intro least
    cases h : next members author assigned replaced with
    | none => exact absurd least.1 (next_eq_none_iff.mp h id)
    | some chosen => rw [(isLeast_of_next h).unique least]

theorem next_congr {taken : List String} (same : Choosable members author assigned replaced =
      Choosable others author taken replaced) :
    next members author assigned replaced = next others author taken replaced := by
  cases h : next members author assigned replaced with
  | none => exact (next_eq_none_iff.mpr (same ▸ next_eq_none_iff.mp h)).symm
  | some id => exact (next_eq_some_iff.mpr (same ▸ next_eq_some_iff.mp h)).symm

theorem choosable_congr {taken : List String} (sameMembers : ∀ m, m ∈ members ↔ m ∈ others)
    (sameIds : ∀ id, id ∈ assigned ↔ id ∈ taken) :
    Choosable members author assigned replaced = Choosable others author taken replaced := by
  ext id
  simp only [mem_choosable, Eligible, sameMembers, sameIds]

theorem strictMono_points : StrictMono fun s : String => (Text.plain s).points := by
  intro s t before
  have each (c d : Char) (less : c < d) : c.toNat < d.toNat := less
  exact List.map_lt each (String.lt_iff_toList_lt.mp before)

/-- The least of the ids that may be taken has the least code points. -/
theorem isLeast_points_iff {id : String} :
    IsLeast {points | ∃ m ∈ members, Eligible m author assigned replaced ∧
      (Text.plain m.id).points = points} (Text.plain id).points ↔
    IsLeast (Choosable members author assigned replaced) id := by
  have image : {points | ∃ m ∈ members, Eligible m author assigned replaced ∧
      (Text.plain m.id).points = points} =
      (fun s : String => (Text.plain s).points) ''
        Choosable members author assigned replaced := by
    ext points
    constructor
    · rintro ⟨m, member, eligible, rfl⟩
      exact ⟨m.id, ⟨m, member, eligible, rfl⟩, rfl⟩
    · rintro ⟨_, ⟨m, member, eligible, rfl⟩, rfl⟩
      exact ⟨m, member, eligible, rfl⟩
  rw [image]
  exact strictMono_points.map_isLeast

/-- There is no choice exactly if nobody may be chosen, and otherwise it is the id with the least
code points among the members who are active and neither the author nor the one to be replaced nor
assigned. The order of the roster does not matter, and of the assigned ones neither the order nor
how often they are listed. -/
theorem next_isLeast (members : List Member) (author : Option String) (assigned : List String)
    (replaced : Option String) :
    (next members author assigned replaced = none ↔
      ¬∃ m ∈ members, m.active = true ∧ some m.id ≠ author ∧ some m.id ≠ replaced ∧
        m.id ∉ assigned) ∧
    (∀ id, next members author assigned replaced = some id ↔
      IsLeast {points | ∃ m ∈ members, (m.active = true ∧ some m.id ≠ author ∧
        some m.id ≠ replaced ∧ m.id ∉ assigned) ∧ (Text.plain m.id).points = points}
        (Text.plain id).points) ∧
    ∀ others taken, members.Perm others → (∀ id, id ∈ taken ↔ id ∈ assigned) →
      next others author taken replaced = next members author assigned replaced := by
  refine ⟨?_, fun id => ?_, fun others taken perm same => ?_⟩
  · rw [next_eq_none_iff]
    constructor
    · rintro nobody ⟨m, member, eligible⟩
      exact nobody m.id ⟨m, member, eligible, rfl⟩
    · rintro nobody id ⟨m, member, eligible, -⟩
      exact nobody ⟨m, member, eligible⟩
  · rw [next_eq_some_iff]
    exact isLeast_points_iff.symm
  · exact next_congr (choosable_congr (fun m => perm.symm.mem_iff) same)

/-- Ids are no numbers: ten comes before two. The inactive row of an id hides nothing. -/
example : next [⟨"u2", "", true⟩, ⟨"u10", "", false⟩, ⟨"u10", "", true⟩] (some "u1") [] none =
    some "u10" := by cbv

/-! ## The candidates -/

/-- The ids of the active members other than the author, in ascending order, each of them once. -/
def candidates (members : List Member) (author : Option String) : List String :=
  (((members.filter (fun m => decide (m.active = true ∧ some m.id ≠ author))).map
    Member.id).mergeSort (fun a b => decide (a ≤ b))).dedup

theorem mem_candidates {id : String} : id ∈ candidates members author ↔
    ∃ m ∈ members, (m.active = true ∧ some m.id ≠ author) ∧ m.id = id := by
  simp only [candidates, List.mem_dedup, List.mem_mergeSort, List.mem_map, List.mem_filter,
    decide_eq_true_eq, and_assoc]

theorem ascending_candidates (members : List Member) (author : Option String) :
    (candidates members author).Pairwise (· < ·) := by
  have ordered := (pairwise_le_mergeSort id (fun _ _ => decide_eq_true_iff)
    ((members.filter fun m => decide (m.active = true ∧ some m.id ≠ author)).map
      Member.id)).sublist (List.dedup_sublist _)
  exact (ordered.and (List.nodup_dedup _)).imp fun both => lt_of_le_of_ne both.1 both.2

/-- An id with an inactive row stays a candidate through its active one. -/
example : candidates [⟨"b", "", true⟩, ⟨"a", "", true⟩, ⟨"b", "", false⟩] none = ["a", "b"] := by
  cbv

theorem candidates_congr (same : ∀ m, m ∈ members ↔ m ∈ others) :
    candidates members author = candidates others author := by
  apply (ascending_candidates members author).eq_of_mem_iff (ascending_candidates others author)
  intro id
  simp only [mem_candidates, same]

/-- Nobody is replaced while the places are filled: what may be taken next are the candidates that
have not been taken. -/
theorem mem_choosable_filling {id : String} :
    id ∈ Choosable members author assigned none ↔
      id ∈ candidates members author ∧ id ∉ assigned := by
  rw [mem_candidates]
  constructor
  · rintro ⟨m, member, ⟨active, foreign, -, free⟩, rfl⟩
    exact ⟨⟨m, member, ⟨active, foreign⟩, rfl⟩, free⟩
  · rintro ⟨⟨m, member, ⟨active, foreign⟩, rfl⟩, free⟩
    exact ⟨m, member, ⟨active, foreign, Option.some_ne_none _, free⟩, rfl⟩

/-- Once a prefix of the candidates is taken, the next one is the candidate behind it. -/
theorem next_take (members : List Member) (author : Option String) (k : Nat) :
    next members author ((candidates members author).take k) none =
      (candidates members author)[k]? := by
  have ascending := ascending_candidates members author
  cases h : (candidates members author)[k]? with
  | none =>
    rw [next_eq_none_iff]
    intro id chosen
    rw [mem_choosable_filling, List.take_of_length_le (List.getElem?_eq_none_iff.mp h)] at chosen
    exact chosen.2 chosen.1
  | some id =>
    rw [next_eq_some_iff]
    obtain ⟨bound, rfl⟩ := List.getElem?_eq_some_iff.mp h
    have earlier := List.pairwise_iff_getElem.mp ascending
    constructor
    · rw [mem_choosable_filling]
      constructor
      · exact List.getElem_mem bound
      · intro taken
        obtain ⟨j, early, same⟩ := List.mem_take_iff_getElem.mp taken
        exact (earlier j k (by omega) bound (by omega)).ne same
    · intro other chosen
      rw [mem_choosable_filling] at chosen
      obtain ⟨j, inside, rfl⟩ := List.getElem_of_mem chosen.1
      have behind : k ≤ j := by
        by_contra early
        exact chosen.2 (List.mem_take_iff_getElem.mpr ⟨j, by omega, rfl⟩)
      rcases Nat.eq_or_lt_of_le behind with rfl | later
      · exact le_rfl
      · exact (earlier k j bound inside later).le

theorem fill_take (members : List Member) (author : Option String) (places k : Nat) :
    fill members author places ((candidates members author).take k) =
      (candidates members author).take (k + places) := by
  induction places generalizing k with
  | zero => simp only [fill, Nat.add_zero]
  | succ places ih =>
    simp only [fill, next_take]
    cases h : (candidates members author)[k]? with
    | none =>
      have short := List.getElem?_eq_none_iff.mp h
      rw [List.take_of_length_le short, List.take_of_length_le (by omega)]
    | some id =>
      have longer : (candidates members author).take k ++ [id] =
          (candidates members author).take (k + 1) := by
        rw [List.take_add_one, h, Option.toList_some]
      simp only [longer, ih (k + 1), Nat.add_right_comm k 1 places, Nat.add_assoc k places 1]

/-! ## The loop -/

/-- What the loop ends with: as long as fewer are taken than the limit allows, a round takes the
next one, and it ends as soon as there is none. -/
inductive Fills (members : List Member) (author : Option String) (limit : Int) :
    List String → List String → Prop where
  | full {taken} : ¬(taken.length : Int) < limit → Fills members author limit taken taken
  | exhausted {taken} : (taken.length : Int) < limit → next members author taken none = none →
      Fills members author limit taken taken
  | round {taken id final} : (taken.length : Int) < limit →
      next members author taken none = some id →
      Fills members author limit (taken ++ [id]) final → Fills members author limit taken final

theorem fills_fill (members : List Member) (author : Option String) (limit : Int)
    (taken : List String) :
    Fills members author limit taken
      (fill members author (limit - taken.length).toNat taken) := by
  -- On the places that are left, of which every round takes one.
  induction h : (limit - taken.length).toNat generalizing taken with
  | zero => exact .full (by omega)
  | succ places ih =>
    have room : (taken.length : Int) < limit := by omega
    unfold fill
    split
    · rename_i none
      exact .exhausted room none
    · rename_i id chosen
      have fewer : (limit - ((taken ++ [id]).length : Int)).toNat = places := by
        simp only [List.length_append, List.length_singleton]
        omega
      exact .round room chosen (ih (taken ++ [id]) fewer)

/-- The loop ends in one way only. -/
theorem Fills.unique {limit : Int} {taken ids ids' : List String}
    (h : Fills members author limit taken ids) (h' : Fills members author limit taken ids') :
    ids = ids' := by
  induction h with
  | full filled =>
    cases h' with
    | full => rfl
    | exhausted room => exact absurd room filled
    | round room => exact absurd room filled
  | exhausted room none =>
    cases h' with
    | full filled => exact absurd room filled
    | exhausted => rfl
    | round _ chosen => rw [none] at chosen; cases chosen
  | round room chosen _ ih =>
    cases h' with
    | full filled => exact absurd room filled
    | exhausted _ none => rw [none] at chosen; cases chosen
    | round _ chosen' rest =>
      rw [chosen] at chosen'
      cases chosen'
      exact ih rest

theorem fills_pick (members : List Member) (author : Option String) (limit : Int) :
    Fills members author limit [] (pick members author limit) := by
  simpa [pick] using fills_fill members author limit []

theorem pick_eq_take (members : List Member) (author : Option String) (limit : Int) :
    pick members author limit = (candidates members author).take limit.toNat := by
  simpa [pick] using fill_take members author limit.toNat 0

theorem pick_succ (members : List Member) (author : Option String) {limit : Int}
    (places : 0 ≤ limit) : pick members author (limit + 1) =
      pick members author limit ++
        (next members author (pick members author limit) none).toList := by
  have more : (limit + 1).toNat = limit.toNat + 1 := Int.toNat_add places one_pos.le
  rw [pick_eq_take, pick_eq_take, next_take, more, List.take_add_one]

theorem length_pick_succ (members : List Member) (author : Option String) {limit : Int}
    (places : 0 ≤ limit) : ((pick members author (limit + 1)).length : Int) = limit + 1 ↔
      (next members author (pick members author limit) none).isSome := by
  rw [pick_eq_take, pick_eq_take, next_take, isSome_getElem?, List.length_take]
  omega

/-- For every roster, author and limit the loop ends, with the first of the candidates in their
one order. What it ends with is strictly ascending and does not depend on the order of the
roster. -/
theorem fills_iff_take (members : List Member) (author : Option String) (limit : Int) :
    (∀ ids, Fills members author limit [] ids ↔ ids = pick members author limit) ∧
      pick members author limit = (candidates members author).take limit.toNat ∧
      (pick members author limit).Pairwise (· < ·) ∧
      ∀ others, members.Perm others → pick others author limit = pick members author limit := by
  refine ⟨?_, pick_eq_take members author limit, ?_, ?_⟩
  · intro ids
    constructor
    · exact fun ends => ends.unique (fills_pick members author limit)
    · rintro rfl
      exact fills_pick members author limit
  · rw [pick_eq_take]
    exact (ascending_candidates members author).sublist (List.take_sublist _ _)
  · intro others perm
    rw [pick_eq_take, pick_eq_take, candidates_congr fun m => perm.mem_iff]

end ReviewRota.Roster
