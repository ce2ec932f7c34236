import Mathlib.Data.List.Nodup
import Mathlib.Order.Lattice

/-!
# Sorting by a key

A list that is sorted by a key ascends in this key, and elements that share a key stay in the order
in which they were. There is one such list only, so that what is left out may be left out before or
after sorting.
-/

namespace ReviewRota

section

variable {α κ : Type} [LinearOrder κ] {before : α → α → Bool} (key : α → κ)

/-- A list that ascends in a key is told by its parts of equal keys. -/
theorem eq_of_pairwise_le {l m : List α} (left : l.Pairwise fun a b => key a ≤ key b)
    (right : m.Pairwise fun a b => key a ≤ key b)
    (parts : ∀ k, l.filter (fun a => key a = k) = m.filter (fun a => key a = k)) : l = m := by
  induction l generalizing m with
  | nil =>
    cases m with
    | nil => rfl
    | cons b m => simpa using parts (key b)
  | cons a l ih =>
    cases m with
    | nil => simpa using parts (key a)
    | cons b m =>
      obtain ⟨least, ascends⟩ := List.pairwise_cons.mp left
      obtain ⟨least', ascends'⟩ := List.pairwise_cons.mp right
      -- each head is found in the other list, so that neither key is above the other
      have above : key b ≤ key a := by
        have member : a ∈ (b :: m).filter fun c => key c = key a := by simp [← parts]
        rcases List.mem_cons.mp (List.mem_filter.mp member).1 with rfl | later
        · exact le_rfl
        · exact least' a later
      have below : key a ≤ key b := by
        have member : b ∈ (a :: l).filter fun c => key c = key b := by simp [parts]
        rcases List.mem_cons.mp (List.mem_filter.mp member).1 with rfl | later
        · exact le_rfl
        · exact least b later
      have same : key b = key a := le_antisymm above below
      obtain ⟨rfl, -⟩ : a = b ∧ _ := by simpa [same] using parts (key a)
      refine congrArg (a :: ·) (ih ascends ascends' fun k => ?_)
      by_cases hit : key a = k
      · simpa [hit] using parts k
      · simpa [hit] using parts k

variable (orders : ∀ a b, before a b = true ↔ key a ≤ key b)
include orders

theorem before_trans (a b c : α) (ab : before a b = true) (bc : before b c = true) :
    before a c = true := by
  rw [orders] at *
  exact le_trans ab bc

theorem before_total (a b : α) : (before a b || before b a) = true := by
  rw [Bool.or_eq_true, orders, orders]
  exact le_total _ _

theorem pairwise_le_mergeSort (items : List α) :
    (items.mergeSort before).Pairwise fun a b => key a ≤ key b :=
  (List.pairwise_mergeSort (before_trans key orders) (before_total key orders) items).imp
    (orders _ _).mp

theorem pairwise_lt_mergeSort {items : List α} (distinct : (items.map key).Nodup) :
    (items.mergeSort before).Pairwise fun a b => key a < key b := by
  have sorted := pairwise_le_mergeSort key orders items
  have apart : ((items.mergeSort before).map key).Nodup :=
    (((List.mergeSort_perm items before).map key).nodup_iff).mpr distinct
  exact (sorted.and (List.pairwise_map.mp apart)).imp fun both => lt_of_le_of_ne both.1 both.2

theorem filter_key_mergeSort (items : List α) (k : κ) :
    (items.mergeSort before).filter (fun a => key a = k) = items.filter (fun a => key a = k) := by
  have level : (items.filter fun a => key a = k).Pairwise fun a b => before a b = true := by
    refine List.pairwise_of_forall_mem_list fun a first b second => ?_
    rw [orders, of_decide_eq_true (List.mem_filter.mp first).2,
      of_decide_eq_true (List.mem_filter.mp second).2]
  have within := (List.sublist_mergeSort (before_trans key orders) (before_total key orders) level
    List.filter_sublist).filter fun a => key a = k
  rw [List.filter_filter] at within
  simp only [Bool.and_self] at within
  exact (within.eq_of_length
    ((List.mergeSort_perm items before).filter _).length_eq.symm).symm

theorem mergeSort_filter (items : List α) (keep : α → Bool) :
    (items.filter keep).mergeSort before = (items.mergeSort before).filter keep := by
  refine eq_of_pairwise_le key (pairwise_le_mergeSort key orders _)
    ((pairwise_le_mergeSort key orders _).sublist List.filter_sublist) fun k => ?_
  rw [filter_key_mergeSort key orders, List.filter_comm, ← filter_key_mergeSort key orders items,
    List.filter_comm]

end

end ReviewRota
