import Mathlib.Data.List.Basic
import ReviewRota.Number.Shortest
import ReviewRota.Text.Blank
import ReviewRota.Value

/-!
# How numbers are spelled

A number is spelled with digits, signs, a point and a few letters, and so without blanks.
-/

namespace ReviewRota

def Unblank (cs : List Char) : Prop := ∀ c ∈ cs, isBlank c = false

instance (cs : List Char) : Decidable (Unblank cs) :=
  List.decidableBAll (fun c => isBlank c = false) cs

theorem strip_of_unblank {s : String} (unblank : Unblank s.toList) : strip s = s := by
  rw [strip, stripChars_eq_self, String.ofList_toList]
  · exact fun c first => unblank c (List.mem_of_mem_head? first)
  · exact fun c last => unblank c (List.mem_of_mem_getLast? last)

namespace Unblank

variable {cs ds : List Char} {c : Char}

theorem cons (first : isBlank c = false) (rest : Unblank cs) : Unblank (c :: cs) :=
  List.forall_mem_cons.mpr ⟨first, rest⟩

theorem append (first : Unblank cs) (second : Unblank ds) : Unblank (cs ++ ds) :=
  List.forall_mem_append.mpr ⟨first, second⟩

theorem mono (unblank : Unblank ds) (among : ∀ c ∈ cs, c ∈ ds) : Unblank cs :=
  fun c member => unblank c (among c member)

theorem take (unblank : Unblank cs) (n : Nat) : Unblank (cs.take n) :=
  unblank.mono fun _ => List.mem_of_mem_take

theorem drop (unblank : Unblank cs) (n : Nat) : Unblank (cs.drop n) :=
  unblank.mono fun _ => List.mem_of_mem_drop

theorem zeros (n : Nat) : Unblank (Shortest.zeros n) := by
  intro c member
  rw [List.eq_of_mem_replicate member]
  decide

theorem withoutTrailingZeros (unblank : Unblank ds) :
    Unblank (Shortest.withoutTrailingZeros ds) :=
  unblank.mono fun c member => by
    rw [Shortest.withoutTrailingZeros, List.mem_reverse] at member
    exact List.mem_reverse.mp ((List.dropWhile_suffix _).subset member)

theorem isBlank_of_isDigit (digit : c.isDigit = true) : isBlank c = false := by
  obtain ⟨low, high⟩ : 48 ≤ c.toNat ∧ c.toNat ≤ 57 := Char.isDigit_iff_toNat.mp digit
  have apart : ∀ r ∈ Blank.ranges, r.2 < 48 ∨ 57 < r.1 := by decide
  rw [isBlank, List.any_eq_false]
  intro r listed bounds
  have := apart r listed
  simp only [Bool.and_eq_true, decide_eq_true_eq] at bounds
  omega

theorem toString_nat (n : Nat) : Unblank (toString n).toList := by
  rw [show (toString n).toList = Nat.toDigits 10 n from Nat.toList_repr]
  exact fun c member =>
    isBlank_of_isDigit (Nat.isDigit_of_mem_toDigits (by decide) (by decide) member)

theorem toString_int (i : Int) : Unblank (toString i).toList := by
  cases i with
  | ofNat n => exact toString_nat n
  | negSucc n =>
    show Unblank ("-" ++ toString (n + 1)).toList
    rw [String.toList_append]
    exact .append (by decide) (toString_nat _)

theorem exponent (l : Shortest.Layout) (e : Int) : Unblank (l.exponent e) := by
  refine .cons ?_ (.append (.zeros _) (toString_nat _))
  split <;> decide

theorem write (l : Shortest.Layout) (unblank : Unblank ds) (point : Int) :
    Unblank (l.write ds point) := by
  unfold Shortest.Layout.write
  split
  · refine .append (.append (unblank.take _) ?_) (.cons (by decide) (.exponent l _))
    split
    · exact nofun
    · exact .cons (by decide) (unblank.drop _)
  split
  · exact .cons (by decide) (.cons (by decide) (.append (.zeros _) unblank))
  · refine .append (.append (unblank.take _) (.zeros _)) (.cons (by decide) ?_)
    split
    · decide
    · exact unblank.drop _

theorem text (x : Binary64) : Unblank x.text.toList := by
  cases x with
  | nan => decide
  | infinite negative => cases negative <;> decide
  | finite negative m q =>
    have sign : Unblank (if negative then "-" else "").toList := by
      cases negative <;> decide
    show Unblank (if m = 0 then _ else _ : String).toList
    split
    · rw [String.toList_append]
      exact .append sign (by decide)
    · rw [String.toList_append, String.toList_ofList]
      exact .append sign (.write _ (.withoutTrailingZeros (toString_nat _)) _)

end Unblank

def Value.IsNumber (v : Value) : Prop := (∃ i, v = .int i) ∨ ∃ x, v = .float x

theorem Value.IsNumber.strip_spelled {v : Value} (number : v.IsNumber) :
    strip v.spelled = v.spelled := by
  obtain ⟨i, rfl⟩ | ⟨x, rfl⟩ := number
  · exact strip_of_unblank (.toString_int i)
  · exact strip_of_unblank (.text x)

end ReviewRota
