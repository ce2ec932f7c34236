import Mathlib.Algebra.Order.Field.Basic
import Mathlib.Algebra.Order.Field.Power
import Mathlib.Algebra.Order.Field.Rat
import Mathlib.Tactic.FieldSimp
import Mathlib.Tactic.Linarith
import Mathlib.Tactic.NormNum
import Mathlib.Tactic.Ring
import ReviewRota.Number.Binary64

/-!
# Rounding keeps the order

A finite number stands for a fraction, and the order of numbers is that of the fractions. A fraction
is rounded in units of a power of two that grows with it, so that of two fractions the greater one
never comes out smaller, and neither does a sum whose second term is made greater.
-/

namespace ReviewRota.Binary64

/-! ### Order -/

/-- The fraction that a finite number stands for. -/
def value : Binary64 → ℚ
  | finite s m q => (signed s m : ℚ) * 2 ^ q
  | _ => 0

theorem two_zpow (q : ℤ) : (2 : ℚ) ^ q = 2 ^ q.toNat / 2 ^ (-q).toNat := by
  rcases le_total 0 q with positive | negative
  · obtain ⟨k, rfl⟩ := Int.eq_ofNat_of_zero_le positive
    simp
  · obtain ⟨k, same⟩ := Int.eq_ofNat_of_zero_le (Int.neg_nonneg.mpr negative)
    obtain rfl : q = -(k : ℤ) := by omega
    simp

theorem two_pow_mul_zpow (k : ℕ) (q : ℤ) : (2 : ℚ) ^ k * 2 ^ q = 2 ^ (k + q) := by
  rw [zpow_add₀ two_ne_zero, zpow_natCast]

theorem in_smaller_units {q e : ℤ} (below : e ≤ q) (i : ℤ) :
    (i : ℚ) * 2 ^ q = ((i * 2 ^ (q - e).toNat : ℤ) : ℚ) * 2 ^ e := by
  obtain ⟨j, rfl⟩ : ∃ j : ℕ, q = e + j := ⟨(q - e).toNat, by omega⟩
  have power : (e + j - e).toNat = j := by omega
  rw [power, zpow_add₀ two_ne_zero, zpow_natCast]
  push_cast
  ring

theorem lt_finite_iff {s t : Bool} {m n : ℕ} {p q : ℤ} :
    (finite s m p).lt (finite t n q) = true ↔ (finite s m p).value < (finite t n q).value := by
  simp only [lt, value, decide_eq_true_eq]
  rw [in_smaller_units (min_le_left p q), in_smaller_units (min_le_right p q),
    mul_lt_mul_iff_left₀ (zpow_pos two_pos _)]
  norm_cast

theorem le_finite_iff {s t : Bool} {m n : ℕ} {p q : ℤ} :
    (finite s m p).le (finite t n q) = true ↔ (finite s m p).value ≤ (finite t n q).value := by
  rw [← not_lt, ← lt_finite_iff]
  simp only [le, same]
  cases forward : (finite s m p).lt (finite t n q) with
  | false => simp
  | true =>
    have backward := not_lt.mpr (lt_finite_iff.mp forward).le
    rw [← lt_finite_iff] at backward
    simpa using backward

@[simp] theorem not_nan_le (x : Binary64) : nan.le x = false := rfl

@[simp] theorem not_le_nan (x : Binary64) : x.le nan = false := by cases x <;> rfl

@[simp] theorem infinite_le_infinite (s t : Bool) : (infinite s).le (infinite t) = (s || !t) := by
  cases s <;> cases t <;> rfl

@[simp] theorem infinite_le_finite (s t : Bool) (m : ℕ) (q : ℤ) :
    (infinite s).le (finite t m q) = s := by
  cases s <;> rfl

@[simp] theorem finite_le_infinite (s t : Bool) (m : ℕ) (q : ℤ) :
    (finite s m q).le (infinite t) = !t := by
  cases t <;> rfl

theorem le_trans {x y z : Binary64} (first : x.le y = true) (second : y.le z = true) :
    x.le z = true := by
  cases x with
  | nan => simp at first
  | infinite s =>
    cases z with
    | nan => simp at second
    | infinite t =>
      cases y <;> cases s <;> cases t <;> simp_all
    | finite t n q =>
      cases y <;> cases s <;> simp_all
  | finite s m p =>
    cases y with
    | nan => simp at first
    | infinite t =>
      obtain rfl : t = false := by simpa using first
      cases z <;> simp_all
    | finite t n q =>
      cases z with
      | nan => simp at second
      | infinite u => simpa using second
      | finite u k r =>
        rw [le_finite_iff] at first second ⊢
        exact first.trans second

theorem value_neg (x : Binary64) : x.neg.value = -x.value := by
  cases x with
  | finite s m q => cases s <;> simp [neg, value, signed]
  | _ => simp [neg, value]

theorem neg_le {x y : Binary64} (ordered : x.le y = true) : y.neg.le x.neg = true := by
  cases x with
  | nan => simp at ordered
  | infinite s => cases y <;> cases s <;> simp_all [neg]
  | finite s m p =>
    cases y with
    | nan => simp at ordered
    | infinite t => simpa [neg] using ordered
    | finite t n q =>
      rw [le_finite_iff] at ordered
      rw [← neg_le_neg_iff, ← value_neg, ← value_neg] at ordered
      exact le_finite_iff.mpr ordered

/-! ### The nearest whole number -/

@[simp] theorem divEven_one (n : ℕ) : divEven n 1 = n := by
  simp [divEven, Nat.mod_one]

/-- No whole number is nearer, and of two that are equally near it is the even one. -/
theorem divEven_spec (n : ℕ) {d : ℕ} (positive : 0 < d) :
    2 * (divEven n d * d) ≤ 2 * n + d ∧ 2 * n ≤ 2 * (divEven n d * d) + d ∧
      (2 * (divEven n d * d) = 2 * n + d ∨ 2 * n = 2 * (divEven n d * d) + d →
        divEven n d % 2 = 0) := by
  have parts := Nat.div_add_mod n d
  have below := Nat.mod_lt n positive
  rw [Nat.mul_comm] at parts
  unfold divEven
  dsimp only
  generalize n / d = q at parts ⊢
  generalize n % d = r at parts below ⊢
  split
  · have next : (q + 1) * d = q * d + d := Nat.succ_mul q d
    rw [next]
    generalize q * d = k at parts ⊢
    omega
  · generalize q * d = k at parts ⊢
    omega

theorem divEven_le_divEven {a b a' b' : ℕ} (positive : 0 < b) (positive' : 0 < b')
    (ordered : (a : ℚ) / b ≤ a' / b') : divEven a b ≤ divEven a' b' := by
  obtain ⟨above, -, even⟩ := divEven_spec a positive
  obtain ⟨-, below, even'⟩ := divEven_spec a' positive'
  rw [div_le_div_iff₀ (by exact_mod_cast positive) (by exact_mod_cast positive')] at ordered
  have cross : a * b' ≤ a' * b := by exact_mod_cast ordered
  generalize divEven a b = k at above even ⊢
  generalize divEven a' b' = k' at below even' ⊢
  by_contra greater
  have area : 0 < b * b' := Nat.mul_pos positive positive'
  have lower : 2 * (k * (b * b')) ≤ 2 * (a * b') + b * b' := by
    calc 2 * (k * (b * b')) = 2 * (k * b) * b' := by ring
      _ ≤ (2 * a + b) * b' := Nat.mul_le_mul_right b' above
      _ = 2 * (a * b') + b * b' := by ring
  have upper : 2 * (a' * b) ≤ 2 * (k' * (b * b')) + b * b' := by
    calc 2 * (a' * b) = 2 * a' * b := by ring
      _ ≤ (2 * (k' * b') + b') * b := Nat.mul_le_mul_right b below
      _ = 2 * (k' * (b * b')) + b * b' := by ring
  -- both fractions lie half way between the two numbers, but only one of these is even
  obtain rfl : k = k' + 1 := by
    by_contra further
    have apart : (k' + 2) * (b * b') ≤ k * (b * b') := Nat.mul_le_mul_right _ (by omega)
    rw [Nat.add_mul] at apart
    omega
  rw [Nat.add_mul] at lower
  have tie : 2 * ((k' + 1) * b) = 2 * a + b := by
    apply Nat.eq_of_mul_eq_mul_right positive'
    calc 2 * ((k' + 1) * b) * b' = 2 * (k' * (b * b') + 1 * (b * b')) := by ring
      _ = 2 * (a * b') + b * b' := by omega
      _ = (2 * a + b) * b' := by ring
  have tie' : 2 * a' = 2 * (k' * b') + b' := by
    apply Nat.eq_of_mul_eq_mul_right positive
    calc 2 * a' * b = 2 * (a' * b) := by ring
      _ = 2 * (k' * (b * b')) + b * b' := by omega
      _ = (2 * (k' * b') + b') * b := by ring
  have first := even (.inl tie)
  have second := even' (.inr tie')
  omega

/-! ### Rounding a positive fraction -/

theorem log2Ratio_spec {n d : ℕ} (hn : 0 < n) (hd : 0 < d) :
    (2 : ℚ) ^ log2Ratio n d ≤ n / d ∧ (n : ℚ) / d < 2 ^ (log2Ratio n d + 1) := by
  have bounds (m : ℕ) (hm : 0 < m) :
      (2 : ℚ) ^ (m.log2 : ℤ) ≤ m ∧ (m : ℚ) < 2 ^ ((m.log2 : ℤ) + 1) := by
    constructor
    · exact_mod_cast Nat.log2_self_le hm.ne'
    · exact_mod_cast Nat.lt_log2_self
  obtain ⟨nLower, nUpper⟩ := bounds n hn
  obtain ⟨dLower, dUpper⟩ := bounds d hd
  have d_pos : (0 : ℚ) < d := by exact_mod_cast hd
  have decision (e : ℤ) :
      d * 2 ^ e.toNat ≤ n * 2 ^ (-e).toNat ↔ (2 : ℚ) ^ e ≤ n / d := by
    rw [two_zpow, div_le_div_iff₀ (by positivity) d_pos, mul_comm ((2 : ℚ) ^ e.toNat)]
    norm_cast
  unfold log2Ratio
  dsimp only
  generalize (n.log2 : ℤ) = a at nLower nUpper ⊢
  generalize (d.log2 : ℤ) = b at dLower dUpper ⊢
  have upper : (n : ℚ) / d < 2 ^ (a - b + 1) := by
    rw [div_lt_iff₀ d_pos]
    calc (n : ℚ) < 2 ^ (a + 1) := nUpper
      _ = 2 ^ (a - b + 1) * 2 ^ b := by rw [← zpow_add₀ two_ne_zero]; congr 1; ring
      _ ≤ 2 ^ (a - b + 1) * d := by gcongr
  have lower : (2 : ℚ) ^ (a - b - 1) ≤ n / d := by
    rw [le_div_iff₀ d_pos]
    calc (2 : ℚ) ^ (a - b - 1) * d ≤ 2 ^ (a - b - 1) * 2 ^ (b + 1) := by gcongr
      _ = 2 ^ a := by rw [← zpow_add₀ two_ne_zero]; congr 1; ring
      _ ≤ n := nLower
  split
  · rename_i reached
    exact ⟨(decision _).mp reached, upper⟩
  · rename_i missed
    rw [decision, not_le] at missed
    exact ⟨lower, by rwa [sub_add_cancel]⟩

/-- The power of two in units of which a positive fraction is rounded. -/
def unit (n d : ℕ) : ℤ := max (log2Ratio n d - 52) (-1074)

def significand (n d : ℕ) : ℕ :=
  divEven (n * 2 ^ (-unit n d).toNat) (d * 2 ^ (unit n d).toNat)

/-- A positive fraction as it is rounded, were there no greatest number. -/
def rounded (n d : ℕ) : ℚ := significand n d * 2 ^ unit n d

/-- A fraction in other units. -/
theorem scaled_ratio (n d : ℕ) (q : ℤ) :
    ((n * 2 ^ (-q).toNat : ℕ) : ℚ) / (d * 2 ^ q.toNat : ℕ) = n / d / 2 ^ q := by
  rw [two_zpow]
  push_cast
  field_simp

section

variable {n d n' d' : ℕ} (hn : 0 < n) (hd : 0 < d)
include hn hd

theorem ratio_lt_unit : (n : ℚ) / d < 2 ^ 53 * 2 ^ unit n d := by
  calc (n : ℚ) / d < 2 ^ (log2Ratio n d + 1) := (log2Ratio_spec hn hd).2
    _ ≤ 2 ^ (53 + unit n d) := by
      apply zpow_le_zpow_right₀ one_le_two
      have := le_max_left (log2Ratio n d - 52) (-1074)
      unfold unit
      omega
    _ = 2 ^ 53 * 2 ^ unit n d := (two_pow_mul_zpow 53 _).symm

theorem unit_le_ratio (above : -1074 < unit n d) : 2 ^ 52 * 2 ^ unit n d ≤ (n : ℚ) / d := by
  have exponent : unit n d = log2Ratio n d - 52 := by
    unfold unit at above ⊢
    omega
  calc (2 : ℚ) ^ 52 * 2 ^ unit n d = 2 ^ (52 + unit n d) := two_pow_mul_zpow 52 _
    _ = 2 ^ log2Ratio n d := by rw [exponent, add_sub_cancel]
    _ ≤ n / d := (log2Ratio_spec hn hd).1

theorem significand_le : significand n d ≤ 2 ^ 53 := by
  rw [← divEven_one (2 ^ 53)]
  apply divEven_le_divEven (by positivity) one_pos
  rw [scaled_ratio, div_le_iff₀ (zpow_pos two_pos _)]
  push_cast
  rw [div_one]
  exact (ratio_lt_unit hn hd).le

theorem le_significand (above : -1074 < unit n d) : 2 ^ 52 ≤ significand n d := by
  rw [← divEven_one (2 ^ 52)]
  apply divEven_le_divEven one_pos (by positivity)
  rw [scaled_ratio, le_div_iff₀ (zpow_pos two_pos _)]
  push_cast
  rw [div_one]
  exact unit_le_ratio hn hd above

/-- In the same units the significands decide. A smaller unit means a smaller power of two, which
rounding does not exceed from below or fall short of from above. -/
theorem rounded_le_rounded (hn' : 0 < n') (hd' : 0 < d') (ordered : (n : ℚ) / d ≤ n' / d') :
    rounded n d ≤ rounded n' d' := by
  have units : unit n d ≤ unit n' d' := by
    have powers : (2 : ℚ) ^ log2Ratio n d < 2 ^ (log2Ratio n' d' + 1) :=
      ((log2Ratio_spec hn hd).1.trans ordered).trans_lt (log2Ratio_spec hn' hd').2
    have logs := (zpow_lt_zpow_iff_right₀ one_lt_two).mp powers
    unfold unit
    omega
  unfold rounded
  rcases units.eq_or_lt with same | smaller
  · unfold significand
    rw [same]
    gcongr
    apply divEven_le_divEven (by positivity) (by positivity)
    rw [scaled_ratio, scaled_ratio]
    gcongr
  · have least : -1074 ≤ unit n d := le_max_right _ _
    have small : (significand n d : ℚ) ≤ 2 ^ 53 := by exact_mod_cast significand_le hn hd
    have great : (2 : ℚ) ^ 52 ≤ significand n' d' := by
      exact_mod_cast le_significand hn' hd' (least.trans_lt smaller)
    calc (significand n d : ℚ) * 2 ^ unit n d ≤ 2 ^ 53 * 2 ^ unit n d := by gcongr
      _ = 2 ^ 52 * 2 ^ (unit n d + 1) := by
        rw [zpow_add_one₀ two_ne_zero]
        ring
      _ ≤ 2 ^ 52 * 2 ^ unit n' d' := by
        gcongr
        · exact one_le_two
        · exact smaller
      _ ≤ significand n' d' * 2 ^ unit n' d' := by gcongr

omit hd in
/-- A significand of 54 digits is the next power of two. -/
theorem ofRatio_eq (s : Bool) : ofRatio s n d =
    if significand n d = 2 ^ 53 then
      if 971 < unit n d + 1 then infinite s else finite s (2 ^ 52) (unit n d + 1)
    else if 971 < unit n d then infinite s else finite s (significand n d) (unit n d) := by
  unfold ofRatio
  rw [if_neg hn.ne']
  show (fun p : ℕ × ℤ => if 971 < p.2 then infinite s else finite s p.1 p.2)
    (if significand n d = 2 ^ 53 then (2 ^ 52, unit n d + 1) else (significand n d, unit n d)) = _
  by_cases carry : significand n d = 2 ^ 53
  · rw [if_pos carry, if_pos carry]
  · rw [if_neg carry, if_neg carry]

theorem ofRatio_cases (s : Bool) :
    (2 ^ (1024 : ℤ) ≤ rounded n d ∧ ofRatio s n d = infinite s) ∨
      (rounded n d < 2 ^ (1024 : ℤ) ∧
        ∃ (m : ℕ) (q : ℤ), (m : ℚ) * 2 ^ q = rounded n d ∧ ofRatio s n d = finite s m q) := by
  have most := significand_le hn hd
  have least := le_significand hn hd
  rw [ofRatio_eq hn]
  unfold rounded
  generalize significand n d = m at most least ⊢
  generalize unit n d = q at least ⊢
  by_cases carry : m = 2 ^ 53
  · subst carry
    have carried : ((2 ^ 53 : ℕ) : ℚ) * 2 ^ q = 2 ^ (53 + q) := by
      push_cast
      exact two_pow_mul_zpow 53 q
    rw [if_pos rfl, carried]
    by_cases exceeds : 971 < q + 1
    · rw [if_pos exceeds]
      exact .inl ⟨zpow_le_zpow_right₀ one_le_two (by omega), rfl⟩
    · rw [if_neg exceeds]
      refine .inr ⟨zpow_lt_zpow_right₀ one_lt_two (by omega), 2 ^ 52, q + 1, ?_, rfl⟩
      rw [Nat.cast_pow, Nat.cast_ofNat, two_pow_mul_zpow]
      congr 1
      push_cast
      ring
  · rw [if_neg carry]
    by_cases exceeds : 971 < q
    · rw [if_pos exceeds]
      refine .inl ⟨?_, rfl⟩
      have large : (2 : ℚ) ^ 52 ≤ m := by exact_mod_cast least (by omega)
      calc (2 : ℚ) ^ (1024 : ℤ) ≤ 2 ^ (52 + q) := zpow_le_zpow_right₀ one_le_two (by omega)
        _ = 2 ^ 52 * 2 ^ q := (two_pow_mul_zpow 52 q).symm
        _ ≤ m * 2 ^ q := by gcongr
    · rw [if_neg exceeds]
      refine .inr ⟨?_, m, q, rfl, rfl⟩
      have small : (m : ℚ) < 2 ^ 53 := by exact_mod_cast lt_of_le_of_ne most carry
      calc (m : ℚ) * 2 ^ q < 2 ^ 53 * 2 ^ q := by gcongr
        _ = 2 ^ (53 + q) := two_pow_mul_zpow 53 q
        _ ≤ 2 ^ (1024 : ℤ) := zpow_le_zpow_right₀ one_le_two (by omega)

theorem ofRatio_le_of_pos (hn' : 0 < n') (hd' : 0 < d') (ordered : (n : ℚ) / d ≤ n' / d') :
    (ofRatio false n d).le (ofRatio false n' d') = true := by
  have kept := rounded_le_rounded hn hd hn' hd' ordered
  rcases ofRatio_cases hn hd false with ⟨large, exceeds⟩ | ⟨-, m, q, value, number⟩
  · rcases ofRatio_cases hn' hd' false with ⟨-, exceeds'⟩ | ⟨small, -⟩
    · rw [exceeds, exceeds']
      rfl
    · exact absurd (large.trans kept) (not_le_of_gt small)
  · rcases ofRatio_cases hn' hd' false with ⟨-, exceeds'⟩ | ⟨-, m', q', value', number'⟩
    · rw [number, exceeds']
      rfl
    · rw [← value, ← value'] at kept
      rw [number, number', le_finite_iff]
      simpa [Binary64.value, signed] using kept

end

/-! ### Signs -/

theorem ofRatio_zero (s : Bool) (d : ℕ) : ofRatio s 0 d = zero s := rfl

theorem ofRatio_neg (n d : ℕ) : ofRatio true n d = (ofRatio false n d).neg := by
  unfold ofRatio
  dsimp only
  repeat' split
  all_goals rfl

theorem ofRatio_ne_nan (s : Bool) (n d : ℕ) : ofRatio s n d ≠ nan := by
  unfold ofRatio
  dsimp only
  repeat' split
  all_goals simp [zero]

theorem zero_le_ofRatio (s : Bool) (n : ℕ) {d : ℕ} (hd : 0 < d) :
    (zero s).le (ofRatio false n d) = true := by
  rcases n.eq_zero_or_pos with rfl | hn
  · rw [ofRatio_zero, zero, zero, le_finite_iff]
    cases s <;> simp [value, signed]
  · rcases ofRatio_cases hn hd false with ⟨-, exceeds⟩ | ⟨-, m, q, -, number⟩
    · rw [exceeds]
      rfl
    · rw [number, zero, le_finite_iff]
      cases s <;> simp [value, signed] <;> positivity

theorem ofRatio_false_le {n d n' d' : ℕ} (hd : 0 < d) (hd' : 0 < d')
    (ordered : (n : ℚ) / d ≤ n' / d') : (ofRatio false n d).le (ofRatio false n' d') = true := by
  rcases n.eq_zero_or_pos with rfl | hn
  · exact zero_le_ofRatio false n' hd'
  · have hn' : 0 < n' := by
      have : (0 : ℚ) < n' / d' := lt_of_lt_of_le (by positivity) ordered
      by_contra none
      obtain rfl : n' = 0 := by omega
      simp at this
    exact ofRatio_le_of_pos hn hd hn' hd' ordered

/-- Of two fractions with their signs the greater one is not rounded to the smaller number. -/
theorem ofRatio_le_ofRatio {s s' : Bool} {n d n' d' : ℕ} (hd : 0 < d) (hd' : 0 < d')
    (ordered : (signed s n : ℚ) / d ≤ signed s' n' / d') :
    (ofRatio s n d).le (ofRatio s' n' d') = true := by
  cases s with
  | false =>
    cases s' with
    | false => exact ofRatio_false_le hd hd' (by simpa [signed] using ordered)
    | true =>
      have below : (n : ℚ) / d ≤ -(n' / d') := by simpa [signed, neg_div] using ordered
      have here : (0 : ℚ) ≤ n / d := by positivity
      have there : (0 : ℚ) ≤ n' / d' := by positivity
      obtain rfl : n = 0 := by
        have : (n : ℚ) / d = 0 := by linarith
        simpa [hd.ne'] using this
      obtain rfl : n' = 0 := by
        have : (n' : ℚ) / d' = 0 := by linarith
        simpa [hd'.ne'] using this
      rw [ofRatio_zero, ofRatio_zero]
      decide
  | true =>
    rw [ofRatio_neg]
    cases s' with
    | false =>
      exact le_trans (neg_le (zero_le_ofRatio false n hd)) (zero_le_ofRatio true n' hd')
    | true =>
      rw [ofRatio_neg]
      apply neg_le
      apply ofRatio_false_le hd' hd
      simpa [signed, neg_div] using ordered

/-! ### Sums -/

theorem signed_natAbs (i : ℤ) : signed (decide (i < 0)) i.natAbs = i := by
  by_cases negative : i < 0
  · simp only [signed, negative, decide_true, if_true]
    omega
  · simp only [signed, negative, decide_false, Bool.false_eq_true, if_false]
    omega

theorem signed_mul (s : Bool) (m c : ℕ) : signed s (m * c) = signed s m * c := by
  cases s <;> simp [signed]

theorem exists_add_eq (s t : Bool) (m n : ℕ) (p q : ℤ) : ∃ (u : Bool) (a b : ℕ), 0 < b ∧
    (signed u a : ℚ) / b = (finite s m p).value + (finite t n q).value ∧
      (finite s m p).add (finite t n q) = ofRatio u a b := by
  have sum :
      ((signed s m * 2 ^ (p - min p q).toNat + signed t n * 2 ^ (q - min p q).toNat : ℤ) : ℚ) *
        2 ^ min p q = (finite s m p).value + (finite t n q).value := by
    simp only [value]
    rw [in_smaller_units (min_le_left p q), in_smaller_units (min_le_right p q), Int.cast_add,
      add_mul]
  unfold add
  dsimp only
  generalize
    signed s m * 2 ^ (p - min p q).toNat + signed t n * 2 ^ (q - min p q).toNat = k at sum ⊢
  rw [← sum]
  by_cases cancelled : k = 0
  · refine ⟨s && t, 0, 1, one_pos, ?_, ?_⟩
    · simp [signed, cancelled]
    · rw [if_pos cancelled, ofRatio_zero]
  · refine ⟨decide (k < 0), k.natAbs * 2 ^ (min p q).toNat, 2 ^ (-min p q).toNat, by positivity,
      ?_, ?_⟩
    · rw [signed_mul, signed_natAbs, two_zpow]
      push_cast
      ring
    · rw [if_neg cancelled]
      rfl

theorem add_le_add {s : Bool} {m : ℕ} {p : ℤ} {y z : Binary64} (ordered : y.le z = true) :
    ((finite s m p).add y).le ((finite s m p).add z) = true := by
  cases y with
  | nan => simp at ordered
  | infinite t =>
    cases t with
    | false =>
      cases z with
      | infinite u => simpa [add] using ordered
      | _ => simp at ordered
    | true =>
      cases z with
      | nan => simp at ordered
      | infinite u => cases u <;> rfl
      | finite u k r =>
        obtain ⟨v, a, b, -, -, same⟩ := exists_add_eq s u m k p r
        have number := ofRatio_ne_nan v a b
        rw [same]
        show (infinite true).le _ = true
        cases value : ofRatio v a b with
        | nan => exact absurd value number
        | _ => simp
  | finite t n q =>
    obtain ⟨v, a, b, positive, sum, same⟩ := exists_add_eq s t m n p q
    have number := ofRatio_ne_nan v a b
    rw [same]
    cases z with
    | nan => simp at ordered
    | infinite u =>
      obtain rfl : u = false := by simpa using ordered
      show Binary64.le _ (infinite false) = true
      cases value : ofRatio v a b with
      | nan => exact absurd value number
      | _ => simp
    | finite u k r =>
      obtain ⟨v', a', b', positive', sum', same'⟩ := exists_add_eq s u m k p r
      rw [same']
      apply ofRatio_le_ofRatio positive positive'
      rw [sum, sum']
      rw [le_finite_iff] at ordered
      gcongr

end ReviewRota.Binary64
