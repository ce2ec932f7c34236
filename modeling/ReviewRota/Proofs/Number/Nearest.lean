import Mathlib.Algebra.Order.Ring.Abs
import ReviewRota.Proofs.Number.Rounding

/-!
# The nearest number

A fraction that is rounded becomes the number of the format that is nearest to it. Of two numbers
that are equally near it becomes the one with the even significand, and a fraction that is a number
itself stays what it is.
-/

namespace ReviewRota.Binary64

/-- The finite numbers of the format: all 53 digits count, except in units of the least power of
two. -/
def InFormat : Binary64 → Prop
  | finite _ m q => m < 2 ^ 53 ∧ (2 ^ 52 ≤ m ∨ q = -1074) ∧ -1074 ≤ q ∧ q ≤ 971
  | _ => False

def IsEven : Binary64 → Prop
  | finite _ m _ => m % 2 = 0
  | _ => False

/-- No number of the format is nearer to the fraction, and none is as near, unless this one is
even. -/
structure IsNearest (x : Binary64) (r : ℚ) : Prop where
  inFormat : x.InFormat
  nearest : ∀ y : Binary64, y.InFormat → |r - x.value| ≤ |r - y.value|
  even : ∀ y : Binary64, y.InFormat → |r - x.value| = |r - y.value| → x.value = y.value ∨ x.IsEven

theorem IsNearest.exact {x y : Binary64} (nearest : x.IsNearest y.value) (format : y.InFormat) :
    x.value = y.value := by
  have distance := nearest.nearest y format
  rw [sub_self, abs_zero] at distance
  exact (sub_eq_zero.mp (abs_nonpos_iff.mp distance)).symm

/-! ### Multiples of the unit -/

theorem nearest_whole {r : ℚ} {k : ℤ} (close : |r - k| ≤ 1 / 2) (i : ℤ) :
    |r - k| ≤ |r - i| ∧ (|r - k| = |r - i| → k = i ∨ |r - k| = 1 / 2) := by
  by_cases same : k = i
  · exact ⟨same ▸ le_rfl, fun _ => .inl same⟩
  · have apart : (1 : ℚ) ≤ |(k : ℚ) - i| := by
      exact_mod_cast Int.one_le_abs (sub_ne_zero.mpr same)
    have far : 1 / 2 ≤ |r - i| := by
      have triangle := abs_sub_abs_le_abs_sub ((k : ℚ) - i) (k - r)
      rw [sub_sub_sub_cancel_left, abs_sub_comm (k : ℚ) r] at triangle
      linarith
    exact ⟨close.trans far, fun tie => .inr (le_antisymm close (tie ▸ far))⟩

theorem divEven_close (n : ℕ) {d : ℕ} (positive : 0 < d) :
    |(n : ℚ) / d - divEven n d| ≤ 1 / 2 ∧
      (|(n : ℚ) / d - divEven n d| = 1 / 2 → divEven n d % 2 = 0) := by
  obtain ⟨above, below, even⟩ := divEven_spec n positive
  generalize divEven n d = k at above below even ⊢
  have d_pos : (0 : ℚ) < d := by exact_mod_cast positive
  have gap : (n : ℚ) / d - k = (n - k * d) / d := by field_simp
  rw [gap, abs_div, abs_of_pos d_pos, div_le_iff₀ d_pos, div_eq_iff d_pos.ne']
  constructor
  · have lower : 2 * ((k : ℚ) * d) ≤ 2 * n + d := by exact_mod_cast above
    have upper : 2 * (n : ℚ) ≤ 2 * (k * d) + d := by exact_mod_cast below
    rw [abs_le]
    constructor <;> linarith
  · intro tie
    rcases abs_choice ((n : ℚ) - k * d) with same | same
    · have tie : 2 * (n : ℚ) = 2 * (k * d) + d := by linarith
      exact even (.inr (by exact_mod_cast tie))
    · have tie : 2 * ((k : ℚ) * d) = 2 * n + d := by linarith
      exact even (.inl (by exact_mod_cast tie))

section

variable {n d : ℕ} (hn : 0 < n) (hd : 0 < d)

include hd in
/-- Among the multiples of its unit no other one is nearer to a fraction than the rounded one. -/
theorem rounded_nearest (i : ℤ) :
    |(n : ℚ) / d - rounded n d| ≤ |(n : ℚ) / d - i * 2 ^ unit n d| ∧
      (|(n : ℚ) / d - rounded n d| = |(n : ℚ) / d - i * 2 ^ unit n d| →
        rounded n d = i * 2 ^ unit n d ∨ significand n d % 2 = 0) := by
  have unit_pos : (0 : ℚ) < 2 ^ unit n d := zpow_pos two_pos _
  obtain ⟨close, even⟩ : |(n : ℚ) / d / 2 ^ unit n d - significand n d| ≤ 1 / 2 ∧
      (|(n : ℚ) / d / 2 ^ unit n d - significand n d| = 1 / 2 → significand n d % 2 = 0) := by
    rw [← scaled_ratio]
    exact divEven_close _ (by positivity)
  obtain ⟨nearest, tie⟩ := nearest_whole (k := significand n d) (by exact_mod_cast close) i
  have scaled (j : ℤ) : |(n : ℚ) / d - j * 2 ^ unit n d| =
      |(n : ℚ) / d / 2 ^ unit n d - j| * 2 ^ unit n d := by
    rw [← abs_of_pos unit_pos, ← abs_mul, abs_of_pos unit_pos, sub_mul,
      div_mul_cancel₀ _ unit_pos.ne']
  have whole : rounded n d = ((significand n d : ℤ) : ℚ) * 2 ^ unit n d := by
    rw [Int.cast_natCast]
    rfl
  rw [whole, scaled, scaled]
  constructor
  · gcongr
  · intro same
    rcases tie (mul_right_cancel₀ unit_pos.ne' same) with rfl | half
    · exact .inl rfl
    · exact .inr (even (by exact_mod_cast half))

/-- Every number of the format is a multiple of the unit of a fraction, or else it is too small to
be near. -/
theorem multiple_or_small {y : Binary64} (format : y.InFormat) (u : ℤ) (least : -1074 ≤ u) :
    (∃ i : ℤ, y.value = i * 2 ^ u) ∨ -1074 < u ∧ y.value < 2 ^ 52 * 2 ^ u := by
  cases y with
  | nan | infinite => exact absurd format id
  | finite s m q =>
    obtain ⟨digits, -, small, -⟩ := format
    rcases le_or_gt u q with multiple | below
    · exact .inl ⟨_, in_smaller_units multiple (signed s m)⟩
    · refine .inr ⟨by omega, ?_⟩
      have magnitude : (signed s m : ℚ) ≤ m := by
        cases s <;> simp [signed]
      calc (signed s m : ℚ) * 2 ^ q ≤ m * 2 ^ q := by gcongr
        _ < 2 ^ 53 * 2 ^ q := by gcongr; exact_mod_cast digits
        _ = 2 ^ 52 * 2 ^ (q + 1) := by
          rw [zpow_add_one₀ two_ne_zero]
          ring
        _ ≤ 2 ^ 52 * 2 ^ u := by
          gcongr
          · exact one_le_two
          · exact below

include hn hd

theorem rounded_nearest_inFormat {y : Binary64} (format : y.InFormat) :
    |(n : ℚ) / d - rounded n d| ≤ |(n : ℚ) / d - y.value| ∧
      (|(n : ℚ) / d - rounded n d| = |(n : ℚ) / d - y.value| →
        rounded n d = y.value ∨ significand n d % 2 = 0) := by
  rcases multiple_or_small format (unit n d) (le_max_right _ _) with ⟨i, same⟩ | ⟨above, small⟩
  · rw [same]
    exact rounded_nearest hd i
  · -- between the number and the fraction there is still the least multiple of 53 digits
    have reached := unit_le_ratio hn hd above
    have between := (rounded_nearest (n := n) hd (2 ^ 52)).1
    rw [Int.cast_pow, Int.cast_ofNat] at between
    rw [abs_of_nonneg (sub_nonneg.mpr reached)] at between
    rw [abs_of_pos (sub_pos.mpr (small.trans_le reached))]
    have nearer : |(n : ℚ) / d - rounded n d| < n / d - y.value := by linarith
    exact ⟨nearer.le, fun tie => absurd tie nearer.ne⟩

/-- A rounded fraction is written with its significand, or with half of an even one. -/
theorem ofRatio_inFormat {s : Bool} (finite : (ofRatio s n d).IsFinite) :
    (ofRatio s n d).InFormat ∧ (significand n d % 2 = 0 → (ofRatio s n d).IsEven) := by
  have most := significand_le hn hd
  have least : -1074 < unit n d → 2 ^ 52 ≤ significand n d := le_significand hn hd
  have bound : -1074 ≤ unit n d := le_max_right _ _
  rw [ofRatio_eq hn] at finite ⊢
  split_ifs at finite ⊢ with carry exceeds exceeds
  · exact absurd finite id
  · exact ⟨⟨by norm_num, .inl le_rfl, by omega, by omega⟩, fun _ => by norm_num [IsEven]⟩
  · exact absurd finite id
  · exact ⟨⟨by omega, by omega, bound, by omega⟩, id⟩

end

theorem isNearest_zero : (zero false).IsNearest 0 := by
  have value : (zero false).value = 0 := by simp [zero, Binary64.value, signed]
  refine ⟨⟨by norm_num, .inr rfl, le_rfl, by norm_num⟩, fun y _ => ?_, fun y _ _ => .inr rfl⟩
  rw [value, sub_self, abs_zero]
  exact abs_nonneg _

theorem isNearest_ofRatio {n d : ℕ} (hd : 0 < d) (finite : (ofRatio false n d).IsFinite) :
    (ofRatio false n d).IsNearest (n / d) := by
  rcases n.eq_zero_or_pos with rfl | hn
  · rw [ofRatio_zero, Nat.cast_zero, zero_div]
    exact isNearest_zero
  · obtain ⟨format, even⟩ := ofRatio_inFormat hn hd finite
    have value : (ofRatio false n d).value = rounded n d := by
      rcases ofRatio_cases hn hd false with ⟨-, exceeds⟩ | ⟨-, m, q, value, number⟩
      · rw [exceeds] at finite
        exact absurd finite id
      · rw [number, ← value]
        simp [Binary64.value, signed]
    refine ⟨format, fun y inFormat => ?_, fun y inFormat tie => ?_⟩
    · rw [value]
      exact (rounded_nearest_inFormat hn hd inFormat).1
    · rw [value] at tie ⊢
      exact ((rounded_nearest_inFormat hn hd inFormat).2 tie).imp_right even

theorem isFinite_ofRatio {n d : ℕ} (s : Bool) (hd : 0 < d) (small : (n : ℚ) / d < 2 ^ (1023 : ℤ)) :
    (ofRatio s n d).IsFinite := by
  rcases n.eq_zero_or_pos with rfl | hn
  · exact trivial
  have log : log2Ratio n d < 1023 :=
    (zpow_lt_zpow_iff_right₀ one_lt_two).mp ((log2Ratio_spec hn hd).1.trans_lt small)
  have units : unit n d ≤ 970 := by
    unfold unit
    omega
  rcases ofRatio_cases hn hd s with ⟨large, -⟩ | ⟨-, m, q, -, number⟩
  · have most : (significand n d : ℚ) ≤ 2 ^ 53 := by exact_mod_cast significand_le hn hd
    have bounded : rounded n d < 2 ^ (1024 : ℤ) := by
      calc (significand n d : ℚ) * 2 ^ unit n d ≤ 2 ^ 53 * 2 ^ (970 : ℤ) := by
            gcongr
            exact one_le_two
        _ = 2 ^ (1023 : ℤ) := two_pow_mul_zpow 53 970
        _ < 2 ^ (1024 : ℤ) := zpow_lt_zpow_right₀ one_lt_two (by norm_num)
    exact absurd large bounded.not_ge
  · rw [number]
    exact trivial

end ReviewRota.Binary64
