import Mathlib.Algebra.Order.Floor.Ring
import Mathlib.Algebra.Order.Module.Rat
import Mathlib.Data.Rat.Floor
import ReviewRota.Configuration.Settings
import ReviewRota.Deadline
import ReviewRota.Proofs.Number.Nearest

/-!
# Deadlines on their own

A deadline that is looked at again and again lets pass up to the first look at which it is reached,
and no longer from then on. In a transaction of a server that takes limits, every look that passes
sets one: the time that is left, which only shrinks, and a millisecond at least. This holds of
seconds that are reckoned without rounding. Rounded seconds can be as many as no number of
milliseconds is, and then the limit cannot be written down.
-/

namespace ReviewRota

/-! ### Seconds without rounding -/

def Number.value? : Number → Option ℚ
  | int i => some i
  | float x => if x.IsFinite then some x.value else none

/-- The elements of an ordered field as seconds. A number of milliseconds loses its fraction. -/
@[reducible] def Seconds.exact (K : Type) [Field K] [LinearOrder K] [FloorRing K] : Seconds K where
  zero := 0
  ofNumber n :=
    match n.value? with
    | some q => .ok q
    | none => .error (.fault ⟨.value, "no finite number of seconds"⟩)
  add := (· + ·)
  sub := (· - ·)
  le a b := decide (a ≤ b)
  lt a b := decide (a < b)
  millis a := .ok (if 0 ≤ a then ⌊1000 * a⌋ else ⌈1000 * a⌉)

/-- A look at a deadline before a step: the clock is read for the expiry, and again for the time
that is left. -/
structure Look (K : Type) where
  step : String
  now : K
  later : K

def Look.readings {K : Type} (l : Look K) : List K := [l.now, l.later]

namespace Deadline

section Exact

attribute [local instance] Seconds.exact

variable {K : Type} [Field K] [LinearOrder K] [FloorRing K]

def looked (d : Deadline K) (nested : Bool) (l : Look K) : Except Failure (List Directive) :=
  check (some d) ⟨"postgresql", true, nested⟩ l.step l.now l.later

/-- The time that is left at a look. -/
def left (d : Deadline K) (l : Look K) : K := max 0 (d.expiresAt - l.later)

/-- The time that is left in milliseconds, but never none. -/
def budget (d : Deadline K) (l : Look K) : ℤ := max 1 ⌊1000 * d.left l⌋

variable {d : Deadline K} {l l' : Look K} {nested : Bool}

theorem expired_iff {now : K} : d.Expired now ↔ d.expiresAt ≤ now := decide_eq_true_iff

theorem remaining_eq (d : Deadline K) (l : Look K) : d.remaining l.later = d.left l := by
  unfold left
  rw [max_def_lt]
  exact if_congr decide_eq_true_iff rfl rfl

theorem millis_left (d : Deadline K) (l : Look K) :
    Seconds.millis (d.left l) = .ok ⌊1000 * d.left l⌋ :=
  congrArg Except.ok (if_pos (le_max_left _ _))

theorem looked_of_expired (expired : d.expiresAt ≤ l.now) :
    d.looked nested l = .error (.refused (d.exceeded l.step)) :=
  if_pos (expired_iff.mpr expired)

/-- A look that does not find the deadline reached sets one limit, even if the time has run out
between its two readings of the clock. -/
theorem looked_of_not_expired (unexpired : l.now < d.expiresAt) :
    d.looked nested l = .ok [.limit (d.budget l)] := by
  have passes : ¬d.Expired l.now := mt expired_iff.mp (not_le.mpr unexpired)
  refine (if_neg passes).trans ?_
  rw [remaining_eq, millis_left]
  rfl

variable [IsStrictOrderedRing K]

theorem budget_le (d : Deadline K) (l : Look K) :
    (d.budget l : K) ≤ max 1 (1000 * d.left l) := by
  unfold budget
  push_cast
  exact max_le_max_left 1 (Int.floor_le _)

theorem budget_le_budget (ordered : l.later ≤ l'.later) : d.budget l' ≤ d.budget l := by
  have left : d.left l' ≤ d.left l := max_le_max_left 0 (sub_le_sub_left ordered d.expiresAt)
  exact max_le_max_left 1 (Int.floor_le_floor (mul_le_mul_of_nonneg_left left (by norm_num)))

/-- Up to the first look at which the deadline is reached less and less time is left, and at no look
from this one on the deadline is ahead again. -/
theorem looks_split (d : Deadline K) {looks : List (Look K)}
    (ordered : (looks.flatMap Look.readings).Pairwise (· ≤ ·)) :
    ∃ passed late, looks = passed ++ late ∧ (∀ l ∈ passed, l.now < d.expiresAt) ∧
      (passed.map d.budget).Pairwise (· ≥ ·) ∧ ∀ l ∈ late, d.expiresAt ≤ l.now := by
  induction looks with
  | nil => exact ⟨[], [], rfl, nofun, .nil, nofun⟩
  | cons l looks ih =>
    rw [List.flatMap_cons, List.pairwise_append] at ordered
    obtain ⟨-, later, follows⟩ := ordered
    have reading (l' : Look K) (member : l' ∈ looks) : l.now ≤ l'.now ∧ l.later ≤ l'.later := by
      have listed (r : K) (read : r ∈ l'.readings) : r ∈ looks.flatMap Look.readings :=
        List.mem_flatMap.mpr ⟨l', member, read⟩
      exact ⟨follows _ (by simp [Look.readings]) _ (listed _ (by simp [Look.readings])),
        follows _ (by simp [Look.readings]) _ (listed _ (by simp [Look.readings]))⟩
    -- Once a look comes too late, so do all that follow it, since the clock is never set back.
    rcases le_or_gt d.expiresAt l.now with expired | unexpired
    · refine ⟨[], l :: looks, rfl, nofun, .nil, fun l' member => ?_⟩
      rcases List.mem_cons.mp member with rfl | member
      · exact expired
      · exact expired.trans (reading l' member).1
    · obtain ⟨passed, late, rfl, ahead, shrinks, reached⟩ := ih later
      refine ⟨l :: passed, late, rfl, ?_, ?_, reached⟩
      · rintro l' (_ | ⟨_, member⟩)
        · exact unexpired
        · exact ahead l' member
      · rw [List.map_cons, List.pairwise_cons]
        refine ⟨fun n member => ?_, shrinks⟩
        obtain ⟨l', listed, rfl⟩ := List.mem_map.mp member
        exact budget_le_budget (reading l' (List.mem_append_left _ listed)).2

/-- A deadline of any finite number of seconds can be set, and whatever looks are taken at it in the
order of time: those before it is reached pass and set one limit each, to the milliseconds that are
left but at least one, so that the limits never grow; the rest, from the first that finds it reached,
are refused. -/
theorem looks_shrink (timeout : Number) {seconds : ℚ} (finite : timeout.value? = some seconds)
    (start : K) (nested : Bool) {looks : List (Look K)}
    (ordered : (looks.flatMap Look.readings).Pairwise (· ≤ ·)) :
    ∃ d : Deadline K, start? start (some timeout) = .ok (some d) ∧
      d.expiresAt = start + seconds ∧ ∃ passed late, looks = passed ++ late ∧
        (∀ l ∈ passed, l.now < d.expiresAt ∧ d.looked nested l = .ok [.limit (d.budget l)] ∧
          1 ≤ d.budget l ∧ (d.budget l : K) ≤ max 1 (1000 * d.left l)) ∧
        (passed.map d.budget).Pairwise (· ≥ ·) ∧
        ∀ l ∈ late, d.expiresAt ≤ l.now ∧
          d.looked nested l = .error (.refused (d.exceeded l.step)) := by
  let d : Deadline K := ⟨timeout, start + seconds⟩
  have granted : Seconds.ofNumber timeout = .ok (seconds : K) := by
    change (match timeout.value? with | some q => _ | none => _) = _
    rw [finite]
  have started : start? start (some timeout) = .ok (some d) := by
    change (Seconds.ofNumber timeout).bind _ = _
    rw [granted]
    rfl
  obtain ⟨passed, late, split, ahead, shrinks, reached⟩ := d.looks_split ordered
  refine ⟨d, started, rfl, passed, late, split, fun l member => ?_, shrinks, fun l member => ?_⟩
  · exact ⟨ahead l member, looked_of_not_expired (ahead l member), le_max_left _ _, budget_le d l⟩
  · exact ⟨reached l member, looked_of_expired (reached l member)⟩

/-- Two seconds: the second look finds them nearly over, and the clock runs past them before the time
that is left is taken. The third look is refused. -/
theorem looks_shrink_twoSeconds :
    (Number.int 2).value? = some 2 ∧
    (([⟨"PR read", 0, 1 / 2⟩, ⟨"PR update", 19 / 10, 21 / 10⟩, ⟨"PR read", 3, 3⟩] :
      List (Look ℚ)).flatMap Look.readings).Pairwise (· ≤ ·) ∧
    ∃ d : Deadline ℚ, start? 0 (some (.int 2)) = .ok (some d) ∧
      d.expiresAt = 0 + (2 : ℚ) ∧ ∃ passed late,
        [⟨"PR read", 0, 1 / 2⟩, ⟨"PR update", 19 / 10, 21 / 10⟩, ⟨"PR read", 3, 3⟩] = passed ++ late ∧
        (∀ l ∈ passed, l.now < d.expiresAt ∧ d.looked false l = .ok [.limit (d.budget l)] ∧
          1 ≤ d.budget l ∧ (d.budget l : ℚ) ≤ max 1 (1000 * d.left l)) ∧
        (passed.map d.budget).Pairwise (· ≥ ·) ∧
        ∀ l ∈ late, d.expiresAt ≤ l.now ∧
          d.looked false l = .error (.refused (d.exceeded l.step)) := by
  have finite : (Number.int 2).value? = some 2 := rfl
  have ordered : (([⟨"PR read", 0, 1 / 2⟩, ⟨"PR update", 19 / 10, 21 / 10⟩, ⟨"PR read", 3, 3⟩] :
      List (Look ℚ)).flatMap Look.readings).Pairwise (· ≤ ·) := by decide +kernel
  exact ⟨finite, ordered, looks_shrink (.int 2) finite 0 false ordered⟩

end Exact

/-! ### Rounded seconds -/

end Deadline

namespace Binary64

theorem times_ne_nan {x : Binary64} (number : x ≠ nan) (k : ℕ) : x.times k ≠ nan := by
  cases x with
  | finite s m q =>
    unfold times
    dsimp only
    split
    · exact nofun
    · exact ofRatio_ne_nan _ _ _
  | infinite s => exact nofun
  | nan => exact absurd rfl number

theorem isFinite_times {x : Binary64} (finite : x.IsFinite) (small : |x.value| < 2 ^ (1013 : ℤ)) :
    (x.times 1000).IsFinite := by
  cases x with
  | finite s m q =>
    have magnitude : |(Binary64.finite s m q).value| = m * 2 ^ q := by
      cases s <;> simp [value, signed, abs_mul]
    rw [magnitude] at small
    unfold times
    dsimp only
    split
    · exact trivial
    · refine isFinite_ofRatio s (by positivity) ?_
      have ratio : ((m * 1000 * 2 ^ q.toNat : ℕ) : ℚ) / (2 ^ (-q).toNat : ℕ) =
          1000 * (m * 2 ^ q) := by
        rw [two_zpow]
        push_cast
        ring
      rw [ratio]
      calc (1000 : ℚ) * (m * 2 ^ q) < 1000 * 2 ^ (1013 : ℤ) := by gcongr
        _ ≤ 2 ^ 10 * 2 ^ (1013 : ℤ) := by gcongr; norm_num
        _ = 2 ^ (1023 : ℤ) := two_pow_mul_zpow 10 1013
  | _ => cases finite

/-- The fault of a time whose milliseconds are beyond all numbers. -/
def unbounded : Failure := .fault ⟨.overflow, "cannot convert float infinity to integer"⟩

theorem millis_of_isFinite {x : Binary64} (bounded : (x.times 1000).IsFinite) :
    ∃ n, x.millis = .ok n := by
  unfold millis
  cases product : x.times 1000 with
  | finite s m q => exact ⟨_, rfl⟩
  | _ =>
    rw [product] at bounded
    cases bounded

theorem millis_of_not_isFinite {x : Binary64} (number : x ≠ nan)
    (exceeds : ¬(x.times 1000).IsFinite) : x.millis = .error unbounded := by
  unfold millis
  cases product : x.times 1000 with
  | finite s m q =>
    rw [product] at exceeds
    exact absurd trivial exceeds
  | infinite s => rfl
  | nan => exact absurd product (times_ne_nan number 1000)

end Binary64

namespace Deadline

open Binary64 (unbounded millis_of_isFinite millis_of_not_isFinite isFinite_times)

theorem remaining_ne_nan (d : Deadline Binary64) (later : Binary64) : d.remaining later ≠ .nan := by
  unfold remaining
  dsimp only
  split
  · rename_i positive
    intro undefined
    rw [undefined] at positive
    cases positive
  · exact nofun

/-- A check is refused once the deadline is reached. Before, it passes unless it has to set a limit
of more milliseconds than there are numbers for. -/
theorem check_cases (d : Deadline Binary64) (link : Link) (step : String) (now later : Binary64) :
    (d.Expired now ∧ check (some d) link step now later = .error (.refused (d.exceeded step))) ∨
    (¬d.Expired now ∧ ¬(link.takesDirectives = true ∧ ¬((d.remaining later).times 1000).IsFinite) ∧
      ∃ ds, check (some d) link step now later = .ok ds) ∨
    (¬d.Expired now ∧ (link.takesDirectives = true ∧ ¬((d.remaining later).times 1000).IsFinite) ∧
      check (some d) link step now later = .error unbounded) := by
  by_cases expired : d.Expired now
  · exact .inl ⟨expired, if_pos expired⟩
  have limits : check (some d) link step now later = link.limit (d.remaining later).millis :=
    if_neg expired
  rw [limits]
  unfold Link.limit
  by_cases takes : link.takesDirectives = true
  · rw [if_pos takes]
    by_cases bounded : ((d.remaining later).times 1000).IsFinite
    · obtain ⟨n, counted⟩ := millis_of_isFinite bounded
      exact .inr (.inl ⟨expired, fun ⟨_, exceeds⟩ => exceeds bounded, _, by rw [counted]; rfl⟩)
    · have fault := millis_of_not_isFinite (d.remaining_ne_nan later) bounded
      exact .inr (.inr ⟨expired, ⟨takes, bounded⟩, by rw [fault]; rfl⟩)
  · exact .inr (.inl ⟨expired, fun ⟨takes', _⟩ => takes takes', _, if_neg takes⟩)

/-- Whatever number of seconds is granted, an infinity and no number among them, the deadline can be
set, and a check of it passes, or is refused because the deadline is reached, or fails because the
milliseconds that are left are beyond all numbers. The last happens only where a limit is to be set,
and never with less than `2 ^ 1013` seconds left. -/
theorem check_unbounded_iff (timeout : Option Binary64) (start now later : Binary64) (link : Link)
    (step : String) :
    ∃ d, start? start (timeout.map .float) = .ok d ∧
      ((∃ ds, check d link step now later = .ok ds) ∨
        (∃ e, d = some e ∧ e.Expired now ∧
          check d link step now later = .error (.refused (e.exceeded step))) ∨
        check d link step now later = .error unbounded) ∧
      (check d link step now later = .error unbounded ↔ ∃ e, d = some e ∧ ¬e.Expired now ∧
        link.takesDirectives = true ∧ ¬((e.remaining later).times 1000).IsFinite) ∧
      ∀ e, d = some e → ¬((e.remaining later).times 1000).IsFinite →
        (e.remaining later).IsFinite → 2 ^ (1013 : ℤ) ≤ |(e.remaining later).value| := by
  cases timeout with
  | none => exact ⟨none, rfl, .inl ⟨[], rfl⟩, ⟨nofun, nofun⟩, nofun⟩
  | some timeout =>
    let d : Deadline Binary64 := ⟨.float timeout, start + timeout⟩
    refine ⟨some d, rfl, ?_, ?_, fun e same exceeds finite => ?_⟩
    · rcases d.check_cases link step now later with
        ⟨expired, refused⟩ | ⟨-, -, passes⟩ | ⟨-, -, fault⟩
      · exact .inr (.inl ⟨d, rfl, expired, refused⟩)
      · exact .inl passes
      · exact .inr (.inr fault)
    · constructor
      · intro fault
        rcases d.check_cases link step now later with ⟨-, refused⟩ | ⟨-, -, ds, passes⟩ |
          ⟨unexpired, ⟨takes, exceeds⟩, -⟩
        · cases refused.symm.trans fault
        · cases passes.symm.trans fault
        · exact ⟨d, rfl, unexpired, takes, exceeds⟩
      · rintro ⟨e, ⟨⟩, unexpired, takes, exceeds⟩
        rcases d.check_cases link step now later with ⟨expired, -⟩ | ⟨-, bounded, -⟩ | ⟨-, -, fault⟩
        · exact absurd expired unexpired
        · exact absurd ⟨takes, exceeds⟩ bounded
        · exact fault
    · by_contra small
      exact exceeds (isFinite_times finite (not_le.mp small))

/-- Not every number of seconds that the settings accept leaves checks with no other failure than
the refusal: of `10 ^ 306` seconds the limit cannot be written down. -/
theorem check_overflows : ¬∀ (env : Environment) (settings : Settings),
    Settings.ofEnvironment env = .ok settings →
      ∀ (start now later : Binary64) (link : Link) (step : String),
        ∃ d, start? start (settings.operationTimeout.map .float) = .ok d ∧
          ((∃ ds, check d link step now later = .ok ds) ∨
            ∃ e, d = some e ∧ check d link step now later = .error (.refused (e.exceeded step))) := by
  intro settled
  have accepted : ∃ settings, Settings.ofEnvironment [("OPERATION_TIMEOUT_SECONDS", "1e306")] =
      .ok settings ∧ settings.operationTimeout = some (.ofDecimal false 1 306) :=
    ⟨_, rfl, by decide +kernel⟩
  obtain ⟨settings, read, granted⟩ := accepted
  obtain ⟨d, started, result⟩ := settled _ settings read (.zero false) (.zero false) (.zero false)
    ⟨"postgresql", true, false⟩ "PR read"
  rw [granted] at started
  cases started
  have fault : check (some (⟨.float (.ofDecimal false 1 306),
      .zero false + .ofDecimal false 1 306⟩ : Deadline Binary64)) ⟨"postgresql", true, false⟩
      "PR read" (.zero false) (.zero false) = .error unbounded := by decide +kernel
  rcases result with ⟨ds, passes⟩ | ⟨e, -, refused⟩
  · cases passes.symm.trans fault
  · cases refused.symm.trans fault

end Deadline

end ReviewRota
