/-!
# Blanks

The white space of Unicode together with the separators of files, groups, records and units.
-/

namespace ReviewRota

def Blank.ranges : List (Nat × Nat) :=
  [(9, 13), (28, 32), (0x85, 0x85), (0xa0, 0xa0), (0x1680, 0x1680), (0x2000, 0x200a),
    (0x2028, 0x2029), (0x202f, 0x202f), (0x205f, 0x205f), (0x3000, 0x3000)]

def isBlank (c : Char) : Bool := Blank.ranges.any (fun r => r.1 ≤ c.toNat && c.toNat ≤ r.2)

/-- A text without the blanks at its two ends. -/
def stripChars (cs : List Char) : List Char :=
  ((cs.dropWhile isBlank).reverse.dropWhile isBlank).reverse

def strip (s : String) : String := String.ofList (stripChars s.toList)

theorem stripChars_eq_self {cs : List Char} (hd : ∀ c ∈ cs.head?, isBlank c = false)
    (tl : ∀ c ∈ cs.getLast?, isBlank c = false) : stripChars cs = cs := by
  have first : cs.dropWhile isBlank = cs := by
    cases cs with
    | nil => rfl
    | cons c cs => simp [hd c (by simp)]
  rw [stripChars, first]
  have last : cs.reverse.dropWhile isBlank = cs.reverse := by
    cases hr : cs.reverse with
    | nil => rfl
    | cons c r =>
      have : cs.getLast? = some c := by
        rw [← List.head?_reverse, hr]; rfl
      simp [tl c (by simp [this])]
  rw [last, List.reverse_reverse]

end ReviewRota
