/-!
# Text with stray surrogates

A JSON document can name any code point by number, a surrogate without its partner too. Such text is
no string: it can be carried and compared but not written to storage. All other text is a string.
-/

namespace ReviewRota

/-- A text is a string, or a sequence of code points of which some are surrogates. -/
inductive Text where
  | plain (s : String)
  | broken (points : List Nat)
  deriving DecidableEq, Inhabited

namespace Text

instance : Coe String Text := ⟨plain⟩

def points : Text → List Nat
  | plain s => s.toList.map Char.toNat
  | broken ps => ps

def ofPoints (ps : List Nat) : Text :=
  if ps.all (fun p => decide p.isValidChar) then plain (String.ofList (ps.map Char.ofNat))
  else broken ps

def isEmpty : Text → Bool
  | plain s => s.isEmpty
  | broken ps => ps.isEmpty

def plain? : Text → Option String
  | plain s => some s
  | broken _ => none

@[simp] theorem plain?_plain (s : String) : (plain s).plain? = some s := rfl

@[simp] theorem plain?_eq_some {t : Text} {s : String} : t.plain? = some s ↔ t = plain s := by
  cases t <;> simp [plain?]

def lt (s t : Text) : Bool := List.lex s.points t.points (· < ·)

end Text

end ReviewRota
