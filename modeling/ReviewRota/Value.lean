import ReviewRota.Number.Shortest
import ReviewRota.Text.Quoted

/-!
# Values

What a document of the interface can hold. Callers may hand in any value where an id or a name is
meant; storage keeps the text of the value, while comparisons in memory look at the value itself.
-/

namespace ReviewRota

inductive Value where
  | null
  | bool (b : Bool)
  | int (i : Int)
  | float (x : Binary64)
  | text (t : Text)
  | list (items : List Value)
  | object (fields : List (Text × Value))
  deriving Inhabited

namespace Value

instance : Coe String Value := ⟨fun s => text (.plain s)⟩

/-- Whether a value counts as not given: nothing, no, zero, or empty. -/
def isMissing : Value → Bool
  | null => true
  | bool b => !b
  | int i => i == 0
  | float x => x.isZero
  | text t => t.isEmpty
  | list items => items.isEmpty
  | object fields => fields.isEmpty

def string? : Value → Option String
  | text t => t.plain?
  | _ => none

@[simp] theorem string?_plain (s : String) : (text (.plain s)).string? = some s := rfl

theorem string?_eq_some {v : Value} {s : String} : v.string? = some s ↔ v = text (.plain s) := by
  cases v <;> simp [string?]

/-- The value under a key of an object; there is none in any other value. -/
def field? (v : Value) (key : String) : Option Value :=
  match v with
  | object fields => fields.lookup (.plain key)
  | _ => none

mutual

/-- A value as it is spelled inside of another one: texts in quotes. -/
def spelled : Value → String
  | null => "None"
  | bool b => if b then "True" else "False"
  | int i => toString i
  | float x => x.text
  | text t => t.quoted
  | list items => "[" ++ ", ".intercalate (spelledItems items) ++ "]"
  | object fields => "\x7b" ++ ", ".intercalate (spelledFields fields) ++ "\x7d"

def spelledItems : List Value → List String
  | [] => []
  | v :: vs => v.spelled :: spelledItems vs

def spelledFields : List (Text × Value) → List String
  | [] => []
  | (key, v) :: fields => (key.quoted ++ ": " ++ v.spelled) :: spelledFields fields

end

/-- The text of a value: a text stands for itself. -/
def asText : Value → Text
  | text t => t
  | v => .plain v.spelled

@[simp] theorem asText_text (t : Text) : (text t).asText = t := rfl

/-- The text of a value inside of a message, where stray surrogates are left out. -/
def message (v : Value) : String :=
  match v.asText with
  | .plain s => s
  | .broken ps => String.ofList ((ps.filter (fun p => decide p.isValidChar)).map Char.ofNat)

@[simp] theorem message_plain (s : String) : (text (.plain s)).message = s := rfl

mutual

/-- Whether a value can be sent: its numbers are finite and its texts are strings. -/
def isSendable : Value → Bool
  | float x => decide x.IsFinite
  | text t => t.plain?.isSome
  | list items => areSendable items
  | object fields => fieldsSendable fields
  | _ => true

def areSendable : List Value → Bool
  | [] => true
  | v :: vs => v.isSendable && areSendable vs

def fieldsSendable : List (Text × Value) → Bool
  | [] => true
  | (key, v) :: fields => key.plain?.isSome && v.isSendable && fieldsSendable fields

end

end Value

end ReviewRota
