import ReviewRota.Failure
import ReviewRota.Value.Order

/-!
# Values as columns

A text column takes the text of any value, nothing for null, and no text with stray surrogates. A
flag column takes the truth values, the numbers one and zero, and a few words.
-/

namespace ReviewRota

namespace Text

def isSurrogate (p : Nat) : Bool := 0xd800 ≤ p && p ≤ 0xdfff

/-- Why a text cannot be written: its first run of surrogates. -/
def unwritable (ps : List Nat) : Failure :=
  let start := (ps.takeWhile (fun p => !isSurrogate p)).length
  let run := (ps.drop start).takeWhile isSurrogate
  let place :=
    match run with
    | [p] => " '\\u" ++ String.ofList (Quoted.hex 4 p) ++ "' in position " ++ toString start
    | _ => "s in position " ++ toString start ++ "-" ++ toString (start + run.length - 1)
  .fault ⟨.encoding, "'utf-8' codec can't encode character" ++ place ++
    ": surrogates not allowed"⟩

end Text

namespace Value

/-- The content of a text column, where null stands for none. -/
def column : Value → Except Failure (Option String)
  | null => .ok none
  | v =>
    match v.asText with
    | .plain s => .ok (some s)
    | .broken ps => .error (Text.unwritable ps)

@[simp] theorem column_plain (s : String) : (text (.plain s)).column = .ok (some s) := rfl

@[simp] theorem column_null : null.column = .ok none := rfl

def trueWords : List String := ["t", "True", "1"]

def falseWords : List String := ["f", "False", "0"]

def notBoolean (v : Value) : Failure :=
  let before := "“".toList.map Char.toNat
  let after := "” value must be either True or False.".toList.map Char.toNat
  let message := String.ofList (Quoted.points (before ++ v.asText.points ++ after))
  .fault ⟨.validation, "[" ++ message ++ "]"⟩

/-- The content of a flag column, where null stands for none. -/
def flag (v : Value) : Except Failure (Option Bool) :=
  match v with
  | null => .ok none
  | text t =>
    match t.plain? with
    | some s =>
      if s ∈ trueWords then .ok (some true)
      else if s ∈ falseWords then .ok (some false)
      else .error (notBoolean v)
    | none => .error (notBoolean v)
  | v =>
    if v.same (bool true) then .ok (some true)
    else if v.same (bool false) then .ok (some false)
    else .error (notBoolean v)

end Value

end ReviewRota
