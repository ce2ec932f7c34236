import ReviewRota.Text.Case.Table

/-!
# Upper and lower case of whole texts

Letters map one by one, with the letters that become several, and with the one rule that looks at
neighbours: a capital sigma at the end of a word becomes the final small sigma.
-/

namespace ReviewRota.Case

def Run.covers (r : Run) (point : Nat) : Bool :=
  r.first ≤ point && point ≤ r.last && (point - r.first) % r.step == 0

/-- The code point that a table of runs sends this one to. -/
def shifted (runs : List Run) (point : Nat) : Nat :=
  match runs.find? (·.covers point) with
  | some r => (point + r.shift).toNat
  | none => point

def lowerChar (c : Char) : List Char :=
  if c.toNat < 128 then [c.toLower]
  else if c.toNat = 0x130 then ['i', Char.ofNat 0x307]
  else [Char.ofNat (shifted toLower c.toNat)]

def upperChar (c : Char) : List Char :=
  if c.toNat < 128 then [c.toUpper]
  else
    match toSeveral.lookup c.toNat with
    | some points => points.map Char.ofNat
    | none => [Char.ofNat (shifted toUpper c.toNat)]

def within (ranges : List (Nat × Nat)) (c : Char) : Bool :=
  ranges.any (fun r => r.1 ≤ c.toNat && c.toNat ≤ r.2)

/-- Whether the nearest character that is not passed over is a letter with case. -/
def meetsLetter (cs : List Char) : Bool :=
  match cs.dropWhile (within ignorable) with
  | c :: _ => within cased c
  | [] => false

/-- Lower case of a text, of which `before` is the part already behind, nearest character first. -/
def lowerFrom (before : List Char) : List Char → List Char
  | [] => []
  | c :: cs =>
    let here :=
      if c = 'Σ' then [if meetsLetter before && !meetsLetter cs then 'ς' else 'σ'] else lowerChar c
    here ++ lowerFrom (c :: before) cs

def lower (s : String) : String := String.ofList (lowerFrom [] s.toList)

def upper (s : String) : String := String.ofList (s.toList.flatMap upperChar)

end ReviewRota.Case
