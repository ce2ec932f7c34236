/-!
# UTF-8

Between characters a byte opens a sequence, and then each byte has to lie in a range that depends
on the opening. The reader knows at the first impossible byte that a sequence is broken: strict
reading gives up there, lenient reading puts the replacement character for the broken part and
goes on with that byte. A sequence that the bytes end in is not broken yet. Strict reading, which is
that of a stream, leaves it to the bytes that may still come.
-/

namespace ReviewRota.Utf8

/-- Inside a sequence: how many bytes are owed, the range of the next one, the bits so far. -/
structure Pending where
  owed : Nat
  low : Nat
  high : Nat
  bits : Nat

/-- What a byte opens between characters: a character of its own, a sequence, or nothing. -/
inductive Opening where
  | whole (point : Nat)
  | sequence (p : Pending)
  | impossible

def opening (b : Nat) : Opening :=
  if b ≤ 0x7f then .whole b
  else if 0xc2 ≤ b ∧ b ≤ 0xdf then .sequence ⟨1, 0x80, 0xbf, b - 0xc0⟩
  else if b = 0xe0 then .sequence ⟨2, 0xa0, 0xbf, 0⟩
  else if b = 0xed then .sequence ⟨2, 0x80, 0x9f, 0xd⟩
  else if 0xe1 ≤ b ∧ b ≤ 0xef then .sequence ⟨2, 0x80, 0xbf, b - 0xe0⟩
  else if b = 0xf0 then .sequence ⟨3, 0x90, 0xbf, 0⟩
  else if 0xf1 ≤ b ∧ b ≤ 0xf3 then .sequence ⟨3, 0x80, 0xbf, b - 0xf0⟩
  else if b = 0xf4 then .sequence ⟨3, 0x80, 0x8f, 4⟩
  else .impossible

def replacement : Char := '\ufffd'

/-- Lenient reading with a pending sequence: one replacement character for every maximal part that
cannot be completed. -/
def lenientFrom : Option Pending → List Nat → List Char
  | none, [] => []
  | some _, [] => [replacement]
  | none, b :: bs =>
    match opening b with
    | .whole p => Char.ofNat p :: lenientFrom none bs
    | .sequence p => lenientFrom (some p) bs
    | .impossible => replacement :: lenientFrom none bs
  | some p, b :: bs =>
    if p.low ≤ b ∧ b ≤ p.high then
      let bits := p.bits * 64 + (b - 0x80)
      if p.owed ≤ 1 then Char.ofNat bits :: lenientFrom none bs
      else lenientFrom (some ⟨p.owed - 1, 0x80, 0xbf, bits⟩) bs
    else
      replacement ::
        match opening b with
        | .whole p => Char.ofNat p :: lenientFrom none bs
        | .sequence p => lenientFrom (some p) bs
        | .impossible => replacement :: lenientFrom none bs

def strictFrom : Option Pending → List Nat → Option (List Char)
  | _, [] => some []
  | none, b :: bs =>
    match opening b with
    | .whole p => (strictFrom none bs).map (Char.ofNat p :: ·)
    | .sequence p => strictFrom (some p) bs
    | .impossible => none
  | some p, b :: bs =>
    if p.low ≤ b ∧ b ≤ p.high then
      let bits := p.bits * 64 + (b - 0x80)
      if p.owed ≤ 1 then (strictFrom none bs).map (Char.ofNat bits :: ·)
      else strictFrom (some ⟨p.owed - 1, 0x80, 0xbf, bits⟩) bs
    else none

/-- The text of a stream of bytes up to where a sequence stays open, if no sequence is broken. -/
def decode? (bytes : List Nat) : Option (List Char) := strictFrom none bytes

def decodeLenient (bytes : List Nat) : List Char := lenientFrom none bytes

def encode (cs : List Char) : List Nat :=
  cs.flatMap (fun c => (String.utf8EncodeChar c).map UInt8.toNat)

end ReviewRota.Utf8
