import ReviewRota.Json.Parser

/-!
# Internet addresses in brackets

A host in brackets is an address of the sixth version, with a zone behind a percent sign perhaps, or
one of a version to come. Addresses of the fourth version are told apart so that they can be
refused in words of their own.
-/

namespace ReviewRota.IpAddress

def pieces (separator : Char) : List Char → List (List Char)
  | [] => [[]]
  | c :: cs =>
    if c = separator then [] :: pieces separator cs
    else
      match pieces separator cs with
      | [] => [[c]]
      | piece :: rest => (c :: piece) :: rest

/-- A number below 256 in decimal, without zeros in front. -/
def isOctet (cs : List Char) : Bool :=
  !cs.isEmpty && cs.all Char.isDigit && cs.length ≤ 3 && (cs = ['0'] || cs.head? ≠ some '0') &&
    Numeral.number cs ≤ 255

def isVersion4 (cs : List Char) : Bool :=
  let octets := pieces '.' cs
  octets.length = 4 && octets.all isOctet

def isGroup (cs : List Char) : Bool :=
  !cs.isEmpty && cs.length ≤ 4 && cs.all (fun c => (Json.hexValue? c).isSome)

/-- Groups between colons, an address of the fourth version standing for the last two. -/
def groups? (cs : List Char) : Option (List (List Char)) :=
  let parts := pieces ':' cs
  match parts.getLast? with
  | some last =>
    if parts.length < 3 then none
    else if last.contains '.' then
      if isVersion4 last then some (parts.dropLast ++ [['0'], ['0']]) else none
    else some parts
  | none => none

/-- Eight groups, or fewer around one double colon, which is an empty group inside or two at an
end. -/
def wellGrouped (parts : List (List Char)) : Bool :=
  let inner := (parts.drop 1).dropLast
  let first := (parts.head?.getD []).isEmpty
  let last := (parts.getLast?.getD []).isEmpty
  if parts.length > 9 then false
  else
    match (inner.filter List.isEmpty).length with
    | 0 => parts.length = 8 && parts.all isGroup
    | 1 =>
      let before := (inner.takeWhile (fun p => !p.isEmpty)).length
      let after := inner.length - before - 1
      let filled := parts.filter (fun p => !p.isEmpty)
      (!first || before = 0) && (!last || after = 0) && filled.length ≤ 7 && filled.all isGroup
    | _ => false

def isVersion6 (cs : List Char) : Bool :=
  let address := cs.takeWhile (· ≠ '%')
  let zone := (cs.dropWhile (· ≠ '%')).drop 1
  let zoned := !cs.contains '%' || (!zone.isEmpty && !zone.contains '%')
  zoned &&
    match groups? address with
    | some parts => wellGrouped parts
    | none => false

/-- The letter, a hexadecimal version, a point, and something more. -/
def isFuture : List Char → Bool
  | 'v' :: cs =>
    let version := cs.takeWhile (fun c => (Json.hexValue? c).isSome)
    match cs.dropWhile (fun c => (Json.hexValue? c).isSome) with
    | '.' :: rest => !version.isEmpty && !rest.isEmpty && !rest.contains '\n'
    | _ => false
  | _ => false

end ReviewRota.IpAddress
