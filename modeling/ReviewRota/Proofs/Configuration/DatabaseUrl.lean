import Mathlib.Data.List.Basic
import Mathlib.Data.List.TakeWhile
import ReviewRota.Configuration.Settings

/-!
# Database URLs from their parts

A URL that is put together from a user, a password, a host, a port and a name is taken apart into
the same five, although a password may hold the signs that stand around it: the host has no `@`, so
the last one is where the credentials end, and the user has no colon, so the first one is where the
user ends.
-/

namespace ReviewRota

namespace DatabaseUrl

variable {separator : Char} {cs front rest : List Char}

/-! ### Cutting at a separator -/

theorem forall_ne_of_notMem (absent : separator ∉ cs) :
    ∀ c ∈ cs, decide (c ≠ separator) = true := fun _ member =>
  decide_eq_true (ne_of_mem_of_not_mem member absent)

theorem cut_of_notMem (absent : separator ∉ cs) : cut separator cs = (cs, none) := by
  simp only [cut, List.dropWhile_eq_nil_iff.mpr (forall_ne_of_notMem absent)]

theorem cut_append (absent : separator ∉ front) :
    cut separator (front ++ separator :: rest) = (front, some rest) := by
  have others := forall_ne_of_notMem absent
  rw [cut, List.dropWhile_append_of_pos others, List.takeWhile_append_of_pos others]
  simp

theorem cutLast_append (absent : separator ∉ rest) :
    cutLast separator (front ++ separator :: rest) = (some front, rest) := by
  have mirrored : (front ++ separator :: rest).reverse =
      rest.reverse ++ separator :: front.reverse := by simp
  rw [cutLast, mirrored, cut_append (by simpa using absent)]
  simp

/-! ### Characters -/

def IsVisible (c : Char) : Prop := 33 ≤ c.toNat ∧ c.toNat ≤ 126

instance (c : Char) : Decidable (IsVisible c) := inferInstanceAs (Decidable (_ ∧ _))

theorem cleaned_eq_self (visible : ∀ c ∈ cs, IsVisible c) : cleaned cs = cs := by
  have kept : cs.dropWhile (fun c => c.toNat ≤ 32) = cs := by
    cases cs with
    | nil => rfl
    | cons c cs =>
      have first : ¬c.toNat ≤ 32 := by
        have := (visible c (by simp)).1
        omega
      simp [first]
  rw [cleaned, kept, List.filter_eq_self]
  intro c member
  obtain ⟨low, -⟩ := visible c member
  have differs {d : Char} (blank : d.toNat < 33) : c ≠ d := by
    rintro rfl
    omega
  simp [differs (d := '\t') (by decide), differs (d := '\r') (by decide),
    differs (d := '\n') (by decide)]

theorem checkMisleading_of_visible (visible : ∀ c ∈ cs, IsVisible c) :
    checkMisleading cs = .ok () := by
  have plain : ¬cs.any (Case.within misleading) := by
    simp only [List.any_eq_true, not_exists, not_and]
    intro c member within
    have high := (visible c member).2
    have low : ∀ r ∈ misleading, 126 < r.1 := by decide
    obtain ⟨r, listed, bounds⟩ := List.any_eq_true.mp within
    have := low r listed
    simp only [Bool.and_eq_true, decide_eq_true_eq] at bounds
    omega
  rw [checkMisleading, if_neg plain]

theorem lower_eq_self (lowerCase : ∀ c ∈ cs, IsVisible c ∧ c.isUpper = false) :
    Case.lower (String.ofList cs) = String.ofList cs := by
  have each (before : List Char) : Case.lowerFrom before cs = cs := by
    induction cs generalizing before with
    | nil => rfl
    | cons c cs ih =>
      obtain ⟨⟨⟨-, high⟩, small⟩, later⟩ := List.forall_mem_cons.mp lowerCase
      have ascii : c.toNat < 128 := by omega
      have latin : c ≠ 'Σ' := by
        rintro rfl
        revert ascii
        decide
      have kept : c.toLower = c := by
        unfold Char.toLower
        rw [dif_neg (of_decide_eq_false small)]
      simp [Case.lowerFrom, Case.lowerChar, latin, ascii, kept, ih later]
  rw [Case.lower, String.toList_ofList, each]

/-! ### Ports -/

theorem isVisible_of_isDigit {c : Char} (digit : c.isDigit = true) : IsVisible c := by
  obtain ⟨low, high⟩ := Char.isDigit_iff_toNat.mp digit
  exact ⟨low.trans' (by decide), high.trans (by decide)⟩

theorem toList_toString (n : Nat) : (toString n).toList = Nat.toDigits 10 n := Nat.toList_repr

theorem isDigit_of_mem_toString {n : Nat} {c : Char} (member : c ∈ (toString n).toList) :
    c.isDigit = true := by
  rw [toList_toString] at member
  exact Nat.isDigit_of_mem_toDigits (by decide) (by decide) member

theorem port?_toString {n : Nat} (bound : n ≤ 65535) :
    port? (toString n).toList = .ok (some n) := by
  have digits : (toString n).toList.all Char.isDigit = true :=
    List.all_eq_true.mpr fun _ => isDigit_of_mem_toString
  have value : Numeral.number (Nat.toDigits 10 n) = n :=
    Nat.ofDigitChars_toDigits (by decide) (by decide)
  rw [toList_toString] at digits ⊢
  simp [port?, digits, value, Nat.toDigits_ne_nil, bound]

/-! ### Parts -/

/-- The parts that a URL is put together from. -/
structure Parts where
  user : String
  password : String
  host : String
  port : Nat
  name : String

namespace Parts

def login (p : Parts) : String := p.user ++ ":" ++ p.password

def place (p : Parts) : String := p.host ++ ":" ++ toString p.port

def authority (p : Parts) : String := p.login ++ "@" ++ p.place

def url (p : Parts) : String := "postgresql://" ++ p.authority ++ "/" ++ p.name

/-- The parts are written with visible characters, and each without the signs that would end it. A
password may have colons and at signs. -/
structure Legible (p : Parts) : Prop where
  user : ∀ c ∈ p.user.toList, IsVisible c ∧ c ∉ [':', '/', '?', '#', '[', ']']
  password : ∀ c ∈ p.password.toList, IsVisible c ∧ c ∉ ['/', '?', '#', '[', ']']
  host : ∀ c ∈ p.host.toList,
    (IsVisible c ∧ c.isUpper = false) ∧ c ∉ ['@', ':', '/', '?', '#', '[', ']', '%']
  port : 1 ≤ p.port ∧ p.port ≤ 65535
  name : ∀ c ∈ p.name.toList, IsVisible c ∧ c ∉ ['?', '#']
  relative : p.name.toList.head? ≠ some '/'

/-- A host that may stand in front of a port: a name, or in brackets an address that goes there. -/
inductive IsHost : List Char → Prop where
  | name {cs : List Char}
      (plain : ∀ c ∈ cs, IsVisible c ∧ c ∉ ['@', ':', '/', '?', '#', '[', ']']) : IsHost cs
  | address {cs : List Char} (plain : ∀ c ∈ cs, IsVisible c ∧ c ∉ ['@', '/', '?', '#', '[', ']'])
      (fits : checkBrackets ('[' :: (cs ++ [']'])) = .ok ()) : IsHost ('[' :: (cs ++ [']']))

/-- No part has a sign that would end it. Unlike in legible parts the host may have capital letters,
a percent sign, or the colons of an address. -/
structure Parted (p : Parts) : Prop where
  user : ∀ c ∈ p.user.toList, IsVisible c ∧ c ∉ [':', '/', '?', '#', '[', ']']
  password : ∀ c ∈ p.password.toList, IsVisible c ∧ c ∉ ['/', '?', '#', '[', ']']
  host : IsHost p.host.toList
  port : p.port ≤ 65535
  name : ∀ c ∈ p.name.toList, IsVisible c ∧ c ∉ ['?', '#']
  relative : p.name.toList.head? ≠ some '/'

theorem toList_login (p : Parts) :
    p.login.toList = p.user.toList ++ ':' :: p.password.toList := by
  simp [login]

theorem toList_place (p : Parts) :
    p.place.toList = p.host.toList ++ ':' :: (toString p.port).toList := by
  simp [place]

theorem toList_authority (p : Parts) :
    p.authority.toList = p.login.toList ++ '@' :: p.place.toList := by
  simp [authority]

theorem toList_url (p : Parts) : p.url.toList =
    "postgresql".toList ++ ':' :: '/' :: '/' :: (p.authority.toList ++ '/' :: p.name.toList) := by
  simp [url]

theorem notMem_place_of_notMem_host {p : Parts} {c : Char} (host : c ∉ p.host.toList)
    (colon : c ≠ ':') (digit : c.isDigit = false) : c ∉ p.place.toList := by
  rw [toList_place, List.mem_append, List.mem_cons, not_or, not_or]
  refine ⟨host, colon, fun inside => ?_⟩
  exact Bool.noConfusion (digit.symm.trans (isDigit_of_mem_toString inside))

theorem Legible.parted {p : Parts} (legible : p.Legible) : p.Parted where
  user := legible.user
  password := legible.password
  host := .name fun c inside =>
    ⟨(legible.host c inside).1.1,
      fun sign => (legible.host c inside).2 (List.mem_append_left ['%'] sign)⟩
  port := legible.port.2
  name := legible.name
  relative := legible.relative

namespace IsHost

theorem visible (host : IsHost cs) : ∀ c ∈ cs, IsVisible c := by
  cases host with
  | name plain => exact fun c inside => (plain c inside).1
  | address plain =>
    intro c inside
    simp only [List.mem_cons, List.mem_append, List.not_mem_nil, or_false] at inside
    obtain rfl | inside | rfl := inside
    · decide
    · exact (plain c inside).1
    · decide

theorem notMem (host : IsHost cs) {c : Char} (sign : c ∈ ['@', '/', '?', '#']) : c ∉ cs := by
  have apart : ∀ c ∈ ['@', '/', '?', '#'], c ≠ '[' ∧ c ≠ ']' ∧
      c ∈ ['@', ':', '/', '?', '#', '[', ']'] ∧ c ∈ ['@', '/', '?', '#', '[', ']'] :=
    List.forall_iff_forall_mem.mp (by decide)
  obtain ⟨left, right, outside, within⟩ := apart c sign
  cases host with
  | name plain => exact fun inside => (plain c inside).2 outside
  | address plain =>
    simp only [List.mem_cons, List.mem_append, List.not_mem_nil, or_false, not_or]
    exact ⟨left, fun inside => (plain c inside).2 within, right⟩

end IsHost

namespace Parted

variable {p : Parts}

theorem notMem_login (parted : p.Parted) {c : Char} (sign : c ∈ ['/', '?', '#', '[', ']']) :
    c ∉ p.login.toList := by
  have apart : ∀ c ∈ ['/', '?', '#', '[', ']'], c ≠ ':' ∧ c ∈ [':', '/', '?', '#', '[', ']'] :=
    List.forall_iff_forall_mem.mp (by decide)
  obtain ⟨colon, excluded⟩ := apart c sign
  simp only [toList_login, List.mem_append, List.mem_cons, not_or]
  exact ⟨fun inside => (parted.user c inside).2 excluded, colon,
    fun inside => (parted.password c inside).2 sign⟩

theorem notMem_place (parted : p.Parted) {c : Char} (sign : c ∈ ['@', '/', '?', '#']) :
    c ∉ p.place.toList := by
  have apart : ∀ c ∈ ['@', '/', '?', '#'], c ≠ ':' ∧ c.isDigit = false :=
    List.forall_iff_forall_mem.mp (by decide)
  obtain ⟨colon, digit⟩ := apart c sign
  exact notMem_place_of_notMem_host (parted.host.notMem sign) colon digit

theorem notMem_authority (parted : p.Parted) {c : Char} (sign : c ∈ ['/', '?', '#']) :
    c ∉ p.authority.toList := by
  have apart : ∀ c ∈ ['/', '?', '#'], c ≠ '@' ∧ c ∈ ['@', '/', '?', '#'] ∧
      c ∈ ['/', '?', '#', '[', ']'] := List.forall_iff_forall_mem.mp (by decide)
  obtain ⟨strudel, outside, within⟩ := apart c sign
  simp only [toList_authority, List.mem_append, List.mem_cons, not_or]
  exact ⟨parted.notMem_login within, strudel, parted.notMem_place outside⟩

theorem visible_authority (parted : p.Parted) : ∀ c ∈ p.authority.toList, IsVisible c := by
  have colon : IsVisible ':' := by decide
  have strudel : IsVisible '@' := by decide
  intro c member
  simp only [toList_authority, toList_login, toList_place, List.mem_append, List.mem_cons]
    at member
  obtain (inside | rfl | inside) | rfl | inside | rfl | inside := member
  · exact (parted.user c inside).1
  · exact colon
  · exact (parted.password c inside).1
  · exact strudel
  · exact parted.host.visible c inside
  · exact colon
  · exact isVisible_of_isDigit (isDigit_of_mem_toString inside)

theorem visible_url (parted : p.Parted) : ∀ c ∈ p.url.toList, IsVisible c := by
  have announced : ∀ c ∈ "postgresql".toList, IsVisible c :=
    List.forall_iff_forall_mem.mp (by decide +kernel)
  have colon : IsVisible ':' := by decide
  have slash : IsVisible '/' := by decide
  intro c member
  simp only [toList_url, List.mem_append, List.mem_cons] at member
  obtain inside | rfl | rfl | rfl | inside | rfl | inside := member
  · exact announced c inside
  · exact colon
  · exact slash
  · exact slash
  · exact parted.visible_authority c inside
  · exact slash
  · exact (parted.name c inside).1

end Parted

end Parts

/-! ### Taking apart -/

variable {p : Parts}

theorem credentials_authority (parted : p.Parted) :
    credentials p.authority.toList = (p.user.toList, p.password.toList) := by
  have last : '@' ∉ p.place.toList := parted.notMem_place (by decide)
  have first : ':' ∉ p.user.toList := fun inside => (parted.user _ inside).2 (by decide)
  rw [credentials, Parts.toList_authority, cutLast_append last]
  simp only [Parts.toList_login, cut_append first, Option.getD_some]

/-- A name is a host as it is written. -/
theorem hostAndPort_of_name (parted : p.Parted) (bare : '[' ∉ p.host.toList)
    (whole : ':' ∉ p.host.toList) :
    hostAndPort p.authority.toList = (p.host.toList, (toString p.port).toList) := by
  have last : '@' ∉ p.place.toList := parted.notMem_place (by decide)
  have bare : '[' ∉ p.place.toList := Parts.notMem_place_of_notMem_host bare (by decide) (by decide)
  rw [hostAndPort, Parts.toList_authority, cutLast_append last]
  simp only [cut_of_notMem bare]
  simp only [Parts.toList_place, cut_append whole, Option.getD_some]

theorem hostAndPort_authority (parted : p.Parted) :
    ∃ host, hostAndPort p.authority.toList = (host, (toString p.port).toList) := by
  generalize written : p.host.toList = hs
  cases written ▸ parted.host with
  | name plain =>
    have bare : '[' ∉ p.host.toList := fun inside => (plain _ (written ▸ inside)).2 (by decide)
    have whole : ':' ∉ p.host.toList := fun inside => (plain _ (written ▸ inside)).2 (by decide)
    exact ⟨_, hostAndPort_of_name parted bare whole⟩
  | @address cs plain =>
    have last : '@' ∉ p.place.toList := parted.notMem_place (by decide)
    have closed : ']' ∉ cs := fun inside => (plain _ inside).2 (by decide)
    have place : p.place.toList =
        [] ++ '[' :: (cs ++ ']' :: ([] ++ ':' :: (toString p.port).toList)) := by
      simp [Parts.toList_place, written]
    refine ⟨cs, ?_⟩
    rw [hostAndPort, Parts.toList_authority, cutLast_append last]
    simp only [place, cut_append List.not_mem_nil, cut_append closed, Option.getD_some]

theorem lowerHost_host (legible : p.Legible) : lowerHost p.host.toList = p.host := by
  have zoneless : '%' ∉ p.host.toList := fun inside => (legible.host _ inside).2 (by decide)
  rw [lowerHost, cut_of_notMem zoneless]
  exact (lower_eq_self fun c inside => (legible.host c inside).1).trans String.ofList_toList

theorem scheme_url (p : Parts) : scheme p.url.toList =
    ("postgresql".toList, '/' :: '/' :: (p.authority.toList ++ '/' :: p.name.toList)) := by
  have letters : ("postgresql".toList.head?.any isLetter) &&
      "postgresql".toList.all isSchemeChar := by decide +kernel
  have small : "postgresql".toList.map Char.toLower = "postgresql".toList := by decide +kernel
  have whole : ':' ∉ "postgresql".toList := by decide +kernel
  rw [scheme, Parts.toList_url, cut_append whole]
  simp only [letters, small, if_true]

theorem authority_append (parted : p.Parted) :
    authority ('/' :: '/' :: (p.authority.toList ++ '/' :: p.name.toList)) =
      (p.authority.toList, '/' :: p.name.toList) := by
  have inside : ∀ c ∈ p.authority.toList, isAuthorityChar c = true := fun c member => by
    have apart {d : Char} (sign : d ∈ ['/', '?', '#']) : c ≠ d := fun same =>
      parted.notMem_authority sign (same ▸ member)
    simp [isAuthorityChar, apart (d := '/'), apart (d := '?'), apart (d := '#')]
  simp [authority, List.takeWhile_append_of_pos inside, List.dropWhile_append_of_pos inside,
    isAuthorityChar]

theorem checkBrackets_of_notMem (left : '[' ∉ cs) (right : ']' ∉ cs) :
    checkBrackets cs = .ok () := by
  simp [checkBrackets, left, right]

theorem checkBrackets_append (left : '[' ∉ front) (closed : ']' ∉ cs) :
    checkBrackets (front ++ '[' :: (cs ++ ']' :: rest)) = checkBrackets ('[' :: (cs ++ [']'])) := by
  have alone : cut '[' ('[' :: (cs ++ [']'])) = ([], some (cs ++ [']'])) :=
    @cut_append '[' [] (cs ++ [']']) List.not_mem_nil
  simp only [checkBrackets, cut_append left, alone, Option.getD_some, cut_append closed]
  simp

theorem checkBrackets_authority (parted : p.Parted) :
    checkBrackets p.authority.toList = .ok () := by
  have left : '[' ∉ p.login.toList := parted.notMem_login (by decide)
  have right : ']' ∉ p.login.toList := parted.notMem_login (by decide)
  generalize written : p.host.toList = hs
  cases written ▸ parted.host with
  | name plain =>
    have outside {c : Char} (sign : c ∈ ['@', ':', '/', '?', '#', '[', ']']) :
        c ∉ p.host.toList := fun inside => (plain c (written ▸ inside)).2 sign
    have opened : '[' ∉ p.place.toList :=
      Parts.notMem_place_of_notMem_host (outside (by decide)) (by decide) (by decide)
    have closed : ']' ∉ p.place.toList :=
      Parts.notMem_place_of_notMem_host (outside (by decide)) (by decide) (by decide)
    exact checkBrackets_of_notMem (by simp [Parts.toList_authority, left, opened])
      (by simp [Parts.toList_authority, right, closed])
  | @address cs plain fits =>
    -- The login has no brackets, so the first ones of the authority are those of the address.
    have closed : ']' ∉ cs := fun inside => (plain _ inside).2 (by decide)
    have front : '[' ∉ p.login.toList ++ ['@'] := by simp [left]
    have split : p.authority.toList = (p.login.toList ++ ['@']) ++ '[' ::
        (cs ++ ']' :: ':' :: (toString p.port).toList) := by
      simp [Parts.toList_authority, Parts.toList_place, written]
    rw [split, checkBrackets_append front closed]
    exact fits

theorem parse_of_parted (parted : p.Parted) {host : List Char}
    (placed : hostAndPort p.authority.toList = (host, (toString p.port).toList)) :
    parse p.url = .ok ⟨p.user, p.password, lowerHost host, some p.port, p.name⟩ := by
  have query : '?' ∉ '/' :: p.name.toList := by
    simpa using fun inside => (parted.name _ inside).2 (by decide)
  have fragment : '#' ∉ '/' :: p.name.toList := by
    simpa using fun inside => (parted.name _ inside).2 (by decide)
  have whole : ¬parameterSchemes.contains "postgresql" := by decide
  have relative : ('/' :: p.name.toList).dropWhile (· = '/') = p.name.toList := by
    have name := parted.relative
    cases split : p.name.toList with
    | nil => rfl
    | cons c cs =>
      have other : c ≠ '/' := by simpa [split] using name
      simp [other]
  simp only [parse, cleaned_eq_self parted.visible_url, scheme_url, authority_append parted,
    checkBrackets_authority parted, checkMisleading_of_visible parted.visible_authority,
    cut_of_notMem fragment, cut_of_notMem query, credentials_authority parted, placed,
    port?_toString parted.port, String.ofList_toList, if_neg whole, relative]
  rfl

/-- A URL that is put together from legible parts is taken apart into them. -/
theorem parse_url (legible : p.Legible) :
    parse p.url = .ok ⟨p.user, p.password, p.host, some p.port, p.name⟩ := by
  have bare : '[' ∉ p.host.toList := fun inside => (legible.host _ inside).2 (by decide)
  have whole : ':' ∉ p.host.toList := fun inside => (legible.host _ inside).2 (by decide)
  rw [parse_of_parted legible.parted (hostAndPort_of_name legible.parted bare whole),
    lowerHost_host legible]

end DatabaseUrl

/-! ### Settings -/

namespace Settings

open DatabaseUrl

/-- With a URL that can be taken apart, and with other variables that can be read, the settings name
the server that the URL stands for, and its limit for statements is the one that the environment
sets. -/
theorem exists_server {address : String} (filled : ¬address.isEmpty) {url : DatabaseUrl}
    (parsed : parse address = .ok url) {env : Environment}
    (given : env.lookup "DATABASE_URL" = some address) {limit reviewers : Int}
    {seconds : Option Binary64}
    (limits : wholeNumber ((env.lookup "DB_STATEMENT_TIMEOUT_MS").getD "5000") = .ok limit)
    (assigns : wholeNumber ((env.lookup "MAX_REVIEWERS_PER_PR").getD "2") = .ok reviewers)
    (grants : optionalDecimal (env.lookup "OPERATION_TIMEOUT_SECONDS") = .ok seconds) :
    ∃ settings, ofEnvironment env = .ok settings ∧ settings.database = .server url limit ∧
      settings.statementTimeout = limit := by
  have server : databaseOf address limit = .ok (.server url limit) := by
    rw [databaseOf, if_neg filled, parsed]
    rfl
  simp only [ofEnvironment, given, Option.getD_some, limits, assigns, grants, bind, Except.bind,
    server]
  exact ⟨_, rfl, rfl, rfl⟩

/-- With the URL of legible parts, and with other variables that can be read, the settings name a
server by these parts, and its limit for statements is the one that the environment sets. -/
theorem server_of_parts {p : Parts} (legible : p.Legible) {env : Environment}
    (given : env.lookup "DATABASE_URL" = some p.url) {limit reviewers : Int}
    {seconds : Option Binary64}
    (limits : wholeNumber ((env.lookup "DB_STATEMENT_TIMEOUT_MS").getD "5000") = .ok limit)
    (assigns : wholeNumber ((env.lookup "MAX_REVIEWERS_PER_PR").getD "2") = .ok reviewers)
    (grants : optionalDecimal (env.lookup "OPERATION_TIMEOUT_SECONDS") = .ok seconds) :
    ∃ settings url, ofEnvironment env = .ok settings ∧ settings.database = .server url limit ∧
      url.user = p.user ∧ url.password = p.password ∧ url.host = p.host ∧
      url.portText = toString p.port ∧ url.name = p.name ∧ settings.statementTimeout = limit ∧
      Database.connectionOptions limit = "-c statement_timeout=" ++ toString limit := by
  have filled : ¬p.url.isEmpty := by simp [Parts.url]
  have port : (⟨p.user, p.password, p.host, some p.port, p.name⟩ : DatabaseUrl).portText =
      toString p.port := by
    obtain ⟨n, positive⟩ := Nat.exists_eq_add_of_le' legible.port.1
    rw [positive]
    rfl
  obtain ⟨settings, read, database, timeout⟩ :=
    exists_server filled (parse_url legible) given limits assigns grants
  exact ⟨settings, _, read, database, rfl, rfl, rfl, port, rfl, timeout, rfl⟩

def devious : Parts := ⟨"rota", "p@ss:w@rd", "db.local", 5432, "reviews"⟩

theorem server_of_parts_devious :
    ∃ settings url, ofEnvironment
        [("DATABASE_URL", "postgresql://rota:p@ss:w@rd@db.local:5432/reviews"),
          ("DB_STATEMENT_TIMEOUT_MS", "750")] = .ok settings ∧
      settings.database = .server url 750 ∧ url.user = "rota" ∧ url.password = "p@ss:w@rd" ∧
      url.host = "db.local" ∧ url.portText = "5432" ∧ url.name = "reviews" := by
  have legible : devious.Legible :=
    ⟨List.forall_iff_forall_mem.mp (by decide +kernel),
      List.forall_iff_forall_mem.mp (by decide +kernel),
      List.forall_iff_forall_mem.mp (by decide +kernel), by decide,
      List.forall_iff_forall_mem.mp (by decide +kernel), by decide +kernel⟩
  let env : Environment := [("DATABASE_URL", devious.url),
    ("DB_STATEMENT_TIMEOUT_MS", "750")]
  have given : env.lookup "DATABASE_URL" = some devious.url := rfl
  have limits : wholeNumber ((env.lookup "DB_STATEMENT_TIMEOUT_MS").getD "5000") = .ok 750 := by
    decide +kernel
  have assigns : wholeNumber ((env.lookup "MAX_REVIEWERS_PER_PR").getD "2") = .ok 2 := by
    decide +kernel
  have grants : optionalDecimal (env.lookup "OPERATION_TIMEOUT_SECONDS") = .ok none := rfl
  obtain ⟨settings, url, read, database, user, password, host, port, name, -⟩ :=
    server_of_parts legible given limits assigns grants
  exact ⟨settings, url, read, database, user, password, host, port, name⟩

end Settings

end ReviewRota
