import Mathlib.Data.List.Nodup
import ReviewRota.Desk.Teams
import ReviewRota.Proofs.Desk.Overview
import ReviewRota.Proofs.Interleaving.Whole

/-!
# Foundings from end to end, and the rosters

A team is founded unless one of its name is stored. Its members are written one after the other,
each moved out of the team it was in, so that every user is in one team at most: the rosters of all
teams divide the users who are in a team among them, however the rosters are read.
-/

namespace ReviewRota

namespace Tables

variable {t : Tables}

/-! ### Members -/

/-- Of the members that are listed under one id the last one is stored. -/
theorem user?_founded_last {name : String} {before after : List Member} {m : Member}
    (last : m.id ∉ after.map Member.id) :
    (t.founded name (before ++ m :: after)).user? m.id = some (m.row name) := by
  have later : (after.map (Member.row · name)).reverse.find? (fun r => r.id = m.id) = none := by
    simpa [List.find?_eq_none, Member.row] using last
  rw [user?_founded, List.map_append, List.map_cons, List.reverse_append, List.reverse_cons,
    List.append_assoc, List.find?_append, later]
  simp [Member.row]

theorem user?_founded_unlisted {name : String} {members : List Member} {id : String}
    (unlisted : id ∉ members.map Member.id) :
    (t.founded name members).user? id = t.user? id := by
  have absent : (members.map (Member.row · name)).reverse.find? (fun r => r.id = id) = none := by
    simpa [List.find?_eq_none, Member.row] using unlisted
  rw [user?_founded, absent, Option.none_or]

@[simp] theorem pullRequests_founded (t : Tables) (name : String) (members : List Member) :
    (t.founded name members).pullRequests = t.pullRequests := by
  have enrolled (u : Tables) : (members.foldl (fun t m =>
      t.upsert ⟨m.id, m.username, some name, m.active⟩) u).pullRequests = u.pullRequests := by
    induction members generalizing u with
    | nil => rfl
    | cons m ms ih => exact (ih _).trans (pullRequests_upsert u _)
  exact enrolled (t.addTeam name)

/-! ### Rosters -/

theorem map_member_usersOf (t : Tables) (team : Option String) :
    (t.usersOf team).map UserRow.member =
      Roster.ordered ((t.users.filter fun u => u.team = team).map UserRow.member) :=
  List.map_mergeSort fun _ _ _ _ => rfl

theorem rosters_eq (t : Tables) : t.rosters =
    (t.teams.mergeSort fun a b => decide (a ≤ b)).map fun name =>
      ⟨name, (t.usersOf (some name)).map UserRow.member⟩ := by
  simp only [rosters, teamsInOrder, map_member_usersOf]

theorem perm_names_rosters (t : Tables) : (t.rosters.map TeamRoster.name).Perm t.teams := by
  have names : t.rosters.map TeamRoster.name = t.teams.mergeSort fun a b => decide (a ≤ b) := by
    rw [rosters, List.map_map]
    exact List.map_id _
  rw [names]
  exact List.mergeSort_perm _ _

theorem nodup_users (keyed : t.Keyed) : t.users.Nodup := .of_map _ keyed.users

theorem nodup_usersOf (keyed : t.Keyed) (team : Option String) : (t.usersOf team).Nodup :=
  (List.mergeSort_perm _ _).nodup_iff.mpr ((nodup_users keyed).filter _)

theorem perm_flatMap_usersOf (keyed : t.Keyed) (linked : t.Linked) {names : List String}
    (all : names.Perm t.teams) :
    (names.flatMap fun name => t.usersOf (some name)).Perm
      (t.users.filter fun u => u.team.isSome) := by
  have once : (names.flatMap fun name => t.usersOf (some name)).Nodup := by
    refine List.nodup_flatMap.mpr ⟨fun name _ => nodup_usersOf keyed _, ?_⟩
    refine (all.nodup_iff.mpr keyed.teams).imp fun {a b} differ u first second => differ ?_
    exact Option.some.inj ((mem_usersOf.mp first).2.symm.trans (mem_usersOf.mp second).2)
  refine (List.perm_ext_iff_of_nodup once ((nodup_users keyed).filter _)).mpr fun u => ?_
  simp only [List.mem_flatMap, mem_usersOf, List.mem_filter, Option.isSome_iff_exists]
  constructor
  · rintro ⟨name, -, stored, member⟩
    exact ⟨stored, name, member⟩
  · rintro ⟨stored, name, member⟩
    exact ⟨name, all.mem_iff.mpr (linked.1 u stored name member), stored, member⟩

theorem perm_members_rosters (keyed : t.Keyed) (linked : t.Linked) :
    (t.rosters.flatMap TeamRoster.members).Perm
      ((t.users.filter fun u => u.team.isSome).map UserRow.member) := by
  have members : t.rosters.flatMap TeamRoster.members =
      ((t.teams.mergeSort fun a b => decide (a ≤ b)).flatMap fun name =>
        t.usersOf (some name)).map UserRow.member := by
    rw [rosters_eq, List.flatMap_map, List.map_flatMap]
  rw [members]
  exact (perm_flatMap_usersOf keyed linked (List.mergeSort_perm _ _)).map _

theorem nodup_members_rosters (keyed : t.Keyed) (linked : t.Linked) :
    ((t.rosters.flatMap TeamRoster.members).map Member.id).Nodup := by
  rw [((perm_members_rosters keyed linked).map Member.id).nodup_iff, List.map_map]
  exact keyed.users.sublist (List.filter_sublist.map UserRow.id)

theorem disjoint_rosters (keyed : t.Keyed) (linked : t.Linked) :
    t.rosters.Pairwise fun a b => (a.members.map Member.id).Disjoint (b.members.map Member.id) := by
  have once := nodup_members_rosters keyed linked
  rw [List.map_flatMap] at once
  exact (List.nodup_flatMap.mp once).2

end Tables

namespace Teams

variable {w : World} {name : Value} {key : String}

/-- What a read of a team with so many users finds. -/
def found (name : Value) (us : List UserRow) : Except Failure (List Member) :=
  if us.isEmpty then .error (.refused (missing name)) else .ok (us.map UserRow.member)

theorem get_ends (unspoiled : w.spoiled = false) (column : name.column = .ok (some key)) :
    (get name).Ends w (found name (w.tables.usersOf (some key))) w.tables := by
  let v := w.log (.reached (.port .teamGet))
  have read : (Users.selectTeam name).Ends v (do return w.tables.usersOf (← name.column))
      w.tables := .read (w := v) unspoiled _ _
  rw [column] at read
  unfold found
  by_cases nobody : (w.tables.usersOf (some key)).isEmpty
  · rw [if_pos nobody]
    refine .port_refused _ (.bind read fun j => ?_)
    rw [if_pos nobody]
    exact .refuse _
  · rw [if_neg nobody]
    refine .port _ (.bind read fun j => ?_)
    rw [if_neg nobody]
    exact .pure _

end Teams

namespace Desk

variable {w : World} {name : Value} {key : String}

theorem getTeam_ensures (resting : w.Resting) (column : name.column = .ok (some key))
    (timeout : Option Number) : ((getTeam name).act timeout).Ensures w
      (Operation.InTime timeout w.tables fun r t =>
        r = (Teams.found name (w.tables.usersOf (some key))).map
          (fun members => ⟨name, members.map Member.draft⟩) ∧ t = w.tables) := by
  refine Operation.ensures_steps_inTime rfl fun d stops => ?_
  show (getTeamPlan name).Ensures d w _
  refine .check stops
    (.call_reads (c := .teamGet name) (r := Teams.found name (w.tables.usersOf (some key)))
      resting.unspoiled (fun v unspoiled same => ?_) ?_)
  · exact same ▸ Teams.get_ends unspoiled column
  · cases Teams.found name (w.tables.usersOf (some key)) <;> exact .done (.inl ⟨rfl, rfl⟩)

/-- The rosters divide the users who are in a team among the teams, and each of them is what is
read of its team. -/
structure Divides (w : World) (rosters : List TeamRoster) : Prop where
  names : (rosters.map TeamRoster.name).Perm w.tables.teams
  disjoint : rosters.Pairwise fun a b =>
    (a.members.map Member.id).Disjoint (b.members.map Member.id)
  once : ((rosters.flatMap TeamRoster.members).map Member.id).Nodup
  members : (rosters.flatMap TeamRoster.members).Perm
    ((w.tables.users.filter fun u => u.team.isSome).map UserRow.member)
  listed : ∀ r ∈ rosters, ∃ us, ((Users.ofTeam r.name).run w).1 = .ok us ∧
    (∀ u ∈ us, u ∈ w.tables.users ∧ u.team = some r.name) ∧ r.members = us.map UserRow.member
  read : ∀ r ∈ rosters, r.members ≠ [] →
    ((getTeam r.name).act none .none w).1 = .ok ⟨r.name, r.members.map Member.draft⟩

theorem divides_rosters (resting : w.Resting) (keyed : w.tables.Keyed) :
    Divides w w.tables.rosters where
  names := Tables.perm_names_rosters _
  disjoint := Tables.disjoint_rosters keyed resting.linked
  once := Tables.nodup_members_rosters keyed resting.linked
  members := Tables.perm_members_rosters keyed resting.linked
  listed := by
    intro r member
    rw [Tables.rosters_eq] at member
    obtain ⟨name, -, rfl⟩ := List.mem_map.mp member
    obtain ⟨j, run⟩ := Users.ofTeam_ends_listed resting.unspoiled name
    refine ⟨w.tables.usersOf (some name), ?_, fun u of => Tables.mem_usersOf.mp of, rfl⟩
    rw [Act.run, run]
    exact Users.listed_of_column (Value.column_plain name)
  read := by
    intro r member nonempty
    rw [Tables.rosters_eq] at member
    obtain ⟨name, -, rfl⟩ := List.mem_map.mp member
    obtain ⟨r, t, j, c, run, ends⟩ :=
      getTeam_ensures resting (Value.column_plain name) none w.journal w.clock
    obtain ⟨rfl, -⟩ := ends.of_none
    replace run : (getTeam name).act none .none w = _ := run
    have somebody : ¬(w.tables.usersOf (some name)).isEmpty := by simpa using nonempty
    rw [run, Teams.found, if_neg somebody]
    rfl

/-! ### Founding -/

inductive Founding (t : Tables) (name : Value) (key : String) (members : List Member) :
    Except Failure Team → Tables → Prop
  | taken (stored : t.HasTeam key) : Founding t name key members (.error (.refuse .teamExists)) t
  | founded (fresh : ¬t.HasTeam key) : Founding t name key members
      (.ok ⟨name, (Roster.ordered members).map Member.draft⟩) (t.founded key members)

theorem mapM_draft_entries (drafts : List MemberDraft) :
    (drafts.map MemberEntry.ofDraft).mapM MemberEntry.draft = .ok drafts := by
  induction drafts with
  | nil => rfl
  | cons m ms ih =>
    rw [List.map_cons, List.mapM_cons, ih]
    rfl

theorem createTeam_ensures (resting : w.Resting) (column : name.column = .ok (some key))
    (members : List Member) (timeout : Option Number) :
    ((createTeam name (members.map fun m => .ofDraft m.draft)).act timeout).Ensures w
      (Operation.InTime timeout w.tables (Founding w.tables name key members)) := by
  refine Operation.ensures_steps_inTime rfl fun d stops => ?_
  have entries : (members.map fun m => MemberEntry.ofDraft m.draft).mapM MemberEntry.draft =
      .ok (members.map Member.draft) := by
    rw [← mapM_draft_entries, List.map_map]
    rfl
  show (createTeamPlan name (members.map fun m => .ofDraft m.draft)).Ensures d w _
  unfold createTeamPlan
  rw [entries]
  refine .check stops ?_
  let drafts := members.map Member.draft
  by_cases stored : w.tables.HasTeam key
  · refine .call_ends (r := .error (.refused (Teams.taken name))) (t := w.tables) (fun j c => ?_)
      (.done (.inl (.taken stored)))
    exact Teams.create_ends_taken (w := { w with journal := j, clock := c }) (t := ⟨name, drafts⟩)
      resting.unspoiled column stored
  · refine .call_ends (c := .teamCreate ⟨name, drafts⟩)
      (r := .ok ⟨name, (Roster.ordered members).map Member.draft⟩)
      (t := w.tables.founded key members) (fun j c => ?_) (.done (.inl (.founded stored)))
    exact Teams.create_ends_founded (w := { w with journal := j, clock := c }) resting.unspoiled
      (fun _ => resting.linked) column stored members

/-- What the founding of a team answers and leaves behind. -/
structure Founds (w : World) (name : String) (members : List Member)
    (outcome : Except Failure Team × World) : Prop where
  answer : outcome.1 = .ok ⟨name, (Roster.ordered members).map Member.draft⟩
  teams : outcome.2.tables.teams = w.tables.teams ++ [name]
  /-- Of the entries with one id the last one counts. -/
  listed : ∀ before m after, members = before ++ m :: after → m.id ∉ after.map Member.id →
    outcome.2.tables.user? m.id = some (m.row name)
  unlisted : ∀ id ∉ members.map Member.id, outcome.2.tables.user? id = w.tables.user? id
  pullRequests : outcome.2.tables.pullRequests = w.tables.pullRequests
  keyed : outcome.2.tables.Keyed

/-- Whatever has gone before, a team is founded unless one of its name is stored, and the rosters
divide the users who are in a team. -/
theorem createTeam_iff (db : Interleaving.Database) (now : Timestamp)
    (moves : List Interleaving.Move) :
    let w := ((Interleaving.State.start db now).run moves).world
    (∀ (name : String) (members : List Member),
      let outcome := (createTeam name (members.map fun m => .ofDraft m.draft)).act none .none w
      (outcome.1 = .error (.refuse .teamExists) ↔ w.tables.HasTeam name) ∧
        (w.tables.HasTeam name → outcome.2.tables = w.tables) ∧
        (¬w.tables.HasTeam name → Founds w name members outcome)) ∧
      ∃ rosters, (Teams.list.run w).1 = .ok rosters ∧ Divides w rosters := by
  intro w
  have consistent := (Interleaving.State.consistent_start db now).run moves
  refine ⟨fun name members => ?_, w.tables.rosters, ?_,
    divides_rosters consistent.resting consistent.keyed⟩
  · have keyed := (createTeam name (members.map fun m => .ofDraft m.draft)).keeps_keyed none w
      consistent.keyed
    intro outcome
    obtain ⟨r, t, j, c, run, ends⟩ := createTeam_ensures consistent.resting
      (Value.column_plain name) members none w.journal w.clock
    replace ends := ends.of_none
    replace run : outcome = (r, { w with tables := t, journal := j, clock := c }) := run
    replace keyed : outcome.2.tables.Keyed := keyed
    rw [run] at keyed ⊢
    cases ends with
    | taken stored =>
      exact ⟨⟨fun _ => stored, fun _ => rfl⟩, fun _ => rfl, fun fresh => absurd stored fresh⟩
    | founded fresh =>
      refine ⟨⟨nofun, fun stored => absurd stored fresh⟩, fun stored => absurd stored fresh,
        fun _ => ⟨rfl, Tables.teams_founded _ _ _, ?_, fun id => Tables.user?_founded_unlisted,
          Tables.pullRequests_founded _ _ _, keyed⟩⟩
      rintro before m after rfl last
      exact Tables.user?_founded_last last
  · obtain ⟨j, run⟩ := Teams.list_ends consistent.resting.unspoiled
    rw [Act.run, run]

/-- The name of a member that cannot be written keeps a team from being founded, though no team of
its name is stored. -/
theorem createTeam_unwritable :
    let w := ((Interleaving.State.start .empty default).run []).world
    let entry : MemberEntry := .ofDraft ⟨"u1", .text (.broken [0xd800]), .bool true⟩
    let outcome := (createTeam "core" [entry]).act none .none w
    ¬w.tables.HasTeam "core" ∧ outcome.1 = .error (Text.unwritable [0xd800]) ∧
      ¬outcome.2.tables.HasTeam "core" := by
  intro w entry outcome
  have fails : outcome.1 = .error (Text.unwritable [0xd800]) := rfl
  have unchanged : outcome.2.tables = {} := rfl
  refine ⟨by decide, fails, ?_⟩
  rw [unchanged]
  decide

end Desk

end ReviewRota
