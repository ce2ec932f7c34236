import Mathlib
import ReviewRota.Proofs.Desk.Enlisting
import ReviewRota.Proofs.Desk.Ids
import ReviewRota.Proofs.Interleaving.Soundness
import ReviewRota.Proofs.Store.Attaining

/-!
# Who wrote a user last

Name and team of a user are written together, by the creation of a team that lists the user, and the
flag is written with them or alone. A deactivation works through a list that may be old by the time
it writes, but all it writes is flags: whatever comes in between, a user is named and placed by the
last creation and flagged by the last write of all.
-/

namespace ReviewRota

def MemberDraft.row? (team : Value) (m : MemberDraft) : Option UserRow :=
  (do Users.row (Teams.memberOf team m) (← m.active.flag) : Except Failure UserRow).toOption

/-- The row that a team has for an id: that of the last member listed under it. -/
def Team.row? (t : Team) (id : String) : Option UserRow :=
  (t.members.filterMap (MemberDraft.row? t.name)).reverse.find? (fun r => r.id = id)

theorem MemberDraft.filterMap_row? {name : Value} {key : String}
    (column : name.column = .ok (some key)) {ds : List MemberDraft} {ms : List Member}
    (spelled : List.Forall₂ Spells ds ms) :
    ds.filterMap (row? name) = ms.map (Member.row · key) := by
  induction spelled with
  | nil => rfl
  | @cons d m ds ms spells rest ih =>
    have row : Users.Spells (Teams.memberOf name d) (m.row key) :=
      ⟨spells.id, spells.username, column, spells.active⟩
    have stands : d.row? name = some (m.row key) := by
      unfold row?
      rw [spells.active]
      exact congrArg Except.toOption row.row
    rw [List.filterMap_cons, stands, ih, List.map_cons]

theorem Tables.user?_founded_of_spelled {t : Tables} {team : Team} {key : String}
    {members : List Member} (column : team.name.column = .ok (some key))
    (spelled : List.Forall₂ MemberDraft.Spells team.members members) (id : String) :
    (t.founded key members).user? id = (team.row? id).or (t.user? id) := by
  rw [user?_founded, Team.row?, MemberDraft.filterMap_row? column spelled]

namespace Interleaving

namespace Entry

variable {e : Entry} {id : String}

/-- The row that a successful creation of a team wrote for an id. -/
def enrolled? (id : String) (e : Entry) : Option UserRow :=
  match e.exchange with
  | ⟨.teamCreate t, .ok _⟩ => t.row? id
  | _ => none

/-- The flag that a successful call wrote for an id, along with a row or alone. -/
def flagged? (id : String) (e : Entry) : Option Bool :=
  match e.exchange with
  | ⟨.teamCreate t, .ok _⟩ => (t.row? id).map UserRow.active
  | ⟨.userSetActive target active, .ok _⟩ =>
    if target.column = .ok (some id) then active.flag.toOption.join else none
  | _ => none

/-- What a call can do to users and teams: nothing, or what the request of its client asks for. -/
inductive RosterEffect (e : Entry) : Prop
  | kept (call : ¬e.exchange.call.WritesRoster) (users : e.after.users = e.before.users)
      (teams : e.after.teams = e.before.teams)
  | created {name : Value} {entries : List Desk.MemberEntry} {members : List MemberDraft}
      {r : Except Failure Team} (command : e.command = .createTeam name entries)
      (drafted : entries.mapM Desk.MemberEntry.draft = .ok members)
      (called : e.exchange = ⟨.teamCreate ⟨name, members⟩, r⟩)
      (outcome : Teams.CreateOutcome e.before ⟨name, members⟩ r e.after)
  | unset {id active : Value} {f : Failure}
      (asked : e.command.Enlists e.history (.userSetActive id active))
      (called : e.exchange = ⟨.userSetActive id active, .error f⟩) (same : e.after = e.before)
  | set {id active : Value} {u : UserRow}
      (asked : e.command.Enlists e.history (.userSetActive id active))
      (called : e.exchange = ⟨.userSetActive id active, .ok u⟩)
      (activates : Users.Activates id active e.before e.after)

end Entry

/-- A call that its request may make has one of these effects. -/
theorem rosterEffect_of_call {w v : World} {command : Desk.Command} {xs : List Exchange} {c : Call}
    {r : Except Failure c.Result} {n : Nat} (unspoiled : w.spoiled = false)
    (enlists : command.Enlists xs c)
    (run : c.act.enclosed command.operation.transactional .none w = (r, v)) :
    Entry.RosterEffect ⟨n, command, xs, ⟨c, r⟩, w.tables, v.tables⟩ := by
  by_cases writes : c.WritesRoster
  · rw [enlists.untransacted writes] at run
    cases c with
    | teamCreate t =>
      obtain ⟨name, entries, members, rfl, drafted, rfl⟩ := enlists
      exact .created rfl drafted rfl (Teams.create_run unspoiled run)
    | userSetActive id active =>
      obtain ⟨f, rfl, same⟩ | ⟨u, rfl, activates⟩ := Users.setActive_run unspoiled run
      · exact .unset enlists rfl same
      · exact .set enlists rfl activates
    | userCreate | userUpdate => exact enlists.elim
    | _ => exact writes.elim
  · have kept := (Call.keeps_of_pullRequestWrite
      (I := fun t => t.users = w.tables.users ∧ t.teams = w.tables.teams)
      (Interruption.with_none _) (fun _ _ wrote same =>
        ⟨wrote.users.trans same.1, wrote.teams.trans same.2⟩) writes).enclosed
      command.operation.transactional w ⟨rfl, rfl⟩
    rw [run] at kept
    exact .kept writes kept.1 kept.2

/-! ### What an entry leaves -/

/-- Name and team of a user. -/
def placement (u : UserRow) : String × Option String := (u.username, u.team)

namespace Entry

/-- What the entry wrote, and what it left of each user. -/
inductive Leaves (e : Entry) : Prop
  | nothing (enrolled : ∀ id, e.enrolled? id = none) (flagged : ∀ id, e.flagged? id = none)
      (users : e.after.users = e.before.users)
  | rows {t : Team} (enrolled : ∀ id, e.enrolled? id = t.row? id)
      (flagged : ∀ id, e.flagged? id = (t.row? id).map UserRow.active)
      (users : ∀ id, e.after.user? id = (t.row? id).or (e.before.user? id))
  | flag {key : String} {b : Bool} (enrolled : ∀ id, e.enrolled? id = none)
      (flagged : ∀ id, e.flagged? id = if id = key then some b else none)
      (stored : e.before.HasUser key)
      (users : e.after = e.before.modifyUser key fun u => { u with active := b })

variable {e : Entry}

theorem enrolled?_of_not_writesRoster (call : ¬e.exchange.call.WritesRoster) (id : String) :
    e.enrolled? id = none := by
  unfold enrolled?
  split
  · rename_i called
    rw [called] at call
    exact absurd trivial call
  · rfl

theorem flagged?_of_not_writesRoster (call : ¬e.exchange.call.WritesRoster) (id : String) :
    e.flagged? id = none := by
  unfold flagged?
  split
  · rename_i called
    rw [called] at call
    exact absurd trivial call
  · rename_i called
    rw [called] at call
    exact absurd trivial call
  · rfl

/-- A creation that succeeds writes the rows of its team, and an activation a flag. Where the
members of a new team can be put in order, all else writes nothing. -/
theorem RosterEffect.leaves (effect : e.RosterEffect) (orderable : e.command.Orderable) :
    e.Leaves := by
  cases effect with
  | kept call users teams =>
    exact .nothing (enrolled?_of_not_writesRoster call) (flagged?_of_not_writesRoster call) users
  | @created name entries members r command drafted called outcome =>
    rw [command] at orderable
    obtain ⟨sorted, ordered⟩ := orderable members drafted
    generalize after : e.after = u at outcome
    cases outcome with
    | rejected f =>
      refine .nothing (fun id => ?_) (fun id => ?_) (congrArg Tables.users after)
      · rw [enrolled?, called]
      · rw [flagged?, called]
    | founded column fresh spelled answers =>
      obtain ⟨a, rfl⟩ := answers sorted ordered
      refine .rows (t := ⟨name, members⟩) (fun id => ?_) (fun id => ?_) (fun id => ?_)
      · rw [enrolled?, called]
      · rw [flagged?, called]
      · rw [after]
        exact Tables.user?_founded_of_spelled column spelled id
  | unset asked called same =>
    refine .nothing (fun id => ?_) (fun id => ?_) (congrArg Tables.users same)
    · rw [enrolled?, called]
    · rw [flagged?, called]
  | set asked called activates =>
    obtain ⟨key, b, column, flag, stored, after⟩ := activates
    refine .flag (fun id => ?_) (fun id => ?_) stored after
    · rw [enrolled?, called]
    · rw [flagged?, called]
      simp only [column, flag, Except.ok.injEq, Option.some.injEq, eq_comm]
      rfl

variable (leaves : e.Leaves) (id : String)
include leaves

theorem Leaves.placement : (e.after.user? id).map placement =
    ((e.enrolled? id).or (e.before.user? id)).map placement := by
  cases leaves with
  | nothing enrolled flagged users => rw [enrolled, Tables.user?_congr users, Option.none_or]
  | rows enrolled flagged users => rw [users, enrolled]
  | @flag key b enrolled flagged stored users =>
    rw [users, enrolled, Option.none_or, Tables.user?_modifyUser e.before key
      (f := fun u => { u with active := b }) fun _ same => same]
    split
    · rw [Option.map_map]
      rfl
    · rfl

theorem Leaves.active : (e.after.user? id).map UserRow.active =
    (e.flagged? id).or ((e.before.user? id).map UserRow.active) := by
  cases leaves with
  | nothing enrolled flagged users => rw [flagged, Tables.user?_congr users, Option.none_or]
  | rows enrolled flagged users => rw [users, flagged, Option.map_or]
  | @flag key b enrolled flagged stored users =>
    rw [users, flagged, Tables.user?_modifyUser e.before key
      (f := fun u => { u with active := b }) fun _ same => same]
    split
    · rename_i same
      obtain ⟨u, found⟩ := stored.exists_user?
      rw [same, found]
      rfl
    · rfl

end Entry

/-! ### Runs -/

def last? {α : Type} (written : Entry → Option α) (log : List Entry) : Option α :=
  log.reverse.findSome? written

theorem last?_concat {α : Type} (written : Entry → Option α) (log : List Entry) (e : Entry) :
    last? written (log ++ [e]) = (written e).or (last? written log) := by
  rw [last?, List.reverse_append, List.reverse_singleton, List.singleton_append,
    List.findSome?_cons]
  cases written e <;> rfl

/-- Through a log, every user is named and placed as last enrolled and flagged as last written. -/
theorem Chronicle.written_last {t u : Tables} {log : List Entry} (chronicle : Chronicle t log u)
    (leaves : ∀ e ∈ log, e.Leaves) (id : String) :
    (u.user? id).map placement =
        ((last? (Entry.enrolled? id) log).or (t.user? id)).map placement ∧
      (u.user? id).map UserRow.active =
        (last? (Entry.flagged? id) log).or ((t.user? id).map UserRow.active) := by
  induction chronicle with
  | nil => exact ⟨rfl, rfl⟩
  | @snoc log e earlier keyed effect ih =>
    obtain ⟨placed, active⟩ := ih fun e' member => leaves e' (List.mem_append_left _ member)
    have written := leaves e (by simp)
    constructor
    · rw [written.placement, last?_concat, Option.or_assoc, Option.map_or, placed, ← Option.map_or]
    · rw [written.active, last?_concat, Option.or_assoc, active]

/-- The clients keep to what they may write, and every entry had an effect of this kind. -/
structure State.Enlisted (s : State) : Prop where
  clients : ∀ c ∈ s.clients, c.plan.Honours c.command.enlistment c.history
  entries : ∀ e ∈ s.log, e.RosterEffect

namespace State

variable {P : Desk.Command → Prop} {s s' : State}

theorem enlisted_start (db : Database) (now : Timestamp) : (start db now).Enlisted where
  clients _ member := absurd member List.not_mem_nil
  entries _ member := absurd member List.not_mem_nil

theorem Enlisted.change (enlisted : s.Enlisted) (resting : s.world.Resting)
    (change : Change P s s') : s'.Enlisted := by
  cases change with
  | world tables rests => exact ⟨enlisted.clients, enlisted.entries⟩
  | @arrived c arrives begins =>
    refine ⟨fun d member => ?_, enlisted.entries⟩
    rcases List.mem_append.mp member with old | new
    · exact enlisted.clients d old
    · obtain rfl := List.mem_singleton.mp new
      cases begins with
      | started command deadline => exact command.enlists
      | unstarted command e => trivial
  | @passed n c w plan found step =>
    obtain ⟨-, -, honours⟩ := Plan.quiet_of_step step
    refine ⟨fun d member => ?_, enlisted.entries⟩
    rcases List.mem_or_eq_of_mem_set member with old | rfl
    · exact enlisted.clients d old
    · exact honours _ _ (enlisted.clients c (List.mem_of_getElem? found))
  | @called n c call next r v w found head run alike =>
    have honours := enlisted.clients c (List.mem_of_getElem? found)
    rw [head] at honours
    obtain ⟨enlists, continues⟩ := honours
    constructor
    · intro d member
      rcases List.mem_or_eq_of_mem_set member with old | rfl
      · exact enlisted.clients d old
      · exact continues r trivial
    · intro e member
      rcases List.mem_append.mp member with old | new
      · exact enlisted.entries e old
      · have effect := rosterEffect_of_call (n := n) resting.unspoiled enlists run
        rw [← alike.tables] at effect
        exact List.mem_singleton.mp new ▸ effect

theorem Enlisted.run (enlisted : s.Enlisted) (consistent : s.Consistent) (moves : List Move) :
    (s.run moves).Enlisted := by
  induction moves generalizing s with
  | nil => exact enlisted
  | cons m moves ih =>
    exact ih (enlisted.change consistent.resting (s.change_move m)) (consistent.move m).1

/-- What every entry of a run was asked for by a request that has arrived. -/
theorem command_arrives (db : Database) (now : Timestamp) (moves : List Move) {e : Entry}
    (member : e ∈ ((start db now).run moves).log) :
    ∃ timeout, .arrive e.command timeout ∈ moves := by
  have consistent := (consistent_start db now).run moves
  obtain ⟨c, found, command, -⟩ := consistent.entries e member
  rcases arrived_of_mem_clients (List.mem_of_getElem? found) with ⟨d, absent, -⟩ | arrives
  · cases absent
  · exact command ▸ arrives

end State

/-- The entry set the flag of one user at most, for the request that asked for this user, or for a
deactivation that has read the user among the members of its team. -/
structure Entry.Activates (e : Entry) (id active : Value) : Prop where
  asked : e.command = .setUserActive id active ∨ ∃ name us u, e.command = .deactivateTeam name ∧
    ⟨.usersOfTeam name, .ok us⟩ ∈ e.history ∧ u ∈ us ∧ id = .text (.plain u.id) ∧
    active = .bool false
  effect : e.after = e.before ∨ ∃ key b, id.column = .ok (some key) ∧ active.flag = .ok (some b) ∧
    e.after = e.before.modifyUser key fun u => { u with active := b }

theorem Entry.RosterEffect.activates {e : Entry} (effect : e.RosterEffect) {id active : Value}
    {r : Except Failure UserRow} (called : e.exchange = ⟨.userSetActive id active, r⟩) :
    e.Activates id active := by
  cases effect with
  | kept call =>
    rw [called] at call
    exact absurd trivial call
  | created _ _ called' => cases called.symm.trans called'
  | unset asked called' same =>
    cases called.symm.trans called'
    exact ⟨asked, .inl same⟩
  | set asked called' activates =>
    cases called.symm.trans called'
    obtain ⟨key, b, column, flag, -, after⟩ := activates
    exact ⟨asked, .inr ⟨key, b, column, flag, after⟩⟩

theorem Entry.RosterEffect.creates {e : Entry} (effect : e.RosterEffect) {t : Team}
    {r : Except Failure Team} (called : e.exchange = ⟨.teamCreate t, r⟩) :
    ∃ entries, e.command = .createTeam t.name entries ∧
      entries.mapM Desk.MemberEntry.draft = .ok t.members := by
  cases effect with
  | kept call =>
    rw [called] at call
    exact absurd trivial call
  | created command drafted called' outcome =>
    cases called.symm.trans called'
    exact ⟨_, command, drafted⟩
  | unset _ called' => cases called.symm.trans called'
  | set _ called' => cases called.symm.trans called'

/-- Whatever calls have come in between, every user has name and team from the last creation of a
team that listed the user, and the flag of the last write. An activation changes a flag only, and
only that of a user whom its request named or read. -/
theorem last_writes (db : Database) (now : Timestamp) (moves : List Move)
    (orderable : ∀ command timeout, .arrive command timeout ∈ moves → command.Orderable) :
    let s := (State.start db now).run moves
    (∀ id, (s.world.tables.user? id).map placement =
        ((last? (Entry.enrolled? id) s.log).or (db.tables.user? id)).map placement ∧
      (s.world.tables.user? id).map UserRow.active =
        (last? (Entry.flagged? id) s.log).or ((db.tables.user? id).map UserRow.active)) ∧
    ∀ e ∈ s.log,
      (∀ t r, e.exchange = ⟨.teamCreate t, r⟩ → ∃ entries, e.command = .createTeam t.name entries ∧
        entries.mapM Desk.MemberEntry.draft = .ok t.members) ∧
      ∀ id active r, e.exchange = ⟨.userSetActive id active, r⟩ → e.Activates id active := by
  intro s
  have enlisted : s.Enlisted :=
    (State.enlisted_start db now).run (State.consistent_start db now) moves
  have chronicle : Chronicle db.tables s.log s.world.tables := State.chronicle_run db now moves
  have leaves (e : Entry) (member : e ∈ s.log) : e.Leaves := by
    obtain ⟨timeout, arrives⟩ := State.command_arrives db now moves member
    exact (enlisted.entries e member).leaves (orderable e.command timeout arrives)
  refine ⟨chronicle.written_last leaves, fun e member => ⟨?_, ?_⟩⟩
  · exact fun t r called => (enlisted.entries e member).creates called
  · exact fun id active r called => (enlisted.entries e member).activates called

/-! ### A move that overtakes a deactivation -/

/-- A team of two is to be deactivated. After its members are read and one of them is deactivated, a
new team takes the other one over, under a new name. -/
def overtaken : List Move :=
  let entry (id name : Value) : Desk.MemberEntry := ⟨some id, some name, some (.bool true)⟩
  [.arrive (.createTeam "core" [entry "u1" "Ann", entry "u2" "Ben"]) none, .advance 0, .advance 0,
    .arrive (.deactivateTeam "core") none, .advance 1, .advance 1, .advance 1, .advance 1,
    .arrive (.createTeam "late" [entry "u2" "Benno"]) none, .advance 2, .advance 2,
    .advance 1, .advance 1]

theorem orderable_overtaken (command : Desk.Command) (timeout : Option Number)
    (arrives : .arrive command timeout ∈ overtaken) : command.Orderable := by
  have text (s : String) : Value.IsText s := ⟨s, rfl⟩
  apply Desk.Command.orderable_of_texts
  simp only [overtaken, List.mem_cons, Move.arrive.injEq, reduceCtorEq, List.not_mem_nil,
    false_or, or_false] at arrives
  rcases arrives with ⟨rfl, rfl⟩ | ⟨rfl, rfl⟩ | ⟨rfl, rfl⟩ <;> simp [Desk.Command.ids, text]

/-- The write for the member who has left is made all the same: it changes the flag alone. -/
theorem last_writes_overtaken :
    let t := ((State.start .empty default).run overtaken).world.tables
    (t.user? "u1").map placement = some ("Ann", some "core") ∧
      (t.user? "u1").map UserRow.active = some false ∧
      (t.user? "u2").map placement = some ("Benno", some "late") ∧
      (t.user? "u2").map UserRow.active = some false := by
  obtain ⟨writes, -⟩ := last_writes .empty default overtaken orderable_overtaken
  obtain ⟨first, firstActive⟩ := writes "u1"
  obtain ⟨second, secondActive⟩ := writes "u2"
  intro t
  rw [first, firstActive, second, secondActive]
  cbv

/-- The second team is stored, though its request fails: its members cannot be put in order. -/
def unordered : List Move :=
  let entry (id name : Value) : Desk.MemberEntry := ⟨some id, some name, some (.bool true)⟩
  [.arrive (.createTeam "core" [entry "u1" "Ann"]) none, .advance 0, .advance 0,
    .arrive (.createTeam "late" [entry (.int 1) "Bo", entry "u1" "Anna"]) none, .advance 1,
    .advance 1]

theorem unordered_team_moves :
    let s := (State.start .empty default).run unordered
    ¬∀ id, (s.world.tables.user? id).map placement =
      ((last? (Entry.enrolled? id) s.log).or (Database.empty.tables.user? id)).map placement := by
  intro s last
  have moved : (s.world.tables.user? "u1").map placement = some ("Anna", some "late") := by
    decide +kernel
  have enrolled : ((last? (Entry.enrolled? "u1") s.log).or
      (Database.empty.tables.user? "u1")).map placement = some ("Ann", some "core") := by
    decide +kernel
  have same := last "u1"
  rw [moved, enrolled] at same
  exact absurd same (by decide)

end Interleaving

end ReviewRota
