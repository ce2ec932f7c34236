import ReviewRota.Proofs.Desk.Creation
import ReviewRota.Proofs.Interleaving.Growth
import ReviewRota.Proofs.Store.Teams

/-!
# Attempts

Requests that are to create the same thing compete for it. One that comes to its insertion finds the
key free and writes its rows, or it finds the key taken and changes nothing. Both are told by the
tables before the insertion.
-/

namespace ReviewRota

/-! ### Prizes -/

/-- What requests compete for: an id of pull requests or a name of teams. -/
inductive Prize where
  | pullRequest (id : String)
  | team (name : String)

namespace Prize

/-- The request is to create it. -/
def SoughtBy : Prize → Desk.Command → Prop
  | pullRequest id, .createPullRequest target _ _ => target.column = .ok (some id)
  | team name, .createTeam target _ => target.column = .ok (some name)
  | _, _ => False

def IsIn : Prize → Tables → Prop
  | pullRequest id, t => (t.pullRequest? id).isSome
  | team name, t => t.HasTeam name

instance (prize : Prize) (command : Desk.Command) : Decidable (prize.SoughtBy command) :=
  match prize with
  | pullRequest id =>
    match command with
    | .createPullRequest target _ _ =>
      inferInstanceAs (Decidable (target.column = .ok (some id)))
    | .createTeam .. | .getTeam _ | .deactivateTeam _ | .setUserActive .. | .reviewAssignments _
    | .merge _ | .reassign .. | .overview => inferInstanceAs (Decidable False)
  | team name =>
    match command with
    | .createTeam target _ => inferInstanceAs (Decidable (target.column = .ok (some name)))
    | .createPullRequest .. | .getTeam _ | .deactivateTeam _ | .setUserActive ..
    | .reviewAssignments _ | .merge _ | .reassign .. | .overview =>
      inferInstanceAs (Decidable False)

/-- What those are told who come too late. -/
def refusal : Prize → Failure
  | pullRequest _ => .refuse .pullRequestExists
  | team _ => .refuse .teamExists

variable {prize : Prize} {t u : Tables} {command : Desk.Command}

theorem IsIn.grows (isIn : prize.IsIn t) (grows : t.Grows u) : prize.IsIn u := by
  cases prize with
  | pullRequest id =>
    obtain ⟨p, stored⟩ := Option.isSome_iff_exists.mp isIn
    have same := (Tables.pullRequest?_mem stored).2
    obtain ⟨q, later, -⟩ := grows.pullRequests p (same ▸ stored)
    exact Option.isSome_iff_exists.mpr ⟨q, same ▸ later⟩
  | team name => exact grows.teams name isIn

theorem refusal_eq (sought : prize.SoughtBy command) :
    prize.refusal = .refuse command.existence := by
  cases prize <;> cases command <;> first | rfl | exact sought.elim

theorem SoughtBy.creates (sought : prize.SoughtBy command) : command.Creates := by
  cases prize <;> cases command <;> trivial

end Prize

/-- What the request brings can be stored: the name of a pull request is a text without stray
surrogates, and the members of a team have the declared types. -/
def Desk.Command.Storable : Desk.Command → Prop
  | .createPullRequest _ name _ => ∃ title, name.column = .ok (some title)
  | .createTeam _ entries => ∀ drafts, entries.mapM Desk.MemberEntry.draft = .ok drafts →
      ∃ members : List Member, drafts = members.map Member.draft
  | _ => True

namespace Interleaving

/-! ### Attempts -/

/-- The call of the entry inserted the pull request that its request asks for, and answered with
what it wrote. -/
structure Entry.Opens (e : Entry) (row : PullRequestRow) : Prop where
  asked : ∃ id name author, e.command = .createPullRequest id name author ∧
    id.column = .ok (some row.id) ∧ name.column = .ok (some row.name) ∧
    author.column = .ok (some row.author) ∧
    e.exchange = ⟨.pullRequestCreate (Desk.opened id name author row.reviewers row.createdAt),
      .ok (Desk.opened id name author row.reviewers row.createdAt)⟩
  opened : row.status = Status.opened ∧ row.mergedAt = none ∧ row.version = 1
  fresh : e.before.pullRequest? row.id = none
  after : e.after = e.before.addPullRequest row

structure Entry.Founds (e : Entry) (name : String) (members : List Member) : Prop where
  asked : ∃ target entries, e.command = .createTeam target entries ∧
    target.column = .ok (some name) ∧
    entries.mapM Desk.MemberEntry.draft = .ok (members.map Member.draft) ∧
    e.exchange = ⟨.teamCreate ⟨target, members.map Member.draft⟩,
      .ok ⟨target, (Roster.ordered members).map Member.draft⟩⟩
  fresh : ¬e.before.HasTeam name
  after : e.after = e.before.founded name members

/-- The call of the entry created what was to be won. -/
def Entry.Wins (e : Entry) : Prize → Prop
  | .pullRequest id => ∃ row, row.id = id ∧ e.Opens row
  | .team name => ∃ members, e.Founds name members

/-- The call of the entry found the key taken and left everything as it was. -/
structure Entry.Loses (e : Entry) (prize : Prize) : Prop where
  taken : prize.IsIn e.before
  refused : ∃ f, e.command.insertion? e.exchange = some (.error f) ∧ f.IsExistence
  after : e.after = e.before

namespace Entry.Wins

variable {e : Entry} {prize : Prize}

theorem not_isIn (wins : e.Wins prize) : ¬prize.IsIn e.before := by
  cases prize with
  | pullRequest id =>
    obtain ⟨row, rfl, opens⟩ := wins
    simp [Prize.IsIn, opens.fresh]
  | team name =>
    obtain ⟨members, founds⟩ := wins
    exact founds.fresh

theorem isIn (wins : e.Wins prize) : prize.IsIn e.after := by
  cases prize with
  | pullRequest id =>
    obtain ⟨row, rfl, opens⟩ := wins
    simp [Prize.IsIn, opens.after, Tables.pullRequest?_addPullRequest opens.fresh, opens.fresh]
  | team name =>
    obtain ⟨members, founds⟩ := wins
    simp [Prize.IsIn, Tables.HasTeam, founds.after]

theorem inserted (wins : e.Wins prize) :
    ∃ a, e.command.insertion? e.exchange = some (.ok a) := by
  obtain ⟨client, command, history, exchange, before, after⟩ := e
  cases prize with
  | pullRequest id =>
    obtain ⟨row, -, opens⟩ := wins
    obtain ⟨id, name, author, rfl, -, -, -, rfl⟩ := opens.asked
    exact ⟨_, rfl⟩
  | team name =>
    obtain ⟨members, founds⟩ := wins
    obtain ⟨target, entries, rfl, -, -, rfl⟩ := founds.asked
    exact ⟨_, rfl⟩

end Entry.Wins

section

variable {w v : World} {command : Desk.Command} {xs : List Exchange} {prize : Prize} {n : Nat}

theorem attempt_of_create {transactional : Bool} (resting : w.Resting) {id name author : Value}
    {q : PullRequest} {r : Except Failure PullRequest}
    (prepares : (Desk.Command.createPullRequest id name author).Prepares xs (.pullRequestCreate q))
    (known : ∀ x ∈ xs, x.Knows w.tables)
    (sought : prize.SoughtBy (.createPullRequest id name author))
    (storable : (Desk.Command.createPullRequest id name author).Storable)
    (run : (PullRequests.create q).enclosed transactional .none w = (r, v)) :
    let e : Entry := ⟨n, .createPullRequest id name author, xs, ⟨.pullRequestCreate q, r⟩, w.tables,
      v.tables⟩
    e.Wins prize ∨ e.Loses prize := by
  obtain ⟨u, team, roster, limit, now, read, listed, rfl⟩ := prepares
  obtain ⟨title, named⟩ := storable
  -- The author was read before, and users who were stored once are stored from then on.
  obtain ⟨written, stored⟩ : author.column = .ok (some u.id) ∧ w.tables.HasUser u.id :=
    known _ read
  cases prize with
  | team name => exact sought.elim
  | pullRequest key =>
    let reviewers := Roster.pick (roster.map UserRow.member) author.string? limit
    let row : PullRequestRow := ⟨⟨key, title, u.id, Status.opened, now, none, 1⟩, reviewers⟩
    have spells : PullRequests.Spells (Desk.opened id name author reviewers now) row :=
      ⟨sought, named, written, rfl, rfl, rfl, rfl⟩
    have fit := resting.fit transactional
    cases found : w.tables.pullRequest? key with
    | some p =>
      have isIn : (w.tables.pullRequest? key).isSome := by simp [found]
      obtain ⟨j, ends⟩ := PullRequests.create_enclosed_taken fit spells rfl isIn
      obtain ⟨rfl, rfl⟩ := Prod.mk.inj (run.symm.trans ends)
      exact .inr ⟨isIn, ⟨_, rfl, rfl⟩, rfl⟩
    | none =>
      have members (r : String) (chosen : r ∈ reviewers) : w.tables.HasUser r := by
        obtain ⟨m, member, rfl⟩ := Roster.mem_pick chosen
        obtain ⟨u, listing, rfl⟩ := List.mem_map.mp member
        exact (show ∀ u ∈ roster, w.tables.HasUser u.id from known _ listed) u listing
      obtain ⟨j, ends⟩ := PullRequests.create_enclosed_placed fit spells rfl found
        (Roster.taken_pick _ _ _).distinct (resting.linked.addPullRequest stored members)
      obtain ⟨rfl, rfl⟩ := Prod.mk.inj (run.symm.trans ends)
      exact .inl ⟨row, rfl, ⟨id, name, author, rfl, sought, named, written, rfl⟩, ⟨rfl, rfl, rfl⟩,
        found, rfl⟩

theorem attempt_of_found (resting : w.Resting) {name : Value} {entries : List Desk.MemberEntry}
    {t : Team} {r : Except Failure Team}
    (prepares : (Desk.Command.createTeam name entries).Prepares xs (.teamCreate t))
    (sought : prize.SoughtBy (.createTeam name entries))
    (storable : (Desk.Command.createTeam name entries).Storable)
    (run : Teams.create t .none w = (r, v)) :
    let e : Entry := ⟨n, .createTeam name entries, xs, ⟨.teamCreate t, r⟩, w.tables, v.tables⟩
    e.Wins prize ∨ e.Loses prize := by
  obtain ⟨drafts, drafted, rfl⟩ := prepares
  obtain ⟨members, rfl⟩ := storable drafts drafted
  cases prize with
  | pullRequest id => exact sought.elim
  | team key =>
    by_cases has : w.tables.HasTeam key
    · obtain ⟨j, ends⟩ := Teams.create_ends_taken (t := ⟨name, members.map Member.draft⟩)
        resting.unspoiled sought has
      obtain ⟨rfl, rfl⟩ := Prod.mk.inj (run.symm.trans ends)
      exact .inr ⟨has, ⟨_, rfl, rfl⟩, rfl⟩
    · obtain ⟨j, ends⟩ := Teams.create_ends_founded resting.unspoiled (fun _ => resting.linked)
        sought has members
      obtain ⟨rfl, rfl⟩ := Prod.mk.inj (run.symm.trans ends)
      exact .inl ⟨members, ⟨name, entries, rfl, sought, drafted, rfl⟩, has, rfl⟩

/-- A request that comes to its insertion wins or loses. -/
theorem attempt_of_call (resting : w.Resting) {c : Call} {r : Except Failure c.Result}
    (prepares : command.Prepares xs c) (known : ∀ x ∈ xs, x.Knows w.tables)
    (sought : prize.SoughtBy command) (storable : command.Storable)
    (inserts : command.Inserts c)
    (run : c.act.enclosed command.operation.transactional .none w = (r, v)) :
    let e : Entry := ⟨n, command, xs, ⟨c, r⟩, w.tables, v.tables⟩
    e.Wins prize ∨ e.Loses prize := by
  cases command with
  | createTeam name entries =>
    cases c with
    | teamCreate t => exact attempt_of_found resting prepares sought storable run
    | _ => exact inserts.elim
  | createPullRequest id name author =>
    cases c with
    | pullRequestCreate q => exact attempt_of_create resting prepares known sought storable run
    | _ => exact inserts.elim
  | _ => exact inserts.elim

end

end Interleaving

end ReviewRota
