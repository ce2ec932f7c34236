import ReviewRota.Desk.PullRequests
import ReviewRota.Proofs.Desk.Ensuring
import ReviewRota.Proofs.Interleaving.Consistency
import ReviewRota.Proofs.Roster.Selection

/-!
# Creations from end to end

The creation of a pull request looks for reasons to refuse in one order: the id is taken, the author
is unknown, the author has no team. With none of them the pull request is stored, and its reviewers
are the choice from the members that the author's team has at this time.
-/

namespace ReviewRota

/-- A text that cannot be written is not missing. -/
theorem Value.not_isNotFound_of_column {v : Value} {e : Failure} (fails : v.column = .error e) :
    ¬e.IsNotFound := by
  unfold column at fails
  split at fails
  · cases fails
  · split at fails
    · cases fails
    · cases fails
      exact id

theorem PullRequests.absent_of_found {t : Tables} {id : Value} {e : Failure}
    (read : found t id = .error e) (missing : e.IsNotFound) : ∃ content,
      id.column = .ok content ∧ ∀ key ∈ content, t.pullRequest? key = none := by
  cases column : id.column with
  | error f =>
    rw [found, column] at read
    cases read
    exact absurd missing (Value.not_isNotFound_of_column column)
  | ok content =>
    refine ⟨content, rfl, fun key given => ?_⟩
    cases given
    cases stored : t.pullRequest? key with
    | none => rfl
    | some p =>
      obtain rfl := (Tables.pullRequest?_mem stored).2
      rw [found_of_stored column stored] at read
      cases read

theorem Users.found_of_absent {t : Tables} {id : Value} {key : String}
    (column : id.column = .ok (some key)) (absent : t.user? key = none) :
    found t id = .error (.refused (missing id)) := by
  simp [found, column, absent, bind, Except.bind]

namespace Desk

variable {t u : Tables} {id name author : Value} {limit : Int} {now : Timestamp} {team : String}

/-- The reviewers that are chosen from the members of a team. -/
def chosen (t : Tables) (team : String) (author : Value) (limit : Int) : List String :=
  Roster.pick ((t.usersOf (some team)).map UserRow.member) author.string? limit

theorem hasUser_of_chosen {r : String} (member : r ∈ chosen t team author limit) :
    t.HasUser r := by
  obtain ⟨m, listed, rfl⟩ := Roster.mem_pick member
  obtain ⟨u, stored, rfl⟩ := List.mem_map.mp listed
  exact ⟨u, (Tables.mem_usersOf.mp stored).1, rfl⟩

/-- How the creation of a pull request ends, and with which tables. -/
inductive Opening (t : Tables) (id name author : Value) (limit : Int) (now : Timestamp) :
    Except Failure PullRequest → Tables → Prop
  | taken {p : PullRequestRow} (stored : PullRequests.found t id = .ok p) :
      Opening t id name author limit now (.error (.refuse .pullRequestExists)) t
  | unread {e : Failure} (failed : PullRequests.found t id = .error e) (other : ¬e.IsNotFound) :
      Opening t id name author limit now (.error e) t
  | unknown {content : Option String} {e : Failure} (column : id.column = .ok content)
      (fresh : ∀ key ∈ content, t.pullRequest? key = none)
      (failed : Users.found t author = .error e) :
      Opening t id name author limit now (.error e) t
  | teamless {content : Option String} {a : UserRow} (column : id.column = .ok content)
      (fresh : ∀ key ∈ content, t.pullRequest? key = none)
      (known : Users.found t author = .ok a) (teamless : a.team = none) :
      Opening t id name author limit now (.error (.refused (withoutTeam author))) t
  | unwritten {a : UserRow} {team : String} {e : Failure} (known : Users.found t author = .ok a)
      (present : a.team = some team)
      (unwritable : ∀ key title, id.column = .ok (some key) → name.column ≠ .ok (some title)) :
      Opening t id name author limit now (.error e) t
  | opened {key title team : String} {a : UserRow} (column : id.column = .ok (some key))
      (fresh : t.pullRequest? key = none) (named : name.column = .ok (some title))
      (known : Users.found t author = .ok a) (present : a.team = some team) :
      Opening t id name author limit now
        (.ok (Desk.opened id name author (chosen t team author limit) now))
        (t.addPullRequest
          ⟨⟨key, title, a.id, Status.opened, now, none, 1⟩, chosen t team author limit⟩)

namespace Opening

variable {r : Except Failure PullRequest} (ends : Opening t id name author limit now r u)
include ends

theorem unchanged {e : Failure} (failed : r = .error e) : u = t := by
  cases ends with
  | opened => cases failed
  | _ => rfl

theorem opens {key title : String} {a : UserRow} (column : id.column = .ok (some key))
    (fresh : t.pullRequest? key = none) (named : name.column = .ok (some title))
    (known : Users.found t author = .ok a) (present : a.team = some team) :
    r = .ok (Desk.opened id name author (chosen t team author limit) now) ∧
      u = t.addPullRequest
        ⟨⟨key, title, a.id, Status.opened, now, none, 1⟩, chosen t team author limit⟩ := by
  cases ends with
  | taken stored =>
    rw [PullRequests.found_of_absent column fresh] at stored
    cases stored
  | unread failed other =>
    rw [PullRequests.found_of_absent column fresh] at failed
    cases failed
    exact absurd rfl other
  | unknown _ _ failed =>
    rw [known] at failed
    cases failed
  | teamless _ _ known' teamless =>
    cases known.symm.trans known'
    cases present.symm.trans teamless
  | unwritten _ _ unwritable => exact absurd named (unwritable key title column)
  | opened column' _ named' known' present' =>
    cases column.symm.trans column'
    cases named.symm.trans named'
    cases known.symm.trans known'
    cases present.symm.trans present'
    exact ⟨rfl, rfl⟩

end Opening

theorem insertion_ensures {w : World} {d : Option (Deadline Binary64)} {timeout : Option Number}
    {next : Except Failure PullRequest → Plan PullRequest}
    (succeeds : ∀ p, next (.ok p) = .done (.ok p))
    (fails : ∀ e, ∃ f, next (.error e) = .done (.error f))
    {content : Option String} {a : UserRow} (resting : w.Resting) (column : id.column = .ok content)
    (fresh : ∀ key ∈ content, w.tables.pullRequest? key = none)
    (known : Users.found w.tables author = .ok a) (present : a.team = some team) :
    (Plan.call (.pullRequestCreate (opened id name author (chosen w.tables team author limit) now))
      next).Ensures d { w with depth := w.depth + 1 }
      (Act.Ensures.Commits w.tables
        (Operation.InTime timeout w.tables (Opening w.tables id name author limit now))) := by
  obtain ⟨written, stored⟩ := Users.found_eq_ok known
  by_cases writable : ∃ key title, content = some key ∧ name.column = .ok (some title)
  · obtain ⟨key, title, rfl, named⟩ := writable
    let row : PullRequestRow :=
      ⟨⟨key, title, a.id, Status.opened, now, none, 1⟩, chosen w.tables team author limit⟩
    have spells : PullRequests.Spells (opened id name author row.reviewers now) row :=
      ⟨column, named, written, rfl, rfl, rfl, rfl⟩
    have linked : (w.tables.addPullRequest row).Linked :=
      resting.linked.addPullRequest ⟨a, (Tables.user?_mem stored).1, rfl⟩
        fun r member => hasUser_of_chosen member
    refine .call_ends (r := .ok (opened id name author row.reviewers now))
      (t := w.tables.addPullRequest row) (fun j c => ?_) ?_
    · exact PullRequests.create_ends_placed (by exact resting.unspoiled) spells rfl (fresh key rfl)
        (Roster.taken_pick _ _ _).distinct fun _ => linked
    · rw [succeeds]
      exact .done ⟨linked, .inl (.opened column (fresh key rfl) named known present)⟩
  · have unwritable (key title : String) (column' : id.column = .ok (some key)) :
        name.column ≠ .ok (some title) := by
      rw [column] at column'
      exact fun named => writable ⟨key, title, Except.ok.inj column', named⟩
    refine .call (.of_ends fun j c => ?_)
    obtain ⟨r, t, ends, outcome⟩ := PullRequests.create_ends
      (w := { w with depth := w.depth + 1, journal := j, clock := c }) resting.unspoiled
      (p := opened id name author (chosen w.tables team author limit) now) rfl
    refine ⟨r, t, ends, ?_⟩
    cases outcome with
    | rejected e =>
      obtain ⟨f, failed⟩ := fails e
      dsimp only
      rw [failed]
      exact .done (.inl (.unwritten known present unwritable))
    | created _ _ hid hname => exact absurd hname (unwritable _ _ hid)

theorem createPullRequest_ensures {w : World} (resting : w.Resting) (id name author : Value)
    (timeout : Option Number) :
    ((createPullRequest id name author).act timeout).Ensures w (Operation.InTime timeout w.tables
      (Opening w.tables id name author w.preferences.maxReviewers w.now)) := by
  refine Operation.ensures_transaction_inTime rfl resting.unspoiled fun d stops => ?_
  let v : World := { w with depth := w.depth + 1 }
  have unspoiled : v.spoiled = false := resting.unspoiled
  show (createPullRequestPlan id name author).Ensures d v _
  refine .check stops (.pullRequestGet unspoiled ?_)
  cases read : PullRequests.found w.tables id with
  | ok p => exact .done (.inl (.taken read))
  | error e =>
    show Plan.Ensures (if ¬e.IsNotFound then _ else _) d v _
    split
    · exact .done (.inl (.unread read ‹_›))
    rename_i missing
    obtain ⟨content, column, fresh⟩ := PullRequests.absent_of_found read (not_not.mp missing)
    refine .check stops (.userGet unspoiled ?_)
    cases known : Users.found w.tables author with
    | error f => exact .done (.inl (.unknown column fresh known))
    | ok a =>
      dsimp only [Plan.bind]
      split
      · rename_i teamless
        exact .done (.inl (.teamless column fresh known teamless))
      · rename_i team present
        refine .check stops (.usersOfTeam unspoiled ?_)
        rw [Users.listed_of_column (Value.column_plain team)]
        refine .maxReviewers (.now (.check stops ?_))
        show Plan.Ensures (Plan.call (.pullRequestCreate (opened id name author
          (chosen w.tables team author w.preferences.maxReviewers) w.now)) _) d v _
        refine insertion_ensures (fun p => rfl) (fun e => ?_) resting column fresh known present
        show ∃ f, (if e.IsExistence then _ else _) = Plan.done (.error f)
        split <;> exact ⟨_, rfl⟩

/-! ### Which end it comes to -/

/-- Where id, name and author are strings, what is stored decides between four ends. -/
theorem Opening.of_strings {id title author : String} {r : Except Failure PullRequest}
    (ends : Opening t id title author limit now r u) :
    ((∃ p, t.pullRequest? id = some p) ∧ r = .error (.refuse .pullRequestExists) ∧ u = t) ∨
    t.pullRequest? id = none ∧
      (t.user? author = none ∧ r = .error (.refused (Users.missing author)) ∧ u = t ∨
      ∃ a, t.user? author = some a ∧
        (a.team = none ∧ r = .error (.refused (withoutTeam author)) ∧ u = t ∨
        ∃ team, a.team = some team ∧
          r = .ok (Desk.opened id title author (chosen t team author limit) now) ∧
          u = t.addPullRequest
            ⟨⟨id, title, author, Status.opened, now, none, 1⟩, chosen t team author limit⟩)) := by
  have known {a : UserRow} (read : Users.found t author = .ok a) :
      a.id = author ∧ t.user? author = some a := by
    obtain ⟨column, stored⟩ := Users.found_eq_ok read
    cases column
    exact ⟨rfl, stored⟩
  cases ends with
  | taken read =>
    obtain ⟨column, stored⟩ := PullRequests.found_eq_ok read
    cases column
    exact .inl ⟨⟨_, stored⟩, rfl, rfl⟩
  | unread failed other =>
    cases stored : t.pullRequest? id with
    | none =>
      rw [PullRequests.found_of_absent rfl stored] at failed
      cases failed
      exact absurd rfl other
    | some p =>
      obtain rfl := (Tables.pullRequest?_mem stored).2
      rw [PullRequests.found_of_stored rfl stored] at failed
      cases failed
  | unknown column fresh failed =>
    cases column
    refine .inr ⟨fresh id rfl, .inl ?_⟩
    cases stored : t.user? author with
    | none =>
      rw [Users.found_of_absent rfl stored] at failed
      cases failed
      exact ⟨rfl, rfl, rfl⟩
    | some a =>
      rw [Users.found_of_stored rfl stored] at failed
      cases failed
  | teamless column fresh read teamless =>
    cases column
    exact .inr ⟨fresh id rfl, .inr ⟨_, (known read).2, .inl ⟨teamless, rfl, rfl⟩⟩⟩
  | unwritten _ _ unwritable => exact absurd rfl (unwritable id title rfl)
  | opened column fresh named read present =>
    cases column
    cases named
    obtain ⟨rfl, stored⟩ := known read
    exact .inr ⟨fresh, .inr ⟨_, stored, .inr ⟨_, present, rfl, rfl⟩⟩⟩

/-- What a successful creation answers and leaves behind: one more pull request, for which the
policy has chosen among the members of the author's present team, and one more row for each of those
who were chosen, in the order of the choice. -/
structure Adds (w : World) (id title author team : String)
    (outcome : Except Failure PullRequest × World) (p : PullRequestRow) : Prop where
  row : p =
    { id, name := title, author, status := Status.opened
      reviewers := Roster.pick ((w.tables.users.filter fun u => u.team = some team).map
        UserRow.member) (some author) w.preferences.maxReviewers
      createdAt := w.now, mergedAt := none, version := 1 }
  answer : outcome.1 = .ok p.entity
  reread : (PullRequests.get id .none outcome.2).1 = .ok p
  users : outcome.2.tables.users = w.tables.users
  teams : outcome.2.tables.teams = w.tables.teams
  heads : outcome.2.tables.heads = w.tables.heads ++ [p.head]
  assigned : outcome.2.tables.assigned = w.tables.assigned ++ Tables.numbered id 0 p.reviewers
  pullRequests : outcome.2.tables.pullRequests = w.tables.pullRequests ++ [p]

/-- The order in which a team is read has no influence on the choice. -/
theorem chosen_eq (t : Tables) (team author : String) (limit : Int) :
    chosen t team author limit = Roster.pick ((t.users.filter fun u => u.team = some team).map
      UserRow.member) (some author) limit := by
  have same (m : Member) : m ∈ (t.usersOf (some team)).map UserRow.member ↔
      m ∈ (t.users.filter fun u => u.team = some team).map UserRow.member := by
    simp [Tables.mem_usersOf]
  rw [chosen, Value.string?_plain, Roster.pick_eq_take, Roster.pick_eq_take,
    Roster.candidates_congr same]

theorem adds_of_opened {w v : World} {id title author team : String}
    {r : Except Failure PullRequest} (unspoiled : v.spoiled = false) (linked : w.tables.Linked)
    (fresh : w.tables.pullRequest? id = none)
    (answers : r = .ok (Desk.opened id title author
      (chosen w.tables team author w.preferences.maxReviewers) w.now))
    (tables : v.tables = w.tables.addPullRequest ⟨⟨id, title, author, Status.opened, w.now, none, 1⟩,
      chosen w.tables team author w.preferences.maxReviewers⟩) :
    Adds w id title author team (r, v) ⟨⟨id, title, author, Status.opened, w.now, none, 1⟩,
      chosen w.tables team author w.preferences.maxReviewers⟩ where
  row := by rw [chosen_eq]
  answer := answers
  reread := by
    obtain ⟨j, run⟩ := PullRequests.get_ends unspoiled id
    rw [run, tables]
    refine PullRequests.found_of_stored rfl ?_
    rw [Tables.pullRequest?_addPullRequest (by exact fresh), fresh]
    exact if_pos rfl
  users := by rw [tables, Tables.users_addPullRequest]
  teams := by rw [tables, Tables.teams_addPullRequest]
  heads := by rw [tables]; rfl
  assigned := by rw [tables]; exact Tables.assigned_addPullRequest linked (by exact fresh)
  pullRequests := by rw [tables]; exact Tables.pullRequests_addPullRequest (by exact fresh)

/-- Whatever has gone before, a creation without a deadline is refused for the first reason there
is, and otherwise adds the pull request. -/
theorem createPullRequest_iff (db : Interleaving.Database) (now : Timestamp)
    (moves : List Interleaving.Move) (id title author : String) :
    let w := ((Interleaving.State.start db now).run moves).world
    let outcome := (createPullRequest id title author).act none .none w
    (outcome.1 = .error (.refuse .pullRequestExists) ↔ ∃ p, w.tables.pullRequest? id = some p) ∧
      (∀ e, outcome.1 = .error e → outcome.2.tables = w.tables) ∧
      (w.tables.pullRequest? id = none →
        ((∃ e, outcome.1 = .error e ∧ e.IsNotFound) ↔
          w.tables.user? author = none ∨ ∃ a, w.tables.user? author = some a ∧ a.team = none) ∧
        ∀ a team, w.tables.user? author = some a → a.team = some team →
          ∃ p, Adds w id title author team outcome p) := by
  intro w outcome
  have resting : w.Resting := ((Interleaving.State.consistent_start db now).run moves).resting
  clear_value w
  obtain ⟨r, t, j, c, run, ends⟩ :=
    createPullRequest_ensures resting id title author none w.journal w.clock
  replace ends := ends.of_none.of_strings
  replace run : outcome = (r, { w with tables := t, journal := j, clock := c }) := run
  rw [run]
  have exists_iff {e : Failure} (fresh : w.tables.pullRequest? id = none)
      (other : e ≠ .refuse .pullRequestExists) :
      (Except.error e : Except Failure PullRequest) = .error (.refuse .pullRequestExists) ↔
        ∃ p, w.tables.pullRequest? id = some p := by
    simp [fresh, other]
  obtain ⟨⟨p, stored⟩, rfl, rfl⟩ | ⟨fresh, ⟨unknown, rfl, rfl⟩ |
    ⟨a, known, ⟨teamless, rfl, rfl⟩ | ⟨team, present, rfl, rfl⟩⟩⟩ := ends
  · refine ⟨⟨fun _ => ⟨p, stored⟩, fun _ => rfl⟩, fun _ _ => rfl, fun fresh => ?_⟩
    rw [stored] at fresh
    cases fresh
  · refine ⟨exists_iff fresh (by simp [Users.missing, Failure.refuse, Refusal.plain]),
      fun _ _ => rfl, fun _ => ⟨⟨fun _ => .inl unknown, fun _ => ⟨_, rfl, rfl⟩⟩, ?_⟩⟩
    intro a team known
    rw [unknown] at known
    cases known
  · refine ⟨exists_iff fresh (by simp [withoutTeam, Failure.refuse, Refusal.plain]),
      fun _ _ => rfl, fun _ => ⟨⟨fun _ => .inr ⟨a, known, teamless⟩, fun _ => ⟨_, rfl, rfl⟩⟩, ?_⟩⟩
    intro a' team known' present
    obtain rfl := Option.some.inj (known.symm.trans known')
    rw [teamless] at present
    cases present
  · refine ⟨by simp [fresh], nofun, fun _ => ⟨by simp [known, present], ?_⟩⟩
    intro a' team' known' present'
    obtain rfl := Option.some.inj (known.symm.trans known')
    obtain rfl := Option.some.inj (present.symm.trans present')
    exact ⟨_, adds_of_opened resting.unspoiled resting.linked fresh rfl rfl⟩

/-- Where nothing is stored, an id that cannot be written hides that the author is unknown. -/
theorem createPullRequest_unwritable :
    let w := ((Interleaving.State.start .empty default).run []).world
    let outcome := (createPullRequest (.text (.broken [0xd800])) "Search" "u1").act none .none w
    w.tables.pullRequests = [] ∧ w.tables.users = [] ∧
      outcome.1 = .error (Text.unwritable [0xd800]) ∧
      ¬∃ e, outcome.1 = .error e ∧ e.IsNotFound := by
  intro w outcome
  have fails : outcome.1 = .error (Text.unwritable [0xd800]) := rfl
  refine ⟨rfl, rfl, fails, ?_⟩
  rintro ⟨e, same, notFound⟩
  cases fails.symm.trans same
  exact notFound

end Desk

end ReviewRota
