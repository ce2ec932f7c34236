import ReviewRota.Proofs.Interleaving.Consistency
import ReviewRota.Proofs.Store.PullRequests

/-!
# Creations, end to end

What the creation of any pull request does to tables whose keys are unique and whose references lead
to rows. If the id is taken it is refused as such, whatever else is wrong; if it is free, a repeated
reviewer or somebody who is not stored makes it an internal refusal; else the row is added, and the
next read gives back what the creation answered. Reviewers who are not stored are found out only
when the transaction ends, so that the look that tells the cases apart comes after all is undone.
-/

namespace ReviewRota

theorem Tables.Linked.addPullRequest_iff {t : Tables} (linked : t.Linked) {row : PullRequestRow}
    (fresh : t.pullRequest? row.id = none) :
    (t.addPullRequest row).Linked ↔ t.HasUser row.author ∧ ∀ r ∈ row.reviewers, t.HasUser r :=
  ⟨fun relinked => relinked.people ((mem_pullRequests_addPullRequest fresh).mpr (.inr rfl)),
    fun ⟨author, reviewers⟩ => linked.addPullRequest author reviewers⟩

namespace PullRequests

/-- Everybody whom the row names is stored, and no reviewer is named twice. -/
structure Fit (t : Tables) (row : PullRequestRow) : Prop where
  author : t.HasUser row.author
  reviewers : ∀ r ∈ row.reviewers, t.HasUser r
  distinct : row.reviewers.Nodup

/-- How a creation ends by an entity that brings the row, and with which tables. -/
inductive Placed (t : Tables) (p : PullRequest) (row : PullRequestRow) :
    Except Failure PullRequest → Tables → Prop
  | taken {other : PullRequestRow} (stored : t.pullRequest? row.id = some other) :
      Placed t p row (.error (.refused (taken p.id))) t
  | rejected (fresh : t.pullRequest? row.id = none) (unfit : ¬Fit t row) :
      Placed t p row (.error (.refuse .internal)) t
  | added (fresh : t.pullRequest? row.id = none) (fit : Fit t row) :
      Placed t p row (.ok { p with createdAt := some row.createdAt, version := 1 })
        (t.addPullRequest row)

section

variable {w : World} {p : PullRequest} {row : PullRequestRow}

/-- With the transaction undone, a violation that is not that of the id is passed on. -/
theorem create_ends_rejected (unspoiled : w.spoiled = false) (spells : Spells p row)
    (fresh : w.tables.pullRequest? row.id = none) {message : String}
    (violated : (Act.atomic (do
        insert p (p.createdAt.getD w.now)
        writeReviewers p.id p.reviewers)).Ends (w.log (.reached (.port .pullRequestCreate)))
      (.error (.database (.integrity message))) w.tables) :
    (create p).Ends w (.error (.refuse .internal)) w.tables := by
  refine .port_error (e := .database (.integrity message)) _ (.bind_now (.bind_error
    (.orElse_error violated fun j => ?_)))
  -- The insertion is undone by now, so that the look finds the id free again.
  have look : (isStored p.id).Ends
      { w.log (.reached (.port .pullRequestCreate)) with journal := j } (.ok false) w.tables := by
    have read : (isStored p.id).Ends
        { w.log (.reached (.port .pullRequestCreate)) with journal := j }
        (.ok (w.tables.pullRequest? row.id).isSome) w.tables :=
      isStored_ends (by exact unspoiled) spells.id
    rw [fresh] at read
    exact read
  rw [if_pos (by exact rfl)]
  exact .bind look fun _ => .fail _

theorem create_placed (resting : w.Resting) (spells : Spells p row)
    (createdAt : p.createdAt.getD w.now = row.createdAt) :
    ∃ r t, (create p).Ends w r t ∧ Placed w.tables p row r t := by
  let v := w.log (.reached (.port .pullRequestCreate))
  have unspoiled : v.deeper.spoiled = false := resting.unspoiled
  have inside : 0 < v.deeper.depth := Nat.succ_pos _
  cases stored : w.tables.pullRequest? row.id with
  | some other =>
    have taken : (w.tables.pullRequest? row.id).isSome := by rw [stored]; rfl
    exact ⟨_, _, create_ends_taken resting.unspoiled spells createdAt taken, .taken stored⟩
  | none =>
    by_cases distinct : row.reviewers.Nodup
    · have linked_iff : (w.tables.addPullRequest row).Linked ↔ _ :=
        resting.linked.addPullRequest_iff stored
      by_cases linked : (w.tables.addPullRequest row).Linked
      · obtain ⟨author, reviewers⟩ := linked_iff.mp linked
        exact ⟨_, _, create_ends_placed resting.unspoiled spells createdAt stored distinct
          fun _ => linked, .added stored ⟨author, reviewers, distinct⟩⟩
      · have placed := place_ends (w := v.deeper) unspoiled inside spells stored distinct
        rw [← createdAt] at placed
        exact ⟨_, _, create_ends_rejected resting.unspoiled spells stored
          (.atomic_dangling placed unspoiled resting.depth linked),
          .rejected stored fun fit => linked (linked_iff.mpr ⟨fit.author, fit.reviewers⟩)⟩
    · have failed := place_fails (w := v.deeper) unspoiled inside spells stored distinct
      rw [← createdAt] at failed
      exact ⟨_, _, create_ends_rejected resting.unspoiled spells stored (.atomic_error failed),
        .rejected stored fun fit => distinct fit.distinct⟩

end

namespace Placed

variable {t u : Tables} {p : PullRequest} {row : PullRequestRow} {r : Except Failure PullRequest}

theorem unchanged (ends : Placed t p row r u) {e : Failure} (failed : r = .error e) : u = t := by
  cases ends with
  | taken | rejected => rfl
  | added => cases failed

theorem taken_iff (ends : Placed t p row r u) :
    r = .error (.refused (PullRequests.taken p.id)) ↔
      ∃ other, t.pullRequest? row.id = some other := by
  cases ends with
  | taken stored => simp [stored]
  | rejected fresh => simp [fresh, PullRequests.taken, Failure.refuse, Refusal.plain]
  | added fresh => simp [fresh]

theorem rejected_or_added (ends : Placed t p row r u) (fresh : t.pullRequest? row.id = none) :
    (¬Fit t row ∧ r = .error (.refuse .internal)) ∨
      Fit t row ∧ r = .ok { p with createdAt := some row.createdAt, version := 1 } ∧
        u = t.addPullRequest row := by
  cases ends with
  | taken stored => simp [fresh] at stored
  | rejected _ unfit => exact .inl ⟨unfit, rfl⟩
  | added _ fit => exact .inr ⟨fit, rfl, rfl⟩

end Placed

theorem not_fit_iff {t : Tables} {row : PullRequestRow} :
    ¬Fit t row ↔ ¬t.HasUser row.author ∨ (∃ r ∈ row.reviewers, ¬t.HasUser r) ∨
      ¬row.reviewers.Nodup := by
  constructor
  · intro unfit
    by_contra none
    push Not at none
    exact unfit ⟨none.1, none.2.1, none.2.2⟩
  · rintro (unknown | ⟨r, assigned, unknown⟩ | repeated) fit
    · exact unknown fit.author
    · exact unknown (fit.reviewers r assigned)
    · exact repeated fit.distinct

/-- What a successful creation answers and leaves behind: one more pull request, its reviewers
numbered along the list in rows of their own, and the next read puts it together as the creation
answered it. -/
structure Places (t : Tables) (p : PullRequest) (outcome : Except Failure PullRequest × World)
    (row : PullRequestRow) : Prop where
  answer : outcome.1 = .ok { p with createdAt := some row.createdAt, version := 1 }
  reread : ((get p.id).run outcome.2).1.map PullRequestRow.entity = outcome.1
  heads : outcome.2.tables.heads = t.heads ++ [row.head]
  assigned : outcome.2.tables.assigned = t.assigned ++ Tables.numbered row.id 0 row.reviewers
  pullRequests : outcome.2.tables.pullRequests = t.pullRequests ++ [row]
  users : outcome.2.tables.users = t.users
  teams : outcome.2.tables.teams = t.teams

theorem places_of_added {w : World} {row : PullRequestRow} {journal : List Event}
    (resting : w.Resting) (fresh : w.tables.pullRequest? row.id = none) {p : PullRequest}
    (brings :
      ({ p with createdAt := some row.createdAt, version := 1 } : PullRequest) = row.entity) :
    Places w.tables p (.ok { p with createdAt := some row.createdAt, version := 1 },
      { w with tables := w.tables.addPullRequest row, journal := journal }) row := by
  refine ⟨rfl, ?_, rfl, Tables.assigned_addPullRequest resting.linked fresh,
    Tables.pullRequests_addPullRequest fresh, rfl, rfl⟩
  have same : p.id = row.id := congrArg PullRequest.id brings
  have stored : (w.tables.addPullRequest row).pullRequest? row.id = some row := by
    rw [Tables.pullRequest?_addPullRequest fresh, fresh, if_pos rfl]
    rfl
  let v : World := { w with tables := w.tables.addPullRequest row, journal := journal }
  obtain ⟨k, run⟩ := get_ends (w := v) resting.unspoiled p.id
  rw [Act.run, run, found_of_stored (p := row) (by rw [same]; rfl) stored, brings]
  rfl

/-- Whatever has gone before, a creation is refused as taken exactly if the id is, and under a free
id it is refused exactly if the author is not stored, a reviewer is not stored or one is named
twice. Nothing is changed then. Otherwise a read gives back what the creation answered. -/
theorem create_iff (db : Interleaving.Database) (now : Timestamp) (moves : List Interleaving.Move)
    (id name author status : String) (reviewers : List String)
    (createdAt mergedAt : Option Timestamp) (version : Int) :
    let w := ((Interleaving.State.start db now).run moves).world
    let p : PullRequest := ⟨id, name, author, status, reviewers.map fun r => .text (.plain r),
      createdAt, mergedAt, version⟩
    let outcome := (create p).run w
    (outcome.1 = .error (.refused (taken id)) ↔ ∃ row, w.tables.pullRequest? id = some row) ∧
      (∀ e, outcome.1 = .error e → outcome.2.tables = w.tables) ∧
      (w.tables.pullRequest? id = none →
        (outcome.1 = .error (.refuse .internal) ↔ ¬w.tables.HasUser author ∨
          (∃ r ∈ reviewers, ¬w.tables.HasUser r) ∨ ¬reviewers.Nodup) ∧
        (w.tables.HasUser author → (∀ r ∈ reviewers, w.tables.HasUser r) → reviewers.Nodup →
          Places w.tables p outcome
            ⟨⟨id, name, author, status, createdAt.getD w.now, mergedAt, 1⟩, reviewers⟩)) := by
  intro w p outcome
  have consistent := (Interleaving.State.consistent_start db now).run moves
  let row : PullRequestRow :=
    ⟨⟨id, name, author, status, createdAt.getD w.now, mergedAt, 1⟩, reviewers⟩
  have spells : Spells p row := ⟨rfl, rfl, rfl, rfl, rfl, rfl, rfl⟩
  obtain ⟨r, t, ⟨j, run⟩, ends⟩ := create_placed consistent.resting spells rfl
  replace run : outcome = (r, { w with tables := t, journal := j }) := run
  rw [run]
  refine ⟨ends.taken_iff, fun e failed => ends.unchanged failed, fun fresh => ?_⟩
  obtain ⟨unfit, rfl⟩ | ⟨fit, rfl, rfl⟩ := ends.rejected_or_added fresh
  · exact ⟨⟨fun _ => not_fit_iff.mp unfit, fun _ => rfl⟩,
      fun author reviewers distinct => absurd ⟨author, reviewers, distinct⟩ unfit⟩
  · exact ⟨⟨nofun, fun unfit => absurd fit (not_fit_iff.mpr unfit)⟩,
      fun _ _ _ => places_of_added consistent.resting fresh rfl⟩

/-- Where the id is taken, a creation whose name cannot be written is not answered as taken. -/
theorem create_unwritable :
    let db : Interleaving.Database :=
      ⟨⟨["core"], [⟨"u1", "Ann", some "core", true⟩],
        [⟨"pr-1", "Search", "u1", Status.opened, default, none, 1⟩], []⟩,
        ⟨by decide, by decide, by decide, by decide⟩, by decide⟩
    let w := ((Interleaving.State.start db default).run []).world
    let p : PullRequest :=
      ⟨"pr-1", .text (.broken [0xd800]), "u1", Status.opened, [], none, none, 1⟩
    let outcome := (create p).run w
    (w.tables.pullRequest? "pr-1").isSome ∧ outcome.1 = .error (Text.unwritable [0xd800]) ∧
      outcome.1 ≠ .error (.refused (taken "pr-1")) := by
  intro db w p outcome
  have fails : outcome.1 = .error (Text.unwritable [0xd800]) := rfl
  refine ⟨by decide, fails, fun same => ?_⟩
  rw [fails] at same
  cases same

end PullRequests

end ReviewRota
