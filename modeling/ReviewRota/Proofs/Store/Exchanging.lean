import ReviewRota.Proofs.Interleaving.Consistency
import ReviewRota.Proofs.Store.PullRequests

/-!
# Updates, end to end

What an update by any entity does to tables whose keys are unique and whose references lead to rows.
It is refused if the id is not stored, then if the version is not the stored one, and then if the
reviewers cannot be written; else the stored row takes on what the update brings, and nothing beside
it moves. By the time the reviewers turn out to be unfit, the row is overwritten and its former
reviewers are gone, so it is the transaction that brings back what was there.
-/

namespace ReviewRota

/-- Once a stored row is overwritten, references lead to rows if those to the new reviewers do. -/
theorem Tables.Linked.overwritten_iff {t : Tables} (linked : t.Linked) {row q : PullRequestRow}
    (stored : t.pullRequest? q.id = some row) :
    (t.modifyPullRequest q.id (·.overwrittenBy q)).Linked ↔ ∀ r ∈ q.reviewers, t.HasUser r := by
  refine ⟨fun relinked => ?_, linked.overwrite⟩
  have found : (t.modifyPullRequest q.id (·.overwrittenBy q)).pullRequest? q.id =
      some (row.overwrittenBy q) := by
    exact pullRequest?_changed (fun p same => (p.id_overwrittenBy q).trans same) stored
  intro r assigned
  obtain ⟨u, member, same⟩ := (relinked.people (pullRequest?_mem found).1).2 r assigned
  exact ⟨u, by simpa using member, same⟩

namespace PullRequests

/-- The entity brings to storage what the row holds: its author and its time of creation are not
among what an update brings. -/
structure Brings (p : PullRequest) (q : PullRequestRow) : Prop where
  id : p.id = q.id
  name : p.name = q.name
  status : p.status = q.status
  reviewers : p.reviewers = q.reviewers.map fun r => .text (.plain r)
  mergedAt : p.mergedAt = q.mergedAt
  version : p.version = q.version

/-- How an update ends by an entity that brings the row `q`, and with which tables. -/
inductive Exchanged (t : Tables) (p : PullRequest) (q : PullRequestRow) :
    Except Failure PullRequest → Tables → Prop
  | missing (absent : t.pullRequest? q.id = none) :
      Exchanged t p q (.error (.refused (missing q.id))) t
  | outdated {row : PullRequestRow} (stored : t.pullRequest? q.id = some row)
      (stale : row.version ≠ q.version) : Exchanged t p q (.error (.refused (outdated q.id))) t
  | rejected {row : PullRequestRow} (stored : t.pullRequest? q.id = some row)
      (current : row.version = q.version)
      (unfit : ¬q.reviewers.Nodup ∨ ∃ r ∈ q.reviewers, ¬t.HasUser r) :
      Exchanged t p q (.error (.refuse .internal)) t
  | written {row : PullRequestRow} (stored : t.pullRequest? q.id = some row)
      (current : row.version = q.version) (distinct : q.reviewers.Nodup)
      (known : ∀ r ∈ q.reviewers, t.HasUser r) :
      Exchanged t p q (.ok { p with version := p.version + 1 })
        (t.modifyPullRequest q.id (·.overwrittenBy q))

section

variable {w : World} {p : PullRequest} {q : PullRequestRow}

theorem Brings.exchange_eq (brings : Brings p q) : exchange p = exchange q.entity := by
  obtain ⟨id, name, author, status, reviewers, createdAt, mergedAt, version⟩ := p
  obtain ⟨rfl, rfl, rfl, rfl, rfl, rfl⟩ := brings
  rfl

theorem Brings.update_ends (brings : Brings p q) {r : Except Failure Unit} {t : Tables}
    (transaction : (Act.atomic (exchange q.entity)).Ends
      (w.log (.reached (.port .pullRequestUpdate))) r t) :
    (update p).Ends w
      (match r with
        | .ok _ => .ok { p with version := p.version + 1 }
        | .error e => .error e.classified) t := by
  rw [← brings.exchange_eq] at transaction
  cases r with
  | ok _ => exact .port _ (.bind transaction fun _ => .pure _)
  | error e => exact .port_error _ (.bind_error transaction)

theorem Brings.update_exchanged (brings : Brings p q) (resting : w.Resting) :
    ∃ r t, (update p).Ends w r t ∧ Exchanged w.tables p q r t := by
  let v := w.log (.reached (.port .pullRequestUpdate))
  have unspoiled : v.deeper.spoiled = false := resting.unspoiled
  have inside : 0 < v.deeper.depth := Nat.succ_pos _
  cases stored : w.tables.pullRequest? q.id with
  | none =>
    have failed := exchange_missing (w := v.deeper) unspoiled inside stored
    exact ⟨_, _, brings.update_ends (.atomic_error failed), .missing stored⟩
  | some row =>
    by_cases stale : row.version ≠ q.version
    · have failed := exchange_outdated (w := v.deeper) unspoiled inside stored stale
      exact ⟨_, _, brings.update_ends (.atomic_error failed), .outdated stored stale⟩
    have current : row.version = q.version := not_not.mp stale
    -- A repeated reviewer is found out at the insertion, one who is not stored only at the end.
    by_cases distinct : q.reviewers.Nodup
    · have written := exchange_written (w := v.deeper) unspoiled inside stored current distinct
      have linked := resting.linked.overwritten_iff stored
      by_cases known : ∀ r ∈ q.reviewers, w.tables.HasUser r
      · exact ⟨_, _, brings.update_ends (.atomic written unspoiled fun _ => linked.mpr known),
          .written stored current distinct known⟩
      · refine ⟨_, _, brings.update_ends
          (.atomic_dangling written unspoiled resting.depth (mt linked.mp known)), ?_⟩
        exact .rejected stored current (.inr (by simpa using known))
    · have failed := exchange_repeated (w := v.deeper) unspoiled inside stored current distinct
      exact ⟨_, _, brings.update_ends (.atomic_error failed),
        .rejected stored current (.inl distinct)⟩

end

namespace Exchanged

variable {t u : Tables} {p : PullRequest} {q row : PullRequestRow} {r : Except Failure PullRequest}

theorem unchanged (ends : Exchanged t p q r u) {e : Failure} (failed : r = .error e) : u = t := by
  cases ends with
  | missing | outdated | rejected => rfl
  | written => cases failed

theorem missing_iff (ends : Exchanged t p q r u) :
    r = .error (.refused (PullRequests.missing q.id)) ↔ t.pullRequest? q.id = none := by
  cases ends with
  | missing absent => simp [absent]
  | outdated stored => simp [stored, PullRequests.outdated, PullRequests.missing]
  | rejected stored => simp [stored, PullRequests.missing, Failure.refuse, Refusal.plain]
  | written stored => simp [stored]

theorem outdated_iff (ends : Exchanged t p q r u) (stored : t.pullRequest? q.id = some row) :
    r = .error (.refused (PullRequests.outdated q.id)) ↔ row.version ≠ q.version := by
  cases ends with
  | missing absent => simp [stored] at absent
  | outdated stored' stale =>
    obtain rfl := Option.some.inj (stored.symm.trans stored')
    simp [stale]
  | rejected stored' current =>
    obtain rfl := Option.some.inj (stored.symm.trans stored')
    simp [current, PullRequests.outdated, Failure.refuse, Refusal.plain]
  | written stored' current =>
    obtain rfl := Option.some.inj (stored.symm.trans stored')
    simp [current]

theorem rejected_or_written (ends : Exchanged t p q r u) (stored : t.pullRequest? q.id = some row)
    (current : row.version = q.version) :
    ((¬q.reviewers.Nodup ∨ ∃ r ∈ q.reviewers, ¬t.HasUser r) ∧ r = .error (.refuse .internal)) ∨
      (q.reviewers.Nodup ∧ ∀ r ∈ q.reviewers, t.HasUser r) ∧
        r = .ok { p with version := p.version + 1 } ∧
        u = t.modifyPullRequest q.id (·.overwrittenBy q) := by
  cases ends with
  | missing absent => simp [stored] at absent
  | outdated stored' stale =>
    obtain rfl := Option.some.inj (stored.symm.trans stored')
    exact absurd current stale
  | rejected _ _ unfit => exact .inl ⟨unfit, rfl⟩
  | written _ _ distinct known => exact .inr ⟨⟨distinct, known⟩, rfl, rfl⟩

end Exchanged

/-- What a successful update answers and leaves behind: the row `row` in place of the one of its
id. None of the former assignments is left, and the new ones are numbered along the list, so that
the next read gives the list back. -/
structure Writes (t : Tables) (p : PullRequest) (outcome : Except Failure PullRequest × World)
    (row : PullRequestRow) : Prop where
  answer : outcome.1 = .ok { p with version := p.version + 1 }
  reread : ((get row.id).run outcome.2).1 = .ok row
  heads : outcome.2.tables.heads =
    t.heads.map fun other => if other.id = row.id then row.head else other
  assigned : outcome.2.tables.assigned =
    t.assigned.filter (fun a => a.pullRequest ≠ row.id) ++ Tables.numbered row.id 0 row.reviewers
  pullRequests : outcome.2.tables.pullRequests =
    t.pullRequests.map fun other => if other.id = row.id then row else other
  users : outcome.2.tables.users = t.users
  teams : outcome.2.tables.teams = t.teams

theorem writes_of_overwritten {t : Tables} (keyed : t.Keyed) {p : PullRequest}
    {q row : PullRequestRow} (stored : t.pullRequest? q.id = some row)
    {outcome : Except Failure PullRequest × World} (unspoiled : outcome.2.spoiled = false)
    (answer : outcome.1 = .ok { p with version := p.version + 1 })
    (tables : outcome.2.tables = t.modifyPullRequest q.id (·.overwrittenBy q)) :
    Writes t p outcome (row.overwrittenBy q) := by
  obtain ⟨-, same⟩ := Tables.pullRequest?_mem stored
  have replaced : outcome.2.tables =
      t.modifyPullRequest row.id fun _ => row.overwrittenBy q := by
    rw [tables, ← same]
    exact Tables.modifyPullRequest_congr keyed (same ▸ stored) rfl
  have placed : t.pullRequest? row.id = some row := same ▸ stored
  have found : outcome.2.tables.pullRequest? row.id = some (row.overwrittenBy q) := by
    rw [replaced]
    exact Tables.pullRequest?_changed (fun _ _ => row.id_overwrittenBy q) placed
  obtain ⟨_, read⟩ := get_ends unspoiled (.text (.plain row.id))
  constructor
  · exact answer
  · exact (congrArg Prod.fst read).trans (found_of_stored rfl found)
  · exact replaced ▸ Tables.heads_modifyPullRequest placed
  · exact replaced ▸ Tables.assigned_modifyPullRequest placed
  · exact replaced ▸ Tables.pullRequests_modifyPullRequest (fun _ _ => rfl) keyed
  · rw [replaced, Tables.users_modifyPullRequest]
  · rw [replaced, Tables.teams_modifyPullRequest]

/-- Whatever has gone before, an update is refused for the first reason there is, and otherwise the
stored row takes on exactly the name, the status, the reviewers and the time of the merge that the
entity brings, at the next version. -/
theorem update_iff (db : Interleaving.Database) (now : Timestamp) (moves : List Interleaving.Move)
    (id name status : String) (author : Value) (reviewers : List String)
    (createdAt mergedAt : Option Timestamp) (version : Int) :
    let w := ((Interleaving.State.start db now).run moves).world
    let p : PullRequest := ⟨id, name, author, status, reviewers.map fun r => .text (.plain r),
      createdAt, mergedAt, version⟩
    let outcome := (update p).run w
    (outcome.1 = .error (.refused (missing id)) ↔ w.tables.pullRequest? id = none) ∧
      (∀ e, outcome.1 = .error e → outcome.2.tables = w.tables) ∧
      ∀ row, w.tables.pullRequest? id = some row →
        (outcome.1 = .error (.refused (outdated id)) ↔ row.version ≠ version) ∧
        (row.version = version →
          (outcome.1 = .error (.refuse .internal) ↔
            ¬reviewers.Nodup ∨ ∃ r ∈ reviewers, ¬w.tables.HasUser r) ∧
          (reviewers.Nodup → (∀ r ∈ reviewers, w.tables.HasUser r) →
            Writes w.tables p outcome
              { row with name, status, reviewers, mergedAt, version := version + 1 })) := by
  intro w p outcome
  have consistent := (Interleaving.State.consistent_start db now).run moves
  let q : PullRequestRow := ⟨⟨id, name, "", status, default, mergedAt, version⟩, reviewers⟩
  have brings : Brings p q := ⟨rfl, rfl, rfl, rfl, rfl, rfl⟩
  obtain ⟨r, t, ⟨j, run⟩, ends⟩ := brings.update_exchanged consistent.resting
  replace run : outcome = (r, { w with tables := t, journal := j }) := run
  rw [run]
  refine ⟨ends.missing_iff, fun e failed => ends.unchanged failed, fun row stored =>
    ⟨ends.outdated_iff stored, fun current => ?_⟩⟩
  have unfit_iff : (¬reviewers.Nodup ∨ ∃ r ∈ reviewers, ¬w.tables.HasUser r) ↔
      ¬(reviewers.Nodup ∧ ∀ r ∈ reviewers, w.tables.HasUser r) := by
    rw [not_and_or]
    simp
  obtain ⟨unfit, rfl⟩ | ⟨fit, rfl, rfl⟩ := ends.rejected_or_written stored current
  · exact ⟨⟨fun _ => unfit, fun _ => rfl⟩,
      fun distinct known => absurd ⟨distinct, known⟩ (unfit_iff.mp unfit)⟩
  · refine ⟨⟨nofun, fun unfit => absurd fit (unfit_iff.mp unfit)⟩, fun _ _ => ?_⟩
    have writes : Writes w.tables p (.ok _, { w with tables := _, journal := j })
        (row.overwrittenBy q) :=
      writes_of_overwritten (q := q) consistent.keyed stored consistent.resting.unspoiled rfl rfl
    have counted : row.overwrittenBy q =
        { row with name, status, reviewers, mergedAt, version := version + 1 } := by
      rw [← current]
      rfl
    exact counted ▸ writes

/-- Where nothing is stored, an update whose name cannot be written is not answered as missing. -/
theorem update_unwritable :
    let w := ((Interleaving.State.start .empty default).run []).world
    let p : PullRequest :=
      ⟨"pr-1", .text (.broken [0xd800]), "u1", Status.opened, [], none, none, 1⟩
    let outcome := (update p).run w
    w.tables.pullRequest? "pr-1" = none ∧ outcome.1 = .error (Text.unwritable [0xd800]) ∧
      outcome.1 ≠ .error (.refused (missing "pr-1")) := by
  intro w p outcome
  have fails : outcome.1 = .error (Text.unwritable [0xd800]) := rfl
  refine ⟨rfl, fails, fun same => ?_⟩
  rw [fails] at same
  cases same

end PullRequests

end ReviewRota
