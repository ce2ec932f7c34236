import Mathlib.Data.List.Permutation
import ReviewRota.Proofs.Desk.Opening
import ReviewRota.Proofs.Desk.Reassigning
import ReviewRota.Proofs.Interleaving.Whole

/-!
# One policy for creation and reassignment

A creation fills its places with the first candidates of a team. Whoever leaves one of these places
later, the next candidate takes over: the one whom a creation with one place more would have chosen
in addition.
-/

namespace ReviewRota

namespace Roster

variable {p : PullRequestRow} {leaving : String}

/-- Nobody but the present reviewers is excluded by a replacement, since the one who leaves is one
of them. -/
theorem choosable_staying (members : List Member) (author : Option String)
    (assigned : leaving ∈ p.reviewers) :
    Choosable members author (Desk.staying p leaving) (some leaving) =
      Choosable members author p.reviewers none := by
  ext id
  have taken : (some id ≠ some leaving ∧ id ∉ Desk.staying p leaving) ↔
      (some id ≠ none ∧ id ∉ p.reviewers) := by
    rw [Edit.mem_staying]
    by_cases same : id = leaving
    · simp [same, assigned]
    · simp [same]
  simp only [mem_choosable, Eligible]
  constructor
  · rintro ⟨m, member, ⟨active, foreign, free⟩, rfl⟩
    exact ⟨m, member, ⟨active, foreign, taken.mp free⟩, rfl⟩
  · rintro ⟨m, member, ⟨active, foreign, free⟩, rfl⟩
    exact ⟨m, member, ⟨active, foreign, taken.mpr free⟩, rfl⟩

end Roster

namespace Tables

variable {t u : Tables} {p : PullRequestRow} {leaving : String}

theorem canReplace_eq_choosable (assigned : leaving ∈ p.reviewers) :
    {c | t.CanReplace p leaving c} =
      Roster.Choosable ((t.colleagues p.author).map UserRow.member) (some p.author) p.reviewers
        none := by
  rw [← Roster.choosable_staying _ _ assigned]
  exact Set.ext fun c => mem_choosable_colleagues.symm

theorem colleagues_eq {id team : String} (present : t.teamOf id = some team) :
    t.colleagues id = t.usersOf (some team) := by
  rw [colleagues, present]

theorem colleagues_congr (same : u.users = t.users) (id : String) :
    u.colleagues id = t.colleagues id := by
  simp only [colleagues, teamOf, usersOf, user?_congr same, same]

end Tables

namespace Desk

/-- A reviewer is replaced by whom the policy would choose next, if there is anybody. -/
theorem Replacement.next {t u : Tables} {p : PullRequestRow} {old : Value} {leaving : String}
    {r : Except Failure (PullRequest × String)} (ends : Replacement t p old r u)
    (unmerged : ¬p.IsMerged) (assigned : leaving ∈ p.reviewers)
    (named : old.string? = some leaving) :
    match Roster.next ((t.colleagues p.author).map UserRow.member) (some p.author) p.reviewers
      none with
    | none => r = .error (.refuse .noCandidate)
    | some successor =>
      r = .ok (((Edit.replace leaving successor).apply p).entity, successor) ∧
        u = t.modifyPullRequest p.id fun _ => (Edit.replace leaving successor).apply p := by
  have same := Tables.canReplace_eq_choosable (t := t) assigned
  obtain ⟨refused, nobody⟩ | ⟨successor, least, answers, tables⟩ :=
    ends.exhausted_or_replaced unmerged assigned named
  · have none := Roster.next_eq_none_iff.mpr fun c chosen => nobody c (same.ge chosen)
    rw [none]
    exact refused
  · rw [same] at least
    rw [Roster.next_eq_some_iff.mpr least]
    exact ⟨answers, tables⟩

/-- The successor is the last of a choice with one place more, of which the one who leaves is
missing in the end. -/
structure TakesNext (id : String) (longer : List String) (leaving : String)
    (outcome : Except Failure (PullRequest × String) × World) (q : PullRequestRow)
    (successor : String) : Prop where
  answer : outcome.1 = .ok (q.entity, successor)
  last : longer.getLast? = some successor
  reviewers : q.reviewers = longer.erase leaving
  stored : outcome.2.tables.pullRequest? id = some q

theorem reassign_of_pick {w : World} (resting : w.Resting) (keyed : w.tables.Keyed)
    {p : PullRequestRow} {roster : List Member} {limit : Int} {leaving : String}
    (stored : w.tables.pullRequest? p.id = some p) (unmerged : ¬p.IsMerged)
    (members : (w.tables.colleagues p.author).map UserRow.member = roster)
    (picked : p.reviewers = Roster.pick roster (some p.author) limit)
    (assigned : leaving ∈ p.reviewers) :
    let longer := Roster.pick roster (some p.author) (limit + 1)
    let outcome := (reassign p.id leaving).act none .none w
    ((longer.length : Int) = limit + 1 →
      ∃ q successor, TakesNext p.id longer leaving outcome q successor) ∧
    ((longer.length : Int) ≠ limit + 1 → outcome.1 = .error (.refuse .noCandidate)) := by
  intro longer outcome
  -- Without a place for reviewers nobody would be there to be replaced.
  have places : 0 ≤ limit := by
    by_contra negative
    rw [picked, Roster.pick_eq_take, Int.toNat_of_nonpos (by omega)] at assigned
    cases assigned
  have full_iff : (longer.length : Int) = limit + 1 ↔
      (Roster.next roster (some p.author) p.reviewers none).isSome := by
    rw [picked]
    exact Roster.length_pick_succ roster (some p.author) places
  have split : longer =
      p.reviewers ++ (Roster.next roster (some p.author) p.reviewers none).toList := by
    rw [picked]
    exact Roster.pick_succ roster (some p.author) places
  obtain ⟨r, t, j, c, run, ends⟩ := reassign_ensures resting keyed p.id leaving rfl none w.journal
    w.clock
  replace ends := (ends.of_none.replacement stored).next unmerged assigned rfl
  replace run : outcome = (r, { w with tables := t, journal := j, clock := c }) := run
  rw [run, Ne, full_iff]
  rw [members] at ends
  cases chosen : Roster.next roster (some p.author) p.reviewers none with
  | none =>
    rw [chosen] at ends
    exact ⟨nofun, fun _ => ends⟩
  | some successor =>
    rw [chosen] at ends split
    obtain ⟨answers, rfl⟩ := ends
    refine ⟨fun _ => ⟨_, successor, answers, ?_, ?_, Edit.stored_apply stored _⟩,
      fun unfilled => absurd rfl unfilled⟩
    · rw [split]
      exact List.getLast?_concat
    · have distinct := keyed.reviewers p (Tables.pullRequest?_mem stored).1
      rw [split, List.erase_append_left _ assigned, ← Edit.staying_eq_erase distinct]
      rfl

/-- Whatever has gone before: let a pull request be created, and let anything happen afterwards that
changes neither a user nor this pull request. Then a reassignment of any of its reviewers succeeds
exactly if a choice with one place more fills all of its places. -/
theorem reassign_takes_next (db : Interleaving.Database) (now : Timestamp)
    (moves : List Interleaving.Move) (id title author team : String) :
    let s := (Interleaving.State.start db now).run moves
    let w := s.world
    let roster := (w.tables.usersOf (some team)).map UserRow.member
    let limit := w.preferences.maxReviewers
    let longer := Roster.pick roster (some author) (limit + 1)
    let creation := (createPullRequest id title author).act none .none w
    let p : PullRequestRow :=
      { id, name := title, author, status := Status.opened
        reviewers := Roster.pick roster (some author) limit
        createdAt := w.now, mergedAt := none, version := 1 }
    w.tables.pullRequest? id = none → w.tables.teamOf author = some team →
    creation.1 = .ok p.entity ∧ creation.2.tables = w.tables.addPullRequest p ∧
      ∀ more,
        let u := (Interleaving.State.run { s with world := creation.2 } more).world
        u.tables.users = w.tables.users → u.tables.pullRequest? id = some p →
        ∀ leaving ∈ p.reviewers,
          let outcome := (reassign id leaving).act none .none u
          ((longer.length : Int) = limit + 1 →
            ∃ q successor, TakesNext id longer leaving outcome q successor) ∧
          ((longer.length : Int) ≠ limit + 1 → outcome.1 = .error (.refuse .noCandidate)) := by
  intro s w roster limit longer creation p fresh present
  have consistent : s.Consistent := (Interleaving.State.consistent_start db now).run moves
  obtain ⟨r, t, j, c, run, ends⟩ :=
    createPullRequest_ensures consistent.resting id title author none w.journal w.clock
  replace run : creation = (r, { w with tables := t, journal := j, clock := c }) := run
  obtain ⟨a, known, of⟩ := Option.bind_eq_some_iff.mp present
  obtain ⟨rfl, same, rfl⟩ : a.id = author ∧ _ :=
    ⟨(Tables.user?_mem known).2,
      ends.of_none.opens rfl fresh rfl (Users.found_of_stored rfl known) of⟩
  have adds : creation.2.tables = w.tables.addPullRequest p := congrArg (·.2.tables) run
  refine ⟨(congrArg Prod.fst run).trans same, adds, fun more => ?_⟩
  intro u users stored leaving assigned
  -- The clients of the first run go on in the world that the creation has left.
  have later : (Interleaving.State.run { s with world := creation.2 } more).Consistent := by
    have rests := (createPullRequest id title a.id).keeps_resting none w consistent.resting
    have keeps := (createPullRequest id title a.id).keeps_keyed none w consistent.keyed
    have leads : w.tables.Leads creation.2.tables := adds ▸ Tables.leads_addPullRequest fresh
    exact (consistent.overtaken rests keeps leads).run more
  have unmerged : ¬p.IsMerged := by
    show ¬Status.opened = Status.merged
    decide
  refine reassign_of_pick later.resting later.keyed stored unmerged ?_ rfl assigned
  rw [Tables.colleagues_congr users, Tables.colleagues_eq present]

def trio : Interleaving.Database where
  tables := { teams := ["core"], users := ["u1", "u2", "u3"].map fun id => ⟨id, id, "core", true⟩ }
  keyed := ⟨by decide, by decide, by decide, by decide⟩
  linked := by decide

/-- With one place for a reviewer, the third one takes over from the second one. -/
theorem reassign_takes_next_trio :
    let w := ((Interleaving.State.start trio default).run [.prefer { maxReviewers := 1 }]).world
    let creation := (createPullRequest "pr-1" "Search" "u1").act none .none w
    (∃ p : PullRequestRow, creation.1 = .ok p.entity ∧ p.reviewers = ["u2"]) ∧
      ∃ q : PullRequestRow, q.reviewers = ["u3"] ∧
        ((reassign "pr-1" "u2").act none .none creation.2).1 = .ok (q.entity, "u3") := by
  have roster : (trio.tables.usersOf (some "core")).map UserRow.member =
      trio.tables.users.map UserRow.member := by
    rw [Tables.usersOf, Tables.idOrder, List.mergeSort_of_pairwise (by decide)]
    rfl
  have picked : Roster.pick ((trio.tables.usersOf (some "core")).map UserRow.member)
      (some "u1") 1 = ["u2"] := by
    rw [roster]
    cbv
  have longer : Roster.pick ((trio.tables.usersOf (some "core")).map UserRow.member)
      (some "u1") 2 = ["u2", "u3"] := by
    rw [roster]
    cbv
  have takes := reassign_takes_next trio default [.prefer { maxReviewers := 1 }] "pr-1" "Search"
    "u1" "core" rfl rfl
  dsimp only at takes ⊢
  generalize (createPullRequest "pr-1" "Search" "u1").act none .none _ = creation at takes ⊢
  obtain ⟨answers, tables, next⟩ := takes
  have users : creation.2.tables.users = trio.tables.users :=
    (congrArg Tables.users tables).trans (Tables.users_addPullRequest _ _)
  have stored := (congrArg (·.pullRequest? "pr-1") tables).trans
    (Tables.pullRequest?_addPullRequest (by exact rfl) "pr-1")
  have assigned : "u2" ∈ Roster.pick ((trio.tables.usersOf (some "core")).map UserRow.member)
      (some "u1") 1 := picked ▸ List.mem_singleton_self _
  obtain ⟨q, successor, next⟩ := (next [] users stored "u2" assigned).1
    (congrArg (fun ids => (ids.length : Int)) longer)
  obtain rfl : "u3" = successor :=
    Option.some.inj ((congrArg List.getLast? longer).symm.trans next.last)
  exact ⟨⟨_, answers, picked⟩, q,
    next.reviewers.trans (congrArg (List.erase · "u2") longer), next.answer⟩

end Desk

end ReviewRota
