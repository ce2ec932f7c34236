import ReviewRota.Proofs.Store.PullRequests
import ReviewRota.Proofs.Store.Users

/-!
# Calls as single steps

A call of an operation that is a transaction is enclosed by one. On its own, in a world at rest, it
does the same as without: the end of the transaction only checks the references once more.
-/

namespace ReviewRota

/-- Nothing is spoiled, and an act that is to be enclosed finds the world at rest. -/
structure World.Fit (transactional : Bool) (w : World) : Prop where
  unspoiled : w.spoiled = false
  resting : transactional = true → w.Resting

theorem World.Resting.fit {w : World} (resting : w.Resting) (transactional : Bool) :
    w.Fit transactional :=
  ⟨resting.unspoiled, fun _ => resting⟩

namespace Act

variable {α : Type} {x : Act α} {w : World} {i : Interruption}

/-- An act that is a transaction of its own where the operation around it is one. -/
def enclosed (transactional : Bool) (x : Act α) : Act α :=
  if transactional then .atomic x else x

theorem Keeps.enclosed {I : Tables → Prop} (transactional : Bool)
    (inner : x.Keeps (World.With I) i) : (x.enclosed transactional).Keeps (World.With I) i := by
  cases transactional with
  | false => exact inner
  | true => exact .atomic inner

theorem Keeps.resting_enclosed (transactional : Bool) (inner : x.Keeps World.Resting i) :
    (x.enclosed transactional).Keeps World.Resting i := by
  cases transactional with
  | false => exact inner
  | true => exact .resting_atomic x

/-- An enclosed act ends like the act itself if it fails without a trace and if it may also fail
where it would leave a reference that leads nowhere. -/
theorem Ends.enclosed {P : Except Failure α → Tables → Prop} {transactional : Bool}
    (fit : w.Fit transactional)
    (inner : ∀ v : World, v.tables = w.tables → v.spoiled = false → v.now = w.now →
      ∃ r t, x.Ends v r t ∧ P r t)
    (traceless : ∀ e t, P (.error e) t → t = w.tables)
    (dangling : w.tables.Linked → ∀ a t, P (.ok a) t → ¬t.Linked →
      P (.error (.database danglingReference)) w.tables) :
    ∃ r t, (x.enclosed transactional).Ends w r t ∧ P r t := by
  cases transactional with
  | false => exact inner w rfl fit.unspoiled rfl
  | true =>
    have resting := fit.resting rfl
    obtain ⟨r, t, ends, outcome⟩ := inner w.deeper rfl resting.unspoiled rfl
    cases r with
    | error e =>
      exact ⟨_, _, .atomic_error ends.fails, traceless e t outcome ▸ outcome⟩
    | ok a =>
      by_cases linked : t.Linked
      · exact ⟨_, _, .atomic ends resting.unspoiled fun _ => linked, outcome⟩
      · exact ⟨_, _, .atomic_dangling ends resting.unspoiled resting.depth linked,
          dangling resting.linked a t outcome linked⟩

/-- A read that ends with the tables as they are does so when it is enclosed, too. -/
theorem reads_enclosed {P : α → Prop} {transactional : Bool} (fit : w.Fit transactional)
    (reads : ∀ v : World, v.tables = w.tables → v.spoiled = false →
      ∃ r, x.Ends v r v.tables ∧ ∀ a, r = .ok a → P a) :
    ∃ r, (x.enclosed transactional).Ends w r w.tables ∧ ∀ a, r = .ok a → P a := by
  obtain ⟨r, t, ends, rfl, gives⟩ := Ends.enclosed (x := x)
    (P := fun r t => t = w.tables ∧ ∀ a, r = .ok a → P a) fit
    (fun v tables unspoiled _ => by
      obtain ⟨r, ends, gives⟩ := reads v tables unspoiled
      exact ⟨r, _, ends, tables, gives⟩)
    (fun e t outcome => outcome.1)
    (fun linked a t outcome dangling => absurd (outcome.1 ▸ linked) dangling)
  exact ⟨r, ends, gives⟩

end Act

namespace PullRequests

variable {w : World} {transactional : Bool}

theorem get_enclosed (fit : w.Fit transactional) (id : Value) :
    ((get id).enclosed transactional).Ends w (found w.tables id) w.tables := by
  obtain ⟨r, t, ends, rfl, rfl⟩ := Act.Ends.enclosed (x := get id)
    (P := fun r t => r = found w.tables id ∧ t = w.tables) fit
    (fun v tables unspoiled _ => ⟨_, _, get_ends unspoiled id, by rw [tables], tables⟩)
    (fun e t outcome => outcome.2)
    (fun linked a t outcome dangling => absurd (outcome.2 ▸ linked) dangling)
  exact ends

theorem update_enclosed (fit : w.Fit transactional) (q : PullRequestRow) :
    ∃ r t, ((update q.entity).enclosed transactional).Ends w r t ∧
      UpdateOutcome w.tables q r t := by
  refine Act.Ends.enclosed fit ?_ ?_ ?_
  · intro v tables unspoiled _
    rw [← tables]
    exact update_ends unspoiled q
  · intro e t outcome
    cases outcome <;> rfl
  · intro _ a t outcome _
    cases outcome with
    | written stored current _ => exact .rejected stored current _

theorem create_enclosed (fit : w.Fit transactional) {p : PullRequest} {rs : List String}
    (reviewers : p.reviewers = rs.map fun r => .text (.plain r)) :
    ∃ r t, ((create p).enclosed transactional).Ends w r t ∧
      CreateOutcome w.tables p rs (p.createdAt.getD w.now) r t := by
  refine Act.Ends.enclosed fit ?_ ?_ ?_
  · intro v tables unspoiled now
    rw [← tables, ← now]
    exact create_ends unspoiled reviewers
  · intro e t outcome
    cases outcome
    rfl
  · intro _ a t outcome _
    exact .rejected _

section

variable {p : PullRequest} {row : PullRequestRow}

theorem create_enclosed_taken (fit : w.Fit transactional) (spells : Spells p row)
    (createdAt : p.createdAt.getD w.now = row.createdAt)
    (stored : (w.tables.pullRequest? row.id).isSome) :
    ((create p).enclosed transactional).Ends w (.error (.refused (taken p.id))) w.tables := by
  cases transactional with
  | false => exact create_ends_taken fit.unspoiled spells createdAt stored
  | true =>
    have refused := create_ends_taken (w := w.deeper) fit.unspoiled spells createdAt stored
    exact .atomic_error refused.fails

theorem create_enclosed_placed (fit : w.Fit transactional) (spells : Spells p row)
    (createdAt : p.createdAt.getD w.now = row.createdAt)
    (fresh : w.tables.pullRequest? row.id = none) (distinct : row.reviewers.Nodup)
    (linked : (w.tables.addPullRequest row).Linked) :
    ((create p).enclosed transactional).Ends w
      (.ok { p with createdAt := some row.createdAt, version := 1 })
      (w.tables.addPullRequest row) := by
  cases transactional with
  | false => exact create_ends_placed fit.unspoiled spells createdAt fresh distinct fun _ => linked
  | true =>
    have placed := create_ends_placed (w := w.deeper) fit.unspoiled spells createdAt fresh distinct
      fun _ => linked
    exact .atomic placed fit.unspoiled fun _ => linked

end

end PullRequests

namespace Users

variable {w : World} {transactional : Bool}

theorem get_enclosed (fit : w.Fit transactional) (id : Value) :
    ∃ r, ((get id).enclosed transactional).Ends w r w.tables ∧
      ∀ u, r = .ok u → id.column = .ok (some u.id) ∧ w.tables.HasUser u.id :=
  Act.reads_enclosed fit fun _ tables unspoiled => tables ▸ get_ends unspoiled id

theorem ofTeam_enclosed (fit : w.Fit transactional) (team : Value) :
    ∃ r, ((ofTeam team).enclosed transactional).Ends w r w.tables ∧
      ∀ us, r = .ok us → ∀ u ∈ us, w.tables.HasUser u.id :=
  Act.reads_enclosed fit fun _ tables unspoiled => tables ▸ ofTeam_ends unspoiled team

end Users

end ReviewRota
