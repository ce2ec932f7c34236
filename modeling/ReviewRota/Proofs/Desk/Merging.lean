import ReviewRota.Proofs.Desk.Edits
import ReviewRota.Proofs.Desk.Ensuring
import ReviewRota.Proofs.Store.Exchanging

/-!
# Merges from end to end

The first merge of a pull request marks it as merged and counts its version up. From then on a merge
answers with what is stored and writes nothing.
-/

namespace ReviewRota.Desk

/-- How a merge ends, and with which tables. -/
inductive Merging (t : Tables) (id : Value) (now : Timestamp) :
    Except Failure PullRequest → Tables → Prop
  | unread {e : Failure} (failed : PullRequests.found t id = .error e) :
      Merging t id now (.error e) t
  | repeated {p : PullRequestRow} (stored : PullRequests.found t id = .ok p) (final : p.IsMerged) :
      Merging t id now (.ok p.entity) t
  | merged {p : PullRequestRow} (stored : PullRequests.found t id = .ok p)
      (unmerged : ¬p.IsMerged) :
      Merging t id now (.ok ((Edit.merge now).apply p).entity)
        (t.modifyPullRequest p.id fun _ => (Edit.merge now).apply p)

variable {w : World} {p : PullRequestRow}

theorem modifyPullRequest_merge (keyed : w.tables.Keyed)
    (stored : w.tables.pullRequest? p.id = some p) (now : Timestamp) :
    w.tables.modifyPullRequest p.id (·.overwrittenBy ((Edit.merge now).written p)) =
      w.tables.modifyPullRequest p.id fun _ => (Edit.merge now).apply p :=
  Tables.modifyPullRequest_congr keyed stored (Edit.overwrittenBy_written _ p)

theorem linked_merge (keyed : w.tables.Keyed) (linked : w.tables.Linked)
    (stored : w.tables.pullRequest? p.id = some p) (now : Timestamp) :
    (w.tables.modifyPullRequest p.id fun _ => (Edit.merge now).apply p).Linked := by
  rw [← modifyPullRequest_merge keyed stored]
  exact linked.overwrite (linked.people (Tables.pullRequest?_mem stored).1).2

theorem update_ends_merged (unspoiled : w.spoiled = false) (keyed : w.tables.Keyed)
    (linked : w.tables.Linked) (stored : w.tables.pullRequest? p.id = some p) (now : Timestamp) :
    (PullRequests.update (merged p now)).Ends w (.ok ((Edit.merge now).apply p).entity)
      (w.tables.modifyPullRequest p.id fun _ => (Edit.merge now).apply p) := by
  have relinked := linked_merge keyed linked stored now
  rw [← modifyPullRequest_merge keyed stored, ← Edit.entity_apply] at *
  exact PullRequests.update_ends_written (q := (Edit.merge now).written p) unspoiled stored rfl
    (keyed.reviewers p (Tables.pullRequest?_mem stored).1) fun _ => relinked

/-- A merge comes to one of its ends, unless its deadline stops it. -/
theorem merge_ensures (resting : w.Resting) (keyed : w.tables.Keyed) (id : Value)
    (timeout : Option Number) : ((merge id).act timeout).Ensures w
      (Operation.InTime timeout w.tables (Merging w.tables id w.now)) := by
  refine Operation.ensures_transaction_inTime rfl resting.unspoiled fun d stops => ?_
  let v : World := { w with depth := w.depth + 1 }
  have unspoiled : v.spoiled = false := resting.unspoiled
  show (mergePlan id).Ensures d v _
  refine .check stops (.pullRequestGet unspoiled ?_)
  cases found : PullRequests.found w.tables id with
  | error e => exact .done (.inl (.unread found))
  | ok p =>
    show Plan.Ensures (if p.IsMerged then _ else _) d v _
    split
    · rename_i final
      exact .done ⟨resting.linked, .inl (.repeated found final)⟩
    rename_i unmerged
    have stored := (PullRequests.found_eq_ok found).2
    let q := (Edit.merge w.now).apply p
    refine .now (.check stops (.call_ends (c := .pullRequestUpdate (merged p w.now))
      (r := .ok q.entity) (t := w.tables.modifyPullRequest p.id fun _ => q) (fun j c => ?_) ?_))
    · exact update_ends_merged (w := { v with journal := j, clock := c }) unspoiled keyed
        resting.linked stored w.now
    · exact .done ⟨linked_merge keyed resting.linked stored w.now, .inl (.merged found unmerged)⟩

end ReviewRota.Desk
