import Mathlib.Tactic
import ReviewRota.Proofs.Desk.Ids
import ReviewRota.Proofs.Interleaving.Consistency

/-!
# Sound pull requests

Requests whose ids are texts, run in any order from the empty database, leave sound pull requests:
reviewers are chosen once per place and never the author, an edit keeps their number, and what a
pull request refers to is stored.
-/

namespace ReviewRota.Interleaving

theorem Entry.Creates.sound {e : Entry} {p : PullRequestRow} (creates : e.Creates p)
    (texts : ∀ v ∈ e.command.ids, v.IsText) : p.Sound := by
  obtain ⟨id, name, author, members, limit, command, column, reviewers⟩ := creates.asked
  obtain ⟨status, mergedAt, version⟩ := creates.opened
  have named := (texts author (by simp [command, Desk.Command.ids])).string?_of_column column
  have taken := Roster.taken_pick members author.string? limit
  rw [← reviewers, named] at taken
  exact ⟨fun member => taken.foreign p.author member rfl, taken.distinct, .inl status,
    ⟨fun _ => status, fun _ => mergedAt⟩, by omega⟩

/-- The log tells when the pull request was created, and with as many reviewers. -/
def Told (log : List Entry) (p : PullRequestRow) : Prop :=
  ∃ e ∈ log, ∃ q, e.Creates q ∧ q.id = p.id ∧ q.reviewers.length = p.reviewers.length

theorem Chronicle.sound {t u : Tables} {log : List Entry} (chronicle : Chronicle t log u)
    (texts : ∀ e ∈ log, ∀ v ∈ e.command.ids, v.IsText) (empty : t.pullRequests = []) :
    ∀ p ∈ u.pullRequests, p.Sound ∧ Told log p := by
  refine chronicle.forall_pullRequest ?_ (fun e member p creates => ?_) ?_
  · rw [empty]
    exact nofun
  · exact ⟨creates.sound (texts e member), e, member, p, creates, rfl, rfl⟩
  · rintro edit q fits ⟨sound, e, told, r, creates, id, length⟩
    exact ⟨fits.sound sound, e, told, r, creates, id.trans (Edit.id_apply edit q).symm,
      length.trans (fits.length_reviewers sound.distinct).symm⟩

namespace State

variable {s : State}

theorem arrived_of_mem_clients {moves : List Move} {c : Client}
    (member : c ∈ (s.run moves).clients) :
    (∃ d ∈ s.clients, d.command = c.command) ∨
      ∃ timeout, .arrive c.command timeout ∈ moves := by
  induction moves generalizing s with
  | nil => exact .inl ⟨c, member, rfl⟩
  | cons m moves ih =>
    rcases ih member with ⟨d, present, same⟩ | ⟨timeout, arrives⟩
    · rw [← same]
      rcases (s.change_move m).command present with old | ⟨timeout, rfl⟩
      · exact .inl old
      · exact .inr ⟨timeout, List.mem_cons_self⟩
    · exact .inr ⟨timeout, List.mem_cons_of_mem _ arrives⟩

/-- Whatever requests with texts as ids did, in whatever order of their steps, every stored pull
request is sound, refers to stored users and has as many reviewers as it was created with, and the
team of every user is stored. -/
theorem pullRequests_sound (now : Timestamp) (moves : List Move)
    (texts : ∀ command timeout, .arrive command timeout ∈ moves → ∀ v ∈ command.ids, v.IsText) :
    let s := (start .empty now).run moves
    (∀ p ∈ s.world.tables.pullRequests, p.Sound ∧ s.world.tables.HasUser p.author ∧
      (∀ r ∈ p.reviewers, s.world.tables.HasUser r) ∧ Told s.log p) ∧
    ∀ u ∈ s.world.tables.users, ∀ name ∈ u.team, s.world.tables.HasTeam name := by
  intro s
  have consistent : s.Consistent := (consistent_start .empty now).run moves
  have chronicle : Chronicle Database.empty.tables s.log s.world.tables :=
    chronicle_run .empty now moves
  have arrived (e : Entry) (member : e ∈ s.log) : ∀ v ∈ e.command.ids, v.IsText := by
    obtain ⟨c, found, command, -⟩ := consistent.entries e member
    rcases arrived_of_mem_clients (List.mem_of_getElem? found) with ⟨d, absent, -⟩ | arrives
    · cases absent
    · obtain ⟨timeout, arrives⟩ := arrives
      exact command ▸ texts c.command timeout arrives
  have linked := consistent.resting.linked
  refine ⟨fun p member => ?_, linked.1⟩
  obtain ⟨sound, told⟩ := chronicle.sound arrived rfl p member
  exact ⟨sound, (linked.people member).1, (linked.people member).2, told⟩

/-- A team of four arrives, then a pull request of one of them. Somebody else takes the place of a
reviewer, and only then comes a merge to its update that began before. -/
def coreMoves : List Move :=
  let member (id : String) : Desk.MemberEntry := ⟨some id, some id, some (.bool true)⟩
  [.arrive (.createTeam "core" [member "u1", member "u2", member "u3", member "u4"]) none,
      .advance 0, .advance 0, .arrive (.createPullRequest "pr-1" "Search" "u1") none] ++
    List.replicate 10 (.advance 1) ++
    [.arrive (.reassign "pr-1" "u2") none, .arrive (.merge "pr-1") none, .advance 3] ++
    List.replicate 10 (.advance 2) ++ List.replicate 5 (.advance 3)

theorem coreMoves_texts (command : Desk.Command) (timeout : Option Number)
    (arrives : .arrive command timeout ∈ coreMoves) : ∀ v ∈ command.ids, v.IsText := by
  have text (s : String) : Value.IsText s := ⟨s, rfl⟩
  simp only [coreMoves, List.mem_append, List.mem_cons, List.mem_replicate, Move.arrive.injEq,
    reduceCtorEq, List.not_mem_nil, and_false, false_or, or_false] at arrives
  rcases arrives with (⟨rfl, rfl⟩ | ⟨rfl, rfl⟩) | ⟨rfl, rfl⟩ | ⟨rfl, rfl⟩ <;>
    simp [Desk.Command.ids, text]

theorem pullRequests_sound_coreMoves :
    let s := (start .empty default).run coreMoves
    ∃ p, s.world.tables.pullRequest? "pr-1" = some p ∧ p.IsMerged ∧ p.reviewers = ["u3", "u4"] ∧
      p.Sound ∧ (∀ r ∈ p.reviewers, s.world.tables.HasUser r) ∧ Told s.log p := by
  have ends : (((start .empty default).run coreMoves).world.tables.pullRequest? "pr-1").map
      (fun p => (p.status, p.reviewers)) = some (Status.merged, ["u3", "u4"]) := by cbv
  have sound := (pullRequests_sound default coreMoves coreMoves_texts).1
  generalize (start .empty default).run coreMoves = s at *
  obtain ⟨p, stored, same⟩ := Option.map_eq_some_iff.mp ends
  obtain ⟨final, reviewers⟩ := Prod.mk.inj same
  obtain ⟨sound, -, known, told⟩ := sound p (Tables.pullRequest?_mem stored).1
  exact ⟨p, stored, final, reviewers, sound, known, told⟩

end State

end ReviewRota.Interleaving
