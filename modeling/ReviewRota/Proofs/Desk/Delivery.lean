import ReviewRota.Desk.Command
import ReviewRota.Proofs.Desk.Plan
import ReviewRota.Proofs.Store.Outcomes

/-!
# What requests deliver

The results that the desk hands over can be told in a document, however the run is interrupted: the
texts in them are strings and the numbers are finite. A result holds what storage has read or
written, and besides that only what was chosen among it.
-/

namespace ReviewRota

structure Team.IsSpelled (t : Team) : Prop where
  name : t.name.IsSpelled
  members : ∀ m ∈ t.members, m.id.IsSpelled ∧ m.username.IsSpelled

theorem Member.isSpelled_drafts (ms : List Member) :
    ∀ m ∈ ms.map Member.draft, m.id.IsSpelled ∧ m.username.IsSpelled := by
  intro m member
  obtain ⟨n, -, rfl⟩ := List.mem_map.mp member
  exact ⟨Value.isSpelled_plain _, Value.isSpelled_plain _⟩

theorem Statistics.isFinite_average {ps : List PullRequestRow} {us : List UserRow}
    {ts : List TeamRoster} {s : Statistics} (counted : of ps us ts = .ok s) :
    s.averageReviewers.IsFinite := by
  obtain ⟨mean, average, counted⟩ := bind_eq_ok_iff.mp counted
  cases counted
  unfold Statistics.average at average
  split at average
  · cases average
    trivial
  · dsimp only at average
    split at average
    · rename_i finite
      cases average
      exact finite
    · cases average

/-! ### Contracts under interruptions -/

namespace Plan

variable {α : Type} {k : Contract α}

/-- Where every call answers as relied on, a run ends as the contract says. -/
theorem Honours.concludes {i : Interruption} {p : Plan α} {xs : List Exchange}
    (honours : p.Honours k xs) (relied : ∀ xs c w, k.rely xs ⟨c, (c.act i w).1⟩)
    (d : Option (Deadline Binary64)) (w : World) : ∃ ys, k.conclude ys (p.act d i w).1 := by
  induction p generalizing xs w with
  | done r => exact ⟨xs, honours⟩
  | check step next ih =>
    rw [act, Act.bind_apply]
    generalize checkAct d step i w = outcome
    obtain ⟨e | _, v⟩ := outcome
    · exact ⟨xs, honours.1 e⟩
    · exact ih honours.2 v
  | now next ih => exact ih _ (honours w.now) w
  | maxReviewers next ih => exact ih _ (honours w.preferences.maxReviewers) w
  | snapshot next ih => exact ih honours.2 _
  | call c next ih => exact ih _ (honours.2 _ (relied xs c w)) _

end Plan

namespace Desk.Command

theorem mapM_draft_entries (ms : List Member) :
    (ms.map fun m => MemberEntry.ofDraft m.draft).mapM MemberEntry.draft =
      .ok (ms.map Member.draft) := by
  induction ms with
  | nil => rfl
  | cons m ms ih => simp [ih, pure, Except.pure, bind, Except.bind]

/-- What a query or a form names is named by a string, and members are listed as they are stored. -/
def Named : Command → Prop
  | createTeam name entries =>
    (∃ s, name = .text (.plain s)) ∧
      ∃ ms : List Member, entries = ms.map fun m => MemberEntry.ofDraft m.draft
  | getTeam name => ∃ s, name = .text (.plain s)
  | reviewAssignments id => ∃ s, id = .text (.plain s)
  | _ => True

def Delivers : (command : Command) → command.Result → Prop
  | createTeam .., t => t.IsSpelled
  | getTeam _, t => t.IsSpelled
  | createPullRequest .., p => p.IsSpelled
  | merge _, p => p.IsSpelled
  | reassign .., (p, _) => p.IsSpelled
  | overview, s => s.averageReviewers.IsFinite
  | _, _ => True

def delivery (command : Command) : Contract command.Result where
  rely _ x := ∀ a, x.outcome = .ok a → x.call.Gives a
  warrant _ _ := True
  conclude _ r := ∀ a, r = .ok a → command.Delivers a

theorem delivery_error {command : Command} {xs : List Exchange} (e : Failure) :
    command.delivery.conclude xs (.error e) := nofun

theorem delivers_createTeam {name : Value} {entries : List MemberEntry}
    (named : (createTeam name entries).Named) :
    (createTeamPlan name entries).Honours (createTeam name entries).delivery [] := by
  obtain ⟨⟨s, rfl⟩, ms, rfl⟩ := named
  unfold createTeamPlan
  rw [mapM_draft_entries]
  refine ⟨delivery_error, trivial, fun r given => ?_⟩
  cases r with
  | error e =>
    show Plan.Honours _ (if e.IsExistence then _ else _ : Plan Team) _
    split <;> exact delivery_error _
  | ok t =>
    rintro u answered
    cases answered
    obtain ⟨name, sorted⟩ := given t rfl
    rw [MemberDraft.ordered_drafts] at sorted
    refine ⟨?_, ?_⟩
    · rw [name]
      exact Value.isSpelled_plain s
    · rw [← Except.ok.inj sorted]
      exact Member.isSpelled_drafts _

theorem delivers_getTeam {name : Value} (named : (getTeam name).Named) :
    (getTeamPlan name).Honours (getTeam name).delivery [] := by
  obtain ⟨s, rfl⟩ := named
  refine ⟨delivery_error, trivial, fun r _ => ?_⟩
  cases r with
  | error e => exact delivery_error _
  | ok ms =>
    rintro t answered
    cases answered
    exact ⟨Value.isSpelled_plain s, Member.isSpelled_drafts ms⟩

theorem delivers_createPullRequest (id name author : Value) :
    (createPullRequestPlan id name author).Honours (createPullRequest id name author).delivery
      [] := by
  refine ⟨delivery_error, trivial, fun r _ => ?_⟩
  cases r with
  | ok p => exact delivery_error _
  | error e =>
    show Plan.Honours _ (if ¬e.IsNotFound then _ else _ : Plan PullRequest) _
    split
    · exact delivery_error _
    refine ⟨delivery_error, trivial, fun r _ => ?_⟩
    cases r with
    | error e => exact delivery_error _
    | ok u =>
      dsimp only [Plan.bind]
      split
      · exact delivery_error _
      refine ⟨delivery_error, trivial, fun roster _ => ?_⟩
      cases roster with
      | error e => exact delivery_error _
      | ok roster =>
        intro limit now
        refine ⟨delivery_error, trivial, fun r given => ?_⟩
        cases r with
        | error e =>
          show Plan.Honours _ (if e.IsExistence then _ else _ : Plan PullRequest) _
          split <;> exact delivery_error _
        | ok p =>
          rintro q answered
          cases answered
          obtain ⟨⟨time, rfl⟩, id, name, author, status⟩ := given p rfl
          refine ⟨id, name, author, status, fun r member => ?_⟩
          obtain ⟨s, -, rfl⟩ := List.mem_map.mp member
          exact Value.isSpelled_plain s

/-- An updated record is the one that was read, with changes that are strings themselves. -/
theorem isSpelled_updated {p q : PullRequest} (given : (Call.pullRequestUpdate p).Gives q)
    (spelled : p.IsSpelled) : q.IsSpelled := by
  obtain rfl := given
  exact ⟨spelled.id, spelled.name, spelled.author, spelled.status, spelled.reviewers⟩

theorem delivers_merge (id : Value) : (mergePlan id).Honours (merge id).delivery [] := by
  refine ⟨delivery_error, trivial, fun r _ => ?_⟩
  cases r with
  | error e => exact delivery_error _
  | ok p =>
    show Plan.Honours _ (if p.IsMerged then _ else _ : Plan PullRequest) _
    split
    · rintro q answered
      cases answered
      exact p.isSpelled_entity
    · intro now
      refine ⟨delivery_error, trivial, fun r given => ?_⟩
      cases r with
      | ok q =>
        rintro q' answered
        cases answered
        have spelled := p.isSpelled_entity
        exact isSpelled_updated (given q rfl) ⟨spelled.id, spelled.name, spelled.author,
          Value.isSpelled_plain _, spelled.reviewers⟩
      | error e =>
        show Plan.Honours _ (if e.IsConflict then _ else _ : Plan PullRequest) _
        split
        · refine ⟨trivial, fun r _ => ?_⟩
          cases r with
          | error e => exact delivery_error _
          | ok current =>
            show Plan.Honours _ (if current.IsMerged then _ else _ : Plan PullRequest) _
            split
            · rintro q answered
              cases answered
              exact current.isSpelled_entity
            · exact delivery_error _
        · exact delivery_error _

theorem delivers_reassign (id old : Value) :
    (reassignPlan id old).Honours (reassign id old).delivery [] := by
  refine ⟨delivery_error, trivial, fun r _ => ?_⟩
  cases r with
  | error e => exact delivery_error _
  | ok p =>
    show Plan.Honours _ (if p.IsMerged then _ else _ : Plan (PullRequest × String)) _
    split
    · exact delivery_error _
    split
    · exact delivery_error _
    split
    · exact delivery_error _
    refine ⟨delivery_error, trivial, fun r _ => ?_⟩
    cases r with
    | error e => exact delivery_error _
    | ok u =>
      refine ⟨delivery_error, trivial, fun r _ => ?_⟩
      cases r with
      | error e => exact delivery_error _
      | ok roster =>
        dsimp only [Plan.bind]
        split
        · exact delivery_error _
        refine ⟨delivery_error, trivial, fun r given => ?_⟩
        cases r with
        | error e => exact delivery_error _
        | ok q =>
          rintro ⟨q', successor⟩ answered
          cases answered
          have spelled := p.isSpelled_entity
          refine isSpelled_updated (given q rfl) ⟨spelled.id, spelled.name, spelled.author,
            spelled.status, fun r member => ?_⟩
          obtain ⟨s, -, rfl⟩ := List.mem_map.mp member
          exact Value.isSpelled_plain s

theorem delivers_overview : overviewPlan.Honours overview.delivery [] := by
  refine ⟨delivery_error, delivery_error, trivial, fun ps _ => ?_⟩
  cases ps with
  | error e => exact delivery_error _
  | ok ps =>
    refine ⟨delivery_error, trivial, fun us _ => ?_⟩
    cases us with
    | error e => exact delivery_error _
    | ok us =>
      refine ⟨delivery_error, trivial, fun ts _ => ?_⟩
      cases ts with
      | error e => exact delivery_error _
      | ok ts => exact fun s counted => Statistics.isFinite_average counted

/-- What a request gives can be told in a document, whatever interrupts it. -/
theorem delivers (command : Command) (named : command.Named) (timeout : Option Number)
    (i : Interruption) : (command.operation.act timeout).Yields i command.Delivers := by
  have honours : command.operation.plan.Honours command.delivery [] := by
    cases command with
    | createTeam name entries => exact delivers_createTeam named
    | getTeam name => exact delivers_getTeam named
    | createPullRequest id name author => exact delivers_createPullRequest id name author
    | merge id => exact delivers_merge id
    | reassign id old => exact delivers_reassign id old
    | overview => exact delivers_overview
    | deactivateTeam | setUserActive | reviewAssignments =>
      exact Plan.honours_of_forall (fun _ _ => trivial) (fun _ _ _ _ => trivial) _ _
  have body : (command.operation.body timeout).Yields i command.Delivers := by
    refine .bind (.any _) fun w _ => .bind (.any _) fun d _ => ?_
    intro w a v done
    obtain ⟨ys, concluded⟩ := honours.concludes
      (fun _ c w a given => c.gives i w a _ (Prod.ext given rfl)) d w
    exact concluded a (congrArg Prod.fst done)
  rw [Operation.act_eq_enclosed]
  unfold Act.enclosed
  split
  · exact .atomic body
  · exact body

end Desk.Command

end ReviewRota
