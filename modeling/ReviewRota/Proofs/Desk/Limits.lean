import ReviewRota.Proofs.Desk.Recording

/-!
# Limits for statements

A server that takes directives is told at each look in a transaction how much time is left, and that
is the limit for the statements to come. A request that is a transaction as a whole has all its
statements limited so. One that leaves the transaction to storage looks too early, and has none
limited. The limit of the connection gives way to whatever a look sets, be it more or less.
-/

namespace ReviewRota

/-! ### The journal of an operation -/

namespace Operation

variable {α : Type} {timeout : Option Number} {i : Interruption}

/-- The entries of a plan with those of the transaction around it, if there is one. -/
def framed (o : Operation α) (es : List Event) : List Event :=
  if o.transactional then .opened :: (es ++ [.closed]) else es

/-- The journal of an operation goes on with what its plan tells, in its transaction, and with
nothing more where its seconds are no clock reading. -/
theorem continues_framed (o : Operation α) (timeout : Option Number) {w : World}
    {P : Option (Deadline Binary64) → List Event → Prop}
    (plan : ∀ d, Deadline.start? w.clock timeout = .ok d →
      ∃ es, (o.begun w).Continues (o.plan.act d i (o.begun w)).2 es ∧ P d es) :
    ∃ es, w.Continues (o.act timeout i w).2 (o.framed es) ∧
      ((∃ e, Deadline.start? w.clock timeout = .error e ∧ es = []) ∨
        ∃ d, Deadline.start? w.clock timeout = .ok d ∧ P d es) := by
  have body : ∃ es, (o.begun w).Continues (o.body timeout i (o.begun w)).2 es ∧
      ((∃ e, Deadline.start? w.clock timeout = .error e ∧ es = []) ∨
        ∃ d, Deadline.start? w.clock timeout = .ok d ∧ P d es) := by
    cases start : Deadline.start? w.clock timeout with
    | error e =>
      rw [body_eq_error o (by rwa [clock_begun])]
      exact ⟨[], .refl _, .inl ⟨e, rfl, rfl⟩⟩
    | ok d =>
      obtain ⟨es, goes, holds⟩ := plan d start
      rw [body_eq_plan o (by rwa [clock_begun])]
      exact ⟨es, goes, .inr ⟨d, rfl, holds⟩⟩
  obtain ⟨es, goes, outcome⟩ := body
  refine ⟨es, ?_, outcome⟩
  rw [act_eq_enclosed, Act.enclosed]
  unfold begun at goes
  unfold framed
  split
  · rename_i transactional
    rw [if_pos transactional] at goes
    exact Act.continues_atomic goes
  · rename_i untransacted
    rwa [if_neg untransacted] at goes

/-- The journal of an operation goes on with what the timeline tells, in its transaction. -/
theorem recorded (o : Operation α) (timeout : Option Number) (remote : i.Remote) (w : World) :
    ∃ es, w.Continues (o.act timeout i w).2 (o.framed es) ∧ (es = [] ∨
      ∃ d, Deadline.start? w.clock timeout = .ok d ∧
        Recorded d (o.begun w).link (o.timeline timeout i w) es) := by
  obtain ⟨es, goes, ⟨-, -, rfl⟩ | recorded⟩ := o.continues_framed timeout (i := i)
      (P := fun d es => Recorded d (o.begun w).link (o.timeline timeout i w) es) (w := w)
      fun d start => by
    rw [timeline_eq start]
    exact o.plan.recorded d remote (o.begun w)
  · exact ⟨[], goes, .inl rfl⟩
  · exact ⟨es, goes, .inr recorded⟩

theorem takesDirectives_begun (o : Operation α) {w : World}
    (server : w.preferences.vendor = "postgresql") :
    (o.begun w).link.takesDirectives = true ↔ o.transactional = true ∨ 0 < w.depth := by
  unfold begun
  cases o.transactional with
  | true => simp [World.link, Link.takesDirectives, World.deeper, World.log, server]
  | false => simp [World.link, Link.takesDirectives, server]

theorem not_directed_framed {o : Operation α} {es : List Event} {directive : Directive}
    (untold : .directed directive ∉ es) : .directed directive ∉ o.framed es := by
  unfold framed
  split
  · simpa using untold
  · exact untold

theorem requires_framed {o : Operation α} {kind : Event → Prop} (opened : ¬kind .opened)
    (closed : ¬kind .closed) {P : Session → Prop} {s : Session} {es : List Event}
    (inner : (if o.transactional then s.after .opened else s).Requires kind P es) :
    s.Requires kind P (o.framed es) := by
  unfold framed
  split
  · rename_i transactional
    rw [if_pos transactional] at inner
    exact ⟨fun told => absurd told opened, inner.append ⟨fun told => absurd told closed, trivial⟩⟩
  · rename_i untransacted
    rwa [if_neg untransacted] at inner

end Operation

/-! ### The time that is left -/

/-- The limit is the time that was left at a look, in milliseconds, and never zero. -/
def LeftAtLook (deeds : List Deed) (n : Int) : Prop :=
  ∃ r left k, .looked r ∈ deeds ∧ r.remaining = some left ∧ Seconds.millis left = .ok k ∧
    n = max 1 k

theorem Recorded.leftAtLook {d : Option (Deadline Binary64)} {link : Link} {deeds : List Deed}
    {es : List Event} (recorded : Recorded d link deeds es) (takes : link.takesDirectives = true)
    {r : Scenario.Reading} {n : Int} (member : .looked r ∈ deeds)
    (sets : r.check = .ok [.limit n]) : LeftAtLook deeds n := by
  obtain ⟨step, clock, rfl⟩ := recorded.exists_of_looked member
  cases d with
  | none => cases sets
  | some e =>
    obtain ⟨k, left, same⟩ := Scenario.Reading.check_of_takes takes sets
    cases same
    exact ⟨_, _, k, member, rfl, left, rfl⟩

theorem Deadline.eq_none_iff_of_start {clock : Binary64} {timeout : Option Number}
    {d : Option (Deadline Binary64)} (start : Deadline.start? clock timeout = .ok d) :
    d = none ↔ timeout = none := by
  cases timeout with
  | none =>
    cases start
    simp
  | some timeout =>
    obtain ⟨granted, -, same⟩ := bind_eq_ok_iff.mp start
    cases same
    simp

/-! ### Limits at statements -/

namespace Desk.Command

/-- With seconds to go, on a server that takes directives: where the request is a transaction, each
of its statements runs in it under a limit that a look has set to the time that was left. Where it
is none, the server is not told of any limit, not even in the transactions of storage. -/
theorem statements_limited (command : Command) (timeout : Number) {i : Interruption}
    (remote : i.Remote) {w : World} (server : w.preferences.vendor = "postgresql")
    (top : w.depth = 0) :
    ∃ es, (command.operation.act (some timeout) i w).2.journal = w.journal ++ es ∧
      (command.operation.transactional = true → ∀ before later q,
        es = before ++ .reached (.statement q) :: later →
          0 < (Session.run {} before).depth ∧ ∃ n, (Session.run {} before).limit = some n ∧
            LeftAtLook (command.operation.timeline (some timeout) i w) n) ∧
      (command.operation.transactional = false → ∀ d, .directed d ∉ es) := by
  obtain ⟨es, goes, recorded⟩ := command.operation.recorded (some timeout) remote w
  refine ⟨_, goes.journal, fun transactional before later q split => ?_,
    fun untransacted directive => Operation.not_directed_framed ?_⟩
  · have takes := (command.operation.takesDirectives_begun server).mpr (.inl transactional)
    have framed : Session.Requires Event.IsStatement
        (Session.Bound (LeftAtLook (command.operation.timeline (some timeout) i w))) {}
        (command.operation.framed es) := by
      apply Operation.requires_framed nofun nofun
      rw [if_pos transactional]
      rcases recorded with rfl | ⟨d, start, recorded⟩
      · trivial
      · obtain ⟨e, rfl⟩ : ∃ e, d = some e := by
          rw [← Option.ne_none_iff_exists', Ne, Deadline.eq_none_iff_of_start start]
          simp
        have orderly : Orderly command.Rereads (some e) none
            (command.operation.timeline (some timeout) i w) := by
          rw [Operation.timeline_eq start]
          exact command.heeds.orderly i rfl
        exact recorded.bound takes orderly Nat.one_pos (fun begun => absurd rfl begun)
          fun r n member sets => recorded.leftAtLook takes member sets
    rw [split] at framed
    exact framed.at (.intro q)
  · have takes : (command.operation.begun w).link.takesDirectives = false := by
      rw [← Bool.not_eq_true, command.operation.takesDirectives_begun server]
      simp [untransacted, top]
    rcases recorded with rfl | ⟨d, start, recorded⟩
    · simp
    · exact recorded.not_directed_mem takes directive

def served : World := { reviewing with preferences := { vendor := "postgresql" } }

theorem statements_limited_merge :
    ∃ before later n, ((merge "pr-1").operation.act (some (.int 5)) .none served).2.journal =
        before ++ .reached (.statement .updatePullRequest) :: later ∧
      (Session.run {} before).limit = some n ∧
      LeftAtLook ((merge "pr-1").operation.timeline (some (.int 5)) .none served) n := by
  have updates : .reached (.statement .updatePullRequest) ∈
      ((merge "pr-1").operation.act (some (.int 5)) .none served).2.journal := by
    decide +kernel
  obtain ⟨before, later, split⟩ := List.append_of_mem updates
  obtain ⟨es, journal, limited, -⟩ :=
    statements_limited (merge "pr-1") (.int 5) Interruption.remote_none (w := served) rfl rfl
  rw [show served.journal = [] from rfl, List.nil_append] at journal
  obtain ⟨-, n, limit, left⟩ := limited rfl before later _ (journal.symm.trans split)
  exact ⟨before, later, n, split, limit, left⟩

/-- A team is inserted in a transaction without any limit although there are five seconds to go. -/
theorem createTeam_unlimited :
    let journal := ((createTeam "docs" []).operation.act (some (.int 5)) .none served).2.journal
    ∃ k, journal[k]? = some (.reached (.statement .insertTeam)) ∧
      0 < (Session.run {} (journal.take k)).depth ∧
      (Session.run {} (journal.take k)).limit = none :=
  ⟨7, by decide +kernel, by decide +kernel, by decide +kernel⟩

end Desk.Command

/-! ### The limit of the connection -/

/-- In a transaction, on a server that takes directives, with a limit for all statements of the
connection: at each check that has passed the limit in force is positive. It is that of the
connection if there is no deadline, and otherwise the time that was left at a look, which keeps to
that of the connection only if it happens to be shorter. -/
theorem Operation.limit_at_check {α : Type} (o : Operation α) (timeout : Option Number)
    {i : Interruption} (remote : i.Remote) {w : World}
    (server : w.preferences.vendor = "postgresql") (inside : o.transactional = true ∨ 0 < w.depth)
    {cap : Int} (positive : 0 < cap) :
    ∃ es, (o.act timeout i w).2.journal = w.journal ++ es ∧
      ∀ before later step, es = before ++ .passed step :: later →
        let n := (Session.run ⟨w.depth, none⟩ before).limit.getD cap
        1 ≤ n ∧ (timeout = none → n = cap) ∧ (timeout ≠ none → ∃ r left k,
          .looked r ∈ o.timeline timeout i w ∧ r.remaining = some left ∧
            Seconds.millis left = .ok k ∧ n = max 1 k ∧ (n ≤ cap ↔ k ≤ cap)) := by
  obtain ⟨es, goes, recorded⟩ := o.recorded timeout remote w
  refine ⟨_, goes.journal, fun before later step split => ?_⟩
  let begun : Session := if o.transactional then ⟨w.depth + 1, none⟩ else ⟨w.depth, none⟩
  have deep : 0 < begun.depth := by
    unfold begun
    split
    · exact Nat.succ_pos _
    · exact inside.resolve_left ‹_›
  have unset : begun.limit = none := by
    unfold begun
    split <;> rfl
  have framed {P : Session → Prop} (inner : begun.Requires Event.IsPassed P es) :
      P (Session.run ⟨w.depth, none⟩ before) := by
    have required := Operation.requires_framed (s := ⟨w.depth, none⟩) nofun nofun inner
    rw [split] at required
    exact required.at (.intro step)
  rcases recorded with rfl | ⟨d, start, recorded⟩
  · exact (framed (P := fun _ => False) trivial).elim
  · have takes := (o.takesDirectives_begun server).mpr inside
    obtain ⟨unlimited, limited⟩ := framed (recorded.limit_passed takes deep (fun _ => unset)
      fun r n member sets => recorded.leftAtLook takes member sets)
    generalize (Session.run ⟨w.depth, none⟩ before).limit = limit at unlimited limited
    rw [Ne, Deadline.eq_none_iff_of_start start] at limited
    rw [Deadline.eq_none_iff_of_start start] at unlimited
    cases timeout with
    | none =>
      rw [unlimited rfl]
      exact ⟨positive, fun _ => rfl, fun granted => absurd rfl granted⟩
    | some timeout =>
      obtain ⟨n, rfl, r, left, k, look, remaining, millis, rfl⟩ := limited (by simp)
      refine ⟨Int.le_max_left 1 k, nofun, fun _ => ⟨r, left, k, look, remaining, millis, rfl, ?_⟩⟩
      simp only [Option.getD_some]
      omega

theorem Operation.limit_at_check_merge :
    ∃ before later n,
      ((Desk.merge "pr-1").act (some (.int 10)) .none Desk.Command.served).2.journal =
        before ++ .passed "PR read" :: later ∧
      (Session.run {} before).limit.getD 5000 = n ∧ 1 ≤ n := by
  have checked : .passed "PR read" ∈
      ((Desk.merge "pr-1").act (some (.int 10)) .none Desk.Command.served).2.journal := by
    decide +kernel
  obtain ⟨before, later, split⟩ := List.append_of_mem checked
  obtain ⟨es, journal, limits⟩ := (Desk.merge "pr-1").limit_at_check (some (.int 10))
    Interruption.remote_none (w := Desk.Command.served) rfl (.inl rfl)
    (show (0 : Int) < 5000 by decide)
  rw [show Desk.Command.served.journal = [] from rfl, List.nil_append] at journal
  obtain ⟨positive, -⟩ := limits before later _ (journal.symm.trans split)
  exact ⟨before, later, _, split, rfl, positive⟩

/-- With ten seconds to go, a limit of ten seconds is set on a connection that has one of five. -/
theorem Desk.Command.limit_exceeds_cap :
    let journal := ((merge "pr-1").operation.act (some (.int 10)) .none
      { served with tick := .zero false }).2.journal
    ∃ k, journal[k]? = some (.passed "PR read") ∧
      (Session.run {} (journal.take k)).limit.getD 5000 = 10000 :=
  ⟨3, by decide +kernel, by decide +kernel⟩

end ReviewRota
