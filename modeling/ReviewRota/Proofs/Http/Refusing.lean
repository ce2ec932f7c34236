import ReviewRota.Proofs.Desk.Rollback
import ReviewRota.Proofs.Http.Authors
import ReviewRota.Proofs.Http.Replies

/-!
# Refused requests

A reply that does not tell of a success says that nothing was done. A command that has failed has
restored the tables, and what one has stored can always be told: the reply is made ready to be sent
after everything is written, but it has the shape of its kind. A request that only reads writes
nothing either way. The deactivation of a team keeps neither promise.
-/

namespace ReviewRota

variable {i : Interruption}

/-! ### Commands that read -/

theorem Operation.reads_of_plan {α : Type} {o : Operation α} (reading : o.plan.IsReading)
    (faulty : i.Faulty) (timeout : Option Number) : (o.act timeout).Reads i := by
  intro t
  have body : (o.body timeout).Keeps (World.With (· = t)) i :=
    .bind .world fun _ => .bind (.ofExcept _) fun d =>
      reading.keeps (faulty.keeps t) (fun _ _ h => h) d
  rw [act_eq_enclosed]
  exact body.enclosed _

namespace Desk

theorem isReading_overview : overviewPlan.IsReading := by
  refine ⟨trivial, fun ps => ?_⟩
  cases ps with
  | error e => trivial
  | ok ps =>
    refine ⟨trivial, fun us => ?_⟩
    cases us with
    | error e => trivial
    | ok us =>
      refine ⟨trivial, fun ts => ?_⟩
      cases ts <;> trivial

namespace Command

theorem isReading_of_get {command : Command} (get : command.endpoint.method = "GET") :
    command.operation.plan.IsReading := by
  cases command with
  | getTeam name => exact isReading_getTeam name
  | reviewAssignments id => exact isReading_reviewAssignments id
  | overview => exact isReading_overview
  | createTeam | deactivateTeam | setUserActive | createPullRequest | merge | reassign =>
    exact absurd (show "POST" = "GET" from get) (by decide)

theorem orderable_of_named {command : Command} (named : command.Named) : command.Orderable := by
  cases command with
  | createTeam name entries =>
    obtain ⟨-, members, rfl⟩ := named
    intro ms drafted
    rw [mapM_draft_entries] at drafted
    cases drafted
    exact ⟨_, MemberDraft.ordered_drafts members⟩
  | _ => trivial

end Command

end Desk

/-! ### Requests -/

def Reply.Succeeds (r : Reply) : Prop := 200 ≤ r.status ∧ r.status < 300

theorem Endpoint.success_range (e : Endpoint) : 200 ≤ e.success.1 ∧ e.success.1 < 300 := by
  cases e <;> decide

theorem Endpoint.path_of_ofPath? {path : String} {e : Endpoint} (route : ofPath? path = some e) :
    e.path = path := by
  have found := List.find?_some route
  exact of_decide_eq_true found

theorem Endpoint.handleHealth_eq (r : Request) : ∃ reply, handleHealth r = pure reply := by
  unfold handleHealth
  split <;> exact ⟨_, rfl⟩

/-- A handled request that is refused, or only reads, leaves the tables as they were. -/
theorem Request.Served.tables {r : Request} {e : Endpoint} {w v : World} {reply : Reply}
    (served : r.Served e i w (.ok reply, v)) (whole : e ≠ .deactivateTeam) (faulty : i.Faulty)
    (refused : e.method = "GET" ∨ ¬reply.Succeeds) : v.tables = w.tables := by
  cases served with
  | refused _ _ => rfl
  | @failed command f _ _ _ endpoint named run _ =>
    have others (name : Value) : command ≠ .deactivateTeam name := by
      rintro rfl
      exact whole endpoint.symm
    exact command.restores others (Desk.Command.orderable_of_named named) faulty _ w f v run
  | @delivered command a _ _ endpoint named run =>
    subst endpoint
    rcases refused with get | refused
    · have kept := Operation.reads_of_plan (Desk.Command.isReading_of_get get) faulty
        w.preferences.operationTimeout w.tables w rfl
      rwa [run] at kept
    · have repeatable : command.Repeatable := by
        cases command with
        | deactivateTeam name => exact absurd rfl whole
        | _ => trivial
      have delivered := command.delivers named _ i w a v run
      have fits := Desk.Command.reply_matches named repeatable delivered
      rw [fits.sent] at refused
      unfold Reply.Succeeds at refused
      rw [fits.1] at refused
      exact absurd command.endpoint.success_range refused

/-- Every request is answered. Wherever faults strike, a request by GET, and any other one whose
reply does not tell of a success, leaves the tables as they were, unless it is one to deactivate a
team. -/
theorem Request.refused_unchanged (r : Request) (faulty : i.Faulty) (w : World) :
    ∃ reply v, r.serve i w = (.ok reply, v) ∧
      (Case.upper r.method = "GET" ∨ ¬reply.Succeeds →
        ¬(r.path = "/users/deactivateTeam" ∧ Case.upper r.method = "POST") →
          v.tables = w.tables) := by
  have early (reply : Reply) (serve : r.serve i w = (.ok reply, w)) :
      ∃ reply v, r.serve i w = (.ok reply, v) ∧
        (Case.upper r.method = "GET" ∨ ¬reply.Succeeds →
          ¬(r.path = "/users/deactivateTeam" ∧ Case.upper r.method = "POST") →
            v.tables = w.tables) :=
    ⟨reply, w, serve, fun _ _ => rfl⟩
  cases route : Endpoint.ofPath? r.path with
  | none => exact early .notFound (by simp [serve, route])
  | some e =>
    by_cases long : Query.maxSize < Query.size r.query
    · exact early (.bare 400) (by simp [serve, route, long])
    by_cases json : r.wantsJson = true
    · by_cases method : Case.upper r.method = e.method
      · by_cases service : e = .health
        · subst service
          obtain ⟨reply, health⟩ := Endpoint.handleHealth_eq r
          apply early reply.sent
          rw [serve_eq route (Nat.not_lt.mp long) json method]
          simp only [Endpoint.handle, health]
          rfl
        · have served := r.served (i := i) (w := w) route service (Nat.not_lt.mp long) json method
          generalize r.serve i w = outcome at served ⊢
          obtain ⟨result, v⟩ := outcome
          obtain ⟨reply, rfl⟩ : ∃ reply, result = .ok reply := by
            cases served <;> exact ⟨_, rfl⟩
          refine ⟨reply, v, rfl, fun refused exempt => ?_⟩
          have whole : e ≠ .deactivateTeam := by
            rintro rfl
            exact exempt ⟨(Endpoint.path_of_ofPath? route).symm, method⟩
          rw [method] at refused
          exact served.tables whole faulty refused
      · exact early (e.unhandled (Case.upper r.method)) (by
          simp [serve, route, long, json, method])
    · exact early r.unwanted (by simp [serve, route, long, json])

def firstInsertion : List Scenario.Interjection :=
  [⟨.statement .insertUser, 1, .before, [], some (.database ⟨.operational, "down", [], []⟩)⟩]

theorem Request.refused_unchanged_digitTeam : ∃ reply v,
    Scenario.digitTeam.serve (Scenario.interruption firstInsertion) Desk.nowhere = (.ok reply, v) ∧
      reply.status = 500 ∧ v.tables = Desk.nowhere.tables := by
  have faulty : (Scenario.interruption firstInsertion).Faulty :=
    Scenario.faulty_interruption (by simp [firstInsertion]) (by simp [firstInsertion])
  have status : ((Scenario.digitTeam.serve (Scenario.interruption firstInsertion)
      Desk.nowhere).1.map Reply.status).toOption = some 500 := by
    rw [serve_of_unqueried (e := .addTeam) rfl (by decide +kernel) (by decide) (by decide +kernel)]
    decide +kernel
  obtain ⟨reply, v, run, unchanged⟩ := Scenario.digitTeam.refused_unchanged faulty Desk.nowhere
  rw [run] at status
  have failed : reply.status = 500 := Option.some.inj status
  have refused : ¬reply.Succeeds := by
    unfold Reply.Succeeds
    omega
  exact ⟨reply, v, run, failed,
    unchanged (.inr refused) (by simp [Scenario.digitTeam, Scenario.posted])⟩

end ReviewRota
