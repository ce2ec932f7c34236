import ReviewRota.Proofs.Http.Authors
import ReviewRota.Proofs.Http.Replies

/-!
# Well-formed answers

What comes back from an address of the service is a document of its shape or an error out of the
table, whatever is stored, whatever the bytes of the request and whatever happens while it is
served. Three things stand against this. A query that is too long and a request for another format
are turned down before they come to a handler. And the deactivation of a team
repeats the name as it came: a name that is an infinite number, or that has a stray surrogate
inside, lets the finished reply fail on its way out.
-/

namespace ReviewRota

theorem Endpoint.ofPath?_path (e : Endpoint) : ofPath? e.path = some e := by
  cases e <;> decide

theorem Endpoint.fields_of_deactivateTeam {r : Request} {name : Value}
    (asks : deactivateTeam.command? r = some (.deactivateTeam name)) :
    ∃ field, r.fields? = some field ∧ field "team_name" = name := by
  obtain ⟨field, read, asks⟩ := Option.bind_eq_some_iff.mp asks
  split at asks
  · cases asks
  · cases asks
    exact ⟨field, read, rfl⟩

namespace Reply

theorem sent_eq_bare {r : Reply} {v : Value} (body : r.body = some v)
    (unsendable : v.isSendable = false) : r.sent = bare 500 := by
  unfold sent
  rw [body]
  exact if_neg (Bool.eq_false_iff.mp unsendable)

theorem IsError.status_ge {r : Reply} (error : r.IsError) : 400 ≤ r.status := by
  obtain ⟨status, code, message, rfl, listed⟩ := error
  show 400 ≤ status
  have least : ∀ entry ∈ errorTable, 400 ≤ entry.2 := by decide
  exact least _ listed

end Reply

/-- A reply out of which a name is repeated can be sent if the name can. -/
theorem Desk.Command.isSendable_of_reply (name : Value) (us : List UserRow) :
    ∃ v, ((deactivateTeam name).reply us).body = some v ∧ v.isSendable = name.isSendable := by
  refine ⟨_, rfl, ?_⟩
  have users : Value.isSendable (.list (us.map Document.user)) = true :=
    (Shape.list .user).isSendable_of_admits _
      (Document.admits_list fun u _ => Document.admits_user u)
  show (true && name.isSendable && (true && Value.isSendable (.list (us.map Document.user)) &&
    true)) = name.isSendable
  rw [users, Bool.true_and]
  exact Bool.and_true _

/-- A request by the method of its address is answered. The answer has the shape that belongs to the
address or tells of an error by a code with its status, unless the request is turned down before it
is handled, for its long query or because the reply may not be JSON, or the name of a team to be
deactivated cannot be sent back. -/
theorem Request.answers_wellFormed (r : Request) {e : Endpoint} (service : e ≠ .health)
    (route : r.path = e.path) (allowed : Case.upper r.method = e.method) (i : Interruption)
    (w : World) :
    ∃ reply v, r.serve i w = (.ok reply, v) ∧
      (reply.Matches e.success.1 e.success.2 ∨ reply.IsError ∨
        (Query.maxSize < Query.size r.query ∧ reply = .bare 400) ∨
        (r.wantsJson = false ∧ reply = r.unwanted) ∨
        (e = .deactivateTeam ∧ reply = .bare 500 ∧
          ∃ field, r.fields? = some field ∧ (field "team_name").isSendable = false)) := by
  have route : Endpoint.ofPath? r.path = some e := by
    rw [route]
    exact e.ofPath?_path
  by_cases long : Query.maxSize < Query.size r.query
  · refine ⟨.bare 400, w, ?_, .inr (.inr (.inl ⟨long, rfl⟩))⟩
    simp [serve, route, long]
  by_cases json : r.wantsJson = true
  · have served := r.served (i := i) (w := w) route service (Nat.not_lt.mp long) json allowed
    generalize r.serve i w = outcome at served ⊢
    cases served with
    | refused _ error => exact ⟨_, _, rfl, .inr (.inl error)⟩
    | failed _ _ _ _ error => exact ⟨_, _, rfl, .inr (.inl error)⟩
    | @delivered command a v asks endpoint named run =>
      refine ⟨_, _, rfl, ?_⟩
      have delivered := command.delivers named _ i w a v run
      by_cases repeatable : command.Repeatable
      · left
        have fits := Desk.Command.reply_matches named repeatable delivered
        rw [fits.sent, ← endpoint]
        exact fits
      · cases command with
        | deactivateTeam name =>
          subst endpoint
          have unsendable : name.isSendable = false := Bool.eq_false_iff.mpr repeatable
          obtain ⟨body, told, sendable⟩ := Desk.Command.isSendable_of_reply name a
          obtain ⟨field, read, rfl⟩ := Endpoint.fields_of_deactivateTeam asks
          exact .inr (.inr (.inr (.inr ⟨rfl, Reply.sent_eq_bare told (sendable.trans unsendable),
            field, read, unsendable⟩)))
        | _ => exact absurd trivial repeatable
  · refine ⟨r.unwanted, w, ?_, .inr (.inr (.inr (.inl ⟨by simpa using json, rfl⟩)))⟩
    simp [serve, route, long, json]

/-- The request for a team of one is answered with the document of the team. -/
theorem Request.answers_wellFormed_digitTeam : ∃ reply v,
    Scenario.digitTeam.serve .none Desk.nowhere = (.ok reply, v) ∧
      reply.Matches 201 (.object [("team", .team)]) := by
  have status : ((Scenario.digitTeam.serve .none Desk.nowhere).1.map Reply.status).toOption =
      some 201 := by
    rw [serve_of_unqueried (e := .addTeam) rfl (by decide +kernel) (by decide) (by decide +kernel)]
    decide +kernel
  obtain ⟨reply, v, run, answer⟩ := Scenario.digitTeam.answers_wellFormed (e := .addTeam)
    (by decide) rfl (by decide +kernel) .none Desk.nowhere
  rw [run] at status
  have created : reply.status = 201 := Option.some.inj status
  refine ⟨reply, v, run, ?_⟩
  rcases answer with fits | error | ⟨-, rfl⟩ | ⟨-, rfl⟩ | ⟨other, -⟩
  · exact fits
  · have := error.status_ge
    omega
  · cases created
  · rw [unwanted] at created
    split at created <;> cases created
  · cases other

/-- A team is named by a number beyond all others. -/
def infiniteTeam : Request where
  method := "POST"
  path := "/users/deactivateTeam"
  query := ""
  body := "\x7b\"team_name\": 1e400\x7d".toList.map Char.toNat
  contentType := "application/json"
  databaseDown := false

/-- The reply to it has no body, and so it neither tells of a success nor of an error. -/
theorem Request.infiniteTeam_unanswered : ∃ reply v,
    infiniteTeam.serve .none Desk.nowhere = (.ok reply, v) ∧
      ¬(reply.Matches Endpoint.deactivateTeam.success.1 Endpoint.deactivateTeam.success.2 ∨
        reply.IsError) := by
  have bare : ((infiniteTeam.serve .none Desk.nowhere).1.map fun r => r.body.isNone).toOption =
      some true := by
    rw [serve_of_unqueried (e := .deactivateTeam) rfl (by decide +kernel) (by decide)
      (by decide +kernel)]
    decide +kernel
  generalize infiniteTeam.serve .none Desk.nowhere = outcome at bare ⊢
  obtain ⟨_ | reply, v⟩ := outcome
  · cases bare
  · have empty : reply.body = none := Option.isNone_iff_eq_none.mp (Option.some.inj bare)
    refine ⟨reply, v, rfl, ?_⟩
    rintro (⟨-, body, told, -⟩ | ⟨status, code, message, rfl, -⟩)
    · rw [empty] at told
      cases told
    · cases empty

end ReviewRota
