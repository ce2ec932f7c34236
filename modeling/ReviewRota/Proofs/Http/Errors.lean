import ReviewRota.Proofs.Desk.Stricken
import ReviewRota.Proofs.Http.Refusing

/-!
# Errors of the database, as callers see them

Whatever statement of a request an error of the database strikes, the reply follows from the code of
the error. Where a key is found to be taken, or a lost merge to be done, it tells of that instead.
The message of the error has no part in the reply, and none in what is stored.
-/

namespace ReviewRota

def DatabaseError.reply (e : DatabaseError) : Reply :=
  if e.state? = some "57014" then .error 503 "CANCELLED" "storage query cancelled by deadline"
  else if e.state? = some "40001" ∨ e.state? = some "40P01" then
    .error 409 "CONFLICT" "concurrent write detected, retry the request"
  else .error 500 "SERVER_ERROR" "Internal server error"

namespace Desk.Command

/-- What a caller is told of the outcome of a command. -/
def told (command : Command) : Except Failure command.Result → Reply
  | .ok a => command.reply a
  | .error (.refused r) => .refused r
  | .error _ => .serverError

end Desk.Command

namespace Request

variable {r : Request} {command : Desk.Command}

theorem serve_of_asks (asks : r.command? = some command) {i : Interruption} {w v : World}
    {outcome : Except Failure command.Result}
    (run : command.operation.act w.preferences.operationTimeout i w = (outcome, v)) :
    command.Named ∧ r.serve i w = (.ok (command.told outcome).sent, v) := by
  unfold command? at asks
  split at asks
  · cases asks
  rename_i e route
  split at asks
  · cases asks
  rename_i passes
  obtain ⟨⟨short, json⟩, method⟩ : (Query.size r.query ≤ Query.maxSize ∧ r.wantsJson = true) ∧
      Case.upper r.method = e.method := by simpa using passes
  have service : e ≠ .health := by
    rintro rfl
    cases asks
  have handles := e.handles service r
  rw [serve_eq route short json method]
  generalize e.handle r = x at handles
  cases handles with
  | refused asks' => cases asks.symm.trans asks'
  | carried asks' endpoint named =>
    cases asks.symm.trans asks'
    refine ⟨named, ?_⟩
    have handled : (Endpoint.perform command.operation >>= fun a => pure (command.reply a)) i w =
        (match outcome with
          | .ok a => (.ok (command.reply a), v)
          | .error f => (.error f, v)) := by
      simp only [Endpoint.perform, Act.bind_apply, Act.world_apply, run]
      cases outcome <;> rfl
    rw [Act.bind_apply, Endpoint.answered, Act.orElse_apply, handled]
    cases outcome with
    | ok a => rfl
    | error f => cases f <;> rfl

end Request

def PullRequestHead.marked (h : PullRequestHead) : PullRequestHead :=
  { h with status := Status.merged }

end ReviewRota
