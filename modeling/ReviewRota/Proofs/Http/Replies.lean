import ReviewRota.Proofs.Http.Command
import ReviewRota.Proofs.Http.Shapes

/-!
# Replies

A handler turns a request down with an error, or it carries out one command and replies with a
document of what the command has given. The document has the shape that belongs to the address. Only
the deactivation of a team repeats a value of the request as it came, and that may be one that
cannot be sent.
-/

namespace ReviewRota

/-! ### Errors and answers -/

namespace Reply

def errorTable : List (String × Nat) :=
  [("NOT_FOUND", 404), ("ALREADY_EXISTS", 409), ("PR_EXISTS", 409), ("TEAM_EXISTS", 400),
    ("PR_MERGED", 409), ("NOT_ASSIGNED", 409), ("NO_CANDIDATE", 409), ("CONFLICT", 409),
    ("CANCELLED", 503), ("SERVER_ERROR", 500), ("VALIDATION_ERROR", 400)]

/-- The reply tells of an error by a code and a message, under the status that belongs to the
code. -/
def IsError (r : Reply) : Prop :=
  ∃ status code message, r = error status code message ∧ (code, status) ∈ errorTable

def Matches (r : Reply) (status : Nat) (shape : Shape) : Prop :=
  r.status = status ∧ ∃ v, r.body = some v ∧ shape.admits v = true

theorem isError_invalid (message : String) : (invalid message).IsError :=
  ⟨400, "VALIDATION_ERROR", message, rfl, by decide⟩

theorem mem_errorTable_of_status? {reason : Reason} {status : Nat}
    (told : reason.status? = some status) : (reason.code, status) ∈ errorTable := by
  cases reason <;> cases told <;> decide

theorem isError_refused (r : Refusal) : (refused r).IsError := by
  unfold refused Refusal.report
  cases told : r.reason.status? with
  | some status => exact ⟨status, _, _, rfl, mem_errorTable_of_status? told⟩
  | none => exact ⟨500, _, _, rfl, by decide⟩

theorem isError_serverError : serverError.IsError := isError_refused _

theorem IsError.sent {r : Reply} (error : r.IsError) : r.sent = r := by
  obtain ⟨status, code, message, rfl, -⟩ := error
  rfl

theorem Matches.sent {r : Reply} {status : Nat} {shape : Shape} (fits : r.Matches status shape) :
    r.sent = r := by
  obtain ⟨-, v, body, admitted⟩ := fits
  unfold Reply.sent
  rw [body]
  exact if_pos (shape.isSendable_of_admits v admitted)

end Reply

/-! ### Replies of commands -/

namespace Desk.Command

def reply : (command : Command) → command.Result → Reply
  | createTeam .., t => .json 201 [("team", Document.team t)]
  | getTeam _, t => ⟨200, some (Document.team t)⟩
  | deactivateTeam name, us =>
    .json 200 [("team_name", name), ("deactivated", .list (us.map Document.user))]
  | setUserActive .., u => .json 200 [("user", Document.user u)]
  | reviewAssignments id, ps =>
    .json 200 [("user_id", id), ("pull_requests", .list (ps.map Document.pullRequestInBrief))]
  | createPullRequest .., p => .json 201 [("pr", Document.pullRequest p)]
  | merge _, p => .json 200 [("pr", Document.pullRequest p)]
  | reassign .., (p, successor) =>
    .json 200 [("pr", Document.pullRequest p), ("replaced_by", successor)]
  | overview, s => .json 200 [("stats", Document.statistics s)]

def endpoint : Command → Endpoint
  | createTeam .. => .addTeam
  | getTeam _ => .getTeam
  | deactivateTeam _ => .deactivateTeam
  | setUserActive .. => .setActive
  | reviewAssignments _ => .getReview
  | createPullRequest .. => .createPullRequest
  | merge _ => .mergePullRequest
  | reassign .. => .reassignPullRequest
  | overview => .statistics

end Desk.Command

namespace Endpoint

/-- The status and the shape of what is replied to a request that was served. -/
def success : Endpoint → Nat × Shape
  | addTeam => (201, .object [("team", .team)])
  | getTeam => (200, .team)
  | setActive => (200, .object [("user", .user)])
  | getReview => (200, .object [("user_id", .text), ("pull_requests", .list .pullRequestInBrief)])
  | deactivateTeam => (200, .object [("team_name", .any), ("deactivated", .list .user)])
  | createPullRequest => (201, .object [("pr", .pullRequest)])
  | mergePullRequest => (200, .object [("pr", .pullRequest)])
  | reassignPullRequest => (200, .object [("pr", .pullRequest), ("replaced_by", .text)])
  | statistics => (200, .object [("stats", .statistics)])
  | health => (200, .object [("status", .text)])

end Endpoint

namespace Desk.Command

/-- The name of the team that is deactivated is repeated as it came. -/
def Repeatable : Command → Prop
  | deactivateTeam name => name.isSendable = true
  | _ => True

theorem reply_matches {command : Command} (named : command.Named)
    (repeatable : command.Repeatable) {a : command.Result} (delivered : command.Delivers a) :
    (command.reply a).Matches command.endpoint.success.1 command.endpoint.success.2 := by
  cases command with
  | createTeam name entries =>
    refine ⟨rfl, _, rfl, ?_⟩
    simp [endpoint, Endpoint.success, Document.admits_team delivered]
  | getTeam name => exact ⟨rfl, _, rfl, Document.admits_team delivered⟩
  | deactivateTeam name =>
    have users : (Shape.list .user).admits (.list (a.map Document.user)) = true :=
      Document.admits_list fun u _ => Document.admits_user u
    have name : Shape.any.admits name = true := repeatable
    refine ⟨rfl, _, rfl, ?_⟩
    simp [endpoint, Endpoint.success, name, users]
  | setUserActive id active =>
    refine ⟨rfl, _, rfl, ?_⟩
    simp [endpoint, Endpoint.success, Document.admits_user a]
  | reviewAssignments id =>
    obtain ⟨s, rfl⟩ := named
    have listed : (Shape.list .pullRequestInBrief).admits
        (.list (a.map Document.pullRequestInBrief)) = true :=
      Document.admits_list fun p _ => Document.admits_pullRequestInBrief p
    refine ⟨rfl, _, rfl, ?_⟩
    simp [endpoint, Endpoint.success, listed]
  | createPullRequest id name author =>
    refine ⟨rfl, _, rfl, ?_⟩
    simp [endpoint, Endpoint.success, Document.admits_pullRequest delivered]
  | merge id =>
    refine ⟨rfl, _, rfl, ?_⟩
    simp [endpoint, Endpoint.success, Document.admits_pullRequest delivered]
  | reassign id old =>
    obtain ⟨p, successor⟩ := a
    refine ⟨rfl, _, rfl, ?_⟩
    simp [endpoint, Endpoint.success, Document.admits_pullRequest delivered]
  | overview =>
    refine ⟨rfl, _, rfl, ?_⟩
    simp [endpoint, Endpoint.success, Document.admits_statistics delivered]

end Desk.Command

/-! ### Handlers -/

namespace Endpoint

/-- How a handler goes about a request: it carries out the command that is asked for and replies
with what this gives, or it asks for none and tells of an error. -/
inductive Handles (e : Endpoint) (r : Request) : Act Reply → Prop
  | carried {command : Desk.Command} (asks : e.command? r = some command)
      (endpoint : command.endpoint = e) (named : command.Named) :
      Handles e r (perform command.operation >>= fun a => pure (command.reply a))
  | refused {reply : Reply} (asks : e.command? r = none) (error : reply.IsError) :
      Handles e r (pure reply)

variable {e : Endpoint} {r : Request}

theorem handles_withFields {handle : (String → Value) → Act Reply}
    (unread : r.fields? = none → e.command? r = none)
    (read : ∀ field, r.fields? = some field → e.Handles r (handle field)) :
    e.Handles r (withFields r handle) := by
  unfold withFields
  unfold Request.fields? at unread read
  cases document : r.document? with
  | none =>
    rw [document] at unread
    exact .refused (unread rfl) Reply.isError_serverError
  | some v =>
    rw [document] at unread read
    cases v with
    | object fields => exact read _ rfl
    | _ => exact .refused (unread rfl) Reply.isError_serverError

theorem handles_withParameter {name : String} {handle : String → Act Reply}
    (unread : r.parameter? name = none → e.command? r = none)
    (read : ∀ s, r.parameter? name = some s → e.Handles r (handle s)) :
    e.Handles r (withParameter r name handle) := by
  unfold withParameter
  unfold Request.parameter? at unread read
  cases last : Query.last? r.query name with
  | none =>
    rw [last] at unread
    exact .refused (unread rfl) (Reply.isError_invalid _)
  | some s =>
    rw [last] at unread read
    by_cases empty : s.isEmpty = true
    · simp only [empty, if_true] at unread ⊢
      exact .refused (unread trivial) (Reply.isError_invalid _)
    · simp only [empty, Bool.false_eq_true, if_false] at read ⊢
      exact read s rfl

theorem handles_unless (command : Desk.Command) {missing : Bool} {message : String}
    {carry : Act Reply} (asks : e.command? r = if missing then none else some command)
    (carries : e.command? r = some command → e.Handles r carry) :
    e.Handles r (if missing then pure (Reply.invalid message) else carry) := by
  cases missing with
  | true => exact .refused asks (Reply.isError_invalid message)
  | false => exact carries asks

theorem handles_addTeam (r : Request) : Handles .addTeam r (handleAddTeam r) := by
  unfold handleAddTeam
  cases document : r.document? with
  | none => exact .refused (by simp [command?, document]) Reply.isError_serverError
  | some v =>
    dsimp only
    cases form : TeamForm.read v with
    | error field => exact .refused (by simp [command?, document, form]) (Reply.isError_invalid _)
    | ok team =>
      obtain ⟨name, members⟩ := team
      have asks : addTeam.command? r = some (.createTeam (.text (.plain name))
          (members.map fun m => Desk.MemberEntry.ofDraft m.draft)) := by
        simp [command?, document, form]
      exact .carried asks rfl ⟨⟨name, rfl⟩, members, rfl⟩

theorem handles_setActive (r : Request) : Handles .setActive r (handleSetActive r) := by
  apply handles_withFields
  · intro unread
    simp [command?, unread]
  intro field read
  obtain ⟨asked, asks⟩ : ∃ asked, setActive.command? r = asked := ⟨_, rfl⟩
  have means := asks
  simp only [command?, read, Option.bind_some] at means
  generalize field "user_id" = id, field "is_active" = active at means ⊢
  subst means
  cases active with
  | bool active =>
    cases id with
    | null => exact .refused asks (Reply.isError_invalid _)
    | _ => exact .carried asks rfl trivial
  | _ => cases id <;> exact .refused asks (Reply.isError_invalid _)

/-- Every handler but the one that tells whether the service is well goes about it so. -/
theorem handles (e : Endpoint) (service : e ≠ .health) (r : Request) :
    e.Handles r (e.handle r) := by
  cases e with
  | health => exact absurd rfl service
  | addTeam => exact handles_addTeam r
  | setActive => exact handles_setActive r
  | getTeam =>
    apply handles_withParameter
    · intro unread
      simp [command?, unread]
    · intro s read
      have asks : getTeam.command? r = some (.getTeam (.text (.plain s))) := by
        simp [command?, read]
      exact .carried asks rfl ⟨s, rfl⟩
  | getReview =>
    apply handles_withParameter
    · intro unread
      simp [command?, unread]
    · intro s read
      have asks : getReview.command? r = some (.reviewAssignments (.text (.plain s))) := by
        simp [command?, read]
      exact .carried asks rfl ⟨s, rfl⟩
  | statistics => exact .carried (show statistics.command? r = some .overview from rfl) rfl trivial
  | deactivateTeam =>
    unfold handle handleDeactivateTeam
    apply handles_withFields
    · intro unread
      simp [command?, unread]
    · intro field read
      apply handles_unless (.deactivateTeam (field "team_name"))
      · simp [command?, read]
      · intro asks
        exact .carried asks rfl trivial
  | createPullRequest =>
    unfold handle handleCreate
    apply handles_withFields
    · intro unread
      simp [command?, unread]
    · intro field read
      apply handles_unless (.createPullRequest (field "pull_request_id")
        (field "pull_request_name") (field "author_id"))
      · simp [command?, read]
      · intro asks
        exact .carried asks rfl trivial
  | mergePullRequest =>
    unfold handle handleMerge
    apply handles_withFields
    · intro unread
      simp [command?, unread]
    · intro field read
      apply handles_unless (.merge (field "pull_request_id"))
      · simp [command?, read]
      · intro asks
        exact .carried asks rfl trivial
  | reassignPullRequest =>
    unfold handle handleReassign
    apply handles_withFields
    · intro unread
      simp [command?, unread]
    · intro field read
      apply handles_unless (.reassign (field "pull_request_id") (field "old_user_id"))
      · simp [command?, read]
      · intro asks
        exact .carried asks rfl trivial

end Endpoint

/-! ### Serving -/

namespace Request

variable {r : Request} {e : Endpoint} {i : Interruption} {w : World}

/-- How a request ends that has come to its handler: in an error, with nothing done or after its
command has failed, or in the reply of its command. -/
inductive Served (r : Request) (e : Endpoint) (i : Interruption) (w : World) :
    Except Failure Reply × World → Prop
  | refused {reply : Reply} (asks : e.command? r = none) (error : reply.IsError) :
      Served r e i w (.ok reply, w)
  | failed {command : Desk.Command} {f : Failure} {v : World} {reply : Reply}
      (asks : e.command? r = some command) (endpoint : command.endpoint = e)
      (named : command.Named)
      (run : command.operation.act w.preferences.operationTimeout i w = (.error f, v))
      (error : reply.IsError) : Served r e i w (.ok reply, v)
  | delivered {command : Desk.Command} {a : command.Result} {v : World}
      (asks : e.command? r = some command) (endpoint : command.endpoint = e)
      (named : command.Named)
      (run : command.operation.act w.preferences.operationTimeout i w = (.ok a, v)) :
      Served r e i w (.ok (command.reply a).sent, v)

theorem served_of_handles {x : Act Reply} (handles : e.Handles r x) :
    Served r e i w ((do
      let reply ← Endpoint.answered x
      return reply.sent : Act Reply) i w) := by
  cases handles with
  | @refused reply asks error =>
    show Served r e i w (.ok reply.sent, w)
    rw [error.sent]
    exact .refused asks error
  | @carried command asks endpoint named =>
    cases run : command.operation.act w.preferences.operationTimeout i w with
    | mk outcome v =>
      have handled : (Endpoint.perform command.operation >>= fun a => pure (command.reply a)) i w =
          (match outcome with
            | .ok a => (.ok (command.reply a), v)
            | .error f => (.error f, v)) := by
        simp only [Endpoint.perform, Act.bind_apply, Act.world_apply, run]
        cases outcome <;> rfl
      rw [Act.bind_apply, Endpoint.answered, Act.orElse_apply, handled]
      cases outcome with
      | ok a => exact .delivered asks endpoint named run
      | error f =>
        have told (reply : Reply) (error : reply.IsError) : Served r e i w (.ok reply.sent, v) := by
          rw [error.sent]
          exact .failed asks endpoint named run error
        cases f with
        | refused refusal => exact told _ (Reply.isError_refused refusal)
        | _ => exact told _ Reply.isError_serverError

theorem serve_eq (route : Endpoint.ofPath? r.path = some e)
    (short : Query.size r.query ≤ Query.maxSize) (json : r.wantsJson = true)
    (method : Case.upper r.method = e.method) :
    r.serve = (do
      let reply ← Endpoint.answered (e.handle r)
      return reply.sent) := by
  unfold serve
  simp only [route, json, method, Bool.not_true, Bool.false_eq_true, ne_eq, not_true_eq_false,
    if_false, if_neg (Nat.not_lt.mpr short)]

theorem serve_of_unqueried (unqueried : r.query = "") (accepts : r.acceptsJson = true)
    (route : Endpoint.ofPath? r.path = some e)
    (method : Case.upper r.method = e.method) :
    r.serve = (do
      let reply ← Endpoint.answered (e.handle r)
      return reply.sent) := by
  have short : Query.size r.query ≤ Query.maxSize := by
    rw [unqueried, Query.size_empty]
    decide
  exact serve_eq route short (wantsJson_of_unqueried unqueried accepts) method

theorem served (route : Endpoint.ofPath? r.path = some e) (service : e ≠ .health)
    (short : Query.size r.query ≤ Query.maxSize) (json : r.wantsJson = true)
    (method : Case.upper r.method = e.method) : Served r e i w (r.serve i w) := by
  rw [serve_eq route short json method]
  exact served_of_handles (e.handles service r)

end Request

end ReviewRota
