import ReviewRota.Desk.Overview
import ReviewRota.Desk.PullRequests
import ReviewRota.Desk.Teams
import ReviewRota.Desk.Users
import ReviewRota.Http.Document
import ReviewRota.Http.Request
import ReviewRota.Http.TeamForm

/-!
# Endpoints

The ten addresses of the service. Each checks what it needs of the request, carries out one
operation of the desk under the configured time limit, and replies; a refusal is told with its code,
and any other failure is only told to be one.
-/

namespace ReviewRota

inductive Endpoint where
  | addTeam
  | getTeam
  | setActive
  | getReview
  | deactivateTeam
  | createPullRequest
  | mergePullRequest
  | reassignPullRequest
  | statistics
  | health
  deriving DecidableEq

namespace Endpoint

def path : Endpoint → String
  | addTeam => "/team/add"
  | getTeam => "/team/get"
  | setActive => "/users/setIsActive"
  | getReview => "/users/getReview"
  | deactivateTeam => "/users/deactivateTeam"
  | createPullRequest => "/pullRequest/create"
  | mergePullRequest => "/pullRequest/merge"
  | reassignPullRequest => "/pullRequest/reassign"
  | statistics => "/stats"
  | health => "/health"

def method : Endpoint → String
  | getTeam => "GET"
  | getReview => "GET"
  | statistics => "GET"
  | health => "GET"
  | _ => "POST"

def all : List Endpoint :=
  [addTeam, getTeam, setActive, getReview, deactivateTeam, createPullRequest, mergePullRequest,
    reassignPullRequest, statistics, health]

theorem mem_all (e : Endpoint) : e ∈ all := by cases e <;> decide

def title : Endpoint → String
  | addTeam => "Team Add"
  | getTeam => "Team Get"
  | setActive => "User Set Active"
  | getReview => "Users Get Review"
  | deactivateTeam => "Team Deactivate"
  | createPullRequest => "Pullrequest Create"
  | mergePullRequest => "Pullrequest Merge"
  | reassignPullRequest => "Pullrequest Reassign"
  | statistics => "Stats Overview"
  | health => "Health Check"

def purpose : Endpoint → String
  | addTeam => "POST /team/add - Создать команду с участниками"
  | getTeam => "GET /team/get - Получить команду с участниками"
  | setActive => "POST /users/setIsActive - Установить флаг активности пользователя"
  | getReview => "GET /users/getReview - Получить PR'ы, где пользователь назначен ревьювером"
  | deactivateTeam =>
    "POST /users/deactivateTeam - Деактивировать всех участников команды\n\n" ++
      "Не атомарно: при ошибке часть участников может остаться деактивированной,\n" ++
      "повторный запрос безопасен."
  | createPullRequest => "POST /pullRequest/create - Создать PR и назначить ревьюверов"
  | mergePullRequest => "POST /pullRequest/merge - Пометить PR как MERGED"
  | reassignPullRequest => "POST /pullRequest/reassign - Переназначить ревьювера"
  | statistics => "GET /stats - Общая статистика по PR и пользователям"
  | health => "GET /health - Health check с проверкой соединения с базой"

/-- What an address tells of itself. -/
def description (e : Endpoint) : Reply :=
  .json 200 [("name", e.title), ("description", e.purpose), ("renders", .list ["application/json"]),
    ("parses", .list ["application/json"])]

/-- The reply to another method than the one of the address. -/
def unhandled (e : Endpoint) (method : String) : Reply :=
  if method = "OPTIONS" then e.description else .methodNotAllowed method

/-- Paths are compared as they are, to the letter. -/
def ofPath? (s : String) : Option Endpoint := all.find? (fun e => e.path = s)

/-! ### Handling -/

def answered (x : Act Reply) : Act Reply :=
  x.orElse (fun
    | .refused r => return .refused r
    | _ => return .serverError)

/-- Carries out an operation under the configured time limit. -/
def perform {α : Type} (o : Operation α) : Act α := do
  let w ← Act.world
  o.act w.preferences.operationTimeout

/-- The fields of the document in the body, null where there is none. -/
def withFields (r : Request) (handle : (String → Value) → Act Reply) : Act Reply :=
  match r.document? with
  | some (.object fields) => handle (fun key => ((Value.object fields).field? key).getD .null)
  | _ => return .serverError

/-- A parameter of the query that must not be empty. -/
def withParameter (r : Request) (name : String) (handle : String → Act Reply) : Act Reply :=
  match Query.last? r.query name with
  | none => return .invalid (name ++ " parameter is required")
  | some s => if s.isEmpty then return .invalid (name ++ " parameter is required") else handle s

def handleAddTeam (r : Request) : Act Reply :=
  match r.document? with
  | none => return .serverError
  | some v =>
    match TeamForm.read v with
    | .error field => return .invalid ("invalid or missing field '" ++ field ++ "'")
    | .ok (name, members) => do
      let entries := members.map (fun m => Desk.MemberEntry.ofDraft m.draft)
      let t ← perform (Desk.createTeam (.text (.plain name)) entries)
      return .json 201 [("team", Document.team t)]

def handleGetTeam (r : Request) : Act Reply :=
  withParameter r "team_name" (fun name => do
    let t ← perform (Desk.getTeam (.text (.plain name)))
    return ⟨200, some (Document.team t)⟩)

def handleSetActive (r : Request) : Act Reply :=
  withFields r (fun field =>
    match field "user_id", field "is_active" with
    | .null, _ => return .invalid "user_id and is_active are required"
    | _, .null => return .invalid "user_id and is_active are required"
    | id, .bool active => do
      let u ← perform (Desk.setUserActive id (.bool active))
      return .json 200 [("user", Document.user u)]
    | _, _ => return .invalid "is_active must be a boolean")

def handleGetReview (r : Request) : Act Reply :=
  withParameter r "user_id" (fun id => do
    let ps ← perform (Desk.reviewAssignments (.text (.plain id)))
    return .json 200 [("user_id", id), ("pull_requests", .list (ps.map Document.pullRequestInBrief))])

def handleDeactivateTeam (r : Request) : Act Reply :=
  withFields r (fun field =>
    let name := field "team_name"
    if name.isMissing then return .invalid "team_name is required"
    else do
      let us ← perform (Desk.deactivateTeam name)
      return .json 200 [("team_name", name), ("deactivated", .list (us.map Document.user))])

def handleCreate (r : Request) : Act Reply :=
  withFields r (fun field =>
    let id := field "pull_request_id"
    let name := field "pull_request_name"
    let author := field "author_id"
    if id.isMissing || name.isMissing || author.isMissing then
      return .invalid "pull_request_id, pull_request_name, and author_id are required"
    else do
      let p ← perform (Desk.createPullRequest id name author)
      return .json 201 [("pr", Document.pullRequest p)])

def handleMerge (r : Request) : Act Reply :=
  withFields r (fun field =>
    let id := field "pull_request_id"
    if id.isMissing then return .invalid "pull_request_id is required"
    else do
      let p ← perform (Desk.merge id)
      return .json 200 [("pr", Document.pullRequest p)])

def handleReassign (r : Request) : Act Reply :=
  withFields r (fun field =>
    let id := field "pull_request_id"
    let old := field "old_user_id"
    if id.isMissing || old.isMissing then
      return .invalid "pull_request_id and old_user_id are required"
    else do
      let (p, successor) ← perform (Desk.reassign id old)
      return .json 200 [("pr", Document.pullRequest p), ("replaced_by", successor)])

def handleStatistics : Act Reply := do
  let s ← perform Desk.overview
  return .json 200 [("stats", Document.statistics s)]

def handleHealth (r : Request) : Act Reply :=
  if r.databaseDown then return .json 503 [("status", "unhealthy")]
  else return .json 200 [("status", "healthy")]

def handle (e : Endpoint) (r : Request) : Act Reply :=
  match e with
  | addTeam => handleAddTeam r
  | getTeam => handleGetTeam r
  | setActive => handleSetActive r
  | getReview => handleGetReview r
  | deactivateTeam => handleDeactivateTeam r
  | createPullRequest => handleCreate r
  | mergePullRequest => handleMerge r
  | reassignPullRequest => handleReassign r
  | statistics => handleStatistics
  | health => handleHealth r

end Endpoint

/-- Serves a request. What the reply is to look like is settled first, then whether the method is
right; the reply is made ready to send after all is done and stored. -/
def Request.serve (r : Request) : Act Reply :=
  match Endpoint.ofPath? r.path with
  | none => return .notFound
  | some e =>
    let method := Case.upper r.method
    if Query.maxSize < Query.size r.query then return .bare 400
    else if !r.wantsJson then return r.unwanted
    else if method ≠ e.method then return e.unhandled method
    else do
      let reply ← Endpoint.answered (e.handle r)
      return reply.sent

end ReviewRota
