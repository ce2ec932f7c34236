import ReviewRota.Desk.Command
import ReviewRota.Http.Endpoint

/-!
# What a request asks for

A request that is in order asks the desk for one command, with the values of its document or its
query as they are, and one that is not asks for nothing. All that serving a request does to the
world is to carry out its command under the configured time limit.
-/

namespace ReviewRota

namespace Request

def parameter? (r : Request) (name : String) : Option String :=
  match Query.last? r.query name with
  | none => none
  | some s => if s.isEmpty then none else some s

def fields? (r : Request) : Option (String → Value) :=
  match r.document? with
  | some (.object fields) => some fun key => ((Value.object fields).field? key).getD .null
  | _ => none

end Request

namespace Endpoint

def command? : Endpoint → Request → Option Desk.Command
  | addTeam, r =>
    match r.document? with
    | none => none
    | some v =>
      match TeamForm.read v with
      | .error _ => none
      | .ok (name, members) =>
        some (.createTeam (.text (.plain name))
          (members.map fun m => Desk.MemberEntry.ofDraft m.draft))
  | getTeam, r => (r.parameter? "team_name").map fun name => .getTeam (.text (.plain name))
  | setActive, r => r.fields?.bind fun field =>
    match field "user_id", field "is_active" with
    | .null, _ => none
    | _, .null => none
    | id, .bool active => some (.setUserActive id (.bool active))
    | _, _ => none
  | getReview, r => (r.parameter? "user_id").map fun id => .reviewAssignments (.text (.plain id))
  | deactivateTeam, r => r.fields?.bind fun field =>
    if (field "team_name").isMissing then none else some (.deactivateTeam (field "team_name"))
  | createPullRequest, r => r.fields?.bind fun field =>
    let id := field "pull_request_id"
    let name := field "pull_request_name"
    let author := field "author_id"
    if id.isMissing || name.isMissing || author.isMissing then none
    else some (.createPullRequest id name author)
  | mergePullRequest, r => r.fields?.bind fun field =>
    if (field "pull_request_id").isMissing then none else some (.merge (field "pull_request_id"))
  | reassignPullRequest, r => r.fields?.bind fun field =>
    let id := field "pull_request_id"
    let old := field "old_user_id"
    if id.isMissing || old.isMissing then none else some (.reassign id old)
  | statistics, _ => some .overview
  | health, _ => none

end Endpoint

/-- The command that a request asks for: none at an unknown address, by another method, with too
long a query or for another format than JSON. -/
def Request.command? (r : Request) : Option Desk.Command :=
  match Endpoint.ofPath? r.path with
  | none => none
  | some e =>
    if Query.maxSize < Query.size r.query || !r.wantsJson || Case.upper r.method ≠ e.method then
      none
    else e.command? r

theorem Query.size_empty : Query.size "" = 1 := by decide +kernel

theorem Request.wantsJson_of_unqueried {r : Request} (unqueried : r.query = "")
    (accepts : r.acceptsJson = true) : r.wantsJson = true := by
  have format : Query.last? "" "format" = none := by decide +kernel
  rw [wantsJson, asksForJson, unqueried, format, accepts, Bool.and_self]

theorem Request.command?_of_unqueried {r : Request} (unqueried : r.query = "")
    (accepts : r.acceptsJson = true) :
    r.command? = (match Endpoint.ofPath? r.path with
      | none => none
      | some e => if Case.upper r.method = e.method then e.command? r else none) := by
  have json := wantsJson_of_unqueried unqueried accepts
  unfold command?
  rw [json, unqueried, Query.size_empty]
  cases Endpoint.ofPath? r.path with
  | none => rfl
  | some e => by_cases method : Case.upper r.method = e.method <;> simp [method, Query.maxSize]

/-! ### Serving -/

def World.commanded (w : World) (i : Interruption) : Option Desk.Command → World
  | none => w
  | some c => (c.operation.act w.preferences.operationTimeout i w).2

namespace Endpoint

variable {i : Interruption} {w : World}

theorem world_bind_pure {α β : Type} (x : Act α) (f : α → β) :
    ((x >>= fun a => pure (f a)) i w).2 = (x i w).2 := by
  rw [Act.bind_apply]
  generalize x i w = outcome
  obtain ⟨e | a, v⟩ := outcome <;> rfl

theorem world_unless {α : Type} (missing : Bool) (refusal : Reply) (x : Act α) (f : α → Reply)
    (command : Desk.Command) (carries : (x i w).2 = w.commanded i (some command)) :
    ((if missing then pure refusal else x >>= fun a => pure (f a)) i w).2 =
      w.commanded i (if missing then none else some command) := by
  cases missing with
  | true => rfl
  | false => exact (world_bind_pure x f).trans carries

theorem world_answered (x : Act Reply) : (answered x i w).2 = (x i w).2 := by
  unfold answered
  rw [Act.orElse_apply]
  generalize x i w = outcome
  obtain ⟨e | a, v⟩ := outcome
  · cases e <;> rfl
  · rfl

theorem world_withFields (r : Request) (handle : (String → Value) → Act Reply)
    (command? : (String → Value) → Option Desk.Command)
    (handles : ∀ field, (handle field i w).2 = w.commanded i (command? field)) :
    (withFields r handle i w).2 = w.commanded i (r.fields?.bind command?) := by
  unfold withFields Request.fields?
  cases r.document? with
  | none => rfl
  | some v =>
    cases v with
    | object fields => exact handles _
    | _ => rfl

theorem world_withParameter (r : Request) (name : String) (handle : String → Act Reply)
    (command : String → Desk.Command)
    (handles : ∀ s, (handle s i w).2 = w.commanded i (some (command s))) :
    (withParameter r name handle i w).2 = w.commanded i ((r.parameter? name).map command) := by
  unfold withParameter Request.parameter?
  cases Query.last? r.query name with
  | none => rfl
  | some s =>
    dsimp only
    split
    · rfl
    · exact handles s

/-- A handler carries out the command of its request. -/
theorem world_handle (e : Endpoint) (r : Request) (i : Interruption) (w : World) :
    (e.handle r i w).2 = w.commanded i (e.command? r) := by
  cases e with
  | addTeam =>
    show (handleAddTeam r i w).2 = w.commanded i (command? addTeam r)
    simp only [handleAddTeam, command?]
    cases r.document? with
    | none => rfl
    | some v =>
      cases form : TeamForm.read v with
      | error field =>
        simp only [form]
        rfl
      | ok team =>
        simp only [form]
        exact world_bind_pure _ _
  | getTeam => exact world_withParameter r _ _ _ fun _ => world_bind_pure _ _
  | setActive =>
    apply world_withFields
    intro field
    generalize field "user_id" = id, field "is_active" = active
    cases active with
    | bool active => cases id <;> first | rfl | exact world_bind_pure _ _
    | _ => cases id <;> rfl
  | getReview => exact world_withParameter r _ _ _ fun _ => world_bind_pure _ _
  | deactivateTeam => exact world_withFields r _ _ fun _ => world_unless _ _ _ _ _ rfl
  | createPullRequest => exact world_withFields r _ _ fun _ => world_unless _ _ _ _ _ rfl
  | mergePullRequest => exact world_withFields r _ _ fun _ => world_unless _ _ _ _ _ rfl
  | reassignPullRequest => exact world_withFields r _ _ fun _ => world_unless _ _ _ _ _ rfl
  | statistics => exact world_bind_pure _ _
  | health =>
    show (handleHealth r i w).2 = w
    unfold handleHealth
    split <;> rfl

end Endpoint

/-- Serving a request carries out its command, whatever the reply. -/
theorem Request.world_serve (r : Request) (i : Interruption) (w : World) :
    (r.serve i w).2 = w.commanded i r.command? := by
  unfold serve command?
  cases Endpoint.ofPath? r.path with
  | none => rfl
  | some e =>
    by_cases long : Query.maxSize < Query.size r.query
    · simp [long, World.commanded]
    by_cases json : r.wantsJson = true
    · by_cases method : Case.upper r.method = e.method
      · simp only [long, json, method, Bool.not_true, Bool.false_eq_true, ne_eq, not_true_eq_false,
          decide_false, Bool.or_self, if_false]
        exact (Endpoint.world_bind_pure _ _).trans
          ((Endpoint.world_answered _).trans (e.world_handle r i w))
      · simp [long, json, method, World.commanded]
    · simp [long, json, World.commanded]

end ReviewRota
