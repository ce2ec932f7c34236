import ReviewRota.Proofs.Desk.Flagging
import ReviewRota.Proofs.Desk.Opening
import ReviewRota.Proofs.Desk.Reassigning
import ReviewRota.Proofs.Http.Teams
import ReviewRota.Proofs.Number.Spelling

/-!
# Members by the value that named them

A team takes an id without the blanks at its ends, and a number for its text. The other addresses
take the value as it comes. They store and look for its text, so that a number still leads to the
user, but they compare the value itself, so that it is not found among authors and reviewers. A text
with blanks at its ends leads to nobody.
-/

namespace ReviewRota

/-! ### Values that a form takes for an id -/

theorem Value.column_of_asText {v : Value} {s : String} (given : v ≠ .null)
    (text : v.asText = .plain s) : v.column = .ok (some s) := by
  cases v with
  | null => exact absurd rfl given
  | _ => simp only [column, text]

theorem Value.IsNumber.asText_of_trimmed {v : Value} {s : String} (number : v.IsNumber)
    (trimmed : TeamForm.trimmed? v = some s) : v.asText = .plain s := by
  have spelled := number.strip_spelled
  obtain ⟨i, rfl⟩ | ⟨x, rfl⟩ := number
  · exact congrArg Text.plain (spelled.symm.trans (Option.some.inj trimmed))
  · exact congrArg Text.plain (spelled.symm.trans (Option.some.inj trimmed))

theorem TeamForm.text_or_number {v : Value} {s : String} (trimmed : trimmed? v = some s) :
    (∃ p, v = .text (.plain p) ∧ strip p = s) ∨ v.IsNumber ∧ v.asText = .plain s := by
  cases v with
  | text t =>
    obtain ⟨p, plain, same⟩ := Option.map_eq_some_iff.mp trimmed
    exact .inl ⟨p, congrArg _ (Text.plain?_eq_some.mp plain), same⟩
  | int i =>
    have number : (Value.int i).IsNumber := .inl ⟨i, rfl⟩
    exact .inr ⟨number, number.asText_of_trimmed trimmed⟩
  | float x =>
    have number : (Value.float x).IsNumber := .inr ⟨x, rfl⟩
    exact .inr ⟨number, number.asText_of_trimmed trimmed⟩
  | _ => cases trimmed

theorem Value.IsNumber.string?_eq_none {v : Value} (number : v.IsNumber) : v.string? = none := by
  obtain ⟨i, rfl⟩ | ⟨x, rfl⟩ := number <;> rfl

theorem Value.IsNumber.ne_null {v : Value} (number : v.IsNumber) : v ≠ .null := by
  rintro rfl
  obtain ⟨_, same⟩ | ⟨_, same⟩ := number <;> cases same

/-! ### Creations -/

theorem Desk.mem_chosen_or_full {t : Tables} {author : Value} {u : UserRow} {team : String}
    {limit : Int} (unnamed : author.string? = none) (stored : u ∈ t.users)
    (present : u.team = some team) (active : u.active = true) :
    u.id ∈ chosen t team author limit ∨ limit ≤ (chosen t team author limit).length := by
  have candidate : u.id ∈ Roster.candidates ((t.usersOf (some team)).map UserRow.member) none := by
    refine Roster.mem_candidates.mpr ⟨u.member, ?_, ⟨active, Option.some_ne_none _⟩, rfl⟩
    exact List.mem_map_of_mem (Tables.mem_usersOf.mpr ⟨stored, present⟩)
  rw [chosen, unnamed, Roster.pick_eq_take]
  generalize Roster.candidates ((t.usersOf (some team)).map UserRow.member) none = ids at candidate
  rcases le_total ids.length limit.toNat with few | many
  · left
    rwa [List.take_of_length_le few]
  · right
    rw [List.length_take, min_eq_left many]
    exact Int.self_le_toNat limit

theorem Desk.Opening.unknowns {t u : Tables} {id name author : Value} {limit : Int}
    {now : Timestamp} {r : Except Failure PullRequest} {key : String} {e : Failure}
    (ends : Opening t id name author limit now r u) (column : id.column = .ok (some key))
    (fresh : t.pullRequest? key = none) (failed : Users.found t author = .error e) :
    r = .error e ∧ u = t := by
  cases ends with
  | taken stored =>
    rw [PullRequests.found_of_absent column fresh] at stored
    cases stored
  | unread failed other =>
    rw [PullRequests.found_of_absent column fresh] at failed
    cases failed
    exact absurd rfl other
  | unknown _ _ failed' =>
    cases failed.symm.trans failed'
    exact ⟨rfl, rfl⟩
  | teamless _ _ known => cases failed.symm.trans known
  | unwritten known => cases failed.symm.trans known
  | opened _ _ _ known => cases failed.symm.trans known

namespace Request

variable {r : Request} {w : World} {v : Value} {u : UserRow} {team : String}

/-- A command that is refused is replied to with the refusal. -/
theorem serve_of_refused {command : Desk.Command} (asks : r.command? = some command)
    {i : Interruption} {x : World} {e : Refusal}
    (run : command.operation.act w.preferences.operationTimeout i w = (.error (.refused e), x)) :
    r.serve i w = (.ok (.refused e), x) := by
  rw [(serve_of_asks asks run).2]
  exact congrArg (fun reply => (Except.ok reply, x)) (Reply.isError_refused e).sent

/-! ### What the addresses make of a value -/

/-- The value leads to the user where a flag is set, and where a pull request is opened. -/
structure LeadsTo (w : World) (v : Value) (u : UserRow) (team : String) : Prop where
  flags : ∀ (r : Request) active, r.command? = some (.setUserActive v (.bool active)) →
    ∃ x, r.serve .none w = (.ok (.json 200 [("user", Document.user { u with active })]), x) ∧
      x.tables = w.tables.modifyUser u.id fun u => { u with active }
  opens : ∀ (r : Request) id title key name,
    r.command? = some (.createPullRequest id title v) → id.column = .ok (some key) →
    w.tables.pullRequest? key = none → title.column = .ok (some name) →
    let reviewers := Desk.chosen w.tables team v w.preferences.maxReviewers
    ∃ x, r.serve .none w = (.ok (.json 201
        [("pr", Document.pullRequest (Desk.opened id title v reviewers w.now))]), x) ∧
      x.tables = w.tables.addPullRequest
        ⟨⟨key, name, u.id, Status.opened, w.now, none, 1⟩, reviewers⟩

theorem leadsTo (resting : w.Resting) (untimed : w.preferences.operationTimeout = none)
    (column : v.column = .ok (some u.id)) (stored : w.tables.user? u.id = some u)
    (present : u.team = some team) : LeadsTo w v u team where
  flags r active asks := by
    obtain ⟨_, t, j, c, run, ends⟩ :=
      Desk.setUserActive_ensures (b := active) resting column none w.journal w.clock
    rw [← untimed] at run
    cases ends.of_none with
    | missing absent => cases absent.symm.trans stored
    | flagged stored' =>
      cases stored.symm.trans stored'
      exact ⟨_, serve_of_done asks trivial run, rfl⟩
  opens r id title key name asks written fresh named := by
    obtain ⟨_, t, j, c, run, ends⟩ :=
      Desk.createPullRequest_ensures resting id title v none w.journal w.clock
    rw [← untimed] at run
    obtain ⟨rfl, rfl⟩ :=
      ends.of_none.opens written fresh named (Users.found_of_stored column stored) present
    exact ⟨_, serve_of_done asks trivial run, rfl⟩

/-- Where the user reviews a pull request, the value is taken for this reviewer. -/
def ReplacesBy (w : World) (v : Value) (u : UserRow) : Prop :=
  ∀ (r : Request) id key p, r.command? = some (.reassign id v) → id.column = .ok (some key) →
    w.tables.pullRequest? key = some p → u.id ∈ p.reviewers →
    ∃ reply x, r.serve .none w = (.ok reply, x) ∧
      (p.IsMerged ∧ reply = .refused (.plain .pullRequestMerged) ∨
        ¬p.IsMerged ∧ (reply = .refused (.plain .noCandidate) ∨
          ∃ q successor, reply = .json 200
            [("pr", Document.pullRequest q), ("replaced_by", (successor : Value))]))

theorem replacesBy (resting : w.Resting) (keyed : w.tables.Keyed)
    (untimed : w.preferences.operationTimeout = none) : ReplacesBy w (.text (.plain u.id)) u := by
  intro r id key p asks written found reviews
  obtain ⟨_, t, j, c, run, ends⟩ :=
    Desk.reassign_ensures resting keyed id (.text (.plain u.id)) written none w.journal w.clock
  rw [← untimed] at run
  cases ends.of_none.replacement found with
  | merged final => exact ⟨_, _, serve_of_refused asks run, .inl ⟨final, rfl⟩⟩
  | unassigned _ unknown => exact absurd rfl (unknown u.id reviews)
  | exhausted unmerged => exact ⟨_, _, serve_of_refused asks run, .inr ⟨unmerged, .inl rfl⟩⟩
  | replaced unmerged =>
    exact ⟨_, _, serve_of_done asks trivial run, .inr ⟨unmerged, .inr ⟨_, _, rfl⟩⟩⟩

/-- On no open pull request is the value taken for a reviewer. -/
def ReplacesNobody (w : World) (v : Value) : Prop :=
  ∀ (r : Request) id key p, r.command? = some (.reassign id v) → id.column = .ok (some key) →
    w.tables.pullRequest? key = some p → ¬p.IsMerged →
    ∃ x, r.serve .none w = (.ok (.refused (.plain .notAssigned)), x) ∧ x.tables = w.tables

theorem replacesNobody (resting : w.Resting) (keyed : w.tables.Keyed)
    (untimed : w.preferences.operationTimeout = none)
    (unknown : ∀ p ∈ w.tables.pullRequests, ∀ r ∈ p.reviewers, v.string? ≠ some r) :
    ReplacesNobody w v := by
  intro r id key p asks written found unmerged
  have unknown := unknown p (Tables.pullRequest?_mem found).1
  obtain ⟨_, t, j, c, run, ends⟩ :=
    Desk.reassign_ensures resting keyed id v written none w.journal w.clock
  rw [← untimed] at run
  cases ends.of_none.replacement found with
  | merged final => exact absurd final unmerged
  | unassigned => exact ⟨_, serve_of_refused asks run, rfl⟩
  | exhausted _ reviews named => exact absurd named (unknown _ reviews)
  | replaced _ reviews named => exact absurd named (unknown _ reviews)

/-- The value leads to nobody. -/
structure LeadsNowhere (w : World) (v : Value) : Prop where
  flags : ∀ (r : Request) active, r.command? = some (.setUserActive v (.bool active)) →
    ∃ x, r.serve .none w = (.ok (.refused (Users.missing v)), x) ∧ x.tables = w.tables
  opens : ∀ (r : Request) id title key, r.command? = some (.createPullRequest id title v) →
    id.column = .ok (some key) → w.tables.pullRequest? key = none →
    ∃ x, r.serve .none w = (.ok (.refused (Users.missing v)), x) ∧ x.tables = w.tables
  replaces : ReplacesNobody w v

theorem leadsNowhere (resting : w.Resting) (keyed : w.tables.Keyed)
    (untimed : w.preferences.operationTimeout = none) {p : String}
    (absent : w.tables.user? p = none) : LeadsNowhere w (.text (.plain p)) where
  flags r active asks := by
    obtain ⟨_, t, j, c, run, ends⟩ := Desk.setUserActive_ensures (b := active) resting
      (Value.column_plain p) none w.journal w.clock
    rw [← untimed] at run
    cases ends.of_none with
    | missing => exact ⟨_, serve_of_refused asks run, rfl⟩
    | flagged stored => cases absent.symm.trans stored
  opens r id title key asks written fresh := by
    obtain ⟨_, t, j, c, run, ends⟩ :=
      Desk.createPullRequest_ensures resting id title (.text (.plain p)) none w.journal w.clock
    rw [← untimed] at run
    obtain ⟨rfl, rfl⟩ :=
      ends.of_none.unknowns written fresh (Users.found_of_absent (Value.column_plain p) absent)
    exact ⟨_, serve_of_refused asks run, rfl⟩
  replaces := by
    refine replacesNobody resting keyed untimed fun q member s reviews same => ?_
    obtain rfl : p = s := Option.some.inj same
    exact Tables.user?_eq_none_iff.mp absent ((resting.linked.people member).2 p reviews)

/-! ### Zeros -/

/-- A request in order whose document has the value in this place. -/
structure Carries (r : Request) (e : Endpoint) (key : String) (v : Value) : Prop where
  route : Endpoint.ofPath? r.path = some e
  method : Case.upper r.method = e.method
  short : Query.size r.query ≤ Query.maxSize
  json : r.wantsJson = true
  field : ∃ field, r.fields? = some field ∧ field key = v

theorem withFields_of_fields {field : String → Value} (read : r.fields? = some field)
    (handle : (String → Value) → Act Reply) : Endpoint.withFields r handle = handle field := by
  unfold fields? at read
  unfold Endpoint.withFields
  split at read
  · cases read
    simp only [*]
  · cases read

structure LeavesOut (w : World) (v : Value) : Prop where
  opens : ∀ r : Request, r.Carries .createPullRequest "author_id" v → r.serve .none w =
    (.ok (.invalid "pull_request_id, pull_request_name, and author_id are required"), w)
  replaces : ∀ r : Request, r.Carries .reassignPullRequest "old_user_id" v → r.serve .none w =
    (.ok (.invalid "pull_request_id and old_user_id are required"), w)

theorem leavesOut (missing : v.isMissing = true) : LeavesOut w v where
  opens r carries := by
    obtain ⟨field, read, same⟩ := carries.field
    refine serve_of_invalid carries.route carries.short carries.json carries.method ?_ _
    show Endpoint.handleCreate r = _
    rw [Endpoint.handleCreate, withFields_of_fields read]
    simp only [same, missing, Bool.or_true, if_true]
  replaces r carries := by
    obtain ⟨field, read, same⟩ := carries.field
    refine serve_of_invalid carries.route carries.short carries.json carries.method ?_ _
    show Endpoint.handleReassign r = _
    rw [Endpoint.handleReassign, withFields_of_fields read]
    simp only [same, missing, Bool.or_true, if_true]

/-! ### Members of a new team -/

/-- What has become of a value that a team has taken for the id of a user. -/
inductive Addresses (w : World) (v : Value) (u : UserRow) (team : String) : Prop
  /-- The text that is stored means the user at every address. -/
  | stored (same : v = .text (.plain u.id)) (leads : LeadsTo w v u team)
      (excluded : u.id ∉ Desk.chosen w.tables team v w.preferences.maxReviewers)
      (replaces : ReplacesBy w v u)
  /-- A number leads to the user, but it is neither the author to pass over nor a reviewer to
  replace, and zero is no id of an author or a reviewer at all. -/
  | number (number : v.IsNumber) (text : v.asText = .plain u.id) (leads : LeadsTo w v u team)
      (included : u.active = true →
        let reviewers := Desk.chosen w.tables team v w.preferences.maxReviewers
        u.id ∈ reviewers ∨ w.preferences.maxReviewers ≤ reviewers.length)
      (replaces : ReplacesNobody w v) (zero : v.isMissing = true → LeavesOut w v)
  /-- A text with blanks at its ends leads to nobody, unless another user has this very id. -/
  | padded {p : String} (same : v = .text (.plain p)) (trimmed : strip p = u.id) (other : p ≠ u.id)
      (nobody : w.tables.user? p = none → LeadsNowhere w v)

theorem addresses (resting : w.Resting) (keyed : w.tables.Keyed)
    (untimed : w.preferences.operationTimeout = none)
    (trimmed : TeamForm.trimmed? v = some u.id) (stored : w.tables.user? u.id = some u)
    (present : u.team = some team) : Addresses w v u team := by
  obtain ⟨p, rfl, same⟩ | ⟨number, text⟩ := TeamForm.text_or_number trimmed
  · by_cases unpadded : p = u.id
    · subst unpadded
      refine .stored rfl (leadsTo resting untimed (Value.column_plain _) stored present) ?_
        (replacesBy resting keyed untimed)
      exact fun listed => (Roster.taken_pick _ _ _).foreign u.id listed rfl
    · exact .padded rfl same unpadded fun absent => leadsNowhere resting keyed untimed absent
  · have column := Value.column_of_asText number.ne_null text
    refine .number number text (leadsTo resting untimed column stored present) ?_ ?_ leavesOut
    · exact Desk.mem_chosen_or_full number.string?_eq_none (Tables.user?_mem stored).1 present
    · refine replacesNobody resting keyed untimed fun p _ r _ same => ?_
      cases number.string?_eq_none.symm.trans same

def memberIds (r : Request) : List Value :=
  match r.document?.bind (Value.field? · "members") with
  | some (.list items) => items.filterMap (Value.field? · "user_id")
  | _ => []

theorem memberIds_eq {document : Value} {items : List Value} (found : r.document? = some document)
    (listed : document.field? "members" = some (.list items)) :
    r.memberIds = items.filterMap (Value.field? · "user_id") := by
  rw [memberIds, found, Option.bind_some, listed]

/-- With no limit of time: a value by which a member of a new team is listed is the id of the
member, the blanks at its ends left out. Whether the other addresses mean the member by it, too,
depends on whether it is a number and on whether there were blanks. -/
theorem members_addressed (resting : w.Resting) (keyed : w.tables.Keyed)
    (untimed : w.preferences.operationTimeout = none) (route : r.path = "/team/add")
    {reply : Reply} {x : World} (run : r.serve .none w = (.ok reply, x))
    (created : reply.status = 201) (listed : v ∈ r.memberIds) :
    ∃ u team, TeamForm.trimmed? v = some u.id ∧ x.tables.user? u.id = some u ∧
      u.team = some team ∧ Addresses x v u team := by
  obtain ⟨document, items, name, members, found, founded⟩ :=
    founds resting keyed untimed route run created
  rw [memberIds_eq found founded.reads.listed] at listed
  obtain ⟨item, member, named⟩ := List.mem_filterMap.mp listed
  obtain ⟨m, enrolled, read⟩ := founded.reads.exists_of_mem member
  obtain ⟨v', named', trimmed⟩ := TeamForm.trimmed?_of_member? read
  cases named.symm.trans named'
  have distinct := founded.reads.distinct
  have founding := founded.keyed
  have linked := resting.linked.founded name members
  obtain ⟨j, c, rfl⟩ := founded.after
  have stored : (w.tables.founded name members).user? m.id = some (m.row name) :=
    Tables.user?_founded_of_mem distinct enrolled
  exact ⟨m.row name, name, trimmed, stored, rfl, addresses
    ⟨resting.depth, resting.unspoiled, linked⟩ founding untimed trimmed stored rfl⟩

end Request

/-! ### A number for a member -/

def Value.int? : Value → Option Int
  | int i => some i
  | _ => none

theorem Value.int?_eq_some {v : Value} {i : Int} : v.int? = some i ↔ v = int i := by
  cases v <;> simp [int?]

namespace Scenario

def numberedMember : Request :=
  posted "/team/add" [("team_name", "core"), ("members", .list
    [Reply.object [("user_id", .int 1), ("username", "Ann"), ("is_active", .bool true)]])]

theorem status_numberedMember :
    ((numberedMember.serve .none Desk.nowhere).1.map Reply.status).toOption = some 201 := by
  rw [Request.serve_of_unqueried (e := .addTeam) rfl (by decide +kernel) (by decide)
    (by decide +kernel)]
  decide +kernel

theorem mem_memberIds_numberedMember : .int 1 ∈ numberedMember.memberIds := by
  have read : some 1 ∈ numberedMember.memberIds.map Value.int? := by decide +kernel
  obtain ⟨v, listed, number⟩ := List.mem_map.mp read
  exact Value.int?_eq_some.mp number ▸ listed

/-- The author who was listed by a number and is named by it again reviews. -/
theorem numberedMember_reviews :
    ¬∀ p ∈ (numberedAuthor.serve .none
      (numberedMember.serve .none Desk.nowhere).2).2.tables.pullRequests,
      p.author ∉ p.reviewers := by
  have team := Request.command?_of_unqueried (r := numberedMember) rfl (by decide +kernel)
  have author := Request.command?_of_unqueried (r := numberedAuthor) rfl (by decide +kernel)
  rw [Request.world_serve, Request.world_serve, team, author]
  decide +kernel

end Scenario

theorem Request.members_addressed_numberedMember : ∃ reply x u,
    Scenario.numberedMember.serve .none Desk.nowhere = (.ok reply, x) ∧ reply.status = 201 ∧
      u.id = "1" ∧ x.tables.user? "1" = some u ∧ ReplacesNobody x (.int 1) := by
  have status := Scenario.status_numberedMember
  generalize run : Scenario.numberedMember.serve .none Desk.nowhere = outcome at status
  obtain ⟨_ | reply, x⟩ := outcome
  · cases status
  have created := Option.some.inj status
  obtain ⟨u, team, trimmed, stored, -, addressed⟩ := members_addressed
    ⟨rfl, rfl, Interleaving.Database.empty.linked⟩ Interleaving.Database.empty.keyed rfl rfl run
    created Scenario.mem_memberIds_numberedMember
  cases addressed with
  | stored same => cases same
  | padded same => cases same
  | number _ text _ _ replaces =>
    have same : "1" = u.id := Text.plain.inj text
    exact ⟨reply, x, u, rfl, created, same.symm, same ▸ stored, replaces⟩

end ReviewRota
