import ReviewRota.Json.Printer
import ReviewRota.Proofs.Desk.Rollback
import ReviewRota.Proofs.Http.Command
import ReviewRota.Proofs.Interleaving.Whole
import ReviewRota.Scenario.Turn

/-!
# Authors who review

Reviewers are chosen among stored users, and the author is passed over by comparing ids. An id that
comes as a number is stored as a text, but it is compared as it came, and so it is not found among
the stored ones. No stored pull request has its author among its reviewers unless it was created by
a request whose document gave the author by something other than a text.
-/

namespace ReviewRota

namespace Interleaving

/-- What holds of the authors who review holds of them still if it holds of those whom a creation
named by something other than a text. -/
theorem Chronicle.authors_reviewing {t u : Tables} {log : List Entry} {B : String → Prop}
    (chronicle : Chronicle t log u)
    (before : ∀ p ∈ t.pullRequests, p.author ∈ p.reviewers → B p.author)
    (created : ∀ e ∈ log, ∀ id name author s, e.command = .createPullRequest id name author →
      ¬author.IsText → author.column = .ok (some s) → B s) :
    ∀ p ∈ u.pullRequests, p.author ∈ p.reviewers → B p.author := by
  refine chronicle.forall_pullRequest before (fun e member p creates reviews => ?_) ?_
  · obtain ⟨id, name, author, members, limit, command, column, chosen⟩ := creates.asked
    refine created e member id name author _ command (fun text => ?_) column
    have taken := Roster.taken_pick members author.string? limit
    rw [← chosen, text.string?_of_column column] at taken
    exact taken.foreign p.author reviews rfl
  · intro edit q fits old reviews
    obtain ⟨author, reviewed⟩ := fits.reviews reviews
    exact author ▸ old reviewed

end Interleaving

theorem Request.asks_createPullRequest {r : Request} {id name author : Value}
    (asks : r.command? = some (.createPullRequest id name author)) :
    Endpoint.ofPath? r.path = some .createPullRequest ∧
      ∃ field, r.fields? = some field ∧ field "author_id" = author := by
  unfold command? at asks
  split at asks
  · cases asks
  rename_i e address
  split at asks
  · cases asks
  cases e with
  | createPullRequest =>
    obtain ⟨field, found, asks⟩ := Option.bind_eq_some_iff.mp asks
    dsimp only at asks
    split at asks
    · cases asks
    · cases asks
      exact ⟨address, field, found, rfl⟩
  | addTeam =>
    simp only [Endpoint.command?] at asks
    split at asks
    · cases asks
    · split at asks <;> cases asks
  | getTeam | getReview =>
    obtain ⟨_, _, other⟩ := Option.map_eq_some_iff.mp asks
    cases other
  | setActive | deactivateTeam | mergePullRequest =>
    obtain ⟨_, _, other⟩ := Option.bind_eq_some_iff.mp asks
    split at other <;> cases other
  | reassignPullRequest =>
    obtain ⟨_, _, other⟩ := Option.bind_eq_some_iff.mp asks
    dsimp only at other
    split at other <;> cases other
  | statistics | health => cases asks

namespace Scenario

namespace Turn

/-- A turn on its own that sends a request or changes settings. -/
structure IsHttp (t : Turn) : Prop where
  alone : t.interjections = []
  action : (∃ changes, t.step.action = .configure changes) ∨ ∃ r, t.step.action = .http r

def begun (t : Turn) (w : World) : World := { t.start w with now := t.step.now.getD w.now }

variable {t : Turn} {w : World}

theorem world_take (alone : t.interjections = []) :
    (t.take w).2 = (t.step.action.act .none (t.begun w)).2 := by
  have act : (t.step.act (interruption t.interjections) (t.start w)) =
      t.step.action.act .none (t.begun w) := by
    rw [alone]
    rfl
  unfold take Step.outcome
  dsimp only
  rw [act]
  generalize t.step.action.act .none (t.begun w) = outcome
  obtain ⟨e | a, v⟩ := outcome <;> rfl

theorem world_take_http (alone : t.interjections = []) {r : Request}
    (http : t.step.action = .http r) :
    (t.take w).2 = (t.begun w).commanded .none r.command? := by
  rw [world_take alone, http]
  exact (Endpoint.world_bind_pure _ _).trans (r.world_serve _ _)

end Turn

/-! ### Sequences of requests -/

/-- The request is a creation whose document gives the author, who is stored as `s`, by something
other than a text. -/
def MistypesAuthor (r : Request) (s : String) : Prop :=
  Endpoint.ofPath? r.path = some .createPullRequest ∧
    ∃ field, r.fields? = some field ∧ ¬(field "author_id").IsText ∧
      (field "author_id").column = .ok (some s)

/-- Between requests: the world is at rest, and the authors who review are accounted for. -/
structure Accounted (B : String → Prop) (w : World) : Prop where
  resting : w.Resting
  keyed : w.tables.Keyed
  authors : ∀ p ∈ w.tables.pullRequests, p.author ∈ p.reviewers → B p.author

variable {B : String → Prop} {w : World}

theorem Accounted.begun (accounted : Accounted B w) (t : Turn) : Accounted B (t.begun w) where
  resting := ⟨accounted.resting.depth, accounted.resting.unspoiled, accounted.resting.linked⟩
  keyed := accounted.keyed
  authors := accounted.authors

theorem Accounted.commanded (accounted : Accounted B w) (command? : Option Desk.Command)
    (mistypes : ∀ id name author s, command? = some (.createPullRequest id name author) →
      ¬author.IsText → author.column = .ok (some s) → B s) :
    Accounted B (w.commanded .none command?) := by
  cases command? with
  | none => exact accounted
  | some command =>
    constructor
    · exact command.operation.keeps_resting _ w accounted.resting
    · exact command.operation.keeps_keyed _ w accounted.keyed
    · obtain ⟨log, chronicle, own⟩ := Interleaving.chronicle_of_act command
        w.preferences.operationTimeout accounted.resting accounted.keyed
      refine chronicle.authors_reviewing accounted.authors fun e member id name author s asks => ?_
      exact mistypes id name author s (by rw [← own e member, asks])

theorem Accounted.take (accounted : Accounted B w) {t : Turn} (http : t.IsHttp)
    (mistyped : ∀ r s, t.step.action = .http r → MistypesAuthor r s → B s) :
    Accounted B (t.take w).2 := by
  have begun := accounted.begun t
  obtain ⟨changes, configures⟩ | ⟨r, sends⟩ := http.action
  · rw [Turn.world_take http.alone, configures]
    have rests := begun.resting
    exact ⟨⟨rests.depth, rests.unspoiled, rests.linked⟩, begun.keyed, begun.authors⟩
  · rw [Turn.world_take_http http.alone sends]
    refine begun.commanded _ fun id name author s asks untexted column => ?_
    obtain ⟨address, field, fields, rfl⟩ := Request.asks_createPullRequest asks
    exact mistyped r s sends ⟨address, field, fields, untexted, column⟩

theorem Accounted.play (accounted : Accounted B w) {turns : List Turn}
    (http : ∀ t ∈ turns, t.IsHttp)
    (mistyped : ∀ t ∈ turns, ∀ r s, t.step.action = .http r → MistypesAuthor r s → B s) :
    Accounted B (play turns w).2 := by
  induction turns generalizing w with
  | nil => exact accounted
  | cons t turns ih =>
    obtain ⟨first, rest⟩ := List.forall_mem_cons.mp http
    obtain ⟨now, later⟩ := List.forall_mem_cons.mp mistyped
    exact ih (accounted.take first now) rest later

/-- One request after the other, from a database where no author reviews: wherever an author has
come to review, a request has given this author by something other than a text. -/
theorem authors_review_mistyped {turns : List Turn} {w : World} (resting : w.Resting)
    (keyed : w.tables.Keyed) (http : ∀ t ∈ turns, t.IsHttp)
    (clean : ∀ p ∈ w.tables.pullRequests, p.author ∉ p.reviewers) :
    ∀ p ∈ (play turns w).2.tables.pullRequests, p.author ∈ p.reviewers →
      ∃ t ∈ turns, ∃ r, t.step.action = .http r ∧ MistypesAuthor r p.author := by
  have begins : Accounted (fun s => ∃ t ∈ turns, ∃ r, t.step.action = .http r ∧
      MistypesAuthor r s) w :=
    ⟨resting, keyed, fun p member reviews => absurd reviews (clean p member)⟩
  have ends := begins.play http fun t member r s sends mistypes => ⟨t, member, r, sends, mistypes⟩
  exact ends.authors

/-! ### A number for an author -/

def posted (path : String) (fields : List (String × Value)) : Request where
  method := "POST"
  path := path
  query := ""
  body := (Json.print (Reply.object fields)).toList.map Char.toNat
  contentType := "application/json"
  databaseDown := false

def sending (r : Request) : Turn := ⟨⟨none, .http r⟩, .zero false, []⟩

/-- A team of one whose id is a digit. -/
def digitTeam : Request :=
  posted "/team/add" [("team_name", "core"), ("members", .list
    [Reply.object [("user_id", "1"), ("username", "Ann"), ("is_active", .bool true)]])]

/-- A pull request of the first member, whose id is given as a number. -/
def numberedAuthor : Request :=
  posted "/pullRequest/create"
    [("pull_request_id", "pr-1"), ("pull_request_name", "Search"), ("author_id", .int 1)]

theorem world_sending (r : Request) (w : World) :
    ((sending r).take w).2 = ((sending r).begun w).commanded .none r.command? :=
  Turn.world_take_http rfl rfl

def numbered : List Turn := [sending digitTeam, sending numberedAuthor]

theorem play_numbered :
    ((play numbered Desk.nowhere).2.tables.pullRequests.map fun p => (p.author, p.reviewers)) =
      [("1", ["1"])] := by
  have team := Request.command?_of_unqueried (r := digitTeam) rfl (by decide +kernel)
  have author := Request.command?_of_unqueried (r := numberedAuthor) rfl (by decide +kernel)
  rw [numbered, world_play_cons, world_play_cons, world_sending, world_sending, team, author]
  decide +kernel

theorem exists_numbered : ∃ p ∈ (play numbered Desk.nowhere).2.tables.pullRequests,
    p.author = "1" ∧ p.author ∈ p.reviewers := by
  have stored : ("1", ["1"]) ∈ (play numbered Desk.nowhere).2.tables.pullRequests.map
      fun p => (p.author, p.reviewers) := by
    rw [play_numbered]
    exact List.mem_singleton_self _
  obtain ⟨p, member, same⟩ := List.mem_map.mp stored
  obtain ⟨author, reviewers⟩ := Prod.mk.inj same
  refine ⟨p, member, author, ?_⟩
  rw [author, reviewers]
  exact List.mem_singleton_self _

/-- The author is stored as a reviewer of their own pull request. -/
theorem author_reviews_numbered :
    ¬∀ p ∈ (play numbered Desk.nowhere).2.tables.pullRequests, p.author ∉ p.reviewers := by
  intro foreign
  obtain ⟨p, member, -, reviews⟩ := exists_numbered
  exact foreign p member reviews

theorem authors_review_mistyped_numbered :
    ∃ t ∈ numbered, ∃ r, t.step.action = .http r ∧ MistypesAuthor r "1" := by
  have resting : Desk.nowhere.Resting := ⟨rfl, rfl, Interleaving.Database.empty.linked⟩
  have http : ∀ t ∈ numbered, t.IsHttp := by
    simp only [numbered, List.forall_mem_cons]
    exact ⟨⟨rfl, .inr ⟨_, rfl⟩⟩, ⟨rfl, .inr ⟨_, rfl⟩⟩, List.forall_mem_nil _⟩
  obtain ⟨p, member, author, reviews⟩ := exists_numbered
  have mistyped := authors_review_mistyped resting Interleaving.Database.empty.keyed http
    (List.forall_mem_nil _) p member reviews
  rwa [author] at mistyped

end Scenario

end ReviewRota
