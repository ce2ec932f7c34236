import ReviewRota.Proofs.Desk.Cancelling
import ReviewRota.Proofs.Desk.Limits

/-!
# What a request says about snapshots and limits

On a server that takes directives only the overview asks for a snapshot, and only where its
transaction is the outermost one: there it asks once, before anything else is said or read. Limits
are only set while a transaction is open, and none is set for a request that has all the time it
wants.
-/

namespace ReviewRota

inductive Event.IsLimit : Event → Prop
  | intro (n : Int) : (directed (.limit n)).IsLimit

/-! ### Depth -/

namespace Session

variable {s : Session} {es fs : List Event}

@[simp] theorem depth_after_closed (s : Session) : (s.after .closed).depth = s.depth - 1 := by
  show (if s.depth ≤ 1 then {} else { s with depth := s.depth - 1 } : Session).depth = s.depth - 1
  split
  · show 0 = s.depth - 1
    omega
  · rfl

@[simp] theorem depth_after_directed (s : Session) (d : Directive) :
    (s.after (.directed d)).depth = s.depth := by
  cases d <;> rfl

def Level (es : List Event) : Prop := ∀ s : Session, (s.run es).depth = s.depth

theorem Level.append (first : Level es) (second : Level fs) : Level (es ++ fs) := fun s => by
  rw [run_append, second, first]

theorem Level.nested (inner : Level es) : Level (.opened :: (es ++ [.closed])) := fun s => by
  rw [run_cons, run_append, run_cons, run_nil, depth_after_closed, inner]
  rfl

theorem level_told (ds : List Directive) : Level (ds.map .directed) := fun s => by
  induction ds generalizing s with
  | nil => rfl
  | cons d ds ih => exact (ih _).trans (depth_after_directed s d)

theorem requires_of_forall_not {kind : Event → Prop} {P : Session → Prop}
    (others : ∀ e ∈ es, ¬kind e) (s : Session) : s.Requires kind P es := by
  induction es generalizing s with
  | nil => trivial
  | cons e es ih =>
    obtain ⟨first, rest⟩ := List.forall_mem_cons.mp others
    exact ⟨fun of_kind => absurd of_kind first, ih rest _⟩

theorem requires_limit_of_undirected {P : Session → Prop} (untold : ∀ d, .directed d ∉ es)
    (s : Session) : s.Requires Event.IsLimit P es :=
  requires_of_forall_not (fun _ member limit => by
    cases limit
    exact untold _ member) s

theorem requires_told (ds : List Directive) (inside : 0 < s.depth) :
    s.Requires Event.IsLimit (0 < ·.depth) (ds.map .directed) := by
  induction ds generalizing s with
  | nil => trivial
  | cons d ds ih => exact ⟨fun _ => inside, ih (by rwa [depth_after_directed])⟩

end Session

theorem Balanced.level {es : List Event} (balanced : Balanced es) : Session.Level es := by
  induction balanced with
  | nil => exact fun _ => rfl
  | reached p _ ih => exact ih
  | left p _ ih => exact ih
  | @nested es fs inner _ ih ih' =>
    have split : Event.opened :: (es ++ .closed :: fs) = .opened :: (es ++ [.closed]) ++ fs := by
      simp
    rw [split]
    exact ih.nested.append ih'

namespace Recorded

variable {d : Option (Deadline Binary64)} {link : Link} {deeds : List Deed} {es : List Event}

theorem level (recorded : Recorded d link deeds es) : Session.Level es := by
  induction recorded with
  | ended => exact fun _ => rfl
  | struck => exact fun _ => rfl
  | stopped => exact fun _ => rfl
  | @looked step _ ds _ es _ _ ih =>
    have passed : Session.Level (.passed step :: es) := ih
    exact (Session.level_told ds).append passed
  | snapshot _ ih => exact (Session.level_told _).append ih
  | asked call _ ih => exact call.level.append ih

theorem limits_inside (recorded : Recorded d link deeds es) {s : Session} (inside : 0 < s.depth) :
    s.Requires Event.IsLimit (0 < ·.depth) es := by
  induction recorded generalizing s with
  | ended => trivial
  | struck => exact ⟨nofun, trivial⟩
  | stopped => exact ⟨nofun, trivial⟩
  | @looked _ _ ds _ _ _ _ ih =>
    refine ⟨nofun, (Session.requires_told ds inside).append ⟨nofun, ih ?_⟩⟩
    show 0 < (Session.run s (ds.map .directed)).depth
    rwa [Session.level_told]
  | snapshot _ ih =>
    refine (Session.requires_told _ inside).append (ih ?_)
    rwa [Session.level_told]
  | asked call _ ih =>
    refine (Session.requires_limit_of_undirected call.not_directed_mem s).append (ih ?_)
    rwa [call.level]

theorem unlimited (recorded : Recorded none link deeds es) (n : Int) :
    .directed (.limit n) ∉ es := by
  induction recorded with
  | ended => simp
  | struck => simp
  | stopped => simp
  | looked passes _ ih =>
    cases passes
    simpa using ih
  | snapshot _ ih =>
    have other : .directed (.limit n) ∉ link.snapshot.map Event.directed := by
      unfold Link.snapshot
      split <;> simp
    exact fun member => (List.mem_append.mp member).elim other ih
  | asked call _ ih => simp [call.not_directed_mem, ih]

end Recorded

/-! ### Plans that ask for no snapshot -/

namespace Plan

variable {α β : Type} {d : Option (Deadline Binary64)} {i : Interruption}

def IsPlain : Plan α → Prop
  | done _ => True
  | check _ next => next.IsPlain
  | now next => ∀ t, (next t).IsPlain
  | maxReviewers next => ∀ n, (next n).IsPlain
  | snapshot _ => False
  | call _ next => ∀ r, (next r).IsPlain

theorem IsPlain.bind {p : Plan α} {f : α → Plan β} (first : p.IsPlain)
    (rest : ∀ a, (f a).IsPlain) : (p.bind f).IsPlain := by
  induction p with
  | done r =>
    cases r with
    | error e => trivial
    | ok a => exact rest a
  | check step next ih => exact ih first
  | now next ih => exact fun t => ih t (first t)
  | maxReviewers next ih => exact fun n => ih n (first n)
  | snapshot next ih => exact first.elim
  | call c next ih => exact fun r => ih r (first r)

theorem not_snapshot_mem_of_check {link : Link} {step : String} {clock : Binary64}
    {ds : List Directive} (passes : (Scenario.Reading.of d link step clock).check = .ok ds) :
    .snapshot ∉ ds := by
  cases d with
  | none =>
    cases passes
    simp
  | some e =>
    cases takes : link.takesDirectives with
    | false => simp [Scenario.Reading.check_of_not_takes takes passes]
    | true =>
      obtain ⟨k, -, rfl⟩ := Scenario.Reading.check_of_takes takes passes
      simp

theorem IsPlain.recorded {p : Plan α} (plain : p.IsPlain) (d : Option (Deadline Binary64))
    (remote : i.Remote) (w : World) :
    ∃ es, w.Continues (p.act d i w).2 es ∧ Recorded d w.link (p.timeline d i w) es ∧
      .directed .snapshot ∉ es := by
  induction p generalizing w with
  | done r => exact ⟨[], .refl w, .ended, by simp⟩
  | check step next ih =>
    have comes := continues_beforeLook remote w
    cases checkOutcome d step next i w with
    | struck before timeline act =>
      rw [before] at comes
      rw [timeline, act]
      exact ⟨_, comes, .struck, by simp⟩
    | stopped before _ timeline act =>
      rw [before] at comes
      rw [timeline, act, comes.link]
      exact ⟨_, comes, .stopped, by simp⟩
    | @passed ds v before passes timeline act =>
      rw [before] at comes
      have told := (comes.trans (v.continues_told ds)).trans (.log _ (.passed step))
      obtain ⟨es, goes, rest, unasked⟩ := ih plain ((v.told ds).log (.passed step))
      rw [timeline, act]
      rw [comes.link] at passes ⊢
      rw [told.link] at rest
      refine ⟨_, told.trans goes, by simpa using rest.looked passes, ?_⟩
      simp [unasked, not_snapshot_mem_of_check passes]
  | now next ih => exact ih _ (plain _) w
  | maxReviewers next ih => exact ih _ (plain _) w
  | snapshot next ih => exact plain.elim
  | call c next ih =>
    obtain ⟨es, call, comes⟩ := c.balances remote w
    obtain ⟨fs, goes, rest, unasked⟩ := ih (c.act i w).1 (plain _) (c.act i w).2
    rw [comes.link] at rest
    exact ⟨_, comes.trans goes, rest.asked call, by simp [call.not_directed_mem, unasked]⟩

end Plan

/-! ### The plans of the requests -/

namespace Desk

open Plan (IsPlain)

theorem isPlain_createTeam (name : Value) (entries : List MemberEntry) :
    (createTeamPlan name entries).IsPlain := by
  refine IsPlain.bind (p := .done (entries.mapM MemberEntry.draft)) trivial fun members r => ?_
  cases r with
  | ok team => trivial
  | error e =>
    show IsPlain (if e.IsExistence then _ else _ : Plan Team)
    split <;> trivial

theorem isPlain_deactivateEach (us : List UserRow) : (deactivateEach us).IsPlain := by
  induction us with
  | nil => trivial
  | cons u us ih =>
    intro r
    cases r with
    | error e => trivial
    | ok row => exact IsPlain.bind (p := deactivateEach us) ih fun _ => trivial

theorem isPlain_deactivateTeam (name : Value) : (deactivateTeamPlan name).IsPlain := by
  intro r
  cases r with
  | error e => trivial
  | ok us => exact isPlain_deactivateEach us

theorem isPlain_createPullRequest (id name author : Value) :
    (createPullRequestPlan id name author).IsPlain := by
  intro r
  cases r with
  | ok p => trivial
  | error e =>
    show IsPlain (if ¬e.IsNotFound then _ else _ : Plan PullRequest)
    split
    · trivial
    intro r
    cases r with
    | error e => trivial
    | ok u =>
      dsimp only [Plan.bind]
      split
      · trivial
      intro roster
      cases roster with
      | error e => trivial
      | ok roster =>
        intro limit now r
        cases r with
        | ok p => trivial
        | error e =>
          show IsPlain (if e.IsExistence then _ else _ : Plan PullRequest)
          split <;> trivial

theorem isPlain_merge (id : Value) : (mergePlan id).IsPlain := by
  intro r
  cases r with
  | error e => trivial
  | ok p =>
    show IsPlain (if p.IsMerged then _ else _ : Plan PullRequest)
    split
    · trivial
    intro now r
    cases r with
    | ok p => trivial
    | error e =>
      show IsPlain (if e.IsConflict then _ else _ : Plan PullRequest)
      split
      · intro r
        cases r with
        | error e => trivial
        | ok current =>
          show IsPlain (if current.IsMerged then _ else _ : Plan PullRequest)
          split <;> trivial
      · trivial

theorem isPlain_reassign (id old : Value) : (reassignPlan id old).IsPlain := by
  intro r
  cases r with
  | error e => trivial
  | ok p =>
    show IsPlain (if p.IsMerged then _ else _ : Plan (PullRequest × String))
    split
    · trivial
    split
    · trivial
    split
    · trivial
    intro r
    cases r with
    | error e => trivial
    | ok u =>
      intro r
      cases r with
      | error e => trivial
      | ok roster =>
        dsimp only [Plan.bind]
        split
        · trivial
        intro r
        cases r <;> trivial

/-- The overview asks for a snapshot first and for none later. -/
theorem exists_plain_overview : ∃ next, overviewPlan = .snapshot next ∧ next.IsPlain := by
  refine ⟨_, rfl, fun r => ?_⟩
  cases r with
  | error e => trivial
  | ok ps =>
    intro r
    cases r with
    | error e => trivial
    | ok us =>
      intro r
      cases r <;> trivial

namespace Command

theorem isPlain (command : Command) (other : command ≠ .overview) :
    command.operation.plan.IsPlain := by
  cases command with
  | createTeam name entries => exact isPlain_createTeam name entries
  | getTeam name => exact fun r => by cases r <;> trivial
  | deactivateTeam name => exact isPlain_deactivateTeam name
  | setUserActive id active => exact fun _ => trivial
  | reviewAssignments id =>
    intro r
    cases r with
    | error e => trivial
    | ok u => exact fun _ => trivial
  | createPullRequest id name author => exact isPlain_createPullRequest id name author
  | merge id => exact isPlain_merge id
  | reassign id old => exact isPlain_reassign id old
  | overview => exact absurd rfl other

def preface (command : Command) (link : Link) : List Event :=
  match command with
  | overview => link.snapshot.map .directed
  | _ => []

theorem preface_of_ne {command : Command} (other : command ≠ .overview) (link : Link) :
    command.preface link = [] := by
  cases command with
  | overview => exact absurd rfl other
  | _ => rfl

theorem preface_begun (command : Command) {w : World}
    (server : w.preferences.vendor = "postgresql") :
    (command = .overview ∧ w.depth = 0 ∧
        command.preface (command.operation.begun w).link = [.directed .snapshot]) ∨
      (command = .overview → w.depth ≠ 0) ∧
        command.preface (command.operation.begun w).link = [] := by
  by_cases overview : command = .overview
  · subst overview
    have begun : Command.overview.operation.begun w = w.deeper := rfl
    rw [begun]
    by_cases outermost : w.depth = 0 <;>
      simp [preface, Link.snapshot, Link.takesDirectives, World.link, World.deeper, World.log,
        server, outermost]
  · exact .inr ⟨fun same => absurd same overview, preface_of_ne overview _⟩

/-- The entries are those of the request under a deadline: what it says first, and then the rest
without another snapshot. -/
def Says (command : Command) (link : Link) (d : Option (Deadline Binary64)) (es : List Event) :
    Prop :=
  ∃ fs deeds, es = command.preface link ++ fs ∧ Recorded d link deeds fs ∧ .directed .snapshot ∉ fs

theorem plan_says (command : Command) (d : Option (Deadline Binary64)) {i : Interruption}
    (remote : i.Remote) (w : World) :
    ∃ es, w.Continues (command.operation.plan.act d i w).2 es ∧ command.Says w.link d es := by
  by_cases overview : command = .overview
  · subst overview
    obtain ⟨next, same, plain⟩ := exists_plain_overview
    have told := w.continues_told w.link.snapshot
    obtain ⟨es, goes, recorded, unasked⟩ := plain.recorded d remote (w.told w.link.snapshot)
    rw [told.link] at recorded
    refine ⟨_, ?_, es, _, rfl, recorded, unasked⟩
    show w.Continues (overviewPlan.act d i w).2 _
    rw [same]
    exact told.trans goes
  · obtain ⟨es, goes, recorded, unasked⟩ := (command.isPlain overview).recorded d remote w
    exact ⟨es, goes, es, _, by rw [preface_of_ne overview, List.nil_append], recorded, unasked⟩

end Command

end Desk

/-! ### Directives of one request -/

/-- The seconds, if they are limited, can be added to a clock. Whole numbers beyond the greatest
float can not. -/
def Deadline.Granted (timeout : Option Number) : Prop :=
  ∀ t ∈ timeout, ∃ seconds, Binary64.ofNumber t = .ok seconds

theorem Deadline.granted_none : Granted none := nofun

theorem Deadline.granted_float (seconds : Binary64) : Granted (some (.float seconds)) := by
  rintro _ ⟨⟩
  exact ⟨seconds, rfl⟩

theorem Deadline.granted_iff (clock : Binary64) {timeout : Option Number} :
    Granted timeout ↔ ∃ d, start? clock timeout = .ok d := by
  cases timeout with
  | none => exact ⟨fun _ => ⟨none, rfl⟩, fun _ => granted_none⟩
  | some t =>
    constructor
    · intro granted
      obtain ⟨seconds, granted⟩ := granted t rfl
      exact ⟨_, start?_some granted⟩
    · rintro ⟨d, start⟩ t ⟨⟩
      obtain ⟨seconds, granted, -⟩ := bind_eq_ok_iff.mp start
      exact ⟨seconds, granted⟩

namespace Operation

variable {α : Type} {o : Operation α} {es : List Event}

theorem level_framed (level : Session.Level es) : Session.Level (o.framed es) := by
  unfold framed
  split
  · exact level.nested
  · exact level

theorem directed_mem_framed {d : Directive} : .directed d ∈ o.framed es ↔ .directed d ∈ es := by
  unfold framed
  split <;> simp

end Operation

namespace Desk

/-- Where the entries of a request, made in a session, speak of snapshots and of limits. -/
structure Placed (s : Session) (command : Command) (timeout : Option Number) (es : List Event) :
    Prop where
  /-- A snapshot is asked for by the overview as soon as it has opened the outermost transaction. -/
  first : ∀ before later, es = before ++ .directed .snapshot :: later →
    command = .overview ∧ s.depth = 0 ∧ before = [.opened]
  /-- The overview that opens the outermost transaction asks, unless its seconds are too many to be
  added to a clock. Then it fails before it says or reads anything. -/
  once : command = .overview → s.depth = 0 → Deadline.Granted timeout →
    es.count (.directed .snapshot) = 1
  /-- A limit is set while a transaction is open. -/
  inside : ∀ before n later, es = before ++ .directed (.limit n) :: later →
    0 < (s.run before).depth
  unlimited : timeout = none → ∀ n, .directed (.limit n) ∉ es
  granted : ∀ d, .directed d ∈ es → Deadline.Granted timeout

namespace Command

variable {command : Command} {timeout : Option Number} {s : Session} {w : World} {es : List Event}

theorem level_preface (link : Link) : Session.Level (command.preface link) := by
  by_cases overview : command = .overview
  · rw [overview]
    exact Session.level_told _
  · rw [preface_of_ne overview]
    exact fun _ => rfl

theorem not_limit_mem_preface (link : Link) (n : Int) :
    .directed (.limit n) ∉ command.preface link := by
  by_cases overview : command = .overview
  · subst overview
    unfold preface Link.snapshot
    split <;> simp
  · simp [preface_of_ne overview]

theorem placed_framed (server : w.preferences.vendor = "postgresql") (same : s.depth = w.depth)
    {d : Option (Deadline Binary64)} (start : Deadline.start? w.clock timeout = .ok d)
    {deeds : List Deed} (recorded : Recorded d (command.operation.begun w).link deeds es)
    (unasked : .directed .snapshot ∉ es) :
    Placed s command timeout
      (command.operation.framed (command.preface (command.operation.begun w).link ++ es)) where
  -- Whatever comes after the preface asks for no snapshot, so the only one stands in front.
  first before later split := by
    obtain ⟨rfl, outermost, front⟩ | ⟨-, front⟩ := command.preface_begun server
    · rw [front] at split
      have apart : [.opened] ++ .directed .snapshot :: (es ++ [.closed]) =
          before ++ .directed .snapshot :: later := split
      have unasked' : .directed .snapshot ∉ es ++ [.closed] := by simpa using unasked
      obtain ⟨rfl, -⟩ := (List.append_cons_inj_of_notMem (by simp) unasked').mp apart
      exact ⟨rfl, same.trans outermost, rfl⟩
    · rw [front] at split
      have told : .directed .snapshot ∈ command.operation.framed ([] ++ es) := by
        rw [split]
        simp
      exact absurd (Operation.directed_mem_framed.mp told) unasked
  once overview outermost _ := by
    obtain ⟨rfl, -, front⟩ | ⟨nested, -⟩ := command.preface_begun server
    · rw [front]
      show (.opened :: .directed .snapshot :: (es ++ [.closed])).count (.directed .snapshot) = 1
      simp [List.count_eq_zero.mpr unasked]
    · exact absurd (same.symm.trans outermost) (nested overview)
  inside before n later split := by
    have framed : s.Requires Event.IsLimit (0 < ·.depth) (command.operation.framed
        (command.preface (command.operation.begun w).link ++ es)) := by
      apply Operation.requires_framed nofun nofun
      refine (Session.requires_of_forall_not (fun _ member limit => ?_) _).append ?_
      · cases limit
        exact not_limit_mem_preface _ _ member
      · cases takes : (command.operation.begun w).link.takesDirectives with
        | true =>
          apply recorded.limits_inside
          rw [level_preface]
          rw [command.operation.takesDirectives_begun server, ← same] at takes
          split
          · exact Nat.succ_pos _
          · exact takes.resolve_left ‹_›
        | false => exact Session.requires_limit_of_undirected (recorded.not_directed_mem takes) _
    rw [split] at framed
    exact framed.at (.intro n)
  unlimited without n := by
    subst without
    cases start
    rw [Operation.directed_mem_framed, List.mem_append, not_or]
    exact ⟨not_limit_mem_preface _ n, recorded.unlimited n⟩
  granted _ _ := (Deadline.granted_iff _).mpr ⟨d, start⟩

theorem placed_of_not_granted (ungranted : ¬Deadline.Granted timeout) :
    Placed s command timeout (command.operation.framed []) := by
  have untold (d : Directive) : .directed d ∉ command.operation.framed [] :=
    Operation.not_directed_framed (by simp)
  refine ⟨fun before later split => ?_, fun _ _ granted => absurd granted ungranted,
    fun before n later split => ?_, fun _ n => untold _, fun d told => absurd told (untold d)⟩
  · exact absurd (split ▸ by simp) (untold .snapshot)
  · exact absurd (split ▸ by simp) (untold (.limit n))

theorem places (command : Command) (timeout : Option Number) {i : Interruption}
    (remote : i.Remote) {w : World} (server : w.preferences.vendor = "postgresql") :
    ∃ es, w.Continues (command.operation.act timeout i w).2 es ∧ Session.Level es ∧
      ∀ s : Session, s.depth = w.depth → Placed s command timeout es := by
  obtain ⟨es, goes, ⟨e, overflow, rfl⟩ | ⟨d, start, fs, deeds, rfl, recorded, unasked⟩⟩ :=
    command.operation.continues_framed timeout (i := i) (w := w)
      (P := command.Says (command.operation.begun w).link)
      fun d _ => command.plan_says d remote (command.operation.begun w)
  · have ungranted : ¬Deadline.Granted timeout := by
      rw [Deadline.granted_iff w.clock, overflow]
      simp
    exact ⟨_, goes, Operation.level_framed fun _ => rfl, fun s _ => placed_of_not_granted ungranted⟩
  · exact ⟨_, goes, Operation.level_framed ((level_preface _).append recorded.level),
      fun s same => placed_framed server same start recorded unasked⟩

end Command

end Desk

end ReviewRota
