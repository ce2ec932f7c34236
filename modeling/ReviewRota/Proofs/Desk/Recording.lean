import ReviewRota.Proofs.Desk.Checking
import ReviewRota.Proofs.Store.Journal

/-!
# What the journal records

The journal of a run tells what its timeline does: the directives of each look, and the points and
transactions of each call. So what the server knows of the connection at a statement, and with it
the limit that is in force there, can be read from the journal.
-/

namespace ReviewRota

/-! ### What a connection is told -/

/-- What the server knows of a connection: how many transactions are open, one inside the other,
and the limit that was set for their statements. -/
structure Session where
  depth : Nat := 0
  limit : Option Int := none

/-- The entry is a statement that is about to be run. -/
inductive Event.IsStatement : Event → Prop
  | intro (q : Statement) : (reached (.statement q)).IsStatement

/-- The entry is a check that has passed. -/
inductive Event.IsPassed : Event → Prop
  | intro (step : String) : (passed step).IsPassed

namespace Session

/-- A limit lasts until the outermost transaction is closed. -/
def after (s : Session) : Event → Session
  | .opened => { s with depth := s.depth + 1 }
  | .closed => if s.depth ≤ 1 then {} else { s with depth := s.depth - 1 }
  | .directed (.limit n) => { s with limit := some n }
  | _ => s

def run (s : Session) (es : List Event) : Session := es.foldl after s

@[simp] theorem run_nil (s : Session) : s.run [] = s := rfl

@[simp] theorem run_cons (s : Session) (e : Event) (es : List Event) :
    s.run (e :: es) = (s.after e).run es := rfl

@[simp] theorem run_append (s : Session) (es fs : List Event) :
    s.run (es ++ fs) = (s.run es).run fs := List.foldl_append

def Requires (kind : Event → Prop) (P : Session → Prop) : Session → List Event → Prop
  | _, [] => True
  | s, e :: es => (kind e → P s) ∧ Requires kind P (s.after e) es

theorem Requires.append {kind : Event → Prop} {P : Session → Prop} {s : Session}
    {es fs : List Event} (first : s.Requires kind P es) (second : (s.run es).Requires kind P fs) :
    s.Requires kind P (es ++ fs) := by
  induction es generalizing s with
  | nil => exact second
  | cons e es ih => exact ⟨first.1, ih first.2 second⟩

theorem Requires.at {kind : Event → Prop} {P : Session → Prop} {s : Session}
    {before later : List Event} {e : Event} (required : s.Requires kind P (before ++ e :: later))
    (of_kind : kind e) : P (s.run before) := by
  induction before generalizing s with
  | nil => exact required.1 of_kind
  | cons e before ih => exact ih required.2

/-- A transaction is open, and a limit as described is set. -/
def Bound (Q : Int → Prop) (s : Session) : Prop := 0 < s.depth ∧ ∃ n, s.limit = some n ∧ Q n

/-- A transaction inside of an open one gives the session back as it was. -/
theorem after_closed_after_opened {s : Session} (inside : 0 < s.depth) :
    (s.after .opened).after .closed = s := by
  have deeper : ¬s.depth + 1 ≤ 1 := by omega
  simp [after, deeper]

end Session

namespace Balanced

variable {es : List Event}

theorem run_eq (balanced : Balanced es) {s : Session} (inside : 0 < s.depth) : s.run es = s := by
  induction balanced generalizing s with
  | nil => rfl
  | reached p _ ih => exact ih inside
  | left p _ ih => exact ih inside
  | nested _ _ ih ih' =>
    have deeper : 0 < (s.after .opened).depth := Nat.succ_pos _
    -- The inner transaction starts from a deeper session and so gives it back.
    rw [Session.run_cons, Session.run_append, ih deeper, Session.run_cons,
      Session.after_closed_after_opened inside, ih' inside]

theorem bound (balanced : Balanced es) {Q : Int → Prop} {s : Session} (bound : s.Bound Q) :
    s.Requires Event.IsStatement (Session.Bound Q) es := by
  induction balanced generalizing s with
  | nil => trivial
  | reached p _ ih => exact ⟨fun _ => bound, ih bound⟩
  | left p _ ih => exact ⟨nofun, ih bound⟩
  | nested inner _ ih ih' =>
    have deeper : (s.after .opened).Bound Q := ⟨Nat.succ_pos _, bound.2⟩
    refine ⟨nofun, (ih deeper).append ⟨nofun, ?_⟩⟩
    rw [inner.run_eq deeper.1, Session.after_closed_after_opened bound.1]
    exact ih' bound

theorem unpassed (balanced : Balanced es) (P : Session → Prop) (s : Session) :
    s.Requires Event.IsPassed P es := by
  induction balanced generalizing s with
  | nil => trivial
  | reached p _ ih => exact ⟨nofun, ih _⟩
  | left p _ ih => exact ⟨nofun, ih _⟩
  | nested _ _ ih ih' => exact ⟨nofun, (ih _).append ⟨nofun, ih' _⟩⟩

theorem not_directed_mem (balanced : Balanced es) (d : Directive) : .directed d ∉ es := by
  induction balanced with
  | nil => simp
  | reached p _ ih => simpa using ih
  | left p _ ih => simpa using ih
  | nested _ _ ih ih' => simp [ih, ih']

end Balanced

theorem World.continues_told (w : World) (ds : List Directive) :
    w.Continues (w.told ds) (ds.map .directed) := by
  rw [told_eq]
  exact ⟨rfl, rfl, rfl⟩

/-! ### Looks on a connection -/

namespace Scenario.Reading

variable {d : Option (Deadline Binary64)} {e : Deadline Binary64} {link : Link} {step : String}
  {clock : Binary64} {ds : List Directive}

theorem check_of_takes (takes : link.takesDirectives = true)
    (passes : (of (some e) link step clock).check = .ok ds) :
    ∃ k, Seconds.millis (e.remaining clock) = .ok k ∧ ds = [.limit (max 1 k)] := by
  simp only [of, Deadline.check, Link.limit, takes, if_true] at passes
  split at passes
  · cases passes
  · cases left : (Seconds.millis (e.remaining clock) : Except Failure Int) with
    | error f =>
      rw [left] at passes
      cases passes
    | ok k =>
      rw [left] at passes
      cases passes
      exact ⟨k, rfl, rfl⟩

theorem check_of_not_takes (takes : link.takesDirectives = false)
    (passes : (of d link step clock).check = .ok ds) : ds = [] := by
  simp only [of, Deadline.check, Link.limit, takes, Bool.false_eq_true, if_false] at passes
  split at passes
  · cases passes
    rfl
  · split at passes <;> cases passes
    rfl

end Scenario.Reading

/-! ### The journal of a plan -/

/-- The entries that a plan's deeds leave in the journal, on a connection that stays as it is. -/
inductive Recorded (d : Option (Deadline Binary64)) (link : Link) :
    List Deed → List Event → Prop
  | ended : Recorded d link [] []
  | struck : Recorded d link [] [.reached .deadline]
  | stopped {step : String} {clock : Binary64} :
      Recorded d link [.looked (.of d link step clock)] [.reached .deadline]
  | looked {step : String} {clock : Binary64} {ds : List Directive} {deeds : List Deed}
      {es : List Event} (passes : (Scenario.Reading.of d link step clock).check = .ok ds)
      (rest : Recorded d link deeds es) :
      Recorded d link (.looked (.of d link step clock) :: deeds)
        (.reached .deadline :: (ds.map .directed ++ .passed step :: es))
  | snapshot {deeds : List Deed} {es : List Event} (rest : Recorded d link deeds es) :
      Recorded d link deeds (link.snapshot.map .directed ++ es)
  | asked {clock : Binary64} {x : Exchange} {deeds : List Deed} {es fs : List Event}
      (call : Balanced es) (rest : Recorded d link deeds fs) :
      Recorded d link (.asked clock x :: deeds) (es ++ fs)

namespace Plan

variable {α : Type} {d : Option (Deadline Binary64)} {i : Interruption}

theorem continues_beforeLook (remote : i.Remote) (w : World) :
    w.Continues (beforeLook i w).2 [.reached .deadline] := by
  have moved : w.Continues { w with clock := w.clock + w.tick } [] :=
    ⟨(List.append_nil _).symm, rfl, rfl⟩
  exact (moved.trans (.log _ _)).trans (remote .deadline .before _)

/-- The journal of a plan goes on with what the timeline tells. -/
theorem recorded (p : Plan α) (d : Option (Deadline Binary64)) (remote : i.Remote) (w : World) :
    ∃ es, w.Continues (p.act d i w).2 es ∧ Recorded d w.link (p.timeline d i w) es := by
  induction p generalizing w with
  | done r => exact ⟨[], .refl w, .ended⟩
  | check step next ih =>
    have comes := continues_beforeLook remote w
    cases checkOutcome d step next i w with
    | struck before timeline act =>
      rw [before] at comes
      rw [timeline, act]
      exact ⟨_, comes, .struck⟩
    | stopped before _ timeline act =>
      rw [before] at comes
      rw [timeline, act, comes.link]
      exact ⟨_, comes, .stopped⟩
    | @passed ds v before passes timeline act =>
      rw [before] at comes
      have told := (comes.trans (v.continues_told ds)).trans (.log _ (.passed step))
      obtain ⟨es, goes, rest⟩ := ih ((v.told ds).log (.passed step))
      rw [timeline, act]
      rw [comes.link] at passes ⊢
      rw [told.link] at rest
      refine ⟨_, told.trans goes, ?_⟩
      simpa using rest.looked passes
  | now next ih => exact ih _ w
  | maxReviewers next ih => exact ih _ w
  | snapshot next ih =>
    have told := w.continues_told w.link.snapshot
    obtain ⟨es, goes, rest⟩ := ih (w.told w.link.snapshot)
    rw [told.link] at rest
    exact ⟨_, told.trans goes, rest.snapshot⟩
  | call c next ih =>
    obtain ⟨es, call, comes⟩ := c.balances remote w
    obtain ⟨fs, goes, rest⟩ := ih (c.act i w).1 (c.act i w).2
    rw [comes.link] at rest
    exact ⟨_, comes.trans goes, rest.asked call⟩

end Plan

namespace Recorded

variable {d : Option (Deadline Binary64)} {link : Link} {deeds : List Deed} {es : List Event}

theorem exists_of_looked (recorded : Recorded d link deeds es) {r : Scenario.Reading}
    (member : .looked r ∈ deeds) : ∃ step clock, r = .of d link step clock := by
  induction recorded with
  | ended => cases member
  | struck => cases member
  | @stopped step clock =>
    rw [List.mem_singleton] at member
    cases member
    exact ⟨step, clock, rfl⟩
  | @looked step clock _ _ _ _ _ ih =>
    rcases List.mem_cons.mp member with same | later
    · cases same
      exact ⟨step, clock, rfl⟩
    · exact ih later
  | snapshot _ ih => exact ih member
  | asked _ _ ih =>
    rcases List.mem_cons.mp member with same | later
    · cases same
    · exact ih later

theorem not_directed_mem (recorded : Recorded d link deeds es)
    (takes : link.takesDirectives = false) (directive : Directive) : .directed directive ∉ es := by
  induction recorded with
  | ended => simp
  | struck => simp
  | stopped => simp
  | looked passes _ ih =>
    obtain rfl := Scenario.Reading.check_of_not_takes takes passes
    simpa using ih
  | snapshot _ ih =>
    have untold : link.snapshot = [] := by simp [Link.snapshot, takes]
    simpa [untold] using ih
  | asked call _ ih => simp [call.not_directed_mem directive, ih]

theorem requires_snapshot {kind : Event → Prop} (untold : ∀ directive, ¬kind (.directed directive))
    (P : Session → Prop) (s : Session) :
    s.Requires kind P (link.snapshot.map .directed) := by
  unfold Link.snapshot
  split
  · exact ⟨fun told => absurd told (untold _), trivial⟩
  · trivial

theorem run_snapshot (s : Session) : s.run (link.snapshot.map .directed) = s := by
  unfold Link.snapshot
  split <;> rfl

/-- Where every call comes behind a look, every statement runs under a limit that a look set. -/
theorem bound {e : Deadline Binary64} (recorded : Recorded (some e) link deeds es)
    (takes : link.takesDirectives = true) {excuses : Exchange → Call → Prop} {last : Option Deed}
    (orderly : Orderly excuses (some e) last deeds) {Q : Int → Prop} {s : Session}
    (inside : 0 < s.depth) (begun : last ≠ none → s.Bound Q)
    (sets : ∀ r n, .looked r ∈ deeds → r.check = .ok [.limit n] → Q n) :
    s.Requires Event.IsStatement (Session.Bound Q) es := by
  induction recorded generalizing last s with
  | ended => trivial
  | struck => exact ⟨nofun, trivial⟩
  | stopped => exact ⟨nofun, trivial⟩
  | looked passes _ ih =>
    obtain ⟨k, -, rfl⟩ := Scenario.Reading.check_of_takes takes passes
    have limit : Q (max 1 k) := sets _ _ List.mem_cons_self passes
    refine ⟨nofun, nofun, nofun, ih orderly.2 inside (fun _ => ⟨inside, _, rfl, limit⟩) ?_⟩
    exact fun r n member => sets r n (List.mem_cons_of_mem _ member)
  | snapshot _ ih =>
    refine (requires_snapshot nofun _ s).append ?_
    rw [run_snapshot]
    exact ih orderly inside begun sets
  | asked call _ ih =>
    -- As the first deed a call would stand behind nothing, and the order excludes this.
    have behind : last ≠ none := by
      rintro rfl
      rcases orderly.1.asks _ _ rfl with ⟨r, look, -⟩ | ⟨t, y, called, -⟩
      · cases look
      · cases called
    refine (call.bound (begun behind)).append ?_
    rw [call.run_eq inside]
    exact ih orderly.2 inside (fun _ => begun behind) fun r n member =>
      sets r n (List.mem_cons_of_mem _ member)

theorem limit_passed (recorded : Recorded d link deeds es) (takes : link.takesDirectives = true)
    {Q : Int → Prop} {limit : Option Int} {s : Session} (inside : 0 < s.depth)
    (standing : d = none → s.limit = limit)
    (sets : ∀ r n, .looked r ∈ deeds → r.check = .ok [.limit n] → Q n) :
    s.Requires Event.IsPassed (fun s => (d = none → s.limit = limit) ∧
      (d ≠ none → ∃ n, s.limit = some n ∧ Q n)) es := by
  induction recorded generalizing s with
  | ended => trivial
  | struck => exact ⟨nofun, trivial⟩
  | stopped => exact ⟨nofun, trivial⟩
  | looked passes _ ih =>
    have later r n member := sets r n (List.mem_cons_of_mem _ member)
    refine ⟨nofun, ?_⟩
    cases d with
    | none =>
      cases passes
      exact ⟨fun _ => ⟨standing, fun granted => absurd rfl granted⟩, ih inside standing later⟩
    | some e =>
      obtain ⟨k, -, rfl⟩ := Scenario.Reading.check_of_takes takes passes
      have limited : Q (max 1 k) := sets _ _ List.mem_cons_self passes
      exact ⟨nofun, fun _ => ⟨nofun, fun _ => ⟨_, rfl, limited⟩⟩, ih inside nofun later⟩
  | snapshot _ ih =>
    refine (requires_snapshot nofun _ s).append ?_
    rw [run_snapshot]
    exact ih inside standing sets
  | asked call _ ih =>
    refine (call.unpassed _ s).append ?_
    rw [call.run_eq inside]
    exact ih inside standing fun r n member => sets r n (List.mem_cons_of_mem _ member)

end Recorded

end ReviewRota
