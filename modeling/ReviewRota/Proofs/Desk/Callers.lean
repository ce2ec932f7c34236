import ReviewRota.Proofs.Desk.Snapshots

/-!
# Callers

Whoever calls the desk may put transactions of its own around the requests, one inside the other,
and may look at what came out before it goes on. What the requests say about snapshots and limits is
said where it belongs, whatever is around them.
-/

namespace ReviewRota

namespace Desk

/-- Somebody who makes requests one after the other, some of them in transactions of its own. How
it goes on may depend on what came out. -/
inductive Caller where
  | done (r : Except Failure Unit)
  | request (command : Command) (timeout : Option Number)
      (next : Except Failure command.Result → Caller)
  | transaction (inner : Caller) (next : Except Failure Unit → Caller)

/-- A part of what a caller does: one of its transactions is opened or closed, or a request is
served with these entries in the journal. -/
inductive Chapter where
  | opened
  | closed
  | served (command : Command) (timeout : Option Number) (es : List Event)

namespace Chapter

def events : Chapter → List Event
  | opened => [.opened]
  | closed => [.closed]
  | served _ _ es => es

def Orderly (s : Session) : Chapter → Prop
  | served command timeout es => Placed s command timeout es
  | _ => True

def Sequel : Session → List Chapter → Prop
  | _, [] => True
  | s, c :: cs => c.Orderly s ∧ Sequel (s.run c.events) cs

variable {s : Session} {cs ds : List Chapter}

theorem Sequel.append (first : Sequel s cs) (second : Sequel (s.run (cs.flatMap events)) ds) :
    Sequel s (cs ++ ds) := by
  induction cs generalizing s with
  | nil => exact second
  | cons c cs ih =>
    rw [List.flatMap_cons, Session.run_append] at second
    exact ⟨first.1, ih first.2 second⟩

theorem Sequel.at {before later : List Chapter} {c : Chapter}
    (sequel : Sequel s (before ++ c :: later)) :
    c.Orderly (s.run (before.flatMap events)) := by
  induction before generalizing s with
  | nil => exact sequel.1
  | cons b before ih =>
    rw [List.flatMap_cons, Session.run_append]
    exact ih sequel.2

end Chapter

namespace Caller

def act : Caller → Act Unit
  | done r => .ofExcept r
  | request command timeout next => do
    let r ← (command.operation.act timeout).attempt
    (next r).act
  | transaction inner next => do
    let r ← (Act.atomic inner.act).attempt
    (next r).act

def chapters : Caller → Interruption → World → List Chapter
  | done _, _, _ => []
  | request command timeout next, i, w =>
    let outcome := command.operation.act timeout i w
    .served command timeout (outcome.2.journal.drop w.journal.length) ::
      (next outcome.1).chapters i outcome.2
  | transaction inner next, i, w =>
    let outcome := Act.atomic inner.act i w
    .opened :: (inner.chapters i w.deeper ++ .closed :: (next outcome.1).chapters i outcome.2)

variable {i : Interruption}

theorem act_request (command : Command) (timeout : Option Number)
    (next : Except Failure command.Result → Caller) (i : Interruption) (w : World) :
    (request command timeout next).act i w =
      (next (command.operation.act timeout i w).1).act i (command.operation.act timeout i w).2 :=
  rfl

theorem act_transaction (inner : Caller) (next : Except Failure Unit → Caller) (i : Interruption)
    (w : World) : (transaction inner next).act i w =
      (next (Act.atomic inner.act i w).1).act i (Act.atomic inner.act i w).2 :=
  rfl

/-- The journal goes on with the chapters, which are orderly and leave no transaction open. -/
theorem tells (caller : Caller) (remote : i.Remote) {w : World}
    (server : w.preferences.vendor = "postgresql") :
    w.Continues (caller.act i w).2 ((caller.chapters i w).flatMap Chapter.events) ∧
      Session.Level ((caller.chapters i w).flatMap Chapter.events) ∧
      ∀ s : Session, s.depth = w.depth → Chapter.Sequel s (caller.chapters i w) := by
  induction caller generalizing w with
  | done r => exact ⟨.refl w, fun _ => rfl, fun _ _ => trivial⟩
  | request command timeout next ih =>
    obtain ⟨es, goes, level, placed⟩ := command.places timeout remote server
    have told : (command.operation.act timeout i w).2.journal.drop w.journal.length = es := by
      rw [goes.journal, List.drop_left]
    rw [act_request]
    simp only [chapters, told]
    generalize command.operation.act timeout i w = outcome at goes ⊢
    obtain ⟨rest, levels, sequel⟩ := ih outcome.1 (w := outcome.2) (goes.vendor.trans server)
    refine ⟨goes.trans rest, level.append levels, fun s same => ⟨placed s same, sequel _ ?_⟩⟩
    exact (level s).trans (same.trans goes.depth.symm)
  | transaction inner next ih ih' =>
    obtain ⟨inside, level, sequel⟩ := ih (w := w.deeper) server
    have goes := Act.continues_atomic inside
    rw [act_transaction]
    simp only [chapters]
    generalize Act.atomic inner.act i w = outcome at goes ⊢
    generalize inner.chapters i w.deeper = cs at goes level sequel ⊢
    obtain ⟨rest, levels, sequels⟩ := ih' outcome.1 (w := outcome.2) (goes.vendor.trans server)
    generalize (next outcome.1).chapters i outcome.2 = ds at rest levels sequels ⊢
    have split : (Chapter.opened :: (cs ++ .closed :: ds)).flatMap Chapter.events =
        .opened :: (cs.flatMap Chapter.events ++ [.closed]) ++ ds.flatMap Chapter.events := by
      simp [Chapter.events]
    rw [split]
    refine ⟨goes.trans rest, level.nested.append levels, fun s same => ⟨trivial, ?_⟩⟩
    refine (sequel _ (congrArg (· + 1) same)).append ⟨trivial, sequels _ ?_⟩
    show (((s.after .opened).run (cs.flatMap Chapter.events)).after .closed).depth = _
    rw [Session.depth_after_closed, level, goes.depth, ← same]
    rfl

/-- On a server that takes directives, whoever calls, with whatever seconds, in transactions of its
own or without: the journal goes on with what the caller's transactions and its requests say, and
what a request says about snapshots and limits is said where it belongs. -/
theorem directives_placed (caller : Caller) (remote : i.Remote) {w : World}
    (server : w.preferences.vendor = "postgresql") :
    (caller.act i w).2.journal =
        w.journal ++ (caller.chapters i w).flatMap Chapter.events ∧
      ∀ before command timeout es later,
        caller.chapters i w = before ++ .served command timeout es :: later →
          Placed (Session.run ⟨w.depth, none⟩ (before.flatMap Chapter.events))
            command timeout es := by
  obtain ⟨goes, -, sequel⟩ := caller.tells remote server
  refine ⟨goes.journal, fun before command timeout es later split => ?_⟩
  have orderly := sequel ⟨w.depth, none⟩ rfl
  rw [split] at orderly
  exact orderly.at

/-- Two overviews, the first one in a transaction of the caller's. -/
def auditing : Caller :=
  .transaction (.request .overview none fun _ => .done (.ok ()))
    fun _ => .request .overview (some (.float (.ofInt 5))) fun _ => .done (.ok ())

theorem directives_placed_auditing :
    ∃ nested apart, auditing.chapters .none Command.served = [.opened,
        .served .overview none nested, .closed, .served .overview (some (.float (.ofInt 5))) apart] ∧
      .directed .snapshot ∉ nested ∧ apart.count (.directed .snapshot) = 1 := by
  obtain ⟨-, placed⟩ :=
    directives_placed auditing Interruption.remote_none (w := Command.served) rfl
  refine ⟨_, _, rfl, fun asked => ?_, ?_⟩
  · obtain ⟨before, later, split⟩ := List.append_of_mem asked
    obtain ⟨-, outermost, -⟩ := (placed [.opened] _ _ _ _ rfl).first before later split
    cases outermost
  · exact (placed [.opened, .served .overview none _, .closed] _ _ _ _ rfl).once rfl
      (by decide +kernel) (Deadline.granted_float _)

end Caller

end Desk

end ReviewRota
