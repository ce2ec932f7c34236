import Mathlib.Logic.Relation
import ReviewRota.Proofs.Interleaving.State
import ReviewRota.Proofs.Store.Blindness

/-!
# What a move can do

A move lets time pass, lets a client in, lets a client go on without a call, or carries out the call
that a client has come to. All that holds of runs is proved from this.
-/

namespace ReviewRota.Interleaving

def State.exchanged (s : State) (n : Nat) (c : Client) (x : Exchange)
    (plan : Plan c.command.Result) (w : World) : State where
  world := w
  clients := s.clients.set n { c with history := c.history ++ [x], plan := plan }
  log := s.log ++ [⟨n, c.command, c.history, x, s.world.tables, w.tables⟩]

/-- The client is at the beginning, or it was turned away there. -/
inductive Client.Begins : Client → Prop
  | started (command : Desk.Command) (d : Option (Deadline Binary64)) :
      Begins ⟨command, d, [], command.operation.plan⟩
  | unstarted (command : Desk.Command) (e : Failure) :
      Begins ⟨command, none, [], .done (.error e)⟩

/-- What a move can do to a state, where requests arrive that have the property `P`. A call may
leave another journal than it would leave if it ran in one go. -/
inductive Change (P : Desk.Command → Prop) (s : State) : State → Prop
  | world {w : World} (tables : w.tables = s.world.tables)
      (resting : s.world.Resting → w.Resting) : Change P s { s with world := w }
  | arrived {c : Client} (arrives : P c.command) (begins : c.Begins) :
      Change P s { s with clients := s.clients ++ [c] }
  | passed {n : Nat} {c : Client} {w : World} {plan : Plan c.command.Result}
      (found : s.clients[n]? = some c)
      (step : c.plan.step c.command.operation.transactional c.deadline s.world = (plan, none, w)) :
      Change P s { s with world := w, clients := s.clients.set n { c with plan := plan } }
  | called {n : Nat} {c : Client} {call : Call}
      {next : Except Failure call.Result → Plan c.command.Result} {r : Except Failure call.Result}
      {v w : World} (found : s.clients[n]? = some c) (head : c.plan = .call call next)
      (run : call.act.enclosed c.command.operation.transactional .none s.world = (r, v))
      (alike : v.Alike w) : Change P s (s.exchanged n c ⟨call, r⟩ (next r) w)

variable {P Q : Desk.Command → Prop} {s s' : State}

theorem Change.mono (change : Change P s s') (weaker : ∀ command, P command → Q command) :
    Change Q s s' := by
  cases change with
  | world tables resting => exact .world tables resting
  | arrived arrives begins => exact .arrived (weaker _ arrives) begins
  | passed found step => exact .passed found step
  | called found head run alike => exact .called found head run alike

theorem Change.refl (s : State) : Change P s s := .world rfl id

theorem Change.command (change : Change P s s') {c : Client} (member : c ∈ s'.clients) :
    (∃ d ∈ s.clients, d.command = c.command) ∨ P c.command := by
  have set {n : Nat} {d e : Client} (found : s.clients[n]? = some d)
      (member : c ∈ s.clients.set n e) (same : e.command = d.command) :
      ∃ d ∈ s.clients, d.command = c.command := by
    rcases List.mem_or_eq_of_mem_set member with old | rfl
    · exact ⟨c, old, rfl⟩
    · exact ⟨d, List.mem_of_getElem? found, same.symm⟩
  cases change with
  | world tables resting => exact .inl ⟨c, member, rfl⟩
  | arrived arrives begins =>
    rcases List.mem_append.mp member with old | new
    · exact .inl ⟨c, old, rfl⟩
    · exact .inr (List.mem_singleton.mp new ▸ arrives)
  | passed found step => exact .inl (set found member rfl)
  | called found head run alike => exact .inl (set found member rfl)

namespace State

theorem change_arrive (s : State) (command : Desk.Command) (timeout : Option Number)
    (arrives : P command) : Change P s (s.arrive command timeout) := by
  unfold arrive
  split
  · exact .arrived arrives (.started command _)
  · exact .arrived arrives (.unstarted command _)

theorem change_advance (s : State) (n : Nat) : Change P s (s.advance n) := by
  unfold advance
  split
  · exact .refl s
  · rename_i c found
    have stepped := c.plan.stepped c.command.operation.transactional c.deadline s.world
    generalize step : c.plan.step c.command.operation.transactional c.deadline s.world = outcome
      at stepped
    cases stepped with
    | quiet tables resting honours => exact .passed found step
    | called head run => exact .called found head run (.refl _)

theorem change_move (s : State) (m : Move) :
    Change (fun command => ∃ timeout, m = .arrive command timeout) s (s.move m) := by
  cases m with
  | arrive command timeout => exact s.change_arrive command timeout ⟨timeout, rfl⟩
  | advance n => exact s.change_advance n
  | elapse now clock tick =>
    exact .world rfl fun rests => ⟨rests.depth, rests.unspoiled, rests.linked⟩
  | prefer preferences =>
    exact .world rfl fun rests => ⟨rests.depth, rests.unspoiled, rests.linked⟩

end State

end ReviewRota.Interleaving
