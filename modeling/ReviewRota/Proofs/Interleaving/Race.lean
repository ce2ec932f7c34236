import ReviewRota.Proofs.Interleaving.Consistency
import ReviewRota.Proofs.Store.Teams

/-!
# Races

The creation of a team looks for the name and inserts it in one call. Other clients may take their
steps between the two, which makes two steps of this call. All moves of such a race are changes like
those of the coarser steps: what a creation does at its second step is what it would do in one go at
this moment.
-/

namespace ReviewRota.Interleaving

structure Race where
  state : State
  /-- The clients that have looked for a team of their name and found none. -/
  looked : List Nat

inductive Race.Move where
  | step (m : Interleaving.Move)
  | look (client : Nat)

namespace Race

def start (db : Database) (now : Timestamp) : Race := ⟨.start db now, []⟩

/-- A client that has come to the creation of a team looks for the name, and fails if it is taken.
-/
def look (r : Race) (n : Nat) : Race :=
  match r.state.clients[n]? with
  | none => r
  | some c =>
    match c.plan with
    | .call (.teamCreate t) next =>
      match Teams.seeking t .none r.state.world with
      | (.ok (), w) => ⟨{ r.state with world := w }, n :: r.looked⟩
      | (.error e, w) =>
        ⟨r.state.exchanged n c ⟨.teamCreate t, .error e⟩ (next (.error e)) w, r.looked⟩
    | _ => r

def found (r : Race) (n : Nat) : Race :=
  match r.state.clients[n]? with
  | none => r
  | some c =>
    match c.plan with
    | .call (.teamCreate t) next =>
      match Teams.founding t .none r.state.world with
      | (o, w) =>
        ⟨r.state.exchanged n c ⟨.teamCreate t, o⟩ (next o) w, r.looked.filter (· ≠ n)⟩
    | _ => r

def move (r : Race) : Move → Race
  | .look n => if n ∈ r.looked then r else r.look n
  | .step (.advance n) =>
    if n ∈ r.looked then r.found n else { r with state := r.state.advance n }
  | .step m => { r with state := r.state.move m }

def run (r : Race) (moves : List Move) : Race := moves.foldl move r

variable {P : Desk.Command → Prop} {r : Race}

/-- The creation of a team is a call of its own and not part of a transaction. -/
theorem enclosed_create {c : Client} {t : Tables} (consistent : c.Consistent t) {team : Team}
    {next : Except Failure Team → Plan c.command.Result}
    (head : c.plan = .call (.teamCreate team) next) :
    (Teams.create team).enclosed c.command.operation.transactional = Teams.create team := by
  have honours := consistent.honours
  rw [head] at honours
  have warrants : c.command.Warrants c.history (.teamCreate team) := honours.1
  cases transactional : c.command.operation.transactional with
  | false => rfl
  | true => exact (warrants.isReading id transactional).elim

theorem change_look (consistent : r.state.Consistent) (n : Nat) :
    Change P r.state (r.look n).state := by
  unfold look
  split
  · exact .refl _
  rename_i c found
  split
  · rename_i t next head
    have client := consistent.clients c (List.mem_of_getElem? found)
    have rests := consistent.resting
    rcases Teams.seeking_ends rests.unspoiled (fun _ => rests.linked) t with
      ⟨j, run⟩ | ⟨e, ⟨j, run⟩, ⟨k, whole⟩⟩
    · rw [run]
      exact .world rfl fun rests => ⟨rests.depth, rests.unspoiled, rests.linked⟩
    · rw [run]
      rw [← enclosed_create client head] at whole
      exact .called found head whole ⟨j, rfl⟩
  · exact .refl _

theorem change_found (consistent : r.state.Consistent) (n : Nat) :
    Change P r.state (r.found n).state := by
  unfold Race.found
  split
  · exact .refl _
  rename_i c found
  split
  · rename_i t next head
    have client := consistent.clients c (List.mem_of_getElem? found)
    have agrees := Teams.create_agrees consistent.resting.unspoiled t
    generalize run : Teams.create t .none r.state.world = whole at agrees
    obtain ⟨o, v⟩ := whole
    rw [← enclosed_create client head] at run
    have change := Change.called (P := P) found head run agrees.world
    rw [show o = (Teams.founding t .none r.state.world).1 from agrees.result] at change
    exact change
  · exact .refl _

theorem change_move (consistent : r.state.Consistent) (m : Move) :
    Change (fun command => ∃ timeout, m = .step (.arrive command timeout)) r.state
      (r.move m).state := by
  cases m with
  | look n =>
    show Change _ _ (if n ∈ r.looked then r else r.look n).state
    split
    · exact .refl _
    · exact change_look consistent n
  | step m =>
    have coarse := (r.state.change_move m).mono
      (Q := fun command => ∃ timeout, Move.step m = .step (.arrive command timeout))
      (fun command ⟨timeout, same⟩ => ⟨timeout, congrArg Move.step same⟩)
    cases m with
    | advance n =>
      show Change _ _ (if n ∈ r.looked then r.found n
        else { r with state := r.state.advance n }).state
      split
      · exact change_found consistent n
      · exact coarse
    | _ => exact coarse

end Race

end ReviewRota.Interleaving
