import ReviewRota.Proofs.Desk.Contracts

/-!
# Interleaved requests

Clients run requests against one database. Every storage call is one step, and between two steps of
a client others may take theirs, time may pass and settings may change. The log keeps every call
with the tables before and after it, and with the exchanges that its client had had until then.
-/

namespace ReviewRota.Interleaving

structure Client where
  command : Desk.Command
  deadline : Option (Deadline Binary64)
  history : List Exchange
  plan : Plan command.Result

structure Entry where
  /-- The place of the client in the order of arrival. -/
  client : Nat
  command : Desk.Command
  history : List Exchange
  exchange : Exchange
  before : Tables
  after : Tables

/-- Tables whose keys are unique and whose references lead to rows. -/
structure Database where
  tables : Tables
  keyed : tables.Keyed
  linked : tables.Linked

def Database.empty : Database where
  tables := {}
  keyed := ⟨.nil, .nil, .nil, .nil⟩
  linked := ⟨nofun, nofun, nofun⟩

structure State where
  world : World
  clients : List Client
  log : List Entry

inductive Move where
  | arrive (command : Desk.Command) (timeout : Option Number)
  | advance (client : Nat)
  | elapse (now : Timestamp) (clock tick : Binary64)
  | prefer (preferences : Preferences)

namespace State

def start (db : Database) (now : Timestamp) : State where
  world := { tables := db.tables, now := now }
  clients := []
  log := []

def arrive (s : State) (command : Desk.Command) (timeout : Option Number) : State :=
  match Deadline.start? s.world.clock timeout with
  | .ok d => { s with clients := s.clients ++ [⟨command, d, [], command.operation.plan⟩] }
  | .error e => { s with clients := s.clients ++ [⟨command, none, [], .done (.error e)⟩] }

def advance (s : State) (n : Nat) : State :=
  match s.clients[n]? with
  | none => s
  | some c =>
    match c.plan.step c.command.operation.transactional c.deadline s.world with
    | (plan, none, world) =>
      { s with world := world, clients := s.clients.set n { c with plan := plan } }
    | (plan, some x, world) =>
      { world := world
        clients := s.clients.set n { c with history := c.history ++ [x], plan := plan }
        log := s.log ++ [⟨n, c.command, c.history, x, s.world.tables, world.tables⟩] }

def move (s : State) : Move → State
  | .arrive command timeout => s.arrive command timeout
  | .advance n => s.advance n
  | .elapse now clock tick =>
    { s with world := { s.world with now := now, clock := clock, tick := tick } }
  | .prefer preferences => { s with world := { s.world with preferences := preferences } }

def run (s : State) (moves : List Move) : State := moves.foldl move s

end State

end ReviewRota.Interleaving
