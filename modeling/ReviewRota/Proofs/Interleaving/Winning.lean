import Mathlib.Data.List.Pairwise
import ReviewRota.Proofs.Interleaving.Attempts
import ReviewRota.Proofs.Interleaving.Race

/-!
# One winner

Requests that are to create the same thing compete for it, in whatever order they look and insert.
The first one that comes to its insertion wins: it writes its rows, and from then on the key is
taken. Whoever comes later is told so and leaves nothing behind.
-/

namespace ReviewRota.Interleaving

/-! ### Contests -/

/-- The client has come to the insertion of what it is to create. -/
def Client.Inserted (c : Client) : Prop := ∃ x ∈ c.history, c.command.Inserts x.call

instance (c : Client) : Decidable c.Inserted :=
  inferInstanceAs (Decidable (∃ x ∈ c.history, c.command.Inserts x.call))

structure Client.Prepared (c : Client) (t : Tables) : Prop where
  honours : c.plan.Honours c.command.creation c.history
  knows : ∀ x ∈ c.history, x.Knows t
  last : c.plan.Last c.command.Inserts
  ended : c.Inserted → ∃ r, c.plan = .done r

structure Entry.Fair (e : Entry) : Prop where
  prepares : e.command.Prepares e.history e.exchange.call
  grows : e.before.Grows e.after
  attempt : ∀ prize : Prize, prize.SoughtBy e.command → e.command.Storable →
    e.command.Inserts e.exchange.call → e.Wins prize ∨ e.Loses prize

def Client.Told (c : Client) (n : Nat) (log : List Entry) : Prop :=
  ∀ x ∈ c.history, ∃ e ∈ log, e.client = n ∧ e.command = c.command ∧ e.exchange = x

/-- A state that a race from the tables `t` has come to, among requests that have the property `P`.
-/
structure Contest (P : Desk.Command → Prop) (t : Tables) (s : State) : Prop where
  consistent : s.Consistent
  chronicle : Chronicle t s.log s.world.tables
  arrived : ∀ c ∈ s.clients, P c.command
  prepared : ∀ c ∈ s.clients, c.Prepared s.world.tables
  fair : ∀ e ∈ s.log, e.Fair
  told : ∀ (n : Nat) (c : Client), s.clients[n]? = some c → c.Told n s.log

section

variable {P : Desk.Command → Prop} {t u : Tables} {s s' : State} {c d : Client} {n : Nat}

theorem Client.Prepared.grows (prepared : c.Prepared t) (grows : t.Grows u) : c.Prepared u :=
  { prepared with knows := fun x member => (prepared.knows x member).grows grows }

theorem Client.Begins.prepared (begins : c.Begins) (t : Tables) : c.Prepared t := by
  cases begins with
  | started command d =>
    exact ⟨command.creation_honours, List.forall_mem_nil _, command.last_insertion,
      fun ⟨x, member, _⟩ => absurd member List.not_mem_nil⟩
  | unstarted command e =>
    exact ⟨Desk.Command.settles_error (List.forall_mem_nil _) e, List.forall_mem_nil _, trivial,
      fun _ => ⟨_, rfl⟩⟩

theorem Client.Prepared.passed (prepared : c.Prepared t) {plan : Plan c.command.Result}
    {w v : World}
    (step : c.plan.step c.command.operation.transactional c.deadline w = (plan, none, v)) :
    Client.Prepared { c with plan := plan } t := by
  obtain ⟨-, -, honours⟩ := Plan.quiet_of_step step
  refine ⟨honours _ _ prepared.honours, prepared.knows, ?_, fun inserted => ?_⟩
  · have last := prepared.last.step c.command.operation.transactional c.deadline w
    rwa [step] at last
  · obtain ⟨r, done⟩ := prepared.ended inserted
    rw [done] at step
    cases step
    exact ⟨r, rfl⟩

theorem Client.Prepared.called (prepared : c.Prepared t) {call : Call}
    {next : Except Failure call.Result → Plan c.command.Result} (head : c.plan = .call call next)
    (r : Except Failure call.Result) (grows : t.Grows u) (knows : Exchange.Knows u ⟨call, r⟩) :
    Client.Prepared { c with history := c.history ++ [⟨call, r⟩], plan := next r } u := by
  obtain ⟨honours, known, last, ended⟩ := prepared
  rw [head] at honours last ended
  refine ⟨honours.2 r trivial, fun x member => ?_, last.2 r, ?_⟩
  · rcases List.mem_append.mp member with old | new
    · exact (known x old).grows grows
    · exact List.mem_singleton.mp new ▸ knows
  · rintro ⟨x, member, inserts⟩
    rcases List.mem_append.mp member with old | new
    · obtain ⟨r, done⟩ := ended ⟨x, old, inserts⟩
      cases done
    · rw [List.mem_singleton.mp new] at inserts
      exact last.1 inserts r

theorem Client.Begins.told (begins : c.Begins) (n : Nat) (log : List Entry) : c.Told n log := by
  cases begins <;> exact fun _ member => absurd member List.not_mem_nil

theorem Client.Told.append {log : List Entry} (told : c.Told n log) (more : List Entry) :
    c.Told n (log ++ more) := by
  intro x member
  obtain ⟨e, logged, rest⟩ := told x member
  exact ⟨e, List.mem_append_left _ logged, rest⟩

theorem forall_set {clients : List Client} {Q : Nat → Client → Prop}
    (all : ∀ n c, clients[n]? = some c → Q n c) (next : Q n d) :
    ∀ m c, (clients.set n d)[m]? = some c → Q m c := by
  intro m c found
  by_cases same : n = m
  · subst same
    rw [List.getElem?_set_self'] at found
    obtain ⟨_, -, rfl⟩ := Option.map_eq_some_iff.mp found
    exact next
  · rw [List.getElem?_set_ne same] at found
    exact all m c found

theorem forall_concat {clients : List Client} {Q : Nat → Client → Prop}
    (all : ∀ n c, clients[n]? = some c → Q n c) (last : ∀ n, Q n d) :
    ∀ m c, (clients ++ [d])[m]? = some c → Q m c := by
  intro m c found
  by_cases old : m < clients.length
  · rw [List.getElem?_append_left old] at found
    exact all m c found
  · rw [List.getElem?_append_right (Nat.le_of_not_lt old)] at found
    exact List.mem_singleton.mp (List.mem_of_getElem? found) ▸ last m

theorem Contest.called (contest : Contest P t s) {call : Call}
    {next : Except Failure call.Result → Plan c.command.Result} {r : Except Failure call.Result}
    {v w : World} (found : s.clients[n]? = some c) (head : c.plan = .call call next)
    (run : call.act.enclosed c.command.operation.transactional .none s.world = (r, v))
    (alike : v.Alike w) : Contest P t (s.exchanged n c ⟨call, r⟩ (next r) w) := by
  have change : Change P s (s.exchanged n c ⟨call, r⟩ (next r) w) := .called found head run alike
  obtain ⟨consistent, moved⟩ := contest.consistent.change change
  have chronicle := moved.chronicle contest.consistent.keyed contest.chronicle
  let e : Entry := ⟨n, c.command, c.history, ⟨call, r⟩, s.world.tables, w.tables⟩
  have member : e ∈ (s.exchanged n c ⟨call, r⟩ (next r) w).log := by simp [State.exchanged, e]
  have effect : e.Effect := chronicle.effect member
  have resting := contest.consistent.resting
  have fit := resting.fit c.command.operation.transactional
  have same : e = ⟨n, c.command, c.history, ⟨call, r⟩, s.world.tables, v.tables⟩ := by
    rw [← alike.tables]
  have known := knows_of_call fit run
  have grows : s.world.tables.Grows w.tables := by
    rw [alike.tables]
    exact grows_of_call (same ▸ effect) run
  have client := contest.prepared c (List.mem_of_getElem? found)
  have honours := client.honours
  rw [head] at honours
  have attempt (prize : Prize) (sought : prize.SoughtBy c.command) (storable : c.command.Storable)
      (inserts : c.command.Inserts call) : e.Wins prize ∨ e.Loses prize :=
    same ▸ attempt_of_call resting honours.1 client.knows sought storable inserts run
  refine ⟨consistent, chronicle, fun d member => ?_, fun d member => ?_, fun e' member => ?_,
    forall_set (fun m d found => (contest.told m d found).append [e]) fun x member => ?_⟩
  · rcases change.command member with ⟨d', old, command⟩ | arrives
    · exact command ▸ contest.arrived d' old
    · exact arrives
  · rcases List.mem_or_eq_of_mem_set member with old | rfl
    · exact (contest.prepared d old).grows grows
    · exact client.called head r grows (alike.tables ▸ known)
  · rcases List.mem_append.mp member with old | new
    · exact contest.fair e' old
    · rw [List.mem_singleton.mp new]
      exact ⟨honours.1, grows, attempt⟩
  · rcases List.mem_append.mp member with old | new
    · exact (contest.told n c found).append [e] x old
    · exact ⟨e, List.mem_append_right _ (List.mem_singleton_self e), rfl, rfl,
        (List.mem_singleton.mp new).symm⟩

theorem Contest.change (contest : Contest P t s) (change : Change P s s') : Contest P t s' := by
  obtain ⟨consistent, moved⟩ := contest.consistent.change change
  have chronicle := moved.chronicle contest.consistent.keyed contest.chronicle
  have arrived (c : Client) (member : c ∈ s'.clients) : P c.command := by
    rcases change.command member with ⟨d, old, same⟩ | arrives
    · exact same ▸ contest.arrived d old
    · exact arrives
  cases change with
  | world tables resting =>
    refine ⟨consistent, chronicle, arrived, fun c member => ?_, contest.fair, contest.told⟩
    exact (contest.prepared c member).grows (tables ▸ .refl _)
  | arrived arrives begins =>
    refine ⟨consistent, chronicle, arrived, fun c member => ?_, contest.fair,
      forall_concat contest.told fun n => begins.told n s.log⟩
    rcases List.mem_append.mp member with old | new
    · exact contest.prepared c old
    · exact List.mem_singleton.mp new ▸ begins.prepared _
  | @passed n c w plan found step =>
    obtain ⟨tables, -, -⟩ := Plan.quiet_of_step step
    refine ⟨consistent, chronicle, arrived, fun d member => ?_, contest.fair,
      forall_set contest.told (contest.told n c found)⟩
    have unchanged : s.world.tables.Grows w.tables := tables ▸ .refl _
    rcases List.mem_or_eq_of_mem_set member with old | rfl
    · exact (contest.prepared d old).grows unchanged
    · exact ((contest.prepared c (List.mem_of_getElem? found)).passed step).grows unchanged
  | called found head run alike => exact contest.called found head run alike

end

theorem Race.contest_run (db : Database) (now : Timestamp) (moves : List Race.Move) :
    Contest (fun command => ∃ timeout, .step (.arrive command timeout) ∈ moves) db.tables
      ((Race.start db now).run moves).state := by
  have run (P : Desk.Command → Prop) (moves : List Race.Move) (r : Race)
      (arrive : ∀ command timeout, .step (.arrive command timeout) ∈ moves → P command)
      (contest : Contest P db.tables r.state) : Contest P db.tables (r.run moves).state := by
    induction moves generalizing r with
    | nil => exact contest
    | cons m moves ih =>
      have change := (Race.change_move contest.consistent m).mono (Q := P)
        fun command ⟨timeout, same⟩ => arrive command timeout (same ▸ List.mem_cons_self)
      exact ih (r.move m) (fun command timeout member =>
        arrive command timeout (List.mem_cons_of_mem _ member)) (contest.change change)
  refine run _ moves _ (fun command timeout member => ⟨timeout, member⟩) ⟨?_, .nil, ?_, ?_, ?_, ?_⟩
  · exact State.consistent_start db now
  · exact List.forall_mem_nil _
  · exact List.forall_mem_nil _
  · exact List.forall_mem_nil _
  · exact nofun

/-! ### Winners and losers -/

def Client.Succeeds (c : Client) : Prop := ∃ a, c.plan = .done (.ok a)

def Client.Fails (c : Client) (e : Failure) : Prop := c.plan = .done (.error e)

instance (c : Client) : Decidable c.Succeeds :=
  match plan : c.plan with
  | .done (.ok a) => isTrue ⟨a, plan⟩
  | .done (.error _) | .check .. | .now _ | .maxReviewers _ | .snapshot _ | .call .. =>
    isFalse fun ⟨a, done⟩ => by
      rw [plan] at done
      cases done

instance (c : Client) (e : Failure) : Decidable (c.Fails e) :=
  match plan : c.plan with
  | .done (.error f) => decidable_of_iff (f = e) (by simp [Client.Fails, plan])
  | .done (.ok _) | .check .. | .now _ | .maxReviewers _ | .snapshot _ | .call .. =>
    isFalse fun done => by
      rw [Client.Fails, plan] at done
      cases done

namespace Contest

variable {P : Desk.Command → Prop} {t : Tables} {s : State} {prize : Prize} {e e' : Entry}
  {c : Client} {n : Nat}

/-- What was won once is not won again. -/
theorem wins_unique (contest : Contest P t s) (member : e ∈ s.log) (member' : e' ∈ s.log)
    (wins : e.Wins prize) (wins' : e'.Wins prize) : e = e' := by
  have ordered := contest.chronicle.pairwise_of (R := Tables.Grows) .refl .trans
    fun e member => (contest.fair e member).grows
  have once : s.log.Pairwise fun e e' => ¬(e.Wins prize ∧ e'.Wins prize) :=
    ordered.imp fun grows ⟨wins, wins'⟩ => wins'.not_isIn (wins.isIn.grows grows)
  have symmetric : Std.Symm fun e e' : Entry => ¬(e.Wins prize ∧ e'.Wins prize) :=
    ⟨fun _ _ apart both => apart both.symm⟩
  by_contra distinct
  exact once.forall member member' distinct ⟨wins, wins'⟩

theorem arrives (contest : Contest P t s) (member : e ∈ s.log) : P e.command := by
  obtain ⟨c, found, command, -⟩ := contest.consistent.entries e member
  exact command ▸ contest.arrived c (List.mem_of_getElem? found)

theorem attempted (contest : Contest P t s)
    (storable : ∀ command, P command → prize.SoughtBy command → command.Storable)
    (found : s.clients[n]? = some c) (sought : prize.SoughtBy c.command) {x : Exchange}
    (member : x ∈ c.history) (inserts : c.command.Inserts x.call) :
    ∃ e ∈ s.log, e.client = n ∧ e.exchange = x ∧
      ((e.Wins prize ∧ ∃ a, c.command.insertion? x = some (.ok a)) ∨
        ∃ f, c.command.insertion? x = some (.error f) ∧ f.IsExistence) := by
  obtain ⟨command, d, history, plan⟩ := c
  obtain ⟨e, logged, client, same, rfl⟩ := contest.told n _ found x member
  replace same : e.command = command := same
  subst same
  refine ⟨e, logged, client, rfl, ?_⟩
  rcases (contest.fair e logged).attempt prize sought
    (storable _ (contest.arrives logged) sought) inserts with wins | loses
  · exact .inl ⟨wins, wins.inserted⟩
  · exact .inr loses.refused

/-- A client that succeeds has won. -/
theorem wins_of_succeeds (contest : Contest P t s)
    (storable : ∀ command, P command → prize.SoughtBy command → command.Storable)
    (found : s.clients[n]? = some c) (sought : prize.SoughtBy c.command) (succeeds : c.Succeeds) :
    ∃ e ∈ s.log, e.client = n ∧ e.Wins prize := by
  obtain ⟨a, done⟩ := succeeds
  have settles := (contest.prepared c (List.mem_of_getElem? found)).honours
  rw [done] at settles
  obtain ⟨x, member, inserted⟩ := settles.inserted sought.creates a rfl
  have inserts := Desk.Command.isSome_insertion?.mp (Option.isSome_iff_exists.mpr ⟨_, inserted⟩)
  obtain ⟨e, logged, client, -, ⟨wins, -⟩ | ⟨f, failed, -⟩⟩ :=
    contest.attempted storable found sought member inserts
  · exact ⟨e, logged, client, wins⟩
  · rw [inserted] at failed
    cases failed

theorem ends_of_inserted (contest : Contest P t s)
    (storable : ∀ command, P command → prize.SoughtBy command → command.Storable)
    (found : s.clients[n]? = some c) (sought : prize.SoughtBy c.command) (inserted : c.Inserted) :
    c.Succeeds ∨ c.Fails prize.refusal := by
  have prepared := contest.prepared c (List.mem_of_getElem? found)
  obtain ⟨r, done⟩ := prepared.ended inserted
  have settles := prepared.honours
  rw [done] at settles
  obtain ⟨x, member, inserts⟩ := inserted
  obtain ⟨e, -, -, -, ⟨-, a, answered⟩ | ⟨f, failed, taken⟩⟩ :=
    contest.attempted storable found sought member inserts
  · left
    exact ⟨a, done.trans (congrArg Plan.done (settles.settled x member _ answered))⟩
  · right
    rw [Client.Fails, done, settles.settled x member _ failed, Prize.refusal_eq sought]
    exact congrArg (fun f => Plan.done (.error f)) (if_pos taken)

theorem succeeds_of_wins (contest : Contest P t s) (member : e ∈ s.log) (wins : e.Wins prize) :
    ∃ c, s.clients[e.client]? = some c ∧ c.command = e.command ∧ c.Succeeds := by
  obtain ⟨c, found, command, members⟩ := contest.consistent.entries e member
  refine ⟨c, found, command, ?_⟩
  obtain ⟨command', d, history, plan⟩ := c
  replace command : command' = e.command := command
  subst command
  have prepared := contest.prepared _ (List.mem_of_getElem? found)
  obtain ⟨a, inserted⟩ := wins.inserted
  have inserts := Desk.Command.isSome_insertion?.mp (Option.isSome_iff_exists.mpr ⟨_, inserted⟩)
  have known : e.exchange ∈ history := members e.exchange (by simp)
  obtain ⟨r, done⟩ := prepared.ended ⟨e.exchange, known, inserts⟩
  have settles := prepared.honours
  rw [done] at settles
  exact ⟨a, done.trans (congrArg Plan.done (settles.settled _ known _ inserted))⟩

theorem idle (contest : Contest P t s) (member : e ∈ s.log) (sought : prize.SoughtBy e.command)
    (other : ¬e.command.Inserts e.exchange.call) : e.after = e.before := by
  have effect := contest.chronicle.effect member
  have prepares := (contest.fair e member).prepares
  obtain ⟨client, command, history, ⟨call, r⟩, before, after⟩ := e
  cases command with
  | createTeam name entries =>
    cases call with
    | teamCreate t => exact absurd trivial other
    | _ => exact prepares.elim
  | createPullRequest id name author =>
    cases effect with
    | aside call same reads => exact reads rfl
    | created creates =>
      obtain ⟨q, r, called⟩ := creates.called
      cases called
      exact absurd trivial other
    | uncreated called same => exact same
    | @edited edit p edits =>
      obtain ⟨id', asked, -⟩ := edits.asked.read
      cases edit <;> exact asked.elim
    | missed misses => exact misses.after
  | _ => cases prize <;> exact sought.elim

/-- Whatever a rival does is to win, or it changes nothing. -/
theorem wins_or_idle (contest : Contest P t s)
    (storable : ∀ command, P command → prize.SoughtBy command → command.Storable)
    (member : e ∈ s.log) (sought : prize.SoughtBy e.command) :
    e.Wins prize ∨ e.after = e.before := by
  by_cases inserts : e.command.Inserts e.exchange.call
  · rcases (contest.fair e member).attempt prize sought
      (storable _ (contest.arrives member) sought) inserts with wins | loses
    · exact .inl wins
    · exact .inr loses.after
  · exact .inr (contest.idle member sought inserts)

end Contest

/-- Where nothing happens but that something is won, the tables are those before, or those that the
winner made of them. -/
theorem Chronicle.won {t u : Tables} {log : List Entry} {prize : Prize}
    (chronicle : Chronicle t log u) (only : ∀ e ∈ log, e.Wins prize ∨ e.after = e.before) :
    u = t ∨ ∃ e ∈ log, e.Wins prize ∧ e.before = t ∧ u = e.after := by
  induction chronicle with
  | nil => exact .inl rfl
  | @snoc log e earlier keyed effect ih =>
    have before := ih fun e member => only e (List.mem_append_left _ member)
    rcases only e (List.mem_append_right _ (List.mem_singleton_self e)) with wins | idle
    · rcases before with same | ⟨e', -, wins', -, later⟩
      · exact .inr ⟨e, List.mem_append_right _ (List.mem_singleton_self e), wins, same, rfl⟩
      · -- A second winner would have found what the first one left behind.
        exact absurd (later ▸ wins'.isIn) wins.not_isIn
    · rw [idle]
      rcases before with same | ⟨e', member, wins, start, later⟩
      · exact .inl same
      · exact .inr ⟨e', List.mem_append_left _ member, wins, start, later⟩

namespace Race

/-- Requests with data that can be stored compete to create the same pull request or the same team,
beside whatever else is requested, and the steps between their looks and their insertions come in
any order. At most one of them succeeds. Each of them that comes to its insertion succeeds or is
told that the key is taken. The one that succeeds has written what it was to write, and none of the
others has changed anything, so that among rivals alone its rows are the only ones that are new. -/
theorem one_winner (db : Database) (now : Timestamp) (moves : List Move) (prize : Prize)
    (storable : ∀ command timeout, .step (.arrive command timeout) ∈ moves →
      prize.SoughtBy command → command.Storable) :
    let s := ((start db now).run moves).state
    (∀ (m n : Nat) (c d : Client), s.clients[m]? = some c → s.clients[n]? = some d →
      prize.SoughtBy c.command → prize.SoughtBy d.command → c.Succeeds → d.Succeeds → m = n) ∧
    (∀ (n : Nat) (c : Client), s.clients[n]? = some c → prize.SoughtBy c.command → c.Inserted →
      c.Succeeds ∨ c.Fails prize.refusal) ∧
    (∀ e ∈ s.log, prize.SoughtBy e.command → e.after = e.before ∨
      e.Wins prize ∧ ∃ c, s.clients[e.client]? = some c ∧ c.command = e.command ∧ c.Succeeds) ∧
    ((∀ command timeout, .step (.arrive command timeout) ∈ moves → prize.SoughtBy command) →
      s.world.tables = db.tables ∨
        ∃ e ∈ s.log, e.Wins prize ∧ e.before = db.tables ∧ s.world.tables = e.after) := by
  intro s
  have contest := contest_run db now moves
  have known (command : Desk.Command)
      (arrives : ∃ timeout, .step (.arrive command timeout) ∈ moves)
      (sought : prize.SoughtBy command) : command.Storable := by
    obtain ⟨timeout, member⟩ := arrives
    exact storable command timeout member sought
  refine ⟨fun m n c d first second soughtC soughtD succeedsC succeedsD => ?_,
    fun n c found sought => contest.ends_of_inserted known found sought,
    fun e member sought => ?_, fun rivals => contest.chronicle.won fun e member => ?_⟩
  · obtain ⟨e, logged, rfl, wins⟩ := contest.wins_of_succeeds known first soughtC succeedsC
    obtain ⟨e', logged', rfl, wins'⟩ := contest.wins_of_succeeds known second soughtD succeedsD
    rw [contest.wins_unique logged logged' wins wins']
  · rcases contest.wins_or_idle known member sought with wins | idle
    · exact .inr ⟨wins, contest.succeeds_of_wins member wins⟩
    · exact .inl idle
  · obtain ⟨timeout, arrives⟩ := contest.arrives member
    exact contest.wins_or_idle known member (rivals _ timeout arrives)

/-- Two requests for one team: the first one looks, the second one looks and inserts, and then the
first one goes on with its insertion. -/
def lateTeam : List Move :=
  let member (id : String) : Desk.MemberEntry := ⟨some id, some id, some (.bool true)⟩
  [.step (.arrive (.createTeam "core" [member "u1"]) none),
    .step (.arrive (.createTeam "core" [member "u2"]) none), .step (.advance 0), .look 0,
    .step (.advance 1), .step (.advance 1), .step (.advance 0)]

theorem arrive_mem_lateTeam {command : Desk.Command} {timeout : Option Number}
    (arrives : .step (.arrive command timeout) ∈ lateTeam) :
    Prize.SoughtBy (.team "core") command ∧ command.Storable := by
  simp only [lateTeam, List.mem_cons, Move.step.injEq, Interleaving.Move.arrive.injEq, reduceCtorEq,
    List.not_mem_nil, or_false] at arrives
  rcases arrives with ⟨rfl, rfl⟩ | ⟨rfl, rfl⟩
  · refine ⟨rfl, ?_⟩
    rintro _ ⟨⟩
    exact ⟨[⟨"u1", "u1", true⟩], rfl⟩
  · refine ⟨rfl, ?_⟩
    rintro _ ⟨⟩
    exact ⟨[⟨"u2", "u2", true⟩], rfl⟩

theorem one_winner_lateTeam :
    let s := ((start .empty default).run lateTeam).state
    (∃ c, s.clients[0]? = some c ∧ c.Fails (.refuse .teamExists)) ∧
      (∃ e ∈ s.log, e.Wins (.team "core") ∧ s.world.tables = e.after) ∧
      s.world.tables.HasUser "u2" ∧ ¬s.world.tables.HasUser "u1" := by
  obtain ⟨-, ends, -, won⟩ := one_winner .empty default lateTeam (.team "core")
    fun command timeout arrives _ => (arrive_mem_lateTeam arrives).2
  have late : ∃ c ∈ ((start .empty default).run lateTeam).state.clients[0]?,
      Prize.SoughtBy (.team "core") c.command ∧ c.Inserted ∧ ¬c.Succeeds := by
    decide +kernel
  have tables : let t := ((start .empty default).run lateTeam).state.world.tables
      t ≠ Database.empty.tables ∧ t.HasUser "u2" ∧ ¬t.HasUser "u1" := by
    decide +kernel
  generalize ((start .empty default).run lateTeam).state = s at ends won late tables ⊢
  obtain ⟨c, found, sought, inserted, fails⟩ := late
  have told := (ends 0 c found sought inserted).resolve_left fails
  refine ⟨⟨c, found, told⟩, ?_, tables.2⟩
  obtain same | ⟨e, member, wins, -, after⟩ :=
    won fun command timeout arrives => (arrive_mem_lateTeam arrives).1
  · exact absurd same tables.1
  · exact ⟨e, member, wins, after⟩

/-- Two requests for one pull request without reviewers: the first one comes to its insertion when
the second one has inserted its own. Its name cannot be written. -/
def lateName : List Move :=
  let member (id : String) : Desk.MemberEntry := ⟨some id, some id, some (.bool true)⟩
  let arrivals : List Desk.Command :=
    [.createTeam "core" [member "u1", member "u2"],
      .createPullRequest "pr-1" (.text (.broken [0xd800])) "u1",
      .createPullRequest "pr-1" "Search" "u1"]
  let turns : List Nat := [0, 0] ++ List.replicate 9 1 ++ List.replicate 10 2 ++ [1]
  .step (.prefer { maxReviewers := 0 }) ::
    arrivals.map (fun command => .step (.arrive command none)) ++
    turns.map fun n => .step (.advance n)

/-- A request whose data cannot be stored is told so, although the key is taken. -/
theorem unwritable_name_late :
    let s := ((start .empty default).run lateName).state
    let prize := Prize.pullRequest "pr-1"
    (∃ c ∈ s.clients[2]?, prize.SoughtBy c.command ∧ c.Succeeds) ∧
      ∃ c ∈ s.clients[1]?, prize.SoughtBy c.command ∧ c.Inserted ∧ ¬c.Succeeds ∧
        ¬c.Fails prize.refusal := by
  decide +kernel

end Race

end ReviewRota.Interleaving
