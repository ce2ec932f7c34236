import ReviewRota.Proofs.Interleaving.Change
import ReviewRota.Proofs.Interleaving.Effects

/-!
# Consistent states

Whatever the order of the steps, the tables stay keyed and linked, every client keeps its contract,
and what it has learned stands. The log is a chronicle: each entry begins with the tables that the
one before it left, and its effect is one of those that steps can have.
-/

namespace ReviewRota.Interleaving

structure Client.Consistent (c : Client) (t : Tables) : Prop where
  honours : c.plan.Honours c.command.contract c.history
  stands : ∀ x ∈ c.history, x.Stands t

/-- The entry tells of the exchanges of one of the clients. -/
def Entry.BelongsTo (e : Entry) (clients : List Client) : Prop :=
  ∃ c, clients[e.client]? = some c ∧ c.command = e.command ∧
    ∀ x ∈ e.history ++ [e.exchange], x ∈ c.history

structure State.Consistent (s : State) : Prop where
  resting : s.world.Resting
  keyed : s.world.tables.Keyed
  clients : ∀ c ∈ s.clients, c.Consistent s.world.tables
  entries : ∀ e ∈ s.log, e.BelongsTo s.clients

/-- The entries lead from the tables `t` to other ones, each by an effect of its own. -/
inductive Chronicle (t : Tables) : List Entry → Tables → Prop
  | nil : Chronicle t [] t
  | snoc {log : List Entry} {e : Entry} (earlier : Chronicle t log e.before)
      (keyed : e.before.Keyed) (effect : e.Effect) : Chronicle t (log ++ [e]) e.after

namespace Chronicle

variable {t u : Tables} {log : List Entry} {e : Entry}

theorem effect (chronicle : Chronicle t log u) (member : e ∈ log) : e.Effect := by
  induction chronicle with
  | nil => exact absurd member List.not_mem_nil
  | snoc earlier keyed effect ih =>
    rcases List.mem_append.mp member with old | new
    · exact ih old
    · exact List.mem_singleton.mp new ▸ effect

theorem forall_pullRequest (chronicle : Chronicle t log u) {P : PullRequestRow → Prop}
    (first : ∀ p ∈ t.pullRequests, P p) (created : ∀ e ∈ log, ∀ p, e.Creates p → P p)
    (edited : ∀ edit p, Edit.Fits edit p → P p → P (edit.apply p)) :
    ∀ p ∈ u.pullRequests, P p := by
  induction chronicle with
  | nil => exact first
  | @snoc log e earlier keyed effect ih =>
    have before := ih fun e' member => created e' (List.mem_append_left _ member)
    intro p stored
    obtain old | creates | ⟨edit, q, old, fits, rfl⟩ := effect.origin keyed stored
    · exact before p old
    · exact created e (by simp) p creates
    · exact edited edit q fits (before q old)

section

variable {R : Tables → Tables → Prop} (refl : ∀ t, R t t)
  (trans : ∀ {t u v}, R t u → R u v → R t v)
include refl trans

/-- What every entry keeps is kept from any entry to the end of the log. -/
theorem reaches (chronicle : Chronicle t log u) (steps : ∀ e ∈ log, R e.before e.after)
    (member : e ∈ log) : R e.after u := by
  induction chronicle with
  | nil => exact absurd member List.not_mem_nil
  | @snoc log e' earlier keyed effect ih =>
    rcases List.mem_append.mp member with old | new
    · have first := ih (fun e member => steps e (List.mem_append_left _ member)) old
      exact trans first (steps e' (by simp))
    · exact List.mem_singleton.mp new ▸ refl _

theorem pairwise_of (chronicle : Chronicle t log u) (steps : ∀ e ∈ log, R e.before e.after) :
    log.Pairwise fun e e' => R e.after e'.before := by
  induction chronicle with
  | nil => exact .nil
  | snoc earlier keyed effect ih =>
    have first := fun e member => steps e (List.mem_append_left _ member)
    refine List.pairwise_append.mpr ⟨ih first, List.pairwise_singleton _ _, fun e old e' new => ?_⟩
    exact List.mem_singleton.mp new ▸ earlier.reaches refl trans first old

end

/-- What an entry left behind is stored at the end of the log, as it was or as it became. -/
theorem leads (chronicle : Chronicle t log u) (member : e ∈ log) : e.after.Leads u :=
  chronicle.reaches .refl .trans (fun _ member => (chronicle.effect member).leads) member

theorem pairwise (chronicle : Chronicle t log u) :
    log.Pairwise fun e e' => e.after.Leads e'.before :=
  chronicle.pairwise_of .refl .trans fun _ member => (chronicle.effect member).leads

theorem cons (keyed : e.before.Keyed) (effect : e.Effect) (rest : Chronicle e.after log u) :
    Chronicle e.before (e :: log) u := by
  induction rest with
  | nil => exact .snoc .nil keyed effect
  | snoc _ keyed' effect' ih => exact .snoc ih keyed' effect'

end Chronicle

theorem Client.Consistent.leads {c : Client} {t u : Tables} (consistent : c.Consistent t)
    (leads : t.Leads u) : c.Consistent u :=
  ⟨consistent.honours, fun x member => (consistent.stands x member).leads leads⟩

/-! ### Answers -/

namespace Client.Consistent

variable {id old : Value} {d : Option (Deadline Binary64)} {history : List Exchange} {t : Tables}
  {u : PullRequest} {f : Failure}

/-- A merge that answers with a pull request answers with the merged one that is stored. -/
theorem merge_answer {q : PullRequest}
    (consistent : Consistent ⟨.merge id, d, history, .done (.ok q)⟩ t) :
    ∃ p, id.column = .ok (some p.id) ∧ t.pullRequest? p.id = some p ∧ p.IsMerged ∧
      q = p.entity := by
  rcases consistent.honours.answers.1 q rfl with
    ⟨p, read, merged, rfl⟩ | ⟨p, now, read, updated⟩
  · obtain ⟨column, follows⟩ : id.column = _ ∧ t.Follows p := consistent.stands _ read
    exact ⟨p, column, follows.final merged, merged, rfl⟩
  · obtain ⟨column, -⟩ : id.column = _ ∧ t.Follows p := consistent.stands _ read
    obtain ⟨answer, row, rfl, follows⟩ :
      q = { Desk.merged p now with version := (Desk.merged p now).version + 1 } ∧
        ∃ row, q = PullRequestRow.entity row ∧ t.Follows row := consistent.stands _ updated
    have same : row.id = p.id :=
      Text.plain.inj (Value.text.inj (congrArg PullRequest.id answer))
    have merged : row.IsMerged :=
      Text.plain.inj (Value.text.inj (congrArg PullRequest.status answer))
    exact ⟨row, same ▸ column, follows.final merged, merged, rfl⟩

theorem merge_failure {r : Except Failure PullRequest}
    (consistent : Consistent ⟨.merge id, d, history, .done r⟩ t)
    (failed : ⟨.pullRequestUpdate u, .error f⟩ ∈ history) : r = .error f ∨ ∃ q, r = .ok q :=
  consistent.honours.answers.2 u f failed

theorem reassign_failure {r : Except Failure (PullRequest × String)}
    (consistent : Consistent ⟨.reassign id old, d, history, .done r⟩ t)
    (failed : ⟨.pullRequestUpdate u, .error f⟩ ∈ history) : r = .error f :=
  consistent.honours.answers u f failed

end Client.Consistent

/-! ### Clients -/

section

variable {clients : List Client} {n : Nat} {c d : Client} {e : Entry}

theorem Entry.BelongsTo.concat (belongs : e.BelongsTo clients) (c : Client) :
    e.BelongsTo (clients ++ [c]) := by
  obtain ⟨d, found, rest⟩ := belongs
  exact ⟨d, by rw [List.getElem?_append_left (List.getElem?_eq_some_iff.mp found).1, found], rest⟩

/-- An entry stays with its client when the client takes a step. -/
theorem Entry.BelongsTo.set (belongs : e.BelongsTo clients) (found : clients[n]? = some c)
    (command : d.command = c.command) (history : ∀ x ∈ c.history, x ∈ d.history) :
    e.BelongsTo (clients.set n d) := by
  obtain ⟨c', found', command', members⟩ := belongs
  by_cases same : n = e.client
  · subst same
    obtain rfl : c = c' := Option.some.inj (found.symm.trans found')
    refine ⟨d, ?_, command.trans command', fun x member => history x (members x member)⟩
    exact List.getElem?_set_self (List.getElem?_eq_some_iff.mp found).1
  · exact ⟨c', by rw [List.getElem?_set_ne same, found'], command', members⟩

theorem Client.Begins.consistent (begins : c.Begins) (t : Tables) : c.Consistent t := by
  cases begins with
  | started command d => exact ⟨command.honours, fun _ member => absurd member List.not_mem_nil⟩
  | unstarted command e =>
    exact ⟨command.concludes_unstarted e, fun _ member => absurd member List.not_mem_nil⟩

end

/-! ### Moves -/

namespace State

variable {P : Desk.Command → Prop} {s s' : State}

theorem consistent_start (db : Database) (now : Timestamp) : (start db now).Consistent where
  resting := ⟨rfl, rfl, db.linked⟩
  keyed := db.keyed
  clients _ member := absurd member List.not_mem_nil
  entries _ member := absurd member List.not_mem_nil

/-- Between the steps of its clients the world may be replaced by any other one at rest in which
what they have learned is followed. -/
theorem Consistent.overtaken (consistent : s.Consistent) {w : World} (resting : w.Resting)
    (keyed : w.tables.Keyed) (leads : s.world.tables.Leads w.tables) :
    Consistent { s with world := w } where
  resting := resting
  keyed := keyed
  clients c member := (consistent.clients c member).leads leads
  entries := consistent.entries

theorem Consistent.world (consistent : s.Consistent) {w : World}
    (tables : w.tables = s.world.tables) (resting : w.Resting) :
    Consistent { s with world := w } :=
  consistent.overtaken resting (tables ▸ consistent.keyed)
    (Tables.leads_of_pullRequests (by rw [tables]))

theorem Consistent.client (consistent : s.Consistent) {c : Client}
    (fresh : c.Consistent s.world.tables) : Consistent { s with clients := s.clients ++ [c] } where
  resting := consistent.resting
  keyed := consistent.keyed
  clients d member := by
    rcases List.mem_append.mp member with old | new
    · exact consistent.clients d old
    · exact List.mem_singleton.mp new ▸ fresh
  entries e member := (consistent.entries e member).concat c

inductive Moved (s s' : State) : Prop
  | quiet (tables : s'.world.tables = s.world.tables) (log : s'.log = s.log)
  | entered {e : Entry} (before : e.before = s.world.tables) (after : e.after = s'.world.tables)
      (log : s'.log = s.log ++ [e]) (effect : e.Effect)

theorem Consistent.set (consistent : s.Consistent) {n : Nat} {c d : Client} {w : World}
    (found : s.clients[n]? = some c) (leads : s.world.tables.Leads w.tables) (resting : w.Resting)
    (keyed : w.tables.Keyed) (next : d.Consistent w.tables) (command : d.command = c.command)
    (history : ∀ x ∈ c.history, x ∈ d.history) :
    Consistent { s with world := w, clients := s.clients.set n d } where
  resting := resting
  keyed := keyed
  clients c' member := by
    rcases List.mem_or_eq_of_mem_set member with old | rfl
    · exact (consistent.clients c' old).leads leads
    · exact next
  entries e member := (consistent.entries e member).set found command history

theorem Consistent.enter (consistent : s.Consistent) {e : Entry} (belongs : e.BelongsTo s.clients) :
    Consistent { s with log := s.log ++ [e] } where
  resting := consistent.resting
  keyed := consistent.keyed
  clients := consistent.clients
  entries e' member := by
    rcases List.mem_append.mp member with old | new
    · exact consistent.entries e' old
    · exact List.mem_singleton.mp new ▸ belongs

theorem Consistent.change (consistent : s.Consistent) (change : Change P s s') :
    s'.Consistent ∧ Moved s s' := by
  cases change with
  | world tables resting =>
    exact ⟨consistent.world tables (resting consistent.resting), .quiet tables rfl⟩
  | arrived arrives begins => exact ⟨consistent.client (begins.consistent _), .quiet rfl rfl⟩
  | @passed n c w plan found step =>
    obtain ⟨tables, resting, honours⟩ := Plan.quiet_of_step step
    have client := consistent.clients c (List.mem_of_getElem? found)
    refine ⟨consistent.set found (tables ▸ .refl _) (resting consistent.resting)
      (tables ▸ consistent.keyed) ?_ rfl fun _ => id, .quiet tables rfl⟩
    exact ⟨honours _ _ client.honours, fun x member => tables ▸ client.stands x member⟩
  | @called n c call next r v w found head run alike =>
    have client := consistent.clients c (List.mem_of_getElem? found)
    have honours := client.honours
    rw [head] at honours
    obtain ⟨warrants, continues⟩ := honours
    have fit := consistent.resting.fit c.command.operation.transactional
    have effect := effect_of_call fit consistent.keyed n warrants client.stands run
    have stand := stands_of_call fit effect client.stands run
    have rests := (Call.keeps_resting Interruption.resting_none call).resting_enclosed
      c.command.operation.transactional s.world consistent.resting
    have keys := (Call.keeps_keyed (Interruption.with_none _) call).enclosed
      c.command.operation.transactional s.world consistent.keyed
    rw [run] at rests keys
    have recalls := recalls_of_call fit client.stands run
    replace keys : v.tables.Keyed := keys
    rw [← alike.tables] at effect stand keys
    have next : Client.Consistent
        ⟨c.command, c.deadline, c.history ++ [⟨call, r⟩], next r⟩ w.tables :=
      ⟨continues r recalls, stand⟩
    have stepped := consistent.set found effect.leads (alike.resting rests) keys next rfl
      fun x member => List.mem_append_left _ member
    exact ⟨stepped.enter ⟨_, List.getElem?_set_self (List.getElem?_eq_some_iff.mp found).1, rfl,
      fun _ => id⟩, .entered rfl rfl rfl effect⟩

theorem Consistent.move (consistent : s.Consistent) (m : Move) :
    (s.move m).Consistent ∧ Moved s (s.move m) :=
  consistent.change (s.change_move m)

theorem Consistent.run (consistent : s.Consistent) (moves : List Move) :
    (s.run moves).Consistent := by
  induction moves generalizing s with
  | nil => exact consistent
  | cons m moves ih => exact ih (consistent.move m).1

theorem Moved.chronicle (moved : Moved s s') (keyed : s.world.tables.Keyed) {t : Tables}
    (chronicle : Chronicle t s.log s.world.tables) : Chronicle t s'.log s'.world.tables := by
  cases moved with
  | quiet tables log => exact tables ▸ log ▸ chronicle
  | entered before after log effect =>
    rw [log, ← after]
    exact .snoc (before ▸ chronicle) (before ▸ keyed) effect

/-- The log of a run leads from the tables that it began with to those that it has arrived at. -/
theorem Consistent.chronicle (consistent : s.Consistent) {t : Tables}
    (chronicle : Chronicle t s.log s.world.tables) (moves : List Move) :
    Chronicle t (s.run moves).log (s.run moves).world.tables := by
  induction moves generalizing s with
  | nil => exact chronicle
  | cons m moves ih =>
    obtain ⟨next, moved⟩ := consistent.move m
    exact ih next (moved.chronicle consistent.keyed chronicle)

/-- Whatever pull request is stored, what becomes of it is stored later on. -/
theorem Consistent.leads (consistent : s.Consistent) (moves : List Move) :
    s.world.tables.Leads (s.run moves).world.tables := by
  induction moves generalizing s with
  | nil => exact .refl _
  | cons m moves ih =>
    obtain ⟨next, moved⟩ := consistent.move m
    refine Tables.Leads.trans ?_ (ih next)
    cases moved with
    | quiet tables log => exact tables ▸ .refl _
    | entered before after log effect => exact before ▸ after ▸ effect.leads

theorem chronicle_run (db : Database) (now : Timestamp) (moves : List Move) :
    Chronicle db.tables ((start db now).run moves).log ((start db now).run moves).world.tables :=
  (consistent_start db now).chronicle .nil moves

/-- A transaction that has failed has changed nothing, so that nothing is lost by carrying out its
calls one by one. -/
theorem Consistent.unchanged_of_failed (consistent : s.Consistent) {t : Tables}
    (chronicle : Chronicle t s.log s.world.tables) {e : Entry} (member : e ∈ s.log) {c : Client}
    (found : s.clients[e.client]? = some c)
    (transactional : c.command.operation.transactional = true) {f : Failure}
    (failed : c.plan = .done (.error f)) : e.after = e.before := by
  obtain ⟨d, present, command, members⟩ := consistent.entries e member
  obtain rfl : d = c := Option.some.inj (present.symm.trans found)
  have honours := (consistent.clients d (List.mem_of_getElem? found)).honours
  rw [failed] at honours
  have vain := honours.undone transactional f rfl e.exchange (members _ (by simp))
  cases chronicle.effect member with
  | aside call same reads => exact reads (command ▸ transactional)
  | uncreated called same => exact same
  | missed misses => exact misses.after
  | created creates =>
    obtain ⟨q, r, called⟩ := creates.called
    rw [called] at vain
    obtain ⟨f, refused⟩ := vain trivial
    cases refused
  | edited edits =>
    rw [edits.called] at vain
    obtain ⟨f, refused⟩ := vain trivial
    cases refused

end State

end ReviewRota.Interleaving
