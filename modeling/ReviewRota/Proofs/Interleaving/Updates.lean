import ReviewRota.Proofs.Interleaving.Consistency

/-!
# No lost updates

Updates of one pull request take effect one after the other, each on the record that its client had
read. A client that comes with an outdated record writes nothing: a reassignment reports a conflict,
and a merge does too unless it finds the pull request merged.
-/

namespace ReviewRota.Interleaving

/-- Whether the call of the entry updated the pull request of an id. -/
def Entry.updates (id : String) (e : Entry) : Bool :=
  match e.exchange with
  | ⟨.pullRequestUpdate q, .ok _⟩ => decide (q.id.string? = some id)
  | _ => false

/-- The entries edit a record, each what the one before it has left, from `p` to `q`. -/
inductive Serial (p : PullRequestRow) : List Entry → PullRequestRow → Prop
  | nil : Serial p [] p
  | snoc {entries : List Entry} {e : Entry} {edit : Edit} {q : PullRequestRow}
      (earlier : Serial p entries q) (edits : e.Edits edit q) :
      Serial p (entries ++ [e]) (edit.apply q)

variable {p q : PullRequestRow}

theorem Serial.version {entries : List Entry} (serial : Serial p entries q) :
    q.version = p.version + entries.length := by
  induction serial with
  | nil => simp
  | snoc earlier edits ih =>
    rw [Edit.version_apply, ih, List.length_append, List.length_singleton]
    omega

theorem Entry.Effect.record {e : Entry} {id : String} (effect : e.Effect)
    (stored : e.before.pullRequest? id = some q) :
    (e.updates id = false ∧ e.after.pullRequest? id = some q) ∨
      e.updates id = true ∧ ∃ edit, e.Edits edit q ∧
        e.after.pullRequest? id = some (edit.apply q) := by
  have same := (Tables.pullRequest?_mem stored).2
  cases effect with
  | aside call same reads =>
    refine .inl ⟨?_, (Tables.pullRequest?_congr same id).trans stored⟩
    generalize exchange : e.exchange = x at call
    unfold Entry.updates
    rw [exchange]
    split
    · exact absurd trivial call
    · rfl
  | created creates =>
    obtain ⟨u, r, called⟩ := creates.called
    refine .inl ⟨by simp only [Entry.updates, called], ?_⟩
    rw [creates.after, Tables.pullRequest?_addPullRequest creates.fresh, stored]
    rfl
  | uncreated called same =>
    exact .inl ⟨by simp only [Entry.updates, called], same ▸ stored⟩
  | missed misses =>
    exact .inl ⟨by simp only [Entry.updates, misses.called], misses.after ▸ stored⟩
  | @edited edit p edits =>
    have updates : e.updates id = decide (p.id = id) := by
      have named : (edit.written p).entity.id.string? = some p.id := by
        rw [← Edit.id_written edit p]
        rfl
      simp only [Entry.updates, edits.called, named, Option.some.injEq]
    rw [updates, edits.after, Tables.pullRequest?_edited edits.stored]
    by_cases target : p.id = id
    · obtain rfl : p = q := Option.some.inj (edits.stored.symm.trans (target ▸ stored))
      exact .inr ⟨decide_eq_true target, edit, edits, if_pos target.symm⟩
    · exact .inl ⟨decide_eq_false target, (if_neg (Ne.symm target)).trans stored⟩

/-- The successful updates of a pull request, in the order of their calls, make its record what it
is in the end. -/
theorem Chronicle.serial {t u : Tables} {log : List Entry} (chronicle : Chronicle t log u)
    {id : String} (stored : t.pullRequest? id = some p) :
    ∃ q, u.pullRequest? id = some q ∧ Serial p (log.filter (Entry.updates id)) q := by
  induction chronicle with
  | nil => exact ⟨p, stored, .nil⟩
  | @snoc log e earlier keyed effect ih =>
    obtain ⟨q, before, serial⟩ := ih
    rw [List.filter_append]
    rcases effect.record before with ⟨other, after⟩ | ⟨updates, edit, edits, after⟩
    · exact ⟨q, after, by simpa [other] using serial⟩
    · exact ⟨edit.apply q, after, by simpa [updates] using serial.snoc edits⟩

/-! ### Outdated records -/

/-- The conflict that an update of an outdated record ends in. -/
def conflict (id : String) : Failure := .refused (PullRequests.outdated id)

/-- A client that could not write has nothing else to tell, when it is done, than the conflict or,
if it was to merge, the merged record that is stored. -/
def Client.Concedes (id : String) (t : Tables) : Client → Prop
  | ⟨.merge _, _, _, .done r⟩ =>
    r = .error (conflict id) ∨ ∃ q, t.pullRequest? id = some q ∧ q.IsMerged ∧ r = .ok q.entity
  | ⟨.reassign .., _, _, .done r⟩ => r = .error (conflict id)
  | _ => True

theorem column_of_asks {c : Client} {t : Tables} {edit : Edit} {id : Value}
    (consistent : c.Consistent t) {xs : List Exchange} (members : ∀ x ∈ xs, x ∈ c.history)
    (asks : (Desk.Command.merge id).Asks xs edit p) : id.column = .ok (some p.id) := by
  obtain ⟨target, asked, read⟩ := asks.read
  have same : id = target := by
    cases edit with
    | merge now => exact asked
    | replace leaving successor => exact asked.elim
  obtain ⟨column, -⟩ : target.column = _ ∧ t.Follows p := consistent.stands _ (members _ read)
  exact same ▸ column

theorem Client.Consistent.concedes {c : Client} {t : Tables} {edit : Edit} {u : PullRequest}
    (consistent : c.Consistent t) {xs : List Exchange} (members : ∀ x ∈ xs, x ∈ c.history)
    (asks : c.command.Asks xs edit p)
    (failed : ⟨.pullRequestUpdate u, .error (conflict p.id)⟩ ∈ c.history) :
    c.Concedes p.id t := by
  unfold Client.Concedes
  split
  · rename_i id d history r
    rcases consistent.merge_failure failed with conflict | ⟨q, rfl⟩
    · exact .inl conflict
    · obtain ⟨row, column, stored, merged, rfl⟩ := consistent.merge_answer
      have read := column_of_asks consistent members asks
      have same : row.id = p.id :=
        Option.some.inj (Except.ok.inj (column.symm.trans read))
      exact .inr ⟨row, same ▸ stored, merged, rfl⟩
  · exact consistent.reassign_failure failed
  · trivial

/-- An update is made by a client to the record that it has read, or the client comes too late. -/
theorem Entry.Effect.update {e : Entry} {id : String} {u : PullRequest} (effect : e.Effect)
    (called : e.exchange.call = .pullRequestUpdate u) (target : u.id = .text (.plain id)) :
    ∃ edit q, u = (edit.written q).entity ∧ e.command.Asks e.history edit q ∧ q.id = id ∧
      (e.before.pullRequest? id = some q ∨ e.after = e.before ∧
        e.exchange = ⟨.pullRequestUpdate u, .error (conflict id)⟩) := by
  have named {edit : Edit} {q : PullRequestRow} (same : u = (edit.written q).entity) :
      q.id = id := by
    rw [same] at target
    exact (Edit.id_written edit q).symm.trans (Text.plain.inj (Value.text.inj target))
  cases effect with
  | aside call same reads =>
    rw [called] at call
    exact absurd trivial call
  | created creates =>
    obtain ⟨v, r, exchange⟩ := creates.called
    rw [exchange] at called
    cases called
  | uncreated exchange same =>
    rw [exchange] at called
    cases called
  | @edited edit q edits =>
    rw [edits.called] at called
    have same := (Call.pullRequestUpdate.inj called).symm
    exact ⟨edit, q, same, edits.asked, named same, .inl (named same ▸ edits.stored)⟩
  | @missed edit q f misses =>
    have exchange := misses.called
    rw [exchange] at called
    have same := (Call.pullRequestUpdate.inj called).symm
    obtain rfl := named same
    refine ⟨edit, q, same, misses.asked, rfl, ?_⟩
    by_cases stored : e.before.pullRequest? q.id = some q
    · exact .inl stored
    · rw [misses.stale stored, ← same] at exchange
      exact .inr ⟨misses.after, exchange⟩

namespace State

/-- Whatever requests run, in whatever order of their steps: the record of a pull request is in the
end what its successful updates made of it, one after the other and each on the record that its
client had read, and its version counts them. An update by a client that has read another record
than the one that is stored changes nothing, and the client concedes. -/
theorem updates_serial (db : Database) (now : Timestamp) (moves : List Move) {id : String}
    {p : PullRequestRow} (stored : db.tables.pullRequest? id = some p) :
    let s := (start db now).run moves
    (∃ q, s.world.tables.pullRequest? id = some q ∧
      Serial p (s.log.filter (Entry.updates id)) q ∧
      q.version = p.version + (s.log.filter (Entry.updates id)).length) ∧
    ∀ e ∈ s.log, ∀ u, e.exchange.call = .pullRequestUpdate u → u.id = .text (.plain id) →
      ∃ edit q, u = (edit.written q).entity ∧ e.command.Asks e.history edit q ∧
        (e.before.pullRequest? id = some q ∨ e.after = e.before ∧
          e.exchange = ⟨.pullRequestUpdate u, .error (conflict id)⟩ ∧
          ∀ c ∈ s.clients[e.client]?, c.Concedes id s.world.tables) := by
  intro s
  have consistent : s.Consistent := (consistent_start db now).run moves
  have chronicle : Chronicle db.tables s.log s.world.tables := chronicle_run db now moves
  constructor
  · obtain ⟨q, found, serial⟩ := chronicle.serial stored
    exact ⟨q, found, serial, serial.version⟩
  · intro e member u called target
    obtain ⟨edit, q, same, asks, rfl, current | ⟨kept, exchange⟩⟩ :=
      (chronicle.effect member).update called target
    · exact ⟨edit, q, same, asks, .inl current⟩
    · refine ⟨edit, q, same, asks, .inr ⟨kept, exchange, fun c present => ?_⟩⟩
      obtain ⟨d, found, command, members⟩ := consistent.entries e member
      obtain rfl : d = c := Option.some.inj (found.symm.trans present)
      have failed := exchange ▸ members e.exchange (by simp)
      have asked : d.command.Asks e.history edit q := command ▸ asks
      exact (consistent.clients d (List.mem_of_getElem? found)).concedes
        (fun x earlier => members x (List.mem_append_left _ earlier)) asked failed

def reviewed : Database where
  tables :=
    { teams := ["core"]
      users := ["u1", "u2", "u3", "u4"].map fun id => ⟨id, id, some "core", true⟩
      heads := [⟨"pr-1", "Search", "u1", Status.opened, default, none, 1⟩]
      assigned := [⟨"pr-1", "u2", 0⟩, ⟨"pr-1", "u3", 1⟩] }
  keyed := ⟨by decide, by decide, by decide, by decide⟩
  linked := by decide

/-- Two merges that both read the pull request before either writes it. -/
def race : List Move :=
  [.arrive (.merge "pr-1") none, .arrive (.merge "pr-1") none, .advance 0, .advance 0, .advance 1,
    .advance 1, .advance 1, .advance 0, .advance 0, .advance 0, .advance 1, .advance 1, .advance 1]

theorem updates_serial_race :
    (((start reviewed default).run race).log.filter (Entry.updates "pr-1")).length = 1 ∧
      ∃ q, ((start reviewed default).run race).world.tables.pullRequest? "pr-1" = some q ∧
        q.version = 2 := by
  have once : (((start reviewed default).run race).log.filter (Entry.updates "pr-1")).length = 1 :=
    by decide +kernel
  have stored : reviewed.tables.pullRequest? "pr-1" =
      some ⟨⟨"pr-1", "Search", "u1", Status.opened, default, none, 1⟩, ["u2", "u3"]⟩ := by
    decide +kernel
  obtain ⟨⟨q, found, -, version⟩, -⟩ := updates_serial reviewed default race stored
  exact ⟨once, q, found, by rw [version, once]; rfl⟩

end State

end ReviewRota.Interleaving
