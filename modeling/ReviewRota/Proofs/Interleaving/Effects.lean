import ReviewRota.Proofs.Interleaving.State

/-!
# What a step does to the pull requests

A step leaves the stored pull requests alone, adds one, or makes an edit to one. The edit is made to
the very record that the client had read: what is stored under its id is that record or a later
version of it, and a later version has another number.
-/

namespace ReviewRota

def Tables.Follows (t : Tables) (p : PullRequestRow) : Prop :=
  ∃ q, t.pullRequest? p.id = some q ∧ q.Succeeds p

def Tables.Leads (t u : Tables) : Prop := ∀ p, t.pullRequest? p.id = some p → u.Follows p

namespace Tables

variable {t u v : Tables} {p q : PullRequestRow}

theorem Follows.leads (follows : t.Follows p) (leads : t.Leads u) : u.Follows p := by
  obtain ⟨q, stored, succeeds⟩ := follows
  have same := (pullRequest?_mem stored).2
  obtain ⟨r, later, after⟩ := leads q (same ▸ stored)
  exact ⟨r, same ▸ later, after.trans succeeds⟩

theorem Leads.refl (t : Tables) : t.Leads t := fun p stored => ⟨p, stored, .refl p⟩

theorem Leads.trans (first : t.Leads u) (second : u.Leads v) : t.Leads v :=
  fun p stored => (first p stored).leads second

theorem leads_of_pullRequests (same : u.pullRequests = t.pullRequests) : t.Leads u :=
  fun p stored => ⟨p, (pullRequest?_congr same p.id).trans stored, .refl p⟩

theorem leads_addPullRequest (fresh : t.pullRequest? p.id = none) :
    t.Leads (t.addPullRequest p) := by
  intro q stored
  refine ⟨q, ?_, .refl q⟩
  rw [pullRequest?_addPullRequest fresh, stored]
  rfl

theorem Follows.stored (follows : t.Follows p) (stored : t.pullRequest? p.id = some q)
    (current : q.version = p.version) : t.pullRequest? p.id = some p := by
  obtain ⟨r, found, succeeds⟩ := follows
  obtain rfl : r = q := Option.some.inj (found.symm.trans stored)
  obtain rfl := succeeds.same current
  exact found

theorem Follows.final (follows : t.Follows p) (merged : p.IsMerged) :
    t.pullRequest? p.id = some p := by
  obtain ⟨q, found, succeeds⟩ := follows
  exact succeeds.final merged ▸ found

theorem pullRequest?_edited {edit : Edit} (stored : t.pullRequest? p.id = some p) (id : String) :
    (t.modifyPullRequest p.id edit.apply).pullRequest? id =
      if id = p.id then some (edit.apply p) else t.pullRequest? id := by
  rw [pullRequest?_modifyPullRequest fun q same => (Edit.id_apply edit q).trans same]
  split
  · rename_i same
    rw [same, stored]
    rfl
  · rfl

theorem leads_edited {edit : Edit} (stored : t.pullRequest? p.id = some p) (fits : edit.Fits p) :
    t.Leads (t.modifyPullRequest p.id edit.apply) := by
  intro q found
  by_cases same : q.id = p.id
  · obtain rfl : q = p := Option.some.inj (found.symm.trans (same ▸ stored))
    exact ⟨edit.apply q, by rw [pullRequest?_edited stored, if_pos rfl], fits.succeeds⟩
  · exact ⟨q, by rw [pullRequest?_edited stored, if_neg same, found], .refl q⟩

end Tables

/-- What a client learned from an exchange about a pull request is still so, or was followed. -/
def Exchange.Stands (t : Tables) : Exchange → Prop
  | ⟨.pullRequestGet id, .ok p⟩ => id.column = .ok (some p.id) ∧ t.Follows p
  | ⟨.pullRequestUpdate u, .ok q⟩ =>
    q = { u with version := u.version + 1 } ∧ ∃ p, q = PullRequestRow.entity p ∧ t.Follows p
  | _ => True

theorem Exchange.Stands.leads {t u : Tables} {x : Exchange} (stands : x.Stands t)
    (leads : t.Leads u) : x.Stands u := by
  unfold Exchange.Stands at stands ⊢
  split at stands
  · exact ⟨stands.1, stands.2.leads leads⟩
  · obtain ⟨answer, p, entity, follows⟩ := stands
    exact ⟨answer, p, entity, follows.leads leads⟩
  · trivial

namespace Interleaving

structure Entry.Creates (e : Entry) (p : PullRequestRow) : Prop where
  called : ∃ q r, e.exchange = ⟨.pullRequestCreate q, .ok r⟩
  asked : ∃ id name author members limit, e.command = .createPullRequest id name author ∧
    author.column = .ok (some p.author) ∧
    p.reviewers = Roster.pick members author.string? limit
  opened : p.status = Status.opened ∧ p.mergedAt = none ∧ p.version = 1
  fresh : e.before.pullRequest? p.id = none
  after : e.after = e.before.addPullRequest p

/-- The call of the entry made the edit to the pull request `p`, which its client had read. -/
structure Entry.Edits (e : Entry) (edit : Edit) (p : PullRequestRow) : Prop where
  called : e.exchange =
    ⟨.pullRequestUpdate (edit.written p).entity, .ok (edit.apply p).entity⟩
  asked : e.command.Asks e.history edit p
  stored : e.before.pullRequest? p.id = some p
  after : e.after = e.before.modifyPullRequest p.id edit.apply

/-- The call of the entry was an update that did not go through. -/
structure Entry.Misses (e : Entry) (edit : Edit) (p : PullRequestRow) (f : Failure) : Prop where
  called : e.exchange = ⟨.pullRequestUpdate (edit.written p).entity, .error f⟩
  asked : e.command.Asks e.history edit p
  stale : e.before.pullRequest? p.id ≠ some p → f = .refused (PullRequests.outdated p.id)
  after : e.after = e.before

inductive Entry.Effect (e : Entry) : Prop
  | aside (call : ¬e.exchange.call.WritesPullRequest)
      (same : e.after.pullRequests = e.before.pullRequests)
      (reads : e.command.operation.transactional = true → e.after = e.before)
  | created {p : PullRequestRow} (creates : e.Creates p)
  | uncreated {q : PullRequest} {f : Failure}
      (called : e.exchange = ⟨.pullRequestCreate q, .error f⟩) (same : e.after = e.before)
  | edited {edit : Edit} {p : PullRequestRow} (edits : e.Edits edit p)
  | missed {edit : Edit} {p : PullRequestRow} {f : Failure} (misses : e.Misses edit p f)

section

variable {w v : World} {command : Desk.Command} {xs : List Exchange} {transactional : Bool}

theorem effect_of_create (fit : w.Fit transactional) {q : PullRequest}
    {r : Except Failure PullRequest} (n : Nat)
    (warrants : command.Warrants xs (.pullRequestCreate q))
    (run : (PullRequests.create q).enclosed transactional .none w = (r, v)) :
    Entry.Effect ⟨n, command, xs, ⟨.pullRequestCreate q, r⟩, w.tables, v.tables⟩ := by
  obtain ⟨id, name, author, members, limit, now, rfl, rfl⟩ := warrants
  obtain ⟨_, t, ⟨j, ends⟩, outcome⟩ := PullRequests.create_enclosed fit
    (p := Desk.opened id name author (Roster.pick members author.string? limit) now) rfl
  obtain ⟨rfl, rfl⟩ := Prod.mk.inj (run.symm.trans ends)
  cases outcome with
  | rejected e => exact .uncreated rfl rfl
  | @created id' name' author' status' fresh distinct hid hname hauthor hstatus =>
    cases hstatus
    let row : PullRequestRow :=
      ⟨⟨id', name', author', Status.opened, now, none, 1⟩,
        Roster.pick members author.string? limit⟩
    exact .created (p := row) ⟨⟨_, _, rfl⟩, ⟨id, name, author, members, limit, rfl, hauthor, rfl⟩,
      ⟨rfl, rfl, rfl⟩, fresh, rfl⟩

theorem effect_of_update (fit : w.Fit transactional) (keyed : w.tables.Keyed) {q : PullRequest}
    {r : Except Failure PullRequest} (n : Nat)
    (warrants : command.Warrants xs (.pullRequestUpdate q)) (stand : ∀ x ∈ xs, x.Stands w.tables)
    (run : (PullRequests.update q).enclosed transactional .none w = (r, v)) :
    Entry.Effect ⟨n, command, xs, ⟨.pullRequestUpdate q, r⟩, w.tables, v.tables⟩ := by
  obtain ⟨edit, p, asks, rfl⟩ := warrants
  obtain ⟨id, -, member⟩ := asks.read
  obtain ⟨-, follows⟩ : _ ∧ w.tables.Follows p := stand _ member
  obtain ⟨_, t, ⟨j, ends⟩, outcome⟩ :=
    PullRequests.update_enclosed fit (edit.written p)
  obtain ⟨rfl, rfl⟩ := Prod.mk.inj (run.symm.trans ends)
  cases outcome with
  | missing absent =>
    obtain ⟨q, found, -⟩ := follows
    rw [Edit.id_written, found] at absent
    cases absent
  | outdated stored stale =>
    exact .missed ⟨rfl, asks, fun _ => by rw [Edit.id_written], rfl⟩
  | rejected stored current e =>
    rw [Edit.id_written] at stored
    rw [Edit.version_written] at current
    exact .missed ⟨rfl, asks, fun stale => absurd (follows.stored stored current) stale, rfl⟩
  | written stored current distinct =>
    rw [Edit.id_written] at stored
    rw [Edit.version_written] at current
    have read := follows.stored stored current
    have after : w.tables.modifyPullRequest p.id (·.overwrittenBy (edit.written p)) =
        w.tables.modifyPullRequest p.id edit.apply :=
      Tables.modifyPullRequest_congr keyed read (Edit.overwrittenBy_written edit p)
    refine .edited (p := p) ⟨?_, asks, read, ?_⟩
    · rw [← Edit.entity_apply edit p]
    · rw [← after, Edit.id_written]

theorem effect_of_call (fit : w.Fit transactional) (keyed : w.tables.Keyed) {c : Call}
    {r : Except Failure c.Result} (n : Nat) (warrants : command.Warrants xs c)
    (stand : ∀ x ∈ xs, x.Stands w.tables)
    (run : c.act.enclosed transactional .none w = (r, v)) :
    Entry.Effect ⟨n, command, xs, ⟨c, r⟩, w.tables, v.tables⟩ := by
  by_cases writes : c.WritesPullRequest
  · cases c with
    | pullRequestCreate q => exact effect_of_create fit n warrants run
    | pullRequestUpdate q => exact effect_of_update fit keyed n warrants stand run
    | _ => exact writes.elim
  · have same := (Call.keeps_pullRequests (Interruption.with_none _) writes).enclosed transactional
      w rfl
    rw [run] at same
    refine .aside writes same fun whole => ?_
    have reading := warrants.isReading writes whole
    have kept := (reading.keeps (Interruption.with_none (· = w.tables))).enclosed transactional w
      rfl
    rwa [run] at kept

theorem recalls_of_call (fit : w.Fit transactional) {c : Call} {r : Except Failure c.Result}
    (stand : ∀ x ∈ xs, x.Stands w.tables)
    (run : c.act.enclosed transactional .none w = (r, v)) : Exchange.Recalls xs ⟨c, r⟩ := by
  cases c with
  | pullRequestGet id =>
    intro p member
    obtain ⟨column, q, stored, -⟩ : _ ∧ w.tables.Follows p := stand _ member
    obtain ⟨j, ends⟩ := PullRequests.get_enclosed fit id
    obtain ⟨rfl, -⟩ := Prod.mk.inj (run.symm.trans ends)
    have same := (Tables.pullRequest?_mem stored).2
    rw [← same] at column stored
    exact ⟨q, PullRequests.found_of_stored column stored⟩
  | _ => trivial

end

variable {e : Entry}

theorem Entry.Effect.leads (effect : e.Effect) : e.before.Leads e.after := by
  cases effect with
  | aside call same reads => exact Tables.leads_of_pullRequests same
  | created creates => exact creates.after ▸ Tables.leads_addPullRequest creates.fresh
  | uncreated called same => exact same ▸ .refl _
  | edited edits => exact edits.after ▸ Tables.leads_edited edits.stored edits.asked.fits
  | missed misses => exact misses.after ▸ .refl _

theorem Entry.Effect.origin (effect : e.Effect) (keyed : e.before.Keyed) {p : PullRequestRow}
    (stored : p ∈ e.after.pullRequests) : p ∈ e.before.pullRequests ∨ e.Creates p ∨
      ∃ edit q, q ∈ e.before.pullRequests ∧ Edit.Fits edit q ∧ edit.apply q = p := by
  cases effect with
  | aside call same reads => exact .inl (same ▸ stored)
  | uncreated called same => exact .inl (same ▸ stored)
  | missed misses => exact .inl (misses.after ▸ stored)
  | created creates =>
    rw [creates.after] at stored
    rcases (Tables.mem_pullRequests_addPullRequest creates.fresh).mp stored with before | rfl
    · exact .inl before
    · exact .inr (.inl creates)
  | @edited edit q edits =>
    rw [edits.after] at stored
    obtain ⟨row, before, rfl⟩ := (Tables.mem_modifyPullRequest
      (fun q same => (Edit.id_apply edit q).trans same) keyed).mp stored
    split
    · rename_i same
      have found := (Tables.pullRequest?_eq_some_iff keyed).mpr ⟨before, same⟩
      obtain rfl : q = row := Option.some.inj (edits.stored.symm.trans found)
      exact .inr (.inr ⟨edit, q, before, edits.asked.fits, rfl⟩)
    · exact .inl before

/-- What the client learns from its call stands right after it. -/
theorem Entry.Effect.stands (effect : e.Effect) (read : ∀ id p,
    e.exchange = ⟨.pullRequestGet id, .ok p⟩ →
      id.column = .ok (some p.id) ∧ e.after.pullRequest? p.id = some p) :
    e.exchange.Stands e.after := by
  cases effect with
  | aside call same reads =>
    generalize e.exchange = x at call read ⊢
    unfold Exchange.Stands
    split
    · rename_i id p
      obtain ⟨column, stored⟩ := read id p rfl
      exact ⟨column, p, stored, .refl p⟩
    · exact absurd trivial call
    · trivial
  | created creates =>
    obtain ⟨q, r, called⟩ := creates.called
    exact called ▸ trivial
  | uncreated called same => exact called ▸ trivial
  | @edited edit p edits =>
    rw [edits.called, edits.after]
    refine ⟨(Edit.entity_apply edit p).symm, edit.apply p, rfl, edit.apply p, ?_, .refl _⟩
    rw [Tables.pullRequest?_edited edits.stored, if_pos (Edit.id_apply edit p)]
  | missed misses =>
    rw [misses.called]
    trivial

section

variable {w v : World} {command : Desk.Command} {xs : List Exchange} {transactional : Bool}

theorem read_of_call (fit : w.Fit transactional) {id : Value} {r : Except Failure PullRequestRow}
    {p : PullRequestRow} (run : (PullRequests.get id).enclosed transactional .none w = (r, v))
    (found : r = .ok p) : id.column = .ok (some p.id) ∧ v.tables.pullRequest? p.id = some p := by
  obtain ⟨j, ends⟩ := PullRequests.get_enclosed fit id
  obtain ⟨rfl, rfl⟩ := Prod.mk.inj (run.symm.trans ends)
  exact PullRequests.found_eq_ok found

/-- After a call all that was learned stands, from it and from the exchanges before. -/
theorem stands_of_call (fit : w.Fit transactional) {c : Call} {r : Except Failure c.Result}
    {n : Nat}
    (effect : Entry.Effect ⟨n, command, xs, ⟨c, r⟩, w.tables, v.tables⟩)
    (stand : ∀ x ∈ xs, x.Stands w.tables) (run : c.act.enclosed transactional .none w = (r, v)) :
    ∀ x ∈ xs ++ [⟨c, r⟩], x.Stands v.tables := by
  intro x member
  rcases List.mem_append.mp member with old | new
  · exact (stand x old).leads effect.leads
  · obtain rfl := List.mem_singleton.mp new
    exact effect.stands fun id p exchange => by
      cases exchange
      exact read_of_call fit run rfl

end

end Interleaving

end ReviewRota
