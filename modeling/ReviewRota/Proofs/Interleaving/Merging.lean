import Mathlib.Tactic
import ReviewRota.Proofs.Interleaving.Updates

/-!
# Merges are final

A pull request is merged by one write at most. From then on nothing changes it, every merge answers
with the record as it is stored, and a reassignment that comes with what it read before fails.
-/

namespace ReviewRota.Interleaving

/-- Whether the call of the entry found the pull request of an id unmerged and left it merged. -/
def Entry.merges (id : String) (e : Entry) : Bool :=
  (e.before.pullRequest? id).any (fun p => ¬p.IsMerged) &&
    (e.after.pullRequest? id).any (fun p => p.IsMerged)

variable {e e' : Entry} {id : String}

theorem Entry.merges_iff : e.merges id = true ↔
    (∃ p, e.before.pullRequest? id = some p ∧ ¬p.IsMerged) ∧
      ∃ p, e.after.pullRequest? id = some p ∧ p.IsMerged := by
  simp [Entry.merges, Option.any_eq_true]

theorem final_of_leads {t u : Tables} {p : PullRequestRow} (leads : t.Leads u)
    (stored : t.pullRequest? id = some p) (merged : p.IsMerged) : u.pullRequest? id = some p := by
  obtain rfl := (Tables.pullRequest?_mem stored).2
  exact (leads p stored).final merged

theorem Entry.not_merges_of_leads (merges : e.merges id = true)
    (leads : e.after.Leads e'.before) : e'.merges id = false := by
  obtain ⟨-, p, stored, merged⟩ := Entry.merges_iff.mp merges
  have before := final_of_leads leads stored merged
  refine Bool.eq_false_iff.mpr fun again => ?_
  obtain ⟨⟨q, found, unmerged⟩, -⟩ := Entry.merges_iff.mp again
  obtain rfl : p = q := Option.some.inj (before.symm.trans found)
  exact unmerged merged

theorem length_filter_merges {log : List Entry}
    (ordered : log.Pairwise fun e e' => e.after.Leads e'.before) :
    (log.filter (Entry.merges id)).length ≤ 1 := by
  have filtered := ordered.filter (Entry.merges id)
  generalize kept : log.filter (Entry.merges id) = entries at filtered
  cases entries with
  | nil => simp
  | cons e rest =>
    cases rest with
    | nil => simp
    | cons e' rest =>
      have first : e.merges id = true := List.of_mem_filter (kept ▸ List.mem_cons_self)
      have second : e'.merges id = true := by
        have member : e' ∈ log.filter (Entry.merges id) := by simp [kept]
        exact List.of_mem_filter member
      have leads := List.rel_of_pairwise_cons filtered List.mem_cons_self
      exact absurd second (by simp [Entry.not_merges_of_leads first leads])

theorem Entry.Effect.update_after_merge {u : PullRequest} (effect : e'.Effect)
    (merges : e.merges id = true) (leads : e.after.Leads e'.before)
    (called : e'.exchange.call = .pullRequestUpdate u) (target : u.id = .text (.plain id)) :
    e'.exchange = ⟨.pullRequestUpdate u, .error (conflict id)⟩ := by
  obtain ⟨-, p, stored, merged⟩ := Entry.merges_iff.mp merges
  have before := final_of_leads leads stored merged
  obtain ⟨edit, q, -, asks, -, current | ⟨-, exchange⟩⟩ := effect.update called target
  · obtain rfl : p = q := Option.some.inj (before.symm.trans current)
    exact absurd merged asks.fits.unmerged
  · exact exchange

namespace State

/-- Whatever requests run, in whatever order of their steps: a pull request is merged at most once,
a merged one is never changed again, all merges of it that answer with a record answer with the
stored one, and a reassignment whose update comes after the merge fails. -/
theorem merges_final (db : Database) (now : Timestamp) (moves : List Move) (id : String) :
    let s := (start db now).run moves
    (s.log.filter (Entry.merges id)).length ≤ 1 ∧
    (∀ p, s.world.tables.pullRequest? id = some p → p.IsMerged → ∀ more,
      (s.run more).world.tables.pullRequest? id = some p) ∧
    (∀ (n : Nat) target d history q,
      s.clients[n]? = some ⟨.merge target, d, history, .done (.ok q)⟩ →
      target.column = .ok (some id) →
      ∃ p, s.world.tables.pullRequest? id = some p ∧ p.IsMerged ∧ q = p.entity) ∧
    ∀ earlier e between e' later, s.log = earlier ++ e :: between ++ e' :: later →
      e.merges id = true → ∀ target old u, e'.command = .reassign target old →
      e'.exchange.call = .pullRequestUpdate u → u.id = .text (.plain id) →
      e'.exchange = ⟨.pullRequestUpdate u, .error (conflict id)⟩ ∧
        ∀ d history r, s.clients[e'.client]? = some ⟨.reassign target old, d, history, .done r⟩ →
          r = .error (conflict id) := by
  intro s
  have consistent : s.Consistent := (consistent_start db now).run moves
  have chronicle : Chronicle db.tables s.log s.world.tables := chronicle_run db now moves
  refine ⟨length_filter_merges chronicle.pairwise, ?_, ?_, ?_⟩
  · intro p stored merged more
    exact final_of_leads (consistent.leads more) stored merged
  · intro n target d history q found column
    obtain ⟨p, read, stored, merged, entity⟩ :=
      (consistent.clients _ (List.mem_of_getElem? found)).merge_answer
    obtain rfl : p.id = id := Option.some.inj (Except.ok.inj (read.symm.trans column))
    exact ⟨p, stored, merged, entity⟩
  · intro earlier e between e' later log merges target old u command called named
    have member : e' ∈ s.log := by simp [log]
    have ordered := log ▸ chronicle.pairwise
    have leads : e.after.Leads e'.before :=
      (List.pairwise_append.mp ordered).2.2 e (by simp) e' List.mem_cons_self
    have failed := (chronicle.effect member).update_after_merge merges leads called named
    refine ⟨failed, fun d history r found => ?_⟩
    obtain ⟨c, present, -, members⟩ := consistent.entries e' member
    obtain rfl := Option.some.inj (present.symm.trans found)
    exact (consistent.clients _ (List.mem_of_getElem? found)).reassign_failure
      (failed ▸ members e'.exchange (by simp))

end State

/-! ### A race of merges -/

/-- Two merges have read a pull request before one of them writes. A third one comes later. -/
def racing : List Move :=
  let member (id : String) : Desk.MemberEntry := ⟨some id, some id, some (.bool true)⟩
  [.arrive (.createTeam "core" [member "u1", member "u2"]) none, .advance 0, .advance 0,
      .arrive (.createPullRequest "pr-1" "Search" "u1") none] ++ List.replicate 10 (.advance 1) ++
    [.arrive (.merge "pr-1") none, .arrive (.merge "pr-1") none, .advance 2, .advance 2,
      .advance 3, .advance 3] ++
    List.replicate 5 (.advance 2) ++ List.replicate 5 (.advance 3) ++
    .arrive (.merge "pr-1") none :: List.replicate 5 (.advance 4)

/-- The target of a merge that has been answered with a record, and the record. -/
def Client.merged? : Client → Option (Value × PullRequest)
  | ⟨.merge target, _, _, .done (.ok q)⟩ => some (target, q)
  | _ => none

theorem Client.merged?_eq_some {c : Client} {target : Value} {q : PullRequest} :
    c.merged? = some (target, q) ↔ ∃ d history, c = ⟨.merge target, d, history, .done (.ok q)⟩ := by
  constructor
  · intro answered
    unfold Client.merged? at answered
    split at answered
    · cases answered
      exact ⟨_, _, rfl⟩
    · cases answered
  · rintro ⟨d, history, rfl⟩
    rfl

/-- Whether an update came too late. -/
def Entry.isLate (e : Entry) : Bool :=
  match e.exchange with
  | ⟨.pullRequestUpdate _, .error f⟩ => decide f.IsConflict
  | _ => false

theorem answers_racing :
    ((State.start .empty default).run racing).clients.map (fun c => c.merged?.map Prod.fst) =
      [none, none] ++ List.replicate 3 (some (.text (.plain "pr-1"))) := by
  cbv

theorem updates_racing :
    let s := (State.start .empty default).run racing
    ((s.log.filter (Entry.merges "pr-1")).map Entry.client,
      (s.log.filter Entry.isLate).map Entry.client) = ([2], [3]) := by
  cbv

/-- The first of the three writes, the second one comes too late, and all of them are answered with
what is stored from then on. -/
theorem State.merges_final_racing :
    let s := (State.start .empty default).run racing
    ∃ p, s.world.tables.pullRequest? "pr-1" = some p ∧ p.IsMerged ∧
      (s.log.filter (Entry.merges "pr-1")).map Entry.client = [2] ∧
      (s.log.filter Entry.isLate).map Entry.client = [3] ∧
      (∀ n ∈ [2, 3, 4], ∃ d history,
        s.clients[n]? = some ⟨.merge "pr-1", d, history, .done (.ok p.entity)⟩) ∧
      ∀ more, (s.run more).world.tables.pullRequest? "pr-1" = some p := by
  have listed := answers_racing
  have updates := updates_racing
  obtain ⟨-, final, answers, -⟩ := merges_final .empty default racing "pr-1"
  generalize (start .empty default).run racing = s at *
  have answered (n : Nat) (among : n ∈ [2, 3, 4]) : ∃ d history q,
      s.clients[n]? = some ⟨.merge "pr-1", d, history, .done (.ok q)⟩ := by
    have entry : (s.clients.map fun c => c.merged?.map Prod.fst)[n]? =
        some (some (.text (.plain "pr-1"))) := by
      rw [listed]
      simp only [List.mem_cons, List.not_mem_nil, or_false] at among
      obtain rfl | rfl | rfl := among <;> rfl
    rw [List.getElem?_map] at entry
    obtain ⟨c, found, target⟩ := Option.map_eq_some_iff.mp entry
    obtain ⟨⟨_, q⟩, told, rfl⟩ := Option.map_eq_some_iff.mp target
    obtain ⟨d, history, rfl⟩ := Client.merged?_eq_some.mp told
    exact ⟨d, history, q, found⟩
  obtain ⟨d, history, q, found⟩ := answered 2 (by decide)
  obtain ⟨p, stored, merged, -⟩ := answers 2 _ d history q found rfl
  obtain ⟨winner, late⟩ := Prod.mk.inj updates
  refine ⟨p, stored, merged, winner, late, fun n among => ?_, final p stored merged⟩
  obtain ⟨d, history, q, found⟩ := answered n among
  obtain ⟨p', stored', -, rfl⟩ := answers n _ d history q found rfl
  obtain rfl := Option.some.inj (stored.symm.trans stored')
  exact ⟨d, history, found⟩

end ReviewRota.Interleaving
