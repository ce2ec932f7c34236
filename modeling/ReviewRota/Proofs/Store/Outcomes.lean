import ReviewRota.Proofs.Store.PullRequests
import ReviewRota.Store.Call

/-!
# What calls give

However its run is interrupted, a call gives a result only after it has done its work. A stored pull
request had columns that could be written, an updated one is the given one with the next version,
and a stored team is the given one with its members in order.
-/

namespace ReviewRota

/-- The text of the value is a string, as that of everything that can be written is. -/
def Value.IsSpelled (v : Value) : Prop := ∃ s, v.asText = .plain s

theorem Value.isSpelled_plain (s : String) : (text (.plain s)).IsSpelled := ⟨s, rfl⟩

theorem Value.isSpelled_of_column {v : Value} {s : String} (column : v.column = .ok (some s)) :
    v.IsSpelled := by
  cases v with
  | text t =>
    cases t with
    | plain s' => exact ⟨s', rfl⟩
    | broken ps => cases column
  | _ => exact ⟨_, rfl⟩

structure PullRequest.IsSpelled (p : PullRequest) : Prop where
  id : p.id.IsSpelled
  name : p.name.IsSpelled
  author : p.author.IsSpelled
  status : p.status.IsSpelled
  reviewers : ∀ r ∈ p.reviewers, r.IsSpelled

theorem PullRequestRow.isSpelled_entity (p : PullRequestRow) : p.entity.IsSpelled where
  id := Value.isSpelled_plain _
  name := Value.isSpelled_plain _
  author := Value.isSpelled_plain _
  status := Value.isSpelled_plain _
  reviewers r member := by
    obtain ⟨s, -, rfl⟩ := List.mem_map.mp member
    exact Value.isSpelled_plain s

theorem MemberDraft.ordered_drafts (ms : List Member) :
    ordered (ms.map Member.draft) = .ok ((Roster.ordered ms).map Member.draft) := by
  have members : (ms.map Member.draft).mapM member? = some ms := by
    induction ms with
    | nil => rfl
    | cons m ms ih => simp [ih]
  unfold ordered
  rw [members]

/-! ### Results -/

namespace Act

variable {α β : Type} {i : Interruption} {P : α → Prop} {Q : β → Prop}

def Yields (i : Interruption) (x : Act α) (P : α → Prop) : Prop :=
  ∀ w a v, x i w = (.ok a, v) → P a

namespace Yields

theorem any (x : Act α) : x.Yields i fun _ => True := fun _ _ _ _ => trivial

theorem pure {a : α} (holds : P a) : (pure a : Act α).Yields i P := by
  intro w b v done
  cases done
  exact holds

theorem fail (e : Failure) : (fail e : Act α).Yields i P := by
  intro w a v done
  cases done

theorem refuse (r : Refusal) : (refuse r : Act α).Yields i P := fail _

theorem ofExcept {r : Except Failure α} (holds : ∀ a, r = .ok a → P a) :
    (ofExcept r).Yields i P := by
  intro w a v done
  cases done
  exact holds a rfl

theorem bind {x : Act α} {f : α → Act β} (first : x.Yields i P)
    (rest : ∀ a, P a → (f a).Yields i Q) : (x >>= f).Yields i Q := by
  intro w b v done
  rw [bind_apply] at done
  generalize run : x i w = outcome at done
  obtain ⟨e | a, u⟩ := outcome
  · cases done
  · exact rest a (first w a _ run) _ b v done

theorem orElse {x : Act α} {handler : Failure → Act α} (first : x.Yields i P)
    (rest : ∀ e, (handler e).Yields i P) : (x.orElse handler).Yields i P := by
  intro w a v done
  rw [orElse_apply] at done
  generalize run : x i w = outcome at done
  obtain ⟨e | a', u⟩ := outcome
  · exact rest e u a v done
  · cases done
    exact first w a _ run

theorem visiting (p : Point) {x : Act α} (inner : x.Yields i P) : (visiting p x).Yields i P :=
  .bind (.any _) fun _ _ => .bind inner fun _ holds => .bind (.any _) fun _ _ => .pure holds

theorem port (p : Port) {x : Act α} (inner : x.Yields i P) : (port p x).Yields i P :=
  .orElse (.visiting _ inner) fun _ => .fail _

theorem atomic {x : Act α} (inner : x.Yields i P) : (atomic x).Yields i P := by
  intro w a v done
  generalize run : x i w.deeper = outcome
  obtain ⟨e | b, u⟩ := outcome
  · rw [atomic_error run] at done
    cases done
  · have holds := inner w.deeper b u run
    rw [atomic_ok run] at done
    split at done
    · cases done
      exact holds
    · split at done
      · cases done
      · cases done
        exact holds

theorem write (s : Statement) (values : Except Failure β)
    {f : β → Tables → Except Failure (α × Tables)}
    (effect : ∀ b t a u, f b t = .ok (a, u) → P a) : (write s values f).Yields i P := by
  refine .orElse ?_ fun e => .bind (.any _) fun _ _ => .fail e
  refine .bind (.any _) fun _ _ => .bind (.any _) fun b _ => .bind (.any _) fun _ _ =>
    .bind (.any _) fun w _ => ?_
  refine .bind (.ofExcept fun r done => effect b w.tables r.1 r.2 done) fun r holds => ?_
  exact .bind (.any _) fun _ _ => .pure holds

end Yields

end Act

/-! ### Calls -/

def Call.Gives : (c : Call) → c.Result → Prop
  | teamCreate t, u => u.name = t.name ∧ MemberDraft.ordered t.members = .ok u.members
  | pullRequestCreate p, q =>
    (∃ time, q = { p with createdAt := some time, version := 1 }) ∧
      p.id.IsSpelled ∧ p.name.IsSpelled ∧ p.author.IsSpelled ∧ p.status.IsSpelled
  | pullRequestUpdate p, q => q = { p with version := p.version + 1 }
  | _, _ => True

theorem PullRequests.yields_insert {i : Interruption} (p : PullRequest) (createdAt : Timestamp) :
    (insert p createdAt).Yields i fun _ =>
      p.id.IsSpelled ∧ p.name.IsSpelled ∧ p.author.IsSpelled ∧ p.status.IsSpelled := by
  rw [insert_eq]
  apply Act.Yields.write
  intro _ t _ u done
  obtain ⟨_, _, _, _, id, name, author, status, -, -⟩ := insertion_eq_ok done
  exact ⟨Value.isSpelled_of_column id, Value.isSpelled_of_column name,
    Value.isSpelled_of_column author, Value.isSpelled_of_column status⟩

theorem PullRequests.yields_create {i : Interruption} (p : PullRequest) :
    (create p).Yields i (Call.pullRequestCreate p).Gives := by
  refine .port _ (.bind (.any _) fun now _ => ?_)
  refine .bind (.orElse (.atomic (.bind (yields_insert p _) fun _ written => ?_)) fun e => ?_)
    fun _ written => .pure ⟨⟨_, rfl⟩, written⟩
  · intro w a v done
    exact written
  · -- a failed insertion is looked into, but never made good
    split
    · refine .bind (.any _) fun stored _ => ?_
      split
      · exact .refuse _
      · exact .fail e
    · exact .fail e

theorem Call.gives (c : Call) (i : Interruption) : c.act.Yields i c.Gives := by
  cases c with
  | teamCreate t =>
    refine .port _ (.bind (.any _) fun _ _ => ?_)
    exact .bind (.ofExcept fun members sorted => sorted) fun members sorted => .pure ⟨rfl, sorted⟩
  | pullRequestCreate p => exact PullRequests.yields_create p
  | pullRequestUpdate p => exact .port _ (.bind (.any _) fun _ _ => .pure rfl)
  | _ => exact fun _ _ _ _ => trivial

end ReviewRota
