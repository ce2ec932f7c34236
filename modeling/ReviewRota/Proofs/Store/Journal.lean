import ReviewRota.Proofs.Store.Keeping
import ReviewRota.Store.Call

/-!
# What storage writes into the journal

A storage call tells of the points that it comes to and of its transactions, each of which it closes
again. It says nothing to the server, and leaves the connection as it found it, if what interrupts
it happens elsewhere.
-/

namespace ReviewRota

/-- Points of storage, in transactions that are closed again. -/
inductive Balanced : List Event → Prop
  | nil : Balanced []
  | reached (p : Point) {es : List Event} (rest : Balanced es) : Balanced (.reached p :: es)
  | left (p : Point) {es : List Event} (rest : Balanced es) : Balanced (.left p :: es)
  | nested {es fs : List Event} (inner : Balanced es) (rest : Balanced fs) :
      Balanced (.opened :: (es ++ .closed :: fs))

theorem Balanced.append {es fs : List Event} (first : Balanced es) (second : Balanced fs) :
    Balanced (es ++ fs) := by
  induction first with
  | nil => exact second
  | reached p _ ih => exact .reached p ih
  | left p _ ih => exact .left p ih
  | nested inner _ _ ih =>
    rw [List.cons_append, List.append_assoc, List.cons_append]
    exact .nested inner ih

/-- The later world has the journal of the earlier one with more entries, on the same connection,
with as many transactions open. -/
structure World.Continues (w v : World) (es : List Event) : Prop where
  journal : v.journal = w.journal ++ es
  depth : v.depth = w.depth
  vendor : v.preferences.vendor = w.preferences.vendor

namespace World.Continues

theorem refl (w : World) : w.Continues w [] := ⟨(List.append_nil _).symm, rfl, rfl⟩

theorem trans {u v w : World} {es fs : List Event} (first : u.Continues v es)
    (second : v.Continues w fs) : u.Continues w (es ++ fs) where
  journal := by rw [second.journal, first.journal, List.append_assoc]
  depth := second.depth.trans first.depth
  vendor := second.vendor.trans first.vendor

theorem log (w : World) (e : Event) : w.Continues (w.log e) [e] := ⟨rfl, rfl, rfl⟩

theorem link {w v : World} {es : List Event} (continues : w.Continues v es) : v.link = w.link := by
  unfold World.link
  rw [continues.depth, continues.vendor]

end World.Continues

/-- What happens in between happens elsewhere: not in the run's own transaction, nor told in its
journal. -/
def Interruption.Remote (i : Interruption) : Prop :=
  ∀ p m (w : World), w.Continues (i p m w).2 []

theorem Interruption.remote_none : Interruption.none.Remote := fun _ _ w => .refl w

namespace Act

variable {α β : Type} {i : Interruption}

/-- The act adds balanced entries to the journal and leaves the connection as it was. -/
def Balances (i : Interruption) (x : Act α) : Prop :=
  ∀ w : World, ∃ es, Balanced es ∧ w.Continues (x i w).2 es

theorem continues_atomic {x : Act α} {w : World} {es : List Event}
    (inner : w.deeper.Continues (x i w.deeper).2 es) :
    w.Continues (atomic x i w).2 (.opened :: (es ++ [.closed])) := by
  generalize run : x i w.deeper = outcome at inner
  obtain ⟨r, v⟩ := outcome
  have journal : (v.log .closed).journal = w.journal ++ .opened :: (es ++ [.closed]) := by
    show v.journal ++ [.closed] = _
    rw [inner.journal]
    simp [World.deeper, World.log]
  have vendor : v.preferences.vendor = w.preferences.vendor := inner.vendor
  cases r with
  | error e =>
    rw [atomic_error run]
    exact ⟨journal, rfl, vendor⟩
  | ok a =>
    rw [atomic_ok run]
    split
    · exact ⟨journal, rfl, vendor⟩
    · split <;> exact ⟨journal, rfl, vendor⟩

namespace Balances

/-! ### Rules -/

theorem of_quiet {x : Act α} (quiet : ∀ w : World, w.Continues (x i w).2 []) : x.Balances i :=
  fun w => ⟨[], .nil, quiet w⟩

theorem pure (a : α) : (pure a : Act α).Balances i := .of_quiet .refl

theorem fail (e : Failure) : (fail e : Act α).Balances i := .of_quiet .refl

theorem refuse (r : Refusal) : (refuse r : Act α).Balances i := .of_quiet .refl

theorem ofExcept (r : Except Failure α) : (ofExcept r).Balances i := .of_quiet .refl

theorem world : Act.world.Balances i := .of_quiet .refl

theorem now : Act.now.Balances i := .of_quiet .refl

theorem checkTransaction : Act.checkTransaction.Balances i := by
  apply of_quiet
  intro w
  unfold Act.checkTransaction
  split <;> exact .refl w

theorem store (t : Tables) : (store t).Balances i := by
  apply of_quiet
  intro w
  unfold Act.store
  split
  · exact .refl w
  · exact ⟨(List.append_nil _).symm, rfl, rfl⟩

theorem spoil : Act.spoil.Balances i :=
  .of_quiet fun _ => ⟨(List.append_nil _).symm, rfl, rfl⟩

theorem bind {x : Act α} {f : α → Act β} (hx : x.Balances i) (hf : ∀ a, (f a).Balances i) :
    (x >>= f).Balances i := by
  intro w
  obtain ⟨es, first, goes⟩ := hx w
  rw [bind_apply]
  generalize x i w = outcome at goes ⊢
  obtain ⟨e | a, v⟩ := outcome
  · exact ⟨es, first, goes⟩
  · obtain ⟨fs, second, ends⟩ := hf a v
    exact ⟨es ++ fs, first.append second, goes.trans ends⟩

theorem orElse {x : Act α} {handler : Failure → Act α} (hx : x.Balances i)
    (hh : ∀ e, (handler e).Balances i) : (x.orElse handler).Balances i := by
  intro w
  obtain ⟨es, first, goes⟩ := hx w
  rw [orElse_apply]
  generalize x i w = outcome at goes ⊢
  obtain ⟨e | a, v⟩ := outcome
  · obtain ⟨fs, second, ends⟩ := hh e v
    exact ⟨es ++ fs, first.append second, goes.trans ends⟩
  · exact ⟨es, first, goes⟩

theorem atomic {x : Act α} (hx : x.Balances i) : (atomic x).Balances i := by
  intro w
  obtain ⟨es, inner, goes⟩ := hx w.deeper
  exact ⟨_, .nested inner .nil, continues_atomic goes⟩

section

variable (remote : i.Remote)
include remote

theorem reach (p : Point) : (reach p).Balances i := fun w =>
  ⟨[.reached p], .reached p .nil, (World.Continues.log w _).trans (remote p .before _)⟩

theorem leave (p : Point) : (leave p).Balances i := fun w =>
  ⟨[.left p], .left p .nil, (World.Continues.log w _).trans (remote p .after _)⟩

theorem visiting (p : Point) {x : Act α} (hx : x.Balances i) : (visiting p x).Balances i :=
  .bind (.reach remote p) fun _ => .bind hx fun a => .bind (.leave remote p) fun _ => .pure a

theorem port (p : Port) {x : Act α} (hx : x.Balances i) : (port p x).Balances i :=
  .orElse (.visiting remote (.port p) hx) fun _ => .fail _

theorem read (s : Statement) (f : Tables → Except Failure α) : (read s f).Balances i :=
  .bind (.reach remote _) fun _ => .bind .checkTransaction fun _ => .bind .world fun _ =>
    .ofExcept _

theorem write (s : Statement) (values : Except Failure β)
    (f : β → Tables → Except Failure (α × Tables)) : (write s values f).Balances i :=
  .orElse
    (.bind (.reach remote _) fun _ => .bind (.ofExcept _) fun _ => .bind .checkTransaction fun _ =>
      .bind .world fun _ => .bind (.ofExcept _) fun r => .bind (.store r.2) fun _ => .pure _)
    fun e => .bind .spoil fun _ => .fail e

end

end Balances

end Act

/-! ### Storage calls -/

section

variable {i : Interruption} (remote : i.Remote)
include remote

namespace Users

theorem balances_create (u : User) : (create u).Balances i := by
  have rest (found : Option UserRow) : Act.Balances i (if found.isSome then do
      let _ ← overwrite u
      return u
    else return u) := by
    split
    · exact .bind (.write remote _ _ _) fun _ => .pure u
    · exact .pure u
  refine .port remote _ (.atomic (.bind (.read remote _ _) fun found => ?_))
  cases found with
  | some r => exact rest (some r)
  | none =>
    refine .bind (.orElse (.atomic (.bind (.write remote _ _ _) fun _ => .pure _)) fun e => ?_) rest
    split
    · refine .bind (.read remote _ _) fun found => ?_
      cases found with
      | none => exact .fail e
      | some r => exact .pure _
    · exact .fail e

theorem balances_get (id : Value) : (get id).Balances i := by
  refine .port remote _ (.bind (.read remote _ _) fun found => ?_)
  cases found with
  | none => exact .refuse _
  | some r => exact .pure r

theorem balances_update (u : User) : (update u).Balances i := by
  refine .port remote _ (.bind (.write remote _ _ _) fun found => ?_)
  split
  · exact .pure u
  · exact .refuse _

theorem balances_setActive (id active : Value) : (setActive id active).Balances i := by
  refine .port remote _ (.atomic (.bind (.write remote _ _ _) fun found => ?_))
  split
  · refine .bind (.read remote _ _) fun stored => ?_
    cases stored with
    | none => exact .refuse _
    | some r => exact .pure r
  · exact .refuse _

theorem balances_ofTeam (team : Value) : (ofTeam team).Balances i := by
  apply Act.Balances.port remote
  split
  · exact .pure _
  · exact .read remote _ _

end Users

namespace Teams

theorem balances_enroll (team : Value) (ms : List MemberDraft) : (enroll team ms).Balances i := by
  induction ms with
  | nil => exact .pure ()
  | cons m ms ih => exact .bind (Users.balances_create remote (memberOf team m)) fun _ => ih

theorem balances_create (t : Team) : (create t).Balances i := by
  refine .port remote _ (.bind (.atomic (.bind (.read remote _ _) fun stored => ?_)) fun _ =>
    .bind (.ofExcept _) fun _ => .pure _)
  have insertion : Act.Balances i ((Act.atomic (.visiting .teamInsertion (insert t.name))).orElse
      fun e => if e.IsIntegrity then .refuse (taken t.name) else .fail e) := by
    refine .orElse (.atomic (.visiting remote _ (.write remote _ _ _))) fun e => ?_
    split
    · exact .refuse _
    · exact .fail e
  have rest := Act.Balances.bind insertion fun _ => balances_enroll remote t.name t.members
  split
  · exact .bind (.refuse _) fun _ => rest
  · exact rest

theorem balances_complete (names : List String) : (complete names).Balances i := by
  unfold complete
  split
  · exact .pure _
  · exact .bind (.read remote _ _) fun _ => .pure _

theorem balances_get (name : Value) : (get name).Balances i := by
  refine .port remote _ (.bind (.read remote _ _) fun us => ?_)
  split
  · exact .refuse _
  · exact .pure _

end Teams

namespace PullRequests

theorem balances_writeReviewers (id : Value) (reviewers : List Value) :
    (writeReviewers id reviewers).Balances i := by
  refine .visiting remote _ (.bind (.write remote _ _ _) fun _ => ?_)
  split
  · exact .pure ()
  · exact .write remote _ _ _

theorem balances_create (p : PullRequest) : (create p).Balances i := by
  refine .port remote _ (.bind .now fun now => .bind (.orElse (.atomic
    (.bind (.write remote _ _ _) fun _ => balances_writeReviewers remote _ _)) fun e => ?_)
      fun _ => .pure _)
  split
  · refine .bind (.read remote _ _) fun stored => ?_
    split
    · exact .refuse _
    · exact .fail e
  · exact .fail e

theorem balances_get (id : Value) : (get id).Balances i := by
  refine .port remote _ (.bind (.read remote _ _) fun found => ?_)
  cases found with
  | none => exact .refuse _
  | some h => exact .bind (.read remote _ _) fun _ => .pure _

theorem balances_complete (hs : List PullRequestHead) : (complete hs).Balances i := by
  unfold complete
  split
  · exact .pure _
  · exact .bind (.read remote _ _) fun _ => .pure _

theorem balances_update (p : PullRequest) : (update p).Balances i := by
  refine .port remote _ (.bind (.atomic (.bind (.write remote _ _ _) fun written => ?_))
    fun _ => .pure _)
  split
  · exact balances_writeReviewers remote _ _
  · refine .bind (.read remote _ _) fun stored => ?_
    split <;> exact .refuse _

end PullRequests

theorem Call.balances (c : Call) : c.act.Balances i := by
  cases c with
  | userCreate u => exact Users.balances_create remote u
  | userUpdate u => exact Users.balances_update remote u
  | userGet id => exact Users.balances_get remote id
  | userSetActive id active => exact Users.balances_setActive remote id active
  | usersOfTeam team => exact Users.balances_ofTeam remote team
  | userList => exact .port remote _ (.read remote _ _)
  | teamCreate t => exact Teams.balances_create remote t
  | teamGet name => exact Teams.balances_get remote name
  | teamList =>
    exact .port remote _ (.bind (.read remote _ _) fun _ => Teams.balances_complete remote _)
  | pullRequestCreate p => exact PullRequests.balances_create remote p
  | pullRequestUpdate p => exact PullRequests.balances_update remote p
  | pullRequestGet id => exact PullRequests.balances_get remote id
  | pullRequestsOfReviewer id =>
    exact .port remote _ (.bind (.read remote _ _) fun _ => PullRequests.balances_complete remote _)
  | pullRequestList =>
    exact .port remote _ (.bind (.read remote _ _) fun _ => PullRequests.balances_complete remote _)

end

end ReviewRota
