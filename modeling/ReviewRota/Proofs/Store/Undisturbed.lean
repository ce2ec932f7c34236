import ReviewRota.Proofs.Store.Keeping

/-!
# Undisturbed acts

What statements, transactions and ports do in a run that nothing interrupts, as long as the open
transaction is not spoiled: such a run changes the tables and writes the journal, and nothing else.
-/

namespace ReviewRota

namespace Act

variable {α β : Type} {x : Act α} {w : World} {t u : Tables} {a : α} {b : β} {e : Failure}

def Ends (x : Act α) (w : World) (r : Except Failure α) (t : Tables) : Prop :=
  ∃ journal, x .none w = (r, { w with tables := t, journal := journal })

/-- The run fails, and it may leave a spoiled transaction. -/
def Fails (x : Act α) (w : World) (e : Failure) : Prop :=
  ∃ tables spoiled journal,
    x .none w = (.error e, { w with tables := tables, spoiled := spoiled, journal := journal })

theorem Ends.fails (h : x.Ends w (.error e) t) : x.Fails w e := by
  obtain ⟨j, run⟩ := h
  exact ⟨t, w.spoiled, j, run⟩

namespace Ends

theorem pure (a : α) : (pure a : Act α).Ends w (.ok a) w.tables := ⟨w.journal, rfl⟩

theorem refuse (r : Refusal) : (refuse r : Act α).Ends w (.error (.refused r)) w.tables :=
  ⟨w.journal, rfl⟩

theorem fail (e : Failure) : (fail e : Act α).Ends w (.error e) w.tables := ⟨w.journal, rfl⟩

theorem bind_now {f : Timestamp → Act α} {r : Except Failure α} (rest : (f w.now).Ends w r t) :
    (Act.now >>= f).Ends w r t :=
  rest

theorem bind {f : α → Act β} {r : Except Failure β} (first : x.Ends w (.ok a) t)
    (rest : ∀ j, (f a).Ends { w with tables := t, journal := j } r u) : (x >>= f).Ends w r u := by
  obtain ⟨j, run⟩ := first
  obtain ⟨k, rest⟩ := rest j
  refine ⟨k, ?_⟩
  rw [bind_apply, run]
  exact rest

theorem bind_error {f : α → Act β} (first : x.Ends w (.error e) t) :
    (x >>= f).Ends w (.error e) t := by
  obtain ⟨j, run⟩ := first
  exact ⟨j, by rw [bind_apply, run]⟩

theorem orElse {handler : Failure → Act α} (first : x.Ends w (.ok a) t) :
    (x.orElse handler).Ends w (.ok a) t := by
  obtain ⟨j, run⟩ := first
  exact ⟨j, by rw [orElse_apply, run]⟩

theorem orElse_error {handler : Failure → Act α} {r : Except Failure α}
    (first : x.Ends w (.error e) t)
    (rest : ∀ j, (handler e).Ends { w with tables := t, journal := j } r u) :
    (x.orElse handler).Ends w r u := by
  obtain ⟨j, run⟩ := first
  obtain ⟨k, rest⟩ := rest j
  refine ⟨k, ?_⟩
  rw [orElse_apply, run]
  exact rest

theorem visiting (p : Point) (inner : x.Ends (w.log (.reached p)) (.ok a) t) :
    (visiting p x).Ends w (.ok a) t := by
  obtain ⟨j, run⟩ := inner
  refine ⟨j ++ [.left p], ?_⟩
  simp only [Act.visiting, reach, leave, Interruption.none, bind_apply, run]
  rfl

theorem port (p : Port) (inner : x.Ends (w.log (.reached (.port p))) (.ok a) t) :
    (port p x).Ends w (.ok a) t :=
  .orElse (.visiting (.port p) inner)

theorem port_error (p : Port) (inner : x.Ends (w.log (.reached (.port p))) (.error e) t) :
    (Act.port p x).Ends w (.error e.classified) t := by
  obtain ⟨j, run⟩ := inner
  refine ⟨j, ?_⟩
  simp only [Act.port, Act.visiting, reach, Interruption.none, bind_apply, orElse_apply, run]
  rfl

theorem port_refused (p : Port) {r : Refusal}
    (inner : x.Ends (w.log (.reached (.port p))) (.error (.refused r)) t) :
    (Act.port p x).Ends w (.error (.refused r)) t :=
  port_error p inner

theorem read (unspoiled : w.spoiled = false) (s : Statement) (f : Tables → Except Failure α) :
    (read s f).Ends w (f w.tables) w.tables := by
  refine ⟨w.journal ++ [.reached (.statement s)], ?_⟩
  simp only [Act.read, reach, Interruption.none, checkTransaction, World.log, bind_apply, unspoiled]
  rfl

theorem port_read (unspoiled : w.spoiled = false) (p : Port) (s : Statement)
    {f : Tables → Except Failure α} (answers : f w.tables = .ok a) :
    (Act.port p (Act.read s f)).Ends w (.ok a) w.tables := by
  have read := Ends.read (w := w.log (.reached (.port p))) unspoiled s f
  rw [World.log, answers] at read
  exact .port p read

theorem atomic (inner : x.Ends w.deeper (.ok a) t) (unspoiled : w.spoiled = false)
    (linked : w.depth = 0 → t.Linked) : (atomic x).Ends w (.ok a) t := by
  obtain ⟨j, run⟩ := inner
  refine ⟨j ++ [.closed], ?_⟩
  have spoiled : ¬(w.spoiled = true) := by simp [unspoiled]
  have whole : ¬(w.depth = 0 ∧ ¬t.Linked) := fun ⟨outermost, dangling⟩ =>
    dangling (linked outermost)
  rw [atomic_ok run]
  exact (if_neg spoiled).trans (if_neg whole)

/-- The outermost transaction is undone if a reference leads nowhere. -/
theorem atomic_dangling (inner : x.Ends w.deeper (.ok a) t) (unspoiled : w.spoiled = false)
    (outermost : w.depth = 0) (dangling : ¬t.Linked) :
    (Act.atomic x).Ends w (.error (.database danglingReference)) w.tables := by
  obtain ⟨j, run⟩ := inner
  refine ⟨j ++ [.closed], ?_⟩
  have spoiled : ¬(w.spoiled = true) := by simp [unspoiled]
  have broken : w.depth = 0 ∧ ¬t.Linked := ⟨outermost, dangling⟩
  rw [atomic_ok run]
  exact (if_neg spoiled).trans (if_pos broken)

theorem atomic_error (inner : x.Fails w.deeper e) : (Act.atomic x).Ends w (.error e) w.tables := by
  obtain ⟨t, spoiled, j, run⟩ := inner
  exact ⟨j ++ [.closed], by rw [Act.atomic_error run]; rfl⟩

theorem write (unspoiled : w.spoiled = false) (inside : 0 < w.depth) (s : Statement)
    {f : β → Tables → Except Failure (α × Tables)} (effect : f b w.tables = .ok (a, t)) :
    (write s (.ok b) f).Ends w (.ok a) t := by
  refine ⟨w.journal ++ [.reached (.statement s)], ?_⟩
  have inner : ¬(w.depth = 0 ∧ ¬t.Linked) := fun h => absurd h.1 (Nat.ne_of_gt inside)
  simp [Act.write, reach, Interruption.none, checkTransaction, store, World.log, unspoiled, effect,
    inner]

end Ends

namespace Fails

theorem bind_first {f : α → Act β} (first : x.Fails w e) : (x >>= f).Fails w e := by
  obtain ⟨t, spoiled, j, run⟩ := first
  exact ⟨t, spoiled, j, by rw [bind_apply, run]⟩

theorem bind {f : α → Act β} (first : x.Ends w (.ok a) t)
    (rest : ∀ j, (f a).Fails { w with tables := t, journal := j } e) : (x >>= f).Fails w e := by
  obtain ⟨j, run⟩ := first
  obtain ⟨v, spoiled, k, rest⟩ := rest j
  refine ⟨v, spoiled, k, ?_⟩
  rw [bind_apply, run]
  exact rest

theorem visiting (p : Point) (inner : x.Fails (w.log (.reached p)) e) :
    (visiting p x).Fails w e := by
  obtain ⟨t, spoiled, j, run⟩ := inner
  refine ⟨t, spoiled, j, ?_⟩
  simp only [Act.visiting, reach, Interruption.none, bind_apply, run]
  rfl

theorem write (unspoiled : w.spoiled = false) (s : Statement)
    {f : β → Tables → Except Failure (α × Tables)} (effect : f b w.tables = .error e) :
    (write s (.ok b) f).Fails w e := by
  refine ⟨w.tables, decide (0 < w.depth), w.journal ++ [.reached (.statement s)], ?_⟩
  simp [Act.write, reach, Interruption.none, checkTransaction, spoil, World.log, unspoiled, effect]

end Fails

/-- The run fails, and it leaves everything but the journal as it was. -/
def Declines (x : Act α) (w : World) : Prop := ∃ e, x.Ends w (.error e) w.tables

namespace Declines

theorem bind_now {f : Timestamp → Act α} (rest : (f w.now).Declines w) :
    (Act.now >>= f).Declines w :=
  rest

theorem bind {f : α → Act β} (first : x.Declines w) : (x >>= f).Declines w := by
  obtain ⟨e, ends⟩ := first
  exact ⟨e, .bind_error ends⟩

theorem orElse {handler : Failure → Act α} (first : x.Declines w)
    (rest : ∀ e j, (handler e).Declines { w with journal := j }) :
    (x.orElse handler).Declines w := by
  obtain ⟨e, j, run⟩ := first
  obtain ⟨f, k, rest⟩ := rest e j
  refine ⟨f, k, ?_⟩
  rw [orElse_apply, run]
  exact rest

theorem port (p : Port) (inner : x.Declines (w.log (.reached (.port p)))) :
    (port p x).Declines w := by
  obtain ⟨e, ends⟩ := inner
  exact ⟨e.classified, .port_error p ends⟩

theorem atomic (inner : x.Fails w.deeper e) : (Act.atomic x).Declines w :=
  ⟨e, .atomic_error inner⟩

end Declines

end Act

end ReviewRota
