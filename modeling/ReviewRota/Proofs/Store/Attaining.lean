import ReviewRota.Proofs.Store.Teams

/-!
# What successful writes amount to

Callers may hand in any values, and a write may fail in many ways. Inside of a transaction only its
success matters, since a failure undoes all of it: a successful creation of users and teams has
written the rows of their columns, and a successful activation a flag.
-/

namespace ReviewRota

namespace Act

variable {α β : Type} {x : Act α} {t : Tables} {Q : α → Tables → Prop}

/-- From these tables, a run in a transaction that succeeds spoils nothing and ends with a result
and tables of which `Q` holds. -/
def Attains (x : Act α) (t : Tables) (Q : α → Tables → Prop) : Prop :=
  ∀ w a v, w.tables = t → w.spoiled = false → 0 < w.depth → x .none w = (.ok a, v) →
    v.spoiled = false ∧ v.depth = w.depth ∧ Q a v.tables

namespace Attains

theorem mono {R : α → Tables → Prop} (first : x.Attains t Q) (weaker : ∀ a u, Q a u → R a u) :
    x.Attains t R := by
  intro w a v tables unspoiled inside run
  obtain ⟨still, depth, holds⟩ := first w a v tables unspoiled inside run
  exact ⟨still, depth, weaker a _ holds⟩

theorem pure {a : α} (holds : Q a t) : (pure a : Act α).Attains t Q := by
  intro w b v tables unspoiled inside run
  cases run
  exact ⟨unspoiled, rfl, tables ▸ holds⟩

theorem fail (e : Failure) : (fail e : Act α).Attains t Q := by
  intro w a v tables unspoiled inside run
  cases run

theorem refuse (r : Refusal) : (refuse r : Act α).Attains t Q := fail _

theorem bind {f : α → Act β} {Q : β → Tables → Prop}
    (first : x.Attains t fun a u => (f a).Attains u Q) : (x >>= f).Attains t Q := by
  intro w b v tables unspoiled inside run
  rw [bind_apply] at run
  generalize began : x .none w = outcome at run
  obtain ⟨e | a, u⟩ := outcome
  · cases run
  · obtain ⟨still, depth, rest⟩ := first w a u tables unspoiled inside began
    rw [← depth]
    exact rest u b v rfl still (depth ▸ inside) run

theorem visiting (p : Point) (inner : x.Attains t Q) : (visiting p x).Attains t Q :=
  bind fun _ _ _ tables unspoiled inside entered => by
    cases entered
    refine ⟨unspoiled, rfl, bind (mono (tables ▸ inner) fun a u holds => bind ?_)⟩
    intro _ _ _ tables unspoiled inside left
    cases left
    exact ⟨unspoiled, rfl, pure (tables ▸ holds)⟩

theorem port (p : Port) (inner : x.Attains t Q) : (port p x).Attains t Q := by
  intro w a v tables unspoiled inside run
  unfold Act.port at run
  rw [orElse_apply] at run
  generalize began : Act.visiting (.port p) x .none w = outcome at run
  obtain ⟨e | b, u⟩ := outcome
  · cases run
  · cases run
    exact visiting _ inner w a v tables unspoiled inside began

theorem read (s : Statement) {f : Tables → Except Failure α} (holds : ∀ a, f t = .ok a → Q a t) :
    (read s f).Attains t Q := by
  intro w a v tables unspoiled inside run
  have ends := Ends.read unspoiled s f
  obtain ⟨j, ends⟩ := ends
  rw [ends] at run
  obtain ⟨done, rfl⟩ := Prod.mk.inj run
  exact ⟨unspoiled, rfl, tables ▸ holds a (tables ▸ done)⟩

theorem write (s : Statement) {values : Except Failure β}
    {f : β → Tables → Except Failure (α × Tables)}
    (holds : ∀ b a u, values = .ok b → f b t = .ok (a, u) → Q a u) :
    (write s values f).Attains t Q := by
  intro w a v tables unspoiled inside run
  have fails {e : Failure} (failed : (Act.write s values f).Fails w e) : False := by
    obtain ⟨_, _, _, failed⟩ := failed
    rw [failed] at run
    cases run
  cases values with
  | error e => cases run
  | ok b =>
    cases effect : f b w.tables with
    | error e => exact (fails (.write unspoiled s effect)).elim
    | ok r =>
      obtain ⟨c, u⟩ := r
      obtain ⟨j, ends⟩ := Ends.write unspoiled inside s effect
      rw [ends] at run
      obtain ⟨done, rfl⟩ := Prod.mk.inj run
      cases done
      exact ⟨unspoiled, rfl, holds b _ u rfl (tables ▸ effect)⟩

theorem atomic_orElse {handler : Failure → Act α} (inner : x.Attains t Q)
    (handled : ∀ e, (handler e).Attains t Q) : ((Act.atomic x).orElse handler).Attains t Q := by
  intro w a v tables unspoiled inside run
  rw [orElse_apply] at run
  generalize began : x .none w.deeper = outcome
  obtain ⟨e | b, u⟩ := outcome
  · rw [atomic_error began] at run
    exact handled e (rollBack w (u.log .closed)) a v tables unspoiled inside run
  · obtain ⟨still, depth, holds⟩ := inner w.deeper b u tables unspoiled (Nat.succ_pos _) began
    rw [atomic_ok began, if_neg (by simp [still]),
      if_neg (fun h => absurd h.1 (Nat.ne_of_gt inside))] at run
    cases run
    exact ⟨still, rfl, holds⟩

theorem atomic (inner : x.Attains t Q) : (Act.atomic x).Attains t Q := by
  have handled : ((Act.atomic x).orElse .fail).Attains t Q := atomic_orElse inner .fail
  intro w a v tables unspoiled inside run
  refine handled w a v tables unspoiled inside ?_
  rw [orElse_apply, run]

end Attains

/-- A transaction on its own that fails leaves the tables as they were, and one that succeeds has
attained what there was to attain. -/
theorem atomic_run {w v : World} {r : Except Failure α} (attains : x.Attains w.tables Q)
    (unspoiled : w.spoiled = false) (run : atomic x .none w = (r, v)) :
    (∃ e, r = .error e ∧ v.tables = w.tables) ∨ ∃ a, r = .ok a ∧ Q a v.tables := by
  generalize began : x .none w.deeper = outcome
  obtain ⟨e | b, u⟩ := outcome
  · rw [atomic_error began] at run
    cases run
    exact .inl ⟨e, rfl, rfl⟩
  · obtain ⟨still, depth, holds⟩ := attains w.deeper b u rfl unspoiled (Nat.succ_pos _) began
    rw [atomic_ok began, if_neg (by simp [still])] at run
    split at run
    · cases run
      exact .inl ⟨_, rfl, rfl⟩
    · cases run
      exact .inr ⟨b, rfl, holds⟩

theorem port_run {w v : World} {p : Port} {r : Except Failure α} (run : port p x .none w = (r, v)) :
    ∃ r' u, x .none (w.log (.reached (.port p))) = (r', u) ∧ v.tables = u.tables ∧
      ((∃ e, r' = .error e ∧ r = .error e.classified) ∨ ∃ a, r' = .ok a ∧ r = .ok a) := by
  simp only [port, visiting, reach, leave, Interruption.none, bind_apply, orElse_apply] at run
  generalize began : x .none (w.log (.reached (.port p))) = outcome at run
  obtain ⟨e | a, u⟩ := outcome
  · cases run
    exact ⟨_, _, rfl, rfl, .inl ⟨e, rfl, rfl⟩⟩
  · cases run
    exact ⟨_, _, rfl, rfl, .inr ⟨a, rfl, rfl⟩⟩

end Act

/-! ### Users -/

namespace Users

variable {u : User} {t : Tables}

theorem spells_of_row {active : Option Bool} {r : UserRow} (flag : u.active.flag = .ok active)
    (made : row u active = .ok r) : Spells u r := by
  obtain ⟨id, hid, made⟩ := bind_eq_ok_iff.mp made
  obtain ⟨username, husername, made⟩ := bind_eq_ok_iff.mp made
  obtain ⟨team, hteam, made⟩ := bind_eq_ok_iff.mp made
  obtain ⟨_, givenId, made⟩ := bind_eq_ok_iff.mp made
  obtain ⟨_, givenName, made⟩ := bind_eq_ok_iff.mp made
  obtain ⟨_, givenFlag, made⟩ := bind_eq_ok_iff.mp made
  cases made
  obtain rfl := PullRequests.required_eq_ok givenId
  obtain rfl := PullRequests.required_eq_ok givenName
  obtain rfl := PullRequests.required_eq_ok givenFlag
  exact ⟨hid, husername, hteam, flag⟩

theorem insert_attains (u : User) (t : Tables) : (insert u).Attains t fun _ v =>
    ∃ r, Spells u r ∧ v = t.upsert r := by
  refine .write _ fun active _ v flag done => ?_
  obtain ⟨r, made, done⟩ := bind_eq_ok_iff.mp done
  split at done
  · cases done
  · rename_i fresh
    cases done
    refine ⟨r, spells_of_row flag made, ?_⟩
    rw [Tables.upsert, if_neg fresh]

theorem overwrite_attains (u : User) (t : Tables) : (overwrite u).Attains t fun written v =>
    (written = true → ∃ r, Spells u r ∧ v = t.upsert r) ∧
      (written = false → ∀ key, u.id.column = .ok (some key) → ¬t.HasUser key) := by
  refine .write _ fun active written v flag done => ?_
  obtain ⟨username, husername, done⟩ := bind_eq_ok_iff.mp done
  obtain ⟨team, hteam, done⟩ := bind_eq_ok_iff.mp done
  obtain ⟨id, hid, done⟩ := bind_eq_ok_iff.mp done
  cases id with
  | none =>
    cases done
    refine ⟨nofun, fun _ key column => ?_⟩
    rw [hid] at column
    cases column
  | some id =>
    dsimp only at done
    split at done
    · rename_i has
      obtain ⟨name, givenName, done⟩ := bind_eq_ok_iff.mp done
      obtain ⟨b, givenFlag, done⟩ := bind_eq_ok_iff.mp done
      cases done
      obtain rfl := PullRequests.required_eq_ok givenName
      obtain rfl := PullRequests.required_eq_ok givenFlag
      refine ⟨fun _ => ⟨⟨id, name, team, b⟩, ⟨hid, husername, hteam, flag⟩, ?_⟩, nofun⟩
      rw [Tables.upsert, if_pos has]
    · rename_i fresh
      cases done
      refine ⟨nofun, fun _ key column => ?_⟩
      rw [hid] at column
      cases column
      exact fresh

theorem select_attains (id : Value) (t : Tables) : (select id).Attains t fun found v =>
    v = t ∧ sought t id = .ok found :=
  .read _ fun _ found => ⟨rfl, found⟩

theorem create_attains (u : User) (t : Tables) : (create u).Attains t fun _ v =>
    ∃ r, Spells u r ∧ v = t.upsert r := by
  have overwriting {r : UserRow} (found : sought t u.id = .ok (some r)) : Act.Attains (do
      let _ ← overwrite u
      return u : Act User) t fun _ v => ∃ r, Spells u r ∧ v = t.upsert r := by
    obtain ⟨key, column, has⟩ : ∃ key, u.id.column = .ok (some key) ∧ t.HasUser key := by
      obtain ⟨key, column, rest⟩ := bind_eq_ok_iff.mp found
      cases key with
      | none => cases rest
      | some key =>
        obtain ⟨member, same⟩ := Tables.user?_mem (Except.ok.inj rest)
        exact ⟨key, column, r, member, same⟩
    refine .bind ((overwrite_attains u t).mono fun written v outcome => .pure ?_)
    cases written with
    | true => exact outcome.1 rfl
    | false => exact absurd has (outcome.2 rfl key column)
  refine .port _ (.atomic (.bind ((select_attains u.id t).mono ?_)))
  rintro found v ⟨rfl, sought⟩
  cases found with
  | some r => exact overwriting sought
  | none =>
    refine .bind (.atomic_orElse (.bind ((insert_attains u v).mono fun _ _ outcome =>
      .pure (.pure outcome))) fun e => ?_)
    split
    · refine .bind ((select_attains u.id v).mono ?_)
      rintro again _ ⟨rfl, sought⟩
      cases again with
      | none => exact .fail e
      | some r => exact .pure (overwriting sought)
    · exact .fail e

/-- What an activation does to the tables. -/
def Activates (id active : Value) (t v : Tables) : Prop :=
  ∃ key b, id.column = .ok (some key) ∧ active.flag = .ok (some b) ∧ t.HasUser key ∧
    v = t.modifyUser key fun u => { u with active := b }

theorem setFlag_attains (id active : Value) (t : Tables) : (setFlag id active).Attains t
    fun written v => written = true → Activates id active t v := by
  refine .write _ fun flag written v hflag done => ?_
  obtain ⟨key, column, done⟩ := bind_eq_ok_iff.mp done
  cases key with
  | none =>
    cases done
    exact nofun
  | some key =>
    dsimp only at done
    split at done
    · rename_i has
      obtain ⟨b, given, done⟩ := bind_eq_ok_iff.mp done
      obtain rfl := PullRequests.required_eq_ok given
      cases done
      exact fun _ => ⟨key, b, column, hflag, has, rfl⟩
    · cases done
      exact nofun

def activation (id active : Value) : Act UserRow := do
  if ← setFlag id active then
    match ← select id with
    | some r => return r
    | none => .refuse (missing id)
  else .refuse (missing id)

theorem activation_attains (id active : Value) (t : Tables) :
    (activation id active).Attains t fun _ v => Activates id active t v := by
  refine .bind ((setFlag_attains id active t).mono fun written u outcome => ?_)
  cases written with
  | false => exact .refuse _
  | true =>
    refine .bind ((select_attains id u).mono ?_)
    rintro found _ ⟨rfl, -⟩
    cases found with
    | none => exact .refuse _
    | some r => exact .pure (outcome rfl)

theorem setActive_run {id active : Value} {w v : World} {r : Except Failure UserRow}
    (unspoiled : w.spoiled = false) (run : setActive id active .none w = (r, v)) :
    (∃ e, r = .error e ∧ v.tables = w.tables) ∨
      ∃ u, r = .ok u ∧ Activates id active w.tables v.tables := by
  obtain ⟨r', v', inner, tables, port⟩ := Act.port_run run
  rw [tables]
  obtain ⟨e, failed, same⟩ | ⟨u, done, attained⟩ := Act.atomic_run
    (w := w.log (.reached (.port .userSetActive))) (activation_attains id active w.tables) unspoiled
    inner
  · obtain ⟨e', -, rfl⟩ | ⟨a, succeeded, -⟩ := port
    · exact .inl ⟨_, rfl, same⟩
    · rw [failed] at succeeded
      cases succeeded
  · obtain ⟨e', failed, -⟩ | ⟨a, -, rfl⟩ := port
    · rw [done] at failed
      cases failed
    · exact .inr ⟨a, rfl, attained⟩

end Users

/-! ### Teams -/

structure MemberDraft.Spells (m : MemberDraft) (r : Member) : Prop where
  id : m.id.column = .ok (some r.id)
  username : m.username.column = .ok (some r.username)
  active : m.active.flag = .ok (some r.active)

namespace Teams

variable {name : Value} {key : String} {t : Tables}

theorem insert_attains (name : Value) (t : Tables) : (insert name).Attains t fun _ v =>
    ∃ key, name.column = .ok (some key) ∧ ¬t.HasTeam key ∧ v = t.addTeam key := by
  refine .write _ fun _ _ v _ done => ?_
  obtain ⟨column, hcolumn, done⟩ := bind_eq_ok_iff.mp done
  obtain ⟨key, given, done⟩ := bind_eq_ok_iff.mp done
  split at done
  · cases done
  · rename_i fresh
    cases done
    obtain rfl := PullRequests.required_eq_ok given
    exact ⟨key, hcolumn, fresh, rfl⟩

theorem enroll_attains (column : name.column = .ok (some key)) (ms : List MemberDraft)
    (t : Tables) : (enroll name ms).Attains t fun _ v =>
      ∃ members, List.Forall₂ MemberDraft.Spells ms members ∧
        v = members.foldl (fun t m => t.upsert ⟨m.id, m.username, some key, m.active⟩) t := by
  induction ms generalizing t with
  | nil => exact .pure ⟨[], .nil, rfl⟩
  | cons m ms ih =>
    refine .bind ((Users.create_attains (memberOf name m) t).mono ?_)
    rintro _ _ ⟨⟨id, username, team, active⟩, spells, rfl⟩
    obtain rfl : some key = team := Except.ok.inj (column.symm.trans spells.team)
    refine (ih _).mono ?_
    rintro _ v ⟨members, spelled, rfl⟩
    exact ⟨⟨id, username, active⟩ :: members,
      .cons ⟨spells.id, spells.username, spells.active⟩ spelled, rfl⟩

/-- How the creation of a team ends, and with which tables. Its members are put in order only when
they are stored. -/
inductive CreateOutcome (t : Tables) (team : Team) : Except Failure Team → Tables → Prop
  | rejected (e : Failure) : CreateOutcome t team (.error e) t
  | founded {key : String} {members : List Member} {r : Except Failure Team}
      (column : team.name.column = .ok (some key)) (fresh : ¬t.HasTeam key)
      (spelled : List.Forall₂ MemberDraft.Spells team.members members)
      (answers : ∀ sorted, MemberDraft.ordered team.members = .ok sorted → ∃ a, r = .ok a) :
      CreateOutcome t team r (t.founded key members)

theorem storing_attains (team : Team) (t : Tables) : Act.Attains (do
      look team.name
      store team) t fun _ v => ∃ key members, team.name.column = .ok (some key) ∧
        ¬t.HasTeam key ∧ List.Forall₂ MemberDraft.Spells team.members members ∧
        v = t.founded key members := by
  have looking : (look team.name).Attains t fun _ v => v = t := by
    refine .bind (.read _ fun found _ => ?_)
    split
    · exact .refuse _
    · exact .pure rfl
  refine .bind (looking.mono ?_)
  rintro _ _ rfl
  refine .bind (.atomic_orElse (.visiting _ ((insert_attains team.name _).mono ?_)) fun e => ?_)
  · rintro _ _ ⟨key, column, fresh, rfl⟩
    refine (enroll_attains column team.members _).mono ?_
    rintro _ _ ⟨members, spelled, rfl⟩
    exact ⟨key, members, column, fresh, spelled, rfl⟩
  · split
    · exact .refuse _
    · exact .fail e

theorem create_run {team : Team} {w v : World} {r : Except Failure Team}
    (unspoiled : w.spoiled = false) (run : create team .none w = (r, v)) :
    CreateOutcome w.tables team r v.tables := by
  rw [create_eq] at run
  obtain ⟨r', u, inner, tables, port⟩ := Act.port_run run
  rw [Act.bind_apply] at inner
  generalize began : Act.atomic _ .none _ = outcome at inner
  obtain ⟨a, u'⟩ := outcome
  rw [tables]
  obtain ⟨e, rfl, same⟩ | ⟨_, rfl, key, members, column, fresh, spelled, founded⟩ :=
    Act.atomic_run (w := w.log (.reached (.port .teamCreate)))
      (storing_attains team w.tables) unspoiled began
  · cases inner
    obtain ⟨e', -, rfl⟩ | ⟨a, succeeded, -⟩ := port
    · exact same ▸ .rejected _
    · cases succeeded
  · have sorting : u.tables = u'.tables ∧ ∀ sorted, MemberDraft.ordered team.members = .ok sorted →
        ∃ a, r' = .ok a := by
      cases ordered : MemberDraft.ordered team.members with
      | error e =>
        rw [ordered] at inner
        cases inner
        exact ⟨rfl, nofun⟩
      | ok sorted =>
        rw [ordered] at inner
        cases inner
        exact ⟨rfl, fun _ _ => ⟨_, rfl⟩⟩
    rw [sorting.1, founded]
    refine .founded column fresh spelled fun sorted ordered => ?_
    obtain ⟨a, succeeded⟩ := sorting.2 sorted ordered
    obtain ⟨e', failed, -⟩ | ⟨b, -, rfl⟩ := port
    · rw [succeeded] at failed
      cases failed
    · exact ⟨b, rfl⟩

end Teams

end ReviewRota
