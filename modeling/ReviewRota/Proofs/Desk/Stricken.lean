import ReviewRota.Proofs.Desk.Checking
import ReviewRota.Proofs.Desk.Opening
import ReviewRota.Proofs.Store.Classing
import ReviewRota.Proofs.Store.Wording

/-!
# Requests that an error strikes

An error of the database that strikes a request strikes in one of the storage calls that the request
makes, and leaves this call as a refusal. What becomes of the request then is up to its plan. Most
plans hand the refusal on. The creations of teams and of pull requests tell of a taken key in their
own words, and a merge whose update lost a race reads the pull request again.
-/

namespace ReviewRota

/-! ### Errors -/

namespace DatabaseError

theorem reason_refusal (e : DatabaseError) : e.refusal.reason = .cancelled ∨
    e.refusal.reason = .conflict ∨ e.refusal.reason = .internal := by
  unfold refusal
  split
  · exact .inl rfl
  · split
    · exact .inr (.inl rfl)
    · exact .inr (.inr rfl)

theorem not_isNotFound (e : DatabaseError) :
    ¬(Failure.refused e.refusal).IsNotFound := by
  show e.refusal.reason ≠ .notFound
  rcases e.reason_refusal with reason | reason | reason <;> rw [reason] <;> decide

theorem not_isExistence (e : DatabaseError) :
    ¬(Failure.refused e.refusal).IsExistence := by
  show ¬e.refusal.reason.isExistence = true
  rcases e.reason_refusal with reason | reason | reason <;> rw [reason] <;> decide

def IsRace (e : DatabaseError) : Prop :=
  e.state? = some serializationFailure ∨ e.state? = some deadlockDetected

instance (e : DatabaseError) : Decidable e.IsRace := by
  unfold IsRace
  infer_instance

theorem isConflict_iff (e : DatabaseError) :
    (Failure.refused e.refusal).IsConflict ↔ e.IsRace := by
  show e.refusal.reason = .conflict ↔ e.IsRace
  unfold refusal IsRace
  split
  · rename_i cancelled
    rw [cancelled]
    decide
  · split
    · rename_i race
      exact iff_of_true rfl race
    · rename_i race
      exact iff_of_false (by decide) race

end DatabaseError

theorem PullRequests.column_of_get_missing {j : Interruption} (calm : j.Calm) {n : ℕ}
    {e : DatabaseError} {id : Value} {w v : World} {f : Failure}
    (run : get id (j.striking n e) w = (.error f, v)) (missing : f.IsNotFound) :
    ∃ content, id.column = .ok content := by
  cases column : id.column with
  | ok content => exact ⟨content, rfl⟩
  | error g =>
    exfalso
    have unsought (t : Tables) : sought t id = .error g := by
      unfold sought
      rw [column]
      rfl
    obtain ⟨h, body, rfl⟩ := Act.port_eq_error calm run
    rw [Act.bind_apply] at body
    generalize looked : select id (j.striking n e) _ = outcome at body
    obtain ⟨h' | found, u⟩ := outcome
    · cases body
      rcases Act.read_eq_error calm looked with ⟨d, rfl⟩ | ⟨t, read⟩
      · exact d.not_isNotFound missing
      · obtain rfl : g = h := Except.error.inj ((unsought t).symm.trans read)
        rw [classified_of_column column] at missing
        exact Value.not_isNotFound_of_column column missing
    · obtain ⟨-, read⟩ := Act.read_eq_ok looked
      cases (unsought u.tables).symm.trans read

/-! ### Plans -/

namespace Plan

variable {α : Type}

/-- The calls that a plan makes under a deadline, each with the world in which it begins. -/
def calls (d : Option (Deadline Binary64)) :
    Plan α → Interruption → World → List (Call × World)
  | done _, _, _ => []
  | check step next, i, w =>
    match checkAct d step i w with
    | (.ok (), v) => calls d next i v
    | (.error _, _) => []
  | now next, i, w => calls d (next w.now) i w
  | maxReviewers next, i, w => calls d (next w.preferences.maxReviewers) i w
  | snapshot next, i, w => calls d next i (w.told w.link.snapshot)
  | call c next, i, w => (c, w) :: calls d (next (c.act i w).1) i (c.act i w).2

/-- How the run of a plan goes on which the strike at the statement number `n` may fall: it is still
to come, or it has fallen in a call, and the run has ended as `T` tells. -/
inductive Fate (n : ℕ) (T : Call → World → Statement → Except Failure α × World → Prop)
    (d : Option (Deadline Binary64)) (i : Interruption) (p : Plan α) (w : World) : Prop
  | spared (awaits : (p.act d i w).2.statements.length ≤ n)
  | struck {c : Call} {u : World} {s : Statement} (made : (c, u) ∈ p.calls d i w)
      (awaits : u.statements.length ≤ n) (within : (c.act i u).2.statements[n]? = some s)
      (place : (p.act d i w).2.statements[n]? = some s) (told : T c u s (p.act d i w))

end Plan

theorem World.statements_told (w : World) (ds : List Directive) :
    (w.told ds).statements = w.statements := by
  unfold told
  induction ds generalizing w with
  | nil => rfl
  | cons d ds ih =>
    rw [List.foldl_cons, ih]
    exact w.statements_log rfl

namespace Plan

variable {α : Type} {j : Interruption} {n : ℕ} {e : DatabaseError} {d : Option (Deadline Binary64)}
  {T : Call → World → Statement → Except Failure α × World → Prop} {w : World}

/-- A check reaches no statement. -/
theorem statements_checkAct (calm : j.Calm) (step : String) :
    (checkAct d step (j.striking n e) w).2.statements = w.statements := by
  let u : World := { w with clock := w.clock + w.tick }
  have look : Act.reach .deadline (j.striking n e) u = _ := Act.reach_eq calm rfl u
  replace look : beforeLook (j.striking n e) w =
      (.ok (), (j .deadline .before (u.log (.reached .deadline))).2) := look
  have same : (j .deadline .before (u.log (.reached .deadline))).2.statements = w.statements :=
    (Act.statements_calm calm _ _ _).trans (u.statements_log rfl)
  rw [checkAct_eq, look]
  dsimp only
  split
  · exact same
  · exact (World.statements_log _ rfl).trans ((World.statements_told _ _).trans same)

namespace Fate

variable {i : Interruption}

theorem done {r : Except Failure α} (awaits : w.statements.length ≤ n) :
    Fate n T d i (.done r) w := .spared awaits

theorem of_rest {p q : Plan α} {v : World} (rest : Fate n T d i q v)
    (same : p.act d i w = q.act d i v) (later : q.calls d i v ⊆ p.calls d i w) :
    Fate n T d i p w := by
  cases rest with
  | spared awaits => exact .spared (same ▸ awaits)
  | struck made awaits within place told =>
    exact .struck (later made) awaits within (same ▸ place) (same ▸ told)

theorem now {next : Timestamp → Plan α} (rest : Fate n T d i (next w.now) w) :
    Fate n T d i (.now next) w := rest.of_rest rfl (List.Subset.refl _)

theorem maxReviewers {next : Int → Plan α}
    (rest : Fate n T d i (next w.preferences.maxReviewers) w) :
    Fate n T d i (.maxReviewers next) w := rest.of_rest rfl (List.Subset.refl _)

theorem snapshot {next : Plan α} (rest : Fate n T d i next (w.told w.link.snapshot)) :
    Fate n T d i (.snapshot next) w := rest.of_rest rfl (List.Subset.refl _)

theorem check (calm : j.Calm) (awaits : w.statements.length ≤ n) {step : String} {next : Plan α}
    (rest : ∀ v, checkAct d step (j.striking n e) w = (.ok (), v) → v.statements.length ≤ n →
      Fate n T d (j.striking n e) next v) :
    Fate n T d (j.striking n e) (.check step next) w := by
  have silent := statements_checkAct (n := n) (e := e) (d := d) (w := w) calm step
  generalize run : checkAct d step (j.striking n e) w = outcome at silent
  obtain ⟨f | _, v⟩ := outcome
  · refine .spared ?_
    rw [act, Act.bind_apply, run]
    exact silent ▸ awaits
  · refine (rest v run (silent ▸ awaits)).of_rest ?_ ?_
    · rw [act, Act.bind_apply, run]
    · rw [calls, run]
      exact List.Subset.refl _

theorem check_sound (calm : j.Calm) {ids : List String} (sound : w.Sound ids)
    (awaits : w.statements.length ≤ n) {step : String} {next : Plan α}
    (rest : ∀ v : World, v.Sound ids → v.statements.length ≤ n →
      Fate n T d (j.striking n e) next v) :
    Fate n T d (j.striking n e) (.check step next) w := by
  refine .check calm awaits fun v run awaits => rest v ?_ awaits
  have kept := keeps_checkAct (calm.keeps_sound n e ids)
    (fun _ _ sound => ⟨sound.unspoiled, sound.linked, sound.stored⟩) d step w sound
  rwa [run] at kept

theorem call {P : Statement → Failure → Prop} {c : Call} {next : Except Failure c.Result → Plan α}
    (awaits : w.statements.length ≤ n) (strikes : Stricken n P (c.act i w))
    (falls : ∀ s f v, c.act i w = (.error f, v) → v.statements[n]? = some s → P s f →
      ((next (.error f)).act d i v).2.statements[n]? = some s ∧
        T c w s ((next (.error f)).act d i v))
    (rest : ∀ r v, c.act i w = (r, v) → v.statements.length ≤ n → Fate n T d i (next r) v) :
    Fate n T d i (.call c next) w := by
  generalize run : c.act i w = outcome at strikes
  obtain ⟨r, v⟩ := outcome
  have same : (Plan.call c next).act d i w = (next r).act d i v := by
    rw [act, Act.bind_apply, Act.attempt_apply, run]
  have alike : (Plan.call c next).calls d i w = (c, w) :: (next r).calls d i v := by
    rw [calls, run]
  cases strikes with
  | spared later =>
    refine (rest r v run later).of_rest same ?_
    rw [alike]
    exact List.subset_cons_self _ _
  | @struck s f place fails told =>
    obtain rfl : r = .error f := fails
    obtain ⟨place', told'⟩ := falls s f v run place told
    exact .struck (alike ▸ List.mem_cons_self) awaits (by rw [run]; exact place) (same ▸ place')
      (same ▸ told')

theorem final {P : Statement → Failure → Prop} {c : Call} {next : Except Failure c.Result → Plan α}
    (awaits : w.statements.length ≤ n) (strikes : Stricken n P (c.act i w))
    (ends : ∀ s f, P s f → ∃ g, next (.error f) = .done (.error g) ∧
      ∀ v, T c w s (.error g, v))
    (rest : ∀ r v, c.act i w = (r, v) → v.statements.length ≤ n → Fate n T d i (next r) v) :
    Fate n T d i (.call c next) w := by
  refine .call awaits strikes (fun s f v _ place told => ?_) rest
  obtain ⟨g, done, told⟩ := ends s f told
  rw [done]
  exact ⟨place, told v⟩

theorem ask {c : Call} {next : Except Failure c.Result → Plan α}
    (awaits : w.statements.length ≤ n) (strikes : Stricken n (Act.Classed e) (c.act i w))
    (relays : ∀ f, next (.error f) = .done (.error f))
    (told : ∀ s v, T c w s (.error (.refused e.refusal), v))
    (rest : ∀ a v, c.act i w = (.ok a, v) → v.statements.length ≤ n →
      Fate n T d i (next (.ok a)) v) :
    Fate n T d i (.call c next) w := by
  refine .final awaits strikes ?_ fun r v run later => ?_
  · rintro s f rfl
    exact ⟨_, relays _, told s⟩
  · cases r with
    | error f =>
      rw [relays]
      exact .done later
    | ok a => exact rest a v run later

theorem ask_sound (calm : j.Calm) {ids : List String} {c : Call} (reading : c.IsReading)
    {next : Except Failure c.Result → Plan α} (sound : w.Sound ids)
    (awaits : w.statements.length ≤ n) (relays : ∀ f, next (.error f) = .done (.error f))
    (told : ∀ s v, T c w s (.error (.refused e.refusal), v))
    (rest : ∀ a v, c.act (j.striking n e) w = (.ok a, v) → v.Sound ids → v.statements.length ≤ n →
      Fate n T d (j.striking n e) (next (.ok a)) v) :
    Fate n T d (j.striking n e) (.call c next) w := by
  refine .ask awaits (reading.breaks calm w awaits) relays told fun a v run awaits => ?_
  have kept := reading.keeps (calm.keeps_sound n e ids) w sound
  rw [run] at kept
  exact rest a v run kept awaits

end Fate

/-! ### Plans that hand failures on -/

/-- Each call of the plan is plain, and its failure is that of the plan. -/
def Relays : Plan α → Prop
  | done _ => True
  | check _ next => next.Relays
  | now next => ∀ t, (next t).Relays
  | maxReviewers next => ∀ limit, (next limit).Relays
  | snapshot next => next.Relays
  | call c next => c.IsPlain ∧ (∀ f, next (.error f) = done (.error f)) ∧ ∀ a, (next (.ok a)).Relays

theorem Relays.bind {β : Type} {p : Plan α} {f : α → Plan β} (first : p.Relays)
    (rest : ∀ a, (f a).Relays) : (p.bind f).Relays := by
  induction p with
  | done r =>
    cases r with
    | error g => trivial
    | ok a => exact rest a
  | check step next ih => exact ih first
  | now next ih => exact fun t => ih t (first t)
  | maxReviewers next ih => exact fun limit => ih limit (first limit)
  | snapshot next ih => exact ih first
  | call c next ih =>
    obtain ⟨plain, relays, goes⟩ := first
    refine ⟨plain, fun g => ?_, fun a => ih (.ok a) (goes a)⟩
    show (next (.error g)).bind f = _
    rw [relays]
    rfl

theorem Relays.fate (calm : j.Calm) {p : Plan α} (relays : p.Relays)
    (awaits : w.statements.length ≤ n) :
    Fate n (fun _ _ _ o => o.1 = .error (.refused e.refusal)) d (j.striking n e) p w := by
  induction p generalizing w with
  | done r => exact .done awaits
  | check step next ih =>
    exact .check calm awaits fun v _ awaits => ih relays awaits
  | now next ih => exact .now (ih _ (relays _) awaits)
  | maxReviewers next ih => exact .maxReviewers (ih _ (relays _) awaits)
  | snapshot next ih => exact .snapshot (ih relays (by rwa [World.statements_told]))
  | call c next ih =>
    obtain ⟨plain, handed, goes⟩ := relays
    exact .ask awaits (plain.breaks calm w awaits) handed (fun _ _ => rfl) fun a v _ awaits =>
      ih (.ok a) (goes a) awaits

theorem same_act {i j : Interruption} (twins : i.Twins j) (p : Plan α) :
    Act.Same i j (p.act d) (p.act d) := by
  induction p with
  | done r => exact fun _ => rfl
  | check step next ih =>
    refine .bind (fun w => ?_) fun _ => ih
    have look : beforeLook i w = beforeLook j w := twins.deadline _ _
    rw [checkAct_eq, checkAct_eq, look]
  | now next ih => exact .bind (fun _ => rfl) ih
  | maxReviewers next ih => exact .bind (fun _ => rfl) fun w => ih _
  | snapshot next ih => exact .bind (fun _ => rfl) fun _ => ih
  | call c next ih =>
    refine .bind (fun w => ?_) ih
    rw [Act.attempt_apply, Act.attempt_apply, Call.same_act twins c w]

end Plan

/-! ### Operations -/

namespace Operation

variable {α : Type} {o : Operation α} {timeout : Option Number} {i : Interruption} {w : World}

/-- The calls that an operation makes, each with the world in which it begins. It makes none if its
seconds are no clock reading. -/
def calls (o : Operation α) (timeout : Option Number) (i : Interruption) (w : World) :
    List (Call × World) :=
  match Deadline.start? w.clock timeout with
  | .error _ => []
  | .ok d => o.plan.calls d i (o.begun w)

theorem statements_act (o : Operation α) (timeout : Option Number) (i : Interruption) (w : World) :
    (o.act timeout i w).2.statements = (o.body timeout i (o.begun w)).2.statements := by
  rw [act_eq_enclosed, Act.enclosed, begun]
  split
  · exact Act.statements_atomic _ _ _
  · rfl

theorem result_act (linked : ∀ a, (o.body timeout i (o.begun w)).1 = .ok a →
    (o.body timeout i (o.begun w)).2.tables.Linked) :
    (o.act timeout i w).1 = (o.body timeout i (o.begun w)).1 := by
  rw [act_eq_enclosed, Act.enclosed]
  unfold begun at linked ⊢
  split
  · rename_i transactional
    rw [if_pos transactional] at linked
    exact Act.result_atomic linked
  · rfl

theorem same_act {i j : Interruption} (twins : i.Twins j) (o : Operation α)
    (timeout : Option Number) : Act.Same i j (o.act timeout) (o.act timeout) := by
  have body : Act.Same i j (o.body timeout) (o.body timeout) :=
    .bind (fun _ => rfl) fun w => .bind (fun _ => rfl) fun d => o.plan.same_act twins
  rw [act_eq_enclosed, Act.enclosed]
  split
  · exact .atomic body
  · exact body

end Operation

/-! ### Commands -/

namespace Desk

variable {j : Interruption} {n : ℕ} {e : DatabaseError} {d : Option (Deadline Binary64)} {w : World}

/-- How a request ends that the error strikes at a statement of a call. -/
def Command.struckOutcome (command : Command) (i : Interruption) (e : DatabaseError) (c : Call)
    (u : World) (s : Statement) : Except Failure command.Result :=
  match command, c with
  | .createTeam .., .teamCreate _ =>
    if s = .insertTeam ∧ e.kind = .integrity then .error (.refuse .teamExists)
    else .error (.refused e.refusal)
  | .createPullRequest .., .pullRequestCreate p =>
    if s ≠ .pullRequestExists ∧ e.kind = .integrity ∧
        PullRequests.isTaken (u.entered i .pullRequestCreate).tables p.id then
      .error (.refuse .pullRequestExists)
    else .error (.refused e.refusal)
  | .merge id, .pullRequestUpdate p =>
    match (PullRequests.get id i (PullRequests.update p i u).2).1 with
    | .ok row => if e.IsRace ∧ row.IsMerged then .ok row.entity else .error (.refused e.refusal)
    | .error _ => .error (.refused e.refusal)
  | _, _ => .error (.refused e.refusal)

/-- The request ends so, and where it succeeds all the same it leaves every reference leading to a
row. -/
abbrev Command.Told (command : Command) (i : Interruption) (e : DatabaseError) (c : Call)
    (u : World) (s : Statement) (o : Except Failure command.Result × World) : Prop :=
  o.1 = command.struckOutcome i e c u s ∧ ∀ a, o.1 = .ok a → o.2.tables.Linked

theorem Command.told_error {command : Command} {i : Interruption} {c : Call} {u v : World}
    {s : Statement} {f : Failure} (ends : command.struckOutcome i e c u s = .error f) :
    command.Told i e c u s (.error f, v) := by
  refine ⟨ends.symm, fun a done => ?_⟩
  cases done

/-! #### Commands that hand failures on -/

theorem relays_deactivateEach (us : List UserRow) : (deactivateEach us).Relays := by
  induction us with
  | nil => trivial
  | cons u us ih =>
    refine ⟨trivial, fun f => rfl, fun row => ?_⟩
    exact Plan.Relays.bind (p := deactivateEach us) ih fun rows => trivial

theorem relays_reassign (id old : Value) : (reassignPlan id old).Relays := by
  refine ⟨trivial, fun f => rfl, fun p => ?_⟩
  show Plan.Relays (if p.IsMerged then _ else _ : Plan (PullRequest × String))
  split
  · trivial
  split
  · trivial
  split
  · trivial
  refine ⟨trivial, fun f => rfl, fun u => ⟨trivial, fun f => rfl, fun roster => ?_⟩⟩
  dsimp only [Plan.bind]
  split
  · trivial
  · exact ⟨trivial, fun f => rfl, fun q => trivial⟩

theorem relays_overview : overviewPlan.Relays :=
  ⟨trivial, fun _ => rfl, fun _ => ⟨trivial, fun _ => rfl, fun _ =>
    ⟨trivial, fun _ => rfl, fun _ => trivial⟩⟩⟩

/-! #### Commands that look into failures -/

theorem fate_createTeam (calm : j.Calm) (name : Value) (entries : List MemberEntry)
    (awaits : w.statements.length ≤ n) :
    Plan.Fate n ((Command.createTeam name entries).Told (j.striking n e) e) d (j.striking n e)
      (createTeamPlan name entries) w := by
  unfold createTeamPlan
  cases entries.mapM MemberEntry.draft with
  | error g => exact .done awaits
  | ok members =>
    refine .check calm awaits fun v _ awaits => ?_
    refine .final awaits (Teams.breaks_create calm _ v awaits) ?_ fun r v' _ awaits => ?_
    · intro s f told
      by_cases violated : s = .insertTeam ∧ e.kind = .integrity
      · rw [Teams.struckRefusal, if_pos violated] at told
        subst told
        exact ⟨.refuse .teamExists, rfl, fun _ => Command.told_error (if_pos violated)⟩
      · rw [Teams.struckRefusal, if_neg violated] at told
        subst told
        exact ⟨.refused e.refusal, if_neg e.not_isExistence,
          fun _ => Command.told_error (if_neg violated)⟩
    · cases r with
      | ok team => exact .done awaits
      | error f =>
        show Plan.Fate _ _ _ _ (if f.IsExistence then _ else _ : Plan Team) _
        split <;> exact .done awaits

theorem fate_createPullRequest (calm : j.Calm) (id name author : Value) (sound : w.Sound [])
    (awaits : w.statements.length ≤ n) :
    Plan.Fate n ((Command.createPullRequest id name author).Told (j.striking n e) e) d
      (j.striking n e) (createPullRequestPlan id name author) w := by
  have reads : (Call.pullRequestGet id).IsReading := trivial
  refine .check_sound calm sound awaits fun v sound awaits => ?_
  refine .final awaits (reads.breaks calm v awaits) ?_ fun r v' run awaits => ?_
  · rintro s f rfl
    refine ⟨.refused e.refusal, ?_, fun _ => Command.told_error rfl⟩
    exact if_pos e.not_isNotFound
  replace sound : v'.Sound [] := by
    have kept := reads.keeps (calm.keeps_sound n e []) v sound
    rwa [run] at kept
  cases r with
  | ok p => exact .done awaits
  | error f =>
    show Plan.Fate _ _ _ _ (if ¬f.IsNotFound then _ else _ : Plan PullRequest) _
    split
    · exact .done awaits
    rename_i missing
    -- what is not found has an id that can be looked for again
    obtain ⟨content, column⟩ := PullRequests.column_of_get_missing calm run (not_not.mp missing)
    refine .check_sound calm sound awaits fun v sound awaits => ?_
    refine .ask_sound calm (c := .userGet author) trivial sound awaits (fun _ => rfl)
      (fun _ _ => Command.told_error rfl) fun u v _ sound awaits => ?_
    dsimp only [Plan.bind]
    split
    · exact .done awaits
    rename_i team present
    refine .check_sound calm sound awaits fun v sound awaits => ?_
    refine .ask_sound calm (c := .usersOfTeam (.text (.plain team))) trivial sound awaits
      (fun _ => rfl) (fun _ _ => Command.told_error rfl) fun roster v _ sound awaits => ?_
    refine .maxReviewers (.now (.check_sound calm sound awaits fun v sound awaits => ?_))
    refine .final awaits (PullRequests.stricken_create calm column awaits sound.unspoiled) ?_
      fun r v' _ awaits => ?_
    · intro s f told
      let t := (v.entered (j.striking n e) .pullRequestCreate).tables
      replace told : f = .refused (PullRequests.struckRefusal e t id s) := told
      by_cases violated : s ≠ .pullRequestExists ∧ e.kind = .integrity ∧ PullRequests.isTaken t id
      · rw [PullRequests.struckRefusal, if_pos violated] at told
        subst told
        exact ⟨.refuse .pullRequestExists, rfl, fun _ => Command.told_error (if_pos violated)⟩
      · rw [PullRequests.struckRefusal, if_neg violated] at told
        subst told
        exact ⟨.refused e.refusal, if_neg e.not_isExistence,
          fun _ => Command.told_error (if_neg violated)⟩
    · cases r with
      | ok p => exact .done awaits
      | error f =>
        show Plan.Fate _ _ _ _ (if f.IsExistence then _ else _ : Plan PullRequest) _
        split <;> exact .done awaits

def reread (id : Value) (lost : Failure) : Plan PullRequest := do
  let current ← Plan.ask (.pullRequestGet id)
  if current.IsMerged then return current.entity else .fail lost

theorem act_reread {id : Value} {lost : Failure} {i : Interruption} {row : PullRequestRow}
    {v : World} (read : PullRequests.get id i w = (.ok row, v)) :
    (reread id lost).act d i w = (if row.IsMerged then .ok row.entity else .error lost, v) := by
  replace read : (Call.pullRequestGet id).act i w = (.ok row, v) := read
  show Plan.act d (.call (.pullRequestGet id) _) i w = _
  rw [Plan.act, Act.bind_apply, Act.attempt_apply, read]
  show Plan.act d (if row.IsMerged then return row.entity else .fail lost) i v = _
  split <;> rfl

/-- A merge that is struck in its update. -/
theorem merge_struck (calm : j.Calm) {id : Value} {key : String} {p : PullRequest} {s : Statement}
    {v : World} (column : id.column = .ok (some key)) (sound : w.Sound [key])
    (failed : (Call.pullRequestUpdate p).act (j.striking n e) w = (.error (.refused e.refusal), v))
    (place : v.statements[n]? = some s) :
    let lost : Failure := .refused e.refusal
    let o := (if lost.IsConflict then reread id lost else .fail lost).act d (j.striking n e) v
    o.2.statements[n]? = some s ∧
      (Command.merge id).Told (j.striking n e) e (.pullRequestUpdate p) w s o := by
  intro lost o
  replace failed : PullRequests.update p (j.striking n e) w = (.error lost, v) := failed
  -- the update has left the row where it was, and so it is there to be read again
  have kept : v.Sound [key] := by
    obtain ⟨tables, spoiled⟩ := PullRequests.update_restores calm failed
    have entered := calm.sound_entered (n := n) (e := e) sound .pullRequestUpdate
    exact ⟨spoiled.trans entered.unspoiled, tables ▸ entered.linked, tables ▸ entered.stored⟩
  obtain ⟨row, u, read, later, linked⟩ := PullRequests.get_late (e := e) calm column place kept
  have outcome : (Command.merge id).struckOutcome (j.striking n e) e (.pullRequestUpdate p) w s =
      if e.IsRace ∧ row.IsMerged then .ok row.entity else .error lost := by
    unfold Command.struckOutcome
    dsimp only
    rw [failed, read]
  by_cases race : lost.IsConflict
  · have reads : o = (if row.IsMerged then .ok row.entity else .error lost, u) := by
      dsimp only [o]
      rw [if_pos race, act_reread read]
    rw [reads]
    refine ⟨later, ?_, fun _ _ => linked⟩
    simp only [outcome, e.isConflict_iff.mp race, true_and]
  · have hands : o = (.error lost, v) := by
      dsimp only [o]
      rw [if_neg race]
      rfl
    have handed := outcome.trans (if_neg fun both => race (e.isConflict_iff.mpr both.1))
    rw [hands]
    exact ⟨place, Command.told_error handed⟩

theorem fate_merge (calm : j.Calm) (id : Value) (sound : w.Sound [])
    (awaits : w.statements.length ≤ n) :
    Plan.Fate n ((Command.merge id).Told (j.striking n e) e) d (j.striking n e) (mergePlan id)
      w := by
  refine .check_sound calm sound awaits fun v sound awaits => ?_
  refine .ask_sound calm (c := .pullRequestGet id) trivial sound awaits (fun _ => rfl)
    (fun _ _ => Command.told_error rfl) fun p v read sound awaits => ?_
  obtain ⟨column, stored⟩ := PullRequests.get_eq_ok calm read
  replace sound : v.Sound [p.id] :=
    ⟨sound.unspoiled, sound.linked, fun _ listed => List.mem_singleton.mp listed ▸ stored⟩
  show Plan.Fate _ _ _ _ (if p.IsMerged then _ else _ : Plan PullRequest) _
  split
  · exact .done awaits
  refine .now (.check_sound calm sound awaits fun u sound awaits => ?_)
  refine .call awaits (PullRequests.breaks_update calm _ u awaits) ?_ fun r v' _ awaits => ?_
  · rintro s f v' failed place rfl
    exact merge_struck calm column sound failed place
  · cases r with
    | ok p => exact .done awaits
    | error f =>
      show Plan.Fate _ _ _ _ (if f.IsConflict then reread id f else _) _
      split
      · refine .ask awaits (Call.IsPlain.breaks calm (c := .pullRequestGet id) trivial _ awaits)
          (fun _ => rfl) (fun _ _ => Command.told_error rfl) fun current v _ awaits => ?_
        show Plan.Fate _ _ _ _ (if current.IsMerged then _ else _ : Plan PullRequest) _
        split <;> exact .done awaits
      · exact .done awaits

/-! #### Every command -/

theorem Command.fate_of_relays {command : Command} (calm : j.Calm)
    (relays : command.operation.plan.Relays)
    (plain : ∀ i c u s, command.struckOutcome i e c u s = .error (.refused e.refusal))
    (awaits : w.statements.length ≤ n) :
    Plan.Fate n (command.Told (j.striking n e) e) d (j.striking n e) command.operation.plan w := by
  cases relays.fate (e := e) (d := d) calm awaits with
  | spared awaits => exact .spared awaits
  | struck made awaits within place told =>
    refine .struck made awaits within place ⟨told.trans (plain _ _ _ _).symm, fun a done => ?_⟩
    cases told.symm.trans done

theorem Command.fate (calm : j.Calm) (command : Command) (sound : w.Sound [])
    (awaits : w.statements.length ≤ n) :
    Plan.Fate n (command.Told (j.striking n e) e) d (j.striking n e) command.operation.plan w := by
  cases command with
  | createTeam name entries => exact fate_createTeam calm name entries awaits
  | createPullRequest id name author =>
    exact fate_createPullRequest calm id name author sound awaits
  | merge id => exact fate_merge calm id sound awaits
  | getTeam name =>
    exact fate_of_relays calm ⟨trivial, fun _ => rfl, fun _ => trivial⟩ (fun _ _ _ _ => rfl) awaits
  | deactivateTeam name =>
    exact fate_of_relays calm ⟨trivial, fun _ => rfl, relays_deactivateEach⟩ (fun _ _ _ _ => rfl)
      awaits
  | setUserActive id active =>
    exact fate_of_relays calm ⟨trivial, fun _ => rfl, fun _ => trivial⟩ (fun _ _ _ _ => rfl) awaits
  | reviewAssignments id =>
    exact fate_of_relays calm ⟨trivial, fun _ => rfl, fun _ => ⟨trivial, fun _ => rfl,
      fun _ => trivial⟩⟩ (fun _ _ _ _ => rfl) awaits
  | reassign id old =>
    exact fate_of_relays calm (relays_reassign id old) (fun _ _ _ _ => rfl) awaits
  | overview => exact fate_of_relays calm relays_overview (fun _ _ _ _ => rfl) awaits

/-- An error that strikes a command strikes in one of its calls, and the command ends as this call
and the statement tell. -/
theorem Command.stricken (calm : j.Calm) (command : Command) (timeout : Option Number)
    (resting : w.Resting) (awaits : w.statements.length ≤ n) {s : Statement}
    (place : (command.operation.act timeout (j.striking n e) w).2.statements[n]? = some s) :
    ∃ c u, (c, u) ∈ command.operation.calls timeout (j.striking n e) w ∧
      u.statements.length ≤ n ∧ (c.act (j.striking n e) u).2.statements[n]? = some s ∧
      (command.operation.act timeout (j.striking n e) w).1 =
        command.struckOutcome (j.striking n e) e c u s := by
  have begun : (command.operation.begun w).statements = w.statements := by
    unfold Operation.begun
    split
    · exact w.statements_log rfl
    · rfl
  have sound : (command.operation.begun w).Sound [] := by
    unfold Operation.begun
    split <;> exact ⟨resting.unspoiled, resting.linked, List.forall_mem_nil _⟩
  rw [Operation.statements_act] at place
  cases start : Deadline.start? w.clock timeout with
  | error f =>
    have body := Operation.body_eq_error (i := j.striking n e) command.operation
      ((command.operation.clock_begun w).symm ▸ start)
    rw [body] at place
    have ended := List.getElem?_eq_none (begun ▸ awaits)
    cases ended.symm.trans place
  | ok d =>
    have body := Operation.body_eq_plan (i := j.striking n e) command.operation
      ((command.operation.clock_begun w).symm ▸ start)
    have fate := command.fate (e := e) (d := d) calm sound (begun.symm ▸ awaits)
    rw [body] at place
    cases fate with
    | spared awaits => cases (List.getElem?_eq_none awaits).symm.trans place
    | struck made awaits within place' told =>
      cases place.symm.trans place'
      refine ⟨_, _, ?_, awaits, within, ?_⟩
      · rw [Operation.calls, start]
        exact made
      · rw [← told.1, ← body]
        exact Operation.result_act (by rw [body]; exact told.2)

end Desk

end ReviewRota
