import ReviewRota.Store.Call

/-!
# Plans

What the desk does for a request is a plan: deadline checks and storage calls one after the other,
each call's outcome deciding how to go on. A plan is data, so it can be run in one go, cut at any
call by other plans, or looked at for what it does between two checks.
-/

namespace ReviewRota

inductive Plan (α : Type) : Type where
  | done (r : Except Failure α)
  | check (step : String) (next : Plan α)
  | now (next : Timestamp → Plan α)
  | maxReviewers (next : Int → Plan α)
  | snapshot (next : Plan α)
  | call (c : Call) (next : Except Failure c.Result → Plan α)

namespace Plan

variable {α β : Type}

protected def bind : Plan α → (α → Plan β) → Plan β
  | done (.ok a), f => f a
  | done (.error e), _ => done (.error e)
  | check step next, f => check step (next.bind f)
  | now next, f => now (fun t => (next t).bind f)
  | maxReviewers next, f => maxReviewers (fun n => (next n).bind f)
  | snapshot next, f => snapshot (next.bind f)
  | call c next, f => call c (fun r => (next r).bind f)

instance : Monad Plan where
  pure a := done (.ok a)
  bind := Plan.bind

@[simp] theorem pure_def (a : α) : (pure a : Plan α) = done (.ok a) := rfl

@[simp] theorem bind_def (p : Plan α) (f : α → Plan β) : p >>= f = p.bind f := rfl

def refuse (r : Reason) : Plan α := done (.error (.refuse r))

def fail (e : Failure) : Plan α := done (.error e)

def checked (step : String) : Plan Unit := check step (done (.ok ()))

def ask (c : Call) : Plan c.Result := call c done

/-- A call whose failure is looked at. -/
def attempt (c : Call) : Plan (Except Failure c.Result) := call c (fun r => done (.ok r))

def clock : Plan Timestamp := now (fun t => done (.ok t))

def limit : Plan Int := maxReviewers (fun n => done (.ok n))

/-! ### Running -/

/-- A check moves the clock, and then passes or cancels the operation. -/
def checkAct (d : Option (Deadline Binary64)) (step : String) : Act Unit := do
  Act.modify (fun w => { w with clock := w.clock + w.tick })
  Act.reach .deadline
  let w ← Act.world
  let directives ← Act.ofExcept (Deadline.check d w.link step w.clock w.clock)
  Act.modify (fun w => directives.foldl (fun w d => w.log (.directed d)) w)
  Act.log (.passed step)

def snapshotAct : Act Unit :=
  Act.modify (fun w => w.link.snapshot.foldl (fun w d => w.log (.directed d)) w)

def act (d : Option (Deadline Binary64)) : Plan α → Act α
  | done r => .ofExcept r
  | check step next => do
    checkAct d step
    act d next
  | now next => do
    let t ← Act.now
    act d (next t)
  | maxReviewers next => do
    let w ← Act.world
    act d (next w.preferences.maxReviewers)
  | snapshot next => do
    snapshotAct
    act d next
  | call c next => do
    let r ← c.act.attempt
    act d (next r)

end Plan

/-- A plan, and whether it runs in a transaction as a whole. -/
structure Operation (α : Type) where
  transactional : Bool
  plan : Plan α

def Operation.act {α : Type} (o : Operation α) (timeout : Option Number) : Act α :=
  let body : Act α := do
    let w ← Act.world
    let d ← Act.ofExcept (Deadline.start? w.clock timeout)
    o.plan.act d
  if o.transactional then .atomic body else body

end ReviewRota
