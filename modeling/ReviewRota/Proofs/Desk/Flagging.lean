import ReviewRota.Desk.Users
import ReviewRota.Proofs.Desk.Ensuring

/-!
# Flags from end to end

The flag of a user is set where the user is stored, and otherwise nothing is.
-/

namespace ReviewRota

namespace Users

variable {w : World} {id active : Value} {key : String} {b : Bool}

theorem setFlag_ends_missing (unspoiled : w.spoiled = false) (inside : 0 < w.depth)
    (column : id.column = .ok (some key)) (flag : active.flag = .ok (some b))
    (absent : w.tables.user? key = none) : (setFlag id active).Ends w (.ok false) w.tables := by
  unfold setFlag
  rw [flag]
  refine .write unspoiled inside _ ?_
  rw [column]
  exact if_neg (Tables.user?_eq_none_iff.mp absent)

theorem setActive_ends_missing (unspoiled : w.spoiled = false)
    (column : id.column = .ok (some key)) (flag : active.flag = .ok (some b))
    (absent : w.tables.user? key = none) :
    (setActive id active).Ends w (.error (.refused (missing id))) w.tables := by
  let v := w.log (.reached (.port .userSetActive))
  exact .port_refused _ (.atomic_error (.bind (setFlag_ends_missing (w := v.deeper)
    (by exact unspoiled) (Nat.succ_pos _) column flag absent) fun j => (Act.Ends.refuse _).fails))

end Users

namespace Desk

variable {w : World} {t u : Tables} {id : Value} {key : String} {b : Bool}

/-- How a request to set the flag of the user `key` ends, and with which tables. -/
inductive Flagging (t : Tables) (id : Value) (key : String) (b : Bool) :
    Except Failure UserRow → Tables → Prop
  | missing (absent : t.user? key = none) :
      Flagging t id key b (.error (.refused (Users.missing id))) t
  | flagged {u : UserRow} (stored : t.user? key = some u) :
      Flagging t id key b (.ok { u with active := b })
        (t.modifyUser key fun u => { u with active := b })

theorem setUserActive_ensures (resting : w.Resting) (column : id.column = .ok (some key))
    (timeout : Option Number) : ((setUserActive id (.bool b)).act timeout).Ensures w
      (Operation.InTime timeout w.tables (Flagging w.tables id key b)) := by
  refine Operation.ensures_steps_inTime rfl fun d stops => .check stops ?_
  cases stored : w.tables.user? key with
  | none =>
    refine .call_ends (c := .userSetActive id (.bool b))
      (r := .error (.refused (Users.missing id))) (t := w.tables) (fun j c => ?_)
      (.done (.inl (.missing stored)))
    exact Users.setActive_ends_missing (w := { w with journal := j, clock := c })
      resting.unspoiled column (Users.flag_bool b) stored
  | some u =>
    obtain rfl := (Tables.user?_mem stored).2
    refine .call_ends (c := .userSetActive id (.bool b)) (r := .ok { u with active := b })
      (t := w.tables.modifyUser u.id fun u => { u with active := b }) (fun j c => ?_)
      (.done (.inl (.flagged stored)))
    exact Users.setActive_ends (w := { w with journal := j, clock := c }) resting.unspoiled
      (fun _ => resting.linked) column (Users.flag_bool b) stored

end Desk

end ReviewRota
