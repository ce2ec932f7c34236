import ReviewRota.Proofs.Interleaving.Consistency

/-!
# What is never lost

Teams, users and pull requests are not removed, so that what is taken stays taken, and a user that a
client has found is stored for good.
-/

namespace ReviewRota

/-- What is stored in `t` is stored in `u`, pull requests as what became of them. -/
structure Tables.Grows (t u : Tables) : Prop where
  teams : ∀ name, t.HasTeam name → u.HasTeam name
  users : ∀ id, t.HasUser id → u.HasUser id
  pullRequests : t.Leads u

namespace Tables

variable {t u v : Tables}

theorem Grows.refl (t : Tables) : t.Grows t := ⟨fun _ => id, fun _ => id, .refl t⟩

theorem Grows.trans (first : t.Grows u) (second : u.Grows v) : t.Grows v where
  teams name has := second.teams name (first.teams name has)
  users id has := second.users id (first.users id has)
  pullRequests := first.pullRequests.trans second.pullRequests

theorem RosterWrite.grows (wrote : t.RosterWrite u) : t.Grows u := by
  have leads := leads_of_pullRequests wrote.pullRequests
  cases wrote with
  | nothing => exact .refl t
  | team fresh => exact ⟨fun _ has => List.mem_append_left _ has, fun _ => id, leads⟩
  | user fresh => exact ⟨fun _ => id, fun _ has => has.addUser _, leads⟩
  | change id keeps =>
    exact ⟨fun _ has => has, fun _ has => (hasUser_modifyUser keeps).mpr has, leads⟩

end Tables

def Exchange.Knows (t : Tables) : Exchange → Prop
  | ⟨.userGet id, .ok u⟩ => id.column = .ok (some u.id) ∧ t.HasUser u.id
  | ⟨.usersOfTeam _, .ok us⟩ => ∀ u ∈ us, t.HasUser u.id
  | _ => True

theorem Exchange.Knows.grows {t u : Tables} {x : Exchange} (knows : x.Knows t)
    (grows : t.Grows u) : x.Knows u := by
  unfold Exchange.Knows at knows ⊢
  split at knows
  · exact ⟨knows.1, grows.users _ knows.2⟩
  · exact fun u member => grows.users u.id (knows u member)
  · trivial

namespace Interleaving

variable {w v : World} {command : Desk.Command} {xs : List Exchange} {transactional : Bool}

theorem grows_of_call {c : Call} {r : Except Failure c.Result} {n : Nat}
    (effect : Entry.Effect ⟨n, command, xs, ⟨c, r⟩, w.tables, v.tables⟩)
    (run : c.act.enclosed transactional .none w = (r, v)) : w.tables.Grows v.tables := by
  by_cases writes : c.WritesPullRequest
  · have leads := effect.leads
    cases effect with
    | aside call same reads => exact absurd writes call
    | created creates =>
      have after : v.tables = _ := creates.after
      exact ⟨fun _ has => after ▸ has, fun _ has => after ▸ has, leads⟩
    | uncreated called same =>
      have after : v.tables = w.tables := same
      exact after ▸ .refl _
    | edited edits =>
      have after : v.tables = _ := edits.after
      refine ⟨fun name has => ?_, fun id has => ?_, leads⟩
      · rwa [after, Tables.HasTeam, Tables.teams_modifyPullRequest]
      · rwa [after, Tables.HasUser, Tables.users_modifyPullRequest]
    | missed misses =>
      have after : v.tables = w.tables := misses.after
      exact after ▸ .refl _
  · have kept := (Call.keeps_of_rosterWrite (I := w.tables.Grows) (Interruption.with_none _)
      (fun _ _ wrote grows => grows.trans wrote.grows) writes).enclosed transactional w (.refl _)
    rwa [run] at kept

theorem knows_of_call (fit : w.Fit transactional) {c : Call} {r : Except Failure c.Result}
    (run : c.act.enclosed transactional .none w = (r, v)) : Exchange.Knows v.tables ⟨c, r⟩ := by
  cases c with
  | userGet id =>
    obtain ⟨_, ⟨j, ends⟩, finds⟩ := Users.get_enclosed fit id
    obtain ⟨rfl, rfl⟩ := Prod.mk.inj (run.symm.trans ends)
    cases r with
    | error e => trivial
    | ok u => exact finds u rfl
  | usersOfTeam team =>
    obtain ⟨_, ⟨j, ends⟩, finds⟩ := Users.ofTeam_enclosed fit team
    obtain ⟨rfl, rfl⟩ := Prod.mk.inj (run.symm.trans ends)
    cases r with
    | error e => trivial
    | ok us => exact finds us rfl
  | _ => cases r <;> trivial

end Interleaving

end ReviewRota
