import ReviewRota.Desk.Command
import ReviewRota.Proofs.Roster
import ReviewRota.Proofs.Store.PullRequests

/-!
# Edits

A stored pull request changes in two ways only: it is merged, or one reviewer takes the place of
another. Either way its version counts up, and neither happens to a merged one. Pull requests that
came about by edits are ordered by their versions, equal versions being the same record.
-/

namespace ReviewRota

/-- A change that a request makes to a pull request which it has read. -/
inductive Edit where
  | merge (now : Timestamp)
  | replace (leaving successor : String)

namespace Edit

def written : Edit → PullRequestRow → PullRequestRow
  | merge now, p => { p with status := Status.merged, mergedAt := some now }
  | replace leaving successor, p =>
    { p with reviewers := Desk.staying p leaving ++ [successor] }

def apply (edit : Edit) (p : PullRequestRow) : PullRequestRow :=
  { edit.written p with version := p.version + 1 }

structure Fits (edit : Edit) (p : PullRequestRow) : Prop where
  unmerged : ¬p.IsMerged
  replaceable : ∀ leaving successor, edit = replace leaving successor →
    leaving ∈ p.reviewers ∧ successor ∉ p.reviewers ∧ successor ≠ p.author

variable {edit : Edit} {p : PullRequestRow}

theorem entity_written_merge (now : Timestamp) (p : PullRequestRow) :
    ((merge now).written p).entity = Desk.merged p now := rfl

theorem entity_written_replace (leaving successor : String) (p : PullRequestRow) :
    ((replace leaving successor).written p).entity =
      Desk.withReviewers p (Desk.staying p leaving ++ [successor]) := rfl

@[simp] theorem id_written (edit : Edit) (p : PullRequestRow) : (edit.written p).id = p.id := by
  cases edit <;> rfl

@[simp] theorem version_written (edit : Edit) (p : PullRequestRow) :
    (edit.written p).version = p.version := by
  cases edit <;> rfl

@[simp] theorem id_apply (edit : Edit) (p : PullRequestRow) : (edit.apply p).id = p.id :=
  id_written edit p

@[simp] theorem version_apply (edit : Edit) (p : PullRequestRow) :
    (edit.apply p).version = p.version + 1 := rfl

/-- An update by what was written to the row that was read comes to the edit of this row. -/
theorem overwrittenBy_written (edit : Edit) (p : PullRequestRow) :
    p.overwrittenBy (edit.written p) = edit.apply p := by
  cases edit <;> rfl

theorem entity_apply (edit : Edit) (p : PullRequestRow) :
    { (edit.written p).entity with version := (edit.written p).version + 1 } =
      (edit.apply p).entity := by
  rw [version_written]
  rfl

theorem mem_staying {leaving r : String} :
    r ∈ Desk.staying p leaving ↔ r ∈ p.reviewers ∧ r ≠ leaving := by
  simp [Desk.staying]

theorem staying_eq_erase (distinct : p.reviewers.Nodup) (leaving : String) :
    Desk.staying p leaving = p.reviewers.erase leaving := by
  rw [distinct.erase_eq_filter]
  refine List.filter_congr fun r _ => ?_
  by_cases same : r = leaving <;> simp [same]

theorem length_staying {leaving : String} (distinct : p.reviewers.Nodup)
    (assigned : leaving ∈ p.reviewers) :
    (Desk.staying p leaving).length + 1 = p.reviewers.length := by
  have occupied := List.length_pos_of_mem assigned
  rw [staying_eq_erase distinct, List.length_erase_of_mem assigned]
  omega

/-- What is written back is what is stored from then on. -/
theorem stored_apply {t : Tables} (stored : t.pullRequest? p.id = some p) (edit : Edit) :
    (t.modifyPullRequest p.id fun _ => edit.apply p).pullRequest? p.id = some (edit.apply p) :=
  Tables.pullRequest?_changed (fun _ _ => id_apply edit p) stored

/-- The next eligible member can take the place of a reviewer. -/
theorem fits_of_next {members : List Member} {leaving successor : String} (unmerged : ¬p.IsMerged)
    (assigned : leaving ∈ p.reviewers)
    (chosen : Roster.next members (some p.author) (Desk.staying p leaving) (some leaving) =
      some successor) : (replace leaving successor).Fits p where
  unmerged := unmerged
  replaceable l s same := by
    obtain ⟨rfl, rfl⟩ := Edit.replace.inj same
    obtain ⟨m, -, ⟨-, foreign, other, free⟩, rfl⟩ := Roster.eligible_of_next chosen
    refine ⟨assigned, fun member => free (mem_staying.mpr ⟨member, ?_⟩), ?_⟩
    · exact fun equal => other (congrArg some equal)
    · exact fun equal => foreign (congrArg some equal)

theorem Fits.length_reviewers (fits : edit.Fits p) (distinct : p.reviewers.Nodup) :
    (edit.apply p).reviewers.length = p.reviewers.length := by
  cases edit with
  | merge now => rfl
  | replace leaving successor =>
    obtain ⟨assigned, -, -⟩ := fits.replaceable leaving successor rfl
    have shorter := length_staying distinct assigned
    simpa [apply, written] using shorter

/-- An edit keeps the author, and makes nobody review their own pull request. -/
theorem Fits.reviews (fits : edit.Fits p)
    (reviews : (edit.apply p).author ∈ (edit.apply p).reviewers) :
    (edit.apply p).author = p.author ∧ p.author ∈ p.reviewers := by
  cases edit with
  | merge now => exact ⟨rfl, reviews⟩
  | replace leaving successor =>
    obtain ⟨-, -, other⟩ := fits.replaceable leaving successor rfl
    refine ⟨rfl, ?_⟩
    rcases List.mem_append.mp reviews with stays | new
    · exact (mem_staying.mp stays).1
    · exact absurd (List.mem_singleton.mp new).symm other

end Edit

/-! ### Soundness -/

/-- What holds of a pull request by itself, whatever else is stored. -/
structure PullRequestRow.Sound (p : PullRequestRow) : Prop where
  foreign : p.author ∉ p.reviewers
  distinct : p.reviewers.Nodup
  status : p.status = Status.opened ∨ p.status = Status.merged
  mergedAt : p.mergedAt = none ↔ p.status = Status.opened
  version : 1 ≤ p.version

theorem Edit.Fits.sound {edit : Edit} {p : PullRequestRow} (fits : edit.Fits p) (sound : p.Sound) :
    (edit.apply p).Sound := by
  have version : 1 ≤ p.version + 1 := by
    have := sound.version
    omega
  cases edit with
  | merge now =>
    have other : Status.merged ≠ Status.opened := by decide
    have timed : some now ≠ (none : Option Timestamp) := Option.some_ne_none now
    exact ⟨sound.foreign, sound.distinct, .inr rfl,
      ⟨fun h => absurd h timed, fun h => absurd h other⟩, version⟩
  | replace leaving successor =>
    obtain ⟨assigned, free, other⟩ := fits.replaceable leaving successor rfl
    refine ⟨?_, ?_, sound.status, sound.mergedAt, version⟩
    · intro member
      rcases List.mem_append.mp member with stays | new
      · exact sound.foreign (mem_staying.mp stays).1
      · exact other (List.mem_singleton.mp new).symm
    · refine List.nodup_append.mpr ⟨sound.distinct.filter _, List.nodup_singleton _, ?_⟩
      intro r stays s new same
      obtain rfl := List.mem_singleton.mp new
      exact free (same ▸ (mem_staying.mp stays).1)

/-! ### Succession -/

/-- The row `q` is what became of `p`: a later version, or `p` itself. -/
structure PullRequestRow.Succeeds (q p : PullRequestRow) : Prop where
  version : p.version ≤ q.version
  same : q.version = p.version → q = p
  final : p.IsMerged → q = p

namespace PullRequestRow.Succeeds

variable {p q r : PullRequestRow}

theorem refl (p : PullRequestRow) : p.Succeeds p := ⟨Int.le_refl _, fun _ => rfl, fun _ => rfl⟩

theorem trans (later : r.Succeeds q) (earlier : q.Succeeds p) : r.Succeeds p where
  version := Int.le_trans earlier.version later.version
  same equal := by
    have below := earlier.version
    have above := later.version
    obtain rfl := earlier.same (by omega)
    exact later.same equal
  final merged := by
    obtain rfl := earlier.final merged
    exact later.final merged

end PullRequestRow.Succeeds

theorem Edit.Fits.succeeds {edit : Edit} {p : PullRequestRow} (fits : edit.Fits p) :
    (edit.apply p).Succeeds p where
  version := by
    rw [version_apply]
    omega
  same equal := by
    rw [version_apply] at equal
    omega
  final merged := absurd merged fits.unmerged

end ReviewRota
