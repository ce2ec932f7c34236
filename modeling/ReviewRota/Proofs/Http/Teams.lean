import ReviewRota.Proofs.Desk.Founding
import ReviewRota.Proofs.Http.Answering
import ReviewRota.Proofs.Http.Errors
import ReviewRota.Proofs.Sorting

/-!
# Teams that are sent and read back

The reply to a request for a new team is made from the members of the request, and a look at the
team finds the rows that are stored. They tell the same since the ids of the members differ as they
are stored, blanks at their ends left out and numbers turned to text, and since nobody is in a team
before there is one of its name.
-/

namespace ReviewRota

/-! ### The roster of a new team -/

theorem Roster.ordered_eq_of_perm {members others : List Member}
    (distinct : (members.map Member.id).Nodup) (perm : members.Perm others) :
    ordered members = ordered others := by
  have orders (a b : Member) : decide (a.id ≤ b.id) = true ↔ a.id ≤ b.id := decide_eq_true_iff
  have left := pairwise_lt_mergeSort Member.id orders distinct
  have right := pairwise_lt_mergeSort Member.id orders ((perm.map Member.id).nodup_iff.mp distinct)
  refine List.Perm.eq_of_pairwise (fun _ _ _ _ ab ba => absurd ab (lt_asymm ba)) left right ?_
  exact (List.mergeSort_perm _ _).trans (perm.trans (List.mergeSort_perm _ _).symm)

namespace Tables

variable {t : Tables} {name : String} {members : List Member}

theorem user?_founded_of_mem (distinct : (members.map Member.id).Nodup) {m : Member}
    (listed : m ∈ members) : (t.founded name members).user? m.id = some (m.row name) := by
  obtain ⟨before, after, rfl⟩ := List.append_of_mem listed
  rw [List.map_append, List.map_cons] at distinct
  have once : (m.id :: after.map Member.id).Nodup := (List.nodup_append.mp distinct).2.1
  exact user?_founded_last (List.nodup_cons.mp once).1

theorem mem_usersOf_founded (keyed : (t.founded name members).Keyed) (linked : t.Linked)
    (fresh : ¬t.HasTeam name) (distinct : (members.map Member.id).Nodup) {u : UserRow} :
    u ∈ (t.founded name members).usersOf (some name) ↔ ∃ m ∈ members, m.row name = u := by
  rw [mem_usersOf]
  constructor
  · rintro ⟨stored, team⟩
    have found : (t.founded name members).user? u.id = some u :=
      (find?_key_eq_some_iff UserRow.id keyed.users).mpr ⟨stored, rfl⟩
    by_cases listed : u.id ∈ members.map Member.id
    · obtain ⟨m, listed, same⟩ := List.mem_map.mp listed
      rw [← same, user?_founded_of_mem distinct listed] at found
      exact ⟨m, listed, Option.some.inj found⟩
    · rw [user?_founded_unlisted listed] at found
      exact absurd (linked.1 u (user?_mem found).1 name team) fresh
  · rintro ⟨m, listed, rfl⟩
    exact ⟨(user?_mem (user?_founded_of_mem distinct listed)).1, rfl⟩

theorem roster_founded (keyed : (t.founded name members).Keyed) (linked : t.Linked)
    (fresh : ¬t.HasTeam name) (distinct : (members.map Member.id).Nodup) :
    ((t.founded name members).usersOf (some name)).map UserRow.member = Roster.ordered members := by
  let us := (t.founded name members).usersOf (some name)
  have once : (us.map UserRow.member).Nodup := by
    refine .of_map Member.id ?_
    rw [List.map_map]
    exact ((List.mergeSort_perm _ _).map UserRow.id).nodup_iff.mpr
      (keyed.users.sublist (List.filter_sublist.map UserRow.id))
  have perm : (us.map UserRow.member).Perm members := by
    refine (List.perm_ext_iff_of_nodup once (.of_map _ distinct)).mpr fun m => ?_
    simp only [List.mem_map, us, mem_usersOf_founded keyed linked fresh distinct]
    constructor
    · rintro ⟨_, ⟨m, listed, rfl⟩, rfl⟩
      exact listed
    · exact fun listed => ⟨_, ⟨m, listed, rfl⟩, rfl⟩
  rw [map_member_usersOf]
  exact (Roster.ordered_eq_of_perm distinct
    (perm.symm.trans ((List.mergeSort_perm _ _).map UserRow.member))).symm

end Tables

/-! ### The form -/

namespace TeamForm

/-- What a value is as a text: a number is spelled out, and anything else but a text is none. -/
def coerced? : Value → Option String
  | .text t => t.plain?
  | .int i => some (Value.int i).spelled
  | .float x => some (Value.float x).spelled
  | _ => none

def trimmed? (v : Value) : Option String := (coerced? v).map strip

theorem trimmed?_of_text? {maxLength : Nat} {v : Value} {s : String}
    (text : text? maxLength v = some s) : trimmed? v = some s ∧ s.isEmpty = false := by
  have same : text? maxLength v = (coerced? v).bind fun s =>
      let s := strip s
      if s.isEmpty || maxLength < s.length || s.toList.contains '\x00' then none else some s := by
    cases v <;> rfl
  rw [same] at text
  obtain ⟨raw, coerced, fits⟩ := Option.bind_eq_some_iff.mp text
  dsimp only at fits
  split at fits
  · cases fits
  · rename_i fitting
    cases fits
    refine ⟨by rw [trimmed?, coerced, Option.map_some], ?_⟩
    simp only [Bool.or_eq_true, not_or] at fitting
    exact Bool.eq_false_iff.mpr fitting.1.1

theorem trimmed?_of_member? {v : Value} {m : Member} (read : member? v = some m) :
    ∃ id, v.field? "user_id" = some id ∧ trimmed? id = some m.id := by
  obtain ⟨id, field, read⟩ := Option.bind_eq_some_iff.mp read
  obtain ⟨text, spelled, read⟩ := Option.bind_eq_some_iff.mp read
  obtain ⟨_, -, read⟩ := Option.bind_eq_some_iff.mp read
  obtain ⟨username, -, read⟩ := Option.bind_eq_some_iff.mp read
  obtain ⟨_, -, read⟩ := Option.bind_eq_some_iff.mp read
  obtain ⟨active, -, read⟩ := Option.bind_eq_some_iff.mp read
  cases read
  exact ⟨id, field, (trimmed?_of_text? spelled).1⟩

theorem id_of_member? {v x : Value} {m : Member} {id : String} (read : member? v = some m)
    (field : v.field? "user_id" = some x) (trimmed : trimmed? x = some id) : m.id = id := by
  obtain ⟨y, field', trimmed'⟩ := trimmed?_of_member? read
  cases field.symm.trans field'
  exact Option.some.inj (trimmed'.symm.trans trimmed)

/-- Two members whose ids are the same text, once trimmed, are in no list of members. -/
theorem members?_of_repeated {before between after : List Value} {a b x y : Value} {id : String}
    (first : a.field? "user_id" = some x) (second : b.field? "user_id" = some y)
    (same : trimmed? x = some id) (same' : trimmed? y = some id) :
    members? (.list (before ++ a :: (between ++ b :: after))) = none := by
  rw [← Option.not_isSome_iff_eq_none, Option.isSome_iff_exists]
  rintro ⟨ms, read⟩
  obtain ⟨ms', each, distinct⟩ := Option.bind_eq_some_iff.mp read
  split at distinct
  · rename_i once
    simp only [List.mapM_append, List.mapM_cons, Option.bind_eq_bind, Option.bind_eq_some_iff,
      Option.pure_def, Option.some.injEq] at each
    obtain ⟨_, -, _, ⟨m, read, _, ⟨_, -, _, ⟨n, read', _, -, rfl⟩, rfl⟩, rfl⟩, rfl⟩ := each
    have repeated : m.id = n.id :=
      (id_of_member? read first same).trans (id_of_member? read' second same').symm
    rw [List.map_append, List.map_cons, List.map_append, List.map_cons, repeated] at once
    exact (List.nodup_cons.mp (List.nodup_append.mp once).2.1).1 (by simp)
  · cases distinct

/-- What a document has to hold to be read as a team. -/
structure Reads (document : Value) (items : List Value) (name : String) (members : List Member) :
    Prop where
  listed : document.field? "members" = some (.list items)
  each : items.mapM member? = some members
  distinct : (members.map Member.id).Nodup
  named : name.isEmpty = false

theorem Reads.exists_of_mem {document item : Value} {items : List Value} {name : String}
    {members : List Member} (reads : Reads document items name members) (listed : item ∈ items) :
    ∃ m ∈ members, member? item = some m := by
  have each := reads.each
  obtain ⟨before, after, rfl⟩ := List.append_of_mem listed
  simp only [List.mapM_append, List.mapM_cons, Option.bind_eq_bind, Option.bind_eq_some_iff,
    Option.pure_def, Option.some.injEq] at each
  obtain ⟨_, -, _, ⟨m, read, _, -, rfl⟩, rfl⟩ := each
  exact ⟨m, List.mem_append_right _ List.mem_cons_self, read⟩

theorem reads_of_read {document : Value} {name : String} {members : List Member}
    (form : read document = .ok (name, members)) :
    ∃ items, Reads document items name members := by
  unfold read at form
  split at form
  · split at form
    · cases form
    rename_i text
    split at form
    · cases form
    rename_i listed
    cases form
    obtain ⟨title, -, text⟩ := Option.bind_eq_some_iff.mp text
    obtain ⟨list, field, listed⟩ := Option.bind_eq_some_iff.mp listed
    unfold members? at listed
    split at listed
    · rename_i items
      obtain ⟨ms, each, listed⟩ := Option.bind_eq_some_iff.mp listed
      split at listed
      · rename_i distinct
        cases listed
        exact ⟨items, field, each, distinct, (trimmed?_of_text? text).2⟩
      · cases listed
    · cases listed
  · cases form

theorem read_of_unlisted {document : Value}
    (unlisted : (document.field? "members").bind members? = none) :
    ∃ field, read document = .error field := by
  unfold read
  split
  · split
    · exact ⟨_, rfl⟩
    · rw [unlisted]
      exact ⟨_, rfl⟩
  · exact ⟨_, rfl⟩

end TeamForm

/-! ### Requests -/

namespace Request

variable {r : Request} {w : World}

theorem command?_of_route {e : Endpoint} (route : Endpoint.ofPath? r.path = some e)
    (short : Query.size r.query ≤ Query.maxSize) (json : r.wantsJson = true)
    (method : Case.upper r.method = e.method) : r.command? = e.command? r := by
  unfold command?
  simp [route, json, method, Nat.not_lt.mpr short]

theorem serve_of_done {command : Desk.Command} (asks : r.command? = some command)
    (repeatable : command.Repeatable) {i : Interruption} {v : World} {a : command.Result}
    (run : command.operation.act w.preferences.operationTimeout i w = (.ok a, v)) :
    r.serve i w = (.ok (command.reply a), v) := by
  obtain ⟨named, served⟩ := serve_of_asks asks run
  have delivered := command.delivers named _ i w a v run
  rw [served]
  exact congrArg (fun reply => (Except.ok reply, v))
    (Desk.Command.reply_matches named repeatable delivered).sent

/-- A team that was added: what is told is what the request asked for, in ascending order of ids,
and what a look at the team tells from then on. -/
structure Enrols (document : Value) (items : List Value) (name : String) (members : List Member)
    (reply : Reply) (v : World) : Prop where
  form : TeamForm.read document = .ok (name, members)
  reads : TeamForm.Reads document items name members
  told : reply = .json 201
    [("team", Document.team ⟨name, (Roster.ordered members).map Member.draft⟩)]
  stored : (v.tables.usersOf (some name)).map UserRow.member = Roster.ordered members
  ascending : (Roster.ordered members).Pairwise fun a b => a.id < b.id
  /-- Nobody can be looked for in a team without members. -/
  read : items ≠ [] → ∀ q : Request, q.path = "/team/get" → Case.upper q.method = "GET" →
    Query.size q.query ≤ Query.maxSize → q.wantsJson = true →
    Query.last? q.query "team_name" = some name →
    ∃ u, q.serve .none v =
      (.ok ⟨200, some (Document.team ⟨name, (Roster.ordered members).map Member.draft⟩)⟩, u)

theorem serve_getTeam {name : String} {members : List Member} (resting : w.Resting)
    (untimed : w.preferences.operationTimeout = none)
    (stored : (w.tables.usersOf (some name)).map UserRow.member = members)
    (somebody : members ≠ []) (asks : r.command? = some (.getTeam name)) :
    ∃ u, r.serve .none w =
      (.ok ⟨200, some (Document.team ⟨name, members.map Member.draft⟩)⟩, u) := by
  obtain ⟨_, t, j, c, run, ends⟩ :=
    Desk.getTeam_ensures resting (Value.column_plain name) none w.journal w.clock
  obtain ⟨rfl, -⟩ := ends.of_none
  have found : Teams.found (.text (.plain name)) (w.tables.usersOf (some name)) = .ok members := by
    rw [Teams.found, if_neg, stored]
    rintro nobody
    rw [List.isEmpty_iff.mp nobody] at stored
    exact somebody stored.symm
  rw [found] at run
  rw [← untimed] at run
  exact ⟨_, serve_of_done asks trivial run⟩

theorem command?_getTeam {name : String} (named : name.isEmpty = false)
    (route : r.path = "/team/get") (method : Case.upper r.method = "GET")
    (short : Query.size r.query ≤ Query.maxSize) (json : r.wantsJson = true)
    (asked : Query.last? r.query "team_name" = some name) :
    r.command? = some (.getTeam name) := by
  have address : Endpoint.ofPath? r.path = some .getTeam := by
    rw [route]
    rfl
  rw [command?_of_route address short json method]
  simp [Endpoint.command?, parameter?, asked, named]

theorem serve_of_unasked {e : Endpoint} (route : Endpoint.ofPath? r.path = some e)
    (service : e ≠ .health) (asks : r.command? = none) (i : Interruption) :
    ∃ reply, r.serve i w = (.ok reply, w) ∧ reply.status ≠ 201 := by
  by_cases long : Query.maxSize < Query.size r.query
  · exact ⟨.bare 400, by simp [serve, route, long], by decide⟩
  by_cases json : r.wantsJson = true
  · by_cases method : Case.upper r.method = e.method
    · rw [command?_of_route route (Nat.not_lt.mp long) json method] at asks
      have handles := e.handles service r
      rw [serve_eq route (Nat.not_lt.mp long) json method]
      generalize e.handle r = x at handles
      cases handles with
      | @refused reply _ error =>
        have status := error.status_ge
        refine ⟨reply, ?_, by omega⟩
        exact congrArg (fun reply => (Except.ok reply, w)) error.sent
      | carried asks' => cases asks.symm.trans asks'
    · refine ⟨e.unhandled (Case.upper r.method), by simp [serve, route, long, json, method], ?_⟩
      unfold Endpoint.unhandled
      split
      · exact show 200 ≠ 201 by decide
      · exact show 405 ≠ 201 by decide
  · refine ⟨r.unwanted, by simp [serve, route, long, json], ?_⟩
    unfold unwanted
    split <;> decide

theorem asks_createTeam {command : Desk.Command}
    (route : Endpoint.ofPath? r.path = some .addTeam) (asks : r.command? = some command) :
    ∃ document name members, r.document? = some document ∧
      TeamForm.read document = .ok (name, members) ∧
      command = .createTeam (.text (.plain name))
        (members.map fun m => Desk.MemberEntry.ofDraft m.draft) := by
  unfold command? at asks
  rw [route] at asks
  dsimp only at asks
  split at asks
  · cases asks
  simp only [Endpoint.command?] at asks
  split at asks
  · cases asks
  rename_i document found
  split at asks
  · cases asks
  rename_i name members form
  cases asks
  exact ⟨document, name, members, found, form, rfl⟩

structure Founds (w : World) (document : Value) (items : List Value) (name : String)
    (members : List Member) (reply : Reply) (v : World) : Prop where
  form : TeamForm.read document = .ok (name, members)
  reads : TeamForm.Reads document items name members
  fresh : ¬w.tables.HasTeam name
  told : reply = .json 201
    [("team", Document.team ⟨name, (Roster.ordered members).map Member.draft⟩)]
  keyed : (w.tables.founded name members).Keyed
  after : ∃ j c, v = { w with tables := w.tables.founded name members, journal := j, clock := c }

theorem founds (resting : w.Resting) (keyed : w.tables.Keyed)
    (untimed : w.preferences.operationTimeout = none) (route : r.path = "/team/add")
    {reply : Reply} {v : World} (run : r.serve .none w = (.ok reply, v))
    (created : reply.status = 201) :
    ∃ document items name members, r.document? = some document ∧
      Founds w document items name members reply v := by
  have address : Endpoint.ofPath? r.path = some .addTeam := by
    rw [route]
    rfl
  cases asks : r.command? with
  | none =>
    obtain ⟨other, run', uncreated⟩ := serve_of_unasked (w := w) address (by decide) asks .none
    cases run.symm.trans run'
    exact absurd created uncreated
  | some command =>
    obtain ⟨document, name, members, found, form, rfl⟩ := asks_createTeam address asks
    obtain ⟨items, reads⟩ := TeamForm.reads_of_read form
    obtain ⟨_, t, j, c, acts, ends⟩ :=
      Desk.createTeam_ensures resting (Value.column_plain name) members none w.journal w.clock
    rw [← untimed] at acts
    cases ends.of_none with
    | taken =>
      obtain ⟨-, served⟩ := serve_of_asks asks acts
      cases run.symm.trans served
      cases created
    | founded fresh =>
      have founded : (w.tables.founded name members).Keyed := by
        have keeps := (Desk.createTeam (.text (.plain name))
          (members.map fun m => Desk.MemberEntry.ofDraft m.draft)).keeps_keyed
          w.preferences.operationTimeout w keyed
        rw [acts] at keeps
        exact keeps
      cases run.symm.trans (serve_of_done asks trivial acts)
      exact ⟨document, items, name, members, found, form, reads, fresh, rfl, founded, j, c, rfl⟩

theorem serve_of_fresh (resting : w.Resting) (untimed : w.preferences.operationTimeout = none)
    {name : String} {members : List Member}
    (asks : r.command? = some (.createTeam (.text (.plain name))
      (members.map fun m => Desk.MemberEntry.ofDraft m.draft)))
    (fresh : ¬w.tables.HasTeam name) : ∃ v, r.serve .none w = (.ok (.json 201
      [("team", Document.team ⟨name, (Roster.ordered members).map Member.draft⟩)]), v) := by
  obtain ⟨_, t, j, c, acts, ends⟩ :=
    Desk.createTeam_ensures resting (Value.column_plain name) members none w.journal w.clock
  rw [← untimed] at acts
  cases ends.of_none with
  | taken has => exact absurd has fresh
  | founded => exact ⟨_, serve_of_done asks trivial acts⟩

theorem Founds.enrols {document : Value} {items : List Value} {name : String}
    {members : List Member} {reply : Reply} {v : World}
    (founds : Founds w document items name members reply v) (resting : w.Resting)
    (untimed : w.preferences.operationTimeout = none) :
    Enrols document items name members reply v := by
  obtain ⟨form, reads, fresh, told, founded, j, c, rfl⟩ := founds
  have stored := Tables.roster_founded founded resting.linked fresh reads.distinct
  refine ⟨form, reads, told, stored, ?_, ?_⟩
  · exact pairwise_lt_mergeSort Member.id (fun _ _ => decide_eq_true_iff) reads.distinct
  · intro listed q route method short json asked
    refine serve_getTeam ⟨resting.depth, resting.unspoiled, resting.linked.founded name members⟩
      untimed stored ?_ (command?_getTeam reads.named route method short json asked)
    obtain ⟨item, listed⟩ := List.exists_mem_of_ne_nil items listed
    obtain ⟨m, member, -⟩ := reads.exists_of_mem listed
    exact List.ne_nil_of_mem (Roster.mem_ordered.mpr member)

theorem serve_of_invalid {e : Endpoint} {message : String}
    (route : Endpoint.ofPath? r.path = some e) (short : Query.size r.query ≤ Query.maxSize)
    (json : r.wantsJson = true) (method : Case.upper r.method = e.method)
    (handled : e.handle r = pure (.invalid message)) (i : Interruption) :
    r.serve i w = (.ok (.invalid message), w) := by
  rw [serve_eq route short json method, handled]
  exact congrArg (fun reply => (Except.ok reply, w)) (Reply.isError_invalid message).sent

/-- A document that lists two members under one id, once trimmed, is refused. -/
theorem serve_of_repeated {document : Value} {before between after : List Value} {a b x y : Value}
    {id : String} (found : r.document? = some document)
    (listed : document.field? "members" = some (.list (before ++ a :: (between ++ b :: after))))
    (first : a.field? "user_id" = some x) (second : b.field? "user_id" = some y)
    (same : TeamForm.trimmed? x = some id) (same' : TeamForm.trimmed? y = some id)
    (route : r.path = "/team/add") (method : Case.upper r.method = "POST")
    (short : Query.size r.query ≤ Query.maxSize) (json : r.wantsJson = true) :
    ∃ field, r.serve .none w =
      (.ok (.invalid ("invalid or missing field '" ++ field ++ "'")), w) := by
  have address : Endpoint.ofPath? r.path = some .addTeam := by
    rw [route]
    rfl
  have unlisted : (document.field? "members").bind TeamForm.members? = none := by
    rw [listed, Option.bind_some, TeamForm.members?_of_repeated first second same same']
  obtain ⟨field, form⟩ := TeamForm.read_of_unlisted unlisted
  have handled : Endpoint.addTeam.handle r =
      pure (.invalid ("invalid or missing field '" ++ field ++ "'")) := by
    show Endpoint.handleAddTeam r = _
    simp only [Endpoint.handleAddTeam, found, form]
  exact ⟨field, serve_of_invalid address short json method handled _⟩

/-- With no limit of time: a team that is added is stored with members of distinct ids, and a look
at it tells exactly what the reply to the request has told. A document in which two members have the
same id, once numbers are spelled out and blanks are left out at the ends, is refused, and nothing
happens. -/
theorem team_reads_back (resting : w.Resting) (keyed : w.tables.Keyed)
    (untimed : w.preferences.operationTimeout = none) (route : r.path = "/team/add") :
    (∀ reply v, r.serve .none w = (.ok reply, v) → reply.status = 201 →
      ∃ document items name members, r.document? = some document ∧
        Enrols document items name members reply v) ∧
    ∀ document before a between b after x y id, r.document? = some document →
      document.field? "members" = some (.list (before ++ a :: (between ++ b :: after))) →
      a.field? "user_id" = some x → b.field? "user_id" = some y →
      TeamForm.trimmed? x = some id → TeamForm.trimmed? y = some id →
      Case.upper r.method = "POST" → Query.size r.query ≤ Query.maxSize → r.wantsJson = true →
      ∃ field, r.serve .none w =
        (.ok (.invalid ("invalid or missing field '" ++ field ++ "'")), w) := by
  refine ⟨fun reply v run created => ?_, ?_⟩
  · obtain ⟨document, items, name, members, found, founded⟩ :=
      founds resting keyed untimed route run created
    exact ⟨document, items, name, members, found, founded.enrols resting untimed⟩
  · intro document before a between b after x y id found listed first second same same' method short
      json
    exact serve_of_repeated found listed first second same same' route method short json

end Request

namespace Scenario

def listing (id : Value) (username : String) (active : Bool) : Value :=
  Reply.object [("user_id", id), ("username", username), ("is_active", .bool active)]

/-- A new team that lists its members in no order, one by a number and one with blanks around. -/
def gathering : Request :=
  posted "/team/add" [("team_name", "core"), ("members", .list
    [listing "u3" "Cleo" true, listing (.int 1) "Ann" false, listing " u2 " "Benno" true])]

def repetitive : Request :=
  posted "/team/add" [("team_name", "core"), ("members", .list
    [listing (.int 1) "Ann" true, listing "u2" "Ben" true, listing " 1" "Cleo" true])]

def coreLook : Request where
  method := "GET"
  path := "/team/get"
  query := "team_name=core"
  body := []
  contentType := ""
  databaseDown := false

/-- One of those who are to be gathered is in a team already. -/
def settled : World where
  tables := { teams := ["old"], users := [⟨"u2", "Ben", some "old", true⟩] }
  now := default

def gathered : List Member := [⟨"u3", "Cleo", true⟩, ⟨"1", "Ann", false⟩, ⟨"u2", "Benno", true⟩]

theorem form_gathering : ∃ document, gathering.document? = some document ∧
    TeamForm.read document = .ok ("core", gathered) := by
  have form : (gathering.document?.map fun d => (TeamForm.read d).toOption) =
      some (some ("core", gathered)) := by decide +kernel
  obtain ⟨document, found, read⟩ := Option.map_eq_some_iff.mp form
  refine ⟨document, found, ?_⟩
  cases outcome : TeamForm.read document with
  | error field =>
    rw [outcome] at read
    cases read
  | ok team =>
    rw [outcome] at read
    cases read
    rfl

theorem keyed_settled : settled.tables.Keyed := ⟨by decide, by decide, by decide, by decide⟩

theorem resting_settled : settled.Resting := ⟨rfl, rfl, by decide⟩

def listedIds : Value → Option (List (Option String))
  | .list items => some (items.map fun v => (v.field? "user_id").bind TeamForm.trimmed?)
  | _ => none

theorem listed_repetitive : ∃ document a m b x y, repetitive.document? = some document ∧
    document.field? "members" = some (.list [a, m, b]) ∧ a.field? "user_id" = some x ∧
    b.field? "user_id" = some y ∧ TeamForm.trimmed? x = some "1" ∧
    TeamForm.trimmed? y = some "1" := by
  have form : (repetitive.document?.bind fun d => (d.field? "members").bind listedIds) =
      some [some "1", some "u2", some "1"] := by decide +kernel
  obtain ⟨document, found, form⟩ := Option.bind_eq_some_iff.mp form
  obtain ⟨listed, field, form⟩ := Option.bind_eq_some_iff.mp form
  cases listed with
  | list items =>
    obtain ⟨a, _, rfl, first, form⟩ := List.map_eq_cons_iff.mp (Option.some.inj form)
    obtain ⟨m, _, rfl, -, form⟩ := List.map_eq_cons_iff.mp form
    obtain ⟨b, _, rfl, second, form⟩ := List.map_eq_cons_iff.mp form
    obtain rfl := List.map_eq_nil_iff.mp form
    obtain ⟨x, named, trimmed⟩ := Option.bind_eq_some_iff.mp first
    obtain ⟨y, named', trimmed'⟩ := Option.bind_eq_some_iff.mp second
    exact ⟨document, a, m, b, x, y, found, field, named, named', trimmed, trimmed'⟩
  | _ => cases form

end Scenario

namespace Request

/-- The three are told in order, the one who was in another team among them, and the document that
repeats an id is refused. -/
theorem team_reads_back_gathering : ∃ reply v document items field,
    Scenario.gathering.serve .none Scenario.settled = (.ok reply, v) ∧ reply.status = 201 ∧
      Enrols document items "core" Scenario.gathered reply v ∧
      (∃ u, Scenario.coreLook.serve .none v = (.ok ⟨200, some (Document.team ⟨"core",
        [⟨"1", "Ann", .bool false⟩, ⟨"u2", "Benno", .bool true⟩, ⟨"u3", "Cleo", .bool true⟩]⟩)⟩,
          u)) ∧
      Scenario.repetitive.serve .none Scenario.settled =
        (.ok (.invalid ("invalid or missing field '" ++ field ++ "'")), Scenario.settled) := by
  obtain ⟨document, found, form⟩ := Scenario.form_gathering
  have asks : Scenario.gathering.command? = some (.createTeam (.text (.plain "core"))
      (Scenario.gathered.map fun m => Desk.MemberEntry.ofDraft m.draft)) := by
    rw [command?_of_unqueried (r := Scenario.gathering) rfl (by decide +kernel),
      show Endpoint.ofPath? Scenario.gathering.path = some .addTeam by decide +kernel]
    dsimp only
    rw [if_pos (by decide +kernel)]
    simp only [Endpoint.command?, found, form]
  obtain ⟨v, run⟩ := serve_of_fresh Scenario.resting_settled rfl asks (by decide)
  obtain ⟨enrols, -⟩ := team_reads_back (r := Scenario.gathering) Scenario.resting_settled
    Scenario.keyed_settled rfl rfl
  obtain ⟨_, refuses⟩ := team_reads_back (r := Scenario.repetitive) Scenario.resting_settled
    Scenario.keyed_settled rfl rfl
  obtain ⟨_, items, name, members, found', enrolled⟩ := enrols _ v run rfl
  cases found.symm.trans found'
  cases form.symm.trans enrolled.form
  have listed : items ≠ [] := by
    rintro rfl
    cases enrolled.reads.each
  obtain ⟨u, looked⟩ := enrolled.read listed Scenario.coreLook rfl (by decide +kernel)
    (by decide +kernel) (by decide +kernel) (by decide +kernel)
  have ordered : (Roster.ordered Scenario.gathered).map Member.draft =
      [⟨"1", "Ann", .bool false⟩, ⟨"u2", "Benno", .bool true⟩, ⟨"u3", "Cleo", .bool true⟩] := by cbv
  obtain ⟨document', a, m, b, x, y, found', field, first, second, same, same'⟩ :=
    Scenario.listed_repetitive
  obtain ⟨invalid, refused⟩ := refuses document' [] a [m] b [] x y "1" found' field first second same
    same' (by decide +kernel) (by decide +kernel) (by decide +kernel)
  rw [ordered] at looked
  exact ⟨_, v, document, items, invalid, run, rfl, enrolled, ⟨u, looked⟩, refused⟩

end Request

end ReviewRota
