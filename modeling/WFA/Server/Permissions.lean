-- SUMMARY: When the user routes keep everyone at or below the level of the session that acts.
import WFA.Server.UserEffects

/-!
# Permission escalation

No request of a session should make a row of `USERS` that stands above the
session's level, or touch one that does. `deleteUser` keeps to this. The other
routes do exactly when the level of the value that is stored is not above:
`createUser` checks the front of a text and stores the number it converts to,
`updateUser` checks the element `permission` and writes `permissions`, and
`registerUser` inserts employees.
-/

namespace WFA

open Text

/-- A value for `PERMISSIONS` that is stored as a number the level covers. -/
def Covers (p : Platform) (level : AuthLevel) (permissions : Value) : Prop :=
  ∀ own, (fromChars unsignedMax (p.columnText (p.integerAffinity permissions))).map
    AuthLevel.ofUnsigned = some own → own ≤ level

/-- A row that `request` would give a session above `level` for. -/
def Above (p : Platform) (level : AuthLevel) (user : User) : Prop :=
  ∃ own, userLevel p user = some own ∧ level < own

/-- Every row above the level had that level before, and every row that was above
it is still there and unchanged. -/
structure NoEscalation (p : Platform) (level : AuthLevel) (before after : Table User) : Prop where
  raised : ∀ id user own, after.get id = some user → userLevel p user = some own → level < own →
    ∃ old, before.get id = some old ∧ userLevel p old = some own
  kept : ∀ id user, before.get id = some user → Above p level user → after.get id = some user

/-- Only rows of level `client` are added. -/
structure OnlyClients (p : Platform) (before after : Table User) : Prop where
  kept : ∀ id user, before.get id = some user → after.get id = some user
  added : ∀ id user, after.get id = some user →
    before.get id = some user ∨ userLevel p user = some AuthLevel.client

section Rows

variable {p : Platform} {level : AuthLevel} {before after : Table User}

theorem NoEscalation.refl (p : Platform) (level : AuthLevel) (users : Table User) :
    NoEscalation p level users users where
  raised _ user _ hget hlevel _ := ⟨user, hget, hlevel⟩
  kept _ _ hget _ := hget

/-- One row set under a rowid where nothing above the level stood: there is no
escalation when the new row is not above. -/
theorem noEscalation_set {id : Int} {user : User}
    (hold : ∀ old, before.get id = some old → ¬ Above p level old)
    (hset : ∀ other, after.get other = if other = id then some user else before.get other) :
    NoEscalation p level before after ↔ ¬ Above p level user := by
  constructor
  · rintro h ⟨own, hown, hlt⟩
    obtain ⟨old, hget, hlevel⟩ := h.raised id user own (by rw [hset, if_pos rfl]) hown hlt
    exact hold old hget ⟨own, hlevel, hlt⟩
  · intro hnot
    refine ⟨?_, ?_⟩
    · intro other found own hget hown hlt
      rw [hset] at hget
      split at hget
      · obtain rfl := Option.some.inj hget
        exact absurd ⟨own, hown, hlt⟩ hnot
      · exact ⟨found, hget, hown⟩
    · intro other found hget habove
      rw [hset]
      split
      · rename_i heq
        subst heq
        exact absurd habove (hold found hget)
      · exact hget

/-- A row that is not above the level may go. -/
theorem noEscalation_delete {id : Int} (hold : ∀ old, before.get id = some old → ¬ Above p level old)
    (hset : ∀ other, after.get other = if other = id then none else before.get other) :
    NoEscalation p level before after := by
  refine ⟨?_, ?_⟩
  · intro other found own hget hown hlt
    rw [hset] at hget
    split at hget
    · simp at hget
    · exact ⟨found, hget, hown⟩
  · intro other found hget habove
    rw [hset]
    split
    · rename_i heq
      subst heq
      exact absurd habove (hold found hget)
    · exact hget

end Rows

/-! ## The routes -/

section Routes

variable {p : Platform} {server : Server} {req : Request} {b : Body} {session : Session}

theorem not_above_of_verify (hlive : server.sessions.current req = some session) {row : User}
    {level : AuthLevel} (hlevel : userLevel p row = some level)
    (hverify : server.sessions.verify req level = true) : ¬ Above p session.authLevel row := by
  rintro ⟨own, hown, hlt⟩
  obtain rfl : level = own := Option.some.inj (hlevel.symm.trans hown)
  exact absurd hlt (not_lt.mpr ((verify_iff hlive).mp hverify))

/-- A new row is above the level when its permissions are. -/
theorem not_above_newUser {username password : Text} {permissions : Value} {level : AuthLevel} :
    ¬ Above p level (newUser p username password permissions) ↔ Covers p level permissions := by
  simp only [Above, Covers, userLevel, newUser, not_exists, not_and, not_lt]

/-- A row that stood at the level or below it is only lifted by the token for
`permissions`. -/
theorem not_above_updatedUser {id : Int} {row : User} {level : AuthLevel}
    (hrow : ¬ Above p level row) :
    ¬ Above p level (updatedUser p b id row) ↔
      ∀ t, token b Field.permissions = some t → Covers p level (quoted (row.columns id) t) := by
  simp only [Above, userLevel, updatedUser] at hrow ⊢
  cases token b Field.permissions with
  | none => simpa [updated] using hrow
  | some t => simp [updated, Covers]

theorem createUser_noEscalation_iff :
    NoEscalation p session.authLevel server.database.users
        (createUser p server req b).1.database.users ↔
      (CreateAccepted server req b ∧ (createInsert p server.database.users b).isSome →
        Covers p session.authLevel (.text ((b.getElement Field.permission).getD []))) := by
  rcases createUser_cases (p := p) server req b with
    ⟨haccepted, id, users, hinsert, hresult⟩ | ⟨⟨status, -, hresult⟩, hrefused⟩
  · obtain ⟨hnone, hget⟩ := insertUser_get hinsert
    rw [hresult]
    simp only [Server.withUsers_users, hinsert, haccepted, Option.isSome_some, and_self,
      forall_const]
    rw [noEscalation_set (fun old hold => by simp [hnone] at hold) hget, not_above_newUser]
  · rw [hresult]
    simp only [hrefused, false_imp_iff, iff_true]
    exact .refl p session.authLevel server.database.users

theorem updateUser_noEscalation_iff (hlive : server.sessions.current req = some session)
    (hquoted : wellQuoted b userRelations = true) :
    NoEscalation p session.authLevel server.database.users
        (updateUser p server req b).1.database.users ↔
      ∀ id row, UpdateAccepted p server req b id row →
        userAdmissible server.database.users id (updatedUser p b id row) = true →
        ∀ t, token b Field.permissions = some t →
          Covers p session.authLevel (quoted (row.columns id) t) := by
  rcases updateUser_cases (p := p) server req b with
    ⟨id, row, database, haccepted, hupdate, hresult⟩ | ⟨hsame, -, hfailed⟩
  · rw [updateUsers_quoted hquoted haccepted.names haccepted.found] at hupdate
    obtain ⟨level, hlevel, hverify⟩ := haccepted.target
    have hold : ∀ old, server.database.users.get id = some old →
        ¬ Above p session.authLevel old := by
      intro old hget
      obtain rfl : row = old := Option.some.inj (haccepted.found.symm.trans hget)
      exact not_above_of_verify hlive hlevel hverify
    split at hupdate
    · rename_i hadmissible
      obtain rfl := Option.some.inj hupdate
      have hset : ∀ other, (server.database.users.update
            (fun id _ => p.isId id ((b.getElement Field.id).getD [])) (updatedUser p b)).get other =
          if other = id then some (updatedUser p b id row)
          else server.database.users.get other := by
        intro other
        rw [update_isId_get _ haccepted.names, haccepted.found, Option.map_some]
      rw [hresult]
      rw [noEscalation_set hold hset, not_above_updatedUser (hold row haccepted.found)]
      constructor
      · intro hnot other user haccepted' _
        obtain rfl : id = other := Value.int.inj (haccepted.names.symm.trans haccepted'.names)
        obtain rfl : row = user := Option.some.inj (haccepted.found.symm.trans haccepted'.found)
        exact hnot
      · intro hall
        exact hall id row haccepted hadmissible
    · simp at hupdate
  · rw [hsame]
    refine iff_of_true (.refl p session.authLevel server.database.users) ?_
    intro id row haccepted hadmissible
    have := hfailed id row haccepted
    rw [updateUsers_quoted hquoted haccepted.names haccepted.found, if_pos hadmissible] at this
    cases this

theorem deleteUser_noEscalation (hlive : server.sessions.current req = some session) :
    NoEscalation p session.authLevel server.database.users
      (deleteUser p server req b).1.database.users := by
  rcases deleteUser_cases (p := p) server req b with
    hsame | ⟨id, row, haccepted, hresult⟩
  · rw [hsame]
    exact .refl p session.authLevel server.database.users
  · obtain ⟨level, hlevel, hverify⟩ := haccepted.target
    rw [hresult]
    refine noEscalation_delete ?_ (delete_isId_get _ haccepted.names)
    intro old hold
    obtain rfl : row = old := Option.some.inj (haccepted.found.symm.trans hold)
    exact not_above_of_verify hlive hlevel hverify

/-- The literal `1` of the insert is the level of an employee. -/
theorem userLevel_registered (username password : Text) :
    userLevel p (newUser p username password (.int 1)) = some AuthLevel.employee := by
  have htext : p.columnText (.int 1) = ofNat 1 := rfl
  have hread : fromChars unsignedMax (ofNat 1) = some 1 := fromChars_ofNat (by decide)
  simp only [userLevel, newUser, Platform.integerAffinity, htext, hread, Option.map_some]
  rfl

theorem registerUser_onlyClients_iff {fresh : Nat} :
    OnlyClients p server.database.users (registerUser p server req b fresh).1.database.users ↔
      ¬ (b.containsAll [Field.username, Field.password] = true ∧
        (registerInsert p server.database.users b).isSome) := by
  rw [registerUser_fst]
  cases hall : b.containsAll [Field.username, Field.password] with
  | false =>
    simp only [Bool.false_eq_true, if_false, false_and, not_false_eq_true, iff_true]
    exact ⟨fun _ _ h => h, fun _ _ h => .inl h⟩
  | true =>
    rw [if_pos rfl, authenticate_database]
    cases hinsert : registerInsert p server.database.users b with
    | none =>
      simp only [registered, hinsert, Option.isSome_none, Bool.false_eq_true, and_false,
        not_false_eq_true, iff_true]
      exact ⟨fun _ _ h => h, fun _ _ h => .inl h⟩
    | some inserted =>
      obtain ⟨id, users⟩ := inserted
      obtain ⟨hnone, hget⟩ := insertUser_get hinsert
      simp only [registered, hinsert, Option.isSome_some, and_self, not_true, iff_false]
      intro honly
      rcases honly.added id _ (by rw [hget, if_pos rfl]) with hold | hclient
      · simp [hnone] at hold
      · rw [userLevel_registered] at hclient
        exact absurd (Option.some.inj hclient) (by decide)

/-- For a live session, and update values that stay inside their quotes, the four
routes keep everyone at their level exactly when no value above it is stored. -/
theorem noEscalation_iff (hlive : server.sessions.current req = some session) (fresh : Nat) :
    (NoEscalation p session.authLevel server.database.users
        (createUser p server req b).1.database.users ↔
      (CreateAccepted server req b ∧ (createInsert p server.database.users b).isSome →
        Covers p session.authLevel (.text ((b.getElement Field.permission).getD [])))) ∧
    (wellQuoted b userRelations = true →
      (NoEscalation p session.authLevel server.database.users
          (updateUser p server req b).1.database.users ↔
        ∀ id row, UpdateAccepted p server req b id row →
          userAdmissible server.database.users id (updatedUser p b id row) = true →
          ∀ t, token b Field.permissions = some t →
            Covers p session.authLevel (quoted (row.columns id) t))) ∧
    NoEscalation p session.authLevel server.database.users
      (deleteUser p server req b).1.database.users ∧
    (OnlyClients p server.database.users (registerUser p server req b fresh).1.database.users ↔
      ¬ (b.containsAll [Field.username, Field.password] = true ∧
        (registerInsert p server.database.users b).isSome)) :=
  ⟨createUser_noEscalation_iff, updateUser_noEscalation_iff hlive, deleteUser_noEscalation hlive,
    registerUser_onlyClients_iff⟩

end Routes

/-! ## An employee who becomes a superuser -/

/-- One employee, who is logged in under the ID 7. -/
def employeeServer : Server where
  database :=
    { users := (registerInsert .integers .empty
        (.ofList [(Field.username, ("bob" : Text)), (Field.password, ("pass" : Text))])).elim
          .empty (·.2) }
  sessions := Sessions.set (fun _ => none) 7 { authLevel := AuthLevel.employee, userID := 1 }

def employeeRequest : Request where
  cookie := ("auth=7" : Text)

/-- The employee's own row, with the element that is written and not checked. -/
def raiseBody : Body :=
  .ofList [(Field.id, ("1" : Text)), (Field.permissions, ("3" : Text))]

/-- A numeral of which `from_chars` reads the front only. -/
def exponentBody : Body :=
  .ofList [(Field.username, ("eve" : Text)), (Field.password, ("pass" : Text)),
    (Field.permission, ("1e1" : Text))]

theorem employeeServer_live : employeeServer.sessions.current employeeRequest =
    some { authLevel := AuthLevel.employee, userID := 1 } := by
  decide +kernel

theorem escalation :
    ¬ NoEscalation .integers AuthLevel.employee employeeServer.database.users
        (updateUser .integers employeeServer employeeRequest raiseBody).1.database.users ∧
    ¬ NoEscalation .integers AuthLevel.employee employeeServer.database.users
        (createUser .integers employeeServer employeeRequest exponentBody).1.database.users ∧
    ¬ OnlyClients .integers employeeServer.database.users
        (registerUser .integers employeeServer { cookie := [] } exponentBody 9).1.database.users := by
  refine ⟨?_, ?_, ?_⟩
  · intro h
    obtain ⟨old, hold, hlevel⟩ := h.raised 1
      (newUser .integers ("bob" : Text) ("pass" : Text) (.int 3)) 3 (by decide +kernel)
      (by decide +kernel) (by decide)
    have hbob : employeeServer.database.users.get 1 =
        some (newUser .integers ("bob" : Text) ("pass" : Text) (.int 1)) := by decide +kernel
    obtain rfl := Option.some.inj (hbob.symm.trans hold)
    revert hlevel
    decide +kernel
  · intro h
    obtain ⟨old, hold, -⟩ := h.raised 2
      (newUser .integers ("eve" : Text) ("pass" : Text) (.int 10)) 10 (by decide +kernel)
      (by decide +kernel) (by decide)
    have hnone : employeeServer.database.users.get 2 = none := by decide +kernel
    rw [hnone] at hold
    cases hold
  · intro h
    have hadded := h.added 2 (newUser .integers ("eve" : Text) ("pass" : Text) (.int 1))
      (by decide +kernel)
    revert hadded
    decide +kernel

/-- The same employee may set a name: nothing above the level is stored. -/
theorem noEscalation_rename :
    NoEscalation .integers AuthLevel.employee employeeServer.database.users
      (updateUser .integers employeeServer employeeRequest
        (.ofList [(Field.id, ("1" : Text)), (Field.username, ("rob" : Text))])).1.database.users := by
  refine ((noEscalation_iff employeeServer_live 9).2.1 (by decide +kernel)).mpr ?_
  intro id row _ _ t htoken
  have hnone : token (.ofList [(Field.id, ("1" : Text)), (Field.username, ("rob" : Text))])
      Field.permissions = none := by decide +kernel
  rw [hnone] at htoken
  cases htoken

end WFA
