-- SUMMARY: What the user routes can do to the server: one inversion lemma for each of them.
import WFA.Server.User

/-!
# The effects of the user routes

Each lemma says everything its handler can do: leave the server as it is, or make
one change to `USERS`, with every check that was passed on the way.
-/

namespace WFA

open Text

/-- The server with another table of users. -/
def Server.withUsers (server : Server) (users : Table User) : Server :=
  { server with database := { server.database with users } }

@[simp] theorem Server.withUsers_users (server : Server) (users : Table User) :
    (server.withUsers users).database.users = users := rfl

@[simp] theorem Server.withUsers_sessions (server : Server) (users : Table User) :
    (server.withUsers users).sessions = server.sessions := rfl

theorem verify_iff {sessions : Sessions} {req : Request} {level : AuthLevel} {session : Session}
    (h : sessions.current req = some session) :
    sessions.verify req level = true ↔ level ≤ session.authLevel := by
  simp [Sessions.verify, h]

/-- A passed check names a live session. -/
theorem current_of_verify {sessions : Sessions} {req : Request} {level : AuthLevel}
    (h : sessions.verify req level = true) : ∃ session, sessions.current req = some session := by
  unfold Sessions.verify at h
  cases hcurrent : sessions.current req with
  | none => simp [hcurrent] at h
  | some session => exact ⟨session, rfl⟩

section Effects

variable {p : Platform}

/-! ## Inserting -/

/-- The row an `INSERT` of bound texts makes. -/
def newUser (p : Platform) (username password : Text) (permissions : Value) : User where
  username := .text username
  password := .text password
  permissions := p.integerAffinity permissions

theorem insertUser_eq_some {users users' : Table User} {username password : Text}
    {permissions : Value} {id : Int}
    (h : insertUser p users username password permissions = some (id, users')) :
    users.insert (newUser p username password permissions) = some (id, users') ∧
      ∀ other user, users.get other = some user → user.username ≠ .text username := by
  unfold insertUser at h
  split at h
  · rename_i hfree
    refine ⟨h, ?_⟩
    intro other user hget hname
    have hmem : (other, user) ∈ users.select fun _ user => user.username == .text username :=
      users.mem_select.mpr ⟨hget, by simp [hname]⟩
    rw [List.isEmpty_iff.mp hfree] at hmem
    simp at hmem
  · simp at h

/-- What a successful `INSERT` leaves: the new row under a new rowid. -/
theorem insertUser_get {users users' : Table User} {username password : Text}
    {permissions : Value} {id : Int}
    (h : insertUser p users username password permissions = some (id, users')) :
    users.get id = none ∧ ∀ other, users'.get other =
      if other = id then some (newUser p username password permissions) else users.get other := by
  obtain ⟨hinsert, -⟩ := insertUser_eq_some h
  refine ⟨?_, Table.get_insert hinsert⟩
  rw [Table.insert_id hinsert]
  exact users.get_nextId

/-- The checks `createUser` makes before its statement. -/
structure CreateAccepted (server : Server) (req : Request) (b : Body) : Prop where
  fields : b.containsAll [Field.username, Field.password, Field.permission] = true
  employee : server.sessions.verify req AuthLevel.employee = true
  permission : ∃ level, requestedLevel ((b.getElement Field.permission).getD []) = some level ∧
    server.sessions.verify req level = true

/-- The statement of `createUser`. -/
def createInsert (p : Platform) (users : Table User) (b : Body) : Option (Int × Table User) :=
  insertUser p users ((b.getElement Field.username).getD []) ((b.getElement Field.password).getD [])
    (.text ((b.getElement Field.permission).getD []))

theorem createUser_cases (server : Server) (req : Request) (b : Body) :
    (CreateAccepted server req b ∧ ∃ id users,
      createInsert p server.database.users b = some (id, users) ∧
        createUser p server req b = (server.withUsers users, .reply .ok none)) ∨
    (∃ status, status ≠ .ok ∧ createUser p server req b = (server, .reply status none)) ∧
      ¬ (CreateAccepted server req b ∧ (createInsert p server.database.users b).isSome) := by
  unfold createUser
  split
  · rename_i hfields
    refine .inr ⟨⟨_, by simp, rfl⟩, ?_⟩
    rintro ⟨haccepted, -⟩
    simp [haccepted.fields] at hfields
  · rename_i hfields
    cases hlevel : requestedLevel ((b.getElement Field.permission).getD []) with
    | none =>
      refine .inr ⟨⟨_, by simp, rfl⟩, ?_⟩
      rintro ⟨haccepted, -⟩
      obtain ⟨level, hsome, -⟩ := haccepted.permission
      simp [hlevel] at hsome
    | some level =>
      simp only
      split
      · rename_i hverify
        refine .inr ⟨⟨_, by simp, rfl⟩, ?_⟩
        rintro ⟨haccepted, -⟩
        obtain ⟨found, hsome, hfound⟩ := haccepted.permission
        obtain rfl : level = found := by simpa [hlevel] using hsome
        simp [haccepted.employee, hfound] at hverify
      · rename_i hverify
        simp only [Bool.or_eq_true, Bool.not_eq_eq_eq_not, Bool.not_true, not_or,
          Bool.not_eq_false] at hverify
        have haccepted : CreateAccepted server req b :=
          ⟨by simpa using hfields, hverify.1, level, hlevel, hverify.2⟩
        cases hinsert : createInsert p server.database.users b with
        | none =>
          refine .inr ⟨⟨.internalError, by simp, ?_⟩, by simp⟩
          unfold createInsert at hinsert
          rw [hinsert]
        | some inserted =>
          refine .inl ⟨haccepted, inserted.1, inserted.2, rfl, ?_⟩
          unfold createInsert at hinsert
          rw [hinsert]
          rfl

/-! ## Deleting -/

/-- The checks `deleteUser` makes before its statement, on the row with the
rowid `id`. -/
structure DeleteAccepted (p : Platform) (server : Server) (req : Request) (b : Body) (id : Int)
    (row : User) : Prop where
  key : b.hasElement Field.id = true
  employee : server.sessions.verify req AuthLevel.employee = true
  names : p.numeric ((b.getElement Field.id).getD []) = .int id
  found : server.database.users.get id = some row
  target : ∃ level, userLevel p row = some level ∧ server.sessions.verify req level = true

theorem deleteUser_cases (server : Server) (req : Request) (b : Body) :
    (deleteUser p server req b).1 = server ∨
    ∃ id row, DeleteAccepted p server req b id row ∧
      (deleteUser p server req b).1 = server.withUsers
        (server.database.users.delete fun other _ =>
          p.isId other ((b.getElement Field.id).getD [])) := by
  unfold deleteUser
  split
  · exact .inl rfl
  · rename_i hkey
    split
    · exact .inl rfl
    · rename_i hemployee
      rcases p.select_isId server.database.users ((b.getElement Field.id).getD []) with
        ⟨hselect, -⟩ | ⟨id, row, hselect, hget, hid⟩
      · simp only [hselect]
        exact .inl trivial
      · simp only [hselect]
        cases hlevel : userLevel p row with
        | none => exact .inl rfl
        | some level =>
          simp only
          split
          · exact .inl rfl
          · rename_i hverify
            exact .inr ⟨id, row, ⟨by simpa using hkey, by simpa using hemployee, hid, hget, level,
              hlevel, by simpa using hverify⟩, rfl⟩

theorem deleteUser_of_accepted {server : Server} {req : Request} {b : Body} {id : Int} {row : User}
    (h : DeleteAccepted p server req b id row) :
    (deleteUser p server req b).1 = server.withUsers
      (server.database.users.delete fun other _ =>
        p.isId other ((b.getElement Field.id).getD [])) := by
  obtain ⟨level, hlevel, hverify⟩ := h.target
  have hselect : (server.database.users.select fun other _ =>
      p.isId other ((b.getElement Field.id).getD [])) = [(id, row)] := by
    refine server.database.users.select_eq_singleton h.found (by simp [p.isId_eq h.names]) ?_
    intro other _ _ hother
    simpa [p.isId_eq h.names] using hother
  simp [deleteUser, h.key, h.employee, hselect, hlevel, hverify, Server.withUsers]

/-- What a deletion leaves. -/
theorem delete_isId_get {α : Type} (t : Table α) {key : Text} {id : Int} (hid : p.numeric key = .int id)
    (other : Int) :
    (t.delete fun other _ => p.isId other key).get other =
      if other = id then none else t.get other := by
  rw [Table.get_delete]
  split
  · rename_i heq
    subst heq
    cases t.get other <;> simp [p.isId_eq hid]
  · rename_i hne
    cases t.get other <;> simp [p.isId_eq hid, hne]

/-! ## Updating -/

/-- The checks `updateUser` makes before its statement, on the row with the
rowid `id`. -/
structure UpdateAccepted (p : Platform) (server : Server) (req : Request) (b : Body) (id : Int)
    (row : User) : Prop where
  key : b.hasElement Field.id = true
  employee : server.sessions.verify req AuthLevel.employee = true
  permission : refusedPermission server req b = none
  names : p.numeric ((b.getElement Field.id).getD []) = .int id
  found : server.database.users.get id = some row
  target : ∃ level, userLevel p row = some level ∧ server.sessions.verify req level = true
  clause : (generateUpdateStatement b userRelations).isEmpty = false

/-- Either the checks pass and the statement runs, or the server is as before. -/
theorem updateUser_cases (server : Server) (req : Request) (b : Body) :
    (∃ id row database, UpdateAccepted p server req b id row ∧
      updateUsers p server.database b ((b.getElement Field.id).getD []) = some database ∧
      updateUser p server req b = ({ server with database }, .reply .ok none)) ∨
    ((updateUser p server req b).1 = server ∧
      (∀ response, (updateUser p server req b).2 = .reply .ok response →
        (generateUpdateStatement b userRelations).isEmpty = true) ∧
      ∀ id row, UpdateAccepted p server req b id row →
        updateUsers p server.database b ((b.getElement Field.id).getD []) = none) := by
  unfold updateUser
  split
  · rename_i hkey
    refine .inr ⟨rfl, by simp, ?_⟩
    intro id row haccepted
    simp [haccepted.key] at hkey
  · rename_i hkey
    split
    · rename_i hemployee
      refine .inr ⟨rfl, by simp, ?_⟩
      intro id row haccepted
      simp [haccepted.employee] at hemployee
    · rename_i hemployee
      cases hrefused : refusedPermission server req b with
      | some status =>
        refine .inr ⟨rfl, ?_, ?_⟩
        · intro response hok
          unfold refusedPermission at hrefused
          obtain ⟨rfl, -⟩ := Ending.reply.inj hok
          split at hrefused
          · split at hrefused
            · simp at hrefused
            · split at hrefused <;> simp at hrefused
          · simp at hrefused
        · intro id row haccepted
          simp [haccepted.permission] at hrefused
      | none =>
        rcases p.select_isId server.database.users ((b.getElement Field.id).getD []) with
          ⟨hselect, hnone⟩ | ⟨id, row, hselect, hget, hid⟩
        · simp only [hselect]
          refine .inr ⟨trivial, by simp, ?_⟩
          intro id row haccepted
          have := hnone id row haccepted.found
          simp [Platform.isId, haccepted.names] at this
        · simp only [hselect]
          -- The row of any accepted request is the one that was selected.
          have honly : ∀ other user, UpdateAccepted p server req b other user → user = row := by
            intro other user haccepted
            obtain rfl : id = other := Value.int.inj (hid.symm.trans haccepted.names)
            exact Option.some.inj (haccepted.found.symm.trans hget)
          cases hlevel : userLevel p row with
          | none =>
            refine .inr ⟨rfl, by simp, ?_⟩
            intro other user haccepted
            obtain ⟨level, hsome, -⟩ := haccepted.target
            simp [honly other user haccepted, hlevel] at hsome
          | some level =>
            simp only
            split
            · rename_i hverify
              refine .inr ⟨rfl, by simp, ?_⟩
              intro other user haccepted
              obtain ⟨found, hsome, hfound⟩ := haccepted.target
              rw [honly other user haccepted, hlevel, Option.some.injEq] at hsome
              subst hsome
              simp [hfound] at hverify
            · rename_i hverify
              split
              · rename_i hempty
                refine .inr ⟨rfl, fun _ _ => hempty, ?_⟩
                intro other user haccepted
                simp [haccepted.clause] at hempty
              · rename_i hclause
                cases hupdate : updateUsers p server.database b
                    ((b.getElement Field.id).getD []) with
                | none => exact .inr ⟨rfl, by simp, fun _ _ _ => rfl⟩
                | some database =>
                  refine .inl ⟨id, row, database, ?_, rfl, rfl⟩
                  exact ⟨by simpa using hkey, by simpa using hemployee, hrefused, hid, hget,
                    ⟨level, hlevel, by simpa using hverify⟩, by simpa using hclause⟩

/-- A statement of quoted values changes the row with the bound rowid, when the
new row keeps its constraints. -/
theorem updateUsers_quoted {database : Database} {b : Body} {key : Text} {id : Int} {row : User}
    (hquoted : wellQuoted b userRelations = true) (hid : p.numeric key = .int id)
    (hget : database.users.get id = some row) :
    updateUsers p database b key =
      if userAdmissible database.users id (updatedUser p b id row) then
        some { database with
          users := database.users.update (fun id _ => p.isId id key) (updatedUser p b) }
      else none := by
  rcases p.select_isId database.users key with ⟨-, hnone⟩ | ⟨found, user, hselect, hfound, hkey⟩
  · have := hnone id row hget
    simp [Platform.isId, hid] at this
  · obtain rfl : found = id := Value.int.inj (hkey.symm.trans hid)
    obtain rfl : user = row := Option.some.inj (hfound.symm.trans hget)
    unfold updateUsers
    simp [hquoted, hselect]

theorem update_isId_get {α : Type} (t : Table α) {key : Text} {id : Int} {f : Int → α → α}
    (hid : p.numeric key = .int id) (other : Int) :
    (t.update (fun other _ => p.isId other key) f).get other =
      if other = id then (t.get id).map (f id) else t.get other := by
  rw [Table.get_update]
  by_cases heq : other = id
  · subst heq
    simp [p.isId_eq hid]
  · simp [p.isId_eq hid, heq]

end Effects

end WFA
