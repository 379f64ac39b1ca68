-- SUMMARY: Runs of the requests that concern users, and the event each step is for the table `USERS`.
import WFA.Base.Run
import WFA.Server.UserEffects

/-!
# Runs over `USERS`

One step of the server is a start of the program, a request to one of the routes
that concern users, or a request to any other route. `userEvent` reads off the
answer of a step what it did to `USERS`: at most one row is inserted, updated or
deleted. `userStep_describes` says that the table changes in this way and in no
other, and every invariant about users is a case analysis of it.
-/

namespace WFA

open Text

/-! ## Actions -/

inductive UserAction where
  /-- The program starts: `main` inserts the administrator, and there are no sessions. -/
  | start
  | authenticate (req : Request) (b : Body) (fresh : Nat)
  | registerUser (req : Request) (b : Body) (fresh : Nat)
  | deauthenticate (req : Request)
  | createUser (req : Request) (b : Body)
  | updateUser (req : Request) (b : Body)
  | deleteUser (req : Request) (b : Body)
  /-- A request to a route that leaves the users and the sessions alone, and
  anything else of the database like this. -/
  | other (database : Database)

/-- No value of an update leaves its quotes. -/
def UserAction.quoted : UserAction → Bool
  | .updateUser _ b => wellQuoted b userRelations
  | _ => true

def userStep (p : Platform) (server : Server) : UserAction → Server
  | .start =>
    { database := { server.database with
        users := (insertAdmin p server.database.users).getD server.database.users }
      sessions := fun _ => none }
  | .authenticate req b fresh => (authenticate p server req b fresh).1
  | .registerUser req b fresh => (registerUser p server req b fresh).1
  | .deauthenticate req => (deauthenticate server req).1
  | .createUser req b => (createUser p server req b).1
  | .updateUser req b => (updateUser p server req b).1
  | .deleteUser req b => (deleteUser p server req b).1
  | .other database => { server with database := { database with users := server.database.users } }

/-! ## Events -/

/-- The statement that set a password. -/
inductive Writer where
  | main
  | registerUser
  | createUser
  | updateUser
  /-- `updateUser`, when the text is the name of a column: what is stored is the
  value of that column. -/
  | column (value : Value)
  deriving DecidableEq, Repr

/-- What a writer stores for a password. -/
def Writer.stored (p : Platform) (password : Text) : Writer → Value
  | .main => .text (hash password)
  | .registerUser | .createUser => .text password
  | .updateUser => .text ((unquote password).getD [])
  | .column value => p.textAffinity value

inductive UserEvent where
  | none
  | inserted (id : Int) (row : User) (writer : Writer) (password : Text)
  /-- The row with this rowid became `row`, and its password was set or not. -/
  | updated (id : Int) (row : User) (set : Option (Writer × Text))
  | deleted (id : Int)
  deriving DecidableEq, Repr

/-- The password that a request to `updateUser` sets in a row. -/
def passwordSet (b : Body) (id : Int) (row : User) : Option (Writer × Text) :=
  (assigned b Field.password).map fun password =>
    match (row.columns id).find? (·.1 == lower ((unquote password).getD [])) with
    | some column => (.column column.2, password)
    | none => (.updateUser, password)

def adminUser (p : Platform) : User where
  username := .text adminName
  password := .text (hash adminName)
  permissions := p.integerAffinity (.int 3)

/-- The row that an insert with this outcome made. -/
def insertEvent (p : Platform) (b : Body) (permissions : Value) (writer : Writer) :
    Option (Int × Table User) → UserEvent
  | none => .none
  | some (id, _) =>
    .inserted id
      (newUser p ((b.getElement Field.username).getD []) ((b.getElement Field.password).getD [])
        permissions)
      writer ((b.getElement Field.password).getD [])

/-- What a step did to `USERS`, by what it answered. -/
def userEvent (p : Platform) (server : Server) : UserAction → UserEvent
  | .start =>
    match insertAdmin p server.database.users with
    | none => .none
    | some _ => .inserted 0 (adminUser p) .main adminName
  | .registerUser _ b _ =>
    if b.containsAll [Field.username, Field.password] then
      insertEvent p b (.int 1) .registerUser (registerInsert p server.database.users b)
    else .none
  | .createUser req b =>
    match (createUser p server req b).2 with
    | .reply .ok _ =>
      insertEvent p b (.text ((b.getElement Field.permission).getD [])) .createUser
        (createInsert p server.database.users b)
    | _ => .none
  | .updateUser req b =>
    match (updateUser p server req b).2, p.numeric ((b.getElement Field.id).getD []) with
    | .reply .ok _, .int id =>
      match server.database.users.get id with
      | some row =>
        if (generateUpdateStatement b userRelations).isEmpty then .none
        else .updated id (updatedUser p b id row) (passwordSet b id row)
      | none => .none
    | _, _ => .none
  | .deleteUser req b =>
    match p.numeric ((b.getElement Field.id).getD []) with
    | .int id =>
      -- The answer is the same whether there was a row to delete or not.
      if (server.database.users.get id).isSome &&
          ((deleteUser p server req b).1.database.users.get id).isNone then
        .deleted id
      else .none
    | _ => .none
  | .authenticate _ _ _ | .deauthenticate _ | .other _ => .none

/-- No other row has the name of this one. -/
def NameFree (users : Table User) (id : Int) (row : User) : Prop :=
  ∀ other user, other ≠ id → users.get other = some user → user.username ≠ row.username

/-- The password of a row after an update of it. -/
def PasswordAfter (p : Platform) (old row : User) : Option (Writer × Text) → Prop
  | none => row.password = old.password
  | some (writer, password) => password ≠ [] ∧ row.password = writer.stored p password

/-- What an event says about the users before and after it. -/
inductive UserEvent.Describes (p : Platform) (users users' : Table User) : UserEvent → Prop
  | none (hsame : users' = users) : Describes p users users' .none
  | inserted {id : Int} {row : User} {writer : Writer} {password : Text}
      (hid : id = 0 ∨ id = users.nextId) (hnew : users.get id = Option.none)
      (hfree : NameFree users id row) (hne : password ≠ [])
      (hpassword : row.password = writer.stored p password)
      (hget : ∀ other, users'.get other = if other = id then some row else users.get other) :
      Describes p users users' (.inserted id row writer password)
  | updated {id : Int} {old row : User} {set : Option (Writer × Text)}
      (hold : users.get id = some old) (hfree : NameFree users id row)
      (hpassword : PasswordAfter p old row set)
      (hget : ∀ other, users'.get other = if other = id then some row else users.get other) :
      Describes p users users' (.updated id row set)
  | deleted {id : Int} {old : User} (hold : users.get id = some old)
      (hget : ∀ other, users'.get other =
        if other = id then Option.none else users.get other) :
      Describes p users users' (.deleted id)

section Steps

variable {p : Platform} {server : Server}

theorem getElement_ne_nil {b : Body} {names : List Text} {name : Text}
    (h : b.containsAll names = true) (hmem : name ∈ names) : (b.getElement name).getD [] ≠ [] := by
  obtain ⟨value, hget, hne⟩ := QueryBase.hasElement_iff.mp (List.all_eq_true.mp h name hmem)
  simpa [hget] using hne

/-- An insert of bound texts is the event it is read as. -/
theorem describes_insert {b : Body} {permissions : Value} {writer : Writer}
    (hpassword : (b.getElement Field.password).getD [] ≠ [])
    (hwriter : ∀ password, writer.stored p password = .text password)
    {users users' : Table User} {id : Int}
    (hinsert : insertUser p users ((b.getElement Field.username).getD [])
      ((b.getElement Field.password).getD []) permissions = some (id, users')) :
    (insertEvent p b permissions writer (some (id, users'))).Describes p users users' := by
  obtain ⟨htable, hfree⟩ := insertUser_eq_some hinsert
  obtain ⟨hnew, hget⟩ := insertUser_get hinsert
  refine .inserted (.inr (Table.insert_id htable)) hnew ?_ hpassword ?_ hget
  · intro other user _ hother
    exact hfree other user hother
  · exact (hwriter _).symm

theorem start_describes :
    (userEvent p server .start).Describes p server.database.users
      (userStep p server .start).database.users := by
  simp only [userEvent, userStep]
  cases hinsert : insertAdmin p server.database.users with
  | none => exact .none rfl
  | some users =>
    unfold insertAdmin at hinsert
    split at hinsert
    · rename_i hfree
      refine .inserted (.inl rfl) (Table.insertAt_isNone hinsert) ?_ (by decide +kernel) rfl
        (Table.get_insertAt hinsert)
      intro other user _ hget hname
      have hmem : (other, user) ∈ server.database.users.select
          fun _ user => user.username == .text adminName :=
        server.database.users.mem_select.mpr ⟨hget, by simp [hname, adminUser]⟩
      rw [List.isEmpty_iff.mp hfree] at hmem
      simp at hmem
    · simp at hinsert

theorem registerUser_describes {req : Request} {b : Body} {fresh : Nat} :
    (userEvent p server (.registerUser req b fresh)).Describes p server.database.users
      (userStep p server (.registerUser req b fresh)).database.users := by
  simp only [userEvent, userStep, registerUser_fst]
  split
  · rename_i hall
    rw [authenticate_database]
    unfold registered
    cases hinsert : registerInsert p server.database.users b with
    | none => exact .none rfl
    | some inserted =>
      obtain ⟨id, users⟩ := inserted
      exact describes_insert (getElement_ne_nil hall (by simp)) (fun _ => rfl) hinsert
  · exact .none rfl

theorem createUser_describes {req : Request} {b : Body} :
    (userEvent p server (.createUser req b)).Describes p server.database.users
      (userStep p server (.createUser req b)).database.users := by
  simp only [userEvent, userStep]
  rcases createUser_cases (p := p) server req b with
    ⟨haccepted, id, users, hinsert, hresult⟩ | ⟨⟨status, hstatus, hresult⟩, -⟩
  · rw [hresult, hinsert]
    exact describes_insert (getElement_ne_nil haccepted.fields (by simp)) (fun _ => rfl) hinsert
  · rw [hresult]
    cases status with
    | ok => exact absurd rfl hstatus
    | _ => exact .none rfl

theorem deleteUser_describes {req : Request} {b : Body} :
    (userEvent p server (.deleteUser req b)).Describes p server.database.users
      (userStep p server (.deleteUser req b)).database.users := by
  simp only [userEvent, userStep]
  rcases deleteUser_cases (p := p) server req b with hsame | ⟨id, row, haccepted, hresult⟩
  · rw [hsame]
    split
    · split
      · rename_i hboth
        simp only [Bool.and_eq_true, Option.isSome_iff_ne_none, Option.isNone_iff_eq_none] at hboth
        exact absurd hboth.2 hboth.1
      · exact .none rfl
    · exact .none rfl
  · have hget := delete_isId_get server.database.users haccepted.names
    rw [hresult, haccepted.names]
    simp only [Server.withUsers_users, hget id, haccepted.found, if_true, Option.isSome_some,
      Option.isNone_none, Bool.and_self]
    exact .deleted haccepted.found hget

theorem nameFree_of_admissible {users : Table User} {id : Int} {row : User}
    (h : userAdmissible users id row = true) : NameFree users id row := by
  intro other user hne hget hname
  simp only [userAdmissible, Bool.and_eq_true, List.isEmpty_iff] at h
  have hmem : (other, user) ∈ users.select
      fun other user => other != id && user.username == row.username :=
    users.mem_select.mpr ⟨hget, by simp [hne, hname]⟩
  rw [h.2] at hmem
  simp at hmem

/-- The quotes of a value keep something between them. -/
theorem passwordAfter_updatedUser {b : Body} {id : Int} {row : User}
    (hquoted : wellQuoted b userRelations = true) :
    PasswordAfter p row (updatedUser p b id row) (passwordSet b id row) := by
  unfold passwordSet updatedUser token
  cases hassigned : assigned b Field.password with
  | none => rfl
  | some password =>
    have hne : password ≠ [] := by
      unfold assigned at hassigned
      split at hassigned
      · rename_i hhas
        obtain ⟨value, hget, hvalue⟩ := QueryBase.hasElement_iff.mp hhas
        obtain rfl : value = password := Option.some.inj (hget.symm.trans hassigned)
        exact hvalue
      · simp at hassigned
    have hrelation : (Field.password, ("PASSWORD" : Text)) ∈ userRelations := by
      simp [userRelations]
    obtain ⟨t, ht⟩ := Option.isSome_iff_exists.mp (isSome_unquote hquoted hrelation hassigned)
    simp only [Option.map_some, Option.bind_some, ht, Option.getD_some, updated]
    unfold quoted
    cases (row.columns id).find? (·.1 == lower t) with
    | none => exact ⟨hne, by simp [Writer.stored, ht, Platform.textAffinity]⟩
    | some column => exact ⟨hne, rfl⟩

theorem updateUser_describes {req : Request} {b : Body}
    (hquoted : wellQuoted b userRelations = true) :
    (userEvent p server (.updateUser req b)).Describes p server.database.users
      (userStep p server (.updateUser req b)).database.users := by
  simp only [userEvent, userStep]
  rcases updateUser_cases (p := p) server req b with
    ⟨id, row, database, haccepted, hupdate, hresult⟩ | ⟨hsame, hempty, -⟩
  · rw [updateUsers_quoted hquoted haccepted.names haccepted.found] at hupdate
    split at hupdate
    · rename_i hadmissible
      obtain rfl := Option.some.inj hupdate
      rw [hresult, haccepted.names]
      simp only [haccepted.found, haccepted.clause, Bool.false_eq_true, if_false]
      refine .updated haccepted.found (nameFree_of_admissible hadmissible)
        (passwordAfter_updatedUser hquoted) ?_
      intro other
      rw [update_isId_get _ haccepted.names, haccepted.found, Option.map_some]
    · simp at hupdate
  · rw [hsame]
    split
    · rename_i response id hreply hid
      split
      · simp only [hempty response hreply, if_true]
        exact .none rfl
      · exact .none rfl
    · exact .none rfl

/-- A step changes `USERS` as its event says. -/
theorem userStep_describes {action : UserAction} (hquoted : action.quoted = true) :
    (userEvent p server action).Describes p server.database.users
      (userStep p server action).database.users := by
  cases action with
  | start => exact start_describes
  | authenticate req b fresh => exact .none (by rw [userStep, authenticate_database])
  | registerUser req b fresh => exact registerUser_describes
  | deauthenticate req => exact .none (by rw [userStep, deauthenticate_fst])
  | createUser req b => exact createUser_describes
  | updateUser req b => exact updateUser_describes hquoted
  | deleteUser req b => exact deleteUser_describes
  | other database => exact .none rfl

end Steps

end WFA
