-- SUMMARY: The routes that create, read, delete and update users.
import WFA.Server.Auth
import WFA.Server.UpdateTargets

/-!
# Users

`Server/include/WebRoutes/User.h`.
-/

namespace WFA

open Text

section User

variable (p : Platform)

/-- The permission text of a request: what `from_chars` reads of it, as a level. -/
def requestedLevel (t : Text) : Option AuthLevel :=
  (fromChars unsignedMax t).map AuthLevel.ofUnsigned

def createUser (server : Server) (req : Request) (b : Body) : Server × Ending :=
  if !b.containsAll [Field.username, Field.password, Field.permission] then
    (server, .reply .badRequest none)
  else
    match requestedLevel ((b.getElement Field.permission).getD []) with
    | none => (server, .reply .badRequest none)
    | some level =>
      if !server.sessions.verify req AuthLevel.employee || !server.sessions.verify req level then
        (server, .reply .forbidden none)
      else
        match insertUser p server.database.users ((b.getElement Field.username).getD [])
            ((b.getElement Field.password).getD [])
            (.text ((b.getElement Field.permission).getD [])) with
        | none => (server, .reply .internalError none)
        | some (_, users) =>
          ({ server with database := { server.database with users } }, .reply .ok none)

/-! ## The user of a session -/

/-- `add` of one text for each of some new keys. -/
def ResponseWrapper.ofFields (fields : List (Text × Text)) : ResponseWrapper :=
  .mk (fields.map fun field => (field.1, .strings [field.2])) (fields.map fun _ => false)

/-- `add(key, …, true)` of each of some records under a new key, which stays out
when there is none. -/
def ResponseWrapper.addAll (w : ResponseWrapper) (key : Text) (records : List ResponseWrapper) :
    ResponseWrapper :=
  if records.isEmpty then w else w.push key (.objects records) true

/-- The vehicles of an owner, each joined with its shared data. -/
def vehiclesOf (database : Database) (owner : Text) : List (Int × Vehicle × VehicleShared) :=
  (database.vehicles.select fun _ vehicle => vehicle.owner == p.numeric owner).flatMap fun vehicle =>
    (database.vehicleShared.select fun id _ => vehicle.2.base == .int id).map fun shared =>
      (vehicle.1, vehicle.2, shared.2)

def vehicleRecord (row : Int × Vehicle × VehicleShared) : ResponseWrapper :=
  .ofFields
    [(("ID" : Text), p.columnText (.int row.1)), (("Plate" : Text), p.columnText row.2.1.plate),
      (("Make" : Text), p.columnText row.2.2.make), (("Model" : Text), p.columnText row.2.2.model),
      (("Year" : Text), p.columnText row.2.1.year), (("Colour" : Text), p.columnText row.2.1.colour)]

/-- `add(key, …)` of each of some records under a new key. -/
def ResponseWrapper.addEach (w : ResponseWrapper) (key : Text) (records : List ResponseWrapper) :
    ResponseWrapper :=
  if records.isEmpty then w else w.push key (.objects records) false

def userRecord (row : Int × User) : ResponseWrapper :=
  .ofFields
    [(("ID" : Text), p.columnText (.int row.1)), (("Username" : Text), p.columnText row.2.username),
      (("Permissions" : Text), p.columnText row.2.permissions)]

/-- What a session is told of its user. -/
def localUser (database : Database) (user : Nat) (row : Int × User) : ResponseWrapper :=
  (userRecord p row).addAll ("Vehicles" : Text)
    ((vehiclesOf p database (ofNat user)).map (vehicleRecord p))

def getLocalUserData (server : Server) (req : Request) : Server × Ending :=
  match server.sessions.getSessionUser req with
  -- Either an invalid session or invalid user, regardless this is an authentication error.
  | none => (server, .reply .unauthorised none)
  | some user =>
    -- The first row of the result is read without a look at their number.
    match server.database.users.select fun id _ => p.isId id (ofNat user) with
    | [] => (server, .undefined)
    | (id, row) :: _ =>
      (server, .reply .ok (some (localUser p server.database user (id, row))))

/-! ## Looking users up -/

/-- `SELECT … WHERE USERNAME LIKE :USR ORDER BY USERNAME`. -/
def usersLike (database : Database) (pattern : Text) : List (Int × User) :=
  (database.users.select fun _ user => p.like user.username pattern).mergeSort
    fun a b => p.atMost a.2.username b.2.username

def vehicleSummary (row : Int × Vehicle × VehicleShared) : ResponseWrapper :=
  .ofFields
    [(("Vehicle plate" : Text), p.columnText row.2.1.plate),
      (("Vehicle Make" : Text), p.columnText row.2.2.make),
      (("Vehicle Model" : Text), p.columnText row.2.2.model),
      (("Vehicle Year" : Text), p.columnText row.2.1.year),
      (("Vehicle Colour" : Text), p.columnText row.2.1.colour)]

/-- `generateLIKEArgument`. -/
def generateLIKEArgument (val : Text) : Text :=
  ('%' : Byte) :: (val ++ [('%' : Byte)])

/-- The answer that shows the first row of a result. -/
def Ending.ofFirst {α : Type} (rows : List α) (record : α → ResponseWrapper) : Ending :=
  match rows with
  | [] => .reply .notFound none
  | row :: _ => .reply .ok (some (record row))

@[simp] theorem Ending.ofFirst_cons {α : Type} (row : α) (rest : List α)
    (record : α → ResponseWrapper) :
    Ending.ofFirst (row :: rest) record = .reply .ok (some (record row)) := rfl

/-- The answer that shows each row of a result. -/
def Ending.ofRows {α : Type} (rows : List α) (record : List α → ResponseWrapper) : Ending :=
  if rows.isEmpty then .reply .notFound none else .reply .ok (some (record rows))

/-- What a search tells of a user. -/
def foundUser (database : Database) (row : Int × User) : ResponseWrapper :=
  (userRecord p row).addAll ("Vehicles" : Text)
    ((vehiclesOf p database (p.columnText (.int row.1))).map (vehicleSummary p))

def selectedUser (database : Database) (row : Int × User) : ResponseWrapper :=
  (userRecord p row).addAll ("Vehicles" : Text)
    ((vehiclesOf p database (p.columnText (.int row.1))).map (vehicleRecord p))

def userList (database : Database) (rows : List (Int × User)) : ResponseWrapper :=
  ResponseWrapper.empty.addEach ("Users" : Text) (rows.map (foundUser p database))

def searchUsers (server : Server) (req : Request) (q : Query) : Ending :=
  if !q.hasElementOrEmpty Field.username then .reply .badRequest none
  else if !server.sessions.verify req AuthLevel.employee then .reply .forbidden none
  else
    Ending.ofRows (usersLike p server.database
      (generateLIKEArgument ((q.getElement Field.username).getD []))) (userList p server.database)

def selectUser (server : Server) (req : Request) (q : Query) : Ending :=
  if !q.hasElement Field.id then .reply .badRequest none
  else if !server.sessions.verify req AuthLevel.employee then .reply .forbidden none
  else
    Ending.ofFirst (server.database.users.select fun id _ =>
      p.isId id ((q.getElement Field.id).getD [])) (selectedUser p server.database)

/-! ## Deleting -/

def deleteUser (server : Server) (req : Request) (b : Body) : Server × Ending :=
  if !b.hasElement Field.id then (server, .reply .badRequest none)
  else if !server.sessions.verify req AuthLevel.employee then (server, .reply .forbidden none)
  else
    let key := (b.getElement Field.id).getD []
    match server.database.users.select fun id _ => p.isId id key with
    -- Nothing to delete.
    | [] => (server, .reply .ok none)
    | (_, row) :: _ =>
      match userLevel p row with
      | none => (server, .reply .internalError none)
      | some level =>
        if !server.sessions.verify req level then (server, .reply .forbidden none)
        else
          let users := server.database.users.delete fun id _ => p.isId id key
          ({ server with database := { server.database with users } }, .reply .ok none)

/-! ## Updating -/

/-- The elements of the form and the columns they go to. -/
def userRelations : List (Text × Text) :=
  [(Field.username, ("USERNAME" : Text)), (Field.password, ("PASSWORD" : Text)),
    (Field.permissions, ("PERMISSIONS" : Text))]

/-- The row an `UPDATE` of quoted values makes of a row. -/
def updatedUser (b : Body) (id : Int) (row : User) : User where
  username := updated p.textAffinity (row.columns id) row.username (token b Field.username)
  password := updated p.textAffinity (row.columns id) row.password (token b Field.password)
  permissions :=
    updated p.integerAffinity (row.columns id) row.permissions (token b Field.permissions)

/-- The row keeps its constraints: no column is null, and no other row has its
name. -/
def userAdmissible (users : Table User) (id : Int) (row : User) : Bool :=
  row.username != .null && row.password != .null && row.permissions != .null &&
    (users.select fun other user => other != id && user.username == row.username).isEmpty

def userTarget : Target p where
  Row := User
  head := ("UPDATE USERS SET " : Text)
  tail := (" WHERE ID = :ID" : Text)
  relations := userRelations
  table database := database.users
  replace database users := { database with users }
  selected key id _ := p.isId id key
  columns := User.columns
  set values row :=
    { username := (values ("USERNAME" : Text)).getD row.username
      password := (values ("PASSWORD" : Text)).getD row.password
      permissions := (values ("PERMISSIONS" : Text)).getD row.permissions }
  admissible := userAdmissible
  words := by decide +kernel
  nodup := by decide +kernel
  table_replace _ _ := rfl
  quoted_set values id row := by
    simp only [userRelations, List.forall_mem_cons]
    exact ⟨rfl, rfl, rfl, by simp⟩
  set_congr row h := by
    simp only [userRelations, List.forall_mem_cons] at h
    simp only [h.1, h.2.1, h.2.2.1]

/-- `UPDATE USERS SET … WHERE ID = :ID`. -/
def updateUsers (database : Database) (b : Body) (key : Text) : Option Database :=
  if !wellQuoted b userRelations then
    -- What leaves its quotes is read as SQL.
    (userTarget p).execute database (generateUpdateStatement b (p.visited userRelations)) key
  else if (database.users.select fun id _ => p.isId id key).all fun row =>
      userAdmissible database.users row.1 (updatedUser p b row.1 row.2) then
    some { database with
      users := database.users.update (fun id _ => p.isId id key) (updatedUser p b) }
  else none

/-- The optional check of the element `permission`: the answer that ends the
request, if there is one. -/
def refusedPermission (server : Server) (req : Request) (b : Body) : Option Status :=
  if b.hasElement Field.permission then
    match requestedLevel ((b.getElement Field.permission).getD []) with
    | none => some .badRequest
    | some level => if server.sessions.verify req level then none else some .forbidden
  else none

def updateUser (server : Server) (req : Request) (b : Body) : Server × Ending :=
  if !b.hasElement Field.id then (server, .reply .badRequest none)
  else if !server.sessions.verify req AuthLevel.employee then (server, .reply .forbidden none)
  else
    match refusedPermission server req b with
    | some status => (server, .reply status none)
    | none =>
      let key := (b.getElement Field.id).getD []
      match server.database.users.select fun id _ => p.isId id key with
      | [] => (server, .reply .badRequest none)
      | (_, row) :: _ =>
        match userLevel p row with
        | none => (server, .reply .internalError none)
        | some level =>
          if !server.sessions.verify req level then (server, .reply .forbidden none)
          -- Nothing to update.
          else if (generateUpdateStatement b userRelations).isEmpty then (server, .reply .ok none)
          else
            match updateUsers p server.database b key with
            | none => (server, .reply .internalError none)
            | some database => ({ server with database }, .reply .ok none)

end User

end WFA
