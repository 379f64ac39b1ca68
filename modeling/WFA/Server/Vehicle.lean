-- SUMMARY: The routes that create, read, delete and update vehicles.
import WFA.Server.User

/-!
# Vehicles

`Server/include/WebRoutes/Vehicle.h`. Three of the four routes read the owner of
the vehicle from the first row of a result without a look at the number of rows.
-/

namespace WFA

open Text

section Vehicle

variable (p : Platform)

/-- `INSERT OR IGNORE INTO VEHICLESHAREDDATA`: the pair of make and model is unique. -/
def insertVehicleShared (table : Table VehicleShared) (make model : Text) :
    Option (Table VehicleShared) :=
  if (table.select fun _ row => row.make == .text make && row.model == .text model).isEmpty then
    (table.insert { make := .text make, model := .text model }).map (·.2)
  else some table

/-- The value of `(SELECT ID FROM VEHICLESHAREDDATA WHERE MAKE = … AND MODEL = …)`. -/
def vehicleBase (table : Table VehicleShared) (make model : Text) : Value :=
  match table.select fun _ row => row.make == .text make && row.model == .text model with
  | [] => .null
  | (id, _) :: _ => .int id

def vehicleFields : List Text :=
  [Field.plate, Field.make, Field.model, Field.owner, Field.year, Field.colour]

/-- The row of an `INSERT` with these texts. -/
def insertedVehicle (plate : Text) (base : Value) (owner year colour : Text) : Vehicle where
  plate := .text plate
  base := base
  owner := p.numeric owner
  year := p.numeric year
  colour := .text colour

/-- The row `createVehicle` inserts. -/
def newVehicle (b : Body) (base : Value) : Vehicle :=
  insertedVehicle p ((b.getElement Field.plate).getD []) base ((b.getElement Field.owner).getD [])
    ((b.getElement Field.year).getD []) ((b.getElement Field.colour).getD [])

/-- `INSERT INTO VEHICLES`, where only `BASE` can be null. -/
def insertVehicle (table : Table Vehicle) (row : Vehicle) : Option (Table Vehicle) :=
  if row.base == .null then none else (insertUnique table Vehicle.plate row).map (·.2)

def createVehicle (server : Server) (req : Request) (b : Body) : Server × Ending :=
  if !b.containsAll vehicleFields then (server, .reply .badRequest none)
  else if !server.sessions.verify req AuthLevel.manager &&
      !server.sessions.isSessionUser req ((b.getElement Field.owner).getD []) then
    (server, .reply .forbidden none)
  else
    let make := (b.getElement Field.make).getD []
    let model := (b.getElement Field.model).getD []
    match insertVehicleShared server.database.vehicleShared make model with
    | none => (server, .reply .internalError none)
    | some vehicleShared =>
      -- There is no transaction: the shared row stays when the second statement fails.
      let database := { server.database with vehicleShared }
      match insertVehicle database.vehicles (newVehicle p b (vehicleBase vehicleShared make model)) with
      | none => ({ server with database }, .reply .internalError none)
      | some vehicles => ({ server with database := { database with vehicles } }, .reply .ok none)

/-- The rows of `SELECT OWNER FROM VEHICLES WHERE ID = :ID`. -/
def ownerOf (database : Database) (key : Text) : List Value :=
  (database.vehicles.select fun id _ => p.isId id key).map (·.2.owner)

/-- The elements of the form and the columns they go to. -/
def vehicleRelations : List (Text × Text) :=
  [(Field.plate, ("PLATE" : Text)), (Field.colour, ("COLOUR" : Text))]

/-- The row an `UPDATE` of quoted values makes of a row. -/
def updatedVehicle (b : Body) (id : Int) (row : Vehicle) : Vehicle where
  plate := updated p.textAffinity (row.columns id) row.plate (token b Field.plate)
  base := row.base
  owner := row.owner
  year := row.year
  colour := updated p.textAffinity (row.columns id) row.colour (token b Field.colour)

def vehicleAdmissible (table : Table Vehicle) (id : Int) (row : Vehicle) : Bool :=
  row.plate != .null && row.colour != .null && unused table Vehicle.plate id row

def vehicleTarget : Target p where
  Row := Vehicle
  head := ("UPDATE VEHICLES SET " : Text)
  tail := (" WHERE ID = :ID" : Text)
  relations := vehicleRelations
  table database := database.vehicles
  replace database vehicles := { database with vehicles }
  selected key id _ := p.isId id key
  columns := Vehicle.columns
  set values row :=
    { plate := (values ("PLATE" : Text)).getD row.plate
      base := row.base
      owner := row.owner
      year := row.year
      colour := (values ("COLOUR" : Text)).getD row.colour }
  admissible := vehicleAdmissible
  words := by decide +kernel
  nodup := by decide +kernel
  table_replace _ _ := rfl
  quoted_set values id row := by
    simp only [vehicleRelations, List.forall_mem_cons]
    exact ⟨rfl, rfl, by simp⟩
  set_congr row h := by
    simp only [vehicleRelations, List.forall_mem_cons] at h
    simp only [h.1, h.2.1]

/-- `UPDATE VEHICLES SET … WHERE ID = :ID`. -/
def updateVehicles (database : Database) (b : Body) (key : Text) : Option Database :=
  if !wellQuoted b vehicleRelations then
    -- What leaves its quotes is read as SQL.
    (vehicleTarget p).execute database (generateUpdateStatement b (p.visited vehicleRelations)) key
  else
    (updateRows database.vehicles (fun id _ => p.isId id key) (updatedVehicle p b)
      (vehicleAdmissible database.vehicles)).map fun vehicles => { database with vehicles }

def updateVehicle (server : Server) (req : Request) (b : Body) : Server × Ending :=
  if !b.hasElement Field.id then (server, .reply .badRequest none)
  else
    let key := (b.getElement Field.id).getD []
    match ownerOf p server.database key with
    | [] => (server, .undefined)
    | owner :: _ =>
      if !server.sessions.isSessionUserFromID req (p.columnText owner) &&
          !server.sessions.verify req AuthLevel.manager then
        (server, .reply .forbidden none)
      -- Nothing to update.
      else if (generateUpdateStatement b vehicleRelations).isEmpty then (server, .reply .ok none)
      else
        match updateVehicles p server.database b key with
        | none => (server, .reply .internalError none)
        | some database => ({ server with database }, .reply .ok none)

def deleteVehicle (server : Server) (req : Request) (b : Body) : Server × Ending :=
  if !b.hasElement Field.id then (server, .reply .badRequest none)
  else
    let key := (b.getElement Field.id).getD []
    match ownerOf p server.database key with
    | [] => (server, .undefined)
    | owner :: _ =>
      if !server.sessions.isSessionUserFromID req (p.columnText owner) &&
          !server.sessions.verify req AuthLevel.manager then
        (server, .reply .forbidden none)
      else
        let vehicles := server.database.vehicles.delete fun id _ => p.isId id key
        ({ server with database := { server.database with vehicles } }, .reply .ok none)

/-- The rows of a vehicle, each joined with its shared data. -/
def joinedVehicles (database : Database) (key : Text) : List (Int × Vehicle × VehicleShared) :=
  (database.vehicles.select fun id _ => p.isId id key).filterMap fun row =>
    (row.2.base.row database.vehicleShared).map fun base => (row.1, row.2, base.2)

/-- The text of the query is shown as the owner. -/
def selectedVehicle (key : Text) (row : Int × Vehicle × VehicleShared) : ResponseWrapper :=
  (vehicleRecord p row).push ("Owner" : Text) (.strings [key]) false

def selectVehicle (server : Server) (req : Request) (q : Query) : Ending :=
  if !q.hasElement Field.id then .reply .badRequest none
  else
    let key := (q.getElement Field.id).getD []
    match ownerOf p server.database key with
    | [] => .undefined
    | owner :: _ =>
      if !server.sessions.isSessionUser req (p.columnText owner) &&
          !server.sessions.verify req AuthLevel.manager then
        .reply .forbidden none
      else
        Ending.ofFirst (joinedVehicles p server.database key) (selectedVehicle p key)

end Vehicle

end WFA
