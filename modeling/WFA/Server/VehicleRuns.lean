-- SUMMARY: Vehicles over whole runs: every one is listed with its make and model, and what is fixed about it stays.
import WFA.Base.Run
import WFA.Server.Statements

/-!
# Vehicles over runs

`VEHICLES` has no make and no model: `BASE` is the ID of a row of
`VEHICLESHAREDDATA`, and SQLite does not check it. The views join the two tables,
so a vehicle whose base is missing would be in no list. No request makes one, and
none changes the base, the owner or the year of a vehicle, as long as the values
of the update forms stay inside their quotes.
-/

namespace WFA

open Text

/-! ## Runs of the server -/

/-- The elements whose values a route puts between quotes, with their columns. -/
def Route.relations : Route → List (Text × Text)
  | .userUpdate => userRelations
  | .supplierUpdate => supplierRelations
  | .partUpdate => partRelations
  | .vehicleUpdate => vehicleRelations
  | .serviceUpdate => serviceRelations
  | _ => []

/-- Every value that the route puts between quotes stays there. -/
def Quoted (route : Route) (b : Body) : Prop :=
  wellQuoted b route.relations = true

instance (route : Route) (b : Body) : Decidable (Quoted route b) :=
  inferInstanceAs (Decidable (_ = true))

theorem Quoted.well {route : Route} {b : Body} (h : Quoted route b)
    (relations : List (Text × Text)) (hroute : route.relations = relations) :
    (!wellQuoted b relations) = false := by
  rw [← hroute, h]
  rfl

section Runs

variable (p : Platform)

def serverStep (server : Server) (action : Route × Call) : Server :=
  (handle p action.1 server action.2).1

/-- A run of requests to any routes, each of which satisfies a condition. -/
abbrev ServerRun (condition : Route × Call → Prop) (start : Server) :
    List (Route × Call) → Server → Prop :=
  Run (serverStep p) (fun _ action => condition action) start

variable {p}

/-- What every statement keeps, a run keeps. -/
theorem ServerRun.keeps {condition : Route × Call → Prop} {P : Database → Prop}
    {start server : Server} {actions : List (Route × Call)}
    (hstatement : ∀ action, condition action →
      ∀ db db', Statement p action.1 action.2 db db' → P db → P db')
    (hrun : ServerRun p condition start actions server) (hstart : P start.database) :
    P server.database := by
  refine Run.invariant (P := fun server => P server.database) hstart ?_ hrun
  intro server action hP hcondition
  exact (handle_executes action.1 server action.2).keeps (hstatement action hcondition) hP

end Runs

/-! ## What a statement does to the vehicles -/

section Statements

variable {p : Platform} {route : Route} {call : Call} {db db' : Database}

/-- The vehicles after a statement: as they were, with one more, with some less, or
updated in their plate and colour only. -/
inductive VehicleChange (p : Platform) (route : Route) (b : Body) (db : Database) :
    Table Vehicle → Prop
  | same : VehicleChange p route b db db.vehicles
  | inserted {make model : Text} {vehicles : Table Vehicle} :
      insertVehicle db.vehicles (newVehicle p b (vehicleBase db.vehicleShared make model)) =
        some vehicles → VehicleChange p route b db vehicles
  | updated {key : Text} :
      VehicleChange p route b db (db.vehicles.update (fun id _ => p.isId id key) (updatedVehicle p b))
  | deleted : route = .vehicleDelete → VehicleChange p route b db
      (db.vehicles.delete fun id _ => p.isId id ((b.getElement Field.id).getD []))

theorem insertVehicleShared_get {table table' : Table VehicleShared} {make model : Text}
    (h : insertVehicleShared table make model = some table') {id : Int} {row : VehicleShared}
    (hget : table.get id = some row) : table'.get id = some row := by
  unfold insertVehicleShared at h
  split at h
  · obtain ⟨⟨new, inserted⟩, hinsert, rfl⟩ := Option.map_eq_some_iff.mp h
    rw [Table.get_insert hinsert, if_neg, hget]
    rintro rfl
    rw [Table.insert_id hinsert, table.get_nextId] at hget
    simp at hget
  · obtain rfl := Option.some.inj h
    exact hget

/-- A statement changes the vehicles as listed, and keeps every row of
`VEHICLESHAREDDATA`. -/
theorem Statement.vehicles (h : Statement p route call db db') (hquoted : Quoted route call.b) :
    VehicleChange p route call.b db db'.vehicles ∧
      ∀ id row, db.vehicleShared.get id = some row → db'.vehicleShared.get id = some row := by
  cases h with
  | updateUsers hroute hupdate =>
    unfold WFA.updateUsers at hupdate
    rw [hquoted.well userRelations (congrArg Route.relations hroute)] at hupdate
    simp only [Bool.false_eq_true, if_false] at hupdate
    split at hupdate
    · obtain rfl := Option.some.inj hupdate
      exact ⟨.same, fun _ _ hget => hget⟩
    · simp at hupdate
  | updateSuppliers hroute hupdate =>
    unfold WFA.updateSuppliers at hupdate
    rw [hquoted.well supplierRelations (congrArg Route.relations hroute)] at hupdate
    obtain ⟨table, -, rfl⟩ := Option.map_eq_some_iff.mp hupdate
    exact ⟨.same, fun _ _ hget => hget⟩
  | updateParts hroute hupdate =>
    unfold WFA.updateParts at hupdate
    rw [hquoted.well partRelations (congrArg Route.relations hroute)] at hupdate
    obtain ⟨table, -, rfl⟩ := Option.map_eq_some_iff.mp hupdate
    exact ⟨.same, fun _ _ hget => hget⟩
  | updateServices hroute hupdate =>
    unfold WFA.updateServices at hupdate
    rw [hquoted.well serviceRelations (congrArg Route.relations hroute)] at hupdate
    obtain rfl := Option.some.inj hupdate
    exact ⟨.same, fun _ _ hget => hget⟩
  | updateVehicles hroute hupdate =>
    unfold WFA.updateVehicles at hupdate
    rw [hquoted.well vehicleRelations (congrArg Route.relations hroute)] at hupdate
    obtain ⟨table, hrows, rfl⟩ := Option.map_eq_some_iff.mp hupdate
    obtain rfl := updateRows_eq_some hrows
    exact ⟨.updated, fun _ _ hget => hget⟩
  | insertVehicleShared hinsert =>
    exact ⟨.same, fun _ _ hget => insertVehicleShared_get hinsert hget⟩
  | insertVehicle hinsert => exact ⟨.inserted hinsert, fun _ _ hget => hget⟩
  | deleteVehicles hroute => exact ⟨.deleted hroute, fun _ _ hget => hget⟩
  | insertUser _ _ => exact ⟨.same, fun _ _ hget => hget⟩
  | deleteUsers _ => exact ⟨.same, fun _ _ hget => hget⟩
  | insertSupplier _ => exact ⟨.same, fun _ _ hget => hget⟩
  | insertPartGroup _ => exact ⟨.same, fun _ _ hget => hget⟩
  | updatePartGroups _ => exact ⟨.same, fun _ _ hget => hget⟩
  | insertPart _ => exact ⟨.same, fun _ _ hget => hget⟩
  | insertService _ => exact ⟨.same, fun _ _ hget => hget⟩
  | insertUnauthorised _ => exact ⟨.same, fun _ _ hget => hget⟩
  | deleteUnauthorised _ => exact ⟨.same, fun _ _ hget => hget⟩
  | insertActive _ _ _ => exact ⟨.same, fun _ _ hget => hget⟩
  | insertOpen _ => exact ⟨.same, fun _ _ hget => hget⟩
  | deleteOpen _ => exact ⟨.same, fun _ _ hget => hget⟩
  | insertClosed _ _ => exact ⟨.same, fun _ _ hget => hget⟩
  | insertPartInService _ => exact ⟨.same, fun _ _ hget => hget⟩
  | addQuantity _ => exact ⟨.same, fun _ _ hget => hget⟩
  | removeQuantity _ => exact ⟨.same, fun _ _ hget => hget⟩
  | deletePartsInService _ => exact ⟨.same, fun _ _ hget => hget⟩

/-! ## Every vehicle has its make and model -/

/-- Every base is the ID of a row of `VEHICLESHAREDDATA`. -/
def Based (db : Database) : Prop :=
  ∀ id vehicle, db.vehicles.get id = some vehicle →
    ∃ base shared, vehicle.base = .int base ∧ db.vehicleShared.get base = some shared

theorem vehicleBase_get {table : Table VehicleShared} {make model : Text}
    (h : vehicleBase table make model ≠ .null) :
    ∃ base shared, vehicleBase table make model = .int base ∧ table.get base = some shared := by
  unfold vehicleBase at h ⊢
  split at h
  · exact absurd rfl h
  · rename_i base shared rest hselect
    have hmem : (base, shared) ∈ table.select fun _ row =>
        row.make == .text make && row.model == .text model := by simp [hselect]
    exact ⟨base, shared, rfl, (table.mem_select.mp hmem).1⟩

theorem insertVehicle_get {table table' : Table Vehicle} {row : Vehicle}
    (h : insertVehicle table row = some table') :
    row.base ≠ .null ∧ ∃ new, table.get new = none ∧
      ∀ id, table'.get id = if id = new then some row else table.get id := by
  unfold insertVehicle insertUnique at h
  split at h
  · simp at h
  · rename_i hbase
    refine ⟨by simpa using hbase, ?_⟩
    obtain ⟨⟨new, inserted⟩, hinsert, rfl⟩ := Option.map_eq_some_iff.mp h
    split at hinsert
    · refine ⟨new, ?_, Table.get_insert hinsert⟩
      rw [Table.insert_id hinsert, table.get_nextId]
    · simp at hinsert

theorem Statement.based (h : Statement p route call db db') (hquoted : Quoted route call.b)
    (hbased : Based db) : Based db' := by
  obtain ⟨hchange, hshared⟩ := h.vehicles hquoted
  -- a base that was there is still there
  have hkept : ∀ id vehicle, db.vehicles.get id = some vehicle →
      ∃ base shared, vehicle.base = .int base ∧ db'.vehicleShared.get base = some shared := by
    intro id vehicle hget
    obtain ⟨base, shared, hbase, hrow⟩ := hbased id vehicle hget
    exact ⟨base, shared, hbase, hshared base shared hrow⟩
  intro id vehicle hget
  generalize hvehicles : db'.vehicles = vehicles at hchange hget
  cases hchange with
  | same => exact hkept id vehicle hget
  | inserted hinsert =>
    obtain ⟨hbase, new, -, hrows⟩ := insertVehicle_get hinsert
    rw [hrows id] at hget
    split at hget
    · obtain rfl := Option.some.inj hget
      obtain ⟨base, shared, hint, hrow⟩ := vehicleBase_get hbase
      exact ⟨base, shared, hint, hshared base shared hrow⟩
    · exact hkept id vehicle hget
  | updated =>
    rw [Table.get_update] at hget
    obtain ⟨old, hold, rfl⟩ := Option.map_eq_some_iff.mp hget
    obtain ⟨base, shared, hbase, hrow⟩ := hkept id old hold
    refine ⟨base, shared, ?_, hrow⟩
    split <;> exact hbase
  | deleted _ =>
    rw [Table.get_delete] at hget
    exact hkept id vehicle (Option.filter_eq_some_iff.mp hget).1

/-- The vehicle with the base, the owner and the year of another one is there. -/
def Fixed (id : Int) (vehicle : Vehicle) (db : Database) : Prop :=
  ∃ found, db.vehicles.get id = some found ∧
    found.base = vehicle.base ∧ found.owner = vehicle.owner ∧ found.year = vehicle.year

theorem Statement.fixed (h : Statement p route call db db') (hquoted : Quoted route call.b) {id : Int}
    {vehicle : Vehicle}
    (hdelete : route = .vehicleDelete → p.isId id ((call.b.getElement Field.id).getD []) = false)
    (hfixed : Fixed id vehicle db) : Fixed id vehicle db' := by
  obtain ⟨hchange, -⟩ := h.vehicles hquoted
  obtain ⟨found, hget, hbase, howner, hyear⟩ := hfixed
  unfold Fixed
  generalize hvehicles : db'.vehicles = vehicles at hchange
  cases hchange with
  | same => exact ⟨found, hget, hbase, howner, hyear⟩
  | inserted hinsert =>
    obtain ⟨-, new, hnew, hrows⟩ := insertVehicle_get hinsert
    refine ⟨found, ?_, hbase, howner, hyear⟩
    rw [hrows id, if_neg, hget]
    rintro rfl
    simp [hnew] at hget
  | updated =>
    rw [Table.get_update, hget]
    refine ⟨_, rfl, ?_⟩
    split
    · exact ⟨hbase, howner, hyear⟩
    · exact ⟨hbase, howner, hyear⟩
  | deleted hroute =>
    refine ⟨found, ?_, hbase, howner, hyear⟩
    rw [Table.get_delete, hget]
    simp [Option.filter, hdelete hroute]

end Statements

/-! ## Runs -/

section Vehicles

variable {p : Platform} {start server : Server} {actions : List (Route × Call)}

theorem ServerRun.based
    (hrun : ServerRun p (fun action => Quoted action.1 action.2.b) start actions server)
    (hstart : Based start.database) : Based server.database :=
  hrun.keeps (fun _ hquoted _ _ hstatement => hstatement.based hquoted) hstart

/-- In every run in which no deletion names it and the values of the update forms
stay inside their quotes, from a database in which every vehicle has its make and
model, a vehicle stays, and its owner, its year, its make and its model stay what
they were. -/
theorem vehicle_fixed {id : Int} {vehicle : Vehicle}
    (hrun : ServerRun p (fun action => Quoted action.1 action.2.b ∧ (action.1 = .vehicleDelete →
      p.isId id ((action.2.b.getElement Field.id).getD []) = false)) start actions server)
    (hstart : Based start.database) (hget : start.database.vehicles.get id = some vehicle) :
    ∃ found base shared, server.database.vehicles.get id = some found ∧
      found.owner = vehicle.owner ∧ found.year = vehicle.year ∧
      vehicle.base = .int base ∧ found.base = .int base ∧
      start.database.vehicleShared.get base = some shared ∧
      server.database.vehicleShared.get base = some shared := by
  obtain ⟨base, shared, hbase, hshared⟩ := hstart id vehicle hget
  have hkept : Fixed id vehicle server.database ∧
      server.database.vehicleShared.get base = some shared := by
    refine hrun.keeps (P := fun db => Fixed id vehicle db ∧ db.vehicleShared.get base = some shared)
      ?_ ⟨⟨vehicle, hget, rfl, rfl, rfl⟩, hshared⟩
    intro action hallowed db db' hstatement hboth
    exact ⟨hstatement.fixed hallowed.1 hallowed.2 hboth.1,
      (hstatement.vehicles hallowed.1).2 base shared hboth.2⟩
  obtain ⟨⟨found, hfound, hfbase, howner, hyear⟩, hrow⟩ := hkept
  exact ⟨found, base, shared, hfound, howner, hyear, hbase, hfbase.trans hbase, hshared, hrow⟩

end Vehicles

/-! ## Two vehicles -/

def emptyGarage : Server where
  database := {}
  sessions := managerSessions

theorem based_emptyGarage : Based emptyGarage.database := by
  intro id vehicle hget
  simp [emptyGarage, Table.get, Table.empty] at hget

def vehicleCall (b : Body) : Call where
  req := managerRequest
  b := b
  q := .ofList []
  fresh := 0
  date := []

/-- A new vehicle of the first user. -/
def vehicleForm (plate : Text) : Body :=
  .ofList [(Field.plate, plate), (Field.make, ("Ford" : Text)), (Field.model, ("Fiesta" : Text)),
    (Field.owner, ("1" : Text)), (Field.year, ("2010" : Text)), (Field.colour, ("red" : Text))]

def twoVehicles : List (Route × Call) :=
  [(.vehicleCreate, vehicleCall (vehicleForm ("AB12" : Text))),
    (.vehicleCreate, vehicleCall (vehicleForm ("CD34" : Text)))]

/-- A deletion of the second vehicle, and a new colour for the first. -/
def repainted : List (Route × Call) :=
  [(.vehicleDelete, vehicleCall (.ofList [(Field.id, ("2" : Text))])),
    (.vehicleUpdate, vehicleCall
      (.ofList [(Field.id, ("1" : Text)), (Field.colour, ("blue" : Text))]))]

def garageWith (actions : List (Route × Call)) : Server :=
  actions.foldl (serverStep .integers) emptyGarage

theorem twoVehicles_run :
    ServerRun .integers (fun action => Quoted action.1 action.2.b) emptyGarage twoVehicles
      (garageWith twoVehicles) :=
  Run.of_forall (by decide +kernel)

def firstVehicle : Vehicle where
  plate := .text ("AB12" : Text)
  base := .int 1
  owner := .int 1
  year := .int 2010
  colour := .text ("red" : Text)

theorem vehicle_fixed_repainted :
    ∃ found base shared,
      (repainted.foldl (serverStep .integers) (garageWith twoVehicles)).database.vehicles.get 1 =
        some found ∧ found.owner = .int 1 ∧ found.year = .int 2010 ∧
      firstVehicle.base = .int base ∧ found.base = .int base ∧
      (garageWith twoVehicles).database.vehicleShared.get base = some shared ∧
      (repainted.foldl (serverStep .integers)
        (garageWith twoVehicles)).database.vehicleShared.get base = some shared := by
  have hget : (garageWith twoVehicles).database.vehicles.get 1 = some firstVehicle := by
    decide +kernel
  exact vehicle_fixed (Run.of_forall (by decide +kernel))
    (twoVehicles_run.based based_emptyGarage) hget

end WFA
