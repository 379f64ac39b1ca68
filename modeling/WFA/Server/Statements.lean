-- SUMMARY: Every handler is a sequence of SQL statements: what each statement can do, and what a sequence keeps.
import WFA.Server.Routes

/-!
# Statements

A handler touches the database through statements only, one after the other and
without a transaction. `Statement` lists all of them. What every statement keeps
holds after every request, and between the statements of a request too.
-/

namespace WFA

open Text

/-! ## Statements -/

/-- One statement that a handler executes for a call of this route, on the database
before it and after it. Only one route deletes vehicles, and each form has a route. -/
inductive Statement (p : Platform) (route : Route) (call : Call) : Database → Database → Prop
  | insertUser {db : Database} {permissions : Value} {id : Int} {users : Table User} :
      permissions = .int 1 ∨
        permissions = .text ((call.b.getElement Field.permission).getD []) →
      insertUser p db.users ((call.b.getElement Field.username).getD [])
        ((call.b.getElement Field.password).getD []) permissions = some (id, users) →
      Statement p route call db { db with users }
  | deleteUsers {db : Database} (key : Text) :
      Statement p route call db { db with users := db.users.delete fun id _ => p.isId id key }
  | updateUsers {db after : Database} {key : Text} (h : route = .userUpdate) :
      updateUsers p db call.b key = some after → Statement p route call db after
  | insertSupplier {db : Database} {id : Int} {suppliers : Table Supplier} :
      insertUnique db.suppliers Supplier.name (newSupplier p call.b) = some (id, suppliers) →
      Statement p route call db { db with suppliers }
  | updateSuppliers {db after : Database} {key : Text} (h : route = .supplierUpdate) :
      updateSuppliers p db call.b key = some after → Statement p route call db after
  | insertPartGroup {db : Database} {id : Int} {partGroups : Table PartGroup} :
      insertUnique db.partGroups PartGroup.name
        { name := .text ((call.b.getElement Field.name).getD []) } = some (id, partGroups) →
      Statement p route call db { db with partGroups }
  | updatePartGroups {db : Database} {name : Text} {partGroups : Table PartGroup} :
      updateRows db.partGroups (fun _ row => row.name == .text name)
        (fun _ _ => { name := .text ((call.b.getElement Field.rename).getD []) })
        (unused db.partGroups PartGroup.name) = some partGroups →
      Statement p route call db { db with partGroups }
  | insertPart {db : Database} {id : Int} {parts : Table Part} :
      insertUnique db.parts Part.name (newPart p call.b) = some (id, parts) →
      Statement p route call db { db with parts }
  | updateParts {db after : Database} {key : Text} (h : route = .partUpdate) :
      updateParts p db call.b key = some after → Statement p route call db after
  | insertVehicleShared {db : Database} {vehicleShared : Table VehicleShared} :
      insertVehicleShared db.vehicleShared ((call.b.getElement Field.make).getD [])
        ((call.b.getElement Field.model).getD []) = some vehicleShared →
      Statement p route call db { db with vehicleShared }
  | insertVehicle {db : Database} {make model : Text} {vehicles : Table Vehicle} :
      insertVehicle db.vehicles (newVehicle p call.b (vehicleBase db.vehicleShared make model)) =
        some vehicles →
      Statement p route call db { db with vehicles }
  | updateVehicles {db after : Database} {key : Text} (h : route = .vehicleUpdate) :
      updateVehicles p db call.b key = some after → Statement p route call db after
  | deleteVehicles {db : Database} (h : route = .vehicleDelete) :
      Statement p route call db { db with
        vehicles := db.vehicles.delete fun id _ =>
          p.isId id ((call.b.getElement Field.id).getD []) }
  | insertService {db : Database} {id : Int} {serviceShared : Table ServiceShared} :
      db.serviceShared.insert (newService p call.b call.date) = some (id, serviceShared) →
      Statement p route call db { db with serviceShared }
  | insertUnauthorised {db : Database} {service id : Int}
      {serviceUnauthorised : Table UnauthorisedService} :
      insertUnique db.serviceUnauthorised UnauthorisedService.service { service := .int service } =
        some (id, serviceUnauthorised) →
      Statement p route call db { db with serviceUnauthorised }
  | deleteUnauthorised {db : Database} (key : Text) :
      Statement p route call db { db with
        serviceUnauthorised := db.serviceUnauthorised.delete fun _ row =>
          row.service == p.numeric key }
  | insertActive {db : Database} {key quote : Text} {user : Nat} {id : Int}
      {serviceActive : Table ActiveService} :
      call.b.getElement Field.id = some key → call.b.getElement Field.quote = some quote →
      db.serviceActive.insert (newActive p call.b key quote user) = some (id, serviceActive) →
      Statement p route call db { db with serviceActive }
  | updateServices {db after : Database} {key : Text} (h : route = .serviceUpdate) :
      updateServices p db call.b key = some after → Statement p route call db after
  | insertOpen {db : Database} {service id : Int} {serviceOpen : Table OpenService} :
      insertUnique db.serviceOpen OpenService.service { service := .int service } =
        some (id, serviceOpen) →
      Statement p route call db { db with serviceOpen }
  | deleteOpen {db : Database} (key : Text) :
      Statement p route call db { db with
        serviceOpen := db.serviceOpen.delete fun _ row => row.service == p.numeric key }
  | insertClosed {db : Database} {paid : Text} {user : Nat} {id : Int}
      {serviceClosed : Table ClosedService} :
      call.b.getElement Field.paid = some paid →
      insertUnique db.serviceClosed ClosedService.service
        (newClosed p ((call.b.getElement Field.id).getD []) paid call.date user) =
        some (id, serviceClosed) →
      Statement p route call db { db with serviceClosed }
  | insertPartInService {db : Database} {id : Int} {partsInService : Table PartInService} :
      db.partsInService.insert (newPartInService p call.b) = some (id, partsInService) →
      Statement p route call db { db with partsInService }
  | addQuantity {db : Database} (key : Text) :
      Statement p route call db { db with
        partsInService := db.partsInService.update (fun id _ => p.isId id key) fun _ row =>
          { row with quantity := p.integerAffinity (p.plus row.quantity (quantityText call.b)) } }
  | removeQuantity {db : Database} (key : Text) :
      Statement p route call db { db with
        partsInService := db.partsInService.update (fun id _ => p.isId id key) fun _ row =>
          { row with quantity := p.integerAffinity (p.minus row.quantity (quantityText call.b)) } }
  | deletePartsInService {db : Database} (key : Text) :
      Statement p route call db { db with
        partsInService := db.partsInService.delete fun id _ => p.isId id key }

/-- Statements one after the other. -/
abbrev Executes (p : Platform) (route : Route) (call : Call) : Database → Database → Prop :=
  Relation.ReflTransGen (Statement p route call)

/-- What every statement keeps, a sequence of them keeps. -/
theorem Executes.keeps {p : Platform} {route : Route} {call : Call}
    {P : Database → Prop} {before after : Database}
    (hstatement : ∀ db db', Statement p route call db db' → P db → P db')
    (h : Executes p route call before after) (hbefore : P before) : P after := by
  induction h with
  | refl => exact hbefore
  | tail _ hlast ih => exact hstatement _ _ hlast ih

/-! ## Handlers -/

/-- A handler that executes statements and leaves the sessions alone. -/
structure Leaves (p : Platform) (route : Route) (call : Call) (server : Server)
    (result : Server × Ending) : Prop where
  sessions : result.1.sessions = server.sessions
  database : Executes p route call server.database result.1.database

section Handlers

variable {p : Platform} {route : Route} {server : Server} {call : Call}

theorem leaves_unchanged {ending : Ending} : Leaves p route call server (server, ending) :=
  ⟨rfl, .refl⟩

theorem leaves_one {database : Database} {ending : Ending}
    (h : Statement p route call server.database database) :
    Leaves p route call server ({ server with database }, ending) :=
  ⟨rfl, .single h⟩

theorem leaves_two {middle database : Database} {ending : Ending}
    (h : Statement p route call server.database middle)
    (h' : Statement p route call middle database) :
    Leaves p route call server ({ server with database }, ending) :=
  ⟨rfl, .tail (.single h) h'⟩

/-- A check that ends the handler. -/
theorem leaves_ite {c : Bool} {ending : Ending} {rest : Server × Ending}
    (h : Leaves p route call server rest) :
    Leaves p route call server (if c = true then (server, ending) else rest) := by
  cases c with
  | true => exact leaves_unchanged
  | false => exact h

theorem createUser_leaves : Leaves p route call server (createUser p server call.req call.b) := by
  unfold createUser
  apply leaves_ite
  split
  · exact leaves_unchanged
  · apply leaves_ite
    split
    · exact leaves_unchanged
    · rename_i hinsert
      exact leaves_one (.insertUser (.inr rfl) hinsert)

theorem deleteUser_leaves : Leaves p route call server (deleteUser p server call.req call.b) := by
  unfold deleteUser
  apply leaves_ite
  apply leaves_ite
  simp only
  split
  · exact leaves_unchanged
  · split
    · exact leaves_unchanged
    · apply leaves_ite
      exact leaves_one (.deleteUsers _)

theorem updateUser_leaves : Leaves p .userUpdate call server (updateUser p server call.req call.b) := by
  unfold updateUser
  apply leaves_ite
  apply leaves_ite
  split
  · exact leaves_unchanged
  · simp only
    split
    · exact leaves_unchanged
    · split
      · exact leaves_unchanged
      · apply leaves_ite
        apply leaves_ite
        split
        · exact leaves_unchanged
        · rename_i hupdate
          exact leaves_one (.updateUsers rfl hupdate)

theorem createSupplier_leaves :
    Leaves p route call server (createSupplier p server call.req call.b) := by
  unfold createSupplier
  apply leaves_ite
  apply leaves_ite
  split
  · exact leaves_unchanged
  · rename_i hinsert
    exact leaves_one (.insertSupplier hinsert)

theorem updateSupplier_leaves :
    Leaves p .supplierUpdate call server (updateSupplier p server call.req call.b) := by
  unfold updateSupplier
  apply leaves_ite
  apply leaves_ite
  apply leaves_ite
  split
  · exact leaves_unchanged
  · rename_i hupdate
    exact leaves_one (.updateSuppliers rfl hupdate)

theorem createPartGroup_leaves :
    Leaves p route call server (createPartGroup server call.req call.b) := by
  unfold createPartGroup
  apply leaves_ite
  apply leaves_ite
  split
  · exact leaves_unchanged
  · rename_i hinsert
    exact leaves_one (.insertPartGroup hinsert)

theorem updatePartGroup_leaves :
    Leaves p route call server (updatePartGroup server call.req call.b) := by
  unfold updatePartGroup
  apply leaves_ite
  apply leaves_ite
  split
  · exact leaves_unchanged
  · rename_i hupdate
    exact leaves_one (.updatePartGroups hupdate)

theorem createPart_leaves : Leaves p route call server (createPart p server call.req call.b) := by
  unfold createPart
  apply leaves_ite
  apply leaves_ite
  apply leaves_ite
  split
  · exact leaves_unchanged
  · rename_i hinsert
    exact leaves_one (.insertPart hinsert)

theorem updatePart_leaves : Leaves p .partUpdate call server (updatePart p server call.req call.b) := by
  unfold updatePart
  apply leaves_ite
  apply leaves_ite
  apply leaves_ite
  split
  · exact leaves_unchanged
  · rename_i hupdate
    exact leaves_one (.updateParts rfl hupdate)

theorem createVehicle_leaves :
    Leaves p route call server (createVehicle p server call.req call.b) := by
  unfold createVehicle
  apply leaves_ite
  apply leaves_ite
  simp only
  split
  · exact leaves_unchanged
  · rename_i hshared
    split
    · exact leaves_one (.insertVehicleShared hshared)
    · rename_i hvehicle
      exact leaves_two (.insertVehicleShared hshared) (.insertVehicle hvehicle)

theorem updateVehicle_leaves :
    Leaves p .vehicleUpdate call server (updateVehicle p server call.req call.b) := by
  unfold updateVehicle
  apply leaves_ite
  simp only
  split
  · exact leaves_unchanged
  · apply leaves_ite
    apply leaves_ite
    split
    · exact leaves_unchanged
    · rename_i hupdate
      exact leaves_one (.updateVehicles rfl hupdate)

theorem deleteVehicle_leaves :
    Leaves p .vehicleDelete call server (deleteVehicle p server call.req call.b) := by
  unfold deleteVehicle
  apply leaves_ite
  simp only
  split
  · exact leaves_unchanged
  · apply leaves_ite
    exact leaves_one (.deleteVehicles rfl)

theorem createRequest_leaves :
    Leaves p route call server (createRequest p server call.req call.b call.date) := by
  unfold createRequest
  apply leaves_ite
  split
  · exact leaves_unchanged
  · split
    · exact leaves_unchanged
    · rename_i hservice
      simp only
      split
      · exact leaves_one (.insertService hservice)
      · rename_i hunauthorised
        exact leaves_two (.insertService hservice) (.insertUnauthorised hunauthorised)

theorem openService_executes {key quote : Text} (database : Database) (user : Nat)
    (hkey : call.b.getElement Field.id = some key)
    (hquote : call.b.getElement Field.quote = some quote) :
    Executes p route call database
      (openService database (newActive p call.b key quote user)).1 := by
  unfold openService
  split
  · exact .refl
  · rename_i hactive
    simp only
    split
    · exact .single (.insertActive hkey hquote hactive)
    · rename_i hopen
      exact .tail (.single (.insertActive hkey hquote hactive)) (.insertOpen hopen)

theorem authoriseRequest_leaves :
    Leaves p route call server (authoriseRequest p server call.req call.b) := by
  unfold authoriseRequest
  split
  · exact leaves_unchanged
  · apply leaves_ite
    split
    · exact leaves_unchanged
    · rename_i hkey
      split
      · simp only
        split
        · rename_i hquote
          exact ⟨rfl, .trans (.single (.deleteUnauthorised _))
            (openService_executes _ _ hkey hquote)⟩
        · exact leaves_one (.deleteUnauthorised _)
      · exact leaves_unchanged

theorem updateService_leaves :
    Leaves p .serviceUpdate call server (updateService p server call.req call.b) := by
  unfold updateService
  apply leaves_ite
  apply leaves_ite
  apply leaves_ite
  split
  · exact leaves_unchanged
  · rename_i hupdate
    exact leaves_one (.updateServices rfl hupdate)

theorem closeService_leaves :
    Leaves p route call server (closeService p server call.req call.b call.date) := by
  unfold closeService
  apply leaves_ite
  apply leaves_ite
  simp only
  split
  · rename_i hpaid
    split
    · exact leaves_unchanged
    · rename_i hclosed
      exact leaves_two (.insertClosed hpaid hclosed) (.deleteOpen _)
  · exact leaves_unchanged

theorem addPartToService_leaves :
    Leaves p route call server (addPartToService p server call.req call.b) := by
  unfold addPartToService
  apply leaves_ite
  apply leaves_ite
  apply leaves_ite
  simp only
  split
  · exact leaves_one (.addQuantity _)
  · split
    · exact leaves_unchanged
    · rename_i hinsert
      exact leaves_one (.insertPartInService hinsert)

theorem removePartFromService_leaves :
    Leaves p route call server (removePartFromService p server call.req call.b) := by
  unfold removePartFromService
  apply leaves_ite
  apply leaves_ite
  simp only
  split
  · exact leaves_unchanged
  · split
    · exact leaves_unchanged
    · exact leaves_unchanged
    · split
      · exact leaves_unchanged
      · split
        · exact leaves_one (.deletePartsInService _)
        · exact leaves_one (.removeQuantity _)

end Handlers

/-! ## Routes -/

section Routes

variable {p : Platform}

/-- The routes that change the sessions. -/
def Route.login : Route → Bool
  | .request | .register | .release => true
  | _ => false

theorem handle_leaves {route : Route} (hroute : route.login = false) (server : Server)
    (call : Call) : Leaves p route call server (handle p route server call) := by
  cases route with
  | request => simp [Route.login] at hroute
  | register => simp [Route.login] at hroute
  | release => simp [Route.login] at hroute
  | checkSession =>
    have hserver := checkSession_fst server call.req
    exact ⟨congrArg Server.sessions hserver, by
      change Executes p _ call _ (checkSession server call.req).1.database
      rw [hserver]⟩
  | userMe =>
    have hserver : (getLocalUserData p server call.req).1 = server := getLocalUserData_fst
    exact ⟨congrArg Server.sessions hserver, by
      change Executes p _ call _ (getLocalUserData p server call.req).1.database
      rw [hserver]⟩
  | userCreate => exact createUser_leaves
  | userDelete => exact deleteUser_leaves
  | userUpdate => exact updateUser_leaves
  | supplierCreate => exact createSupplier_leaves
  | supplierUpdate => exact updateSupplier_leaves
  | groupCreate => exact createPartGroup_leaves
  | groupUpdate => exact updatePartGroup_leaves
  | partCreate => exact createPart_leaves
  | partUpdate => exact updatePart_leaves
  | vehicleCreate => exact createVehicle_leaves
  | vehicleUpdate => exact updateVehicle_leaves
  | vehicleDelete => exact deleteVehicle_leaves
  | serviceCreate => exact createRequest_leaves
  | serviceAuthorise => exact authoriseRequest_leaves
  | serviceUpdate => exact updateService_leaves
  | serviceClose => exact closeService_leaves
  | servicePartAdd => exact addPartToService_leaves
  | servicePartRemove => exact removePartFromService_leaves
  | userSearch => exact leaves_unchanged
  | userSelect => exact leaves_unchanged
  | supplierSearch => exact leaves_unchanged
  | supplierSelect => exact leaves_unchanged
  | groupSearch => exact leaves_unchanged
  | groupSelect => exact leaves_unchanged
  | partSearch => exact leaves_unchanged
  | partSelect => exact leaves_unchanged
  | vehicleSelect => exact leaves_unchanged
  | servicePartSelect => exact leaves_unchanged
  | serviceSearch => exact leaves_unchanged
  | serviceSelect => exact leaves_unchanged
  | displayTables => exact leaves_unchanged
  | ping => exact leaves_unchanged
  | other => exact leaves_unchanged

theorem registered_executes {route : Route} (server : Server) (call : Call) :
    Executes p route call server.database (registered p server call.b).database := by
  unfold registered registerInsert
  split
  · exact .refl
  · rename_i hinsert
    exact .single (.insertUser (.inl rfl) hinsert)

/-- Every request executes statements and nothing else. -/
theorem handle_executes (route : Route) (server : Server) (call : Call) :
    Executes p route call server.database (handle p route server call).1.database := by
  cases hroute : route.login with
  | false => exact (handle_leaves hroute server call).database
  | true =>
    cases route with
    | request =>
      change Executes p _ call _ (authenticate p server call.req call.b call.fresh).1.database
      rw [authenticate_database]
    | register =>
      change Executes p _ call _ (registerUser p server call.req call.b call.fresh).1.database
      rw [registerUser_fst]
      split
      · rw [authenticate_database]
        exact registered_executes server call
      · exact .refl
    | release =>
      change Executes p _ call _ (deauthenticate server call.req).1.database
      rw [deauthenticate_fst]
    | _ => simp [Route.login] at hroute

end Routes

end WFA
