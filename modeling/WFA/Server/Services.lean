-- SUMMARY: The routes that take a service from its request to its end, and the parts used in it.
import WFA.Server.Vehicle

/-!
# Services

`Server/include/WebRoutes/Services.h`. A service is a row of `SERVICESHAREDDATA`. It
is unauthorised while `UNAUTHORISEDSERVICES` has its ID; then `ACTIVESERVICEDATA`
has a row for it, and the ID of that row is in `OPENSERVICES` or in
`CLOSEDSERVICES`. The text of `date('now')` is an argument.
-/

namespace WFA

open Text

section Services

variable (p : Platform)

/-! ## From request to end -/

/-- What ends `createRequest` for a session that is no manager's, if anything does. -/
def refusedRequest (server : Server) (req : Request) (b : Body) : Option Ending :=
  if server.sessions.verify req AuthLevel.manager then none
  else
    match ownerOf p server.database ((b.getElement Field.vid).getD []) with
    | [] => some .undefined
    | owner :: _ =>
      if server.sessions.isSessionUserFromID req (p.columnText owner) then none
      else some (.reply .forbidden none)

/-- The row of an `INSERT` with these texts. -/
def insertedService (vid request date : Text) : ServiceShared where
  vehicle := p.numeric vid
  requested := p.numeric date
  request := .text request

/-- The row of a new service. -/
def newService (b : Body) (date : Text) : ServiceShared :=
  insertedService p ((b.getElement Field.vid).getD []) ((b.getElement Field.request).getD []) date

def createRequest (server : Server) (req : Request) (b : Body) (date : Text) : Server × Ending :=
  if !b.containsAll [Field.vid, Field.request] then (server, .reply .badRequest none)
  else
    match refusedRequest p server req b with
    | some ending => (server, ending)
    | none =>
      match server.database.serviceShared.insert (newService p b date) with
      | none => (server, .reply .internalError none)
      | some (id, serviceShared) =>
        let database := { server.database with serviceShared }
        match insertUnique database.serviceUnauthorised UnauthorisedService.service
            { service := .int id } with
        | none => ({ server with database }, .reply .internalError none)
        | some (_, serviceUnauthorised) =>
          ({ server with database := { database with serviceUnauthorised } }, .reply .ok none)

/-- The row of an `INSERT` with these texts. -/
def insertedActive (key notes quote : Text) (user : Nat) : ActiveService where
  service := p.numeric key
  labour := p.realAffinity (.int 0)
  notes := .text notes
  authoriser := p.numeric (ofNat user)
  quote := p.numeric quote

/-- The row of an authorised service. -/
def newActive (b : Body) (key quote : Text) (user : Nat) : ActiveService :=
  insertedActive p key
    (if b.hasElement Field.notes then (b.getElement Field.notes).getD [] else []) quote user

/-- The two inserts of `authoriseRequest`. -/
def openService (database : Database) (row : ActiveService) : Database × Ending :=
  match database.serviceActive.insert row with
  | none => (database, .reply .internalError none)
  | some (id, serviceActive) =>
    let database := { database with serviceActive }
    -- There is no rollback.
    match insertUnique database.serviceOpen OpenService.service { service := .int id } with
    | none => (database, .reply .internalError none)
    | some (_, serviceOpen) => ({ database with serviceOpen }, .reply .ok none)

def authoriseRequest (server : Server) (req : Request) (b : Body) : Server × Ending :=
  if !b.hasElement Field.id && !b.hasElement Field.quote then (server, .reply .badRequest none)
  else if !server.sessions.verify req AuthLevel.manager then (server, .reply .forbidden none)
  else
    match b.getElement Field.id with
    | none => (server, .exception)
    | some key =>
      match server.database.serviceUnauthorised.select fun _ row => row.service == p.numeric key with
      | [_] =>
        let serviceUnauthorised :=
          server.database.serviceUnauthorised.delete fun _ row => row.service == p.numeric key
        let database := { server.database with serviceUnauthorised }
        -- The quote is read only now.
        match server.sessions.getSessionUser req, b.getElement Field.quote with
        | some user, some quote =>
          let (database, ending) := openService database (newActive p b key quote user)
          ({ server with database }, ending)
        | _, _ => ({ server with database }, .exception)
      | _ => (server, .reply .notFound none)

/-- The elements of the form and the columns they go to. -/
def serviceRelations : List (Text × Text) :=
  [(Field.notes, ("NOTES" : Text)), (Field.hours, ("LABOUR" : Text))]

/-- The row an `UPDATE` of quoted values makes of a row. -/
def updatedService (b : Body) (id : Int) (row : ActiveService) : ActiveService where
  service := row.service
  labour := updated p.realAffinity (row.columns id) row.labour (token b Field.hours)
  notes := updated p.textAffinity (row.columns id) row.notes (token b Field.notes)
  authoriser := row.authoriser
  quote := row.quote

def serviceTarget : Target p where
  Row := ActiveService
  head := ("UPDATE ACTIVESERVICEDATA SET " : Text)
  tail := (" WHERE ID = :ID" : Text)
  relations := serviceRelations
  table database := database.serviceActive
  replace database serviceActive := { database with serviceActive }
  selected key id _ := p.isId id key
  columns := ActiveService.columns
  set values row :=
    { service := row.service
      labour := (values ("LABOUR" : Text)).getD row.labour
      notes := (values ("NOTES" : Text)).getD row.notes
      authoriser := row.authoriser
      quote := row.quote }
  admissible _ _ _ := true
  words := by decide +kernel
  nodup := by decide +kernel
  table_replace _ _ := rfl
  quoted_set values id row := by
    simp only [serviceRelations, List.forall_mem_cons]
    exact ⟨rfl, rfl, by simp⟩
  set_congr row h := by
    simp only [serviceRelations, List.forall_mem_cons] at h
    simp only [h.1, h.2.1]

/-- `UPDATE ACTIVESERVICEDATA SET … WHERE ID = :ID`. No column of the table is
unique, and none can be null. -/
def updateServices (database : Database) (b : Body) (key : Text) : Option Database :=
  if !wellQuoted b serviceRelations then
    -- What leaves its quotes is read as SQL.
    (serviceTarget p).execute database (generateUpdateStatement b (p.visited serviceRelations)) key
  else
    some { database with
      serviceActive := database.serviceActive.update (fun id _ => p.isId id key)
        (updatedService p b) }

def updateService (server : Server) (req : Request) (b : Body) : Server × Ending :=
  if !b.hasElement Field.id then (server, .reply .badRequest none)
  else if !server.sessions.verify req AuthLevel.employee then (server, .reply .forbidden none)
  -- Nothing to update.
  else if (generateUpdateStatement b serviceRelations).isEmpty then (server, .reply .ok none)
  else
    match updateServices p server.database b ((b.getElement Field.id).getD []) with
    | none => (server, .reply .internalError none)
    | some database => ({ server with database }, .reply .ok none)

/-- The row of a closed service. -/
def newClosed (key paid date : Text) (user : Nat) : ClosedService where
  service := p.numeric key
  completer := p.numeric (ofNat user)
  completed := p.numeric date
  paid := p.realNumeric paid

def closeService (server : Server) (req : Request) (b : Body) (date : Text) : Server × Ending :=
  if !b.hasElement Field.id then (server, .reply .badRequest none)
  else if !server.sessions.verify req AuthLevel.manager then (server, .reply .forbidden none)
  else
    let key := (b.getElement Field.id).getD []
    match server.sessions.getSessionUser req, b.getElement Field.paid with
    | some user, some paid =>
      match insertUnique server.database.serviceClosed ClosedService.service
          (newClosed p key paid date user) with
      | none => (server, .reply .internalError none)
      | some (_, serviceClosed) =>
        let serviceOpen :=
          server.database.serviceOpen.delete fun _ row => row.service == p.numeric key
        ({ server with database := { server.database with serviceClosed, serviceOpen } },
          .reply .ok none)
    | _, _ => (server, .exception)

/-! ## Parts in a service -/

/-- The text that is bound for a quantity. -/
def quantityText (b : Body) : Text :=
  if b.hasElement Field.quantity then (b.getElement Field.quantity).getD [] else ofNat 1

/-- The check of the element `quantity`: what is there reads as a positive number. -/
def quantityRefused (b : Body) : Bool :=
  b.hasElement Field.quantity &&
    match fromChars uint64Max ((b.getElement Field.quantity).getD []) with
    | some n => n == 0
    | none => true

/-- The row of an `INSERT` with these texts. -/
def insertedPartInService (part quantity service : Text) : PartInService where
  part := p.numeric part
  quantity := p.numeric quantity
  service := p.numeric service

/-- The row of a part that is new in a service. -/
def newPartInService (b : Body) : PartInService :=
  insertedPartInService p ((b.getElement Field.partID).getD []) (quantityText b)
    ((b.getElement Field.serviceID).getD [])

def addPartToService (server : Server) (req : Request) (b : Body) : Server × Ending :=
  if !b.containsAll [Field.serviceID, Field.partID] then (server, .reply .badRequest none)
  else if !server.sessions.verify req AuthLevel.employee then (server, .reply .forbidden none)
  else if quantityRefused b then (server, .reply .badRequest none)
  else
    let service := p.numeric ((b.getElement Field.serviceID).getD [])
    let part := p.numeric ((b.getElement Field.partID).getD [])
    match server.database.partsInService.select fun _ row =>
        row.service == service && row.part == part with
    | (id, _) :: _ =>
      let partsInService := server.database.partsInService.update
        (fun other _ => p.isId other (p.columnText (.int id)))
        (fun _ row =>
          { row with quantity := p.integerAffinity (p.plus row.quantity (quantityText b)) })
      ({ server with database := { server.database with partsInService } }, .reply .ok none)
    | [] =>
      match server.database.partsInService.insert (newPartInService p b) with
      | none => (server, .reply .internalError none)
      | some (_, partsInService) =>
        ({ server with database := { server.database with partsInService } }, .reply .ok none)

/-- The quantity to remove, when what is there reads as a number. -/
def removedQuantity (b : Body) : Option Nat :=
  if b.hasElement Field.quantity then
    fromChars uint64Max ((b.getElement Field.quantity).getD [])
  else some 1

def removePartFromService (server : Server) (req : Request) (b : Body) : Server × Ending :=
  if !b.hasElement Field.entry then (server, .reply .badRequest none)
  else if !server.sessions.verify req AuthLevel.employee then (server, .reply .forbidden none)
  else
    let key := (b.getElement Field.entry).getD []
    match server.database.partsInService.select fun id _ => p.isId id key with
    | [] => (server, .reply .notFound none)
    | (_, row) :: _ =>
      match fromChars uint64Max (p.columnText row.quantity), removedQuantity b with
      | none, _ => (server, .reply .internalError none)
      | some _, none => (server, .reply .badRequest none)
      | some current, some removed =>
        if removed = 0 then (server, .reply .badRequest none)
        else if current ≤ removed then
          let partsInService := server.database.partsInService.delete fun id _ => p.isId id key
          ({ server with database := { server.database with partsInService } }, .reply .ok none)
        else
          let partsInService := server.database.partsInService.update (fun id _ => p.isId id key)
            (fun _ row =>
              { row with quantity := p.integerAffinity (p.minus row.quantity (quantityText b)) })
          ({ server with database := { server.database with partsInService } }, .reply .ok none)

end Services

end WFA
