-- SUMMARY: The handlers with every access that can fail, and that the checks in front of the accesses make them the handlers of the model.
import WFA.Server.Routes

/-!
# Accesses

`getElement` and `std::optional::value` throw when there is nothing, and `result[0]`
of an empty result is no row. The handlers are written here access by access, in
the order of the source and with the accesses of their log lines; where the other
modules read a missing element as the empty text, these end by an exception. The
two agree, because a check stands in front of every other access.
-/

namespace WFA

open Text

/-! ## Accesses -/

section Reading

variable {α : Type}

/-- An access that throws. -/
def Server.get (server : Server) (o : Option α) (k : α → Server × Ending) : Server × Ending :=
  match o with
  | some a => k a
  | none => (server, .exception)

/-- An access that throws, in a handler that does not write. -/
def Ending.get (o : Option α) (k : α → Ending) : Ending :=
  match o with
  | some a => k a
  | none => .exception

/-- The first row of a result. -/
def Server.first (server : Server) (rows : List α) (k : α → Server × Ending) : Server × Ending :=
  match rows with
  | row :: _ => k row
  | [] => (server, .undefined)

def Ending.first (rows : List α) (k : α → Ending) : Ending :=
  match rows with
  | row :: _ => k row
  | [] => .undefined

end Reading

namespace Access

section Handlers

variable (p : Platform)

/-! ## Logging in and out -/

def authenticate (server : Server) (req : Request) (b : Body) (fresh : Nat) : Server × Ending :=
  if !b.containsAll [Field.username, Field.password] then (server, .reply .badRequest none)
  else
    server.get (b.getElement Field.username) fun username =>
    server.get (b.getElement Field.password) fun password =>
      if username.isEmpty || password.isEmpty then (server, .reply .badRequest none)
      else
        -- `request`
        let released := { server with sessions := (server.sessions.release req).1 }
        match login p server.database.users username password with
        | .granted session =>
          ({ server with sessions := released.sessions.set fresh session }, .reply .ok none)
        | .denied => (released, .reply (releasedStatus req .unauthorised) none)
        | .aborted => (released, .aborted)

def registerUser (server : Server) (req : Request) (b : Body) (fresh : Nat) : Server × Ending :=
  if !b.containsAll [Field.username, Field.password] then (server, .reply .badRequest none)
  else
    server.get (b.getElement Field.username) fun username =>
    server.get (b.getElement Field.password) fun password =>
      match insertUser p server.database.users username password (.int 1) with
      | none =>
        let (server, ending) := authenticate p server req b fresh
        (server, ending.withStatus .internalError)
      | some (_, users) =>
        let server := { server with database := { server.database with users } }
        server.get (b.getElement Field.username) fun _ => authenticate p server req b fresh

def checkSession (server : Server) (req : Request) : Server × Ending :=
  if hasSession req then
    server.get (server.sessions.getSessionAuthLevel req) fun level =>
      (server, .reply .ok
        (some (ResponseWrapper.empty.push ("Permissions" : Text) (.strings [ofInt level]) false)))
  else
    ({ server with sessions := (server.sessions.release req).1 }, .reply .unauthorised none)

/-! ## Users -/

/-- The answer after the log line of a handler. -/
def logged (server : Server) (req : Request) : Server × Ending :=
  server.get (getSessionID req) fun _ => (server, .reply .ok none)

def createUser (server : Server) (req : Request) (b : Body) : Server × Ending :=
  if !b.containsAll [Field.username, Field.password, Field.permission] then
    (server, .reply .badRequest none)
  else
    server.get (b.getElement Field.username) fun username =>
    server.get (b.getElement Field.password) fun password =>
    server.get (b.getElement Field.permission) fun permission =>
      if username.isEmpty || password.isEmpty || permission.isEmpty then
        (server, .reply .badRequest none)
      else
        match requestedLevel permission with
        | none => (server, .reply .badRequest none)
        | some level =>
          if !server.sessions.verify req AuthLevel.employee || !server.sessions.verify req level then
            (server, .reply .forbidden none)
          else
            match insertUser p server.database.users username password (.text permission) with
            | none => (server, .reply .internalError none)
            | some (_, users) =>
              logged { server with database := { server.database with users } } req

def getLocalUserData (server : Server) (req : Request) : Server × Ending :=
  if !(server.sessions.getSessionUser req).isSome then (server, .reply .unauthorised none)
  else
    server.get (server.sessions.getSessionUser req) fun user =>
    server.first (server.database.users.select fun id _ => p.isId id (ofNat user)) fun row =>
    server.get (getSessionID req) fun _ =>
      (server, .reply .ok (some (localUser p server.database user row)))

def searchUsers (server : Server) (req : Request) (q : Query) : Ending :=
  if !q.hasElementOrEmpty Field.username then .reply .badRequest none
  else if !server.sessions.verify req AuthLevel.employee then .reply .forbidden none
  else
    Ending.get (getSessionID req) fun _ =>
    Ending.get (q.getElement Field.username) fun username =>
      Ending.ofRows (usersLike p server.database (generateLIKEArgument username))
        (userList p server.database)

def selectUser (server : Server) (req : Request) (q : Query) : Ending :=
  if !q.hasElement Field.id then .reply .badRequest none
  else if !server.sessions.verify req AuthLevel.employee then .reply .forbidden none
  else
    Ending.get (getSessionID req) fun _ =>
    Ending.get (q.getElement Field.id) fun key =>
      Ending.ofFirst (server.database.users.select fun id _ => p.isId id key)
        (selectedUser p server.database)

def deleteUser (server : Server) (req : Request) (b : Body) : Server × Ending :=
  if !b.hasElement Field.id then (server, .reply .badRequest none)
  else if !server.sessions.verify req AuthLevel.employee then (server, .reply .forbidden none)
  else
    server.get (b.getElement Field.id) fun key =>
      match server.database.users.select fun id _ => p.isId id key with
      | [] => (server, .reply .ok none)
      | (_, row) :: _ =>
        match userLevel p row with
        | none => (server, .reply .internalError none)
        | some level =>
          if !server.sessions.verify req level then (server, .reply .forbidden none)
          else
            let users := server.database.users.delete fun id _ => p.isId id key
            logged { server with database := { server.database with users } } req

/-- `generateUpdateStatement`, which reads an element once it was found. -/
def updateStatement (b : Body) (relations : List (Text × Text)) : Option Text :=
  relations.foldlM (fun ret relation =>
    if !b.hasElement relation.1 then some ret
    else
      (b.getElement relation.1).map fun val =>
        if val.isEmpty then ret
        else
          (if ret.isEmpty then ret else ret ++ [(',' : Byte)]) ++
            (relation.2 ++ ((" = \"" : Text) ++ (val ++ [('"' : Byte)])))) []

def updateUser (server : Server) (req : Request) (b : Body) : Server × Ending :=
  if !b.hasElement Field.id then (server, .reply .badRequest none)
  else if !server.sessions.verify req AuthLevel.employee then (server, .reply .forbidden none)
  else
    server.get (if b.hasElement Field.permission then b.getElement Field.permission else some [])
      fun permission =>
    match (if b.hasElement Field.permission then
        match requestedLevel permission with
        | none => some Status.badRequest
        | some level => if server.sessions.verify req level then none else some Status.forbidden
      else none) with
    | some status => (server, .reply status none)
    | none =>
      server.get (b.getElement Field.id) fun key =>
        match server.database.users.select fun id _ => p.isId id key with
        | [] => (server, .reply .badRequest none)
        | (_, row) :: _ =>
          match userLevel p row with
          | none => (server, .reply .internalError none)
          | some level =>
            if !server.sessions.verify req level then (server, .reply .forbidden none)
            else
              server.get (updateStatement b userRelations) fun statement =>
                if statement.isEmpty then (server, .reply .ok none)
                else
                  -- The log line stands behind the failed statement, too.
                  match updateUsers p server.database b key with
                  | none => server.get (getSessionID req) fun _ => (server, .reply .internalError none)
                  | some database => logged { server with database } req

/-! ## Suppliers, groups and parts -/

/-- An element of the form, or a default. -/
def elementOr (b : Body) (name default : Text) : Option Text :=
  if b.hasElement name then b.getElement name else some default

def createSupplier (server : Server) (req : Request) (b : Body) : Server × Ending :=
  if !b.hasElement Field.name then (server, .reply .badRequest none)
  else
    server.get (b.getElement Field.name) fun name =>
      if name.isEmpty then (server, .reply .badRequest none)
      else if !server.sessions.verify req AuthLevel.manager then (server, .reply .forbidden none)
      else
        server.get (elementOr b Field.phone nullWord) fun phone =>
        server.get (elementOr b Field.email nullWord) fun email =>
          match insertUnique server.database.suppliers Supplier.name
              (insertedSupplier p name phone email) with
          | none => (server, .reply .internalError none)
          | some (_, suppliers) =>
            logged { server with database := { server.database with suppliers } } req

def updateSupplier (server : Server) (req : Request) (b : Body) : Server × Ending :=
  if !b.hasElement Field.name then (server, .reply .badRequest none)
  else
    server.get (elementOr b Field.rename nullWord) fun rename =>
      if rename.isEmpty then (server, .reply .badRequest none)
      else if !server.sessions.verify req AuthLevel.manager then (server, .reply .forbidden none)
      else
        server.get (updateStatement b supplierRelations) fun statement =>
          if statement.isEmpty then (server, .reply .ok none)
          else
            server.get (b.getElement Field.name) fun name =>
              match updateSuppliers p server.database b name with
              | none => (server, .reply .internalError none)
              | some database => logged { server with database } req

def searchSuppliers (server : Server) (req : Request) (q : Query) : Ending :=
  if !q.hasElementOrEmpty Field.searchTerm then .reply .badRequest none
  else if !server.sessions.verify req AuthLevel.employee then .reply .forbidden none
  else
    Ending.get (getSessionID req) fun _ =>
    Ending.get (q.getElement Field.searchTerm) fun term =>
      Ending.ofRows (suppliersLike p server.database (generateLIKEArgument term)) (supplierList p)

def selectSupplier (server : Server) (req : Request) (q : Query) : Ending :=
  if !q.hasElement Field.id then .reply .badRequest none
  else if !server.sessions.verify req AuthLevel.employee then .reply .forbidden none
  else
    Ending.get (getSessionID req) fun _ =>
    Ending.get (q.getElement Field.id) fun key =>
      Ending.ofFirst (server.database.suppliers.select fun id _ => p.isId id key) (supplierRecord p)

def createPartGroup (server : Server) (req : Request) (b : Body) : Server × Ending :=
  if !b.hasElement Field.name then (server, .reply .badRequest none)
  else
    server.get (b.getElement Field.name) fun name =>
      if name.isEmpty then (server, .reply .badRequest none)
      else if !server.sessions.verify req AuthLevel.manager then (server, .reply .forbidden none)
      else
        match insertUnique server.database.partGroups PartGroup.name { name := .text name } with
        | none => (server, .reply .internalError none)
        | some (_, partGroups) =>
          logged { server with database := { server.database with partGroups } } req

def updatePartGroup (server : Server) (req : Request) (b : Body) : Server × Ending :=
  if !b.containsAll [Field.name, Field.rename] then (server, .reply .badRequest none)
  else
    server.get (b.getElement Field.rename) fun rename =>
      if rename.isEmpty then (server, .reply .badRequest none)
      else if !server.sessions.verify req AuthLevel.manager then (server, .reply .forbidden none)
      else
        server.get (b.getElement Field.name) fun name =>
          match updateRows server.database.partGroups (fun _ row => row.name == .text name)
              (fun _ _ => { name := .text rename })
              (unused server.database.partGroups PartGroup.name) with
          | none => (server, .reply .internalError none)
          | some partGroups =>
            logged { server with database := { server.database with partGroups } } req

def searchPartGroups (server : Server) (req : Request) (q : Query) : Ending :=
  if !q.hasElementOrEmpty Field.name then .reply .badRequest none
  else if !server.sessions.verify req AuthLevel.employee then .reply .forbidden none
  else
    Ending.get (q.getElement Field.name) fun name =>
      let rows := groupsLike p server.database (generateLIKEArgument name)
      if rows.isEmpty then .reply .notFound none
      else Ending.get (getSessionID req) fun _ => .reply .ok (some (groupList p rows))

def selectPartGroup (server : Server) (req : Request) (q : Query) : Ending :=
  if !q.hasElement Field.id then .reply .badRequest none
  else if !server.sessions.verify req AuthLevel.employee then .reply .forbidden none
  else
    Ending.get (q.getElement Field.id) fun key =>
    Ending.get (getSessionID req) fun _ =>
      Ending.ofFirst (server.database.partGroups.select fun id _ => p.isId id key)
        (partGroupRecord p)

def createPart (server : Server) (req : Request) (b : Body) : Server × Ending :=
  if !b.containsAll [Field.name, Field.quantity, Field.supplier, Field.price] then
    (server, .reply .badRequest none)
  else
    server.get (b.getElement Field.name) fun name =>
    server.get (b.getElement Field.quantity) fun quantity =>
    server.get (b.getElement Field.supplier) fun supplier =>
    server.get (b.getElement Field.price) fun price =>
      if name.isEmpty || quantity.isEmpty || supplier.isEmpty || price.isEmpty then
        (server, .reply .badRequest none)
      else if !server.sessions.verify req AuthLevel.manager then (server, .reply .forbidden none)
      else
        server.get (elementOr b Field.group []) fun group =>
          if b.hasElement Field.group && (server.database.partGroups.select fun _ row =>
              row.name == .text group).length != 1 then
            (server, .reply .internalError none)
          else
            match insertUnique server.database.parts Part.name
                (insertedPart p name quantity supplier price) with
            | none => (server, .reply .internalError none)
            | some (_, parts) =>
              logged { server with database := { server.database with parts } } req

def updatePart (server : Server) (req : Request) (b : Body) : Server × Ending :=
  if !b.hasElement Field.id then (server, .reply .badRequest none)
  else
    server.get (elementOr b Field.rename nullWord) fun rename =>
      if rename.isEmpty then (server, .reply .badRequest none)
      else if !server.sessions.verify req AuthLevel.manager then (server, .reply .forbidden none)
      else
        server.get (updateStatement b partRelations) fun statement =>
          if statement.isEmpty then (server, .reply .ok none)
          else
            server.get (b.getElement Field.id) fun key =>
              match updateParts p server.database b key with
              | none => (server, .reply .internalError none)
              | some database => logged { server with database } req

def searchParts (server : Server) (req : Request) (q : Query) : Ending :=
  if !q.hasElementOrEmpty Field.name && !q.hasElementOrEmpty Field.group then
    .reply .badRequest none
  else if !server.sessions.verify req AuthLevel.employee then .reply .forbidden none
  else
    Ending.get (if q.hasElementOrEmpty Field.name then q.getElement Field.name else some []) fun name =>
    Ending.get (if q.hasElementOrEmpty Field.group then q.getElement Field.group else some [])
      fun group =>
    Ending.get (getSessionID req) fun _ =>
    -- The log line shows the name, or else the group.
    Ending.get (if q.hasElementOrEmpty Field.name then q.getElement Field.name
      else q.getElement Field.group) fun _ =>
      .reply .ok (some (partList p server.database q name group))

def selectPart (server : Server) (req : Request) (q : Query) : Ending :=
  if !q.hasElement Field.id then .reply .badRequest none
  else if !server.sessions.verify req AuthLevel.employee then .reply .forbidden none
  else
    Ending.get (q.getElement Field.id) fun key =>
    Ending.get (getSessionID req) fun _ =>
      Ending.ofFirst (crossedParts p server.database key) (partRecord p)

/-! ## Vehicles -/

def createVehicle (server : Server) (req : Request) (b : Body) : Server × Ending :=
  if !b.containsAll vehicleFields then (server, .reply .badRequest none)
  else
    server.get (b.getElement Field.owner) fun owner =>
      if !server.sessions.verify req AuthLevel.manager && !server.sessions.isSessionUser req owner then
        (server, .reply .forbidden none)
      else
        server.get (b.getElement Field.make) fun make =>
        server.get (b.getElement Field.model) fun model =>
          match insertVehicleShared server.database.vehicleShared make model with
          | none => (server, .reply .internalError none)
          | some vehicleShared =>
            let server := { server with database := { server.database with vehicleShared } }
            server.get (b.getElement Field.plate) fun plate =>
            server.get (b.getElement Field.year) fun year =>
            server.get (b.getElement Field.colour) fun colour =>
              match insertVehicle server.database.vehicles
                  (insertedVehicle p plate (vehicleBase vehicleShared make model) owner year
                    colour) with
              | none => (server, .reply .internalError none)
              | some vehicles =>
                logged { server with database := { server.database with vehicles } } req

def updateVehicle (server : Server) (req : Request) (b : Body) : Server × Ending :=
  if !b.hasElement Field.id then (server, .reply .badRequest none)
  else
    server.get (b.getElement Field.id) fun key =>
    server.first (ownerOf p server.database key) fun owner =>
      if !server.sessions.isSessionUserFromID req (p.columnText owner) &&
          !server.sessions.verify req AuthLevel.manager then
        (server, .reply .forbidden none)
      else
        server.get (updateStatement b vehicleRelations) fun statement =>
          if statement.isEmpty then (server, .reply .ok none)
          else
            -- The log line stands behind the failed statement, too.
            match updateVehicles p server.database b key with
            | none => server.get (getSessionID req) fun _ => (server, .reply .internalError none)
            | some database => logged { server with database } req

def deleteVehicle (server : Server) (req : Request) (b : Body) : Server × Ending :=
  if !b.hasElement Field.id then (server, .reply .badRequest none)
  else
    server.get (b.getElement Field.id) fun key =>
    server.first (ownerOf p server.database key) fun owner =>
      if !server.sessions.isSessionUserFromID req (p.columnText owner) &&
          !server.sessions.verify req AuthLevel.manager then
        (server, .reply .forbidden none)
      else
        let vehicles := server.database.vehicles.delete fun id _ => p.isId id key
        logged { server with database := { server.database with vehicles } } req

def selectVehicle (server : Server) (req : Request) (q : Query) : Ending :=
  if !q.hasElement Field.id then .reply .badRequest none
  else
    Ending.get (q.getElement Field.id) fun key =>
    Ending.first (ownerOf p server.database key) fun owner =>
      if !server.sessions.isSessionUser req (p.columnText owner) &&
          !server.sessions.verify req AuthLevel.manager then
        .reply .forbidden none
      else
        Ending.ofFirst (joinedVehicles p server.database key) (selectedVehicle p key)

/-! ## Services -/

/-- The second half of `createRequest`, once the session may ask for the service. -/
def requestService (server : Server) (req : Request) (vid request date : Text) : Server × Ending :=
  match server.database.serviceShared.insert (insertedService p vid request date) with
  | none => (server, .reply .internalError none)
  | some (id, serviceShared) =>
    let server := { server with database := { server.database with serviceShared } }
    match insertUnique server.database.serviceUnauthorised UnauthorisedService.service
        { service := .int id } with
    | none => (server, .reply .internalError none)
    | some (_, serviceUnauthorised) =>
      logged { server with database := { server.database with serviceUnauthorised } } req

def createRequest (server : Server) (req : Request) (b : Body) (date : Text) : Server × Ending :=
  if !b.containsAll [Field.vid, Field.request] then (server, .reply .badRequest none)
  else
    server.get (b.getElement Field.vid) fun vid =>
    server.get (b.getElement Field.request) fun request =>
      if !server.sessions.verify req AuthLevel.manager then
        server.first (ownerOf p server.database vid) fun owner =>
          if !server.sessions.isSessionUserFromID req (p.columnText owner) then
            (server, .reply .forbidden none)
          else requestService p server req vid request date
      else requestService p server req vid request date

def authoriseRequest (server : Server) (req : Request) (b : Body) : Server × Ending :=
  if !b.hasElement Field.id && !b.hasElement Field.quote then (server, .reply .badRequest none)
  else if !server.sessions.verify req AuthLevel.manager then (server, .reply .forbidden none)
  else
    server.get (b.getElement Field.id) fun key =>
      match server.database.serviceUnauthorised.select fun _ row => row.service == p.numeric key with
      | [_] =>
        let serviceUnauthorised :=
          server.database.serviceUnauthorised.delete fun _ row => row.service == p.numeric key
        let server := { server with database := { server.database with serviceUnauthorised } }
        server.get (server.sessions.getSessionUser req) fun user =>
        server.get (elementOr b Field.notes []) fun notes =>
        server.get (b.getElement Field.quote) fun quote =>
          let opened := openService server.database
            (insertedActive p key notes quote user)
          match opened.2 with
          | .reply .ok none => logged { server with database := opened.1 } req
          | ending => ({ server with database := opened.1 }, ending)
      | _ => (server, .reply .notFound none)

def updateService (server : Server) (req : Request) (b : Body) : Server × Ending :=
  if !b.hasElement Field.id then (server, .reply .badRequest none)
  else if !server.sessions.verify req AuthLevel.employee then (server, .reply .forbidden none)
  else
    server.get (updateStatement b serviceRelations) fun statement =>
      if statement.isEmpty then (server, .reply .ok none)
      else
        server.get (b.getElement Field.id) fun key =>
          match updateServices p server.database b key with
          | none => (server, .reply .internalError none)
          | some database => logged { server with database } req

def closeService (server : Server) (req : Request) (b : Body) (date : Text) : Server × Ending :=
  if !b.hasElement Field.id then (server, .reply .badRequest none)
  else if !server.sessions.verify req AuthLevel.manager then (server, .reply .forbidden none)
  else
    server.get (server.sessions.getSessionUser req) fun user =>
    server.get (b.getElement Field.id) fun key =>
    server.get (b.getElement Field.paid) fun paid =>
      match insertUnique server.database.serviceClosed ClosedService.service
          (newClosed p key paid date user) with
      | none => (server, .reply .internalError none)
      | some (_, serviceClosed) =>
        let serviceOpen :=
          server.database.serviceOpen.delete fun _ row => row.service == p.numeric key
        logged { server with
          database := { server.database with serviceClosed, serviceOpen } } req

def addPartToService (server : Server) (req : Request) (b : Body) : Server × Ending :=
  if !b.containsAll [Field.serviceID, Field.partID] then (server, .reply .badRequest none)
  else if !server.sessions.verify req AuthLevel.employee then (server, .reply .forbidden none)
  else
    server.get (elementOr b Field.quantity (ofNat 1)) fun quantity =>
      if b.hasElement Field.quantity &&
          (match fromChars uint64Max quantity with
            | some n => n == 0
            | none => true) then
        (server, .reply .badRequest none)
      else
        server.get (b.getElement Field.partID) fun partID =>
        server.get (b.getElement Field.serviceID) fun serviceID =>
          match server.database.partsInService.select fun _ row =>
              row.service == p.numeric serviceID && row.part == p.numeric partID with
          | (id, _) :: _ =>
            let partsInService := server.database.partsInService.update
              (fun other _ => p.isId other (p.columnText (.int id)))
              (fun _ row =>
                { row with quantity := p.integerAffinity (p.plus row.quantity quantity) })
            logged { server with database := { server.database with partsInService } } req
          | [] =>
            match server.database.partsInService.insert
                (insertedPartInService p partID quantity serviceID) with
            | none => (server, .reply .internalError none)
            | some (_, partsInService) =>
              logged { server with database := { server.database with partsInService } } req

def removePartFromService (server : Server) (req : Request) (b : Body) : Server × Ending :=
  if !b.hasElement Field.entry then (server, .reply .badRequest none)
  else if !server.sessions.verify req AuthLevel.employee then (server, .reply .forbidden none)
  else
    server.get (b.getElement Field.entry) fun key =>
      match server.database.partsInService.select fun id _ => p.isId id key with
      | [] => (server, .reply .notFound none)
      | (_, row) :: _ =>
        match fromChars uint64Max (p.columnText row.quantity) with
        | none => (server, .reply .internalError none)
        | some current =>
          server.get (elementOr b Field.quantity (ofNat 1)) fun quantity =>
            match (if b.hasElement Field.quantity then fromChars uint64Max quantity else some 1) with
            | none => (server, .reply .badRequest none)
            | some removed =>
              if removed = 0 then (server, .reply .badRequest none)
              else if current ≤ removed then
                let partsInService :=
                  server.database.partsInService.delete fun id _ => p.isId id key
                logged { server with database := { server.database with partsInService } } req
              else
                let partsInService := server.database.partsInService.update
                  (fun id _ => p.isId id key)
                  (fun _ row =>
                    { row with quantity := p.integerAffinity (p.minus row.quantity quantity) })
                logged { server with database := { server.database with partsInService } } req

/-! ## Reports of services -/

/-- The check of `searchServices` and `selectServicePart` on the user. -/
def userChecked (server : Server) (req : Request) (q : Query) (k : Ending) : Ending :=
  if !server.sessions.verify req AuthLevel.employee then
    if !(server.sessions.getSessionUser req).isSome then .reply .forbidden none
    else
      Ending.get (server.sessions.getSessionUser req) fun user =>
      Ending.get (q.getElement Field.uid) fun userID =>
        if ofNat user != userID then .reply .forbidden none else k
  else k

def searchServices (server : Server) (req : Request) (q : Query) : Ending :=
  if !q.containsAnyOrEmpty [Field.unauthorisedServices, Field.openServices, Field.closedServices] then
    .reply .badRequest none
  else
    userChecked server req q
      (if !hasSession req then .reply .unauthorised none
      else
        Ending.get (elementOr q Field.uid []) fun _ =>
          match serviceLists p server.database q with
          | none => .reply .internalError none
          | some response => .reply .ok (some response))

/-- The end of `selectService`, where the row of `SELECT DATE(…)` is read unseen. -/
def selectClosed (database : Database) (key : Text) (response : ResponseWrapper) : Ending :=
  match selectedClosed p database key with
  | [] => .reply .internalError none
  | (_, row) :: _ =>
    Ending.first [p.halfYearBefore (p.columnText row.completed)] fun _ =>
      WFA.selectClosed p database key response

def selectService (server : Server) (req : Request) (q : Query) : Ending :=
  if !q.hasElement Field.id then .reply .badRequest none
  else if !hasSession req then .reply .unauthorised none
  else if !server.sessions.verify req AuthLevel.employee then .reply .internalError none
  else
    Ending.get (q.getElement Field.id) fun key =>
      selectFound p server.database key fun fields =>
        selectOpen p server.database key fields (selectClosed p server.database key)

def selectServicePart (server : Server) (req : Request) (q : Query) : Ending :=
  if !q.hasElement Field.entry then .reply .badRequest none
  else
    userChecked server req q
      (if !hasSession req then .reply .unauthorised none
      else
        Ending.get (q.getElement Field.entry) fun entry =>
          Ending.ofFirst (server.database.partsInService.select fun id _ => p.isId id entry)
            (entryRecord p))

/-! ## Routes -/

/-- `net`, access by access. -/
def handle (route : Route) (server : Server) (call : Call) : Server × Ending :=
  match route with
  | .request => authenticate p server call.req call.b call.fresh
  | .register => registerUser p server call.req call.b call.fresh
  | .release => deauthenticate server call.req
  | .checkSession => checkSession server call.req
  | .userCreate => createUser p server call.req call.b
  | .userMe => getLocalUserData p server call.req
  | .userSearch => (server, searchUsers p server call.req call.q)
  | .userSelect => (server, selectUser p server call.req call.q)
  | .userDelete => deleteUser p server call.req call.b
  | .userUpdate => updateUser p server call.req call.b
  | .supplierCreate => createSupplier p server call.req call.b
  | .supplierUpdate => updateSupplier p server call.req call.b
  | .supplierSearch => (server, searchSuppliers p server call.req call.q)
  | .supplierSelect => (server, selectSupplier p server call.req call.q)
  | .groupCreate => createPartGroup server call.req call.b
  | .groupUpdate => updatePartGroup server call.req call.b
  | .groupSearch => (server, searchPartGroups p server call.req call.q)
  | .groupSelect => (server, selectPartGroup p server call.req call.q)
  | .partCreate => createPart p server call.req call.b
  | .partUpdate => updatePart p server call.req call.b
  | .partSearch => (server, searchParts p server call.req call.q)
  | .partSelect => (server, selectPart p server call.req call.q)
  | .vehicleCreate => createVehicle p server call.req call.b
  | .vehicleUpdate => updateVehicle p server call.req call.b
  | .vehicleDelete => deleteVehicle p server call.req call.b
  | .vehicleSelect => (server, selectVehicle p server call.req call.q)
  | .serviceCreate => createRequest p server call.req call.b call.date
  | .serviceAuthorise => authoriseRequest p server call.req call.b
  | .serviceUpdate => updateService p server call.req call.b
  | .serviceClose => closeService p server call.req call.b call.date
  | .servicePartAdd => addPartToService p server call.req call.b
  | .servicePartRemove => removePartFromService p server call.req call.b
  | .servicePartSelect => (server, selectServicePart p server call.req call.q)
  | .serviceSearch => (server, searchServices p server call.req call.q)
  | .serviceSelect => (server, selectService p server call.req call.q)
  | .displayTables => (server, .reply .ok none)
  | .ping =>
    if hasSession call.req then
      server.get (getSessionID call.req) fun _ => (server, .reply .ok none)
    else (server, .reply .ok none)
  | .other => (server, .reply .badRequest none)

end Handlers

end Access

end WFA
