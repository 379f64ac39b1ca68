-- SUMMARY: The routes that report services: `searchServices`, `selectService` and `selectServicePart`.
import WFA.Server.Services

/-!
# Reports of services

`Server/include/WebRoutes/Services.h`. `searchServices` lists the services of each
stage; `selectService` finds the stage of one. Joins are nested loops over their
tables in the order in which the statement names them, each in rowid order, but for
the open services of one user.
-/

namespace WFA

open Text

/-! ## The keys of the answers that are looked up again -/
namespace Key

def service : Text := ("service" : Text)
def status : Text := ("status" : Text)
def completer : Text := ("completer" : Text)
def completed : Text := ("completed" : Text)
def paid : Text := ("paid" : Text)
def parts : Text := ("parts" : Text)
def total : Text := ("total" : Text)
def warrantied : Text := ("warrantied" : Text)
def unauthorisedList : Text := ("Unauthorised" : Text)
def openList : Text := ("Open" : Text)
def closedList : Text := ("Closed" : Text)

end Key

section Views

variable (p : Platform)

/-! ## Parts of a service -/

/-- The rows of `PARTSINSERVICE` with a service, each joined with its part. -/
def partsOf (database : Database) (service : Text) : List (Int × PartInService × Part) :=
  (database.partsInService.select fun _ row => row.service == p.numeric service).filterMap
    fun row => (row.2.part.row database.parts).map fun part => (row.1, row.2, part.2)

/-- `name`, `ID`, `quantity` of a part. -/
def usedFields (row : Int × PartInService × Part) : List (Text × Text) :=
  [(("name" : Text), p.columnText row.2.2.name), (("ID" : Text), p.columnText row.2.1.part),
    (("quantity" : Text), p.columnText row.2.1.quantity)]

def priceField (row : Int × PartInService × Part) : Text × Text :=
  (("price" : Text), p.columnText row.2.2.price)

def entryField (row : Int × PartInService × Part) : Text × Text :=
  (("entry" : Text), p.columnText (.int row.1))

/-- The price of so many parts, when both texts read as numbers. -/
def getPartPrice (price quantity : Text) : Option UInt64 :=
  match p.readDouble price, fromChars uint64Max quantity with
  | some partPrice, some partQuantity => some (p.timesQuantity partPrice partQuantity)
  | _, _ => none

/-- The price of a row of a service's parts. -/
def rowPrice (row : Int × PartInService × Part) : Option UInt64 :=
  getPartPrice p (p.columnText row.2.2.price) (p.columnText row.2.1.quantity)

/-- The loop over the parts of a service: `parts` and `total`, or nothing when a
price or a quantity is no number. -/
def addParts (w : ResponseWrapper) (rows : List (Int × PartInService × Part))
    (fields : Int × PartInService × Part → List (Text × Text)) : Option ResponseWrapper :=
  (rows.mapM (rowPrice p)).map fun prices =>
    (w.addAll Key.parts (rows.map fun row => .ofFields (fields row))).push Key.total
      (.strings [p.doubleText (prices.foldl p.addDoubles 0)]) false

/-! ## Lists of services -/

/-- ` WHERE U.ID = :ID`, when the query names a user. -/
def listedFor (q : Query) (owner : Int) : Bool :=
  !q.hasElement Field.uid || p.isId owner ((q.getElement Field.uid).getD [])

/-- The service, its vehicle and the vehicle's owner. -/
structure SharedRow where
  id : Int
  shared : ServiceShared
  vehicleID : Int
  vehicle : Vehicle
  owner : Int

/-- The joins of a service with its vehicle and of that with its owner. -/
def sharedRow (database : Database) (service : Value) : Option SharedRow :=
  (service.row database.serviceShared).bind fun shared =>
  (shared.2.vehicle.row database.vehicles).bind fun vehicle =>
  (vehicle.2.owner.row database.users).map fun owner =>
    { id := shared.1, shared := shared.2, vehicleID := vehicle.1, vehicle := vehicle.2
      owner := owner.1 }

/-- The fields of every list. -/
def sharedFields (row : SharedRow) (vehicle : Value) : List (Text × Text) :=
  [(Key.service, p.columnText (.int row.id)), (("vehicle" : Text), p.columnText vehicle),
    (("owner" : Text), p.columnText row.vehicle.owner),
    (("request" : Text), p.columnText row.shared.request),
    (("requested" : Text), p.columnText row.shared.requested)]

def unauthorisedRows (database : Database) (q : Query) : List SharedRow :=
  (database.serviceUnauthorised.rows.filterMap fun row => sharedRow database row.2.service).filter
    fun row => listedFor p q row.owner

def unauthorisedRecord (row : SharedRow) : ResponseWrapper :=
  .ofFields (sharedFields p row (.int row.vehicleID))

/-- The authorised service with a row ID of `ACTIVESERVICEDATA`. -/
def activeRow (database : Database) (active : Value) : Option (ActiveService × SharedRow) :=
  (active.row database.serviceActive).bind fun active =>
    (sharedRow database active.2.service).map fun shared => (active.2, shared)

/-- The IDs that the open services have in `ACTIVESERVICEDATA`. For one user the join
starts there and finds them in the index of `OPENSERVICES`. -/
def openIds (database : Database) (q : Query) : List Value :=
  if q.hasElement Field.uid then
    database.serviceActive.rows.flatMap fun active =>
      (database.serviceOpen.select fun _ row => row.service == .int active.1).map
        fun row => row.2.service
  else database.serviceOpen.rows.map fun row => row.2.service

/-- The authoriser is joined, too. -/
def openRows (database : Database) (q : Query) : List (ActiveService × SharedRow) :=
  ((openIds database q).filterMap fun id =>
    (activeRow database id).filter fun active =>
      (active.1.authoriser.row database.users).isSome).filter
    fun row => listedFor p q row.2.owner

def openFields (row : ActiveService × SharedRow) : List (Text × Text) :=
  sharedFields p row.2 row.2.shared.vehicle ++
    [(("labour" : Text), p.columnText row.1.labour), (("notes" : Text), p.columnText row.1.notes),
      (("authoriser" : Text), p.columnText row.1.authoriser),
      (("quote" : Text), p.columnText row.1.quote)]

def openRecord (database : Database) (row : ActiveService × SharedRow) : Option ResponseWrapper :=
  addParts p (.ofFields (openFields p row)) (partsOf p database (p.columnText (.int row.2.id)))
    fun part => entryField p part :: (usedFields p part ++ [priceField p part])

def closedRows (database : Database) (q : Query) :
    List (ClosedService × ActiveService × SharedRow) :=
  (database.serviceClosed.rows.filterMap fun row =>
    (activeRow database row.2.service).map fun active => (row.2, active)).filter
    fun row => listedFor p q row.2.2.owner

def closedRecord (database : Database) (row : ClosedService × ActiveService × SharedRow) :
    Option ResponseWrapper :=
  addParts p
    (.ofFields (openFields p row.2 ++
      [(Key.completed, p.columnText row.1.completed), (Key.completer, p.columnText row.1.completer),
        (Key.paid, p.columnText row.1.paid)]))
    (partsOf p database (p.columnText (.int row.2.2.id)))
    fun part => usedFields p part ++ [priceField p part]

/-- The lists that the query asks for. `none` when a price is no number. -/
def serviceLists (database : Database) (q : Query) : Option ResponseWrapper := do
  let response := ResponseWrapper.empty
  let response :=
    if q.hasElementOrEmpty Field.unauthorisedServices then
      response.addAll Key.unauthorisedList
        ((unauthorisedRows p database q).map (unauthorisedRecord p))
    else response
  let response ←
    if q.hasElementOrEmpty Field.openServices then
      ((openRows p database q).mapM (openRecord p database)).map (response.addAll Key.openList)
    else some response
  if q.hasElementOrEmpty Field.closedServices then
    ((closedRows p database q).mapM (closedRecord p database)).map (response.addAll Key.closedList)
  else some response

/-- What ends a report for a session that is no employee's, if anything does: the
query has to name the user of the session. -/
def refusedUser (server : Server) (req : Request) (q : Query) : Option Ending :=
  if server.sessions.verify req AuthLevel.employee then none
  else
    match server.sessions.getSessionUser req with
    | none => some (.reply .forbidden none)
    | some user =>
      match q.getElement Field.uid with
      | none => some .exception
      | some userID => if ofNat user == userID then none else some (.reply .forbidden none)

def searchServices (server : Server) (req : Request) (q : Query) : Ending :=
  if !q.containsAnyOrEmpty [Field.unauthorisedServices, Field.openServices, Field.closedServices] then
    .reply .badRequest none
  else
    match refusedUser server req q with
    | some ending => ending
    | none =>
      if !hasSession req then .reply .unauthorised none
      else
        match serviceLists p server.database q with
        | none => .reply .internalError none
        | some response => .reply .ok (some response)

/-! ## One service -/

/-- Whether a value counts as true. -/
def truthy : Value → Bool
  | .int n => n != 0
  | .real bits => bits != 0 && bits != 0x8000000000000000
  | _ => false

/-- `CLOSEDSERVICES AS C INNER JOIN SERVICESHAREDDATA AS S ON SERVICE = S.ID WHERE S.ID +
:ID`: the condition is a sum, and `SERVICE` is an ID of `ACTIVESERVICEDATA`. -/
def selectedClosed (database : Database) (key : Text) : List (Int × ClosedService) :=
  database.serviceClosed.rows.filter fun row =>
    (row.2.service.row database.serviceShared).any fun shared =>
      truthy (p.plus (.int shared.1) key)

/-- The parts of the services that were closed in the half year before a date, but
for the row of `CLOSEDSERVICES` with the given ID. -/
def warrantiedParts (database : Database) (key date : Text) : List (Int × PartInService × Part) :=
  let low := p.numeric (p.columnText (p.halfYearBefore date))
  (database.serviceClosed.rows.filter fun row =>
    !p.isId row.1 key && p.atMost low row.2.completed &&
      p.atMost row.2.completed (p.numeric date)).flatMap fun row =>
    ((row.2.service.row database.serviceActive).bind fun active =>
      active.2.service.row database.serviceShared).toList.flatMap fun shared =>
    (database.partsInService.select fun _ part => part.service == .int shared.1).filterMap
      fun part => (part.2.part.row database.parts).map fun row => (part.1, part.2, row.2)

/-- The part of the answer that every authorised service has. -/
def selectedFields (row : SharedRow) : List (Text × Text) :=
  [(Key.service, p.columnText (.int row.id)), (("vehicle" : Text), p.columnText (.int row.vehicleID)),
    (("owner" : Text), p.columnText (.int row.owner)),
    (("request" : Text), p.columnText row.shared.request),
    (("requested" : Text), p.columnText row.shared.requested)]

/-- The end of `selectService`, for a service that is not open. -/
def selectClosed (database : Database) (key : Text) (response : ResponseWrapper) : Ending :=
  match selectedClosed p database key with
  | [] => .reply .internalError none
  | (id, row) :: _ =>
    let response := ((response.push Key.completer (.strings [p.columnText (.int id)]) false).push
      Key.completed (.strings [p.columnText row.completed]) false).push
      Key.paid (.strings [p.columnText row.paid]) false
    .reply .ok (some (response.addAll Key.warrantied
      ((warrantiedParts p database key (p.columnText row.completed)).map fun part =>
        .ofFields (usedFields p part))))

/-- `selectService` once the service is found and not unauthorised. What it does with a
service that is not open is a parameter. -/
def selectOpen (database : Database) (key : Text) (fields : List (Text × Text))
    (notOpen : ResponseWrapper → Ending) : Ending :=
  match database.serviceActive.select fun _ row => row.service == p.numeric key with
  | [] => .reply .internalError none
  | (_, active) :: _ =>
    let response := ResponseWrapper.ofFields (fields ++
      [(("labour" : Text), p.columnText active.labour), (("notes" : Text), p.columnText active.notes),
        (("authoriser" : Text), p.columnText active.authoriser),
        (("quote" : Text), p.columnText active.quote)])
    match addParts p response (partsOf p database key)
        fun part => usedFields p part ++ [priceField p part] with
    | none => .reply .internalError none
    | some response =>
      -- `OPENSERVICES` has IDs of `ACTIVESERVICEDATA`, and the key is one of `SERVICESHAREDDATA`.
      if (database.serviceOpen.select fun _ row => row.service == p.numeric key).isEmpty then
        notOpen response
      else
        .reply .ok (some (response.push Key.status (.strings [("authorised" : Text)]) false))

def selectActive (database : Database) (key : Text) (fields : List (Text × Text)) : Ending :=
  selectOpen p database key fields (selectClosed p database key)

/-- `selectService` once the session is checked. -/
def selectFound (database : Database) (key : Text) (active : List (Text × Text) → Ending) :
    Ending :=
  match sharedRow database (p.numeric key) with
  | none => .reply .notFound none
  | some row =>
    if (database.serviceUnauthorised.select fun _ unauthorised =>
        unauthorised.service == p.numeric key).isEmpty then
      active (selectedFields p row)
    else
      .reply .ok (some ((ResponseWrapper.ofFields (selectedFields p row)).push Key.status
        (.strings [("unauthorised" : Text)]) false))

def selectService (server : Server) (req : Request) (q : Query) : Ending :=
  if !q.hasElement Field.id then .reply .badRequest none
  else if !hasSession req then .reply .unauthorised none
  -- The statement for other sessions names a table that is not there.
  else if !server.sessions.verify req AuthLevel.employee then .reply .internalError none
  else
    let key := (q.getElement Field.id).getD []
    selectFound p server.database key (selectActive p server.database key)

def entryRecord (row : Int × PartInService) : ResponseWrapper :=
  .ofFields
    [(("entry" : Text), p.columnText (.int row.1)),
      (("serviceID" : Text), p.columnText row.2.service),
      (("partID" : Text), p.columnText row.2.part),
      (("quantity" : Text), p.columnText row.2.quantity)]

def selectServicePart (server : Server) (req : Request) (q : Query) : Ending :=
  if !q.hasElement Field.entry then .reply .badRequest none
  else
    match refusedUser server req q with
    | some ending => ending
    | none =>
      if !hasSession req then .reply .unauthorised none
      else
        Ending.ofFirst (server.database.partsInService.select fun id _ =>
          p.isId id ((q.getElement Field.entry).getD [])) (entryRecord p)

end Views

end WFA
