-- SUMMARY: What a session below employee can change: its own vehicles and requests for them, and nothing without a session.
import WFA.Server.Routes
import WFA.Server.ServiceEffects

/-!
# Containment

Every route checks the session before it writes. Three of them let a session act
on what belongs to its user; all others want an employee. There is no transaction,
so a handler whose second statement fails leaves the row of the first one behind.
-/

namespace WFA

open Text

/-! ## Changes -/

/-- A value that stands for a user: its ID, or what a column makes of the text of
its ID. -/
def IsUser (p : Platform) (user : Nat) (v : Value) : Prop :=
  v = .int user ∨ v = p.numeric (ofNat user)

/-- The vehicle that a value names belongs to the user. -/
def OwnedBy (before : Database) (user : Nat) (v : Value) : Prop :=
  ∃ id vehicle, v = .int id ∧ before.vehicles.get id = some vehicle ∧ vehicle.owner = .int user

/-- A table with one new row. -/
def Extended {α : Type} (t t' : Table α) : Prop :=
  ∃ id row, t.insert row = some (id, t')

/-- What a session below employee may do for its user. -/
inductive Permitted (p : Platform) (before : Database) (user : Nat) : Database → Prop
  | unchanged : Permitted p before user before
  | vehicle {vehicleShared : Table VehicleShared} {vehicles : Table Vehicle} {id : Int}
      {row : Vehicle} :
      vehicleShared = before.vehicleShared ∨ Extended before.vehicleShared vehicleShared →
      before.vehicles.insert row = some (id, vehicles) → IsUser p user row.owner →
      Permitted p before user { before with vehicleShared, vehicles }
  | deleted {id : Int} {row : Vehicle} :
      before.vehicles.get id = some row → row.owner = .int user →
      Permitted p before user
        { before with vehicles := before.vehicles.delete fun other _ => decide (other = id) }
  | service {serviceShared : Table ServiceShared} {id other : Int}
      {serviceUnauthorised : Table UnauthorisedService} {row : ServiceShared} :
      before.serviceShared.insert row = some (id, serviceShared) → OwnedBy before user row.vehicle →
      before.serviceUnauthorised.insert { service := .int id } = some (other, serviceUnauthorised) →
      Permitted p before user { before with serviceShared, serviceUnauthorised }

/-- What is left when the second statement of a handler fails. -/
inductive Leftover (before : Database) (user : Nat) : Database → Prop
  | vehicleShared {vehicleShared : Table VehicleShared} :
      Extended before.vehicleShared vehicleShared →
      Leftover before user { before with vehicleShared }
  | serviceShared {serviceShared : Table ServiceShared} {id : Int} {row : ServiceShared} :
      before.serviceShared.insert row = some (id, serviceShared) → OwnedBy before user row.vehicle →
      insertUnique before.serviceUnauthorised UnauthorisedService.service { service := .int id } =
        none →
      Leftover before user { before with serviceShared }

/-- `VEHICLES.OWNER` holds integers. -/
def OwnersInteger (database : Database) : Prop :=
  ∀ id row, database.vehicles.get id = some row → ∃ n, row.owner = .int n

section Containment

variable {p : Platform} {server : Server} {req : Request} {b : Body}

/-! ## Sessions -/

theorem verify_mono {level level' : AuthLevel} (hle : level ≤ level')
    (h : server.sessions.verify req level = false) : server.sessions.verify req level' = false := by
  unfold Sessions.verify at h ⊢
  cases hcurrent : server.sessions.current req with
  | none => rfl
  | some session =>
    rw [hcurrent] at h
    simp only [decide_eq_false_iff_not] at h ⊢
    exact fun hlevel => h (hle.trans hlevel)

theorem verify_of_none (h : server.sessions.current req = none) (level : AuthLevel) :
    server.sessions.verify req level = false := by
  simp [Sessions.verify, h]

theorem isSessionUser_of_none (h : server.sessions.current req = none) (t : Text) :
    server.sessions.isSessionUser req t = false ∧
      server.sessions.isSessionUserFromID req t = false := by
  simp [Sessions.isSessionUser, Sessions.isSessionUserFromID, Sessions.getSessionUser, h]

theorem isSessionUser_eq {session : Session} (h : server.sessions.current req = some session)
    (t : Text) : server.sessions.isSessionUser req t = (ofNat session.userID == t) := by
  simp [Sessions.isSessionUser, Sessions.getSessionUser, h]

/-- A stored owner that is taken for the user of the session is that user. -/
theorem owner_of_isSessionUserFromID {session : Session} {n : Int}
    (h : server.sessions.current req = some session)
    (howner : server.sessions.isSessionUserFromID req (p.columnText (.int n)) = true) :
    n = session.userID := by
  unfold Sessions.isSessionUserFromID Sessions.getSessionUser at howner
  rw [h, Option.map_some] at howner
  cases hid : fromChars uint64Max (p.columnText (.int n)) with
  | none => simp [hid] at howner
  | some id =>
    have heq : session.userID = id := by simpa [hid] using howner
    rw [heq]
    exact fromChars_ofInt hid

/-! ## Routes for employees -/

theorem WritesFor.unchanged {allowed : Bool} {result : Server × Ending}
    (h : WritesFor server allowed result) (hnot : allowed = false) :
    result.1.database = server.database := by
  rcases h with hsame | ⟨hallowed, -⟩
  · exact hsame
  · simp [hnot] at hallowed

/-- The routes that write for sessions below employee. -/
def Route.own : Route → Bool
  | .register | .vehicleCreate | .vehicleUpdate | .vehicleDelete | .serviceCreate => true
  | _ => false

theorem handle_unchanged {route : Route} {call : Call} (hroute : route.own = false)
    (hlow : server.sessions.verify call.req AuthLevel.employee = false) :
    (handle p route server call).1.database = server.database := by
  have hmanager : server.sessions.verify call.req AuthLevel.manager = false :=
    verify_mono (by decide) hlow
  cases route with
  | request => exact authenticate_database p server call.req call.b call.fresh
  | release =>
    show (deauthenticate server call.req).1.database = server.database
    rw [deauthenticate_fst]
  | checkSession => exact congrArg Server.database (checkSession_fst server call.req)
  | userCreate => exact createUser_writes.unchanged hlow
  | userMe => exact congrArg Server.database getLocalUserData_fst
  | userDelete => exact deleteUser_writes.unchanged hlow
  | userUpdate => exact updateUser_writes.unchanged hlow
  | supplierCreate => exact createSupplier_writes.unchanged hmanager
  | supplierUpdate => exact updateSupplier_writes.unchanged hmanager
  | groupCreate => exact createPartGroup_writes.unchanged hmanager
  | groupUpdate => exact updatePartGroup_writes.unchanged hmanager
  | partCreate => exact createPart_writes.unchanged hmanager
  | partUpdate => exact updatePart_writes.unchanged hmanager
  | serviceAuthorise => exact congrArg Server.database (authoriseRequest_unchanged hmanager)
  | serviceUpdate => exact updateService_writes.unchanged hlow
  | serviceClose => exact closeService_writes.unchanged hmanager
  | servicePartAdd => exact addPartToService_writes.unchanged hlow
  | servicePartRemove => exact removePartFromService_writes.unchanged hlow
  | register => simp [Route.own] at hroute
  | vehicleCreate => simp [Route.own] at hroute
  | vehicleUpdate => simp [Route.own] at hroute
  | vehicleDelete => simp [Route.own] at hroute
  | serviceCreate => simp [Route.own] at hroute
  | _ => rfl

/-! ## Vehicles -/

theorem insertVehicleShared_cases {table table' : Table VehicleShared} {make model : Text}
    (h : insertVehicleShared table make model = some table') :
    table' = table ∨ Extended table table' := by
  unfold insertVehicleShared at h
  split at h
  · obtain ⟨⟨id, t⟩, hinsert, rfl⟩ := Option.map_eq_some_iff.mp h
    exact .inr ⟨id, _, hinsert⟩
  · exact .inl (Option.some.inj h).symm

theorem insertVehicle_eq_some {table table' : Table Vehicle} {row : Vehicle}
    (h : insertVehicle table row = some table') : ∃ id, table.insert row = some (id, table') := by
  unfold insertVehicle at h
  split at h
  · simp at h
  · obtain ⟨⟨id, t⟩, hinsert, rfl⟩ := Option.map_eq_some_iff.mp h
    exact ⟨id, (insertUnique_eq_some hinsert).1⟩

/-- The vehicle is the user's own, or the shared row alone is left. -/
theorem createVehicle_contained {session : Session}
    (hcurrent : server.sessions.current req = some session)
    (hmanager : server.sessions.verify req AuthLevel.manager = false) :
    Permitted p server.database session.userID (createVehicle p server req b).1.database ∨
      Leftover server.database session.userID (createVehicle p server req b).1.database ∧
        (createVehicle p server req b).2 = .reply .internalError none := by
  unfold createVehicle
  split
  · exact .inl .unchanged
  · split
    · exact .inl .unchanged
    · rename_i hallowed
      have howner : ofNat session.userID = (b.getElement Field.owner).getD [] := by
        rw [isSessionUser_eq hcurrent, hmanager] at hallowed
        simpa using hallowed
      have huser : IsUser p session.userID (p.numeric ((b.getElement Field.owner).getD [])) :=
        .inr (congrArg p.numeric howner.symm)
      simp only
      split
      · exact .inl .unchanged
      · rename_i vehicleShared hshared
        rcases insertVehicleShared_cases hshared with rfl | hextended
        · split
          · exact .inl .unchanged
          · rename_i vehicles hinsert
            obtain ⟨id, hinsert⟩ := insertVehicle_eq_some hinsert
            exact .inl (.vehicle (.inl rfl) hinsert huser)
        · split
          · exact .inr ⟨.vehicleShared hextended, rfl⟩
          · rename_i vehicles hinsert
            obtain ⟨id, hinsert⟩ := insertVehicle_eq_some hinsert
            exact .inl (.vehicle (.inr hextended) hinsert huser)

/-- The first owner in a result is the owner of the row that the key names. -/
theorem ownerOf_cons {database : Database} {key : Text} {owner : Value} {rest : List Value}
    (h : ownerOf p database key = owner :: rest) :
    ∃ id row, database.vehicles.get id = some row ∧ p.numeric key = .int id ∧ row.owner = owner := by
  unfold ownerOf at h
  rcases p.select_isId database.vehicles key with ⟨hnil, -⟩ | ⟨id, row, hselect, hget, hkey⟩
  · simp [hnil] at h
  · rw [hselect, List.map_singleton, List.cons.injEq] at h
    exact ⟨id, row, hget, hkey, h.1⟩

/-- A session that passes for the owner of a row is its owner. -/
theorem owner_eq {session : Session} (hcurrent : server.sessions.current req = some session)
    (howners : OwnersInteger server.database) {id : Int} {row : Vehicle}
    (hget : server.database.vehicles.get id = some row)
    (h : server.sessions.isSessionUserFromID req (p.columnText row.owner) = true) :
    row.owner = .int session.userID := by
  obtain ⟨n, hn⟩ := howners id row hget
  rw [hn] at h ⊢
  rw [owner_of_isSessionUserFromID hcurrent h]

theorem deleteVehicle_contained {session : Session}
    (hcurrent : server.sessions.current req = some session)
    (hmanager : server.sessions.verify req AuthLevel.manager = false)
    (howners : OwnersInteger server.database) :
    Permitted p server.database session.userID (deleteVehicle p server req b).1.database := by
  unfold deleteVehicle
  split
  · exact .unchanged
  · simp only
    split
    · exact .unchanged
    · rename_i owner rest hresult
      split
      · exact .unchanged
      · rename_i hallowed
        obtain ⟨id, row, hget, hkey, rfl⟩ := ownerOf_cons hresult
        have howner : row.owner = .int session.userID :=
          owner_eq hcurrent howners hget (by simpa [hmanager] using hallowed)
        have hsame : (fun (other : Int) (_ : Vehicle) =>
            p.isId other ((b.getElement Field.id).getD [])) = fun other _ => decide (other = id) := by
          funext other _
          exact p.isId_eq hkey other
        rw [hsame]
        exact .deleted hget howner

/-! ## Requests -/

theorem createRequest_contained {session : Session} {date : Text}
    (hcurrent : server.sessions.current req = some session)
    (hmanager : server.sessions.verify req AuthLevel.manager = false)
    (howners : OwnersInteger server.database) :
    Permitted p server.database session.userID (createRequest p server req b date).1.database ∨
      Leftover server.database session.userID (createRequest p server req b date).1.database ∧
        (createRequest p server req b date).2 = .reply .internalError none := by
  rcases createRequest_cases server req b date with
    hsame | ⟨haccepted, id, serviceShared, hinsert, hrest⟩
  · rw [hsame]
    exact .inl .unchanged
  · have hallowed := haccepted.allowed
    -- the request was not refused, so the vehicle belongs to the user of the session
    have howned : OwnedBy server.database session.userID (newService p b date).vehicle := by
      unfold refusedRequest at hallowed
      rw [hmanager, if_neg (by simp)] at hallowed
      split at hallowed
      · simp at hallowed
      · rename_i owner rest hresult
        split at hallowed
        · rename_i huser
          obtain ⟨vid, row, hget, hkey, rfl⟩ := ownerOf_cons hresult
          exact ⟨vid, row, hkey, hget, owner_eq hcurrent howners hget huser⟩
        · simp at hallowed
    rcases hrest with ⟨other, serviceUnauthorised, hunique, hresult⟩ | ⟨hunique, hresult⟩
    · rw [hresult]
      exact .inl (.service hinsert howned (insertUnique_eq_some hunique).1)
    · rw [hresult]
      exact .inr ⟨.serviceShared hinsert howned hunique, rfl⟩

/-! ## No session -/

theorem createVehicle_none (h : server.sessions.current req = none) :
    (createVehicle p server req b).1 = server := by
  unfold createVehicle
  rw [verify_of_none h, (isSessionUser_of_none h _).1]
  split <;> rfl

theorem updateVehicle_none (h : server.sessions.current req = none) :
    (updateVehicle p server req b).1 = server := by
  unfold updateVehicle
  split
  · rfl
  · simp only
    split
    · rfl
    · rw [verify_of_none h, (isSessionUser_of_none h _).2]
      rfl

theorem deleteVehicle_none (h : server.sessions.current req = none) :
    (deleteVehicle p server req b).1 = server := by
  unfold deleteVehicle
  split
  · rfl
  · simp only
    split
    · rfl
    · rw [verify_of_none h, (isSessionUser_of_none h _).2]
      rfl

theorem createRequest_none {date : Text} (h : server.sessions.current req = none) :
    (createRequest p server req b date).1 = server := by
  have hrefused : refusedRequest p server req b ≠ none := by
    unfold refusedRequest
    rw [verify_of_none h, if_neg (by simp)]
    split
    · simp
    · rw [(isSessionUser_of_none h _).2]
      simp
  rcases createRequest_cases server req b date with hsame | ⟨haccepted, -⟩
  · exact hsame
  · exact absurd haccepted.allowed hrefused

end Containment

/-! ## Every route -/

/-- Below employee, a request changes the database at most on behalf of its user;
when the second statement of a handler fails, the row of the first one is left.
Without a live session nothing changes. -/
theorem low_privilege_contained {p : Platform} {route : Route} {server : Server} {call : Call}
    (hroute : route ≠ .register) (howners : OwnersInteger server.database)
    (hlow : server.sessions.verify call.req AuthLevel.employee = false) :
    (route ≠ .vehicleUpdate → ∀ session, server.sessions.current call.req = some session →
      Permitted p server.database session.userID (handle p route server call).1.database ∨
        Leftover server.database session.userID (handle p route server call).1.database ∧
          (handle p route server call).2 = .reply .internalError none) ∧
    (server.sessions.current call.req = none →
      (handle p route server call).1.database = server.database) := by
  have hmanager : server.sessions.verify call.req AuthLevel.manager = false :=
    verify_mono (by decide) hlow
  cases hown : route.own with
  | false =>
    have hsame := handle_unchanged (p := p) hown hlow
    refine ⟨fun _ session _ => ?_, fun _ => hsame⟩
    rw [hsame]
    exact .inl .unchanged
  | true =>
    cases route with
    | vehicleCreate =>
      exact ⟨fun _ session hcurrent => createVehicle_contained hcurrent hmanager,
        fun hnone => congrArg Server.database (createVehicle_none hnone)⟩
    | vehicleUpdate =>
      exact ⟨fun hne => absurd rfl hne,
        fun hnone => congrArg Server.database (updateVehicle_none hnone)⟩
    | vehicleDelete =>
      exact ⟨fun _ session hcurrent => .inl (deleteVehicle_contained hcurrent hmanager howners),
        fun hnone => congrArg Server.database (deleteVehicle_none hnone)⟩
    | serviceCreate =>
      exact ⟨fun _ session hcurrent => createRequest_contained hcurrent hmanager howners,
        fun hnone => congrArg Server.database (createRequest_none hnone)⟩
    | register => exact absurd rfl hroute
    | _ => simp [Route.own] at hown

/-! ## Rows that are left behind -/

def clientSessions : Sessions :=
  Sessions.set (fun _ => none) 7 { authLevel := AuthLevel.client, userID := 1 }

/-- A client's car, and a request that is waiting for a service that is not there. -/
def clientServer : Server where
  database :=
    { vehicles :=
        { rows := [(1, { plate := .text ("AB12" : Text), base := .int 1, owner := .int 1
                         year := .int 1999, colour := .text ("red" : Text) })]
          sorted := by decide
          bounded := by decide }
      serviceUnauthorised :=
        { rows := [(1, { service := .int 1 })]
          sorted := by decide
          bounded := by decide } }
  sessions := clientSessions

theorem clientServer_integer : OwnersInteger clientServer.database := by
  intro id row hget
  obtain ⟨-, rfl⟩ : id = 1 ∧ _ = row := by
    simpa [clientServer, eq_comm] using clientServer.database.vehicles.get_eq_some_iff.mp hget
  exact ⟨1, rfl⟩

/-- A second car with the plate of the first one. -/
def duplicateCall : Call where
  req := managerRequest
  b := .ofList [(Field.plate, ("AB12" : Text)), (Field.make, ("Opel" : Text)),
    (Field.model, ("Corsa" : Text)), (Field.owner, ("1" : Text)), (Field.year, ("2000" : Text)),
    (Field.colour, ("blue" : Text))]
  q := .ofList []
  fresh := 9
  date := ("2021-05-01" : Text)

def requestCall : Call :=
  { duplicateCall with
    b := .ofList [(Field.vid, ("1" : Text)), (Field.request, ("brakes" : Text))] }

/-- The plate is taken, and the make stays; the service is pending already, and its
row stays. -/
theorem leftover_row :
    OwnersInteger clientServer.database ∧
    clientServer.sessions.current managerRequest =
      some { authLevel := AuthLevel.client, userID := 1 } ∧
    ¬ Permitted .integers clientServer.database 1
      (handle .integers .vehicleCreate clientServer duplicateCall).1.database ∧
    ¬ Permitted .integers clientServer.database 1
      (handle .integers .serviceCreate clientServer requestCall).1.database := by
  refine ⟨clientServer_integer, by decide +kernel, ?_, ?_⟩
  · have hmake : ((handle .integers .vehicleCreate clientServer
        duplicateCall).1.database.vehicleShared.get 1).isSome = true := by decide +kernel
    have hvehicle : (handle .integers .vehicleCreate clientServer
        duplicateCall).1.database.vehicles.get 2 = none := by decide +kernel
    generalize (handle .integers .vehicleCreate clientServer duplicateCall).1.database = after at *
    rintro (_ | ⟨-, hinsert, -⟩ | _ | _)
    · cases hmake
    · cases hvehicle.symm.trans (Table.get_insert_nextId hinsert)
    · cases hmake
    · cases hmake
  · have hservice : ((handle .integers .serviceCreate clientServer
        requestCall).1.database.serviceShared.get 1).isSome = true := by decide +kernel
    have hpending : (handle .integers .serviceCreate clientServer
        requestCall).1.database.serviceUnauthorised.get 2 = none := by decide +kernel
    generalize (handle .integers .serviceCreate clientServer requestCall).1.database = after at *
    rintro (_ | _ | _ | ⟨-, -, hinsert⟩)
    · cases hservice
    · cases hservice
    · cases hservice
    · cases hpending.symm.trans (Table.get_insert_nextId hinsert)

theorem low_privilege_contained_client :
    clientServer.sessions.verify duplicateCall.req AuthLevel.employee = false ∧
    (Permitted .integers clientServer.database 1
        (handle .integers .vehicleCreate clientServer duplicateCall).1.database ∨
      Leftover clientServer.database 1
          (handle .integers .vehicleCreate clientServer duplicateCall).1.database ∧
        (handle .integers .vehicleCreate clientServer duplicateCall).2 =
          .reply .internalError none) := by
  have hlow : clientServer.sessions.verify duplicateCall.req AuthLevel.employee = false := by
    decide +kernel
  have hcurrent : clientServer.sessions.current duplicateCall.req =
      some { authLevel := AuthLevel.client, userID := 1 } := by decide +kernel
  exact ⟨hlow, (low_privilege_contained (by decide) clientServer_integer hlow).1 (by decide) _
    hcurrent⟩

end WFA
