-- SUMMARY: The routes that `net` registers, and what each of them can do to the database.
import WFA.Server.ServiceViews
import WFA.Server.Parts

/-!
# Routes

`Server/src/Network.cpp`. `net` registers one handler for each path. A handler
either leaves the database alone or it has passed a check and answers with the
codes of success or of an internal error; the lemmas say so for every handler
that writes.
-/

namespace WFA

open Text

/-- The paths of `net`, in its order. -/
inductive Route where
  /-- `/request` -/
  | request
  /-- `/register` -/
  | register
  /-- `/release` -/
  | release
  /-- `/checkSession` -/
  | checkSession
  /-- `/user/create` -/
  | userCreate
  /-- `/user/me` -/
  | userMe
  /-- `/user/search` -/
  | userSearch
  /-- `/user/select` -/
  | userSelect
  /-- `/user/delete` -/
  | userDelete
  /-- `/user/update` -/
  | userUpdate
  /-- `/part/supplier/create` -/
  | supplierCreate
  /-- `/part/supplier/update` -/
  | supplierUpdate
  /-- `/part/supplier/search` -/
  | supplierSearch
  /-- `/part/supplier/select` -/
  | supplierSelect
  /-- `/part/group/create` -/
  | groupCreate
  /-- `/part/group/update` -/
  | groupUpdate
  /-- `/part/group/search` -/
  | groupSearch
  /-- `/part/group/select` -/
  | groupSelect
  /-- `/part/create` -/
  | partCreate
  /-- `/part/update` -/
  | partUpdate
  /-- `/part/search` -/
  | partSearch
  /-- `/part/select` -/
  | partSelect
  /-- `/vehicle/create` -/
  | vehicleCreate
  /-- `/vehicle/update` -/
  | vehicleUpdate
  /-- `/vehicle/delete` -/
  | vehicleDelete
  /-- `/vehicle/select` -/
  | vehicleSelect
  /-- `/service/create` -/
  | serviceCreate
  /-- `/service/authorise` -/
  | serviceAuthorise
  /-- `/service/update` -/
  | serviceUpdate
  /-- `/service/close` -/
  | serviceClose
  /-- `/service/part/add` -/
  | servicePartAdd
  /-- `/service/part/remove` -/
  | servicePartRemove
  /-- `/service/part/select` -/
  | servicePartSelect
  /-- `/service/search` -/
  | serviceSearch
  /-- `/service/select` -/
  | serviceSelect
  /-- `/debug/displayTables` -/
  | displayTables
  /-- `/ping` -/
  | ping
  /-- Every other path. -/
  | other
  deriving DecidableEq, Repr

/-- What a request brings, and what the server draws for it. -/
structure Call where
  req : Request
  b : Body
  q : Query
  /-- The session ID that is drawn. -/
  fresh : Nat
  /-- The text of `date('now')`. -/
  date : Text

section Routes

variable (p : Platform)

/-- `net`: the handler of each path. -/
def handle (route : Route) (server : Server) (call : Call) : Server × Ending :=
  match route with
  | .request => authenticate p server call.req call.b call.fresh
  | .register => registerUser p server call.req call.b call.fresh
  | .release => deauthenticate server call.req
  | .checkSession => checkSession server call.req
  | .userCreate => createUser p server call.req call.b
  | .userMe => getLocalUserData p server call.req
  | .userSearch => (server, searchUsers p server call.req call.q)
  | .userSelect => (server, selectUser p server call.req call.q)
  | .userDelete => deleteUser p server call.req call.b
  | .userUpdate => updateUser p server call.req call.b
  | .supplierCreate => createSupplier p server call.req call.b
  | .supplierUpdate => updateSupplier p server call.req call.b
  | .supplierSearch => (server, searchSuppliers p server call.req call.q)
  | .supplierSelect => (server, selectSupplier p server call.req call.q)
  | .groupCreate => createPartGroup server call.req call.b
  | .groupUpdate => updatePartGroup server call.req call.b
  | .groupSearch => (server, searchPartGroups p server call.req call.q)
  | .groupSelect => (server, selectPartGroup p server call.req call.q)
  | .partCreate => createPart p server call.req call.b
  | .partUpdate => updatePart p server call.req call.b
  | .partSearch => (server, searchParts p server call.req call.q)
  | .partSelect => (server, selectPart p server call.req call.q)
  | .vehicleCreate => createVehicle p server call.req call.b
  | .vehicleUpdate => updateVehicle p server call.req call.b
  | .vehicleDelete => deleteVehicle p server call.req call.b
  | .vehicleSelect => (server, selectVehicle p server call.req call.q)
  | .serviceCreate => createRequest p server call.req call.b call.date
  | .serviceAuthorise => authoriseRequest p server call.req call.b
  | .serviceUpdate => updateService p server call.req call.b
  | .serviceClose => closeService p server call.req call.b call.date
  | .servicePartAdd => addPartToService p server call.req call.b
  | .servicePartRemove => removePartFromService p server call.req call.b
  | .servicePartSelect => (server, selectServicePart p server call.req call.q)
  | .serviceSearch => (server, searchServices p server call.req call.q)
  | .serviceSelect => (server, selectService p server call.req call.q)
  -- The tables go to the console, not to the client.
  | .displayTables => (server, .reply .ok none)
  | .ping => (server, .reply .ok none)
  | .other => (server, .reply .badRequest none)

end Routes

/-! ## What a handler writes -/

/-- The codes of a handler that got as far as its statements. -/
def Ending.Finished (ending : Ending) : Prop :=
  ending = .reply .ok none ∨ ending = .reply .internalError none

/-- A handler that writes only for some sessions, and then gets to its end. -/
def WritesFor (server : Server) (allowed : Bool) (result : Server × Ending) : Prop :=
  result.1.database = server.database ∨ allowed = true ∧ result.2.Finished

section Writes

variable {p : Platform} {server : Server} {req : Request} {b : Body}

theorem writesFor_unchanged {allowed : Bool} {ending : Ending} :
    WritesFor server allowed (server, ending) :=
  .inl rfl

theorem writesFor_ok {database : Database} {allowed : Bool} (h : allowed = true) :
    WritesFor server allowed ({ server with database }, .reply .ok none) :=
  .inr ⟨h, .inl rfl⟩

theorem writesFor_error {database : Database} {allowed : Bool} (h : allowed = true) :
    WritesFor server allowed ({ server with database }, .reply .internalError none) :=
  .inr ⟨h, .inr rfl⟩

/-- A check that ends the handler. -/
theorem writesFor_ite {allowed c : Bool} {ending : Ending} {rest : Server × Ending}
    (h : c = false → WritesFor server allowed rest) :
    WritesFor server allowed (if c = true then (server, ending) else rest) := by
  cases c with
  | true => exact writesFor_unchanged
  | false => exact h rfl

/-! ## Users -/

theorem createUser_writes : WritesFor server (server.sessions.verify req AuthLevel.employee)
    (createUser p server req b) := by
  unfold createUser
  refine writesFor_ite fun _ => ?_
  split
  · exact writesFor_unchanged
  · refine writesFor_ite fun hrefused => ?_
    have hverified : server.sessions.verify req AuthLevel.employee = true := by
      rw [Bool.or_eq_false_iff] at hrefused
      simpa using hrefused.1
    split
    · exact writesFor_unchanged
    · exact writesFor_ok hverified

theorem deleteUser_writes : WritesFor server (server.sessions.verify req AuthLevel.employee)
    (deleteUser p server req b) := by
  unfold deleteUser
  refine writesFor_ite fun _ => writesFor_ite fun hrefused => ?_
  have hverified : server.sessions.verify req AuthLevel.employee = true := by simpa using hrefused
  simp only
  split
  · exact writesFor_unchanged
  · split
    · exact writesFor_unchanged
    · exact writesFor_ite fun _ => writesFor_ok hverified

theorem updateUser_writes : WritesFor server (server.sessions.verify req AuthLevel.employee)
    (updateUser p server req b) := by
  unfold updateUser
  refine writesFor_ite fun _ => writesFor_ite fun hrefused => ?_
  have hverified : server.sessions.verify req AuthLevel.employee = true := by simpa using hrefused
  split
  · exact writesFor_unchanged
  · simp only
    split
    · exact writesFor_unchanged
    · split
      · exact writesFor_unchanged
      · refine writesFor_ite fun _ => writesFor_ite fun _ => ?_
        split
        · exact writesFor_unchanged
        · exact writesFor_ok hverified

theorem getLocalUserData_fst : (getLocalUserData p server req).1 = server := by
  unfold getLocalUserData
  split
  · rfl
  · split <;> rfl

/-! ## Parts -/

theorem createSupplier_writes : WritesFor server (server.sessions.verify req AuthLevel.manager)
    (createSupplier p server req b) := by
  unfold createSupplier
  refine writesFor_ite fun _ => writesFor_ite fun hrefused => ?_
  have hverified : server.sessions.verify req AuthLevel.manager = true := by simpa using hrefused
  split
  · exact writesFor_unchanged
  · exact writesFor_ok hverified

theorem updateSupplier_writes : WritesFor server (server.sessions.verify req AuthLevel.manager)
    (updateSupplier p server req b) := by
  unfold updateSupplier
  refine writesFor_ite fun _ => writesFor_ite fun hrefused => writesFor_ite fun _ => ?_
  have hverified : server.sessions.verify req AuthLevel.manager = true := by simpa using hrefused
  split
  · exact writesFor_unchanged
  · exact writesFor_ok hverified

theorem createPartGroup_writes : WritesFor server (server.sessions.verify req AuthLevel.manager)
    (createPartGroup server req b) := by
  unfold createPartGroup
  refine writesFor_ite fun _ => writesFor_ite fun hrefused => ?_
  have hverified : server.sessions.verify req AuthLevel.manager = true := by simpa using hrefused
  split
  · exact writesFor_unchanged
  · exact writesFor_ok hverified

theorem updatePartGroup_writes : WritesFor server (server.sessions.verify req AuthLevel.manager)
    (updatePartGroup server req b) := by
  unfold updatePartGroup
  refine writesFor_ite fun _ => writesFor_ite fun hrefused => ?_
  have hverified : server.sessions.verify req AuthLevel.manager = true := by simpa using hrefused
  split
  · exact writesFor_unchanged
  · exact writesFor_ok hverified

theorem createPart_writes : WritesFor server (server.sessions.verify req AuthLevel.manager)
    (createPart p server req b) := by
  unfold createPart
  refine writesFor_ite fun _ => writesFor_ite fun hrefused => writesFor_ite fun _ => ?_
  have hverified : server.sessions.verify req AuthLevel.manager = true := by simpa using hrefused
  split
  · exact writesFor_unchanged
  · exact writesFor_ok hverified

theorem updatePart_writes : WritesFor server (server.sessions.verify req AuthLevel.manager)
    (updatePart p server req b) := by
  unfold updatePart
  refine writesFor_ite fun _ => writesFor_ite fun hrefused => writesFor_ite fun _ => ?_
  have hverified : server.sessions.verify req AuthLevel.manager = true := by simpa using hrefused
  split
  · exact writesFor_unchanged
  · exact writesFor_ok hverified

/-! ## Services -/

theorem authoriseRequest_unchanged (h : server.sessions.verify req AuthLevel.manager = false) :
    (authoriseRequest p server req b).1 = server := by
  unfold authoriseRequest
  split
  · rfl
  · simp [h]

theorem updateService_writes : WritesFor server (server.sessions.verify req AuthLevel.employee)
    (updateService p server req b) := by
  unfold updateService
  refine writesFor_ite fun _ => writesFor_ite fun hrefused => writesFor_ite fun _ => ?_
  have hverified : server.sessions.verify req AuthLevel.employee = true := by simpa using hrefused
  split
  · exact writesFor_unchanged
  · exact writesFor_ok hverified

theorem closeService_writes {date : Text} :
    WritesFor server (server.sessions.verify req AuthLevel.manager)
      (closeService p server req b date) := by
  unfold closeService
  refine writesFor_ite fun _ => writesFor_ite fun hrefused => ?_
  have hverified : server.sessions.verify req AuthLevel.manager = true := by simpa using hrefused
  simp only
  split
  · split
    · exact writesFor_unchanged
    · exact writesFor_ok hverified
  · exact writesFor_unchanged

theorem addPartToService_writes : WritesFor server (server.sessions.verify req AuthLevel.employee)
    (addPartToService p server req b) := by
  unfold addPartToService
  refine writesFor_ite fun _ => writesFor_ite fun hrefused => writesFor_ite fun _ => ?_
  have hverified : server.sessions.verify req AuthLevel.employee = true := by simpa using hrefused
  simp only
  split
  · exact writesFor_ok hverified
  · split
    · exact writesFor_unchanged
    · exact writesFor_ok hverified

theorem removePartFromService_writes :
    WritesFor server (server.sessions.verify req AuthLevel.employee)
      (removePartFromService p server req b) := by
  unfold removePartFromService
  refine writesFor_ite fun _ => writesFor_ite fun hrefused => ?_
  have hverified : server.sessions.verify req AuthLevel.employee = true := by simpa using hrefused
  simp only
  split
  · exact writesFor_unchanged
  · split
    · exact writesFor_unchanged
    · exact writesFor_unchanged
    · split
      · exact writesFor_unchanged
      · split
        · exact writesFor_ok hverified
        · exact writesFor_ok hverified

end Writes

end WFA
