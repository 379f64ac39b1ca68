-- SUMMARY: A rejected request leaves the database as it was, but for two routes that write before they look.
import WFA.Server.AccessChecks
import WFA.Server.ServiceEffects
import WFA.Server.UserEffects
import WFA.Server.Passwords

/-!
# Rejected requests

`registerUser` inserts the account and then logs it in with a password that it has
not stored as `request` compares it, so it answers that the login failed, or, when a
session was released before, 200.
`authoriseRequest` reads the quote after it has deleted the request. Every other
handler makes its checks before its statements.
-/

namespace WFA

open Text

/-- A code that says the request was refused, or an exception. -/
def Ending.Rejected (ending : Ending) : Prop :=
  ending = .exception ∨ ∃ status response, ending = .reply status response ∧
    status ∈ [Status.badRequest, .unauthorised, .forbidden, .notFound, .conflict]

theorem Ending.Finished.not_rejected {ending : Ending} (h : ending.Finished) : ¬ ending.Rejected := by
  rintro (rfl | ⟨status, response, rfl, hstatus⟩)
  · rcases h with h | h <;> cases h
  · rcases h with h | h
    · cases h
      simp at hstatus
    · cases h
      simp at hstatus

section Rejections

variable {p : Platform} {server : Server} {req : Request} {b : Body}

/-- What a rejection leaves, for a handler that gets to its end when it writes. -/
theorem WritesFor.rejected {allowed : Bool} {result : Server × Ending}
    (h : WritesFor server allowed result) (hrejected : result.2.Rejected) :
    result.1.database = server.database := by
  rcases h with hsame | ⟨-, hfinished⟩
  · exact hsame
  · exact absurd hrejected hfinished.not_rejected

/-! ## Routes that act for a user -/

theorem createVehicle_finishes : WritesFor server true (createVehicle p server req b) := by
  unfold createVehicle
  refine writesFor_ite fun _ => writesFor_ite fun _ => ?_
  simp only
  split
  · exact writesFor_unchanged
  · split
    · exact writesFor_error rfl
    · exact writesFor_ok rfl

theorem updateVehicle_finishes : WritesFor server true (updateVehicle p server req b) := by
  unfold updateVehicle
  refine writesFor_ite fun _ => ?_
  simp only
  split
  · exact writesFor_unchanged
  · refine writesFor_ite fun _ => writesFor_ite fun _ => ?_
    split
    · exact writesFor_unchanged
    · exact writesFor_ok rfl

theorem deleteVehicle_finishes : WritesFor server true (deleteVehicle p server req b) := by
  unfold deleteVehicle
  refine writesFor_ite fun _ => ?_
  simp only
  split
  · exact writesFor_unchanged
  · exact writesFor_ite fun _ => writesFor_ok rfl

theorem createRequest_finishes {date : Text} :
    WritesFor server true (createRequest p server req b date) := by
  rcases createRequest_cases server req b date with
    hsame | ⟨-, id, serviceShared, -, ⟨other, pending, -, hresult⟩ | ⟨-, hresult⟩⟩
  · exact .inl (congrArg Server.database hsame)
  · rw [hresult]
    exact .inr ⟨rfl, .inl rfl⟩
  · rw [hresult]
    exact .inr ⟨rfl, .inr rfl⟩

/-! ## Registering -/

/-- The fields are there, the name is free, and the cookie holds no number. With one, the
session that it names is released before the refusal, and the answer is sent as 200. -/
structure NewAccount (server : Server) (req : Request) (b : Body) : Prop where
  cookie : getSessionID req = none
  fields : b.containsAll [Field.username, Field.password] = true
  free : ∀ id user, server.database.users.get id = some user →
    user.username ≠ .text ((b.getElement Field.username).getD [])
  room : Roomy server.database.users

/-- A row that holds the password itself is not found by its hash. -/
theorem login_inserted {users users' : Table User} {username password : Text} {permissions : Value}
    {id : Int} (hne : password ≠ [])
    (h : insertUser p users username password permissions = some (id, users')) :
    login p users' username password = .denied := by
  have hnone : matchingUsers users' username password = [] := by
    refine users'.select_eq_nil ?_
    intro other user hget
    rw [(insertUser_get h).2] at hget
    split at hget
    · obtain rfl := Option.some.inj hget
      have hhash : hash password ≠ password := hash_ne hne
      simp [newUser, hhash.symm]
    · have hname := (insertUser_eq_some h).2 other user hget
      simp [hname]
  rw [login, hnone]

theorem insertUser_isSome_iff {users : Table User} {username password : Text} {permissions : Value} :
    (∃ inserted, insertUser p users username password permissions = some inserted) ↔
      (∀ id user, users.get id = some user → user.username ≠ .text username) ∧ Roomy users := by
  constructor
  · rintro ⟨⟨id, users'⟩, h⟩
    obtain ⟨hinsert, hfree⟩ := insertUser_eq_some h
    exact ⟨hfree, roomy_of_insert hinsert⟩
  · rintro ⟨hfree, hroom⟩
    have hempty : (users.select fun _ user => user.username == .text username).isEmpty = true := by
      refine List.isEmpty_iff.mpr (users.select_eq_nil ?_)
      intro id user hget
      simpa using hfree id user hget
    obtain ⟨users', hinsert⟩ := insert_isSome hroom (newUser p username password permissions)
    exact ⟨_, by rw [insertUser, if_pos hempty]; exact hinsert⟩

theorem authenticate_denied {fresh : Nat}
    (hall : b.containsAll [Field.username, Field.password] = true)
    (hlogin : login p server.database.users ((b.getElement Field.username).getD [])
      ((b.getElement Field.password).getD []) = .denied) :
    (authenticate p server req b fresh).2 = .reply (releasedStatus req .unauthorised) none := by
  simp [authenticate, request, hall, hlogin]

theorem releasedStatus_rejected_iff {req : Request} {status : Status}
    (hstatus : status ∈ [Status.badRequest, .unauthorised, .forbidden, .notFound, .conflict]) :
    (Ending.reply (releasedStatus req status) none).Rejected ↔ getSessionID req = none := by
  unfold releasedStatus hasSession
  cases getSessionID req with
  | none => simpa [Ending.Rejected] using hstatus
  | some id => simp [Ending.Rejected]

theorem registerUser_keeps_iff {fresh : Nat} :
    ((registerUser p server req b fresh).2.Rejected →
      (registerUser p server req b fresh).1.database = server.database) ↔
        ¬ NewAccount server req b := by
  cases hall : b.containsAll [Field.username, Field.password] with
  | false =>
    refine ⟨fun _ hnew => by simp [hnew.fields] at hall, fun _ _ => ?_⟩
    simp [registerUser, hall]
  | true =>
    cases hinsert : insertUser p server.database.users ((b.getElement Field.username).getD [])
        ((b.getElement Field.password).getD []) (.int 1) with
    | none =>
      refine ⟨fun _ hnew => ?_, fun _ _ => ?_⟩
      · obtain ⟨inserted, hsome⟩ := insertUser_isSome_iff.mpr ⟨hnew.free, hnew.room⟩
        exact absurd (hinsert.symm.trans hsome) (by simp)
      · rw [registerUser_fst, if_pos hall, authenticate_database]
        simp [registered, registerInsert, hinsert]
    | some inserted =>
      -- the account is there, and the login is refused
      obtain ⟨id, users⟩ := inserted
      have hpassword : (b.getElement Field.password).getD [] ≠ [] := by
        obtain ⟨password, hpassword, hne⟩ := QueryBase.hasElement_iff.mp
          (List.all_eq_true.mp hall Field.password (by simp))
        simpa [hpassword] using hne
      have hnew : getSessionID req = none → NewAccount server req b := fun hcookie =>
        ⟨hcookie, hall, (insertUser_isSome_iff.mp ⟨_, hinsert⟩).1,
          (insertUser_isSome_iff.mp ⟨_, hinsert⟩).2⟩
      have hending : (registerUser p server req b fresh).2 =
          .reply (releasedStatus req .unauthorised) none := by
        simp only [registerUser, hall, hinsert, Bool.not_true, Bool.false_eq_true, if_false]
        exact authenticate_denied hall (login_inserted hpassword hinsert)
      have hrejected : (registerUser p server req b fresh).2.Rejected ↔ getSessionID req = none :=
        hending ▸ releasedStatus_rejected_iff (by simp)
      have hdatabase : (registerUser p server req b fresh).1.database =
          { server.database with users } := by
        rw [registerUser_fst, if_pos hall, authenticate_database]
        simp [registered, registerInsert, hinsert]
      refine ⟨fun hkeeps hnew => ?_, fun hnot hrefused => absurd (hnew (hrejected.mp hrefused)) hnot⟩
      have hsame : users = server.database.users := by
        have := hkeeps (hrejected.mpr hnew.cookie)
        rw [hdatabase] at this
        exact congrArg Database.users this
      obtain ⟨hnone, hget⟩ := insertUser_get hinsert
      have hsome := hget id
      rw [if_pos rfl, hsame, hnone] at hsome
      cases hsome

/-! ## Authorising -/

/-- A manager names the one pending request with an ID and gives no quote. -/
structure QuoteMissing (p : Platform) (server : Server) (req : Request) (b : Body) : Prop where
  manager : server.sessions.verify req AuthLevel.manager = true
  has : b.hasElement Field.id = true
  found : ∃ row, (server.database.serviceUnauthorised.select fun _ row =>
    row.service == p.numeric ((b.getElement Field.id).getD [])) = [row]
  quote : b.getElement Field.quote = none

theorem openService_finishes (database : Database) (row : ActiveService) :
    (openService database row).2.Finished := by
  unfold openService
  split
  · exact .inr rfl
  · simp only
    split
    · exact .inr rfl
    · exact .inl rfl

theorem withoutRequest_ne {database : Database} {v : Value} {row : Int × UnauthorisedService}
    (h : (database.serviceUnauthorised.select fun _ row => row.service == v) = [row]) :
    withoutRequest database v ≠ database := by
  intro heq
  have hmem : (row.1, row.2) ∈ database.serviceUnauthorised.select fun _ row => row.service == v := by
    simp [h]
  obtain ⟨hget, hservice⟩ := database.serviceUnauthorised.mem_select.mp hmem
  have hgone : (withoutRequest database v).serviceUnauthorised.get row.1 = none := by
    rw [withoutRequest, Table.get_delete, hget, Option.filter_some, hservice]
    rfl
  rw [heq, hget] at hgone
  cases hgone

theorem authoriseRequest_keeps_iff :
    ((authoriseRequest p server req b).2.Rejected →
      (authoriseRequest p server req b).1.database = server.database) ↔
        ¬ QuoteMissing p server req b := by
  rcases authoriseRequest_cases server req b with ⟨hsame, hnot⟩ | ⟨key, user, haccepted, hrest⟩
  · refine ⟨fun _ hmissing => ?_, fun _ _ => congrArg Server.database hsame⟩
    obtain ⟨user, huser⟩ := user_of_verify hmissing.manager
    exact hnot _ user ⟨by simp [hmissing.has], hmissing.manager,
      QueryBase.getElement_of_has hmissing.has, huser, hmissing.found⟩
  · have hkey : (b.getElement Field.id).getD [] = key := by simp [haccepted.named]
    rcases hrest with ⟨hquote, hresult⟩ | ⟨quote, hquote, hresult⟩
    · have hhas : b.hasElement Field.id = true := by
        have hfields := haccepted.fields
        have hnone : b.hasElement Field.quote = false := by
          unfold QueryBase.getElement at hquote
          simp [QueryBase.hasElement, hquote]
        simpa [hnone] using hfields
      have hmissing : QuoteMissing p server req b :=
        ⟨haccepted.manager, hhas, by rw [hkey]; exact haccepted.found, hquote⟩
      obtain ⟨row, hrow⟩ := haccepted.found
      rw [hresult]
      exact ⟨fun hkeeps => absurd (hkeeps (.inl rfl)) (withoutRequest_ne hrow),
        fun hnot => absurd hmissing hnot⟩
    · refine ⟨fun _ hmissing => ?_, fun _ hrejected => ?_⟩
      · exact absurd (hmissing.quote.symm.trans hquote) (by simp)
      · rw [hresult] at hrejected
        exact absurd hrejected (openService_finishes _ _).not_rejected

end Rejections

/-! ## Every route -/

/-- The requests that write and are then rejected. -/
def WritesFirst (p : Platform) (route : Route) (server : Server) (call : Call) : Prop :=
  match route with
  | .register => NewAccount server call.req call.b
  | .serviceAuthorise => QuoteMissing p server call.req call.b
  | _ => False

/-- A rejected request changes nothing exactly when it is no registration of a new
account without a session to release, and no authorisation of a pending request without
a quote. -/
theorem rejected_keeps_iff (p : Platform) (route : Route) (server : Server) (call : Call) :
    ((Access.handle p route server call).2.Rejected →
      (Access.handle p route server call).1.database = server.database) ↔
        ¬ WritesFirst p route server call := by
  rw [Access.handle_eq]
  cases route with
  | register => exact registerUser_keeps_iff
  | serviceAuthorise => exact authoriseRequest_keeps_iff
  | request =>
    exact ⟨fun _ => id, fun _ _ => authenticate_database p server call.req call.b call.fresh⟩
  | release =>
    refine ⟨fun _ => id, fun _ _ => ?_⟩
    show (deauthenticate server call.req).1.database = server.database
    rw [deauthenticate_fst]
  | checkSession =>
    exact ⟨fun _ => id, fun _ _ => congrArg Server.database (checkSession_fst server call.req)⟩
  | userMe => exact ⟨fun _ => id, fun _ _ => congrArg Server.database getLocalUserData_fst⟩
  | userCreate => exact ⟨fun _ => id, fun _ => createUser_writes.rejected⟩
  | userDelete => exact ⟨fun _ => id, fun _ => deleteUser_writes.rejected⟩
  | userUpdate => exact ⟨fun _ => id, fun _ => updateUser_writes.rejected⟩
  | supplierCreate => exact ⟨fun _ => id, fun _ => createSupplier_writes.rejected⟩
  | supplierUpdate => exact ⟨fun _ => id, fun _ => updateSupplier_writes.rejected⟩
  | groupCreate => exact ⟨fun _ => id, fun _ => createPartGroup_writes.rejected⟩
  | groupUpdate => exact ⟨fun _ => id, fun _ => updatePartGroup_writes.rejected⟩
  | partCreate => exact ⟨fun _ => id, fun _ => createPart_writes.rejected⟩
  | partUpdate => exact ⟨fun _ => id, fun _ => updatePart_writes.rejected⟩
  | vehicleCreate => exact ⟨fun _ => id, fun _ => createVehicle_finishes.rejected⟩
  | vehicleUpdate => exact ⟨fun _ => id, fun _ => updateVehicle_finishes.rejected⟩
  | vehicleDelete => exact ⟨fun _ => id, fun _ => deleteVehicle_finishes.rejected⟩
  | serviceCreate => exact ⟨fun _ => id, fun _ => createRequest_finishes.rejected⟩
  | serviceUpdate => exact ⟨fun _ => id, fun _ => updateService_writes.rejected⟩
  | serviceClose => exact ⟨fun _ => id, fun _ => closeService_writes.rejected⟩
  | servicePartAdd => exact ⟨fun _ => id, fun _ => addPartToService_writes.rejected⟩
  | servicePartRemove => exact ⟨fun _ => id, fun _ => removePartFromService_writes.rejected⟩
  | _ => exact ⟨fun _ => id, fun _ _ => rfl⟩

/-! ## Two rejections that write -/

/-- A manager, and one request that is waiting. -/
def pendingServer : Server where
  database := { serviceUnauthorised := single { service := .int 1 } }
  sessions := managerSessions

def registerCall : Call where
  req := { cookie := [] }
  b := credentials ("bob" : Text) ("pass" : Text)
  q := .ofList []
  fresh := 9
  date := ("2021-05-01" : Text)

def authoriseCall : Call :=
  { registerCall with req := managerRequest, b := .ofList [(Field.id, ("1" : Text))] }

/-- The account is there and the answer is 401; the request is gone and the handler
ended by an exception. -/
theorem rejected_and_written :
    ((Access.handle .integers .register pendingServer registerCall).2.Rejected ∧
      (Access.handle .integers .register pendingServer registerCall).1.database ≠
        pendingServer.database) ∧
    (Access.handle .integers .serviceAuthorise pendingServer authoriseCall).2 = .exception ∧
      (Access.handle .integers .serviceAuthorise pendingServer authoriseCall).1.database ≠
        pendingServer.database := by
  refine ⟨⟨.inr ⟨.unauthorised, none, rfl, by decide⟩, ?_⟩, rfl, ?_⟩
  · intro hsame
    have hbob : ((Access.handle .integers .register pendingServer
        registerCall).1.database.users.get 1).isSome = true := by decide +kernel
    rw [hsame] at hbob
    cases hbob
  · intro hsame
    have hgone : (Access.handle .integers .serviceAuthorise pendingServer
        authoriseCall).1.database.serviceUnauthorised.get 1 = none := by decide +kernel
    rw [hsame] at hgone
    cases hgone

end WFA
