-- SUMMARY: When a handler ends by an exception or reads a row that is not there, and that it does so only then.
import WFA.Server.AccessChecks
import WFA.Server.ServiceEffects

/-!
# Accesses that fail

Nine of the handlers reach for something that no check covers: the level of a session
that only the cookie names, the row of a user or a vehicle that is gone, an element
of the form that was not asked for. For each of them the condition is exact.
-/

namespace WFA

open Text

/-- The handler met no missing element, no empty optional and no missing row. -/
def Ending.Defined (ending : Ending) : Prop :=
  ending ≠ .exception ∧ ending ≠ .undefined

/-- The handler answers. -/
def Ending.Replies (ending : Ending) : Prop :=
  ∃ status response, ending = .reply status response

theorem Ending.Replies.defined {ending : Ending} (h : ending.Replies) : ending.Defined := by
  obtain ⟨status, response, rfl⟩ := h
  exact ⟨by simp, by simp⟩

@[simp] theorem Ending.defined_reply (status : Status) (response : Option ResponseWrapper) :
    (Ending.reply status response).Defined :=
  ⟨by simp, by simp⟩

@[simp] theorem Ending.not_defined_exception : ¬ Ending.exception.Defined := fun h => h.1 rfl

@[simp] theorem Ending.not_defined_undefined : ¬ Ending.undefined.Defined := fun h => h.2 rfl

section Totality

variable {p : Platform} {server : Server} {req : Request} {b : Body} {q : Query}

/-! ## Handlers that always answer -/

theorem authenticate_defined {fresh : Nat} : (authenticate p server req b fresh).2.Defined := by
  unfold authenticate
  split
  · simp
  · split
    · simp
    · simp
    · exact ⟨by simp, by simp⟩

theorem registerUser_defined {fresh : Nat} : (registerUser p server req b fresh).2.Defined := by
  unfold registerUser
  split
  · simp
  · split
    · simp only
      have hdefined : (authenticate p server req b fresh).2.Defined := authenticate_defined
      cases hending : (authenticate p server req b fresh).2 with
      | exception => simp [hending] at hdefined
      | undefined => simp [hending] at hdefined
      | reply status response => simp [Ending.withStatus]
      | aborted => exact ⟨by simp [Ending.withStatus], by simp [Ending.withStatus]⟩
    · exact authenticate_defined

theorem createUser_replies : (createUser p server req b).2.Replies := by
  unfold createUser
  (repeat' split) <;> exact ⟨_, _, rfl⟩

theorem deleteUser_replies : (deleteUser p server req b).2.Replies := by
  unfold deleteUser
  simp only
  (repeat' split) <;> exact ⟨_, _, rfl⟩

theorem updateUser_replies : (updateUser p server req b).2.Replies := by
  unfold updateUser
  simp only
  (repeat' split) <;> exact ⟨_, _, rfl⟩

theorem createSupplier_replies : (createSupplier p server req b).2.Replies := by
  unfold createSupplier
  (repeat' split) <;> exact ⟨_, _, rfl⟩

theorem updateSupplier_replies : (updateSupplier p server req b).2.Replies := by
  unfold updateSupplier
  (repeat' split) <;> exact ⟨_, _, rfl⟩

theorem createPartGroup_replies : (createPartGroup server req b).2.Replies := by
  unfold createPartGroup
  (repeat' split) <;> exact ⟨_, _, rfl⟩

theorem updatePartGroup_replies : (updatePartGroup server req b).2.Replies := by
  unfold updatePartGroup
  (repeat' split) <;> exact ⟨_, _, rfl⟩

theorem createPart_replies : (createPart p server req b).2.Replies := by
  unfold createPart
  (repeat' split) <;> exact ⟨_, _, rfl⟩

theorem updatePart_replies : (updatePart p server req b).2.Replies := by
  unfold updatePart
  (repeat' split) <;> exact ⟨_, _, rfl⟩

theorem createVehicle_replies : (createVehicle p server req b).2.Replies := by
  unfold createVehicle
  simp only
  (repeat' split) <;> exact ⟨_, _, rfl⟩

theorem updateService_replies : (updateService p server req b).2.Replies := by
  unfold updateService
  (repeat' split) <;> exact ⟨_, _, rfl⟩

theorem addPartToService_replies : (addPartToService p server req b).2.Replies := by
  unfold addPartToService
  simp only
  (repeat' split) <;> exact ⟨_, _, rfl⟩

theorem removePartFromService_replies : (removePartFromService p server req b).2.Replies := by
  unfold removePartFromService
  simp only
  (repeat' split) <;> exact ⟨_, _, rfl⟩

/-- The checks in front of a search. -/
theorem replies_checked {missing refused : Prop} [Decidable missing] [Decidable refused]
    {ending : Ending} (h : ending.Replies) :
    (if missing then Ending.reply .badRequest none
      else if refused then .reply .forbidden none else ending).Replies := by
  split
  · exact ⟨_, _, rfl⟩
  · split
    · exact ⟨_, _, rfl⟩
    · exact h

theorem Ending.ofFirst_replies {α : Type} (rows : List α) (record : α → ResponseWrapper) :
    (Ending.ofFirst rows record).Replies := by
  cases rows with
  | nil => exact ⟨_, _, rfl⟩
  | cons row rest => exact ⟨_, _, rfl⟩

theorem Ending.ofRows_replies {α : Type} (rows : List α) (record : List α → ResponseWrapper) :
    (Ending.ofRows rows record).Replies := by
  unfold Ending.ofRows
  split <;> exact ⟨_, _, rfl⟩

theorem searchUsers_replies : (searchUsers p server req q).Replies :=
  replies_checked (Ending.ofRows_replies _ _)

theorem selectUser_replies : (selectUser p server req q).Replies :=
  replies_checked (Ending.ofFirst_replies _ _)

theorem searchSuppliers_replies : (searchSuppliers p server req q).Replies :=
  replies_checked (Ending.ofRows_replies _ _)

theorem selectSupplier_replies : (selectSupplier p server req q).Replies :=
  replies_checked (Ending.ofFirst_replies _ _)

theorem searchPartGroups_replies : (searchPartGroups p server req q).Replies :=
  replies_checked (Ending.ofRows_replies _ _)

theorem selectPartGroup_replies : (selectPartGroup p server req q).Replies :=
  replies_checked (Ending.ofFirst_replies _ _)

theorem searchParts_replies : (searchParts p server req q).Replies :=
  replies_checked ⟨_, _, rfl⟩

theorem selectPart_replies : (selectPart p server req q).Replies :=
  replies_checked (Ending.ofFirst_replies _ _)

theorem selectService_replies : (selectService p server req q).Replies := by
  unfold selectService selectFound selectActive selectOpen selectClosed
  simp only
  (repeat' split) <;> exact ⟨_, _, rfl⟩

/-! ## Sessions and users -/

theorem checkSession_defined_iff : (checkSession server req).2.Defined ↔
    (hasSession req = true → (server.sessions.current req).isSome = true) := by
  unfold checkSession Sessions.getSessionAuthLevel
  cases hasSession req with
  | false => simp
  | true => cases server.sessions.current req <;> simp

/-- The user of a session has a row. -/
def UserThere (p : Platform) (server : Server) (req : Request) : Prop :=
  ∀ user, server.sessions.getSessionUser req = some user →
    ∃ id row, server.database.users.get id = some row ∧ p.isId id (ofNat user) = true

/-- A result has no row exactly when no row of the table is selected. -/
theorem select_cases {α : Type} (t : Table α) (selected : Int → α → Bool) :
    (t.select selected = [] ∧ ¬ ∃ id row, t.get id = some row ∧ selected id row = true) ∨
      ∃ row rest, t.select selected = row :: rest ∧
        ∃ id row, t.get id = some row ∧ selected id row = true := by
  cases hrows : t.select selected with
  | nil =>
    refine .inl ⟨rfl, ?_⟩
    rintro ⟨id, row, hget, hselected⟩
    have hmem : (id, row) ∈ t.select selected := t.mem_select.mpr ⟨hget, hselected⟩
    simp [hrows] at hmem
  | cons row rest =>
    refine .inr ⟨row, rest, rfl, row.1, row.2, ?_⟩
    exact t.mem_select.mp (by simp [hrows])

theorem getLocalUserData_defined_iff :
    (getLocalUserData p server req).2.Defined ↔ UserThere p server req := by
  unfold getLocalUserData UserThere
  cases server.sessions.getSessionUser req with
  | none => simp
  | some user =>
    simp only [Option.some.injEq, forall_eq']
    rcases select_cases server.database.users fun id _ => p.isId id (ofNat user) with
      ⟨hnil, hnone⟩ | ⟨row, rest, hcons, hsome⟩
    · simp only [hnil, Ending.not_defined_undefined, false_iff]
      exact hnone
    · simp only [hcons, Ending.defined_reply, true_iff]
      exact hsome

/-! ## Vehicles -/

/-- A vehicle has the ID that a text names. -/
def VehicleThere (p : Platform) (database : Database) (key : Text) : Prop :=
  ∃ id row, database.vehicles.get id = some row ∧ p.isId id key = true

theorem ownerOf_cases (database : Database) (key : Text) :
    (ownerOf p database key = [] ∧ ¬ VehicleThere p database key) ∨
      ∃ owner rest, ownerOf p database key = owner :: rest ∧ VehicleThere p database key := by
  unfold ownerOf VehicleThere
  rcases select_cases database.vehicles fun id _ => p.isId id key with
    ⟨hnil, hnone⟩ | ⟨row, rest, hcons, hsome⟩
  · exact .inl ⟨by rw [hnil, List.map_nil], hnone⟩
  · exact .inr ⟨_, _, by rw [hcons, List.map_cons], hsome⟩

/-- A handler that looks up the owner of a vehicle, once it has been given an ID. -/
theorem owner_defined_iff {given : Bool} {database : Database} {key : Text} {ending : Ending}
    (hmissing : given = false → ending.Replies)
    (hnil : given = true → ownerOf p database key = [] → ending = .undefined)
    (hcons : given = true → ∀ owner rest, ownerOf p database key = owner :: rest →
      ending.Replies) :
    ending.Defined ↔ (given = true → VehicleThere p database key) := by
  cases given with
  | false => exact iff_of_true (hmissing rfl).defined fun h => absurd h (by simp)
  | true =>
    rcases ownerOf_cases (p := p) database key with ⟨hno, hnone⟩ | ⟨owner, rest, howner, hsome⟩
    · rw [hnil rfl hno]
      exact iff_of_false Ending.not_defined_undefined fun h => hnone (h rfl)
    · exact iff_of_true (hcons rfl owner rest howner).defined fun _ => hsome

theorem updateVehicle_defined_iff : (updateVehicle p server req b).2.Defined ↔
    (b.hasElement Field.id = true →
      VehicleThere p server.database ((b.getElement Field.id).getD [])) := by
  refine owner_defined_iff (fun hhas => ?_) (fun hhas hnil => ?_) fun hhas owner rest hcons => ?_
  · exact ⟨.badRequest, none, by simp [updateVehicle, hhas]⟩
  · simp [updateVehicle, hhas, hnil]
  · simp only [updateVehicle, hhas, hcons, Bool.not_true, Bool.false_eq_true, if_false]
    (repeat' split) <;> exact ⟨_, _, rfl⟩

theorem deleteVehicle_defined_iff : (deleteVehicle p server req b).2.Defined ↔
    (b.hasElement Field.id = true →
      VehicleThere p server.database ((b.getElement Field.id).getD [])) := by
  refine owner_defined_iff (fun hhas => ?_) (fun hhas hnil => ?_) fun hhas owner rest hcons => ?_
  · exact ⟨.badRequest, none, by simp [deleteVehicle, hhas]⟩
  · simp [deleteVehicle, hhas, hnil]
  · simp only [deleteVehicle, hhas, hcons, Bool.not_true, Bool.false_eq_true, if_false]
    split <;> exact ⟨_, _, rfl⟩

theorem selectVehicle_defined_iff : (selectVehicle p server req q).Defined ↔
    (q.hasElement Field.id = true →
      VehicleThere p server.database ((q.getElement Field.id).getD [])) := by
  refine owner_defined_iff (fun hhas => ?_) (fun hhas hnil => ?_) fun hhas owner rest hcons => ?_
  · exact ⟨.badRequest, none, by simp [selectVehicle, hhas]⟩
  · simp [selectVehicle, hhas, hnil]
  · simp only [selectVehicle, hhas, hcons, Bool.not_true, Bool.false_eq_true, if_false]
    split
    · exact ⟨_, _, rfl⟩
    · exact Ending.ofFirst_replies _ _

/-! ## Services -/

theorem createRequest_defined_iff {date : Text} : (createRequest p server req b date).2.Defined ↔
    (b.containsAll [Field.vid, Field.request] = true →
      server.sessions.verify req AuthLevel.manager = false →
        VehicleThere p server.database ((b.getElement Field.vid).getD [])) := by
  unfold createRequest refusedRequest
  cases b.containsAll [Field.vid, Field.request] with
  | false => simp
  | true =>
    cases server.sessions.verify req AuthLevel.manager with
    | true =>
      simp only [Bool.not_true, Bool.false_eq_true, if_false, if_true, Bool.true_eq_false,
        false_imp_iff, imp_true_iff, iff_true]
      (repeat' split) <;> exact Ending.defined_reply _ _
    | false =>
      simp only [Bool.not_true, Bool.false_eq_true, if_false, forall_const]
      rcases ownerOf_cases (p := p) server.database ((b.getElement Field.vid).getD []) with
        ⟨hnil, hnone⟩ | ⟨owner, rest, hcons, hsome⟩
      · simp [hnil, hnone]
      · simp only [hcons, hsome, iff_true]
        cases server.sessions.isSessionUserFromID req (p.columnText owner) with
        | false => exact Ending.defined_reply _ _
        | true =>
          simp only [if_true]
          (repeat' split) <;> exact Ending.defined_reply _ _

/-- What `authoriseRequest` reads without a check: the ID, and the quote once the
request is found. -/
def AuthoriseRead (p : Platform) (server : Server) (req : Request) (b : Body) : Prop :=
  (b.hasElement Field.id || b.hasElement Field.quote) = true →
    server.sessions.verify req AuthLevel.manager = true →
      ∃ key, b.getElement Field.id = some key ∧
        ((∃ row, (server.database.serviceUnauthorised.select fun _ row =>
          row.service == p.numeric key) = [row]) → (b.getElement Field.quote).isSome = true)

theorem authoriseRequest_defined_iff :
    (authoriseRequest p server req b).2.Defined ↔ AuthoriseRead p server req b := by
  unfold authoriseRequest AuthoriseRead
  rw [← Bool.not_or]
  cases b.hasElement Field.id || b.hasElement Field.quote with
  | false => simp
  | true =>
    cases hmanager : server.sessions.verify req AuthLevel.manager with
    | false => simp
    | true =>
      obtain ⟨user, huser⟩ := user_of_verify hmanager
      cases b.getElement Field.id with
      | none => simp
      | some key =>
        simp only [Bool.not_true, Bool.false_eq_true, if_false, forall_const, Option.some.injEq,
          exists_eq_left']
        match hrows : server.database.serviceUnauthorised.select fun _ row =>
            row.service == p.numeric key with
        | [] => simp
        | _ :: _ :: _ => simp
        | [row] =>
          rw [huser]
          cases b.getElement Field.quote with
          | none => simp
          | some quote =>
            simp only [Option.isSome_some, implies_true, iff_true]
            unfold openService
            simp only
            (repeat' split) <;> exact Ending.defined_reply _ _

theorem closeService_defined_iff {date : Text} : (closeService p server req b date).2.Defined ↔
    (b.hasElement Field.id = true → server.sessions.verify req AuthLevel.manager = true →
      (b.getElement Field.paid).isSome = true) := by
  unfold closeService
  cases b.hasElement Field.id with
  | false => simp
  | true =>
    cases hmanager : server.sessions.verify req AuthLevel.manager with
    | false => simp
    | true =>
      obtain ⟨user, huser⟩ := user_of_verify hmanager
      rw [huser]
      cases b.getElement Field.paid with
      | none => simp
      | some paid =>
        simp only [Bool.not_true, Bool.false_eq_true, if_false, Option.isSome_some, implies_true,
          iff_true]
        split <;> exact Ending.defined_reply _ _

/-- A session below employee names the user it asks for. -/
def UserNamed (server : Server) (req : Request) (q : Query) : Prop :=
  server.sessions.verify req AuthLevel.employee = false →
    (server.sessions.current req).isSome = true → (q.getElement Field.uid).isSome = true

/-- The check on the user fails by an exception, or it answers, or it lets through. -/
theorem refusedUser_cases (server : Server) (req : Request) (q : Query) :
    (refusedUser server req q = some .exception ∧ ¬ UserNamed server req q) ∨
      UserNamed server req q ∧ ∀ ending, refusedUser server req q = some ending → ending.Defined := by
  unfold refusedUser UserNamed Sessions.getSessionUser
  cases server.sessions.verify req AuthLevel.employee with
  | true => simp
  | false =>
    cases server.sessions.current req with
    | none => simp
    | some session =>
      cases q.getElement Field.uid with
      | none => simp
      | some userID =>
        refine .inr ⟨by simp, ?_⟩
        intro ending hending
        simp only [Bool.false_eq_true, if_false, Option.map_some] at hending
        split at hending
        · cases hending
        · obtain rfl := Option.some.inj hending
          exact Ending.defined_reply _ _

theorem searchServices_defined_iff : (searchServices p server req q).Defined ↔
    (q.containsAnyOrEmpty [Field.unauthorisedServices, Field.openServices, Field.closedServices] =
      true → UserNamed server req q) := by
  unfold searchServices
  cases q.containsAnyOrEmpty [Field.unauthorisedServices, Field.openServices,
      Field.closedServices] with
  | false => simp
  | true =>
    simp only [Bool.not_true, Bool.false_eq_true, if_false, forall_const]
    rcases refusedUser_cases server req q with ⟨hthrown, hnot⟩ | ⟨hnamed, hdefined⟩
    · simp [hthrown, hnot]
    · simp only [hnamed, iff_true]
      split
      · rename_i ending hending
        exact hdefined ending hending
      · (repeat' split) <;> exact Ending.defined_reply _ _

theorem selectServicePart_defined_iff : (selectServicePart p server req q).Defined ↔
    (q.hasElement Field.entry = true → UserNamed server req q) := by
  unfold selectServicePart
  cases q.hasElement Field.entry with
  | false => simp
  | true =>
    simp only [Bool.not_true, Bool.false_eq_true, if_false, forall_const]
    rcases refusedUser_cases server req q with ⟨hthrown, hnot⟩ | ⟨hnamed, hdefined⟩
    · simp [hthrown, hnot]
    · simp only [hnamed, iff_true]
      split
      · rename_i ending hending
        exact hdefined ending hending
      · split
        · exact Ending.defined_reply _ _
        · exact (Ending.ofFirst_replies _ _).defined

end Totality

/-! ## Every route -/

/-- What a request must bring, and the tables must hold, for no access to fail. -/
def Covered (p : Platform) (route : Route) (server : Server) (call : Call) : Prop :=
  match route with
  | .checkSession => hasSession call.req = true → (server.sessions.current call.req).isSome = true
  | .userMe => UserThere p server call.req
  | .vehicleUpdate | .vehicleDelete =>
    call.b.hasElement Field.id = true →
      VehicleThere p server.database ((call.b.getElement Field.id).getD [])
  | .vehicleSelect =>
    call.q.hasElement Field.id = true →
      VehicleThere p server.database ((call.q.getElement Field.id).getD [])
  | .serviceCreate =>
    call.b.containsAll [Field.vid, Field.request] = true →
      server.sessions.verify call.req AuthLevel.manager = false →
        VehicleThere p server.database ((call.b.getElement Field.vid).getD [])
  | .serviceAuthorise => AuthoriseRead p server call.req call.b
  | .serviceClose =>
    call.b.hasElement Field.id = true → server.sessions.verify call.req AuthLevel.manager = true →
      (call.b.getElement Field.paid).isSome = true
  | .serviceSearch =>
    call.q.containsAnyOrEmpty [Field.unauthorisedServices, Field.openServices,
      Field.closedServices] = true → UserNamed server call.req call.q
  | .servicePartSelect => call.q.hasElement Field.entry = true → UserNamed server call.req call.q
  | _ => True

/-- No access of a handler fails, exactly when the request and the tables cover the
ones that are not checked. -/
theorem handle_defined_iff (p : Platform) (route : Route) (server : Server) (call : Call) :
    (Access.handle p route server call).2.Defined ↔ Covered p route server call := by
  rw [Access.handle_eq]
  cases route with
  | checkSession => exact checkSession_defined_iff
  | userMe => exact getLocalUserData_defined_iff
  | vehicleUpdate => exact updateVehicle_defined_iff
  | vehicleDelete => exact deleteVehicle_defined_iff
  | vehicleSelect => exact selectVehicle_defined_iff
  | serviceCreate => exact createRequest_defined_iff
  | serviceAuthorise => exact authoriseRequest_defined_iff
  | serviceClose => exact closeService_defined_iff
  | serviceSearch => exact searchServices_defined_iff
  | servicePartSelect => exact selectServicePart_defined_iff
  | request => exact iff_of_true authenticate_defined trivial
  | register => exact iff_of_true registerUser_defined trivial
  | release =>
    refine iff_of_true ?_ trivial
    show (deauthenticate server call.req).2.Defined
    unfold deauthenticate
    split <;> exact Ending.defined_reply _ _
  | userCreate => exact iff_of_true createUser_replies.defined trivial
  | userSearch => exact iff_of_true searchUsers_replies.defined trivial
  | userSelect => exact iff_of_true selectUser_replies.defined trivial
  | userDelete => exact iff_of_true deleteUser_replies.defined trivial
  | userUpdate => exact iff_of_true updateUser_replies.defined trivial
  | supplierCreate => exact iff_of_true createSupplier_replies.defined trivial
  | supplierUpdate => exact iff_of_true updateSupplier_replies.defined trivial
  | supplierSearch => exact iff_of_true searchSuppliers_replies.defined trivial
  | supplierSelect => exact iff_of_true selectSupplier_replies.defined trivial
  | groupCreate => exact iff_of_true createPartGroup_replies.defined trivial
  | groupUpdate => exact iff_of_true updatePartGroup_replies.defined trivial
  | groupSearch => exact iff_of_true searchPartGroups_replies.defined trivial
  | groupSelect => exact iff_of_true selectPartGroup_replies.defined trivial
  | partCreate => exact iff_of_true createPart_replies.defined trivial
  | partUpdate => exact iff_of_true updatePart_replies.defined trivial
  | partSearch => exact iff_of_true searchParts_replies.defined trivial
  | partSelect => exact iff_of_true selectPart_replies.defined trivial
  | vehicleCreate => exact iff_of_true createVehicle_replies.defined trivial
  | serviceUpdate => exact iff_of_true updateService_replies.defined trivial
  | servicePartAdd => exact iff_of_true addPartToService_replies.defined trivial
  | servicePartRemove => exact iff_of_true removePartFromService_replies.defined trivial
  | serviceSelect => exact iff_of_true selectService_replies.defined trivial
  | displayTables => exact iff_of_true (Ending.defined_reply _ _) trivial
  | ping => exact iff_of_true (Ending.defined_reply _ _) trivial
  | other => exact iff_of_true (Ending.defined_reply _ _) trivial

/-! ## A stale cookie and a missing vehicle -/

def emptyServer : Server where
  database := {}
  sessions := fun _ => none

/-- A cookie of a session that is no longer live, and no fields. -/
def staleCall : Call where
  req := { cookie := ("auth=7" : Text) }
  b := .ofList [(Field.id, ("1" : Text))]
  q := .ofList []
  fresh := 9
  date := ("2021-05-01" : Text)

/-- `checkSession` takes the level of a session that is gone, and `updateVehicle` the
owner of a vehicle that is not there. -/
theorem access_fails :
    (Access.handle .integers .checkSession emptyServer staleCall).2 = .exception ∧
      (Access.handle .integers .vehicleUpdate emptyServer staleCall).2 = .undefined :=
  ⟨rfl, rfl⟩

end WFA
