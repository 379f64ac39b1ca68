-- SUMMARY: The handlers of the model are the handlers access by access.
import WFA.Server.Accesses

/-!
# Accesses that are checked

Each handler of `WFA/Server/Accesses.lean` equals the one the other modules are
about: an access that the model reads as a default is one that cannot fail.
-/

namespace WFA

open Text

/-! ## Accesses behind a check -/

section Checks

variable {server : Server} {req : Request} {b : QueryBase} {name : Text}

theorem QueryBase.getElement_of_has (h : b.hasElement name = true) :
    b.getElement name = some ((b.getElement name).getD []) := by
  obtain ⟨value, hvalue, -⟩ := QueryBase.hasElement_iff.mp h
  simp [hvalue]

theorem QueryBase.isEmpty_of_has (h : b.hasElement name = true) :
    ((b.getElement name).getD []).isEmpty = false := by
  obtain ⟨value, hvalue, hne⟩ := QueryBase.hasElement_iff.mp h
  simpa [hvalue] using hne

theorem QueryBase.getElement_of_orEmpty (h : b.hasElementOrEmpty name = true) :
    b.getElement name = some ((b.getElement name).getD []) := by
  obtain ⟨value, hvalue⟩ := Option.isSome_iff_exists.mp h
  simp [QueryBase.getElement, hvalue]

theorem hasSession_of_isSessionUser {t : Text} (h : server.sessions.isSessionUser req t = true) :
    hasSession req = true := by
  cases hcurrent : server.sessions.current req with
  | none => simp [Sessions.isSessionUser, Sessions.getSessionUser, hcurrent] at h
  | some session => exact hasSession_of_current hcurrent

theorem hasSession_of_isSessionUserFromID {t : Text}
    (h : server.sessions.isSessionUserFromID req t = true) : hasSession req = true := by
  cases hcurrent : server.sessions.current req with
  | none => simp [Sessions.isSessionUserFromID, Sessions.getSessionUser, hcurrent] at h
  | some session => exact hasSession_of_current hcurrent

@[simp] theorem Server.get_some {α : Type} (a : α) (k : α → Server × Ending) :
    server.get (some a) k = k a := rfl

theorem Server.get_has {k : Text → Server × Ending} (h : b.hasElement name = true) :
    server.get (b.getElement name) k = k ((b.getElement name).getD []) := by
  rw [QueryBase.getElement_of_has h]
  rfl

@[simp] theorem Ending.get_some {α : Type} (a : α) (k : α → Ending) : Ending.get (some a) k = k a :=
  rfl

theorem Ending.get_has {k : Text → Ending} (h : b.hasElement name = true) :
    Ending.get (b.getElement name) k = k ((b.getElement name).getD []) := by
  rw [QueryBase.getElement_of_has h]
  rfl

theorem Ending.get_orEmpty {k : Text → Ending} (h : b.hasElementOrEmpty name = true) :
    Ending.get (b.getElement name) k = k ((b.getElement name).getD []) := by
  rw [QueryBase.getElement_of_orEmpty h]
  rfl

theorem Server.get_session {k : Nat → Server × Ending} (h : hasSession req = true) :
    server.get (getSessionID req) k = k ((getSessionID req).getD 0) := by
  obtain ⟨id, hid⟩ := Option.isSome_iff_exists.mp h
  simp [hid, Server.get]

theorem Ending.get_session {k : Nat → Ending} (h : hasSession req = true) :
    Ending.get (getSessionID req) k = k ((getSessionID req).getD 0) := by
  obtain ⟨id, hid⟩ := Option.isSome_iff_exists.mp h
  simp [hid, Ending.get]

/-- Two handlers with the same check. -/
theorem ite_same {α : Type} {c : Bool} {a x y : α} (h : c = false → x = y) :
    (if c = true then a else x) = if c = true then a else y := by
  cases c with
  | true => rfl
  | false => exact h rfl

/-- A fold whose steps do not fail. -/
theorem foldlM_eq_some {α β : Type} {f : β → α → Option β} {g : β → α → β}
    (h : ∀ ret a, f ret a = some (g ret a)) (l : List α) (ret : β) :
    l.foldlM f ret = some (l.foldl g ret) := by
  induction l generalizing ret with
  | nil => rfl
  | cons a l ih =>
    rw [List.foldlM_cons, List.foldl_cons, h]
    exact ih (g ret a)

end Checks

namespace Access

section Handlers

variable {p : Platform} {server : Server} {req : Request} {b : Body} {q : Query}

theorem logged_eq (h : hasSession req = true) : logged server req = (server, .reply .ok none) :=
  Server.get_session h

theorem get_elementOr {name default : Text} {k : Text → Server × Ending} :
    server.get (elementOr b name default) k =
      k (if b.hasElement name then (b.getElement name).getD [] else default) := by
  unfold elementOr
  cases h : b.hasElement name with
  | true => exact Server.get_has h
  | false => rfl

theorem updateStatement_eq (relations : List (Text × Text)) :
    updateStatement b relations = some (generateUpdateStatement b relations) := by
  refine foldlM_eq_some (fun ret relation => ?_) relations []
  unfold assigned
  cases h : b.hasElement relation.1 with
  | false => rfl
  | true =>
    obtain ⟨value, hvalue, hne⟩ := QueryBase.hasElement_iff.mp h
    have hempty : value.isEmpty = false := by simpa using hne
    simp only [hvalue, Option.map_some, hempty, Bool.not_true, Bool.false_eq_true, if_false, if_true]

/-! ## Logging in and out -/

theorem authenticate_eq {fresh : Nat} :
    authenticate p server req b fresh = WFA.authenticate p server req b fresh := by
  unfold authenticate WFA.authenticate
  refine ite_same fun hall => ?_
  have hall : b.containsAll [Field.username, Field.password] = true := by simpa using hall
  have hhas : b.hasElement Field.username = true ∧ b.hasElement Field.password = true := by
    simpa [QueryBase.containsAll] using hall
  rw [Server.get_has hhas.1, Server.get_has hhas.2, QueryBase.isEmpty_of_has hhas.1,
    QueryBase.isEmpty_of_has hhas.2]
  unfold request
  rw [hall]
  simp only [Bool.or_self, Bool.false_eq_true, if_false, Bool.not_true]
  cases login p server.database.users ((b.getElement Field.username).getD [])
    ((b.getElement Field.password).getD []) <;> rfl

theorem registerUser_eq {fresh : Nat} :
    registerUser p server req b fresh = WFA.registerUser p server req b fresh := by
  unfold registerUser WFA.registerUser
  refine ite_same fun hall => ?_
  have hhas : b.hasElement Field.username = true ∧ b.hasElement Field.password = true := by
    simpa [QueryBase.containsAll] using hall
  rw [Server.get_has hhas.1, Server.get_has hhas.2]
  cases insertUser p server.database.users ((b.getElement Field.username).getD [])
      ((b.getElement Field.password).getD []) (.int 1) with
  | none => simp only [authenticate_eq]
  | some inserted => simp only [Server.get_has hhas.1, authenticate_eq]

theorem checkSession_eq : checkSession server req = WFA.checkSession server req := by
  unfold checkSession WFA.checkSession Server.get
  split
  · cases server.sessions.getSessionAuthLevel req <;> rfl
  · rfl

/-! ## Users -/

theorem createUser_eq : createUser p server req b = WFA.createUser p server req b := by
  unfold createUser WFA.createUser
  refine ite_same fun hall => ?_
  have hhas : b.hasElement Field.username = true ∧ b.hasElement Field.password = true ∧
      b.hasElement Field.permission = true := by
    simpa [QueryBase.containsAll] using hall
  rw [Server.get_has hhas.1, Server.get_has hhas.2.1, Server.get_has hhas.2.2,
    QueryBase.isEmpty_of_has hhas.1, QueryBase.isEmpty_of_has hhas.2.1,
    QueryBase.isEmpty_of_has hhas.2.2]
  simp only [Bool.or_self, Bool.false_eq_true, if_false]
  cases requestedLevel ((b.getElement Field.permission).getD []) with
  | none => rfl
  | some level =>
    refine ite_same fun hrefused => ?_
    rw [Bool.or_eq_false_iff] at hrefused
    have hsession : hasSession req = true := hasSession_of_verify (by simpa using hrefused.1)
    cases insertUser p server.database.users ((b.getElement Field.username).getD [])
        ((b.getElement Field.password).getD [])
        (.text ((b.getElement Field.permission).getD [])) with
    | none => rfl
    | some inserted => exact logged_eq hsession

theorem getLocalUserData_eq : getLocalUserData p server req = WFA.getLocalUserData p server req := by
  unfold getLocalUserData WFA.getLocalUserData
  cases huser : server.sessions.getSessionUser req with
  | none => rfl
  | some user =>
    have hsession : hasSession req = true := by
      obtain ⟨session, hcurrent, -⟩ := Option.map_eq_some_iff.mp huser
      exact hasSession_of_current hcurrent
    simp only [Option.isSome_some, Bool.not_true, Bool.false_eq_true, if_false, Server.get]
    cases server.database.users.select fun id _ => p.isId id (ofNat user) with
    | nil => rfl
    | cons row rest => exact Server.get_session hsession

theorem searchUsers_eq : searchUsers p server req q = WFA.searchUsers p server req q := by
  unfold searchUsers WFA.searchUsers
  refine ite_same fun hhas => ite_same fun hrefused => ?_
  rewrite [Ending.get_session (hasSession_of_verify (by simpa using hrefused)),
    Ending.get_orEmpty (by simpa using hhas)]
  rfl

theorem selectUser_eq : selectUser p server req q = WFA.selectUser p server req q := by
  unfold selectUser WFA.selectUser
  refine ite_same fun hhas => ite_same fun hrefused => ?_
  rewrite [Ending.get_session (hasSession_of_verify (by simpa using hrefused)),
    Ending.get_has (by simpa using hhas)]
  rfl

theorem deleteUser_eq : deleteUser p server req b = WFA.deleteUser p server req b := by
  unfold deleteUser WFA.deleteUser
  refine ite_same fun hhas => ite_same fun hrefused => ?_
  have hsession : hasSession req = true := hasSession_of_verify (by simpa using hrefused)
  rw [Server.get_has (by simpa using hhas)]
  obtain ⟨id, hid⟩ := Option.isSome_iff_exists.mp hsession
  unfold logged
  rewrite [hid]
  rfl

theorem updateUser_eq : updateUser p server req b = WFA.updateUser p server req b := by
  unfold updateUser WFA.updateUser
  refine ite_same fun hhas => ite_same fun hrefused => ?_
  have hsession : hasSession req = true := hasSession_of_verify (by simpa using hrefused)
  obtain ⟨id, hid⟩ := Option.isSome_iff_exists.mp hsession
  have hkey : b.getElement Field.id = some ((b.getElement Field.id).getD []) :=
    QueryBase.getElement_of_has (by simpa using hhas)
  unfold refusedPermission logged
  rewrite [updateStatement_eq, hkey, hid]
  cases hasked : b.hasElement Field.permission with
  | false => rfl
  | true =>
    rewrite [QueryBase.getElement_of_has hasked]
    rfl

/-! ## Suppliers, groups and parts -/

theorem createSupplier_eq : createSupplier p server req b = WFA.createSupplier p server req b := by
  unfold createSupplier WFA.createSupplier
  refine ite_same fun hhas => ?_
  have hhas : b.hasElement Field.name = true := by simpa using hhas
  rw [Server.get_has hhas, QueryBase.isEmpty_of_has hhas, if_neg Bool.false_ne_true]
  refine ite_same fun hrefused => ?_
  have hsession : hasSession req = true := hasSession_of_verify (by simpa using hrefused)
  simp only [get_elementOr, logged_eq hsession]
  rfl

/-- The check of the element `rename` in two handlers, which no form fails. -/
theorem rename_not_empty :
    (if b.hasElement Field.rename then (b.getElement Field.rename).getD [] else nullWord).isEmpty =
        false ∧
      (b.hasElement Field.rename && ((b.getElement Field.rename).getD []).isEmpty) = false := by
  cases h : b.hasElement Field.rename with
  | true => exact ⟨QueryBase.isEmpty_of_has h, QueryBase.isEmpty_of_has h⟩
  | false => exact ⟨rfl, rfl⟩

theorem updateSupplier_eq : updateSupplier p server req b = WFA.updateSupplier p server req b := by
  unfold updateSupplier WFA.updateSupplier
  rw [rename_not_empty.2, Bool.or_false]
  refine ite_same fun hhas => ?_
  rw [get_elementOr, rename_not_empty.1, if_neg Bool.false_ne_true]
  refine ite_same fun hrefused => ?_
  have hsession : hasSession req = true := hasSession_of_verify (by simpa using hrefused)
  rw [updateStatement_eq, Server.get_some]
  refine ite_same fun _ => ?_
  rw [Server.get_has (by simpa using hhas)]
  obtain ⟨id, hid⟩ := Option.isSome_iff_exists.mp hsession
  unfold logged
  rewrite [hid]
  rfl

theorem searchSuppliers_eq : searchSuppliers p server req q = WFA.searchSuppliers p server req q := by
  unfold searchSuppliers WFA.searchSuppliers
  refine ite_same fun hhas => ite_same fun hrefused => ?_
  rewrite [Ending.get_session (hasSession_of_verify (by simpa using hrefused)),
    Ending.get_orEmpty (by simpa using hhas)]
  rfl

theorem selectSupplier_eq : selectSupplier p server req q = WFA.selectSupplier p server req q := by
  unfold selectSupplier WFA.selectSupplier
  refine ite_same fun hhas => ite_same fun hrefused => ?_
  rewrite [Ending.get_session (hasSession_of_verify (by simpa using hrefused)),
    Ending.get_has (by simpa using hhas)]
  rfl

theorem createPartGroup_eq : createPartGroup server req b = WFA.createPartGroup server req b := by
  unfold createPartGroup WFA.createPartGroup
  refine ite_same fun hhas => ?_
  have hhas : b.hasElement Field.name = true := by simpa using hhas
  rw [Server.get_has hhas, QueryBase.isEmpty_of_has hhas, if_neg Bool.false_ne_true]
  refine ite_same fun hrefused => ?_
  have hsession : hasSession req = true := hasSession_of_verify (by simpa using hrefused)
  obtain ⟨id, hid⟩ := Option.isSome_iff_exists.mp hsession
  unfold logged
  rewrite [hid]
  rfl

theorem updatePartGroup_eq : updatePartGroup server req b = WFA.updatePartGroup server req b := by
  unfold updatePartGroup WFA.updatePartGroup
  refine ite_same fun hall => ?_
  have hhas : b.hasElement Field.name = true ∧ b.hasElement Field.rename = true := by
    simpa [QueryBase.containsAll] using hall
  rw [Server.get_has hhas.2, QueryBase.isEmpty_of_has hhas.2, if_neg Bool.false_ne_true]
  refine ite_same fun hrefused => ?_
  have hsession : hasSession req = true := hasSession_of_verify (by simpa using hrefused)
  rw [Server.get_has hhas.1]
  obtain ⟨id, hid⟩ := Option.isSome_iff_exists.mp hsession
  unfold logged
  rewrite [hid]
  rfl

theorem searchPartGroups_eq :
    searchPartGroups p server req q = WFA.searchPartGroups p server req q := by
  unfold searchPartGroups WFA.searchPartGroups
  refine ite_same fun hhas => ite_same fun hrefused => ?_
  have hsession : hasSession req = true := hasSession_of_verify (by simpa using hrefused)
  obtain ⟨id, hid⟩ := Option.isSome_iff_exists.mp hsession
  rewrite [Ending.get_orEmpty (by simpa using hhas), hid]
  rfl

theorem selectPartGroup_eq : selectPartGroup p server req q = WFA.selectPartGroup p server req q := by
  unfold selectPartGroup WFA.selectPartGroup
  refine ite_same fun hhas => ite_same fun hrefused => ?_
  rewrite [Ending.get_has (by simpa using hhas),
    Ending.get_session (hasSession_of_verify (by simpa using hrefused))]
  rfl

theorem createPart_eq : createPart p server req b = WFA.createPart p server req b := by
  unfold createPart WFA.createPart
  refine ite_same fun hall => ?_
  obtain ⟨hname, hquantity, hsupplier, hprice⟩ : b.hasElement Field.name = true ∧
      b.hasElement Field.quantity = true ∧ b.hasElement Field.supplier = true ∧
        b.hasElement Field.price = true := by
    simpa [QueryBase.containsAll] using hall
  rw [Server.get_has hname, Server.get_has hquantity, Server.get_has hsupplier,
    Server.get_has hprice, QueryBase.isEmpty_of_has hname, QueryBase.isEmpty_of_has hquantity,
    QueryBase.isEmpty_of_has hsupplier, QueryBase.isEmpty_of_has hprice,
    Bool.or_self, Bool.or_self, Bool.or_self, if_neg Bool.false_ne_true]
  refine ite_same fun hrefused => ?_
  have hsession : hasSession req = true := hasSession_of_verify (by simpa using hrefused)
  rw [get_elementOr]
  simp only [logged_eq hsession]
  cases b.hasElement Field.group <;> rfl

theorem updatePart_eq : updatePart p server req b = WFA.updatePart p server req b := by
  unfold updatePart WFA.updatePart
  rw [rename_not_empty.2, Bool.or_false]
  refine ite_same fun hhas => ?_
  rw [get_elementOr, rename_not_empty.1, if_neg Bool.false_ne_true]
  refine ite_same fun hrefused => ?_
  have hsession : hasSession req = true := hasSession_of_verify (by simpa using hrefused)
  rw [updateStatement_eq, Server.get_some]
  refine ite_same fun _ => ?_
  rw [Server.get_has (by simpa using hhas)]
  obtain ⟨id, hid⟩ := Option.isSome_iff_exists.mp hsession
  unfold logged
  rewrite [hid]
  rfl

theorem searchParts_eq : searchParts p server req q = WFA.searchParts p server req q := by
  unfold searchParts WFA.searchParts partList partFits
  refine ite_same fun hasked => ite_same fun hrefused => ?_
  have hsession : hasSession req = true := hasSession_of_verify (by simpa using hrefused)
  cases hname : q.hasElementOrEmpty Field.name with
  | true =>
    cases hgroup : q.hasElementOrEmpty Field.group with
    | true =>
      simp only [if_true, Ending.get_orEmpty hname, Ending.get_orEmpty hgroup,
        Ending.get_session hsession]
    | false =>
      simp only [if_true, Bool.false_eq_true, if_false, Ending.get_orEmpty hname,
        Ending.get_session hsession, Ending.get_some, Bool.not_false, Bool.true_or]
  | false =>
    have hgroup : q.hasElementOrEmpty Field.group = true := by simpa [hname] using hasked
    simp only [hgroup, Bool.false_eq_true, if_false, if_true, Ending.get_orEmpty hgroup,
      Ending.get_session hsession, Ending.get_some, Bool.not_false, Bool.true_or]

theorem selectPart_eq : selectPart p server req q = WFA.selectPart p server req q := by
  unfold selectPart WFA.selectPart
  refine ite_same fun hhas => ite_same fun hrefused => ?_
  rewrite [Ending.get_has (by simpa using hhas),
    Ending.get_session (hasSession_of_verify (by simpa using hrefused))]
  rfl

/-! ## Vehicles -/

theorem createVehicle_eq : createVehicle p server req b = WFA.createVehicle p server req b := by
  unfold createVehicle WFA.createVehicle newVehicle
  refine ite_same fun hall => ?_
  obtain ⟨hplate, hmake, hmodel, howner, hyear, hcolour⟩ : b.hasElement Field.plate = true ∧
      b.hasElement Field.make = true ∧ b.hasElement Field.model = true ∧
        b.hasElement Field.owner = true ∧ b.hasElement Field.year = true ∧
          b.hasElement Field.colour = true := by
    simpa [QueryBase.containsAll, vehicleFields] using hall
  rw [Server.get_has howner]
  refine ite_same fun hrefused => ?_
  have hsession : hasSession req = true := by
    rcases Bool.and_eq_false_iff.mp hrefused with hmanager | huser
    · exact hasSession_of_verify (by simpa using hmanager)
    · exact hasSession_of_isSessionUser (by simpa using huser)
  obtain ⟨id, hid⟩ := Option.isSome_iff_exists.mp hsession
  unfold logged
  rewrite [QueryBase.getElement_of_has hmake, QueryBase.getElement_of_has hmodel,
    QueryBase.getElement_of_has hplate, QueryBase.getElement_of_has hyear,
    QueryBase.getElement_of_has hcolour, hid]
  rfl

/-- Whoever is let through to a vehicle has a session. -/
theorem hasSession_of_owner {owner : Value}
    (h : (!server.sessions.isSessionUserFromID req (p.columnText owner) &&
      !server.sessions.verify req AuthLevel.manager) = false) : hasSession req = true := by
  rcases Bool.and_eq_false_iff.mp h with huser | hmanager
  · exact hasSession_of_isSessionUserFromID (by simpa using huser)
  · exact hasSession_of_verify (by simpa using hmanager)

theorem updateVehicle_eq : updateVehicle p server req b = WFA.updateVehicle p server req b := by
  unfold updateVehicle WFA.updateVehicle
  refine ite_same fun hhas => ?_
  rw [Server.get_has (by simpa using hhas)]
  simp only
  cases ownerOf p server.database ((b.getElement Field.id).getD []) with
  | nil => rfl
  | cons owner rest =>
    refine ite_same fun hrefused => ?_
    have hsession : hasSession req = true := hasSession_of_owner hrefused
    rw [updateStatement_eq, Server.get_some]
    refine ite_same fun _ => ?_
    obtain ⟨id, hid⟩ := Option.isSome_iff_exists.mp hsession
    unfold logged
    rewrite [hid]
    rfl

theorem deleteVehicle_eq : deleteVehicle p server req b = WFA.deleteVehicle p server req b := by
  unfold deleteVehicle WFA.deleteVehicle
  refine ite_same fun hhas => ?_
  rw [Server.get_has (by simpa using hhas)]
  simp only
  cases ownerOf p server.database ((b.getElement Field.id).getD []) with
  | nil => rfl
  | cons owner rest =>
    exact ite_same fun hrefused => logged_eq (hasSession_of_owner hrefused)

theorem selectVehicle_eq : selectVehicle p server req q = WFA.selectVehicle p server req q := by
  unfold selectVehicle WFA.selectVehicle
  refine ite_same fun hhas => ?_
  rw [Ending.get_has (by simpa using hhas)]
  simp only
  cases ownerOf p server.database ((q.getElement Field.id).getD []) <;> rfl

/-! ## Services -/

theorem createRequest_eq {date : Text} :
    createRequest p server req b date = WFA.createRequest p server req b date := by
  unfold createRequest WFA.createRequest refusedRequest
  refine ite_same fun hall => ?_
  have hhas : b.hasElement Field.vid = true ∧ b.hasElement Field.request = true := by
    simpa [QueryBase.containsAll] using hall
  rw [Server.get_has hhas.1, Server.get_has hhas.2]
  cases hmanager : server.sessions.verify req AuthLevel.manager with
  | true =>
    have hsession : hasSession req = true := hasSession_of_verify hmanager
    simp only [Bool.not_true, Bool.false_eq_true, if_false, if_true, requestService,
      logged_eq hsession]
    rfl
  | false =>
    simp only [Bool.not_false, if_true, Bool.false_eq_true, if_false]
    cases ownerOf p server.database ((b.getElement Field.vid).getD []) with
    | nil => rfl
    | cons owner rest =>
      simp only [Server.first]
      cases huser : server.sessions.isSessionUserFromID req (p.columnText owner) with
      | false => rfl
      | true =>
        have hsession : hasSession req = true := hasSession_of_isSessionUserFromID huser
        simp only [Bool.not_true, Bool.false_eq_true, if_false, if_true, requestService,
          logged_eq hsession]
        rfl

theorem authoriseRequest_eq :
    authoriseRequest p server req b = WFA.authoriseRequest p server req b := by
  unfold authoriseRequest WFA.authoriseRequest newActive
  refine ite_same fun _ => ite_same fun hrefused => ?_
  have hmanager : server.sessions.verify req AuthLevel.manager = true := by simpa using hrefused
  have hsession : hasSession req = true := hasSession_of_verify hmanager
  cases b.getElement Field.id with
  | none => rfl
  | some key =>
    simp only [Server.get_some]
    cases server.database.serviceUnauthorised.select fun _ row =>
        row.service == p.numeric key with
    | nil => rfl
    | cons row rest =>
      cases rest with
      | cons next rest => rfl
      | nil =>
        simp only [get_elementOr, logged_eq hsession]
        cases server.sessions.getSessionUser req with
        | none => rfl
        | some user =>
          cases b.getElement Field.quote with
          | none => rfl
          | some quote =>
            simp only [Server.get_some]
            split
            · rename_i hending
              rw [← hending]
            · rfl

theorem updateService_eq : updateService p server req b = WFA.updateService p server req b := by
  unfold updateService WFA.updateService
  refine ite_same fun hhas => ite_same fun hrefused => ?_
  have hsession : hasSession req = true := hasSession_of_verify (by simpa using hrefused)
  rw [updateStatement_eq, Server.get_some]
  refine ite_same fun _ => ?_
  rw [Server.get_has (by simpa using hhas)]
  obtain ⟨id, hid⟩ := Option.isSome_iff_exists.mp hsession
  unfold logged
  rewrite [hid]
  rfl

theorem closeService_eq {date : Text} :
    closeService p server req b date = WFA.closeService p server req b date := by
  unfold closeService WFA.closeService
  refine ite_same fun hhas => ite_same fun hrefused => ?_
  have hsession : hasSession req = true := hasSession_of_verify (by simpa using hrefused)
  have hget : ∀ k, server.get (b.getElement Field.id) k = k ((b.getElement Field.id).getD []) :=
    fun k => Server.get_has (by simpa using hhas)
  simp only [hget, logged_eq hsession]
  cases server.sessions.getSessionUser req with
  | none => rfl
  | some user =>
    cases b.getElement Field.paid with
    | none => rfl
    | some paid => rfl

theorem addPartToService_eq :
    addPartToService p server req b = WFA.addPartToService p server req b := by
  unfold addPartToService WFA.addPartToService quantityRefused newPartInService quantityText
  refine ite_same fun hall => ite_same fun hrefused => ?_
  have hhas : b.hasElement Field.serviceID = true ∧ b.hasElement Field.partID = true := by
    simpa [QueryBase.containsAll] using hall
  have hsession : hasSession req = true := hasSession_of_verify (by simpa using hrefused)
  rw [get_elementOr]
  simp only [Server.get_has hhas.1, Server.get_has hhas.2, logged_eq hsession]
  cases b.hasElement Field.quantity <;> rfl

theorem removePartFromService_eq :
    removePartFromService p server req b = WFA.removePartFromService p server req b := by
  unfold removePartFromService WFA.removePartFromService removedQuantity quantityText
  refine ite_same fun hhas => ite_same fun hrefused => ?_
  have hsession : hasSession req = true := hasSession_of_verify (by simpa using hrefused)
  rw [Server.get_has (by simpa using hhas)]
  simp only [get_elementOr, logged_eq hsession]
  cases server.database.partsInService.select fun id _ =>
      p.isId id ((b.getElement Field.entry).getD []) with
  | nil => rfl
  | cons row rest =>
    simp only
    cases fromChars uint64Max (p.columnText row.2.quantity) with
    | none => rfl
    | some current =>
      cases b.hasElement Field.quantity with
      | false => rfl
      | true =>
        simp only [if_true]
        cases fromChars uint64Max ((b.getElement Field.quantity).getD []) <;> rfl

/-! ## Reports of services -/

theorem userChecked_eq {k : Ending} : userChecked server req q k =
    match refusedUser server req q with
    | some ending => ending
    | none => k := by
  unfold userChecked refusedUser
  cases server.sessions.verify req AuthLevel.employee with
  | true => rfl
  | false =>
    simp only [Bool.not_false, if_true, Bool.false_eq_true, if_false]
    cases server.sessions.getSessionUser req with
    | none => rfl
    | some user =>
      cases q.getElement Field.uid with
      | none => rfl
      | some userID =>
        simp only [Ending.get_some, Option.isSome_some, Bool.not_true, Bool.false_eq_true, if_false, bne]
        by_cases heq : ofNat user = userID
        · simp [heq]
        · simp [heq]

theorem searchServices_eq : searchServices p server req q = WFA.searchServices p server req q := by
  unfold searchServices WFA.searchServices
  rw [userChecked_eq]
  have hlisted : ∀ k : Text → Ending, Ending.get (elementOr q Field.uid []) k =
      k (if q.hasElement Field.uid then (q.getElement Field.uid).getD [] else []) := by
    intro k
    unfold elementOr
    cases h : q.hasElement Field.uid with
    | true => exact Ending.get_has h
    | false => rfl
  cases refusedUser server req q with
  | some ending => rfl
  | none =>
    rewrite [hlisted]
    rfl

theorem selectClosed_eq {database : Database} {key : Text} {response : ResponseWrapper} :
    selectClosed p database key response = WFA.selectClosed p database key response := by
  unfold selectClosed Ending.first WFA.selectClosed
  cases selectedClosed p database key <;> rfl

theorem selectService_eq : selectService p server req q = WFA.selectService p server req q := by
  unfold selectService WFA.selectService
  refine ite_same fun hhas => ite_same fun _ => ite_same fun _ => ?_
  have hclosed : selectClosed p server.database ((q.getElement Field.id).getD []) =
      WFA.selectClosed p server.database ((q.getElement Field.id).getD []) :=
    funext fun _ => selectClosed_eq
  rewrite [Ending.get_has (by simpa using hhas), hclosed]
  rfl

theorem selectServicePart_eq :
    selectServicePart p server req q = WFA.selectServicePart p server req q := by
  unfold selectServicePart WFA.selectServicePart
  refine ite_same fun hhas => ?_
  rewrite [userChecked_eq, Ending.get_has (by simpa using hhas)]
  rfl

end Handlers

/-- Access by access, the routes do what the model says. -/
theorem handle_eq (p : Platform) (route : Route) (server : Server) (call : Call) :
    handle p route server call = WFA.handle p route server call := by
  cases route with
  | request => exact authenticate_eq
  | register => exact registerUser_eq
  | checkSession => exact checkSession_eq
  | userCreate => exact createUser_eq
  | userMe => exact getLocalUserData_eq
  | userSearch => exact congrArg (Prod.mk server) searchUsers_eq
  | userSelect => exact congrArg (Prod.mk server) selectUser_eq
  | userDelete => exact deleteUser_eq
  | userUpdate => exact updateUser_eq
  | supplierCreate => exact createSupplier_eq
  | supplierUpdate => exact updateSupplier_eq
  | supplierSearch => exact congrArg (Prod.mk server) searchSuppliers_eq
  | supplierSelect => exact congrArg (Prod.mk server) selectSupplier_eq
  | groupCreate => exact createPartGroup_eq
  | groupUpdate => exact updatePartGroup_eq
  | groupSearch => exact congrArg (Prod.mk server) searchPartGroups_eq
  | groupSelect => exact congrArg (Prod.mk server) selectPartGroup_eq
  | partCreate => exact createPart_eq
  | partUpdate => exact updatePart_eq
  | partSearch => exact congrArg (Prod.mk server) searchParts_eq
  | partSelect => exact congrArg (Prod.mk server) selectPart_eq
  | vehicleCreate => exact createVehicle_eq
  | vehicleUpdate => exact updateVehicle_eq
  | vehicleDelete => exact deleteVehicle_eq
  | vehicleSelect => exact congrArg (Prod.mk server) selectVehicle_eq
  | serviceCreate => exact createRequest_eq
  | serviceAuthorise => exact authoriseRequest_eq
  | serviceUpdate => exact updateService_eq
  | serviceClose => exact closeService_eq
  | servicePartAdd => exact addPartToService_eq
  | servicePartRemove => exact removePartFromService_eq
  | servicePartSelect => exact congrArg (Prod.mk server) selectServicePart_eq
  | serviceSearch => exact congrArg (Prod.mk server) searchServices_eq
  | serviceSelect => exact congrArg (Prod.mk server) selectService_eq
  | ping =>
    show (if hasSession call.req = true then _ else _) = _
    split
    · rename_i hsession
      exact Server.get_session hsession
    · rfl
  | _ => rfl

end Access

end WFA
