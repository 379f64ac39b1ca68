-- SUMMARY: The unique columns stay unique over every run, so the assertion of a login fails in none.
import WFA.Base.Unique
import WFA.Server.Totality
import WFA.Server.UpdateForms
import WFA.Server.UserEffects
import WFA.Server.VehicleRuns

/-!
# Unique columns over runs

`Server/sqlcrt.txt` declares eight columns and a pair of columns `UNIQUE`. The login relies
on one of them: it asserts that no two users match a name and a password. The
updates by name rely on it as well, and for two of them the key is the column that
they change.
-/

namespace WFA

open Text

/-- `UNIQUE(MAKE, MODEL)`. -/
def VehicleShared.kind (row : VehicleShared) : Value × Value :=
  (row.make, row.model)

/-- The columns that are declared `UNIQUE`. -/
structure Constraints (db : Database) : Prop where
  users : db.users.Unique User.username
  suppliers : db.suppliers.Unique Supplier.name
  vehicleShared : db.vehicleShared.Unique VehicleShared.kind
  partGroups : db.partGroups.Unique PartGroup.name
  parts : db.parts.Unique Part.name
  vehicles : db.vehicles.Unique Vehicle.plate
  serviceUnauthorised : db.serviceUnauthorised.Unique UnauthorisedService.service
  serviceOpen : db.serviceOpen.Unique OpenService.service
  serviceClosed : db.serviceClosed.Unique ClosedService.service

/-- SQLite refuses a statement that would break a declared constraint, whatever
its text is. -/
def Platform.KeepsConstraints (p : Platform) : Prop :=
  ∀ statement key db db', p.escaped statement key db = some db' → Constraints db → Constraints db'

/-! ## Tables -/

section Tables

variable {α : Type} {t t' : Table α} {column : α → Value}

theorem unused_iff {id : Int} {row : α} :
    unused t column id row = true ↔ ∀ other, other ≠ id → ¬ t.Holds column other (column row) := by
  unfold unused
  rw [List.isEmpty_iff]
  constructor
  · rintro hnil other hne ⟨found, hget, heq⟩
    have hmem : (other, found) ∈ t.select fun other found =>
        other != id && column found == column row := t.mem_select.mpr ⟨hget, by simp [hne, heq]⟩
    simp [hnil] at hmem
  · intro h
    apply t.select_eq_nil
    intro other found hget
    rw [Bool.and_eq_false_iff, bne_eq_false_iff_eq, beq_eq_false_iff_ne]
    by_cases hid : other = id
    · exact .inl hid
    · exact .inr fun heq => h other hid ⟨found, hget, heq⟩

theorem unique_insertUnique {row : α} {id : Int} (h : t.Unique column)
    (hinsert : insertUnique t column row = some (id, t')) : t'.Unique column := by
  obtain ⟨hrow, hfree⟩ := insertUnique_eq_some hinsert
  exact h.insert hrow hfree

theorem unique_update {selected : Int → α → Bool} {f : Int → α → α} {admissible : Int → α → Bool}
    (h : t.Unique column)
    (hone : ∀ id row other row', t.get id = some row → t.get other = some row' →
      selected id row = true → selected other row' = true → id = other)
    (hadmissible : ∀ id row, admissible id row = true → unused t column id row = true)
    (hall : (t.select selected).all (fun row => admissible row.1 (f row.1 row.2)) = true) :
    (t.update selected f).Unique column := by
  apply h.update hone
  intro id row hget hselected
  have hrow := List.all_eq_true.mp hall (id, row) (t.mem_select.mpr ⟨hget, hselected⟩)
  exact unused_iff.mp (hadmissible id _ hrow)

theorem unique_updateRows {selected : Int → α → Bool} {f : Int → α → α}
    {admissible : Int → α → Bool} (h : t.Unique column)
    (hone : ∀ id row other row', t.get id = some row → t.get other = some row' →
      selected id row = true → selected other row' = true → id = other)
    (hadmissible : ∀ id row, admissible id row = true → unused t column id row = true)
    (hupdate : updateRows t selected f admissible = some t') : t'.Unique column := by
  obtain rfl := updateRows_eq_some hupdate
  apply unique_update h hone hadmissible
  unfold updateRows at hupdate
  split at hupdate
  · rename_i hall
    exact hall
  · simp at hupdate

/-- The make and the model go in when no row has both. -/
theorem unique_insertVehicleShared {table table' : Table VehicleShared} {make model : Text}
    (h : table.Unique VehicleShared.kind)
    (hinsert : insertVehicleShared table make model = some table') :
    table'.Unique VehicleShared.kind := by
  unfold insertVehicleShared at hinsert
  split at hinsert
  · rename_i hnone
    obtain ⟨⟨id, inserted⟩, hrow, rfl⟩ := Option.map_eq_some_iff.mp hinsert
    refine h.insert hrow ?_
    rintro ⟨other, row, hget, hkind⟩
    have hmem : (other, row) ∈ table.select fun _ row =>
        row.make == .text make && row.model == .text model := by
      refine (Table.mem_select _).mpr ⟨hget, ?_⟩
      obtain ⟨hmake, hmodel⟩ := Prod.ext_iff.mp hkind
      simpa [VehicleShared.kind] using And.intro hmake hmodel
    rw [List.isEmpty_iff.mp hnone] at hmem
    cases hmem
  · obtain rfl := Option.some.inj hinsert
    exact h

/-- A bound text names one row. -/
theorem isId_one {p : Platform} {key : Text} (id : Int) (row : α) (other : Int) (row' : α)
    (_ : t.get id = some row) (_ : t.get other = some row') (hid : p.isId id key = true)
    (hother : p.isId other key = true) : id = other := by
  have hkey : p.numeric key = .int id := by simpa [Platform.isId] using hid
  rw [p.isId_eq hkey, decide_eq_true_eq] at hother
  exact hother.symm

/-- A name names one row. -/
theorem name_one {v : Value} (h : t.Unique column) (id : Int) (row : α) (other : Int) (row' : α)
    (hget : t.get id = some row) (hget' : t.get other = some row')
    (hid : (column row == v) = true) (hother : (column row' == v) = true) : id = other := by
  rw [beq_iff_eq] at hid hother
  exact h id other v ⟨row, hget, hid⟩ ⟨row', hget', hother⟩

end Tables

/-! ## Statements -/

section Statements

variable {p : Platform} {route : Route} {call : Call} {db db' : Database}

/-- The statement of a form writes rows that the table takes, or goes to the engine. -/
theorem Form.constraints (form : Form) (hescaped : p.KeepsConstraints) (hdb : Constraints db)
    {b : Body} {key : Text} (h : form.statement p db b key = some db') : Constraints db' := by
  rcases form.statement_cases h with rfl | ⟨values, hwrite⟩ | ⟨statement, hstatement⟩
  · exact hdb
  · obtain ⟨rows, hrows, rfl⟩ := Option.map_eq_some_iff.mp hwrite
    cases form with
    | user =>
      refine { hdb with users := unique_updateRows hdb.users isId_one ?_ hrows }
      exact fun _ _ hadmissible => (Bool.and_eq_true_iff.mp hadmissible).2
    | supplier =>
      refine { hdb with
        suppliers := unique_updateRows hdb.suppliers (name_one hdb.suppliers) ?_ hrows }
      exact fun _ _ hadmissible => (Bool.and_eq_true_iff.mp hadmissible).2
    | part =>
      refine { hdb with parts := unique_updateRows hdb.parts isId_one ?_ hrows }
      exact fun _ _ hadmissible => (Bool.and_eq_true_iff.mp hadmissible).2
    | vehicle =>
      refine { hdb with vehicles := unique_updateRows hdb.vehicles isId_one ?_ hrows }
      exact fun _ _ hadmissible => (Bool.and_eq_true_iff.mp hadmissible).2
    | service => exact { hdb with }
  · exact hescaped _ _ _ _ hstatement hdb

theorem Statement.constraints (h : Statement p route call db db') (hescaped : p.KeepsConstraints)
    (hdb : Constraints db) : Constraints db' := by
  cases h with
  | insertUser _ hinsert =>
    obtain ⟨hrow, hfree⟩ := insertUser_eq_some hinsert
    refine { hdb with users := hdb.users.insert hrow ?_ }
    rintro ⟨other, user, hget, hname⟩
    exact hfree other user hget hname
  | deleteUsers key => exact { hdb with users := hdb.users.delete _ }
  | updateUsers _ hupdate => exact Form.constraints .user hescaped hdb hupdate
  | insertSupplier hinsert =>
    exact { hdb with suppliers := unique_insertUnique hdb.suppliers hinsert }
  | updateSuppliers _ hupdate => exact Form.constraints .supplier hescaped hdb hupdate
  | insertPartGroup hinsert =>
    exact { hdb with partGroups := unique_insertUnique hdb.partGroups hinsert }
  | updatePartGroups hupdate =>
    exact { hdb with
      partGroups := unique_updateRows hdb.partGroups (name_one hdb.partGroups)
        (fun _ _ hadmissible => hadmissible) hupdate }
  | insertPart hinsert => exact { hdb with parts := unique_insertUnique hdb.parts hinsert }
  | updateParts _ hupdate => exact Form.constraints .part hescaped hdb hupdate
  | insertVehicleShared hinsert =>
    exact { hdb with vehicleShared := unique_insertVehicleShared hdb.vehicleShared hinsert }
  | insertVehicle hinsert =>
    unfold WFA.insertVehicle at hinsert
    split at hinsert
    · simp at hinsert
    · obtain ⟨⟨new, vehicles⟩, hunique, rfl⟩ := Option.map_eq_some_iff.mp hinsert
      exact { hdb with vehicles := unique_insertUnique hdb.vehicles hunique }
  | updateVehicles _ hupdate => exact Form.constraints .vehicle hescaped hdb hupdate
  | deleteVehicles _ => exact { hdb with vehicles := hdb.vehicles.delete _ }
  | insertService _ => exact { hdb with }
  | insertUnauthorised hinsert =>
    exact { hdb with
      serviceUnauthorised := unique_insertUnique hdb.serviceUnauthorised hinsert }
  | deleteUnauthorised key =>
    exact { hdb with serviceUnauthorised := hdb.serviceUnauthorised.delete _ }
  | insertActive _ _ _ => exact { hdb with }
  | updateServices _ hupdate => exact Form.constraints .service hescaped hdb hupdate
  | insertOpen hinsert =>
    exact { hdb with serviceOpen := unique_insertUnique hdb.serviceOpen hinsert }
  | deleteOpen key => exact { hdb with serviceOpen := hdb.serviceOpen.delete _ }
  | insertClosed _ hinsert =>
    exact { hdb with serviceClosed := unique_insertUnique hdb.serviceClosed hinsert }
  | insertPartInService _ => exact { hdb with }
  | addQuantity _ => exact { hdb with }
  | removeQuantity _ => exact { hdb with }
  | deletePartsInService _ => exact { hdb with }

end Statements

/-! ## Logins -/

section Logins

variable {p : Platform} {b : Body}

theorem Ending.Replies.ne_aborted {ending : Ending} (h : ending.Replies) : ending ≠ .aborted := by
  obtain ⟨status, response, rfl⟩ := h
  simp

/-- At most one user matches a name and a password. -/
theorem login_ne_aborted {users : Table User} (h : users.Unique User.username)
    (username password : Text) : login p users username password ≠ .aborted := by
  have hmatch := h.select_le_one (.text username)
    (p := fun _ user => user.username == .text username && user.password == .text (hash password))
    (by
      intro id user hboth
      rw [Bool.and_eq_true, beq_iff_eq] at hboth
      exact hboth.1)
  unfold login matchingUsers
  rcases hmatch with hnil | ⟨id, user, hone⟩
  · rw [hnil]
    simp
  · rw [hone]
    dsimp only
    split <;> simp

theorem authenticate_ne_aborted {server : Server} (h : server.database.users.Unique User.username)
    (req : Request) (b : Body) (fresh : Nat) :
    (authenticate p server req b fresh).2 ≠ .aborted := by
  unfold authenticate
  split
  · simp
  · rename_i hall
    have hlogin := @login_ne_aborted p _ h ((b.getElement Field.username).getD [])
      ((b.getElement Field.password).getD [])
    have hrequest : (request p server req b fresh).2 ≠ .aborted := by
      unfold request
      rw [if_neg hall]
      dsimp only
      split
      · simp
      · exact hlogin
    split
    · simp
    · simp
    · rename_i hresult
      exact absurd (congrArg Prod.snd hresult) hrequest

theorem withStatus_eq_aborted {ending : Ending} {status : Status} :
    ending.withStatus status = .aborted ↔ ending = .aborted := by
  cases ending <;> simp [Ending.withStatus]

theorem registerUser_ne_aborted {server : Server}
    (h : (registered p server b).database.users.Unique User.username) (req : Request) (fresh : Nat) :
    (registerUser p server req b fresh).2 ≠ .aborted := by
  have hlogin : (authenticate p (registered p server b) req b fresh).2 ≠ .aborted :=
    authenticate_ne_aborted h req b fresh
  unfold registered registerInsert at hlogin
  unfold registerUser
  split
  · simp
  · split
    · rename_i hinsert
      rw [hinsert] at hlogin
      dsimp only
      intro haborted
      exact hlogin (withStatus_eq_aborted.mp haborted)
    · rename_i hinsert
      rw [hinsert] at hlogin
      exact hlogin

theorem refusedRequest_ne_aborted {server : Server} {req : Request} {ending : Ending}
    (h : refusedRequest p server req b = some ending) : ending ≠ .aborted := by
  rintro rfl
  unfold refusedRequest at h
  (repeat' split at h) <;> simp at h

theorem refusedUser_ne_aborted {server : Server} {req : Request} {q : Query} {ending : Ending}
    (h : refusedUser server req q = some ending) : ending ≠ .aborted := by
  rintro rfl
  unfold refusedUser at h
  (repeat' split at h) <;> simp at h

theorem openService_replies (database : Database) (row : ActiveService) :
    (openService database row).2.Replies := by
  unfold openService
  dsimp only
  (repeat' split) <;> exact ⟨_, _, rfl⟩

/-- Only a login asserts anything. -/
theorem handle_ne_aborted {route : Route} {server : Server} {call : Call}
    (hregistered : (registered p server call.b).database.users.Unique User.username)
    (hunique : server.database.users.Unique User.username) :
    (handle p route server call).2 ≠ .aborted := by
  cases route with
  | request => exact authenticate_ne_aborted hunique _ _ _
  | register => exact registerUser_ne_aborted hregistered _ _
  | release =>
    change (deauthenticate server call.req).2 ≠ .aborted
    unfold deauthenticate
    split <;> simp
  | checkSession =>
    change (WFA.checkSession server call.req).2 ≠ .aborted
    unfold WFA.checkSession
    (repeat' split) <;> simp
  | userMe =>
    change (getLocalUserData p server call.req).2 ≠ .aborted
    unfold getLocalUserData
    (repeat' split) <;> simp
  | vehicleUpdate =>
    change (updateVehicle p server call.req call.b).2 ≠ .aborted
    unfold updateVehicle
    dsimp only
    (repeat' split) <;> simp
  | vehicleDelete =>
    change (deleteVehicle p server call.req call.b).2 ≠ .aborted
    unfold deleteVehicle
    dsimp only
    (repeat' split) <;> simp
  | vehicleSelect =>
    change selectVehicle p server call.req call.q ≠ .aborted
    unfold selectVehicle
    dsimp only
    (repeat' split) <;> first | exact (Ending.ofFirst_replies _ _).ne_aborted | simp
  | serviceCreate =>
    change (createRequest p server call.req call.b call.date).2 ≠ .aborted
    unfold createRequest
    split
    · simp
    · split
      · rename_i hrefused
        exact refusedRequest_ne_aborted hrefused
      · dsimp only
        (repeat' split) <;> simp
  | serviceAuthorise =>
    change (authoriseRequest p server call.req call.b).2 ≠ .aborted
    unfold authoriseRequest
    dsimp only
    (repeat' split) <;> first | exact (openService_replies _ _).ne_aborted | simp
  | serviceClose =>
    change (closeService p server call.req call.b call.date).2 ≠ .aborted
    unfold closeService
    dsimp only
    (repeat' split) <;> simp
  | serviceSearch =>
    change searchServices p server call.req call.q ≠ .aborted
    unfold searchServices
    split
    · simp
    · split
      · rename_i hrefused
        exact refusedUser_ne_aborted hrefused
      · (repeat' split) <;> simp
  | servicePartSelect =>
    change selectServicePart p server call.req call.q ≠ .aborted
    unfold selectServicePart
    split
    · simp
    · split
      · rename_i hrefused
        exact refusedUser_ne_aborted hrefused
      · split
        · simp
        · exact (Ending.ofFirst_replies _ _).ne_aborted
  | userCreate => exact createUser_replies.ne_aborted
  | userDelete => exact deleteUser_replies.ne_aborted
  | userUpdate => exact updateUser_replies.ne_aborted
  | supplierCreate => exact createSupplier_replies.ne_aborted
  | supplierUpdate => exact updateSupplier_replies.ne_aborted
  | groupCreate => exact createPartGroup_replies.ne_aborted
  | groupUpdate => exact updatePartGroup_replies.ne_aborted
  | partCreate => exact createPart_replies.ne_aborted
  | partUpdate => exact updatePart_replies.ne_aborted
  | vehicleCreate => exact createVehicle_replies.ne_aborted
  | serviceUpdate => exact updateService_replies.ne_aborted
  | servicePartAdd => exact addPartToService_replies.ne_aborted
  | servicePartRemove => exact removePartFromService_replies.ne_aborted
  | userSearch => exact searchUsers_replies.ne_aborted
  | userSelect => exact selectUser_replies.ne_aborted
  | supplierSearch => exact searchSuppliers_replies.ne_aborted
  | supplierSelect => exact selectSupplier_replies.ne_aborted
  | groupSearch => exact searchPartGroups_replies.ne_aborted
  | groupSelect => exact selectPartGroup_replies.ne_aborted
  | partSearch => exact searchParts_replies.ne_aborted
  | partSelect => exact selectPart_replies.ne_aborted
  | serviceSelect => exact selectService_replies.ne_aborted
  | displayTables => simp [handle]
  | ping => simp [handle]
  | other => simp [handle]

/-- In every run of requests to any routes, whatever their bodies are, the unique
columns stay unique, and the assertion of a login fails in none. -/
theorem constraints_kept {start server : Server} {actions : List (Route × Call)}
    (hescaped : p.KeepsConstraints)
    (hrun : ServerRun p (fun _ => True) start actions server) (hstart : Constraints start.database) :
    Constraints server.database ∧
      ∀ route call, (handle p route server call).2 ≠ .aborted := by
  have hkept : Constraints server.database :=
    hrun.keeps (fun _ _ _ _ hstatement => hstatement.constraints hescaped) hstart
  refine ⟨hkept, fun route call => ?_⟩
  have hexecutes : Executes p .register call server.database
      (registered p server call.b).database := registered_executes server call
  have hregistered := hexecutes.keeps
    (fun _ _ hstatement => hstatement.constraints hescaped) hkept
  exact handle_ne_aborted hregistered.users hkept.users

end Logins

theorem constraints_emptyGarage : Constraints emptyGarage.database where
  users := Table.unique_empty
  suppliers := Table.unique_empty
  vehicleShared := Table.unique_empty
  partGroups := Table.unique_empty
  parts := Table.unique_empty
  vehicles := Table.unique_empty
  serviceUnauthorised := Table.unique_empty
  serviceOpen := Table.unique_empty
  serviceClosed := Table.unique_empty

/-- A second vehicle with the same plate is refused, and one with another is not. -/
theorem constraints_kept_plates :
    (Constraints (garageWith (twoVehicles ++ twoVehicles)).database ∧
      ∀ route call,
        (handle .integers route (garageWith (twoVehicles ++ twoVehicles)) call).2 ≠ .aborted) ∧
    ((garageWith (twoVehicles ++ twoVehicles)).database.vehicles.select
        fun _ _ => true).map (fun row => (row.1, row.2.plate)) =
      [(1, .text ("AB12" : Text)), (2, .text ("CD34" : Text))] := by
  have hescaped : Platform.integers.KeepsConstraints := by
    intro statement key db db' hupdate
    simp [Platform.integers] at hupdate
  refine ⟨?_, by decide +kernel⟩
  exact constraints_kept hescaped (Run.of_forall fun _ _ => trivial) constraints_emptyGarage

end WFA
