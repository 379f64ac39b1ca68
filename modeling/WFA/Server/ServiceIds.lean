-- SUMMARY: The ID that is reported for an open service names it in `updateService` and `closeService` exactly when it is also the ID of its active data.
import WFA.Server.Lifecycle
import WFA.Server.ServiceReports

/-!
# Two kinds of service IDs

`searchServices` reports the ID of `SERVICESHAREDDATA`; `updateService` and
`closeService` take what they are given as an ID of `ACTIVESERVICEDATA`. The two
sequences agree as long as services are authorised in the order of their requests.
-/

namespace WFA

open Text

/-! ## Runs -/

/-- What requests and authorisations keep: a service has one row of active data
at most, and none while it has a request. -/
structure Numbered (database : Database) : Prop where
  positive : ∀ s row, database.serviceShared.get s = some row → 0 < s
  requestRefers : ∀ v, database.serviceUnauthorised.Occurs UnauthorisedService.service v →
    Refers v database.serviceShared
  activeRefers : ∀ v, database.serviceActive.Occurs ActiveService.service v →
    Refers v database.serviceShared
  disjoint : ∀ v, database.serviceUnauthorised.Occurs UnauthorisedService.service v →
    ¬ database.serviceActive.Occurs ActiveService.service v
  one : ∀ v a a', database.serviceActive.Holds ActiveService.service a v →
    database.serviceActive.Holds ActiveService.service a' v → a = a'
  closed : database.serviceClosed = .empty

/-- Requests and authorisations, in any order. -/
def isRequestOrAuthorise : ServiceAction → Prop
  | .createRequest _ _ _ | .authoriseRequest _ _ | .other _ => True
  | _ => False

/-- A run of requests and authorisations from empty service tables. -/
def RequestRun (p : Platform) (database : Database) (sessions : Sessions) :
    List ServiceAction → Server → Prop :=
  Run (serviceStep p) (fun _ action => isRequestOrAuthorise action)
    { database := database.withServices {}, sessions }

section Steps

variable {p : Platform} {database : Database} {server : Server}

/-- A new service, with its request or without it. -/
theorem Numbered.request (h : Numbered database) {row : ServiceShared} {id : Int}
    {serviceShared : Table ServiceShared} {serviceUnauthorised : Table UnauthorisedService}
    (hshared : database.serviceShared.insert row = some (id, serviceShared))
    (hrequest : ∀ v, serviceUnauthorised.Occurs UnauthorisedService.service v →
      database.serviceUnauthorised.Occurs UnauthorisedService.service v ∨ v = .int id) :
    Numbered { database with serviceShared, serviceUnauthorised } := by
  refine { positive := ?_, requestRefers := ?_, activeRefers := ?_, disjoint := ?_, one := h.one
           closed := h.closed }
  · intro s found hget
    rw [Table.get_insert hshared] at hget
    split at hget
    · rename_i hs
      rw [hs, Table.insert_id hshared]
      exact Table.nextId_pos h.positive
    · exact h.positive s found hget
  · intro v hoccurs
    rcases hrequest v hoccurs with hold | rfl
    · exact (h.requestRefers v hold).insert hshared
    · exact refers_new hshared
  · intro v hoccurs
    exact (h.activeRefers v hoccurs).insert hshared
  · intro v hoccurs
    rcases hrequest v hoccurs with hold | rfl
    · exact h.disjoint v hold
    · exact fun hactive => not_refers_new hshared (h.activeRefers _ hactive)

/-- A request that is taken off, without active data. -/
theorem Numbered.withoutRequest (h : Numbered database) (v : Value) :
    Numbered (withoutRequest database v) where
  positive := h.positive
  requestRefers w hoccurs := h.requestRefers w (Table.occurs_delete.mp hoccurs).1
  activeRefers := h.activeRefers
  disjoint w hoccurs := h.disjoint w (Table.occurs_delete.mp hoccurs).1
  one := h.one
  closed := h.closed

/-- Active data for a service that has none and no request any more. -/
theorem Numbered.activate (h : Numbered database) {row : ActiveService} {id : Int}
    {serviceActive : Table ActiveService} (serviceOpen : Table OpenService)
    (hrefers : Refers row.service database.serviceShared)
    (hnone : ¬ database.serviceActive.Occurs ActiveService.service row.service)
    (hrequest : ¬ database.serviceUnauthorised.Occurs UnauthorisedService.service row.service)
    (hinsert : database.serviceActive.insert row = some (id, serviceActive)) :
    Numbered { database with serviceActive, serviceOpen } := by
  refine { positive := h.positive, requestRefers := h.requestRefers, activeRefers := ?_
           disjoint := ?_, one := ?_, closed := h.closed }
  · intro v hoccurs
    rcases (Table.occurs_insert hinsert).mp hoccurs with hold | rfl
    · exact h.activeRefers v hold
    · exact hrefers
  · intro v hoccurs hactive
    rcases (Table.occurs_insert hinsert).mp hactive with hold | rfl
    · exact h.disjoint v hoccurs hold
    · exact hrequest hoccurs
  · intro v a a' ha ha'
    rcases (Table.holds_insert hinsert).mp ha with hold | ⟨rfl, rfl⟩
    · rcases (Table.holds_insert hinsert).mp ha' with hold' | ⟨rfl, rfl⟩
      · exact h.one v a a' hold hold'
      · exact absurd hold.occurs hnone
    · rcases (Table.holds_insert hinsert).mp ha' with hold' | ⟨rfl, -⟩
      · exact absurd hold'.occurs hnone
      · rfl

theorem Numbered.openService (h : Numbered database) {row : ActiveService}
    (hrefers : Refers row.service database.serviceShared)
    (hnone : ¬ database.serviceActive.Occurs ActiveService.service row.service)
    (hrequest : ¬ database.serviceUnauthorised.Occurs UnauthorisedService.service row.service) :
    Numbered (openService database row).1 := by
  unfold WFA.openService
  cases hinsert : database.serviceActive.insert row with
  | none => exact h
  | some inserted =>
    obtain ⟨id, serviceActive⟩ := inserted
    simp only
    split
    · exact h.activate database.serviceOpen hrefers hnone hrequest hinsert
    · rename_i other serviceOpen _
      exact h.activate serviceOpen hrefers hnone hrequest hinsert

/-- The database without its closed services, which neither requests nor
authorisations look at. -/
def unclosed (database : Database) : Database :=
  { database with serviceClosed := .empty }

theorem unclosed_eq (h : database.serviceClosed = .empty) : unclosed database = database := by
  rw [unclosed, ← h]

theorem unclosed_openService (row : ActiveService) :
    unclosed (openService database row).1 = (openService (unclosed database) row).1 ∧
      (openService database row).1.serviceClosed = database.serviceClosed := by
  unfold WFA.openService unclosed
  cases database.serviceActive.insert row with
  | none => exact ⟨rfl, rfl⟩
  | some inserted =>
    simp only
    cases insertUnique database.serviceOpen OpenService.service { service := .int inserted.1 } with
    | none => exact ⟨rfl, rfl⟩
    | some opened => exact ⟨rfl, rfl⟩

theorem Numbered.unclosed_step (h : Numbered (unclosed server.database)) {action : ServiceAction}
    (hallowed : isRequestOrAuthorise action) :
    Numbered (unclosed (serviceStep p server action).database) := by
  cases action with
  | createRequest req b date =>
    simp only [serviceStep]
    rcases createRequest_cases (p := p) server req b date with hsame | ⟨-, id, serviceShared,
      hshared, ⟨other, serviceUnauthorised, hunique, hresult⟩ | ⟨-, hresult⟩⟩
    · rw [hsame]
      exact h
    · rw [hresult]
      refine h.request hshared ?_
      intro v hoccurs
      rcases (Table.occurs_insert (insertUnique_eq_some hunique).1).mp hoccurs with hold | rfl
      · exact .inl hold
      · exact .inr rfl
    · rw [hresult]
      exact h.request hshared fun v hoccurs => .inl hoccurs
  | authoriseRequest req b =>
    simp only [serviceStep]
    rcases authoriseRequest_cases (p := p) server req b with
      ⟨hsame, -⟩ | ⟨key, user, haccepted, ⟨-, hresult⟩ | ⟨quote, -, hresult⟩⟩
    · rw [hsame]
      exact h
    · rw [hresult]
      exact h.withoutRequest _
    · rw [hresult, Server.withDatabase_database, (unclosed_openService _).1]
      refine (h.withoutRequest _).openService (h.requestRefers _ haccepted.occurs)
        (h.disjoint _ haccepted.occurs) ?_
      simp [newActive, insertedActive, WFA.withoutRequest, Table.occurs_delete]
  | other after =>
    exact { positive := h.positive, requestRefers := h.requestRefers
            activeRefers := h.activeRefers, disjoint := h.disjoint, one := h.one
            closed := rfl }
  | updateService req b => exact absurd hallowed id
  | closeService req b date => exact absurd hallowed id

theorem serviceClosed_step {action : ServiceAction} (hallowed : isRequestOrAuthorise action) :
    (serviceStep p server action).database.serviceClosed = server.database.serviceClosed := by
  cases action with
  | createRequest req b date =>
    simp only [serviceStep]
    rcases createRequest_cases (p := p) server req b date with hsame | ⟨-, id, serviceShared,
      -, ⟨other, serviceUnauthorised, -, hresult⟩ | ⟨-, hresult⟩⟩
    · rw [hsame]
    · rw [hresult]
      rfl
    · rw [hresult]
      rfl
  | authoriseRequest req b =>
    simp only [serviceStep]
    rcases authoriseRequest_cases (p := p) server req b with
      ⟨hsame, -⟩ | ⟨key, user, -, ⟨-, hresult⟩ | ⟨quote, -, hresult⟩⟩
    · rw [hsame]
    · rw [hresult]
      rfl
    · rw [hresult, Server.withDatabase_database, (unclosed_openService _).2]
      rfl
  | other after => rfl
  | updateService req b => exact absurd hallowed id
  | closeService req b date => exact absurd hallowed id

theorem Numbered.step (h : Numbered server.database) {action : ServiceAction}
    (hallowed : isRequestOrAuthorise action) :
    Numbered (serviceStep p server action).database := by
  have hclosed : (serviceStep p server action).database.serviceClosed = .empty :=
    (serviceClosed_step hallowed).trans h.closed
  rw [← unclosed_eq hclosed]
  refine Numbered.unclosed_step ?_ hallowed
  rw [unclosed_eq h.closed]
  exact h

theorem numbered_empty (database : Database) : Numbered (database.withServices {}) where
  positive := by simp [Database.withServices]
  requestRefers v hoccurs := absurd hoccurs Table.not_occurs_empty
  activeRefers v hoccurs := absurd hoccurs Table.not_occurs_empty
  disjoint v hoccurs := absurd hoccurs Table.not_occurs_empty
  one v a a' hholds := absurd hholds Table.not_holds_empty
  closed := rfl

theorem RequestRun.numbered {sessions : Sessions} {actions : List ServiceAction}
    (h : RequestRun p database sessions actions server) : Numbered server.database := by
  refine Run.invariant (P := fun server => Numbered server.database) ?_
    (fun _ _ hnumbered hallowed => hnumbered.step hallowed) h
  exact numbered_empty database

end Steps

/-! ## What the ID names -/

/-- `updateService` with this form changes the row `a` of active data as the form
says, and no other one. -/
def UpdatesOnly (p : Platform) (database : Database) (a : Int) (b : Body) : Prop :=
  ∀ sessions req, sessions.verify req AuthLevel.employee = true →
    ∀ x, (updateService p { database, sessions } req b).1.database.serviceActive.get x =
      if x = a then (database.serviceActive.get a).map (updatedService p b a)
      else database.serviceActive.get x

/-- The form has this ID, and its values stay inside their quotes. -/
structure FormFor (p : Platform) (i : Int) (b : Body) : Prop where
  named : b.getElement Field.id = some (p.columnText (.int i))
  quoted : wellQuoted b serviceRelations = true

/-- The form says of the two rows what they hold already. -/
def SaysNothing (p : Platform) (database : Database) (i a : Int) (b : Body) : Prop :=
  ∀ x row, x = a ∨ x = i → database.serviceActive.get x = some row →
    updatedService p b x row = row

/-- `closeService` with this ID takes the service out of the open list and into the
closed one, and leaves every other service where it is. -/
def ClosesOnly (p : Platform) (database : Database) (i : Int) : Prop :=
  ∀ sessions req b date, sessions.verify req AuthLevel.manager = true →
    b.getElement Field.id = some (p.columnText (.int i)) →
    (b.getElement Field.paid).isSome = true →
    ∀ t,
      (t ∈ reported p (closeService p { database, sessions } req b date).1 req Key.openList ↔
        t ∈ reported p { database, sessions } req Key.openList ∧ t ≠ p.columnText (.int i)) ∧
      (t ∈ reported p (closeService p { database, sessions } req b date).1 req Key.closedList ↔
        t ∈ reported p { database, sessions } req Key.closedList ∨ t = p.columnText (.int i)) ∧
      (t ∈ reported p (closeService p { database, sessions } req b date).1 req
          Key.unauthorisedList ↔
        t ∈ reported p { database, sessions } req Key.unauthorisedList)

section Names

variable {p : Platform} {database : Database} {i a : Int} {row : ActiveService}

theorem columnText_ne_nil (hpos : 0 < i) : p.columnText (.int i) ≠ [] := by
  rw [Platform.columnText, ofInt, if_neg (by omega)]
  exact ofNat_ne_nil _

/-- A clause without assignments changes nothing. -/
theorem updatedService_of_isEmpty {b : Body}
    (h : (generateUpdateStatement b serviceRelations).isEmpty = true) (id : Int)
    (row : ActiveService) : updatedService p b id row = row := by
  have hnone : token b Field.notes = none ∧ token b Field.hours = none := by
    unfold generateUpdateStatement serviceRelations at h
    simp only [List.foldl_cons, List.foldl_nil] at h
    unfold token
    cases hnotes : assigned b Field.notes <;> cases hhours : assigned b Field.hours <;>
      simp_all
  simp [updatedService, hnone.1, hnone.2, updated]

theorem updateService_get {sessions : Sessions} {req : Request} {b : Body} {key : Text}
    (hemployee : sessions.verify req AuthLevel.employee = true)
    (hkey : b.getElement Field.id = some key) (hne : key ≠ [])
    (hid : p.numeric key = .int i) (hquoted : wellQuoted b serviceRelations = true) (x : Int) :
    (updateService p { database, sessions } req b).1.database.serviceActive.get x =
      if x = i then (database.serviceActive.get i).map (updatedService p b i)
      else database.serviceActive.get x := by
  have hhas : b.hasElement Field.id = true := QueryBase.hasElement_iff.mpr ⟨key, hkey, hne⟩
  unfold updateService
  simp only [hhas, hemployee, Bool.not_true, Bool.false_eq_true, if_false, hkey, Option.getD_some]
  split
  · rename_i hempty
    split
    · rename_i hx
      subst hx
      cases database.serviceActive.get x with
      | none => rfl
      | some row => simp [updatedService_of_isEmpty hempty]
    · rfl
  · simp only [updateServices, hquoted, Bool.not_true, Bool.false_eq_true, if_false]
    exact update_isId_get _ hid x

/-! ## Bodies that set the notes -/

def notesBody (key notes : Text) : Body :=
  .ofList [(Field.id, key), (Field.notes, notes)]

theorem getElement_notesBody (key notes : Text) :
    (notesBody key notes).getElement Field.id = some key ∧
      (notesBody key notes).getElement Field.notes = some notes ∧
      (notesBody key notes).getElement Field.hours = none := by
  have hid : (Field.notes == Field.id) = false := by decide +kernel
  have hhours : (Field.notes == Field.hours) = false := by decide +kernel
  have hhours' : (Field.id == Field.hours) = false := by decide +kernel
  simp [notesBody, QueryBase.getElement, QueryBase.ofList, hid, hhours, hhours']

theorem assigned_notesBody {key notes : Text} (hne : notes ≠ []) :
    assigned (notesBody key notes) Field.notes = some notes ∧
      assigned (notesBody key notes) Field.hours = none := by
  obtain ⟨-, hnotes, hhours⟩ := getElement_notesBody key notes
  have hhas : (notesBody key notes).hasElement Field.notes = true :=
    QueryBase.hasElement_iff.mpr ⟨notes, hnotes, hne⟩
  simp [assigned, hhas, hnotes, hhours]

/-- A text that is no column goes into the row as it is. -/
theorem notes_updatedService {key notes : Text} (hne : notes ≠ [])
    (hunquote : unquote notes = some notes)
    (hcolumn : ∀ column ∈ row.columns a, column.1 ≠ lower notes) :
    (updatedService p (notesBody key notes) a row).notes = .text notes := by
  simp [updatedService, token, (assigned_notesBody hne).1, hunquote, updated, quoted_of_ne hcolumn,
    Platform.textAffinity]

/-- Twelve letters, or any number of them. -/
def letters (n : Nat) : Text :=
  List.replicate n ('x' : Byte)

/-- Two texts that are no columns: one of them is not what the notes are now. -/
theorem letters_unequal (h : ∀ n, n = 12 ∨ n = 13 →
    (updatedService p (notesBody (p.columnText (.int i)) (letters n)) a row) = row) : False := by
  have hnotes : ∀ n, n = 12 ∨ n = 13 → row.notes = .text (letters n) := by
    intro n hn
    have hcolumn : ∀ column ∈ row.columns a, column.1 ≠ lower (letters n) := by
      have hnames : lower (letters n) ∉ (row.columns a).map Prod.fst := by
        change lower (letters n) ∉ [("rowid" : Text), ("oid" : Text), ("_rowid_" : Text),
          ("id" : Text), ("service" : Text), ("labour" : Text), ("notes" : Text),
          ("authoriser" : Text), ("quote" : Text)]
        rcases hn with rfl | rfl <;> decide +kernel
      intro column hmem heq
      exact hnames (heq ▸ List.mem_map_of_mem hmem)
    have hunquote : unquote (letters n) = some (letters n) := by
      rcases hn with rfl | rfl <;> decide +kernel
    have hne : letters n ≠ [] := by
      rcases hn with rfl | rfl <;> decide +kernel
    rw [← notes_updatedService hne hunquote hcolumn, h n hn]
  have heq := (hnotes 12 (.inl rfl)).symm.trans (hnotes 13 (.inr rfl))
  revert heq
  decide +kernel

/-! ## Updating -/

theorem formFor_notesBody {notes : Text} (hne : notes ≠ []) (hunquote : (unquote notes).isSome) :
    FormFor p i (notesBody (p.columnText (.int i)) notes) where
  named := (getElement_notesBody _ _).1
  quoted := by simp [wellQuoted, serviceRelations, assigned_notesBody hne, hunquote]

/-- One form changes the row `a` alone exactly when it names it or says nothing new. -/
theorem updatesOnly_iff (hlaw : p.Lawful) (hpos : 0 < i) (hbound : i < 2 ^ 63) {b : Body}
    (hform : FormFor p i b) :
    UpdatesOnly p database a b ↔ a = i ∨ SaysNothing p database i a b := by
  have hid := Platform.numeric_columnText hlaw hpos hbound
  have hemployee : managerSessions.verify managerRequest AuthLevel.employee = true :=
    managerSessions_verify (by decide)
  constructor
  · intro honly
    by_cases hne : a = i
    · exact .inl hne
    · refine .inr ?_
      rintro x row hx hget
      have hafter := honly managerSessions managerRequest hemployee x
      rw [updateService_get hemployee hform.named (columnText_ne_nil hpos) hid hform.quoted] at hafter
      rcases hx with rfl | rfl
      · rw [if_neg hne, if_pos rfl, hget, Option.map_some] at hafter
        exact (Option.some.inj hafter).symm
      · rw [if_pos rfl, if_neg (Ne.symm hne), hget, Option.map_some] at hafter
        exact Option.some.inj hafter
  · intro hor sessions req hemployee x
    rw [updateService_get hemployee hform.named (columnText_ne_nil hpos) hid hform.quoted]
    rcases hor with rfl | hnothing
    · rfl
    · have hkept : ∀ y, y = a ∨ y = i →
          (database.serviceActive.get y).map (updatedService p b y) = database.serviceActive.get y := by
        intro y hy
        cases hget : database.serviceActive.get y with
        | none => rfl
        | some row => exact congrArg some (hnothing y row hy hget)
      have hsame : ∀ y, (if x = y then database.serviceActive.get y
          else database.serviceActive.get x) = database.serviceActive.get x := by
        intro y
        split
        · rename_i hx
          rw [hx]
        · rfl
      rw [hkept i (.inr rfl), hkept a (.inl rfl), hsame, hsame]

/-- Every form for the ID changes the row `a` alone exactly when `a` is the ID. -/
theorem forall_updatesOnly_iff (hlaw : p.Lawful) (hpos : 0 < i) (hbound : i < 2 ^ 63)
    (hget : database.serviceActive.get a = some row) :
    (∀ b, FormFor p i b → UpdatesOnly p database a b) ↔ a = i := by
  constructor
  · intro honly
    by_contra hne
    refine letters_unequal (fun n hn => ?_ : ∀ n, n = 12 ∨ n = 13 →
      updatedService p (notesBody (p.columnText (.int i)) (letters n)) a row = row)
    have hform : FormFor p i (notesBody (p.columnText (.int i)) (letters n)) := by
      refine formFor_notesBody ?_ ?_ <;> rcases hn with rfl | rfl <;> decide +kernel
    rcases (updatesOnly_iff hlaw hpos hbound hform).mp (honly _ hform) with heq | hnothing
    · exact absurd heq hne
    · exact hnothing a row (.inl rfl) hget
  · rintro rfl b hform
    exact (updatesOnly_iff hlaw hpos hbound hform).mpr (.inl rfl)

/-! ## Closing -/

/-- The database after a closing. -/
def closedDatabase (database : Database) (v : Value) (serviceClosed : Table ClosedService) :
    Database :=
  { database with
    serviceClosed
    serviceOpen := database.serviceOpen.delete fun _ row => row.service == v }

/-- With nothing closed yet, an accepted closing goes through. -/
theorem closeService_eq (hclosed : database.serviceClosed = .empty) {sessions : Sessions}
    {req : Request} {b : Body} {key : Text} (date : Text)
    (hmanager : sessions.verify req AuthLevel.manager = true)
    (hkey : b.getElement Field.id = some key) (hne : key ≠ [])
    (hpaid : (b.getElement Field.paid).isSome = true) :
    ∃ new id serviceClosed, new.service = p.numeric key ∧
      database.serviceClosed.insert new = some (id, serviceClosed) ∧
      (closeService p { database, sessions } req b date).1 =
        { database := closedDatabase database (p.numeric key) serviceClosed, sessions } := by
  obtain ⟨user, huser⟩ := user_of_verify hmanager
  obtain ⟨paid, hpaid⟩ := Option.isSome_iff_exists.mp hpaid
  have hhas : b.hasElement Field.id = true := QueryBase.hasElement_iff.mpr ⟨key, hkey, hne⟩
  have hroom : Roomy database.serviceClosed := by
    rw [hclosed]
    unfold Roomy
    decide
  have hnot : ¬ database.serviceClosed.Occurs ClosedService.service (p.numeric key) := by
    rw [hclosed]
    exact Table.not_occurs_empty
  obtain ⟨serviceClosed, hunique⟩ : ∃ serviceClosed, insertUnique database.serviceClosed
      ClosedService.service (newClosed p key paid date user) = some (_, serviceClosed) :=
    insertUnique_isSome hroom hnot
  refine ⟨newClosed p key paid date user, _, serviceClosed, rfl,
    (insertUnique_eq_some hunique).1, ?_⟩
  simp [closeService, hhas, hmanager, huser, hpaid, hkey, hunique, closedDatabase]

section Closed

variable {v : Value} {new : ClosedService} {id : Int} {serviceClosed : Table ClosedService}

theorem mem_openRows_closed {found : ActiveService × SharedRow} :
    found ∈ openRows p (closedDatabase database v serviceClosed) allServices ↔
      ∃ w, database.serviceOpen.Occurs OpenService.service w ∧ w ≠ v ∧
        activeRow database w = some found ∧
        (found.1.authoriser.row database.users).isSome = true := by
  rw [mem_openRows]
  simp only [closedDatabase, Table.occurs_delete, and_assoc]
  rfl

theorem mem_closedRows_closed (hclosed : database.serviceClosed = .empty)
    (hinsert : database.serviceClosed.insert new = some (id, serviceClosed))
    {closed : ClosedService} {found : ActiveService × SharedRow} :
    (closed, found) ∈ closedRows p (closedDatabase database v serviceClosed) allServices ↔
      closed = new ∧ activeRow database new.service = some found := by
  rw [mem_closedRows]
  simp only [closedDatabase, Table.get_insert hinsert, hclosed, Table.get_empty]
  constructor
  · rintro ⟨other, hget, hactive⟩
    split at hget
    · obtain rfl := Option.some.inj hget
      exact ⟨rfl, hactive⟩
    · cases hget
  · rintro ⟨rfl, hactive⟩
    exact ⟨id, by rw [if_pos rfl], hactive⟩

end Closed

/-- An open service of a listing. -/
structure OpenListed (p : Platform) (database : Database) (i a : Int) (row : ActiveService)
    (shared : SharedRow) : Prop where
  get : database.serviceActive.get a = some row
  opened : database.serviceOpen.Occurs OpenService.service (.int a)
  service : row.service = .int i
  joined : sharedRow database row.service = some shared
  authoriser : (row.authoriser.row database.users).isSome = true

variable {shared : SharedRow}

theorem OpenListed.id_eq (h : OpenListed p database i a row shared) : shared.id = i := by
  have := (service_of_sharedRow h.joined).1
  rw [h.service] at this
  exact (Value.int.inj this).symm

theorem OpenListed.activeRow_eq (h : OpenListed p database i a row shared) :
    activeRow database (.int a) = some (row, shared) :=
  activeRow_eq_some_iff.mpr ⟨a, rfl, h.get, h.joined⟩

theorem OpenListed.mem (h : OpenListed p database i a row shared) :
    (row, shared) ∈ openRows p database allServices :=
  mem_openRows.mpr ⟨.int a, h.opened, h.activeRow_eq, h.authoriser⟩

/-- Another open row is one of another service. -/
theorem OpenListed.id_ne (h : OpenListed p database i a row shared) (hnumbered : Numbered database)
    {w : Value} {found : ActiveService × SharedRow} (hactive : activeRow database w = some found)
    (hw : w ≠ .int a) : found.2.id ≠ i := by
  intro heq
  obtain ⟨a', rfl, hget, hshared⟩ := activeRow_eq_some_iff.mp hactive
  have hservice := (service_of_sharedRow hshared).1
  rw [heq] at hservice
  refine hw (congrArg Value.int ?_)
  exact hnumbered.one (.int i) a' a ⟨found.1, hget, hservice⟩ ⟨row, h.get, h.service⟩

/-- A record of either list can be made when the prices of the parts can be read. -/
theorem isSome_closedRecord (closed : ClosedService) (found : ActiveService × SharedRow) :
    (closedRecord p database (closed, found)).isSome = (openRecord p database found).isSome := by
  simp [closedRecord, openRecord, addParts]

theorem mem_listed_open {response : ResponseWrapper} (h : Listing p database response) {t : Text} :
    t ∈ response.listed Key.openList ↔
      ∃ found ∈ openRows p database allServices, p.columnText (.int found.2.id) = t := by
  rw [h.opened, List.mem_map]

theorem mem_listed_closed {response : ResponseWrapper} (h : Listing p database response) {t : Text} :
    t ∈ response.listed Key.closedList ↔
      ∃ found ∈ closedRows p database allServices, p.columnText (.int found.2.2.id) = t := by
  rw [h.closed, List.mem_map]

/-- The body of a closing. -/
def closeBody (key : Text) : Body :=
  .ofList [(Field.id, key), (Field.paid, ("0" : Text))]

theorem getElement_closeBody (key : Text) :
    (closeBody key).getElement Field.id = some key ∧
      ((closeBody key).getElement Field.paid).isSome = true := by
  have hid : (Field.paid == Field.id) = false := by decide +kernel
  simp [closeBody, QueryBase.getElement, QueryBase.ofList, hid]

/-- With another ID the service stays in the open list. -/
theorem mem_open_of_ne (h : OpenListed p database i a row shared) (hne : a ≠ i)
    {serviceClosed : Table ClosedService} {after : ResponseWrapper}
    (hafter : Listing p (closedDatabase database (.int i) serviceClosed) after) :
    p.columnText (.int i) ∈ after.listed Key.openList := by
  refine (mem_listed_open hafter).mpr ⟨(row, shared), ?_, by rw [h.id_eq]⟩
  exact mem_openRows_closed.mpr ⟨.int a, h.opened, fun heq => hne (Value.int.inj heq),
    h.activeRow_eq, h.authoriser⟩

theorem not_closesOnly (hlaw : p.Lawful) (hnumbered : Numbered database)
    (h : OpenListed p database i a row shared) (hpos : 0 < i) (hbound : i < 2 ^ 63)
    (hne : a ≠ i) : ¬ ClosesOnly p database i := by
  intro honly
  obtain ⟨hkey, hpaid⟩ := getElement_closeBody (p.columnText (.int i))
  have hmanager : managerSessions.verify managerRequest AuthLevel.manager = true :=
    managerSessions_verify (le_refl _)
  have hemployee : managerSessions.verify managerRequest AuthLevel.employee = true :=
    managerSessions_verify (by decide)
  generalize managerSessions = sessions at hmanager hemployee
  generalize managerRequest = req at hmanager hemployee
  obtain ⟨new, id, serviceClosed, -, -, hresult⟩ := closeService_eq (p := p) hnumbered.closed today
    hmanager hkey (columnText_ne_nil hpos) hpaid
  rw [Platform.numeric_columnText hlaw hpos hbound] at hresult
  obtain ⟨hopen, hclosed, -⟩ := honly sessions req _ today hmanager hkey hpaid
    (p.columnText (.int i))
  rw [hresult] at hopen hclosed
  obtain ⟨after, hafter, -⟩ := listing_of_mem hemployee (hclosed.mpr (.inr rfl))
  refine (hopen.mp ?_).2 rfl
  rw [reported_eq hemployee hafter]
  exact mem_open_of_ne h hne (listing_of_serviceLists hafter).1

section Same

variable {new : ClosedService} {id : Int} {serviceClosed : Table ClosedService}
  {response after : ResponseWrapper}

/-- The records after the closing are those of rows that were open before. -/
theorem listing_closed (hnumbered : Numbered database) (h : OpenListed p database i i row shared)
    (hservice : new.service = .int i)
    (hinsert : database.serviceClosed.insert new = some (id, serviceClosed))
    (hlists : serviceLists p database allServices = some response) :
    ∃ after, serviceLists p (closedDatabase database (.int i) serviceClosed) allServices =
      some after := by
  obtain ⟨-, hrecords, -⟩ := listing_of_serviceLists hlists
  refine serviceLists_isSome ?_ ?_
  · intro found hmem
    obtain ⟨w, hoccurs, -, hactive, hauthoriser⟩ := mem_openRows_closed.mp hmem
    exact hrecords found (mem_openRows.mpr ⟨w, hoccurs, hactive, hauthoriser⟩)
  · rintro ⟨closed, found⟩ hmem
    obtain ⟨-, hactive⟩ := (mem_closedRows_closed hnumbered.closed hinsert).mp hmem
    rw [hservice, h.activeRow_eq] at hactive
    obtain rfl := Option.some.inj hactive
    rw [isSome_closedRecord]
    exact hrecords _ h.mem

theorem mem_open_closed (hnumbered : Numbered database)
    (h : OpenListed p database i i row shared) (hbefore : Listing p database response)
    (hafter : Listing p (closedDatabase database (.int i) serviceClosed) after) (t : Text) :
    t ∈ after.listed Key.openList ↔
      t ∈ response.listed Key.openList ∧ t ≠ p.columnText (.int i) := by
  rw [mem_listed_open hafter, mem_listed_open hbefore]
  constructor
  · rintro ⟨found, hmem, rfl⟩
    obtain ⟨w, hoccurs, hw, hactive, hauthoriser⟩ := mem_openRows_closed.mp hmem
    refine ⟨⟨found, mem_openRows.mpr ⟨w, hoccurs, hactive, hauthoriser⟩, rfl⟩, ?_⟩
    intro heq
    exact h.id_ne hnumbered hactive hw (ofInt_injective heq)
  · rintro ⟨⟨found, hmem, rfl⟩, hne⟩
    obtain ⟨w, hoccurs, hactive, hauthoriser⟩ := mem_openRows.mp hmem
    refine ⟨found, mem_openRows_closed.mpr ⟨w, hoccurs, ?_, hactive, hauthoriser⟩, rfl⟩
    rintro rfl
    rw [h.activeRow_eq] at hactive
    obtain rfl := Option.some.inj hactive
    exact hne (by rw [h.id_eq])

theorem mem_closed_closed (hnumbered : Numbered database)
    (h : OpenListed p database i i row shared) (hservice : new.service = .int i)
    (hinsert : database.serviceClosed.insert new = some (id, serviceClosed))
    (hbefore : Listing p database response)
    (hafter : Listing p (closedDatabase database (.int i) serviceClosed) after) (t : Text) :
    t ∈ after.listed Key.closedList ↔
      t ∈ response.listed Key.closedList ∨ t = p.columnText (.int i) := by
  rw [mem_listed_closed hafter, mem_listed_closed hbefore]
  constructor
  · rintro ⟨⟨closed, found⟩, hmem, rfl⟩
    obtain ⟨-, hactive⟩ := (mem_closedRows_closed hnumbered.closed hinsert).mp hmem
    rw [hservice, h.activeRow_eq] at hactive
    obtain rfl := Option.some.inj hactive
    exact .inr (by rw [h.id_eq])
  · rintro (⟨⟨closed, found⟩, hmem, -⟩ | rfl)
    · obtain ⟨other, hget, -⟩ := mem_closedRows.mp hmem
      simp [hnumbered.closed] at hget
    · refine ⟨(new, row, shared), ?_, by rw [h.id_eq]⟩
      refine (mem_closedRows_closed hnumbered.closed hinsert).mpr ⟨rfl, ?_⟩
      rw [hservice, h.activeRow_eq]

theorem closesOnly_of_eq (hlaw : p.Lawful) (hnumbered : Numbered database)
    (h : OpenListed p database i i row shared) (hi : 0 < i ∧ i < 2 ^ 63)
    (hlists : serviceLists p database allServices = some response) : ClosesOnly p database i := by
  intro sessions req b date hmanager hkey hpaid t
  have hemployee : sessions.verify req AuthLevel.employee = true := by
    obtain ⟨session, hcurrent⟩ := current_of_verify hmanager
    have hlevel := (verify_iff hcurrent).mp hmanager
    exact (verify_iff hcurrent).mpr (le_trans (by decide) hlevel)
  obtain ⟨new, id, serviceClosed, hservice, hinsert, hresult⟩ := closeService_eq (p := p)
    hnumbered.closed date hmanager hkey (columnText_ne_nil hi.1) hpaid
  rw [Platform.numeric_columnText hlaw hi.1 hi.2] at hservice hresult
  obtain ⟨after, hafter⟩ := listing_closed hnumbered h hservice hinsert hlists
  have hbeforeListing := (listing_of_serviceLists hlists).1
  have hafterListing := (listing_of_serviceLists hafter).1
  have hbeforeReported : ∀ list, reported p { database, sessions } req list =
      response.listed list := reported_eq hemployee hlists
  have hafterReported : ∀ list, reported p
      { database := closedDatabase database (.int i) serviceClosed, sessions } req list =
        after.listed list := reported_eq hemployee hafter
  simp only [hresult, hbeforeReported, hafterReported]
  refine ⟨mem_open_closed hnumbered h hbeforeListing hafterListing t,
    mem_closed_closed hnumbered h hservice hinsert hbeforeListing hafterListing t, ?_⟩
  rw [hafterListing.unauthorised, hbeforeListing.unauthorised]
  rfl

end Same

/-- In every state that requests and authorisations reach, for every service of
the open list. A form of `updateService` with the reported ID, whose values stay inside
their quotes, changes the service and no other one exactly when the row of active data has
the same ID or the form says nothing new; all such forms do exactly when it has. And
`closeService` closes the service, and it alone, exactly when it has. -/
theorem reported_id_names_iff (hlaw : p.Lawful) {start : Database} {sessions : Sessions}
    {actions : List ServiceAction} {server : Server}
    (hrun : RequestRun p start sessions actions server) {req : Request}
    (hemployee : server.sessions.verify req AuthLevel.employee = true)
    (hget : server.database.serviceActive.get a = some row) (hservice : row.service = .int i)
    (hopened : server.database.serviceOpen.Occurs OpenService.service (.int a))
    (hreported : p.columnText (.int i) ∈ reported p server req Key.openList) :
    (∀ b, FormFor p i b →
      (UpdatesOnly p server.database a b ↔ a = i ∨ SaysNothing p server.database i a b)) ∧
    ((∀ b, FormFor p i b → UpdatesOnly p server.database a b) ↔ a = i) ∧
    (ClosesOnly p server.database i ↔ a = i) := by
  have hnumbered := hrun.numbered
  obtain ⟨response, hlists, hmem⟩ := listing_of_mem hemployee hreported
  obtain ⟨hlisting, -⟩ := listing_of_serviceLists hlists
  obtain ⟨found, hrow, htext⟩ := (mem_listed_open hlisting).mp hmem
  obtain ⟨w, -, hactive, hauthoriser⟩ := mem_openRows.mp hrow
  obtain ⟨s, other, hs, hshared⟩ :=
    hnumbered.activeRefers row.service ⟨a, row, hget, rfl⟩
  obtain rfl : i = s := Value.int.inj (hservice.symm.trans hs)
  have hpos := hnumbered.positive i other hshared
  have hbound := server.database.serviceShared.get_lt hshared
  -- The record that is reported is the one of this row.
  obtain ⟨a', -, hget', hjoined⟩ := activeRow_eq_some_iff.mp hactive
  have hid : found.2.id = i := ofInt_injective htext
  have hsame : found.1.service = .int i := by
    rw [(service_of_sharedRow hjoined).1, hid]
  obtain rfl : a' = a :=
    hnumbered.one (.int i) a' a ⟨found.1, hget', hsame⟩ ⟨row, hget, hservice⟩
  obtain rfl : found.1 = row := Option.some.inj (hget'.symm.trans hget)
  have hlisted : OpenListed p server.database i a' found.1 found.2 :=
    ⟨hget, hopened, hservice, hjoined, hauthoriser⟩
  refine ⟨fun b hform => updatesOnly_iff hlaw hpos hbound hform,
    forall_updatesOnly_iff hlaw hpos hbound hget, ?_, ?_⟩
  · intro hcloses
    by_contra hne
    exact not_closesOnly hlaw hnumbered hlisted hpos hbound hne hcloses
  · rintro rfl
    exact closesOnly_of_eq hlaw hnumbered hlisted ⟨hpos, hbound⟩ hlists

end Names

/-! ## Services authorised out of order, and in order -/

/-- A manager with one vehicle. -/
def garageDatabase : Database where
  users := (Table.empty.insert
    { username := .text ("bob" : Text), password := .text ("pass" : Text)
      permissions := .int 2 }).elim .empty (·.2)
  vehicles := (Table.empty.insert
    { plate := .text ("AB12" : Text), base := .int 1, owner := .int 1, year := .int 1999
      colour := .text ("red" : Text) }).elim .empty (·.2)

def requestBrakes : ServiceAction :=
  .createRequest managerRequest
    (.ofList [(Field.vid, ("1" : Text)), (Field.request, ("brakes" : Text))]) today

def authorise (id : Text) : ServiceAction :=
  .authoriseRequest managerRequest (.ofList [(Field.id, id), (Field.quote, ("100" : Text))])

/-- The garage after some requests and authorisations. -/
def garageAfter (actions : List ServiceAction) : Server :=
  actions.foldl (serviceStep .integers)
    { database := garageDatabase.withServices {}, sessions := managerSessions }

theorem garageAfter_run {actions : List ServiceAction}
    (h : ∀ action ∈ actions, isRequestOrAuthorise action) :
    RequestRun .integers garageDatabase managerSessions actions (garageAfter actions) :=
  Run.of_forall h

/-- Two requests, and the second one is authorised first. -/
def outOfOrder : List ServiceAction :=
  [requestBrakes, requestBrakes, authorise ("2" : Text)]

theorem outOfOrder_allowed : ∀ action ∈ outOfOrder, isRequestOrAuthorise action := by
  simp [outOfOrder, requestBrakes, authorise, isRequestOrAuthorise]

/-- Service 2 is reported as open; its row of active data has the ID 1, and new notes for
service 2 do not reach it. -/
theorem reported_id_names_nothing :
    RequestRun .integers garageDatabase managerSessions outOfOrder (garageAfter outOfOrder) ∧
    ("2" : Text) ∈ reported .integers (garageAfter outOfOrder) managerRequest Key.openList ∧
    (garageAfter outOfOrder).database.serviceActive.Holds ActiveService.service 1 (.int 2) ∧
    FormFor .integers 2 (notesBody ("2" : Text) ("tyres" : Text)) ∧
    ¬ UpdatesOnly .integers (garageAfter outOfOrder).database 1
      (notesBody ("2" : Text) ("tyres" : Text)) := by
  have hget : (garageAfter outOfOrder).database.serviceActive.get 1 =
      some (newActive .integers (.ofList []) ("2" : Text) ("100" : Text) 1) := by decide +kernel
  have hform : FormFor .integers 2 (notesBody ("2" : Text) ("tyres" : Text)) :=
    formFor_notesBody (by decide +kernel) (by decide +kernel)
  refine ⟨garageAfter_run outOfOrder_allowed, by decide +kernel, ⟨_, hget, by decide +kernel⟩,
    hform, ?_⟩
  intro honly
  rcases (updatesOnly_iff Platform.integers_lawful (by decide) (by decide) hform).mp honly with
    heq | hnothing
  · exact absurd heq (by decide)
  · have hnotes := congrArg ActiveService.notes (hnothing 1 _ (.inl rfl) hget)
    revert hnotes
    decide +kernel

def inOrder : List ServiceAction :=
  [requestBrakes, authorise ("1" : Text)]

theorem reported_id_names_first :
    UpdatesOnly .integers (garageAfter inOrder).database 1
        (notesBody ("1" : Text) ("tyres" : Text)) ∧
      ClosesOnly .integers (garageAfter inOrder).database 1 := by
  have hallowed : ∀ action ∈ inOrder, isRequestOrAuthorise action := by
    simp [inOrder, requestBrakes, authorise, isRequestOrAuthorise]
  have hget : (garageAfter inOrder).database.serviceActive.get 1 =
      some (newActive .integers (.ofList []) ("1" : Text) ("100" : Text) 1) := by decide +kernel
  have hopen : (garageAfter inOrder).database.serviceOpen.get 1 =
      some { service := .int 1 } := by decide +kernel
  have hnames := reported_id_names_iff (i := 1) Platform.integers_lawful (garageAfter_run hallowed)
    (show (garageAfter inOrder).sessions.verify managerRequest AuthLevel.employee = true by
      decide +kernel)
    hget (by decide +kernel) ⟨1, _, hopen, rfl⟩ (by decide +kernel)
  exact ⟨(hnames.1 _ (formFor_notesBody (by decide +kernel) (by decide +kernel))).mpr (.inl rfl),
    hnames.2.2.mpr rfl⟩

end WFA
