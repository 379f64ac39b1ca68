-- SUMMARY: What the lists of `searchServices` contain, read off the tables.
import WFA.Server.Records
import WFA.Server.ServiceViews
import WFA.Server.ServiceEffects
import WFA.Server.UserEffects

/-!
# The lists of `searchServices`

An employee who asks for all three lists gets one record for every joined row, or
an error when a price or a quantity in one of them is no number. `reported` is
what the answer says: the IDs in the field `service` of each record of a list.
-/

namespace WFA

open Text

/-! ## Records -/

namespace ResponseWrapper

/-- The ID of a record of a list. -/
def serviceField (w : ResponseWrapper) : Option Text :=
  match w.search Key.service with
  | some (.strings [t]) => some t
  | _ => none

/-- The IDs of the records of a list. -/
def listed (w : ResponseWrapper) (list : Text) : List Text :=
  match w.search list with
  | some (.objects records) => records.filterMap serviceField
  | _ => []

theorem listed_addAll_self {w : ResponseWrapper} {list : Text} {records : List ResponseWrapper}
    (h : w.search list = none) :
    (w.addAll list records).listed list = records.filterMap serviceField := by
  unfold addAll
  split
  · rename_i hnil
    simp [listed, h, List.isEmpty_iff.mp hnil]
  · simp [listed, search_push_self h]

theorem listed_addAll_of_ne {w : ResponseWrapper} {list other : Text}
    {records : List ResponseWrapper} (h : list ≠ other) :
    (w.addAll list records).listed other = w.listed other := by
  simp [listed, search_addAll_of_ne h]

end ResponseWrapper

section Reports

variable {p : Platform} {database : Database}

theorem serviceField_addParts {w record : ResponseWrapper} {t : Text}
    {rows : List (Int × PartInService × Part)}
    {fields : Int × PartInService × Part → List (Text × Text)}
    (hw : w.search Key.service = some (.strings [t])) (h : addParts p w rows fields = some record) :
    record.serviceField = some t := by
  obtain ⟨prices, -, rfl⟩ := Option.map_eq_some_iff.mp h
  have hsearch : ((w.addAll Key.parts (rows.map fun row => .ofFields (fields row))).push Key.total
      (.strings [p.doubleText (prices.foldl p.addDoubles 0)]) false).search Key.service =
        some (.strings [t]) :=
    ResponseWrapper.search_push_of_some (ResponseWrapper.search_addAll_of_some hw)
  unfold ResponseWrapper.serviceField
  rw [hsearch]

theorem serviceField_unauthorised (row : SharedRow) :
    (unauthorisedRecord p row).serviceField = some (p.columnText (.int row.id)) := by
  unfold ResponseWrapper.serviceField unauthorisedRecord sharedFields
  rw [ResponseWrapper.search_ofFields]

theorem serviceField_open {row : ActiveService × SharedRow} {record : ResponseWrapper}
    (h : openRecord p database row = some record) :
    record.serviceField = some (p.columnText (.int row.2.id)) :=
  serviceField_addParts (ResponseWrapper.search_ofFields Key.service _ _) h

theorem serviceField_closed {row : ClosedService × ActiveService × SharedRow}
    {record : ResponseWrapper} (h : closedRecord p database row = some record) :
    record.serviceField = some (p.columnText (.int row.2.2.id)) :=
  serviceField_addParts (ResponseWrapper.search_ofFields Key.service _ _) h

/-! ## All services -/

/-- The query for all three lists. -/
def allServices : Query :=
  .ofList [(Field.unauthorisedServices, []), (Field.openServices, []), (Field.closedServices, [])]

theorem listedFor_allServices (owner : Int) : listedFor p allServices owner = true := by
  have hnone : allServices.hasElement Field.uid = false := by decide +kernel
  simp [listedFor, hnone]

theorem serviceLists_allServices : serviceLists p database allServices =
    ((openRows p database allServices).mapM (openRecord p database)).bind fun opened =>
      ((closedRows p database allServices).mapM (closedRecord p database)).map fun closed =>
        ((ResponseWrapper.empty.addAll Key.unauthorisedList
          ((unauthorisedRows p database allServices).map (unauthorisedRecord p))).addAll
            Key.openList opened).addAll Key.closedList closed := by
  have hunauthorised : allServices.hasElementOrEmpty Field.unauthorisedServices = true := by
    decide +kernel
  have hopen : allServices.hasElementOrEmpty Field.openServices = true := by decide +kernel
  have hclosed : allServices.hasElementOrEmpty Field.closedServices = true := by decide +kernel
  unfold serviceLists
  rw [hunauthorised, hopen, hclosed]
  cases (openRows p database allServices).mapM (openRecord p database) <;> rfl

/-- What `searchServices` reports in a list, to a session that may ask for it. -/
def reported (p : Platform) (server : Server) (req : Request) (list : Text) : List Text :=
  match searchServices p server req allServices with
  | .reply .ok (some response) => response.listed list
  | _ => []

theorem searchServices_allServices {server : Server} {req : Request}
    (hemployee : server.sessions.verify req AuthLevel.employee = true) :
    searchServices p server req allServices =
      match serviceLists p server.database allServices with
      | none => .reply .internalError none
      | some response => .reply .ok (some response) := by
  have hany : allServices.containsAnyOrEmpty [Field.unauthorisedServices, Field.openServices,
      Field.closedServices] = true := by decide +kernel
  have hsession := hasSession_of_verify hemployee
  cases hlists : serviceLists p server.database allServices with
  | none => simp [searchServices, hany, refusedUser, hemployee, hsession, hlists]
  | some response => simp [searchServices, hany, refusedUser, hemployee, hsession, hlists]

/-- The three lists, when every record of them can be made. -/
structure Listing (p : Platform) (database : Database) (response : ResponseWrapper) : Prop where
  unauthorised : response.listed Key.unauthorisedList =
    (unauthorisedRows p database allServices).map fun row => p.columnText (.int row.id)
  opened : response.listed Key.openList =
    (openRows p database allServices).map fun row => p.columnText (.int row.2.id)
  closed : response.listed Key.closedList =
    (closedRows p database allServices).map fun row => p.columnText (.int row.2.2.id)

theorem listing_of_serviceLists {response : ResponseWrapper}
    (h : serviceLists p database allServices = some response) :
    Listing p database response ∧
      (∀ row ∈ openRows p database allServices, (openRecord p database row).isSome) ∧
      (∀ row ∈ closedRows p database allServices, (closedRecord p database row).isSome) := by
  rw [serviceLists_allServices] at h
  obtain ⟨opened, hopened, h⟩ := Option.bind_eq_some_iff.mp h
  obtain ⟨closed, hclosed, rfl⟩ := Option.map_eq_some_iff.mp h
  have hunauthorisedOpen : Key.unauthorisedList ≠ Key.openList := by decide +kernel
  have hunauthorisedClosed : Key.unauthorisedList ≠ Key.closedList := by decide +kernel
  have hopenClosed : Key.openList ≠ Key.closedList := by decide +kernel
  refine ⟨⟨?_, ?_, ?_⟩, fun row hrow => isSome_of_mapM hopened hrow,
    fun row hrow => isSome_of_mapM hclosed hrow⟩
  · rw [ResponseWrapper.listed_addAll_of_ne hunauthorisedClosed.symm,
      ResponseWrapper.listed_addAll_of_ne hunauthorisedOpen.symm,
      ResponseWrapper.listed_addAll_self rfl, List.filterMap_map]
    rw [← List.filterMap_eq_map]
    exact List.filterMap_congr fun row _ => serviceField_unauthorised row
  · rw [ResponseWrapper.listed_addAll_of_ne hopenClosed.symm, ResponseWrapper.listed_addAll_self]
    · exact filterMap_of_mapM (fun _ _ hrecord => serviceField_open hrecord) hopened
    · rw [ResponseWrapper.search_addAll_of_ne hunauthorisedOpen]
      rfl
  · rw [ResponseWrapper.listed_addAll_self]
    · exact filterMap_of_mapM (fun _ _ hrecord => serviceField_closed hrecord) hclosed
    · rw [ResponseWrapper.search_addAll_of_ne hopenClosed,
        ResponseWrapper.search_addAll_of_ne hunauthorisedClosed]
      rfl

/-- Every record can be made, so there is an answer. -/
theorem serviceLists_isSome
    (hopen : ∀ row ∈ openRows p database allServices, (openRecord p database row).isSome)
    (hclosed : ∀ row ∈ closedRows p database allServices, (closedRecord p database row).isSome) :
    ∃ response, serviceLists p database allServices = some response := by
  obtain ⟨opened, hopened⟩ := mapM_isSome hopen
  obtain ⟨closed, hclosed⟩ := mapM_isSome hclosed
  exact ⟨_, by rw [serviceLists_allServices, hopened, hclosed]; rfl⟩

/-- Whoever is reported in a list is a row of it, and every other row of the lists
has a record. -/
theorem listing_of_mem {server : Server} {req : Request} {t list : Text}
    (hemployee : server.sessions.verify req AuthLevel.employee = true)
    (h : t ∈ reported p server req list) :
    ∃ response, serviceLists p server.database allServices = some response ∧
      t ∈ response.listed list := by
  unfold reported at h
  rw [searchServices_allServices hemployee] at h
  cases hlists : serviceLists p server.database allServices with
  | none => simp [hlists] at h
  | some response => exact ⟨response, rfl, by simpa [hlists] using h⟩

theorem reported_eq {server : Server} {req : Request} {response : ResponseWrapper}
    (hemployee : server.sessions.verify req AuthLevel.employee = true)
    (h : serviceLists p server.database allServices = some response) (list : Text) :
    reported p server req list = response.listed list := by
  unfold reported
  rw [searchServices_allServices hemployee, h]

end Reports

/-! ## Joins -/

section Joins

variable {p : Platform} {database : Database}

theorem service_of_sharedRow {v : Value} {row : SharedRow} (h : sharedRow database v = some row) :
    v = .int row.id ∧ database.serviceShared.get row.id = some row.shared := by
  obtain ⟨⟨id, shared⟩, hshared, h⟩ := Option.bind_eq_some_iff.mp h
  obtain ⟨vehicle, -, h⟩ := Option.bind_eq_some_iff.mp h
  obtain ⟨owner, -, rfl⟩ := Option.map_eq_some_iff.mp h
  exact row_eq_some_iff.mp hshared

theorem activeRow_eq_some_iff {v : Value} {active : ActiveService} {shared : SharedRow} :
    activeRow database v = some (active, shared) ↔
      ∃ a, v = .int a ∧ database.serviceActive.get a = some active ∧
        sharedRow database active.service = some shared := by
  simp only [activeRow, Option.bind_eq_some_iff, Option.map_eq_some_iff, Prod.mk.injEq]
  constructor
  · rintro ⟨⟨a, row⟩, hrow, found, hshared, rfl, rfl⟩
    obtain ⟨hv, hget⟩ := row_eq_some_iff.mp hrow
    exact ⟨a, hv, hget, hshared⟩
  · rintro ⟨a, hv, hget, hshared⟩
    exact ⟨(a, active), row_eq_some_iff.mpr ⟨hv, hget⟩, shared, hshared, rfl, rfl⟩

/-- Both orders have the open services that have active data. -/
theorem mem_openIds {q : Query} {v : Value} {row : ActiveService × SharedRow}
    (h : activeRow database v = some row) :
    v ∈ openIds database q ↔ database.serviceOpen.Occurs OpenService.service v := by
  have hoccurs : (∃ found ∈ database.serviceOpen.rows, found.2.service = v) ↔
      database.serviceOpen.Occurs OpenService.service v := by
    constructor
    · rintro ⟨⟨id, found⟩, hmem, rfl⟩
      exact ⟨id, found, database.serviceOpen.get_eq_some_iff.mpr hmem, rfl⟩
    · rintro ⟨id, found, hget, rfl⟩
      exact ⟨(id, found), database.serviceOpen.get_eq_some_iff.mp hget, rfl⟩
  unfold openIds
  split
  · obtain ⟨a, rfl, hactive, -⟩ := activeRow_eq_some_iff.mp h
    simp only [List.mem_flatMap, List.mem_map]
    constructor
    · rintro ⟨active, -, ⟨id, found⟩, hmem, hv⟩
      exact ⟨id, found, ((Table.mem_select _).mp hmem).1, hv⟩
    · rintro ⟨id, found, hget, hv⟩
      exact ⟨(a, row.1), database.serviceActive.get_eq_some_iff.mp hactive, (id, found),
        (Table.mem_select _).mpr ⟨hget, by simp [hv]⟩, hv⟩
  · rw [List.mem_map]
    exact hoccurs

theorem mem_openRows_query {q : Query} {row : ActiveService × SharedRow} :
    row ∈ openRows p database q ↔ listedFor p q row.2.owner = true ∧
      ∃ v, database.serviceOpen.Occurs OpenService.service v ∧ activeRow database v = some row ∧
        (row.1.authoriser.row database.users).isSome = true := by
  simp only [openRows, List.mem_filter, List.mem_filterMap, Option.filter_eq_some_iff]
  constructor
  · rintro ⟨⟨v, hmem, hactive, hauthoriser⟩, hlisted⟩
    exact ⟨hlisted, v, (mem_openIds hactive).mp hmem, hactive, hauthoriser⟩
  · rintro ⟨hlisted, v, hoccurs, hactive, hauthoriser⟩
    exact ⟨⟨v, (mem_openIds hactive).mpr hoccurs, hactive, hauthoriser⟩, hlisted⟩

theorem mem_openRows {row : ActiveService × SharedRow} :
    row ∈ openRows p database allServices ↔
      ∃ v, database.serviceOpen.Occurs OpenService.service v ∧ activeRow database v = some row ∧
        (row.1.authoriser.row database.users).isSome = true := by
  rw [mem_openRows_query, listedFor_allServices]
  simp

theorem mem_closedRows_query {q : Query} {closed : ClosedService}
    {row : ActiveService × SharedRow} :
    (closed, row) ∈ closedRows p database q ↔ listedFor p q row.2.owner = true ∧
      ∃ id, database.serviceClosed.get id = some closed ∧
        activeRow database closed.service = some row := by
  simp only [closedRows, List.mem_filter, List.mem_filterMap, Option.map_eq_some_iff,
    Prod.mk.injEq]
  constructor
  · rintro ⟨⟨⟨id, found⟩, hmem, active, hactive, rfl, rfl⟩, hlisted⟩
    exact ⟨hlisted, id, database.serviceClosed.get_eq_some_iff.mpr hmem, hactive⟩
  · rintro ⟨hlisted, id, hget, hactive⟩
    exact ⟨⟨(id, closed), database.serviceClosed.get_eq_some_iff.mp hget, row, hactive, rfl, rfl⟩,
      hlisted⟩

theorem mem_closedRows {closed : ClosedService} {row : ActiveService × SharedRow} :
    (closed, row) ∈ closedRows p database allServices ↔
      ∃ id, database.serviceClosed.get id = some closed ∧
        activeRow database closed.service = some row := by
  rw [mem_closedRows_query, listedFor_allServices]
  simp

end Joins

end WFA
