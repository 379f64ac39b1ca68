-- SUMMARY: The rows that the record of a closed service is made of.
import WFA.Server.ServiceReports

/-!
# Records of closed services

`searchServices` joins a closed service with its active data, with the parts that
were used in it and with the parts as they are sold now. Nothing is copied when a
service is closed, so a request that changes one of these rows changes the record.
-/

namespace WFA

open Text

/-! ## What a record shows -/

/-- What is shown of a part that was used. -/
def shownPart (row : Int × PartInService × Part) : PartInService × Value × Value :=
  (row.2.1, row.2.2.name, row.2.2.price)

section Shown

variable (p : Platform)

/-- The service in a row of `PARTSINSERVICE`. -/
def usedService (s : Int) : Value :=
  p.numeric (p.columnText (.int s))

def shownParts (database : Database) (s : Int) : List (PartInService × Value × Value) :=
  (partsOf p database (p.columnText (.int s))).map shownPart

/-- The active data with a row ID, when it is of the service. -/
def activeFor (database : Database) (s : Int) (v : Value) : Option (ActiveService × SharedRow) :=
  (activeRow database v).filter fun row => row.2.id == s

/-- The rows of a closed service. -/
def closedOf (database : Database) (s : Int) : List (ClosedService × ActiveService × SharedRow) :=
  database.serviceClosed.rows.filterMap fun row =>
    (activeFor database s row.2.service).map fun active => (row.2, active)

/-- Two databases show the same of a closed service. -/
structure ShowsSame (s : Int) (database database' : Database) : Prop where
  rows : closedOf database' s = closedOf database s
  parts : shownParts p database' s = shownParts p database s

/-- The records of a service in the closed list of an answer. -/
def closedFor (s : Int) (response : ResponseWrapper) : List ResponseWrapper :=
  (response.recordsAt Key.closedList).filter fun record =>
    record.serviceField == some (p.columnText (.int s))

end Shown

section Records

variable {p : Platform} {s : Int} {database database' database'' : Database} {q : Query}

theorem ShowsSame.refl : ShowsSame p s database database := ⟨rfl, rfl⟩

theorem ShowsSame.trans (h : ShowsSame p s database database')
    (h' : ShowsSame p s database' database'') : ShowsSame p s database database'' :=
  ⟨h'.rows.trans h.rows, h'.parts.trans h.parts⟩

/-- A record is made of the joined row and of what is shown of the parts. -/
theorem closedRecord_congr {row : ClosedService × ActiveService × SharedRow} (hid : row.2.2.id = s)
    (h : shownParts p database' s = shownParts p database s) :
    closedRecord p database' row = closedRecord p database row := by
  unfold shownParts at h
  unfold closedRecord addParts
  rw [hid]
  generalize partsOf p database' (p.columnText (.int s)) = parts' at h ⊢
  generalize partsOf p database (p.columnText (.int s)) = parts at h ⊢
  have hprices : ∀ rows : List (Int × PartInService × Part),
      rows.mapM (rowPrice p) = (rows.map shownPart).mapM fun shown =>
        getPartPrice p (p.columnText shown.2.2) (p.columnText shown.1.quantity) := by
    intro rows
    rw [List.mapM_map]
    rfl
  have hfields : ∀ rows : List (Int × PartInService × Part),
      (rows.map fun row => ResponseWrapper.ofFields (usedFields p row ++ [priceField p row])) =
        (rows.map shownPart).map fun shown => .ofFields
          [(("name" : Text), p.columnText shown.2.1), (("ID" : Text), p.columnText shown.1.part),
            (("quantity" : Text), p.columnText shown.1.quantity),
            (("price" : Text), p.columnText shown.2.2)] := by
    intro rows
    simp [shownPart, usedFields, priceField]
  rw [hprices parts', hprices parts, hfields parts', hfields parts, h]

/-- The rows of the closed list that are the service's. -/
theorem filter_closedRows : ((closedRows p database q).filter fun row => row.2.2.id == s) =
    (closedOf database s).filter fun row => listedFor p q row.2.2.owner := by
  unfold closedRows closedOf activeFor
  rw [List.filter_filter, List.filter_filterMap, List.filter_filterMap]
  refine List.filterMap_congr fun row _ => ?_
  cases activeRow database row.2.service with
  | none => rfl
  | some active =>
    cases hid : active.2.id == s <;> simp [Option.filter, hid]

/-- What the answer has in its closed list. -/
theorem recordsAt_serviceLists {response : ResponseWrapper}
    (h : serviceLists p database q = some response) :
    if q.hasElementOrEmpty Field.closedServices then
      (closedRows p database q).mapM (closedRecord p database) =
        some (response.recordsAt Key.closedList)
    else response.recordsAt Key.closedList = [] := by
  have hunauthorisedClosed : Key.unauthorisedList ≠ Key.closedList := by decide +kernel
  have hopenClosed : Key.openList ≠ Key.closedList := by decide +kernel
  -- The lists before it have other keys.
  have hfirst : (if q.hasElementOrEmpty Field.unauthorisedServices then
      ResponseWrapper.empty.addAll Key.unauthorisedList
        ((unauthorisedRows p database q).map (unauthorisedRecord p))
      else ResponseWrapper.empty).search Key.closedList = none := by
    split
    · rw [ResponseWrapper.search_addAll_of_ne hunauthorisedClosed]
      rfl
    · rfl
  obtain ⟨before, hnone, h⟩ : ∃ before : ResponseWrapper,
      before.search Key.closedList = none ∧
        (if q.hasElementOrEmpty Field.closedServices then
          ((closedRows p database q).mapM (closedRecord p database)).map
            (before.addAll Key.closedList)
        else some before) = some response := by
    unfold serviceLists at h
    simp only at h
    split at h
    · obtain ⟨before, hbefore, h⟩ := Option.bind_eq_some_iff.mp h
      obtain ⟨opened, -, rfl⟩ := Option.map_eq_some_iff.mp hbefore
      exact ⟨_, (ResponseWrapper.search_addAll_of_ne hopenClosed).trans hfirst, h⟩
    · obtain ⟨before, hbefore, h⟩ := Option.bind_eq_some_iff.mp h
      exact ⟨_, Option.some.inj hbefore ▸ hfirst, h⟩
  split at h
  · rename_i hclosed
    obtain ⟨closed, hrecords, rfl⟩ := Option.map_eq_some_iff.mp h
    rw [if_pos hclosed, ResponseWrapper.recordsAt_addAll_self hnone]
    exact hrecords
  · rename_i hclosed
    rw [if_neg hclosed, ← Option.some.inj h, ResponseWrapper.recordsAt, hnone]

/-- The records of the service are those of its rows. -/
theorem closedFor_eq {records : List ResponseWrapper}
    (h : (closedRows p database q).mapM (closedRecord p database) = some records) :
    (records.filter fun record => record.serviceField == some (p.columnText (.int s))).map some =
      ((closedOf database s).filter fun row => listedFor p q row.2.2.owner).map
        (closedRecord p database) := by
  rw [← filter_closedRows]
  refine filter_of_mapM ?_ h
  intro row record hrecord
  rw [serviceField_closed hrecord, Bool.eq_iff_iff]
  simp only [Platform.columnText, beq_iff_eq, Option.some.injEq]
  exact ⟨ofInt_injective, fun hid => by rw [hid]⟩

/-- A refusal is no answer. -/
theorem refusedUser_ne_ok {server : Server} {req : Request} {response : ResponseWrapper} :
    refusedUser server req q ≠ some (.reply .ok (some response)) := by
  unfold refusedUser
  split
  · simp
  · split
    · simp
    · split
      · simp
      · split <;> simp

/-- There is an answer when the checks are passed and the lists can be made. -/
theorem searchServices_ok_iff {server : Server} {req : Request} {response : ResponseWrapper} :
    searchServices p server req q = .reply .ok (some response) ↔
      q.containsAnyOrEmpty [Field.unauthorisedServices, Field.openServices,
        Field.closedServices] = true ∧
      refusedUser server req q = none ∧ hasSession req = true ∧
      serviceLists p server.database q = some response := by
  unfold searchServices
  split
  · rename_i hasked
    simp_all
  · rename_i hasked
    split
    · rename_i ending hrefused
      have hending : ending ≠ .reply .ok (some response) := by
        rintro rfl
        exact refusedUser_ne_ok hrefused
      simp [hending, hrefused]
    · rename_i hallowed
      cases hsession : hasSession req with
      | false => simp
      | true =>
        cases hlists : serviceLists p server.database q <;> simp_all

/-- Databases that show the same of a closed service have the same records of it in
every answer. -/
theorem ShowsSame.closedFor_eq {server server' : Server} {req : Request}
    {response response' : ResponseWrapper}
    (h : ShowsSame p s server.database server'.database)
    (hbefore : searchServices p server req q = .reply .ok (some response))
    (hafter : searchServices p server' req q = .reply .ok (some response')) :
    closedFor p s response' = closedFor p s response := by
  have hrecords := recordsAt_serviceLists (searchServices_ok_iff.mp hbefore).2.2.2
  have hrecords' := recordsAt_serviceLists (searchServices_ok_iff.mp hafter).2.2.2
  unfold closedFor
  split at hrecords
  · rename_i hclosed
    rw [if_pos hclosed] at hrecords'
    refine List.map_injective_iff.mpr (Option.some_injective _) ?_
    rw [WFA.closedFor_eq hrecords, WFA.closedFor_eq hrecords', h.rows]
    refine List.map_congr_left fun row hrow => closedRecord_congr ?_ h.parts
    obtain ⟨found, -, hfound⟩ := List.mem_filterMap.mp (List.mem_filter.mp hrow).1
    obtain ⟨active, hactive, rfl⟩ := Option.map_eq_some_iff.mp hfound
    simpa using (Option.filter_eq_some_iff.mp hactive).2
  · rename_i hclosed
    rw [if_neg hclosed] at hrecords'
    rw [hrecords, hrecords']

/-! ## Which rows a record is made of -/

theorem activeFor_eq_some_iff {v : Value} {active : ActiveService} {shared : SharedRow} :
    activeFor database s v = some (active, shared) ↔
      ∃ a, v = .int a ∧ database.serviceActive.get a = some active ∧
        sharedRow database active.service = some shared ∧ shared.id = s := by
  rw [activeFor, Option.filter_eq_some_iff, activeRow_eq_some_iff]
  simp only [beq_iff_eq]
  constructor
  · rintro ⟨⟨a, hv, hget, hshared⟩, hid⟩
    exact ⟨a, hv, hget, hshared, hid⟩
  · rintro ⟨a, hv, hget, hshared, hid⟩
    exact ⟨⟨a, hv, hget, hshared⟩, hid⟩

/-- Neither the closed services nor the services themselves change, and no active
data of the service that a closed one refers to. -/
theorem closedOf_congr (hclosed : database'.serviceClosed = database.serviceClosed)
    (hshared : ∀ v, sharedRow database' v = sharedRow database v)
    (hactive : ∀ a active, active.service = .int s →
      database.serviceClosed.Occurs ClosedService.service (.int a) →
      (database'.serviceActive.get a = some active ↔ database.serviceActive.get a = some active)) :
    closedOf database' s = closedOf database s := by
  unfold closedOf
  rw [hclosed]
  refine List.filterMap_congr ?_
  rintro ⟨id, closed⟩ hmem
  have hsame : activeFor database' s closed.service = activeFor database s closed.service := by
    refine Option.ext ?_
    rintro ⟨active, shared⟩
    rw [activeFor_eq_some_iff, activeFor_eq_some_iff]
    refine exists_congr fun a => and_congr_right fun hv => ?_
    have hoccurs : database.serviceClosed.Occurs ClosedService.service (.int a) :=
      ⟨id, closed, database.serviceClosed.get_eq_some_iff.mpr hmem, hv⟩
    rw [hshared]
    constructor
    · rintro ⟨hget, hrow, hid⟩
      have hservice := (service_of_sharedRow hrow).1
      rw [hid] at hservice
      exact ⟨(hactive a active hservice hoccurs).mp hget, hrow, hid⟩
    · rintro ⟨hget, hrow, hid⟩
      have hservice := (service_of_sharedRow hrow).1
      rw [hid] at hservice
      exact ⟨(hactive a active hservice hoccurs).mpr hget, hrow, hid⟩
  simp only [hsame]

/-- The rows of the service in `PARTSINSERVICE` do not change, nor the name and the
price of a part they refer to. -/
theorem shownParts_congr
    (hrows : ∀ id row, row.service = usedService p s →
      (database'.partsInService.get id = some row ↔ database.partsInService.get id = some row))
    (hparts : ∀ id row, database.partsInService.get id = some row →
      row.service = usedService p s →
      ((row.part.row database'.parts).map fun part => (part.2.name, part.2.price)) =
        (row.part.row database.parts).map fun part => (part.2.name, part.2.price)) :
    shownParts p database' s = shownParts p database s := by
  have hselect : (database'.partsInService.select fun _ row => row.service == usedService p s) =
      database.partsInService.select fun _ row => row.service == usedService p s :=
    Table.select_congr fun id row hrow => hrows id row (beq_iff_eq.mp hrow)
  unfold usedService at hselect
  unfold shownParts partsOf
  rw [hselect, List.map_filterMap, List.map_filterMap]
  refine List.filterMap_congr ?_
  rintro ⟨id, row⟩ hmem
  obtain ⟨hget, hservice⟩ := Table.mem_select _ |>.mp hmem
  have hpart := hparts id row hget (beq_iff_eq.mp hservice)
  have hshown : ∀ found : Option (Int × Part),
      Option.map shownPart (found.map fun part => (id, row, part.2)) =
        (found.map fun part => (part.2.name, part.2.price)).map fun shown => (row, shown) := by
    intro found
    cases found <;> rfl
  rw [hshown, hshown, hpart]

end Records

end WFA
