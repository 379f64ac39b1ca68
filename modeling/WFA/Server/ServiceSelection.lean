-- SUMMARY: What `selectService` answers for a service that `searchServices` lists.
import WFA.Server.ClosedRecords
import WFA.Server.ServiceIds

/-!
# Selecting a listed service

The lists of `searchServices` and the answer of `selectService`, both read off the
tables: for a service that is listed, `selectService` finds it, and decides between
its stages by the number of the service where the tables have numbers of active data.
-/

namespace WFA

open Text

/-! ## The lists -/

section Lists

variable {p : Platform} {database : Database} {s : Int} {response : ResponseWrapper}

/-- The row of active data of a service. -/
def HasActive (database : Database) (s a : Int) (active : ActiveService) : Prop :=
  database.serviceActive.get a = some active ∧ active.service = .int s

/-- A row of `CLOSEDSERVICES` for the service. -/
def HasClosed (database : Database) (s c : Int) (closed : ClosedService) : Prop :=
  database.serviceClosed.get c = some closed ∧
    ∃ a active, closed.service = .int a ∧ HasActive database s a active

theorem activeRow_of_hasActive {a : Int} {active : ActiveService} {shared : SharedRow}
    (hactive : HasActive database s a active) (hshared : sharedRow database (.int s) = some shared) :
    activeRow database (.int a) = some (active, shared) :=
  activeRow_eq_some_iff.mpr ⟨a, rfl, hactive.1, hactive.2 ▸ hshared⟩

/-- The join of a row of active data is with the service it has. -/
theorem hasActive_of_activeRow {v : Value} {active : ActiveService} {shared : SharedRow}
    (h : activeRow database v = some (active, shared)) :
    ∃ a, v = .int a ∧ HasActive database shared.id a active ∧
      sharedRow database (.int shared.id) = some shared := by
  obtain ⟨a, hv, hget, hrow⟩ := activeRow_eq_some_iff.mp h
  have hservice := (service_of_sharedRow hrow).1
  exact ⟨a, hv, ⟨hget, hservice⟩, hservice ▸ hrow⟩

theorem mem_listed_unauthorised (h : Listing p database response) :
    p.columnText (.int s) ∈ response.listed Key.unauthorisedList ↔
      database.serviceUnauthorised.Occurs UnauthorisedService.service (.int s) ∧
        (sharedRow database (.int s)).isSome = true := by
  rw [h.unauthorised, List.mem_map]
  simp only [unauthorisedRows, List.mem_filter, List.mem_filterMap, listedFor_allServices, and_true]
  constructor
  · rintro ⟨row, ⟨⟨id, found⟩, hmem, hrow⟩, htext⟩
    obtain rfl := ofInt_injective htext
    have hservice := (service_of_sharedRow hrow).1
    refine ⟨⟨id, found, database.serviceUnauthorised.get_eq_some_iff.mpr hmem, hservice⟩, ?_⟩
    rw [← hservice, hrow]
    rfl
  · rintro ⟨⟨id, found, hget, hservice⟩, hsome⟩
    obtain ⟨row, hrow⟩ := Option.isSome_iff_exists.mp hsome
    refine ⟨row, ⟨(id, found), database.serviceUnauthorised.get_eq_some_iff.mp hget, ?_⟩, ?_⟩
    · rw [hservice, hrow]
    · rw [Value.int.inj (service_of_sharedRow hrow).1]

theorem mem_listed_open_iff (h : Listing p database response) :
    p.columnText (.int s) ∈ response.listed Key.openList ↔
      ∃ a active, HasActive database s a active ∧
        database.serviceOpen.Occurs OpenService.service (.int a) ∧
        (active.authoriser.row database.users).isSome = true ∧
        (sharedRow database (.int s)).isSome = true := by
  rw [mem_listed_open h]
  constructor
  · rintro ⟨⟨active, shared⟩, hrow, htext⟩
    obtain ⟨v, hoccurs, hactive, hauthoriser⟩ := mem_openRows.mp hrow
    obtain rfl := ofInt_injective htext
    obtain ⟨a, rfl, hhas, hshared⟩ := hasActive_of_activeRow hactive
    exact ⟨a, active, hhas, hoccurs, hauthoriser, by rw [hshared]; rfl⟩
  · rintro ⟨a, active, hhas, hoccurs, hauthoriser, hsome⟩
    obtain ⟨shared, hshared⟩ := Option.isSome_iff_exists.mp hsome
    refine ⟨(active, shared), mem_openRows.mpr ⟨.int a, hoccurs,
      activeRow_of_hasActive hhas hshared, hauthoriser⟩, ?_⟩
    rw [Value.int.inj (service_of_sharedRow hshared).1]

theorem mem_listed_closed_iff (h : Listing p database response) :
    p.columnText (.int s) ∈ response.listed Key.closedList ↔
      (∃ c closed, HasClosed database s c closed) ∧
        (sharedRow database (.int s)).isSome = true := by
  rw [mem_listed_closed h]
  constructor
  · rintro ⟨⟨closed, active, shared⟩, hrow, htext⟩
    obtain ⟨c, hget, hactive⟩ := mem_closedRows.mp hrow
    obtain rfl := ofInt_injective htext
    obtain ⟨a, hv, hhas, hshared⟩ := hasActive_of_activeRow hactive
    exact ⟨⟨c, closed, hget, a, active, hv, hhas⟩, by rw [hshared]; rfl⟩
  · rintro ⟨⟨c, closed, hget, a, active, hv, hhas⟩, hsome⟩
    obtain ⟨shared, hshared⟩ := Option.isSome_iff_exists.mp hsome
    refine ⟨(closed, active, shared), mem_closedRows.mpr ⟨c, hget, ?_⟩, ?_⟩
    · rw [hv]
      exact activeRow_of_hasActive hhas hshared
    · rw [Value.int.inj (service_of_sharedRow hshared).1]

end Lists

/-! ## The answer -/

section Answer

variable {p : Platform} {server : Server} {database : Database} {s : Int} {shared : SharedRow}

/-- The keys that `selectService` adds at its end. -/
def endKeys : List Text :=
  [Key.status, Key.completer, Key.completed, Key.paid, Key.warrantied]

/-- The fields of active data in the answer. -/
def activeFields (p : Platform) (row : SharedRow) (active : ActiveService) : List (Text × Text) :=
  selectedFields p row ++
    [(("labour" : Text), p.columnText active.labour), (("notes" : Text), p.columnText active.notes),
      (("authoriser" : Text), p.columnText active.authoriser),
      (("quote" : Text), p.columnText active.quote)]

/-- What is there before the end has none of its keys. -/
theorem search_addParts {w : ResponseWrapper} {fields : List (Text × Text)}
    {rows : List (Int × PartInService × Part)}
    {used : Int × PartInService × Part → List (Text × Text)}
    (h : addParts p (.ofFields fields) rows used = some w) {key : Text} (hkey : key ∈ endKeys)
    (hfields : key ∉ fields.map Prod.fst) : w.search key = none := by
  obtain ⟨total, -, rfl⟩ := Option.map_eq_some_iff.mp h
  have htotal : Key.total ≠ key := by
    rintro rfl
    revert hkey
    decide +kernel
  have hparts : Key.parts ≠ key := by
    rintro rfl
    revert hkey
    decide +kernel
  rw [ResponseWrapper.search_push_of_ne htotal, ResponseWrapper.search_addAll_of_ne hparts,
    ResponseWrapper.search_ofFields_none hfields]

theorem not_mem_activeFields {active : ActiveService} {key : Text} (hkey : key ∈ endKeys) :
    key ∉ (activeFields p shared active).map Prod.fst := by
  have hdisjoint : ∀ key ∈ endKeys, key ∉ [Key.service, ("vehicle" : Text), ("owner" : Text),
      ("request" : Text), ("requested" : Text), ("labour" : Text), ("notes" : Text),
      ("authoriser" : Text), ("quote" : Text)] := by decide +kernel
  exact hdisjoint key hkey

theorem not_mem_selectedFields {key : Text} (hkey : key ∈ endKeys) :
    key ∉ (selectedFields p shared).map Prod.fst := by
  have hdisjoint : ∀ key ∈ endKeys, key ∉ [Key.service, ("vehicle" : Text), ("owner" : Text),
      ("request" : Text), ("requested" : Text)] := by decide +kernel
  exact hdisjoint key hkey

/-- The record of a list can be made, so the parts can be added up. -/
theorem addParts_isSome {w w' : ResponseWrapper} {rows : List (Int × PartInService × Part)}
    {fields fields' : Int × PartInService × Part → List (Text × Text)}
    (h : (addParts p w rows fields).isSome = true) :
    ∃ record, addParts p w' rows fields' = some record := by
  unfold addParts at h ⊢
  rw [Option.isSome_map] at h
  obtain ⟨total, htotal⟩ := Option.isSome_iff_exists.mp h
  exact ⟨_, by rw [htotal]; rfl⟩

variable (hlaw : p.Lawful) (hpos : 0 < s) (hbound : s < 2 ^ 63) {req : Request}
  (hemployee : server.sessions.verify req AuthLevel.employee = true) {q : Query}
  (hq : q.getElement Field.id = some (p.columnText (.int s)))
  (hshared : sharedRow server.database (.int s) = some shared)

include hlaw hpos hbound hemployee hq hshared

/-- A service with a request is reported as unauthorised. -/
theorem selectService_unauthorised
    (hoccurs : server.database.serviceUnauthorised.Occurs UnauthorisedService.service (.int s)) :
    selectService p server req q = .reply .ok (some
      ((ResponseWrapper.ofFields (selectedFields p shared)).push Key.status
        (.strings [("unauthorised" : Text)]) false)) := by
  have hkey := Platform.numeric_columnText hlaw hpos hbound
  have hhas : q.hasElement Field.id = true :=
    QueryBase.hasElement_iff.mpr ⟨_, hq, columnText_ne_nil hpos⟩
  have hfound : (server.database.serviceUnauthorised.select fun _ row =>
      row.service == .int s).isEmpty = false := by
    rw [Bool.eq_false_iff, ne_eq, Table.isEmpty_select_column, not_not]
    exact hoccurs
  simp [selectService, selectFound, hhas, hasSession_of_verify hemployee, hemployee, hq, hkey,
    hshared, hfound]

/-- A service without one has its only row of active data in the answer. -/
theorem selectService_active (hnumbered : Numbered (unclosed server.database))
    (hnone : ¬ server.database.serviceUnauthorised.Occurs UnauthorisedService.service (.int s))
    {a : Int} {active : ActiveService} (hactive : HasActive server.database s a active)
    {w : ResponseWrapper}
    (hw : addParts p (.ofFields (activeFields p shared active))
      (partsOf p server.database (p.columnText (.int s)))
      (fun part => usedFields p part ++ [priceField p part]) = some w) :
    (server.database.serviceOpen.Occurs OpenService.service (.int s) ∧
      selectService p server req q = .reply .ok (some
        (w.push Key.status (.strings [("authorised" : Text)]) false))) ∨
    ¬ server.database.serviceOpen.Occurs OpenService.service (.int s) ∧
      selectService p server req q =
        selectClosed p server.database (p.columnText (.int s)) w := by
  have hkey := Platform.numeric_columnText hlaw hpos hbound
  have hhas : q.hasElement Field.id = true :=
    QueryBase.hasElement_iff.mpr ⟨_, hq, columnText_ne_nil hpos⟩
  have hunauthorised : (server.database.serviceUnauthorised.select fun _ row =>
      row.service == .int s).isEmpty = true :=
    Table.isEmpty_select_column.mpr hnone
  have hselect : (server.database.serviceActive.select fun _ row => row.service == .int s) =
      [(a, active)] := by
    refine Table.select_eq_singleton _ hactive.1 (by simp [hactive.2]) ?_
    intro a' active' hget hservice
    exact hnumbered.one (.int s) a' a ⟨active', hget, by simpa using hservice⟩
      ⟨active, hactive.1, hactive.2⟩
  have hbefore : selectService p server req q =
      selectActive p server.database (p.columnText (.int s)) (selectedFields p shared) := by
    simp [selectService, selectFound, hhas, hasSession_of_verify hemployee, hemployee, hq, hkey,
      hshared, hunauthorised]
  unfold activeFields at hw
  unfold selectActive selectOpen at hbefore
  simp only [hkey, hselect, hw] at hbefore
  by_cases hopen : server.database.serviceOpen.Occurs OpenService.service (.int s)
  · refine .inl ⟨hopen, ?_⟩
    rw [hbefore, if_neg]
    rw [Table.isEmpty_select_column, not_not]
    exact hopen
  · refine .inr ⟨hopen, ?_⟩
    rw [hbefore, if_pos (Table.isEmpty_select_column.mpr hopen)]

end Answer

end WFA
