-- SUMMARY: `searchServices` and `selectService` agree about a service exactly when the numbers they confuse happen to be equal.
import WFA.Server.Quantities
import WFA.Server.ServiceSelection

/-!
# The two views of a service

`searchServices` follows the joins of the tables. `selectService` looks the number
of a service up where the tables have numbers of active data, takes the first row of
a join whose condition is a sum, reports the number of that row as the completer, and
leaves out of the warrantied parts the closing with the number of the service.
-/

namespace WFA

open Text

/-! ## Runs -/

/-- Requests, authorisations and closings; what else happens leaves the service
tables alone, as adding parts does. -/
def isViewed : ServiceAction → Prop
  | .updateService _ _ => False
  | _ => True

/-- A run from empty service tables, with any other tables and any sessions. -/
def ViewRun (p : Platform) (database : Database) (sessions : Sessions) :
    List ServiceAction → Server → Prop :=
  Run (serviceStep p) (fun _ action => isViewed action)
    { database := database.withServices {}, sessions }

section Runs

variable {p : Platform} {server : Server}

/-- Adding parts is one of the other things that happen. -/
theorem addPartToService_step (req : Request) (b : Body) :
    serviceStep p server (.other (addPartToService p server req b).1) =
      (addPartToService p server req b).1 := by
  obtain ⟨hunchanged, -⟩ | ⟨-, ⟨-, id, partsInService, -, hafter⟩ | ⟨id, row, rest, -, hafter⟩⟩ :=
    addPartToService_cases p server req b
  · rw [hunchanged]
    rfl
  · rw [hafter]
    rfl
  · rw [hafter]
    rfl

theorem Numbered.viewed_step (h : Numbered (unclosed server.database)) {action : ServiceAction}
    (hallowed : isViewed action) : Numbered (unclosed (serviceStep p server action).database) := by
  cases action with
  | createRequest req b date => exact h.unclosed_step trivial
  | authoriseRequest req b => exact h.unclosed_step trivial
  | other after => exact h.unclosed_step trivial
  | updateService req b => exact absurd hallowed id
  | closeService req b date =>
    simp only [serviceStep]
    obtain ⟨hsame, -⟩ | ⟨key, paid, user, -, id, serviceClosed, -, hresult⟩ :=
      closeService_cases (p := p) server req b date
    · rw [hsame]
      exact h
    · rw [hresult]
      exact { positive := h.positive, requestRefers := h.requestRefers
              activeRefers := h.activeRefers, disjoint := h.disjoint, one := h.one
              closed := rfl }

theorem ViewRun.numbered {database : Database} {sessions : Sessions} {actions : List ServiceAction}
    (h : ViewRun p database sessions actions server) : Numbered (unclosed server.database) := by
  refine Run.invariant (P := fun server => Numbered (unclosed server.database)) ?_
    (fun _ _ hnumbered hallowed => hnumbered.viewed_step hallowed) h
  exact numbered_empty database

end Runs

/-! ## The closing that `selectService` reports -/

/-- A sum of two positive numbers is not zero. -/
structure Platform.AddsPositive (p : Platform) : Prop where
  truthy_plus : ∀ i j : Int, 0 < i → i < 2 ^ 63 → 0 < j → j < 2 ^ 63 →
    truthy (p.plus (.int i) (p.columnText (.int j))) = true

/-- The first row of `CLOSEDSERVICES` whose number of active data is also the number
of a service. -/
def firstClosed (database : Database) : Option (Int × ClosedService) :=
  database.serviceClosed.rows.find? fun row =>
    (row.2.service.row database.serviceShared).isSome

/-- The warrantied parts, each with the service it was used in. -/
def warrantiedFrom (p : Platform) (database : Database) (key date : Text) :
    List (Int × Int × PartInService × Part) :=
  (database.serviceClosed.rows.filter fun row =>
    !p.isId row.1 key && p.atMost (p.numeric (p.columnText (p.halfYearBefore date))) row.2.completed &&
      p.atMost row.2.completed (p.numeric date)).flatMap fun row =>
    ((row.2.service.row database.serviceActive).bind fun active =>
      active.2.service.row database.serviceShared).toList.flatMap fun shared =>
    ((database.partsInService.select fun _ part => part.service == .int shared.1).filterMap
      fun part => (part.2.part.row database.parts).map fun row => (part.1, part.2, row.2)).map
        fun part => (shared.1, part)

/-- A closing lies in the half year before a date. -/
def inWarranty (p : Platform) (date : Text) (closed : ClosedService) : Bool :=
  p.atMost (p.numeric (p.columnText (p.halfYearBefore date))) closed.completed &&
    p.atMost closed.completed (p.numeric date)

section Closings

variable {p : Platform} {database : Database} {s : Int}

theorem warrantiedParts_eq (key date : Text) :
    warrantiedParts p database key date = (warrantiedFrom p database key date).map (·.2) := by
  simp only [warrantiedParts, warrantiedFrom, List.map_flatMap, List.map_map, Function.comp_def,
    List.map_id']

theorem head_selectedClosed (hsum : p.AddsPositive) (hpos : 0 < s) (hbound : s < 2 ^ 63)
    (hpositive : ∀ i row, database.serviceShared.get i = some row → 0 < i) :
    (selectedClosed p database (p.columnText (.int s))).head? = firstClosed database := by
  unfold selectedClosed firstClosed
  rw [List.head?_filter]
  congr 1
  funext row
  cases hrow : row.2.service.row database.serviceShared with
  | none => rfl
  | some shared =>
    obtain ⟨-, hget⟩ := row_eq_some_iff.mp hrow
    have htruthy := hsum.truthy_plus shared.1 s (hpositive _ _ hget)
      (database.serviceShared.get_lt hget) hpos hbound
    simpa using htruthy

/-- A warrantied part of the service comes from a closing of it. -/
theorem mem_warrantiedFrom (hlaw : p.Lawful) (hpos : 0 < s) (hbound : s < 2 ^ 63) {date : Text}
    (hshared : (sharedRow database (.int s)).isSome = true) {part : Int × PartInService × Part} :
    (s, part) ∈ warrantiedFrom p database (p.columnText (.int s)) date ↔
      (∃ c closed, HasClosed database s c closed ∧ c ≠ s ∧ inWarranty p date closed = true) ∧
        part ∈ partsOf p database (p.columnText (.int s)) := by
  have hkey := Platform.numeric_columnText hlaw hpos hbound
  obtain ⟨joined, hjoined⟩ := Option.isSome_iff_exists.mp hshared
  obtain ⟨hid, hget⟩ := service_of_sharedRow hjoined
  rw [← Value.int.inj hid] at hget
  simp only [warrantiedFrom, partsOf, hkey, List.mem_flatMap, Option.mem_toList]
  constructor
  · rintro ⟨⟨c, closed⟩, hclosed, ⟨s', shared⟩, hactive, hpart⟩
    obtain ⟨found, hfound, heq⟩ := List.mem_map.mp hpart
    obtain ⟨rfl, rfl⟩ := Prod.mk.inj heq
    obtain ⟨⟨a, active⟩, ha, hservice⟩ := Option.bind_eq_some_iff.mp hactive
    obtain ⟨hv, hactive⟩ := row_eq_some_iff.mp ha
    obtain ⟨hmem, hcondition⟩ := List.mem_filter.mp hclosed
    simp only [Bool.and_assoc, Bool.and_eq_true, Bool.not_eq_true', p.isId_eq hkey,
      decide_eq_false_iff_not] at hcondition
    refine ⟨⟨c, closed, ⟨database.serviceClosed.get_eq_some_iff.mpr hmem, a, active, hv, hactive,
      (row_eq_some_iff.mp hservice).1⟩, hcondition.1, ?_⟩, hfound⟩
    simpa [inWarranty] using hcondition.2
  · rintro ⟨⟨c, closed, ⟨hclosed, a, active, hv, hactive, hservice⟩, hne, hwarranty⟩, hpart⟩
    refine ⟨(c, closed), List.mem_filter.mpr
      ⟨database.serviceClosed.get_eq_some_iff.mp hclosed, ?_⟩, (s, joined.shared), ?_,
      List.mem_map.mpr ⟨part, hpart, rfl⟩⟩
    · simp only [inWarranty, Bool.and_eq_true] at hwarranty
      simp [p.isId_eq hkey, hne, hwarranty.1, hwarranty.2]
    · rw [Option.bind_eq_some_iff]
      exact ⟨(a, active), row_eq_some_iff.mpr ⟨hv, hactive⟩,
        row_eq_some_iff.mpr ⟨hservice, hget⟩⟩

/-- No warrantied part comes from the service: its closing has the number of the
service, or lies outside the half year, or the service has no parts. -/
theorem warranty_spares_iff (hlaw : p.Lawful) (hpos : 0 < s) (hbound : s < 2 ^ 63) {date : Text}
    (hshared : (sharedRow database (.int s)).isSome = true) :
    (∀ entry ∈ warrantiedFrom p database (p.columnText (.int s)) date, entry.1 ≠ s) ↔
      ∀ c closed, HasClosed database s c closed → c = s ∨ inWarranty p date closed = false ∨
        partsOf p database (p.columnText (.int s)) = [] := by
  constructor
  · intro h c closed hclosed
    by_contra hnot
    simp only [not_or, Bool.not_eq_false, ← ne_eq] at hnot
    obtain ⟨hne, hwarranty, hparts⟩ := hnot
    obtain ⟨part, hpart⟩ := List.exists_mem_of_ne_nil _ hparts
    exact h (s, part) ((mem_warrantiedFrom hlaw hpos hbound hshared).mpr
      ⟨⟨c, closed, hclosed, hne, hwarranty⟩, hpart⟩) rfl
  · rintro h ⟨source, part⟩ hentry rfl
    obtain ⟨⟨c, closed, hclosed, hne, hwarranty⟩, hpart⟩ :=
      (mem_warrantiedFrom hlaw hpos hbound hshared).mp hentry
    rcases h c closed hclosed with heq | hout | hnone
    · exact hne heq
    · simp [hwarranty] at hout
    · simp [hnone] at hpart

end Closings

/-! ## Agreement -/

/-- The service is reported in a list of `searchServices`. -/
def Listed (p : Platform) (server : Server) (req : Request) (list : Text) (s : Int) : Prop :=
  p.columnText (.int s) ∈ reported p server req list

/-- An answer of `selectService` has the closing that `searchServices` reports, and
no warrantied part of the service itself. -/
structure ClosedAgrees (p : Platform) (server : Server) (req : Request) (s : Int)
    (response : ResponseWrapper) : Prop where
  fields : ∀ found, searchServices p server req allServices = .reply .ok (some found) →
    ∀ record ∈ closedFor p s found, ∀ key ∈ [Key.completed, Key.completer, Key.paid],
      response.field key = record.field key
  warranty : ∃ date, response.field Key.completed = some date ∧
    response.recordsAt Key.warrantied =
      (warrantiedFrom p server.database (p.columnText (.int s)) date).map
        (fun entry => .ofFields (usedFields p entry.2)) ∧
    ∀ entry ∈ warrantiedFrom p server.database (p.columnText (.int s)) date, entry.1 ≠ s

/-- `selectService` finds the service and reports what `searchServices` does. -/
def ViewsAgree (p : Platform) (server : Server) (req : Request) (s : Int) : Prop :=
  ∀ q : Query, q.getElement Field.id = some (p.columnText (.int s)) →
    ∃ response, selectService p server req q = .reply .ok (some response) ∧
      (response.field Key.status = some ("unauthorised" : Text) ↔
        Listed p server req Key.unauthorisedList s) ∧
      (response.field Key.status = some ("authorised" : Text) ↔
        Listed p server req Key.openList s) ∧
      (Listed p server req Key.closedList s → ClosedAgrees p server req s response)

/-- The service is reported in one list and in no other. -/
def InOneList (p : Platform) (server : Server) (req : Request) (s : Int) : Prop :=
  (Listed p server req Key.unauthorisedList s ∧ ¬ Listed p server req Key.openList s ∧
    ¬ Listed p server req Key.closedList s) ∨
  (¬ Listed p server req Key.unauthorisedList s ∧ Listed p server req Key.openList s ∧
    ¬ Listed p server req Key.closedList s) ∨
  (¬ Listed p server req Key.unauthorisedList s ∧ ¬ Listed p server req Key.openList s ∧
    Listed p server req Key.closedList s)

/-- The first closing that names a service has its own number as the completer of
each closing of `s`, and their date and price; and the parts of `s` are left out of
the warrantied ones. -/
def ClosingCoincides (p : Platform) (database : Database) (s : Int) : Prop :=
  ∃ first, firstClosed database = some first ∧
    (∀ c closed, HasClosed database s c closed →
      p.columnText (.int first.1) = p.columnText closed.completer ∧
      p.columnText first.2.completed = p.columnText closed.completed ∧
      p.columnText first.2.paid = p.columnText closed.paid) ∧
    ∀ c closed, HasClosed database s c closed →
      c = s ∨ inWarranty p (p.columnText first.2.completed) closed = false ∨
        partsOf p database (p.columnText (.int s)) = []

/-- The numbers that are confused are equal: an open service has its own number in
`OPENSERVICES`, and a closed one has not. -/
structure Coincides (p : Platform) (server : Server) (req : Request) (s : Int) : Prop where
  opened : Listed p server req Key.openList s →
    server.database.serviceOpen.Occurs OpenService.service (.int s)
  closed : Listed p server req Key.closedList s →
    ¬ server.database.serviceOpen.Occurs OpenService.service (.int s) ∧
      ClosingCoincides p server.database s

section Records

variable {p : Platform} {database : Database} {s : Int}

/-- The closing in a record. -/
theorem closedRecord_fields {row : ClosedService × ActiveService × SharedRow}
    {record : ResponseWrapper} (h : closedRecord p database row = some record) :
    record.field Key.completed = some (p.columnText row.1.completed) ∧
    record.field Key.completer = some (p.columnText row.1.completer) ∧
    record.field Key.paid = some (p.columnText row.1.paid) := by
  obtain ⟨prices, -, rfl⟩ := Option.map_eq_some_iff.mp h
  have hends : ∀ key ∈ [Key.completed, Key.completer, Key.paid],
      Key.total ≠ key ∧ Key.parts ≠ key := by decide +kernel
  have hfield : ∀ key ∈ [Key.completed, Key.completer, Key.paid], ∀ (w : ResponseWrapper) records,
      ((w.addAll Key.parts records).push Key.total
          (.strings [p.doubleText (prices.foldl p.addDoubles 0)]) false).field key =
        w.field key := by
    intro key hkey w records
    rw [ResponseWrapper.field_push_of_ne (hends key hkey).1,
      ResponseWrapper.field_addAll_of_ne (hends key hkey).2]
  refine ⟨?_, ?_, ?_⟩
  · rw [hfield _ (by simp), ResponseWrapper.field_ofFields_eq]
    rfl
  · rw [hfield _ (by simp), ResponseWrapper.field_ofFields_eq]
    rfl
  · rw [hfield _ (by simp), ResponseWrapper.field_ofFields_eq]
    rfl

theorem mem_closedOf {row : ClosedService × ActiveService × SharedRow} :
    row ∈ closedOf database s ↔ ∃ c a, database.serviceClosed.get c = some row.1 ∧
      row.1.service = .int a ∧ HasActive database s a row.2.1 ∧
      sharedRow database (.int s) = some row.2.2 := by
  rw [closedOf, List.mem_filterMap]
  constructor
  · rintro ⟨⟨c, closed⟩, hmem, hrow⟩
    obtain ⟨active, hactive, rfl⟩ := Option.map_eq_some_iff.mp hrow
    obtain ⟨a, hv, hget, hshared, hid⟩ := activeFor_eq_some_iff.mp hactive
    have hservice := (service_of_sharedRow hshared).1
    rw [hid] at hservice
    exact ⟨c, a, database.serviceClosed.get_eq_some_iff.mpr hmem, hv, ⟨hget, hservice⟩,
      hservice ▸ hshared⟩
  · rintro ⟨c, a, hget, hv, hactive, hshared⟩
    refine ⟨(c, row.1), database.serviceClosed.get_eq_some_iff.mp hget,
      Option.map_eq_some_iff.mpr ⟨row.2, ?_, rfl⟩⟩
    exact activeFor_eq_some_iff.mpr ⟨a, hv, hactive.1, hactive.2 ▸ hshared,
      (Value.int.inj (service_of_sharedRow hshared).1).symm⟩

/-- The records of a closed service have its closings, and every closing has one. -/
theorem mem_closedFor {response : ResponseWrapper} {server : Server} {req : Request}
    (hsearch : searchServices p server req allServices = .reply .ok (some response))
    {record : ResponseWrapper} :
    record ∈ closedFor p s response ↔ ∃ row ∈ closedOf server.database s,
      closedRecord p server.database row = some record := by
  have hasked : allServices.hasElementOrEmpty Field.closedServices = true := by decide +kernel
  have hrecords := recordsAt_serviceLists (searchServices_ok_iff.mp hsearch).2.2.2
  rw [if_pos hasked] at hrecords
  have heq := closedFor_eq (s := s) hrecords
  simp only [listedFor_allServices, List.filter_true] at heq
  have hmem : record ∈ closedFor p s response ↔ some record ∈ (closedFor p s response).map some := by
    simp
  rw [hmem, closedFor, heq, List.mem_map]

end Records

section Views

variable {p : Platform} {server : Server} {s : Int} {req : Request}

/-- The end of the answer for a service that is not open. -/
theorem selectClosed_cons {database : Database} {key : Text} {w : ResponseWrapper}
    (hw : ∀ key ∈ endKeys, w.search key = none) {id : Int} {row : ClosedService}
    {rest : List (Int × ClosedService)} (h : selectedClosed p database key = (id, row) :: rest) :
    ∃ response, selectClosed p database key w = .reply .ok (some response) ∧
      response.field Key.status = none ∧
      response.field Key.completer = some (p.columnText (.int id)) ∧
      response.field Key.completed = some (p.columnText row.completed) ∧
      response.field Key.paid = some (p.columnText row.paid) ∧
      response.recordsAt Key.warrantied =
        (warrantiedFrom p database key (p.columnText row.completed)).map
          fun entry => .ofFields (usedFields p entry.2) := by
  have hdistinct : endKeys.Nodup := by decide +kernel
  simp only [endKeys, List.nodup_cons, List.mem_cons, List.not_mem_nil, or_false, not_or] at hdistinct
  obtain ⟨⟨hstatusCompleter, hstatusCompleted, hstatusPaid, hstatusWarrantied⟩,
    ⟨hcompleterCompleted, hcompleterPaid, hcompleterWarrantied⟩,
    ⟨hcompletedPaid, hcompletedWarrantied⟩, hpaidWarrantied, -⟩ := hdistinct
  refine ⟨_, by rw [selectClosed, h], ?_, ?_, ?_, ?_, ?_⟩
  · rw [ResponseWrapper.field_addAll_of_ne (Ne.symm hstatusWarrantied),
      ResponseWrapper.field_push_of_ne (Ne.symm hstatusPaid),
      ResponseWrapper.field_push_of_ne (Ne.symm hstatusCompleted),
      ResponseWrapper.field_push_of_ne (Ne.symm hstatusCompleter),
      ResponseWrapper.field_of_search (hw _ (by simp [endKeys]))]
  · rw [ResponseWrapper.field_addAll_of_ne (Ne.symm hcompleterWarrantied),
      ResponseWrapper.field_push_of_ne (Ne.symm hcompleterPaid),
      ResponseWrapper.field_push_of_ne (Ne.symm hcompleterCompleted),
      ResponseWrapper.field_push_self (hw _ (by simp [endKeys]))]
  · rw [ResponseWrapper.field_addAll_of_ne (Ne.symm hcompletedWarrantied),
      ResponseWrapper.field_push_of_ne (Ne.symm hcompletedPaid), ResponseWrapper.field_push_self]
    rw [ResponseWrapper.search_push_of_ne hcompleterCompleted]
    exact hw _ (by simp [endKeys])
  · rw [ResponseWrapper.field_addAll_of_ne (Ne.symm hpaidWarrantied),
      ResponseWrapper.field_push_self]
    rw [ResponseWrapper.search_push_of_ne hcompletedPaid,
      ResponseWrapper.search_push_of_ne hcompleterPaid]
    exact hw _ (by simp [endKeys])
  · rw [ResponseWrapper.recordsAt_addAll_self]
    · rw [warrantiedParts_eq, List.map_map]
      rfl
    · rw [ResponseWrapper.search_push_of_ne hpaidWarrantied,
        ResponseWrapper.search_push_of_ne hcompletedWarrantied,
        ResponseWrapper.search_push_of_ne hcompleterWarrantied]
      exact hw _ (by simp [endKeys])

/-- What is known of a service that is listed. -/
structure ListedService (p : Platform) (server : Server) (req : Request) (s : Int)
    (found : ResponseWrapper) (shared : SharedRow) : Prop where
  numbered : Numbered (unclosed server.database)
  employee : server.sessions.verify req AuthLevel.employee = true
  lists : serviceLists p server.database allServices = some found
  joined : sharedRow server.database (.int s) = some shared

section Listed

variable {found : ResponseWrapper} {shared : SharedRow}

theorem ListedService.bounds (h : ListedService p server req s found shared) :
    0 < s ∧ s < 2 ^ 63 := by
  obtain ⟨hid, hget⟩ := service_of_sharedRow h.joined
  rw [← Value.int.inj hid] at hget
  exact ⟨h.numbered.positive s _ hget, server.database.serviceShared.get_lt hget⟩

theorem ListedService.listed_iff (h : ListedService p server req s found shared) (list : Text) :
    Listed p server req list s ↔ p.columnText (.int s) ∈ found.listed list := by
  rw [Listed, reported_eq h.employee h.lists]

theorem ListedService.unauthorised_iff (h : ListedService p server req s found shared) :
    Listed p server req Key.unauthorisedList s ↔
      server.database.serviceUnauthorised.Occurs UnauthorisedService.service (.int s) := by
  rw [h.listed_iff, mem_listed_unauthorised (listing_of_serviceLists h.lists).1, h.joined]
  simp

theorem ListedService.searchServices_eq (h : ListedService p server req s found shared) :
    searchServices p server req allServices = .reply .ok (some found) := by
  rw [searchServices_allServices h.employee, h.lists]

/-- A service that is open or closed has its active data in the answer, up to the
end of it. -/
theorem ListedService.selectService_cases (h : ListedService p server req s found shared)
    (hlaw : p.Lawful) {q : Query} (hq : q.getElement Field.id = some (p.columnText (.int s)))
    (hnone : ¬ Listed p server req Key.unauthorisedList s)
    (hlisted : Listed p server req Key.openList s ∨ Listed p server req Key.closedList s) :
    ∃ w : ResponseWrapper, (∀ key ∈ endKeys, w.search key = none) ∧
      ((server.database.serviceOpen.Occurs OpenService.service (.int s) ∧
        selectService p server req q = .reply .ok (some
          (w.push Key.status (.strings [("authorised" : Text)]) false))) ∨
      ¬ server.database.serviceOpen.Occurs OpenService.service (.int s) ∧
        selectService p server req q =
          selectClosed p server.database (p.columnText (.int s)) w) := by
  obtain ⟨hlisting, hopened, hclosed⟩ := listing_of_serviceLists h.lists
  have hrow : ∀ {a : Int} {active : ActiveService}, HasActive server.database s a active →
      activeRow server.database (.int a) = some (active, shared) :=
    fun hactive => activeRow_of_hasActive hactive h.joined
  have hid : shared.id = s := (Value.int.inj (service_of_sharedRow h.joined).1).symm
  -- The active data, and the record of the list that could be made of it.
  obtain ⟨a, active, hactive, hsome⟩ : ∃ a active, HasActive server.database s a active ∧
      ∃ (w : ResponseWrapper) (fields : Int × PartInService × Part → List (Text × Text)),
        (addParts p w (partsOf p server.database (p.columnText (.int s))) fields).isSome = true := by
    rcases hlisted with hlisted | hlisted
    · obtain ⟨a, active, hactive, hoccurs, hauthoriser, -⟩ :=
        (mem_listed_open_iff hlisting).mp ((h.listed_iff _).mp hlisted)
      have hsome := hopened _ (mem_openRows.mpr ⟨.int a, hoccurs, hrow hactive, hauthoriser⟩)
      unfold openRecord at hsome
      rw [hid] at hsome
      exact ⟨a, active, hactive, _, _, hsome⟩
    · obtain ⟨⟨c, closed, hget, a, active, hv, hactive⟩, -⟩ :=
        (mem_listed_closed_iff hlisting).mp ((h.listed_iff _).mp hlisted)
      have hsome := hclosed _ (mem_closedRows.mpr ⟨c, hget, hv ▸ hrow hactive⟩)
      unfold closedRecord at hsome
      rw [hid] at hsome
      exact ⟨a, active, hactive, _, _, hsome⟩
  obtain ⟨w', fields, hsome⟩ := hsome
  obtain ⟨w, hw⟩ : ∃ w, addParts p (.ofFields (activeFields p shared active))
      (partsOf p server.database (p.columnText (.int s)))
      (fun part => usedFields p part ++ [priceField p part]) = some w := addParts_isSome hsome
  obtain ⟨hpos, hbound⟩ := h.bounds
  refine ⟨w, fun key hkey => search_addParts hw hkey (not_mem_activeFields hkey), ?_⟩
  exact selectService_active hlaw hpos hbound h.employee hq h.joined h.numbered
    (fun hoccurs => hnone (h.unauthorised_iff.mpr hoccurs)) hactive hw

/-- The status of an answer that ends with it. -/
theorem field_status {w : ResponseWrapper} (hw : ∀ key ∈ endKeys, w.search key = none)
    (status : Text) :
    (w.push Key.status (.strings [status]) false).field Key.status = some status :=
  ResponseWrapper.field_push_self (hw _ (by simp [endKeys]))

/-- The query for the service. -/
def idQuery (p : Platform) (s : Int) : Query :=
  .ofList [(Field.id, p.columnText (.int s))]

theorem getElement_idQuery : (idQuery p s).getElement Field.id = some (p.columnText (.int s)) := by
  rfl

theorem authorised_ne : ("authorised" : Text) ≠ ("unauthorised" : Text) := by decide +kernel

theorem ListedService.agree_unauthorised (h : ListedService p server req s found shared)
    (hlaw : p.Lawful) (hlisted : Listed p server req Key.unauthorisedList s)
    (hopen : ¬ Listed p server req Key.openList s)
    (hclosed : ¬ Listed p server req Key.closedList s) : ViewsAgree p server req s := by
  intro q hq
  have hstatus : ((ResponseWrapper.ofFields (selectedFields p shared)).push Key.status
      (.strings [("unauthorised" : Text)]) false).field Key.status =
        some ("unauthorised" : Text) :=
    field_status (fun key hkey =>
      ResponseWrapper.search_ofFields_none (not_mem_selectedFields hkey)) _
  refine ⟨_, selectService_unauthorised hlaw h.bounds.1 h.bounds.2 h.employee hq h.joined
    (h.unauthorised_iff.mp hlisted), ?_, ?_, fun hlisted => absurd hlisted hclosed⟩
  · rw [hstatus]
    simp [hlisted]
  · rw [hstatus]
    exact iff_of_false (fun heq => authorised_ne (Option.some.inj heq).symm) hopen

theorem ListedService.agree_open_iff (h : ListedService p server req s found shared)
    (hlaw : p.Lawful) (hnone : ¬ Listed p server req Key.unauthorisedList s)
    (hlisted : Listed p server req Key.openList s)
    (hclosed : ¬ Listed p server req Key.closedList s) :
    ViewsAgree p server req s ↔
      server.database.serviceOpen.Occurs OpenService.service (.int s) := by
  constructor
  · intro hagree
    obtain ⟨response, hselect, -, hstatus, -⟩ := hagree (idQuery p s) getElement_idQuery
    obtain ⟨w, hw, ⟨hoccurs, -⟩ | ⟨-, hanswer⟩⟩ :=
      h.selectService_cases hlaw getElement_idQuery hnone (.inl hlisted)
    · exact hoccurs
    · -- The end of a closed service has no status.
      rw [hselect] at hanswer
      cases hfirst : selectedClosed p server.database (p.columnText (.int s)) with
      | nil => simp [selectClosed, hfirst] at hanswer
      | cons first rest =>
        obtain ⟨response', hresponse, hfield, -⟩ := selectClosed_cons hw hfirst
        rw [hresponse] at hanswer
        obtain rfl : response = response' := by simpa using hanswer
        rw [hfield] at hstatus
        simp [hlisted] at hstatus
  · intro hoccurs q hq
    obtain ⟨w, hw, ⟨-, hanswer⟩ | ⟨hmissing, -⟩⟩ :=
      h.selectService_cases hlaw hq hnone (.inl hlisted)
    · refine ⟨_, hanswer, ?_, ?_, fun hlisted => absurd hlisted hclosed⟩
      · rw [field_status hw]
        exact iff_of_false (fun heq => authorised_ne (Option.some.inj heq)) hnone
      · rw [field_status hw]
        simp [hlisted]
    · exact absurd hoccurs hmissing

/-- The closings of the service and the one that is reported. -/
theorem ListedService.closedAgrees_iff (h : ListedService p server req s found shared)
    (hlaw : p.Lawful) {id : Int} {row : ClosedService} {response : ResponseWrapper}
    (hcompleter : response.field Key.completer = some (p.columnText (.int id)))
    (hcompleted : response.field Key.completed = some (p.columnText row.completed))
    (hpaid : response.field Key.paid = some (p.columnText row.paid))
    (hwarrantied : response.recordsAt Key.warrantied =
      (warrantiedFrom p server.database (p.columnText (.int s)) (p.columnText row.completed)).map
        fun entry => .ofFields (usedFields p entry.2)) :
    ClosedAgrees p server req s response ↔
      (∀ c closed, HasClosed server.database s c closed →
        p.columnText (.int id) = p.columnText closed.completer ∧
        p.columnText row.completed = p.columnText closed.completed ∧
        p.columnText row.paid = p.columnText closed.paid) ∧
      ∀ c closed, HasClosed server.database s c closed →
        c = s ∨ inWarranty p (p.columnText row.completed) closed = false ∨
          partsOf p server.database (p.columnText (.int s)) = [] := by
  have hshared : (sharedRow server.database (.int s)).isSome = true := by simp [h.joined]
  rw [← warranty_spares_iff hlaw h.bounds.1 h.bounds.2 hshared]
  constructor
  · intro hagrees
    refine ⟨?_, ?_⟩
    · rintro c closed ⟨hget, a, active, hv, hactive⟩
      have hrow : (closed, active, shared) ∈ closedOf server.database s :=
        mem_closedOf.mpr ⟨c, a, hget, hv, hactive, h.joined⟩
      have hsome := (listing_of_serviceLists h.lists).2.2 _
        (mem_closedRows.mpr ⟨c, hget, hv ▸ activeRow_of_hasActive hactive h.joined⟩)
      obtain ⟨record, hrecord⟩ := Option.isSome_iff_exists.mp hsome
      obtain ⟨hdone, hwho, hprice⟩ := closedRecord_fields hrecord
      have hsame := hagrees.fields found h.searchServices_eq record
        ((mem_closedFor h.searchServices_eq).mpr ⟨_, hrow, hrecord⟩)
      refine ⟨?_, ?_, ?_⟩
      · have := hsame Key.completer (by simp)
        rw [hcompleter, hwho] at this
        exact Option.some.inj this
      · have := hsame Key.completed (by simp)
        rw [hcompleted, hdone] at this
        exact Option.some.inj this
      · have := hsame Key.paid (by simp)
        rw [hpaid, hprice] at this
        exact Option.some.inj this
    · obtain ⟨date, hdate, -, hspares⟩ := hagrees.warranty
      rw [hcompleted] at hdate
      rw [Option.some.inj hdate]
      exact hspares
  · rintro ⟨hclosings, hspares⟩
    refine ⟨?_, _, hcompleted, hwarrantied, hspares⟩
    intro found' hfound record hrecord key hkey
    obtain ⟨joined, hjoined, hmade⟩ := (mem_closedFor hfound).mp hrecord
    obtain ⟨c, a, hget, hv, hactive, -⟩ := mem_closedOf.mp hjoined
    obtain ⟨hwho, hdone, hprice⟩ := hclosings c joined.1 ⟨hget, a, joined.2.1, hv, hactive⟩
    obtain ⟨hdone', hwho', hprice'⟩ := closedRecord_fields hmade
    simp only [List.mem_cons, List.not_mem_nil, or_false] at hkey
    rcases hkey with rfl | rfl | rfl
    · rw [hcompleted, hdone', hdone]
    · rw [hcompleter, hwho', hwho]
    · rw [hpaid, hprice', hprice]

theorem ListedService.agree_closed_iff (h : ListedService p server req s found shared)
    (hlaw : p.Lawful) (hsum : p.AddsPositive)
    (hnone : ¬ Listed p server req Key.unauthorisedList s)
    (hopen : ¬ Listed p server req Key.openList s)
    (hlisted : Listed p server req Key.closedList s) :
    ViewsAgree p server req s ↔
      ¬ server.database.serviceOpen.Occurs OpenService.service (.int s) ∧
      ClosingCoincides p server.database s := by
  have hhead : (selectedClosed p server.database (p.columnText (.int s))).head? =
      firstClosed server.database :=
    head_selectedClosed hsum h.bounds.1 h.bounds.2 h.numbered.positive
  constructor
  · intro hagree
    obtain ⟨response, hselect, -, hstatus, hclosed⟩ := hagree (idQuery p s) getElement_idQuery
    obtain ⟨w, hw, ⟨-, hanswer⟩ | ⟨hmissing, hanswer⟩⟩ :=
      h.selectService_cases hlaw getElement_idQuery hnone (.inr hlisted)
    · rw [hselect] at hanswer
      obtain rfl : response = _ := by simpa using hanswer
      rw [field_status hw] at hstatus
      exact absurd (hstatus.mp rfl) hopen
    · refine ⟨hmissing, ?_⟩
      rw [hselect] at hanswer
      cases hfirst : selectedClosed p server.database (p.columnText (.int s)) with
      | nil => simp [selectClosed, hfirst] at hanswer
      | cons first rest =>
        obtain ⟨response', hresponse, -, hcompleter, hcompleted, hpaid, hwarrantied⟩ :=
          selectClosed_cons hw hfirst
        rw [hresponse] at hanswer
        obtain rfl : response = response' := by simpa using hanswer
        refine ⟨first, ?_, ?_⟩
        · rw [← hhead, hfirst]
          rfl
        · exact (h.closedAgrees_iff hlaw hcompleter hcompleted hpaid hwarrantied).mp
            (hclosed hlisted)
  · rintro ⟨hmissing, first, hfirst, hcondition⟩ q hq
    obtain ⟨w, hw, ⟨hoccurs, -⟩ | ⟨-, hanswer⟩⟩ :=
      h.selectService_cases hlaw hq hnone (.inr hlisted)
    · exact absurd hoccurs hmissing
    · obtain ⟨rest, hselected⟩ := List.head?_eq_some_iff.mp (hhead.trans hfirst)
      obtain ⟨response, hresponse, hstatus, hcompleter, hcompleted, hpaid, hwarrantied⟩ :=
        selectClosed_cons hw hselected
      refine ⟨response, hanswer.trans hresponse, ?_, ?_, fun _ =>
        (h.closedAgrees_iff hlaw hcompleter hcompleted hpaid hwarrantied).mpr hcondition⟩
      · rw [hstatus]
        exact iff_of_false (by simp) hnone
      · rw [hstatus]
        exact iff_of_false (by simp) hopen

end Listed

/-- In every state that requests, authorisations, closings and added parts reach, and
for every service that is in one list: the two views agree exactly when the numbers
that `selectService` confuses coincide. -/
theorem views_agree_iff (hlaw : p.Lawful) (hsum : p.AddsPositive) {start : Database}
    {sessions : Sessions} {actions : List ServiceAction}
    (hrun : ViewRun p start sessions actions server)
    (hemployee : server.sessions.verify req AuthLevel.employee = true)
    (hone : InOneList p server req s) :
    ViewsAgree p server req s ↔ Coincides p server req s := by
  -- Whatever the list is, the service is joined with its vehicle and its owner.
  have hlisted : ∀ list, (∀ {found}, Listing p server.database found →
      p.columnText (.int s) ∈ found.listed list →
        (sharedRow server.database (.int s)).isSome = true) →
      Listed p server req list s → ∃ found shared, ListedService p server req s found shared := by
    intro list hjoined hreported
    obtain ⟨found, hlists, hmem⟩ := listing_of_mem hemployee hreported
    obtain ⟨shared, hshared⟩ :=
      Option.isSome_iff_exists.mp (hjoined (listing_of_serviceLists hlists).1 hmem)
    exact ⟨found, shared, hrun.numbered, hemployee, hlists, hshared⟩
  obtain ⟨hunauthorised, hopen, hclosed⟩ | ⟨hnone, hopen, hclosed⟩ | ⟨hnone, hopen, hclosed⟩ := hone
  · obtain ⟨found, shared, h⟩ := hlisted _
      (fun hlisting hmem => ((mem_listed_unauthorised hlisting).mp hmem).2) hunauthorised
    exact iff_of_true (h.agree_unauthorised hlaw hunauthorised hopen hclosed)
      ⟨fun hlisted => absurd hlisted hopen, fun hlisted => absurd hlisted hclosed⟩
  · obtain ⟨found, shared, h⟩ := hlisted _ (fun hlisting hmem => by
      obtain ⟨a, active, -, -, -, hsome⟩ := (mem_listed_open_iff hlisting).mp hmem
      exact hsome) hopen
    rw [h.agree_open_iff hlaw hnone hopen hclosed]
    exact ⟨fun hoccurs => ⟨fun _ => hoccurs, fun hlisted => absurd hlisted hclosed⟩,
      fun hcoincides => hcoincides.opened hopen⟩
  · obtain ⟨found, shared, h⟩ := hlisted _
      (fun hlisting hmem => ((mem_listed_closed_iff hlisting).mp hmem).2) hclosed
    rw [h.agree_closed_iff hlaw hsum hnone hopen hclosed]
    exact ⟨fun hcondition => ⟨fun hlisted => absurd hlisted hopen, fun _ => hcondition⟩,
      fun hcoincides => hcoincides.closed hclosed⟩

end Views

/-! ## Services authorised out of order, and in order -/

/-- Service 2 is reported as open, and its active data has the number 1: `selectService`
fails for it. -/
theorem views_disagree :
    ViewRun .integers garageDatabase managerSessions outOfOrder (garageAfter outOfOrder) ∧
    InOneList .integers (garageAfter outOfOrder) managerRequest 2 ∧
    selectService .integers (garageAfter outOfOrder) managerRequest (idQuery .integers 2) =
      .reply .internalError none ∧
    ¬ ViewsAgree .integers (garageAfter outOfOrder) managerRequest 2 := by
  have hviewed : ∀ action ∈ outOfOrder, isViewed action := by
    simp [outOfOrder, requestBrakes, authorise, isViewed]
  have hfails : selectService .integers (garageAfter outOfOrder) managerRequest
      (idQuery .integers 2) = .reply .internalError none := by decide +kernel
  refine ⟨Run.of_forall hviewed, .inr (.inl ?_), hfails, ?_⟩
  · unfold Listed
    decide +kernel
  · intro hagree
    obtain ⟨response, hselect, -⟩ := hagree (idQuery .integers 2) getElement_idQuery
    rw [hfails] at hselect
    cases hselect

/-- Integers whose sums that leave the range are not zero. -/
def wholeSums : Platform :=
  { Platform.integers with realPlus := fun _ _ => .real (Platform.doubleOf 1) }

theorem wholeSums_lawful : wholeSums.Lawful where
  numeric_ofNat := Platform.integers_lawful.numeric_ofNat

theorem wholeSums_addsPositive : wholeSums.AddsPositive where
  truthy_plus i j hi _ hj _ := by
    have htext : wholeSums.columnText (.int j) = ofNat j.toNat := by
      rw [Platform.columnText, ofInt, if_neg (by omega)]
      congr 1
      omega
    have hplain : ('e' : Byte) ∉ ofNat j.toNat := by
      intro hmem
      have hdigit := isDigit_ofNat hmem
      revert hdigit
      decide
    have hleading : wholeSums.leading (ofNat j.toNat) = .int j := by
      have hj : (j.toNat : Int) = j := by omega
      simp [wholeSums, Platform.integers, hplain, digits_ofNat, numeralValue_ofNat, hj]
    rw [htext]
    unfold Platform.plus
    simp only [hleading]
    split
    · simp only [truthy, bne_iff_ne]
      omega
    · change truthy (.real (Platform.doubleOf 1)) = true
      decide +kernel

def viewedInOrder : Server :=
  inOrder.foldl (serviceStep wholeSums)
    { database := garageDatabase.withServices {}, sessions := managerSessions }

theorem views_agree_inOrder : ViewsAgree wholeSums viewedInOrder managerRequest 1 := by
  have hviewed : ∀ action ∈ inOrder, isViewed action := by
    simp [inOrder, requestBrakes, authorise, isViewed]
  have hrun : ViewRun wholeSums garageDatabase managerSessions inOrder viewedInOrder :=
    Run.of_forall hviewed
  have hone : InOneList wholeSums viewedInOrder managerRequest 1 := by
    refine .inr (.inl ?_)
    unfold Listed
    decide +kernel
  refine (views_agree_iff wholeSums_lawful wholeSums_addsPositive hrun
    (show viewedInOrder.sessions.verify managerRequest AuthLevel.employee = true by
      decide +kernel) hone).mpr ⟨fun _ => ?_, fun hlisted => absurd hlisted ?_⟩
  · have hopen : viewedInOrder.database.serviceOpen.get 1 = some { service := .int 1 } := by
      decide +kernel
    exact ⟨1, _, hopen, rfl⟩
  · unfold Listed
    decide +kernel

end WFA
