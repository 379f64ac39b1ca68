-- SUMMARY: The totals an answer of `searchServices` has to add up, and what keeps them readable.
import WFA.Server.ClosedRecords
import WFA.Server.Statements
import WFA.Server.Quantities

/-!
# Totals of listed services

`searchServices` adds up the parts of every open and closed service that it lists. One
price or quantity that is no number ends the whole report, whichever service it is of.
-/

namespace WFA

open Text

/-! ## When there is a report -/

section Totals

variable (p : Platform) (database : Database)

/-- Both texts of a part are numbers. -/
def Reads (price quantity : Value) : Prop :=
  (getPartPrice p (p.columnText price) (p.columnText quantity)).isSome = true

def TotalReads (s : Int) : Prop :=
  ∀ row ∈ partsOf p database (p.columnText (.int s)), Reads p row.2.2.price row.2.1.quantity

/-- A row of `ACTIVESERVICEDATA` that an answer to the query has in a list with totals. -/
structure TotalledRow (q : Query) (a : Int) (active : ActiveService) (shared : SharedRow) :
    Prop where
  found : database.serviceActive.get a = some active
  joined : sharedRow database active.service = some shared
  owner : listedFor p q shared.owner = true
  asked : (q.hasElementOrEmpty Field.openServices = true ∧
      database.serviceOpen.Occurs OpenService.service (.int a) ∧
      (active.authoriser.row database.users).isSome = true) ∨
    (q.hasElementOrEmpty Field.closedServices = true ∧
      database.serviceClosed.Occurs ClosedService.service (.int a))

/-- The services in those lists. -/
def Totalled (q : Query) (s : Int) : Prop :=
  ∃ a active shared, TotalledRow p database q a active shared ∧ shared.id = s

/-- Nothing stands in the way of an answer. -/
def Answers (q : Query) : Prop :=
  ∀ s, Totalled p database q s → TotalReads p database s

end Totals

section Answer

variable {p : Platform} {database : Database} {q : Query} {s : Int}

theorem totalReads_iff : TotalReads p database s ↔
    ∀ entry row part, database.partsInService.get entry = some row →
      row.service = usedService p s → row.part.row database.parts = some part →
      Reads p part.2.price row.quantity := by
  unfold TotalReads partsOf
  simp only [List.mem_filterMap, Option.map_eq_some_iff]
  constructor
  · intro h entry row part hget hservice hpart
    exact h _ ⟨(entry, row), (Table.mem_select _).mpr ⟨hget, by simp [hservice, usedService]⟩,
      part, hpart, rfl⟩
  · rintro h _ ⟨⟨entry, row⟩, hmem, part, hpart, rfl⟩
    obtain ⟨hget, hservice⟩ := (Table.mem_select _).mp hmem
    exact h entry row part hget (by simpa [usedService] using hservice) hpart

/-- A record with a total can be made when the total can be read. -/
theorem addParts_isSome_iff {w : ResponseWrapper} {rows : List (Int × PartInService × Part)}
    {fields : Int × PartInService × Part → List (Text × Text)} :
    (addParts p w rows fields).isSome = true ↔
      ∀ row ∈ rows, Reads p row.2.2.price row.2.1.quantity := by
  rw [addParts, Option.isSome_map, mapM_isSome_iff]
  rfl

theorem exists_openRow_iff :
    (∃ row ∈ openRows p database q, row.2.id = s) ↔
      ∃ a active shared, database.serviceActive.get a = some active ∧
        sharedRow database active.service = some shared ∧ listedFor p q shared.owner = true ∧
        (database.serviceOpen.Occurs OpenService.service (.int a) ∧
          (active.authoriser.row database.users).isSome = true) ∧ shared.id = s := by
  constructor
  · rintro ⟨⟨active, shared⟩, hmem, hid⟩
    obtain ⟨howner, v, hopen, hrow, hauthoriser⟩ := mem_openRows_query.mp hmem
    obtain ⟨a, rfl, hget, hshared⟩ := activeRow_eq_some_iff.mp hrow
    exact ⟨a, active, shared, hget, hshared, howner, ⟨hopen, hauthoriser⟩, hid⟩
  · rintro ⟨a, active, shared, hget, hshared, howner, ⟨hopen, hauthoriser⟩, hid⟩
    exact ⟨(active, shared), mem_openRows_query.mpr ⟨howner, .int a, hopen,
      activeRow_eq_some_iff.mpr ⟨a, rfl, hget, hshared⟩, hauthoriser⟩, hid⟩

theorem exists_closedRow_iff :
    (∃ row ∈ closedRows p database q, row.2.2.id = s) ↔
      ∃ a active shared, database.serviceActive.get a = some active ∧
        sharedRow database active.service = some shared ∧ listedFor p q shared.owner = true ∧
        database.serviceClosed.Occurs ClosedService.service (.int a) ∧ shared.id = s := by
  constructor
  · rintro ⟨⟨closed, active, shared⟩, hmem, hid⟩
    obtain ⟨howner, id, hclosed, hrow⟩ := mem_closedRows_query.mp hmem
    obtain ⟨a, hv, hget, hshared⟩ := activeRow_eq_some_iff.mp hrow
    exact ⟨a, active, shared, hget, hshared, howner, ⟨id, closed, hclosed, hv⟩, hid⟩
  · rintro ⟨a, active, shared, hget, hshared, howner, ⟨id, closed, hclosed, hv⟩, hid⟩
    exact ⟨(closed, active, shared), mem_closedRows_query.mpr ⟨howner, id, hclosed,
      activeRow_eq_some_iff.mpr ⟨a, hv, hget, hshared⟩⟩, hid⟩

/-- There is an answer when the totals of its lists can be read. -/
theorem serviceLists_isSome_iff :
    (serviceLists p database q).isSome = true ↔ Answers p database q := by
  have hopened : ((openRows p database q).mapM (openRecord p database)).isSome = true ↔
      ∀ s, (∃ row ∈ openRows p database q, row.2.id = s) → TotalReads p database s := by
    rw [mapM_isSome_iff]
    simp only [openRecord, addParts_isSome_iff]
    exact ⟨fun h s ⟨row, hrow, hid⟩ => hid ▸ h row hrow, fun h row hrow => h _ ⟨row, hrow, rfl⟩⟩
  have hclosed : ((closedRows p database q).mapM (closedRecord p database)).isSome = true ↔
      ∀ s, (∃ row ∈ closedRows p database q, row.2.2.id = s) → TotalReads p database s := by
    rw [mapM_isSome_iff]
    simp only [closedRecord, addParts_isSome_iff]
    exact ⟨fun h s ⟨row, hrow, hid⟩ => hid ▸ h row hrow, fun h row hrow => h _ ⟨row, hrow, rfl⟩⟩
  have hlists : (serviceLists p database q).isSome = true ↔
      (q.hasElementOrEmpty Field.openServices = true →
        ((openRows p database q).mapM (openRecord p database)).isSome = true) ∧
      (q.hasElementOrEmpty Field.closedServices = true →
        ((closedRows p database q).mapM (closedRecord p database)).isSome = true) := by
    unfold serviceLists
    cases q.hasElementOrEmpty Field.openServices <;>
      cases q.hasElementOrEmpty Field.closedServices <;>
      cases (openRows p database q).mapM (openRecord p database) <;> simp
  rw [hlists, hopened, hclosed]
  simp only [exists_openRow_iff, exists_closedRow_iff]
  constructor
  · rintro ⟨hopen, hclose⟩ s ⟨a, active, shared, hrow, hid⟩
    obtain ⟨hasked, hlisted⟩ | ⟨hasked, hlisted⟩ := hrow.asked
    · exact hopen hasked s ⟨a, active, shared, hrow.found, hrow.joined, hrow.owner, hlisted, hid⟩
    · exact hclose hasked s ⟨a, active, shared, hrow.found, hrow.joined, hrow.owner, hlisted, hid⟩
  · intro h
    constructor
    · rintro hasked s ⟨a, active, shared, hget, hshared, howner, hlisted, hid⟩
      exact h s ⟨a, active, shared, ⟨hget, hshared, howner, .inl ⟨hasked, hlisted⟩⟩, hid⟩
    · rintro hasked s ⟨a, active, shared, hget, hshared, howner, hlisted, hid⟩
      exact h s ⟨a, active, shared, ⟨hget, hshared, howner, .inr ⟨hasked, hlisted⟩⟩, hid⟩

/-- A session that was answered is answered as long as there is an answer. -/
theorem searchServices_again {server server' : Server} {req : Request}
    {response response' : ResponseWrapper}
    (h : searchServices p server req q = .reply .ok (some response))
    (hsessions : server'.sessions = server.sessions)
    (hlists : serviceLists p server'.database q = some response') :
    searchServices p server' req q = .reply .ok (some response') := by
  obtain ⟨hasked, hallowed, hsession, -⟩ := searchServices_ok_iff.mp h
  have hallowed' : refusedUser server' req q = none := by
    rw [← hallowed, refusedUser, hsessions, refusedUser]
  exact searchServices_ok_iff.mpr ⟨hasked, hallowed', hsession, hlists⟩

end Answer

/-! ## What keeps an answer -/

section Keeps

variable {p : Platform} {database : Database} {q : Query}

/-- The value stands for a service in the lists. -/
def TotalledValue (p : Platform) (database : Database) (q : Query) (service : Value) : Prop :=
  ∃ s, Totalled p database q s ∧ service = usedService p s

/-- One row of the parts in services is written, and what it has reads. -/
theorem Answers.parts_written (h : Answers p database q) {partsInService : Table PartInService}
    {id : Int} {written : Option PartInService}
    (hwrites : Table.Writes database.partsInService partsInService id written)
    (hreads : ∀ row part, written = some row → TotalledValue p database q row.service →
      row.part.row database.parts = some part → Reads p part.2.price row.quantity) :
    Answers p { database with partsInService } q := by
  intro s hlisted
  replace hlisted : Totalled p database q s := by
    obtain ⟨a, active, shared, hrow, hid⟩ := hlisted
    exact ⟨a, active, shared, ⟨hrow.found, hrow.joined, hrow.owner, hrow.asked⟩, hid⟩
  rw [totalReads_iff]
  intro entry row part hget hservice hpart
  rw [hwrites entry] at hget
  split at hget
  · exact hreads row part hget ⟨s, hlisted, hservice⟩ hpart
  · exact totalReads_iff.mp (h s hlisted) entry row part hget hservice hpart

/-- The parts change, and the prices that services of the lists have now read. -/
theorem Answers.parts_replaced (h : Answers p database q) {parts : Table Part}
    (hreads : ∀ entry row part new, database.partsInService.get entry = some row →
      TotalledValue p database q row.service → row.part = .int part → parts.get part = some new →
      (∃ old, database.parts.get part = some old ∧ old.price = new.price) ∨
        Reads p new.price row.quantity) :
    Answers p { database with parts } q := by
  intro s hlisted
  replace hlisted : Totalled p database q s := by
    obtain ⟨a, active, shared, hrow, hid⟩ := hlisted
    exact ⟨a, active, shared, ⟨hrow.found, hrow.joined, hrow.owner, hrow.asked⟩, hid⟩
  rw [totalReads_iff]
  rintro entry row ⟨id, new⟩ hget hservice hpart
  obtain ⟨hvalue, hnew⟩ := row_eq_some_iff.mp hpart
  obtain ⟨old, hold, hprice⟩ | hread := hreads entry row id new hget ⟨s, hlisted, hservice⟩ hvalue hnew
  · rw [← hprice]
    exact totalReads_iff.mp (h s hlisted) entry row (id, old) hget hservice
      (row_eq_some_iff.mpr ⟨hvalue, hold⟩)
  · exact hread

/-- What the lists have after a statement they had before, or its total reads. -/
theorem Answers.listed (h : Answers p database q) {database' : Database}
    (hparts : database'.parts = database.parts)
    (hused : database'.partsInService = database.partsInService)
    (hlisted : ∀ a active shared, TotalledRow p database' q a active shared →
      Totalled p database q shared.id ∨ TotalReads p database shared.id) :
    Answers p database' q := by
  rintro s ⟨a, active, shared, hrow, rfl⟩
  have hreads : TotalReads p database shared.id := by
    obtain hbefore | hread := hlisted a active shared hrow
    · exact h shared.id hbefore
    · exact hread
  unfold TotalReads partsOf at hreads ⊢
  rw [hparts, hused]
  exact hreads

end Keeps

end WFA
