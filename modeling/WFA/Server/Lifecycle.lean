-- SUMMARY: Every service is in exactly one stage, as long as only open services are closed and every authorisation has a quote.
import WFA.Base.Run
import WFA.Server.ServiceEffects

/-!
# The stages of a service

A service is unauthorised, open or closed, and which one it is is spread over
four tables. `createRequest` and `authoriseRequest` move a service on;
`closeService` inserts into `CLOSEDSERVICES` whatever ID it is given, and
`authoriseRequest` has already removed the request when it finds that there is no
quote. These two are the only ways out of the partition.
-/

namespace WFA

open Text

/-! ## Stages -/

/-- One request and no data of an authorised service. -/
def Unauthorised (database : Database) (s : Int) : Prop :=
  (∃! id, database.serviceUnauthorised.Holds UnauthorisedService.service id (.int s)) ∧
    ¬ database.serviceActive.Occurs ActiveService.service (.int s)

/-- No request, and one row of `ACTIVESERVICEDATA`, which is open or closed. -/
def Authorised (database : Database) (s : Int) : Prop :=
  ¬ database.serviceUnauthorised.Occurs UnauthorisedService.service (.int s) ∧
    (∃! a, database.serviceActive.Holds ActiveService.service a (.int s)) ∧
    ∀ a, database.serviceActive.Holds ActiveService.service a (.int s) →
      Xor (database.serviceOpen.Occurs OpenService.service (.int a))
        (database.serviceClosed.Occurs ClosedService.service (.int a))

/-- A value that is the rowid of a row. -/
def Refers {α : Type} (v : Value) (t : Table α) : Prop :=
  ∃ id row, v = .int id ∧ t.get id = some row

structure Partition (database : Database) : Prop where
  stage : ∀ s row, database.serviceShared.get s = some row →
    Unauthorised database s ∨ Authorised database s
  openRefers : ∀ v, database.serviceOpen.Occurs OpenService.service v →
    Refers v database.serviceActive
  closedRefers : ∀ v, database.serviceClosed.Occurs ClosedService.service v →
    Refers v database.serviceActive

/-- What a run keeps: requests and authorised data are of services, too. -/
structure Consistent (database : Database) : Prop extends Partition database where
  requestRefers : ∀ v, database.serviceUnauthorised.Occurs UnauthorisedService.service v →
    Refers v database.serviceShared
  activeRefers : ∀ v, database.serviceActive.Occurs ActiveService.service v →
    Refers v database.serviceShared

theorem Refers.insert {α : Type} {t t' : Table α} {v : Value} {row : α} {new : Int}
    (h : Refers v t) (hinsert : t.insert row = some (new, t')) : Refers v t' := by
  obtain ⟨id, found, rfl, hget⟩ := h
  rw [Refers]
  by_cases hid : id = new
  · exact ⟨id, row, rfl, by rw [Table.get_insert hinsert, if_pos hid]⟩
  · exact ⟨id, found, rfl, by rw [Table.get_insert hinsert, if_neg hid, hget]⟩

theorem refers_new {α : Type} {t t' : Table α} {row : α} {new : Int}
    (hinsert : t.insert row = some (new, t')) : Refers (.int new) t' :=
  ⟨new, row, rfl, by rw [Table.get_insert hinsert, if_pos rfl]⟩

/-- Nothing refers to the rowid that comes next. -/
theorem not_refers_new {α : Type} {t t' : Table α} {row : α} {new : Int}
    (hinsert : t.insert row = some (new, t')) : ¬ Refers (.int new) t := by
  rintro ⟨id, found, heq, hget⟩
  obtain rfl := Value.int.inj heq
  rw [Table.insert_id hinsert, t.get_nextId] at hget
  cases hget

section Steps

variable {database : Database}

/-! ## One step -/

theorem Consistent.request (h : Consistent database) {row : ServiceShared} {id other : Int}
    {serviceShared : Table ServiceShared} {serviceUnauthorised : Table UnauthorisedService}
    (hshared : database.serviceShared.insert row = some (id, serviceShared))
    (hrequest : database.serviceUnauthorised.insert { service := .int id } =
      some (other, serviceUnauthorised)) :
    Consistent { database with serviceShared, serviceUnauthorised } := by
  have hnew := not_refers_new hshared
  -- The new ID is in no column yet.
  have hunused : ¬ database.serviceUnauthorised.Occurs UnauthorisedService.service (.int id) :=
    fun hoccurs => hnew (h.requestRefers _ hoccurs)
  have hinactive : ¬ database.serviceActive.Occurs ActiveService.service (.int id) :=
    fun hoccurs => hnew (h.activeRefers _ hoccurs)
  refine { stage := ?_, openRefers := h.openRefers, closedRefers := h.closedRefers
           requestRefers := ?_, activeRefers := ?_ }
  · intro s found hget
    rw [Table.get_insert hshared] at hget
    by_cases hs : s = id
    · subst hs
      refine .inl ⟨⟨other, ?_, ?_⟩, hinactive⟩
      · exact (Table.holds_insert hrequest).mpr (.inr ⟨rfl, rfl⟩)
      · intro otherID hholds
        rcases (Table.holds_insert hrequest).mp hholds with hold | ⟨heq, -⟩
        · exact absurd hold.occurs hunused
        · exact heq
    · rw [if_neg hs] at hget
      have hne : Value.int id ≠ .int s := fun heq => hs (Value.int.inj heq).symm
      rcases h.stage s found hget with ⟨hone, hnone⟩ | ⟨hnone, hactive⟩
      · refine .inl ⟨?_, hnone⟩
        simpa only [Table.holds_insert hrequest, hne, and_false, or_false] using hone
      · refine .inr ⟨?_, hactive⟩
        simpa only [Table.occurs_insert hrequest, hne, or_false] using hnone
  · intro v hoccurs
    rcases (Table.occurs_insert hrequest).mp hoccurs with hold | rfl
    · exact (h.requestRefers v hold).insert hshared
    · exact refers_new hshared
  · intro v hoccurs
    exact (h.activeRefers v hoccurs).insert hshared

theorem Consistent.authorise (h : Consistent database) {s id other : Int} {row : ActiveService}
    {serviceActive : Table ActiveService} {serviceOpen : Table OpenService}
    (hrequest : database.serviceUnauthorised.Occurs UnauthorisedService.service (.int s))
    (hrow : row.service = .int s)
    (hactive : database.serviceActive.insert row = some (id, serviceActive))
    (hopen : database.serviceOpen.insert { service := .int id } = some (other, serviceOpen)) :
    Consistent { withoutRequest database (.int s) with serviceActive, serviceOpen } := by
  have hnew := not_refers_new hactive
  have hnotOpen : ¬ database.serviceOpen.Occurs OpenService.service (.int id) :=
    fun hoccurs => hnew (h.openRefers _ hoccurs)
  have hnotClosed : ¬ database.serviceClosed.Occurs ClosedService.service (.int id) :=
    fun hoccurs => hnew (h.closedRefers _ hoccurs)
  refine { stage := ?_, openRefers := ?_, closedRefers := ?_, requestRefers := ?_
           activeRefers := ?_ }
  · intro t found hget
    by_cases ht : t = s
    · subst ht
      -- The service had a request, so it had no authorised data.
      have hinactive : ¬ database.serviceActive.Occurs ActiveService.service (.int t) := by
        rcases h.stage t found hget with ⟨-, hnone⟩ | ⟨hnone, -⟩
        · exact hnone
        · exact absurd hrequest hnone
      have honly : ∀ a, serviceActive.Holds ActiveService.service a (.int t) ↔ a = id := by
        intro a
        rw [Table.holds_insert hactive, hrow]
        constructor
        · rintro (hold | ⟨heq, -⟩)
          · exact absurd hold.occurs hinactive
          · exact heq
        · exact fun heq => .inr ⟨heq, rfl⟩
      refine .inr ⟨?_, ⟨id, (honly id).mpr rfl, fun a ha => (honly a).mp ha⟩, ?_⟩
      · simp [withoutRequest, Table.occurs_delete]
      · intro a ha
        obtain rfl := (honly a).mp ha
        refine .inl ⟨?_, hnotClosed⟩
        exact (Table.occurs_insert hopen).mpr (.inr rfl)
    · have hne : (Value.int t) ≠ .int s := fun heq => ht (Value.int.inj heq)
      have hne' : row.service ≠ .int t := by
        rw [hrow]
        exact hne.symm
      rcases h.stage t found hget with ⟨hone, hnone⟩ | ⟨hnone, hone, hxor⟩
      · refine .inl ⟨?_, ?_⟩
        · simpa only [withoutRequest, Table.holds_delete, ne_eq, hne, not_false_eq_true, and_true]
            using hone
        · simpa only [Table.occurs_insert hactive, hne', or_false] using hnone
      · refine .inr ⟨?_, ?_, ?_⟩
        · simpa only [withoutRequest, Table.occurs_delete, ne_eq, hne, not_false_eq_true, and_true]
            using hnone
        · simpa only [Table.holds_insert hactive, hne', and_false, or_false] using hone
        · intro a ha
          have hold : database.serviceActive.Holds ActiveService.service a (.int t) := by
            simpa only [Table.holds_insert hactive, hne', and_false, or_false] using ha
          have hid : Value.int id ≠ .int a := by
            intro heq
            obtain ⟨found, hfound, -⟩ := hold
            exact hnew ⟨a, found, heq, hfound⟩
          simpa only [Table.occurs_insert hopen, hid, or_false, withoutRequest] using hxor a hold
  · intro v hoccurs
    rcases (Table.occurs_insert hopen).mp hoccurs with hold | rfl
    · exact (h.openRefers v hold).insert hactive
    · exact refers_new hactive
  · intro v hoccurs
    exact (h.closedRefers v hoccurs).insert hactive
  · intro v hoccurs
    exact h.requestRefers v (Table.occurs_delete.mp hoccurs).1
  · intro v hoccurs
    rcases (Table.occurs_insert hactive).mp hoccurs with hold | hv
    · exact h.activeRefers v hold
    · rw [← hv, hrow]
      exact h.requestRefers _ hrequest

theorem Consistent.close (h : Consistent database) {v : Value} {row : ClosedService} {id : Int}
    {serviceClosed : Table ClosedService}
    (hopen : database.serviceOpen.Occurs OpenService.service v)
    (hrow : row.service = v)
    (hclosed : database.serviceClosed.insert row = some (id, serviceClosed)) :
    Consistent { database with
      serviceClosed
      serviceOpen := database.serviceOpen.delete fun _ row => row.service == v } := by
  refine { stage := ?_, openRefers := ?_, closedRefers := ?_, requestRefers := h.requestRefers
           activeRefers := h.activeRefers }
  · intro s found hget
    rcases h.stage s found hget with hrequest | ⟨hnone, hone, hxor⟩
    · exact .inl hrequest
    · refine .inr ⟨hnone, hone, ?_⟩
      intro a ha
      simp only [Table.occurs_insert hclosed, Table.occurs_delete, hrow]
      by_cases hv : v = .int a
      · refine .inr ⟨.inr hv, ?_⟩
        rintro ⟨-, hne⟩
        exact hne hv.symm
      · rcases hxor a ha with ⟨hopened, hnot⟩ | ⟨hclosed, hnot⟩
        · exact .inl ⟨⟨hopened, Ne.symm hv⟩, by simp [hnot, hv]⟩
        · exact .inr ⟨.inl hclosed, fun hboth => hnot hboth.1⟩
  · intro w hoccurs
    exact h.openRefers w (Table.occurs_delete.mp hoccurs).1
  · intro w hoccurs
    rcases (Table.occurs_insert hclosed).mp hoccurs with hold | hw
    · exact h.closedRefers w hold
    · rw [← hw, hrow]
      exact h.openRefers v hopen

theorem Consistent.update (h : Consistent database) {selected : Int → ActiveService → Bool}
    {f : Int → ActiveService → ActiveService} (hf : ∀ id row, (f id row).service = row.service) :
    Consistent { database with serviceActive := database.serviceActive.update selected f } := by
  have hrefers : ∀ v, Refers v database.serviceActive →
      Refers v (database.serviceActive.update selected f) := by
    rintro v ⟨id, row, rfl, hget⟩
    exact ⟨id, _, rfl, by rw [Table.get_update, hget]; rfl⟩
  refine { stage := ?_, openRefers := fun v hv => hrefers v (h.openRefers v hv)
           closedRefers := fun v hv => hrefers v (h.closedRefers v hv)
           requestRefers := h.requestRefers, activeRefers := ?_ }
  · intro s found hget
    simpa only [Unauthorised, Authorised, Table.holds_update hf, Table.occurs_update hf]
      using h.stage s found hget
  · intro v hoccurs
    exact h.activeRefers v ((Table.occurs_update hf).mp hoccurs)

end Steps

/-! ## Runs -/

inductive ServiceAction where
  | createRequest (req : Request) (b : Body) (date : Text)
  | authoriseRequest (req : Request) (b : Body)
  | updateService (req : Request) (b : Body)
  | closeService (req : Request) (b : Body) (date : Text)
  /-- Anything that leaves the service tables alone, and the server like this
  otherwise. -/
  | other (server : Server)

/-- The service tables of one database and the rest of another. -/
def Database.withServices (database services : Database) : Database :=
  { database with
    serviceShared := services.serviceShared
    serviceUnauthorised := services.serviceUnauthorised
    serviceActive := services.serviceActive
    serviceOpen := services.serviceOpen
    serviceClosed := services.serviceClosed }

theorem consistent_withServices {database services : Database} :
    Consistent (database.withServices services) ↔ Consistent services :=
  ⟨fun h => { stage := h.stage, openRefers := h.openRefers, closedRefers := h.closedRefers
              requestRefers := h.requestRefers, activeRefers := h.activeRefers },
    fun h => { stage := h.stage, openRefers := h.openRefers, closedRefers := h.closedRefers
               requestRefers := h.requestRefers, activeRefers := h.activeRefers }⟩

section Runs

variable (p : Platform)

def serviceStep (server : Server) : ServiceAction → Server
  | .createRequest req b date => (createRequest p server req b date).1
  | .authoriseRequest req b => (authoriseRequest p server req b).1
  | .updateService req b => (updateService p server req b).1
  | .closeService req b date => (closeService p server req b date).1
  | .other after => after.withDatabase (after.database.withServices server.database)

/-- No statement fails for want of a rowid. -/
def ServicesRoomy (database : Database) : Prop :=
  Roomy database.serviceUnauthorised ∧ Roomy database.serviceActive ∧
    Roomy database.serviceOpen ∧ Roomy database.serviceClosed

/-- An authorisation that goes ahead has a quote, the values of an update stay
inside their quotes, and a closing that goes ahead is one of an open service, or
of a closed one, which the table refuses. -/
def serviceAllowed (server : Server) : ServiceAction → Prop
  | .authoriseRequest req b => ∀ key user, AuthoriseAccepted p server req b key user →
    b.hasElementOrEmpty Field.quote = true
  | .updateService _ b => wellQuoted b serviceRelations = true
  | .closeService req b _ => ∀ key paid user, CloseAccepted server req b key paid user →
    server.database.serviceClosed.Occurs ClosedService.service (p.numeric key) ∨
      server.database.serviceOpen.Occurs OpenService.service (p.numeric key)
  | _ => True

/-- A run from empty service tables, with any other tables and any sessions. -/
def ServiceRun (database : Database) (sessions : Sessions) :
    List ServiceAction → Server → Prop :=
  Run (serviceStep p)
    (fun server action => ServicesRoomy server.database ∧ serviceAllowed p server action)
    { database := database.withServices {}, sessions }

end Runs

section Runs

variable {p : Platform} {server : Server}

theorem consistent_empty (database : Database) : Consistent (database.withServices {}) := by
  refine consistent_withServices.mpr
    { stage := ?_, openRefers := ?_, closedRefers := ?_, requestRefers := ?_, activeRefers := ?_ }
  · intro s row hget
    simp at hget
  all_goals
    intro v hoccurs
    exact absurd hoccurs Table.not_occurs_empty

theorem Consistent.createRequest (h : Consistent server.database)
    (hroom : ServicesRoomy server.database) (req : Request) (b : Body) (date : Text) :
    Consistent (createRequest p server req b date).1.database := by
  rcases createRequest_cases (p := p) server req b date with hsame | ⟨-, id, serviceShared,
    hshared, ⟨other, serviceUnauthorised, hunique, hresult⟩ | ⟨hunique, -⟩⟩
  · rw [hsame]
    exact h
  · rw [hresult]
    exact h.request hshared (insertUnique_eq_some hunique).1
  · -- The new ID is in no request, so the second statement does not fail.
    have hnot : ¬ server.database.serviceUnauthorised.Occurs UnauthorisedService.service
        (.int id) := fun hoccurs => not_refers_new hshared (h.requestRefers _ hoccurs)
    obtain ⟨t, hsome⟩ : ∃ t, insertUnique server.database.serviceUnauthorised
        UnauthorisedService.service { service := .int id } = some (_, t) :=
      insertUnique_isSome hroom.1 hnot
    rw [hunique] at hsome
    cases hsome

/-- The row that an accepted authorisation finds. -/
theorem AuthoriseAccepted.occurs {req : Request} {b : Body} {key : Text} {user : Nat}
    (h : AuthoriseAccepted p server req b key user) :
    server.database.serviceUnauthorised.Occurs UnauthorisedService.service (p.numeric key) := by
  obtain ⟨⟨id, row⟩, hselect⟩ := h.found
  have hmem : (id, row) ∈ server.database.serviceUnauthorised.select
      fun _ row => row.service == p.numeric key := by simp [hselect]
  obtain ⟨hget, hservice⟩ := server.database.serviceUnauthorised.mem_select.mp hmem
  exact ⟨id, row, hget, by simpa using hservice⟩

theorem Consistent.authoriseRequest (h : Consistent server.database)
    (hroom : ServicesRoomy server.database) {req : Request} {b : Body}
    (hallowed : ∀ key user, AuthoriseAccepted p server req b key user →
      b.hasElementOrEmpty Field.quote = true) :
    Consistent (authoriseRequest p server req b).1.database := by
  rcases authoriseRequest_cases (p := p) server req b with
    ⟨hsame, -⟩ | ⟨key, user, haccepted, ⟨hquote, -⟩ | ⟨quote, -, hresult⟩⟩
  · rw [hsame]
    exact h
  · have hhas := hallowed key user haccepted
    simp only [QueryBase.getElement] at hquote
    simp [QueryBase.hasElementOrEmpty, hquote] at hhas
  · obtain ⟨s, row, hkey, -⟩ := h.requestRefers _ haccepted.occurs
    have hnotOpen : ¬ server.database.serviceOpen.Occurs OpenService.service
        (.int server.database.serviceActive.nextId) := by
      intro hoccurs
      obtain ⟨a, found, heq, hget⟩ := h.openRefers _ hoccurs
      rw [← Value.int.inj heq, Table.get_nextId] at hget
      cases hget
    obtain ⟨id, serviceActive, other, serviceOpen, hactive, hopen, hopened⟩ :=
      openService_eq (withoutRequest server.database (p.numeric key))
        (newActive p b key quote user) hroom.2.1 hroom.2.2.1 hnotOpen
    rw [hresult, Server.withDatabase_database, hopened]
    have hoccurs := haccepted.occurs
    rw [hkey] at hoccurs ⊢
    exact h.authorise hoccurs (hkey ▸ rfl) hactive hopen

theorem Consistent.closeService (h : Consistent server.database) {req : Request} {b : Body}
    (hallowed : ∀ key paid user, CloseAccepted server req b key paid user →
      server.database.serviceClosed.Occurs ClosedService.service (p.numeric key) ∨
        server.database.serviceOpen.Occurs OpenService.service (p.numeric key)) (date : Text) :
    Consistent (closeService p server req b date).1.database := by
  rcases closeService_cases (p := p) server req b date with
    ⟨hsame, -⟩ | ⟨key, paid, user, haccepted, id, serviceClosed, hunique, hresult⟩
  · rw [hsame]
    exact h
  · obtain ⟨hinsert, hnot⟩ := insertUnique_eq_some hunique
    rcases hallowed key paid user haccepted with hclosed | hopen
    · exact absurd hclosed hnot
    · rw [hresult]
      exact h.close hopen rfl hinsert

theorem Consistent.step (h : Consistent server.database) {action : ServiceAction}
    (hroom : ServicesRoomy server.database) (hallowed : serviceAllowed p server action) :
    Consistent (serviceStep p server action).database := by
  cases action with
  | createRequest req b date => exact h.createRequest hroom req b date
  | authoriseRequest req b => exact h.authoriseRequest hroom hallowed
  | updateService req b =>
    rcases updateService_cases (p := p) server req b hallowed with hsame | hresult
    · simp only [serviceStep, hsame]
      exact h
    · simp only [serviceStep, hresult, Server.withDatabase_database]
      exact h.update fun _ _ => rfl
  | closeService req b date => exact h.closeService hallowed date
  | other after =>
    simp only [serviceStep, Server.withDatabase_database]
    exact consistent_withServices.mpr h

theorem ServiceRun.consistent {database : Database} {sessions : Sessions}
    {actions : List ServiceAction} (h : ServiceRun p database sessions actions server) :
    Consistent server.database :=
  Run.invariant (P := fun server => Consistent server.database) (consistent_empty database)
    (fun _ _ hconsistent hallowed => hconsistent.step hallowed.1 hallowed.2) h

/-! ## The two ways out -/

/-- A closing of what is neither open nor closed leaves a row for no service. -/
theorem not_partition_of_close (h : Consistent server.database)
    (hroom : ServicesRoomy server.database) {req : Request} {b : Body} {key paid : Text}
    {user : Nat} (haccepted : CloseAccepted server req b key paid user)
    (hclosed : ¬ server.database.serviceClosed.Occurs ClosedService.service (p.numeric key))
    (hopen : ¬ server.database.serviceOpen.Occurs OpenService.service (p.numeric key))
    (date : Text) : ¬ Partition (closeService p server req b date).1.database := by
  intro hpartition
  rcases closeService_cases (p := p) server req b date with
    ⟨-, hnone⟩ | ⟨key', paid', user', haccepted', id, serviceClosed, hunique, hresult⟩
  · obtain ⟨t, hsome⟩ : ∃ t, insertUnique server.database.serviceClosed ClosedService.service
        (newClosed p key paid date user) = some (_, t) :=
      insertUnique_isSome hroom.2.2.2 hclosed
    rw [hnone key paid user haccepted] at hsome
    cases hsome
  · obtain rfl : key' = key := haccepted'.named.symm.trans haccepted.named
    obtain ⟨hinsert, -⟩ := insertUnique_eq_some hunique
    rw [hresult] at hpartition
    obtain ⟨a, row, hkey, hget⟩ :=
      hpartition.closedRefers (p.numeric key') ((Table.occurs_insert hinsert).mpr (.inr rfl))
    simp only [Server.withDatabase_database] at hget
    -- The row it would be for has a service, which is open or closed.
    obtain ⟨s, found, hservice, hshared⟩ := h.activeRefers row.service ⟨a, row, hget, rfl⟩
    have hholds : server.database.serviceActive.Holds ActiveService.service a (.int s) :=
      ⟨row, hget, hservice⟩
    rw [hkey] at hclosed hopen
    rcases h.stage s found hshared with ⟨-, hnone⟩ | ⟨-, -, hxor⟩
    · exact hnone hholds.occurs
    · rcases hxor a hholds with ⟨hin, -⟩ | ⟨hin, -⟩
      · exact hopen hin
      · exact hclosed hin

/-- An authorisation without a quote leaves a service in no stage. -/
theorem not_partition_of_authorise (h : Consistent server.database) {req : Request} {b : Body}
    {key : Text} {user : Nat} (haccepted : AuthoriseAccepted p server req b key user)
    (hquote : b.hasElementOrEmpty Field.quote = false) :
    ¬ Partition (authoriseRequest p server req b).1.database := by
  intro hpartition
  rcases authoriseRequest_cases (p := p) server req b with
    ⟨-, hnot⟩ | ⟨key', user', haccepted', ⟨-, hresult⟩ | ⟨quote, hsome, -⟩⟩
  · exact hnot key user haccepted
  · obtain ⟨s, row, hkey, hget⟩ := h.requestRefers _ haccepted'.occurs
    have hrequest := haccepted'.occurs
    rw [hresult, Server.withDatabase_database, hkey] at hpartition
    rw [hkey] at hrequest
    have hgone : ¬ (withoutRequest server.database (.int s)).serviceUnauthorised.Occurs
        UnauthorisedService.service (.int s) := by
      simp [withoutRequest, Table.occurs_delete]
    have hinactive : ¬ server.database.serviceActive.Occurs ActiveService.service (.int s) := by
      rcases h.stage s row hget with ⟨-, hnone⟩ | ⟨hnone, -⟩
      · exact hnone
      · exact absurd hrequest hnone
    rcases hpartition.stage s row hget with ⟨⟨id, hholds, -⟩, -⟩ | ⟨-, ⟨a, hholds, -⟩, -⟩
    · exact hgone hholds.occurs
    · exact hinactive hholds.occurs
  · simp only [QueryBase.getElement] at hsome
    simp [QueryBase.hasElementOrEmpty, hsome] at hquote

/-- In every state of every run in which each accepted authorisation has a quote,
each accepted closing is of an open or a closed service and updates stay inside
their quotes, every service is in exactly one stage. The two conditions cannot be
dropped: a step that breaks one breaks the partition. -/
theorem services_partitioned {database : Database} {sessions : Sessions}
    {actions : List ServiceAction} (h : ServiceRun p database sessions actions server) :
    Partition server.database ∧
    (ServicesRoomy server.database → ∀ req b date key paid user,
      CloseAccepted server req b key paid user →
      ¬ server.database.serviceClosed.Occurs ClosedService.service (p.numeric key) →
      ¬ server.database.serviceOpen.Occurs OpenService.service (p.numeric key) →
      ¬ Partition (closeService p server req b date).1.database) ∧
    (∀ req b key user, AuthoriseAccepted p server req b key user →
      b.hasElementOrEmpty Field.quote = false →
      ¬ Partition (authoriseRequest p server req b).1.database) := by
  have hconsistent := h.consistent
  refine ⟨hconsistent.toPartition, ?_, ?_⟩
  · intro hroom req b date key paid user haccepted hclosed hopen
    exact not_partition_of_close hconsistent hroom haccepted hclosed hopen date
  · intro req b key user haccepted hquote
    exact not_partition_of_authorise hconsistent haccepted hquote

end Runs

/-! ## A service that is closed before it is open -/

def today : Text := ("2021-05-01" : Text)

/-- A manager's request for a service. -/
def requestedServer : Server :=
  serviceStep .integers { database := Database.withServices {} {}, sessions := managerSessions }
    (.createRequest managerRequest
      (.ofList [(Field.vid, ("1" : Text)), (Field.request, ("brakes" : Text))]) today)

theorem requestedServer_run : ServiceRun .integers {} managerSessions
    [.createRequest managerRequest
      (.ofList [(Field.vid, ("1" : Text)), (Field.request, ("brakes" : Text))]) today]
    requestedServer :=
  Run.snoc Run.nil ⟨⟨by unfold Roomy; decide, by unfold Roomy; decide, by unfold Roomy; decide,
    by unfold Roomy; decide⟩, trivial⟩

/-- The service is closed while it is unauthorised: the row refers to nothing. -/
theorem closed_too_early :
    ServiceRun .integers {} managerSessions
      [.createRequest managerRequest
        (.ofList [(Field.vid, ("1" : Text)), (Field.request, ("brakes" : Text))]) today]
      requestedServer ∧
    ¬ Partition (serviceStep .integers requestedServer (.closeService managerRequest
      (.ofList [(Field.id, ("1" : Text)), (Field.paid, ("0" : Text))]) today)).database := by
  refine ⟨requestedServer_run, ?_⟩
  intro hpartition
  have hholds : (serviceStep .integers requestedServer (.closeService managerRequest
      (.ofList [(Field.id, ("1" : Text)), (Field.paid, ("0" : Text))])
      today)).database.serviceClosed.Holds ClosedService.service 1 (.int 1) :=
    ⟨newClosed .integers ("1" : Text) ("0" : Text) today 1, by decide +kernel, by decide +kernel⟩
  obtain ⟨a, row, heq, hget⟩ := hpartition.closedRefers _ hholds.occurs
  obtain rfl := Value.int.inj heq
  have hnone : (serviceStep .integers requestedServer (.closeService managerRequest
      (.ofList [(Field.id, ("1" : Text)), (Field.paid, ("0" : Text))])
      today)).database.serviceActive.get 1 = none := by decide +kernel
  rw [hnone] at hget
  cases hget

def authoriseFirst : ServiceAction :=
  .authoriseRequest managerRequest
    (.ofList [(Field.id, ("1" : Text)), (Field.quote, ("100" : Text))])

def closeFirst : ServiceAction :=
  .closeService managerRequest (.ofList [(Field.id, ("1" : Text)), (Field.paid, ("90" : Text))]) today

/-- The request is authorised, and the service closed. -/
def authorisedServer : Server := serviceStep .integers requestedServer authoriseFirst

def closedServer : Server := serviceStep .integers authorisedServer closeFirst

theorem closedServer_run : ServiceRun .integers {} managerSessions
    [.createRequest managerRequest
      (.ofList [(Field.vid, ("1" : Text)), (Field.request, ("brakes" : Text))]) today,
      authoriseFirst, closeFirst] closedServer := by
  refine Run.snoc (Run.snoc requestedServer_run ⟨⟨?_, ?_, ?_, ?_⟩, ?_⟩) ⟨⟨?_, ?_, ?_, ?_⟩, ?_⟩
  case refine_5 =>
    intro key user _
    rfl
  case refine_10 =>
    rintro key paid user haccepted
    obtain rfl : ("1" : Text) = key := haccepted.named
    exact .inr ⟨1, { service := .int 1 }, by decide +kernel, by decide +kernel⟩
  all_goals
    unfold Roomy
    decide +kernel

theorem services_partitioned_requested :
    closedServer.database.serviceClosed.Holds ClosedService.service 1 (.int 1) ∧
      Partition closedServer.database :=
  ⟨⟨newClosed .integers ("1" : Text) ("90" : Text) today 1, by decide +kernel, by decide +kernel⟩,
    (services_partitioned closedServer_run).1⟩

end WFA
