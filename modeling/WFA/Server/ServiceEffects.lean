-- SUMMARY: What the service routes can do to the database: one inversion lemma for each of them.
import WFA.Base.Column
import WFA.Server.Services

/-!
# The effects of the service routes

Each lemma says everything its handler can do to the database, with the checks
that were passed on the way.
-/

namespace WFA

open Text

/-! ## Unique columns -/

section Unique

variable {α : Type} {t t' : Table α} {column : α → Value} {row : α} {id : Int}

theorem insertUnique_eq_some (h : insertUnique t column row = some (id, t')) :
    t.insert row = some (id, t') ∧ ¬ t.Occurs column (column row) := by
  unfold insertUnique at h
  split at h
  · rename_i hunused
    refine ⟨h, ?_⟩
    rintro ⟨other, found, hget, heq⟩
    have hne : other ≠ t.nextId := by
      rintro rfl
      simp [t.get_nextId] at hget
    have hmem : (other, found) ∈ t.select
        fun other found => other != t.nextId && column found == column row :=
      t.mem_select.mpr ⟨hget, by simp [hne, heq]⟩
    rw [List.isEmpty_iff.mp hunused] at hmem
    simp at hmem
  · simp at h

/-- A table that has a rowid left. -/
def Roomy (t : Table α) : Prop :=
  t.nextId < 2 ^ 63

theorem roomy_of_insert (h : t.insert row = some (id, t')) : Roomy t := by
  unfold Table.insert at h
  split at h
  · rename_i hroom
    exact hroom
  · cases h

theorem insert_isSome (h : Roomy t) (row : α) : ∃ t', t.insert row = some (t.nextId, t') := by
  unfold Roomy at h
  unfold Table.insert
  rw [dif_pos h]
  exact ⟨_, rfl⟩

theorem insertUnique_isSome (hroom : Roomy t) (hnot : ¬ t.Occurs column (column row)) :
    ∃ t', insertUnique t column row = some (t.nextId, t') := by
  unfold insertUnique
  rw [if_pos]
  · exact insert_isSome hroom row
  · refine List.isEmpty_iff.mpr (t.select_eq_nil ?_)
    intro other found hget
    simp only [Bool.and_eq_false_iff, beq_eq_false_iff_ne]
    exact .inr fun heq => hnot ⟨other, found, hget, heq⟩

end Unique

section Effects

variable {p : Platform}

/-! ## Requesting -/

/-- The server with another database. -/
def Server.withDatabase (server : Server) (database : Database) : Server :=
  { server with database }

@[simp] theorem Server.withDatabase_database (server : Server) (database : Database) :
    (server.withDatabase database).database = database := rfl

@[simp] theorem Server.withDatabase_sessions (server : Server) (database : Database) :
    (server.withDatabase database).sessions = server.sessions := rfl

/-- The checks `createRequest` makes before its statements. -/
structure RequestAccepted (p : Platform) (server : Server) (req : Request) (b : Body) : Prop where
  fields : b.containsAll [Field.vid, Field.request] = true
  allowed : refusedRequest p server req b = none

theorem createRequest_cases (server : Server) (req : Request) (b : Body) (date : Text) :
    (createRequest p server req b date).1 = server ∨
    RequestAccepted p server req b ∧ ∃ id serviceShared,
      server.database.serviceShared.insert (newService p b date) = some (id, serviceShared) ∧
      ((∃ other serviceUnauthorised,
        insertUnique server.database.serviceUnauthorised UnauthorisedService.service
          { service := .int id } = some (other, serviceUnauthorised) ∧
        createRequest p server req b date = (server.withDatabase
          { server.database with serviceShared, serviceUnauthorised }, .reply .ok none)) ∨
      (insertUnique server.database.serviceUnauthorised UnauthorisedService.service
          { service := .int id } = none ∧
        createRequest p server req b date = (server.withDatabase
          { server.database with serviceShared }, .reply .internalError none))) := by
  unfold createRequest
  split
  · exact .inl rfl
  · rename_i hfields
    cases hrefused : refusedRequest p server req b with
    | some ending => exact .inl rfl
    | none =>
      cases hinsert : server.database.serviceShared.insert (newService p b date) with
      | none => exact .inl rfl
      | some inserted =>
        obtain ⟨id, serviceShared⟩ := inserted
        refine .inr ⟨⟨by simpa using hfields, hrefused⟩, id, serviceShared, rfl, ?_⟩
        simp only
        cases hunique : insertUnique server.database.serviceUnauthorised
            UnauthorisedService.service { service := .int id } with
        | none => exact .inr ⟨rfl, rfl⟩
        | some inserted => exact .inl ⟨inserted.1, inserted.2, rfl, rfl⟩

/-! ## Authorising -/

/-- The checks `authoriseRequest` makes before its statements. -/
structure AuthoriseAccepted (p : Platform) (server : Server) (req : Request) (b : Body)
    (key : Text) (user : Nat) : Prop where
  fields : (!b.hasElement Field.id && !b.hasElement Field.quote) = false
  manager : server.sessions.verify req AuthLevel.manager = true
  named : b.getElement Field.id = some key
  actor : server.sessions.getSessionUser req = some user
  found : ∃ row, (server.database.serviceUnauthorised.select fun _ row =>
    row.service == p.numeric key) = [row]

/-- The database without the requests for a service. -/
def withoutRequest (database : Database) (service : Value) : Database :=
  { database with
    serviceUnauthorised := database.serviceUnauthorised.delete fun _ row => row.service == service }

theorem user_of_verify {sessions : Sessions} {req : Request} {level : AuthLevel}
    (h : sessions.verify req level = true) : ∃ user, sessions.getSessionUser req = some user := by
  unfold Sessions.verify at h
  unfold Sessions.getSessionUser
  cases hcurrent : sessions.current req with
  | none => simp [hcurrent] at h
  | some session => exact ⟨session.userID, rfl⟩

theorem authoriseRequest_cases (server : Server) (req : Request) (b : Body) :
    (authoriseRequest p server req b).1 = server ∧
      (∀ key user, ¬ AuthoriseAccepted p server req b key user) ∨
    ∃ key user, AuthoriseAccepted p server req b key user ∧
      ((b.getElement Field.quote = none ∧ authoriseRequest p server req b =
        (server.withDatabase (withoutRequest server.database (p.numeric key)), .exception)) ∨
      ∃ quote, b.getElement Field.quote = some quote ∧ authoriseRequest p server req b =
        (server.withDatabase (openService (withoutRequest server.database (p.numeric key))
          (newActive p b key quote user)).1,
        (openService (withoutRequest server.database (p.numeric key))
          (newActive p b key quote user)).2)) := by
  unfold authoriseRequest
  split
  · rename_i hfields
    exact .inl ⟨rfl, fun key user haccepted => by simp [haccepted.fields] at hfields⟩
  · rename_i hfields
    split
    · rename_i hmanager
      exact .inl ⟨rfl, fun key user haccepted => by simp [haccepted.manager] at hmanager⟩
    · rename_i hmanager
      cases hkey : b.getElement Field.id with
      | none => exact .inl ⟨rfl, fun key user haccepted => by simp [haccepted.named] at hkey⟩
      | some key =>
        simp only
        split
        · rename_i row hfound
          have hmanager : server.sessions.verify req AuthLevel.manager = true := by
            simpa using hmanager
          obtain ⟨user, huser⟩ := user_of_verify hmanager
          refine .inr ⟨key, user, ⟨by simpa using hfields, hmanager, hkey, huser, row, hfound⟩, ?_⟩
          rw [huser]
          cases hquote : b.getElement Field.quote with
          | none => exact .inl ⟨rfl, rfl⟩
          | some quote => exact .inr ⟨quote, rfl, rfl⟩
        · rename_i hfound
          refine .inl ⟨rfl, ?_⟩
          intro other user haccepted
          obtain rfl : key = other := Option.some.inj (hkey.symm.trans haccepted.named)
          obtain ⟨row, hrow⟩ := haccepted.found
          exact hfound row hrow

/-- The two inserts, when there is room for them. -/
theorem openService_eq (database : Database) (row : ActiveService)
    (hactive : Roomy database.serviceActive) (hopen : Roomy database.serviceOpen)
    (hnot : ¬ database.serviceOpen.Occurs OpenService.service (.int database.serviceActive.nextId)) :
    ∃ id serviceActive other serviceOpen,
      database.serviceActive.insert row = some (id, serviceActive) ∧
      database.serviceOpen.insert { service := .int id } = some (other, serviceOpen) ∧
      openService database row = ({ database with serviceActive, serviceOpen }, .reply .ok none) := by
  obtain ⟨serviceActive, hinsert⟩ := insert_isSome hactive row
  obtain ⟨serviceOpen, hunique⟩ : ∃ serviceOpen, insertUnique database.serviceOpen
      OpenService.service { service := .int database.serviceActive.nextId } =
        some (database.serviceOpen.nextId, serviceOpen) :=
    insertUnique_isSome hopen hnot
  refine ⟨database.serviceActive.nextId, serviceActive, database.serviceOpen.nextId, serviceOpen,
    hinsert, (insertUnique_eq_some hunique).1, ?_⟩
  unfold openService
  rw [hinsert]
  simp only [hunique]

/-! ## Updating -/

theorem updateService_cases (server : Server) (req : Request) (b : Body)
    (hquoted : wellQuoted b serviceRelations = true) :
    (updateService p server req b).1 = server ∨
    updateService p server req b = (server.withDatabase { server.database with
      serviceActive := server.database.serviceActive.update
        (fun id _ => p.isId id ((b.getElement Field.id).getD [])) (updatedService p b) },
      .reply .ok none) := by
  unfold updateService
  split
  · exact .inl rfl
  · split
    · exact .inl rfl
    · split
      · exact .inl rfl
      · refine .inr ?_
        unfold updateServices
        simp [hquoted, Server.withDatabase]

/-! ## Closing -/

/-- The checks `closeService` makes before its statements. -/
structure CloseAccepted (server : Server) (req : Request) (b : Body) (key paid : Text)
    (user : Nat) : Prop where
  has : b.hasElement Field.id = true
  named : (b.getElement Field.id).getD [] = key
  manager : server.sessions.verify req AuthLevel.manager = true
  actor : server.sessions.getSessionUser req = some user
  price : b.getElement Field.paid = some paid

theorem closeService_cases (server : Server) (req : Request) (b : Body) (date : Text) :
    (closeService p server req b date).1 = server ∧
      (∀ key paid user, CloseAccepted server req b key paid user →
        insertUnique server.database.serviceClosed ClosedService.service
          (newClosed p key paid date user) = none) ∨
    ∃ key paid user, CloseAccepted server req b key paid user ∧ ∃ id serviceClosed,
      insertUnique server.database.serviceClosed ClosedService.service
        (newClosed p key paid date user) = some (id, serviceClosed) ∧
      closeService p server req b date = (server.withDatabase { server.database with
        serviceClosed
        serviceOpen := server.database.serviceOpen.delete
          fun _ row => row.service == p.numeric key }, .reply .ok none) := by
  unfold closeService
  split
  · rename_i hhas
    exact .inl ⟨rfl, fun key paid user haccepted => by simp [haccepted.has] at hhas⟩
  · rename_i hhas
    split
    · rename_i hmanager
      exact .inl ⟨rfl, fun key paid user haccepted => by simp [haccepted.manager] at hmanager⟩
    · rename_i hmanager
      simp only
      split
      · rename_i user paid huser hpaid
        have haccepted : CloseAccepted server req b ((b.getElement Field.id).getD []) paid user :=
          ⟨by simpa using hhas, rfl, by simpa using hmanager, huser, hpaid⟩
        cases hinsert : insertUnique server.database.serviceClosed ClosedService.service
            (newClosed p ((b.getElement Field.id).getD []) paid date user) with
        | none =>
          refine .inl ⟨rfl, ?_⟩
          rintro key paid' user' ⟨-, rfl, -, huser', hpaid'⟩
          obtain rfl := Option.some.inj (huser.symm.trans huser')
          obtain rfl := Option.some.inj (hpaid.symm.trans hpaid')
          exact hinsert
        | some inserted =>
          exact .inr ⟨_, paid, user, haccepted, inserted.1, inserted.2, hinsert, rfl⟩
      · rename_i hnot
        refine .inl ⟨rfl, ?_⟩
        intro key paid user haccepted
        exact absurd haccepted.price (hnot user paid haccepted.actor)

end Effects

end WFA
