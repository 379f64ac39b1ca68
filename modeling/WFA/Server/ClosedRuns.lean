-- SUMMARY: A closed service is frozen over every run that keeps away from the rows of its record.
import WFA.Base.Run
import WFA.Server.Routes
import WFA.Server.ClosedTotals

/-!
# Runs after a service was closed

Six routes can write rows that the record of a closed service is made of, and none
of them asks whether the service is closed. Each has a condition under which it
keeps away from the service, and one under which the answers that list it stay answers.
-/

namespace WFA

open Text

/-! ## Requests that leave a closed service alone -/

section Spares

variable (p : Platform) (s : Int) (q : Query) (server : Server) (req : Request) (b : Body)

/-- The update goes ahead on active data of another service, and inside its quotes. -/
def SparesOnUpdate : Prop :=
  b.hasElement Field.id = true → server.sessions.verify req AuthLevel.employee = true →
    generateUpdateStatement b serviceRelations ≠ [] → wellQuoted b serviceRelations = true ∧
      ∀ id active, server.database.serviceActive.get id = some active →
        active.service = .int s → p.isId id ((b.getElement Field.id).getD []) = false

/-- The quantity that `addPartToService` stores. -/
def addedQuantity : Value :=
  match rowsOf server.database (requestedPair p b) with
  | [] => p.numeric (quantityText b)
  | (_, row) :: _ => p.integerAffinity (p.plus row.quantity (quantityText b))

/-- Parts of another service, and what a listed one has of them reads. -/
structure SparesOnAdd : Prop where
  other : AddAccepted server req b → (requestedPair p b).1 ≠ usedService p s
  reads : AddAccepted server req b → TotalledValue p server.database q (requestedPair p b).1 →
    ∀ part, (requestedPair p b).2.row server.database.parts = some part →
      Reads p part.2.price (addedQuantity p server b)

structure SparesOnRemove : Prop where
  other : ∀ id row current n, RemoveAccepted p server req b id row current n →
    row.service ≠ usedService p s
  reads : ∀ id row current n, RemoveAccepted p server req b id row current n → n < current →
    TotalledValue p server.database q row.service →
    ∀ part, row.part.row server.database.parts = some part →
      Reads p part.2.price (p.integerAffinity (p.minus row.quantity (quantityText b)))

/-- The part is used in the service. -/
def UsedPart (database : Database) (part : Int) : Prop :=
  ∃ id row, database.partsInService.get id = some row ∧ row.service = usedService p s ∧
    row.part = .int part

/-- A part keeps its name and its price where the service has it, and has a price that
reads where a listed service has it. -/
structure SparesOnPartUpdate : Prop where
  kept : b.hasElement Field.id = true → server.sessions.verify req AuthLevel.manager = true →
    generateUpdateStatement b partRelations ≠ [] → wellQuoted b partRelations = true ∧
      ∀ part, UsedPart p s server.database part →
        p.isId part ((b.getElement Field.id).getD []) = true →
        assigned b Field.name = none ∧ assigned b Field.price = none
  reads : b.hasElement Field.id = true → server.sessions.verify req AuthLevel.manager = true →
    ∀ entry used part row, server.database.partsInService.get entry = some used →
      TotalledValue p server.database q used.service → used.part = .int part →
      server.database.parts.get part = some row →
      p.isId part ((b.getElement Field.id).getD []) = true →
      Reads p (updatedPart p b part row).price used.quantity

/-- The checks of `createPart`, the constraint on names included. -/
structure PartAccepted : Prop where
  fields : b.containsAll [Field.name, Field.quantity, Field.supplier, Field.price] = true
  manager : server.sessions.verify req AuthLevel.manager = true
  free : ¬ server.database.parts.Occurs Part.name (.text ((b.getElement Field.name).getD []))

/-- A new part gets an ID that the service does not refer to already, and has a price that
reads where a listed service does. -/
structure SparesOnPartCreate : Prop where
  other : PartAccepted server req b →
    ¬ UsedPart p s server.database server.database.parts.nextId
  reads : PartAccepted server req b →
    ∀ entry used, server.database.partsInService.get entry = some used →
      TotalledValue p server.database q used.service →
      used.part = .int server.database.parts.nextId →
      Reads p (newPart p b).price used.quantity

/-- New active data of the service gets an ID that no closed service has already, and a
service that is listed from then on has a total that reads. -/
structure SparesOnAuthorise : Prop where
  other : ∀ key user, AuthoriseAccepted p server req b key user →
    b.hasElementOrEmpty Field.quote = true → p.numeric key = .int s →
    ¬ server.database.serviceClosed.Occurs ClosedService.service
      (.int server.database.serviceActive.nextId)
  reads : ∀ key user shared, AuthoriseAccepted p server req b key user →
    b.hasElementOrEmpty Field.quote = true →
    sharedRow server.database (p.numeric key) = some shared →
    listedFor p q shared.owner = true →
    (q.hasElementOrEmpty Field.openServices = true ∧
        ((p.numeric (ofNat user)).row server.database.users).isSome = true ∨
      q.hasElementOrEmpty Field.closedServices = true ∧
        server.database.serviceClosed.Occurs ClosedService.service
          (.int server.database.serviceActive.nextId)) →
    TotalReads p server.database shared.id

/-- What a request has to keep away from, by its route: the rows that the record of the
service is made of, and the totals of the services that the query lists with it. -/
def Spares (call : Call) : Route → Prop
  | .serviceUpdate => SparesOnUpdate p s server call.req call.b
  | .servicePartAdd => SparesOnAdd p s q server call.req call.b
  | .servicePartRemove => SparesOnRemove p s q server call.req call.b
  | .partUpdate => SparesOnPartUpdate p s q server call.req call.b
  | .partCreate => SparesOnPartCreate p s q server call.req call.b
  | .serviceAuthorise => SparesOnAuthorise p s q server call.req call.b
  | _ => False

end Spares

section Steps

variable {p : Platform} {s : Int} {q : Query} {server : Server} {req : Request} {b : Body}
  {database database' database'' : Database}

/-- What a value refers to, in tables with the same rows. -/
theorem map_row_congr {α β : Type} {f : Int × α → β} {v : Value} {t t' : Table α}
    (h : ∀ id, v = .int id → ((t'.get id).map fun row => f (id, row)) =
      (t.get id).map fun row => f (id, row)) :
    (v.row t').map f = (v.row t).map f := by
  cases v with
  | int id => simpa [Value.row, Option.map_map, Function.comp_def] using h id rfl
  | _ => rfl

/-- The rowids of the parts in services are those that an insert gives. -/
def PartsPositive (database : Database) : Prop :=
  ∀ id row, database.partsInService.get id = some row → 0 < id

/-- What a step keeps: what is shown of the service, and that there is an answer. -/
structure Frozen (p : Platform) (s : Int) (q : Query) (database database' : Database) : Prop where
  shows : ShowsSame p s database database'
  answers : Answers p database q → Answers p database' q
  positive : PartsPositive database → PartsPositive database'

theorem Frozen.refl : Frozen p s q database database := ⟨.refl, id, id⟩

theorem Frozen.trans (h : Frozen p s q database database')
    (h' : Frozen p s q database' database'') : Frozen p s q database database'' :=
  ⟨h.shows.trans h'.shows, h'.answers ∘ h.answers, h'.positive ∘ h.positive⟩

/-! ## Active data -/

/-- Rows of `ACTIVESERVICEDATA` that are another service's before and after, and keep
their service and their authoriser. -/
theorem frozen_of_update {selected : Int → ActiveService → Bool}
    {change : Int → ActiveService → ActiveService}
    (hservice : ∀ id row, (change id row).service = row.service)
    (hauthoriser : ∀ id row, (change id row).authoriser = row.authoriser)
    (hother : ∀ id active, database.serviceActive.get id = some active →
      active.service = .int s → selected id active = false) :
    Frozen p s q database
      { database with serviceActive := database.serviceActive.update selected change } := by
  have hget : ∀ a active, (database.serviceActive.update selected change).get a = some active →
      ∃ old, database.serviceActive.get a = some old ∧ active.service = old.service ∧
        active.authoriser = old.authoriser ∧ (selected a old = false → active = old) := by
    intro a active hfound
    rw [Table.get_update] at hfound
    obtain ⟨old, hold, rfl⟩ := Option.map_eq_some_iff.mp hfound
    refine ⟨old, hold, ?_⟩
    cases hselected : selected a old with
    | true => exact ⟨hservice a old, hauthoriser a old, by simp⟩
    | false => simp
  refine ⟨⟨closedOf_congr rfl (fun _ => rfl) ?_, rfl⟩, fun h => ?_, id⟩
  · intro a active hactive _
    constructor
    · intro hfound
      obtain ⟨old, hold, hsame, -, hkept⟩ := hget a active hfound
      rwa [hkept (hother a old hold (hsame ▸ hactive))]
    · intro hfound
      rw [Table.get_update, hfound, Option.map_some, hother a active hfound hactive]
      rfl
  · refine h.listed rfl rfl fun a active shared hrow => ?_
    obtain ⟨old, hold, hsame, hwho, -⟩ := hget a active hrow.found
    have hjoined : sharedRow database old.service = some shared := hsame ▸ hrow.joined
    have hasked := hrow.asked
    rw [hwho] at hasked
    exact .inl ⟨a, old, shared, ⟨hold, hjoined, hrow.owner, hasked⟩, rfl⟩

theorem updateService_frozen (h : SparesOnUpdate p s server req b) :
    Frozen p s q server.database (updateService p server req b).1.database := by
  unfold updateService
  split
  · exact .refl
  · rename_i hhas
    split
    · exact .refl
    · rename_i hemployee
      split
      · exact .refl
      · rename_i hstatement
        obtain ⟨hquoted, hother⟩ := h (by simpa using hhas) (by simpa using hemployee)
          (by simpa using hstatement)
        simp only [updateServices, hquoted, Bool.not_true, Bool.false_eq_true, if_false]
        exact frozen_of_update (fun _ _ => rfl) (fun _ _ => rfl) hother

/-! ## Parts in services -/

/-- One row is written, neither the row before nor the one after is of the service, and
what the row has reads in the lists. -/
theorem frozen_of_writes {partsInService : Table PartInService} {id : Int}
    {written : Option PartInService}
    (hwrites : Table.Writes database.partsInService partsInService id written)
    (hbefore : ∀ row, database.partsInService.get id = some row → row.service ≠ usedService p s)
    (hafter : ∀ row, written = some row → row.service ≠ usedService p s)
    (hreads : ∀ row part, written = some row → TotalledValue p database q row.service →
      row.part.row database.parts = some part → Reads p part.2.price row.quantity)
    (hpositive : PartsPositive database → ∀ row, written = some row → 0 < id) :
    Frozen p s q database { database with partsInService } := by
  refine ⟨⟨rfl, shownParts_congr ?_ fun _ _ _ _ => rfl⟩,
    fun h => h.parts_written hwrites hreads, fun h => hwrites.forall h (hpositive h)⟩
  intro other row hrow
  exact hwrites.frame (fun hget => hbefore row hget hrow)
    (fun hwritten => hafter row hwritten hrow) other

theorem addPart_frozen (hlaw : p.Lawful) (hpositive : PartsPositive server.database)
    (h : SparesOnAdd p s q server req b) :
    Frozen p s q server.database (addPartToService p server req b).1.database := by
  obtain ⟨hunchanged, -⟩ |
    ⟨haccepted, ⟨hrows, id, partsInService, hinsert, hafter⟩ | ⟨id, row, rest, hrows, hafter⟩⟩ :=
    addPartToService_cases p server req b
  · rw [hunchanged]
    exact .refl
  · have hid := Table.insert_id hinsert
    have hquantity : addedQuantity p server b = p.numeric (quantityText b) := by
      rw [addedQuantity, hrows]
    rw [hafter]
    refine frozen_of_writes (Table.insert_writes hinsert) ?_ ?_ ?_ ?_
    · rw [hid, Table.get_nextId]
      rintro _ ⟨⟩
    · rintro _ ⟨⟩
      exact h.other haccepted
    · rintro _ part ⟨⟩ hlisted hpart
      exact hquantity ▸ h.reads haccepted hlisted part hpart
    · intro hids _ _
      exact hid ▸ Table.nextId_pos hids
  · have hmem : (id, row) ∈ rowsOf server.database (requestedPair p b) := by simp [hrows]
    obtain ⟨hrow, hpair⟩ := mem_rowsOf.mp hmem
    have hid := hpositive id row hrow
    have hkey := Platform.numeric_columnText hlaw hid (server.database.partsInService.get_lt hrow)
    have hpairService : row.service = (requestedPair p b).1 := congrArg Prod.fst hpair
    have hpairPart : row.part = (requestedPair p b).2 := congrArg Prod.snd hpair
    have hservice : row.service ≠ usedService p s := hpairService ▸ h.other haccepted
    have hquantity : addedQuantity p server b =
        p.integerAffinity (p.plus row.quantity (quantityText b)) := by
      rw [addedQuantity, hrows]
    rw [hafter]
    refine frozen_of_writes (p.update_isId hkey hrow fun _ row =>
      { row with quantity := p.integerAffinity (p.plus row.quantity (quantityText b)) })
      ?_ ?_ ?_ fun _ _ _ => hid
    · rw [hrow]
      rintro _ ⟨⟩
      exact hservice
    · rintro _ ⟨⟩
      exact hservice
    · rintro _ part ⟨⟩ hlisted hpart
      exact hquantity ▸ h.reads haccepted (hpairService ▸ hlisted) part (hpairPart ▸ hpart)

theorem removePart_frozen (h : SparesOnRemove p s q server req b) :
    Frozen p s q server.database (removePartFromService p server req b).1.database := by
  obtain ⟨hunchanged, -⟩ | ⟨id, row, current, n, haccepted, hcases⟩ :=
    removePartFromService_cases p server req b
  · rw [hunchanged]
    exact .refl
  · have hservice := h.other id row current n haccepted
    have hrow := haccepted.found
    have hbefore : ∀ found, server.database.partsInService.get id = some found →
        found.service ≠ usedService p s := by
      rw [hrow]
      rintro _ ⟨⟩
      exact hservice
    obtain ⟨-, hafter⟩ | ⟨hless, hafter⟩ := hcases
    · have hwrites : Table.Writes server.database.partsInService _ id none :=
        p.delete_isId haccepted.named
      rw [hafter]
      refine frozen_of_writes hwrites hbefore ?_ ?_ ?_
      · rintro _ ⟨⟩
      · rintro _ _ ⟨⟩
      · rintro _ _ ⟨⟩
    · rw [hafter]
      refine frozen_of_writes (p.update_isId haccepted.named hrow fun _ row =>
        { row with quantity := p.integerAffinity (p.minus row.quantity (quantityText b)) })
        hbefore ?_ ?_ fun hids _ _ => hids id row hrow
      · rintro _ ⟨⟩
        exact hservice
      · rintro _ part ⟨⟩ hlisted hpart
        exact h.reads id row current n haccepted hless hlisted part hpart

/-! ## Parts -/

/-- The parts that the service refers to keep their names and prices, and the prices that
listed services have now read. -/
theorem frozen_of_parts {parts : Table Part}
    (hkept : ∀ part, UsedPart p s database part →
      ((parts.get part).map fun row => (row.name, row.price)) =
        (database.parts.get part).map fun row => (row.name, row.price))
    (hreads : ∀ entry row part new, database.partsInService.get entry = some row →
      TotalledValue p database q row.service → row.part = .int part → parts.get part = some new →
      (∃ old, database.parts.get part = some old ∧ old.price = new.price) ∨
        Reads p new.price row.quantity) :
    Frozen p s q database { database with parts } := by
  refine ⟨⟨rfl, shownParts_congr (fun _ _ _ => Iff.rfl) ?_⟩,
    fun h => h.parts_replaced hreads, id⟩
  intro id row hrow hservice
  exact map_row_congr fun part hpart => hkept part ⟨id, row, hrow, hservice, hpart⟩

theorem createPart_frozen (h : SparesOnPartCreate p s q server req b) :
    Frozen p s q server.database (createPart p server req b).1.database := by
  unfold createPart
  split
  · exact .refl
  · rename_i hfields
    split
    · exact .refl
    · rename_i hmanager
      split
      · exact .refl
      · split
        · exact .refl
        · rename_i id parts hunique
          obtain ⟨hinsert, hfree⟩ := insertUnique_eq_some hunique
          have haccepted : PartAccepted server req b :=
            ⟨by simpa using hfields, by simpa using hmanager, hfree⟩
          have hid := Table.insert_id hinsert
          refine frozen_of_parts ?_ ?_
          · intro part hpart
            have hne : part ≠ id := by
              rw [hid]
              rintro rfl
              exact h.other haccepted hpart
            rw [Table.get_insert hinsert, if_neg hne]
          · intro entry row part new hget hlisted hpart hnew
            rw [Table.get_insert hinsert] at hnew
            split at hnew
            · rename_i hsame
              obtain rfl := Option.some.inj hnew
              exact .inr (h.reads haccepted entry row hget hlisted (by rw [hpart, hsame, hid]))
            · exact .inl ⟨new, hnew, rfl⟩

theorem updatePart_frozen (h : SparesOnPartUpdate p s q server req b) :
    Frozen p s q server.database (updatePart p server req b).1.database := by
  unfold updatePart
  split
  · exact .refl
  · rename_i hhas
    split
    · exact .refl
    · rename_i hmanager
      split
      · exact .refl
      · rename_i hstatement
        have hid : b.hasElement Field.id = true := by
          simp only [Bool.or_eq_true, not_or, Bool.not_eq_true, Bool.not_eq_false'] at hhas
          exact hhas.1
        have hverified : server.sessions.verify req AuthLevel.manager = true := by
          simpa using hmanager
        obtain ⟨hquoted, hused⟩ := h.kept hid hverified (by simpa using hstatement)
        unfold updateParts updateRows
        simp only [hquoted, Bool.not_true, Bool.false_eq_true, if_false]
        split
        · exact .refl
        · rename_i database hsome
          obtain ⟨parts, hparts, rfl⟩ := Option.map_eq_some_iff.mp hsome
          split at hparts
          · obtain rfl := Option.some.inj hparts
            refine frozen_of_parts ?_ ?_
            · intro part hpart
              rw [Table.get_update]
              cases server.database.parts.get part with
              | none => rfl
              | some row =>
                simp only [Option.map_some]
                split
                · rename_i hselected
                  obtain ⟨hname, hprice⟩ := hused part hpart hselected
                  simp [updatedPart, token, hname, hprice, updated]
                · rfl
            · intro entry row part new hget hlisted hpart hnew
              rw [Table.get_update] at hnew
              obtain ⟨old, hold, rfl⟩ := Option.map_eq_some_iff.mp hnew
              split
              · rename_i hselected
                exact .inr (h.reads hid hverified entry row part old hget hlisted hpart hold
                  hselected)
              · exact .inl ⟨old, hold, rfl⟩
          · cases hparts

/-! ## Authorising -/

/-- A new row of `ACTIVESERVICEDATA`, with the row of `OPENSERVICES` that goes with it or
without. -/
theorem frozen_of_opened {serviceActive : Table ActiveService} {serviceOpen : Table OpenService}
    {serviceUnauthorised : Table UnauthorisedService} {row : ActiveService} {id : Int}
    (hinsert : database.serviceActive.insert row = some (id, serviceActive))
    (hopen : ∀ a, serviceOpen.Occurs OpenService.service (.int a) →
      a = id ∨ database.serviceOpen.Occurs OpenService.service (.int a))
    (hother : row.service = .int s →
      ¬ database.serviceClosed.Occurs ClosedService.service (.int database.serviceActive.nextId))
    (hreads : ∀ shared, sharedRow database row.service = some shared →
      listedFor p q shared.owner = true →
      (q.hasElementOrEmpty Field.openServices = true ∧
          (row.authoriser.row database.users).isSome = true ∨
        q.hasElementOrEmpty Field.closedServices = true ∧
          database.serviceClosed.Occurs ClosedService.service
            (.int database.serviceActive.nextId)) →
      TotalReads p database shared.id) :
    Frozen p s q database { database with serviceActive, serviceOpen, serviceUnauthorised } := by
  have hid := Table.insert_id hinsert
  refine ⟨⟨closedOf_congr rfl (fun _ => rfl) ?_, rfl⟩, fun h => ?_, fun hids => hids⟩
  · intro a active hservice hoccurs
    rw [Table.get_insert hinsert]
    split
    · rename_i ha
      rw [ha, hid] at hoccurs ⊢
      rw [Table.get_nextId]
      constructor
      · rintro ⟨⟩
        exact absurd hoccurs (hother hservice)
      · rintro ⟨⟩
    · rfl
  · refine h.listed rfl rfl fun a active shared hrow => ?_
    have hfound := hrow.found
    have hasked := hrow.asked
    rw [Table.get_insert hinsert] at hfound
    split at hfound
    · rename_i ha
      obtain rfl := Option.some.inj hfound
      rw [ha, hid] at hasked
      refine .inr (hreads shared hrow.joined hrow.owner ?_)
      exact hasked.imp (fun hlist => ⟨hlist.1, hlist.2.2⟩) fun hlist => hlist
    · rename_i ha
      refine .inl ⟨a, active, shared, ⟨hfound, hrow.joined, hrow.owner, ?_⟩, rfl⟩
      refine hasked.imp (fun hlist => ⟨hlist.1, ?_, hlist.2.2⟩) fun hlist => hlist
      exact (hopen a hlist.2.1).resolve_left ha

theorem authorise_frozen (h : SparesOnAuthorise p s q server req b) :
    Frozen p s q server.database (authoriseRequest p server req b).1.database := by
  have hunauthorised : ∀ service,
      Frozen p s q server.database (withoutRequest server.database service) := fun service =>
    ⟨⟨closedOf_congr rfl (fun _ => rfl) fun _ _ _ _ => Iff.rfl, rfl⟩,
      fun hanswers => hanswers.listed rfl rfl fun a active shared hrow =>
        .inl ⟨a, active, shared, ⟨hrow.found, hrow.joined, hrow.owner, hrow.asked⟩, rfl⟩, id⟩
  obtain ⟨hunchanged, -⟩ | ⟨key, user, haccepted, ⟨-, hafter⟩ | ⟨quote, hquote, hafter⟩⟩ :=
    authoriseRequest_cases (p := p) server req b
  · rw [hunchanged]
    exact .refl
  · rw [hafter]
    exact hunauthorised _
  · rw [hafter]
    have hhas : b.hasElementOrEmpty Field.quote = true := by
      change (b.getElement Field.quote).isSome = true
      rw [hquote]
      rfl
    unfold openService
    split
    · exact hunauthorised _
    · rename_i id serviceActive hinsert
      simp only
      split
      · exact frozen_of_opened hinsert (fun _ => .inr) (h.other key user haccepted hhas)
          fun shared => h.reads key user shared haccepted hhas
      · rename_i other serviceOpen hunique
        obtain ⟨hopened, -⟩ := insertUnique_eq_some hunique
        refine frozen_of_opened hinsert ?_ (h.other key user haccepted hhas)
          fun shared => h.reads key user shared haccepted hhas
        rintro a ⟨entry, row, hget, hservice⟩
        rw [Table.get_insert hopened] at hget
        split at hget
        · obtain rfl := Option.some.inj hget
          exact .inl (Value.int.inj hservice).symm
        · exact .inr ⟨entry, row, hget, hservice⟩

/-! ## Runs -/

/-- A run of requests that keep away from a service and from the answers that list it. -/
def SparingRun (p : Platform) (s : Int) (q : Query) (start : Server) :
    List (Route × Call) → Server → Prop :=
  Run (fun server action => (handle p action.1 server action.2).1)
    (fun server action => Spares p s q server action.2 action.1) start

theorem Spares.login {route : Route} {call : Call} (h : Spares p s q server call route) :
    route.login = false := by
  cases route with
  | request => exact h.elim
  | register => exact h.elim
  | release => exact h.elim
  | _ => rfl

theorem spares_frozen (hlaw : p.Lawful) (hpositive : PartsPositive server.database)
    {route : Route} {call : Call} (h : Spares p s q server call route) :
    Frozen p s q server.database (handle p route server call).1.database := by
  cases route with
  | serviceUpdate => exact updateService_frozen h
  | servicePartAdd => exact addPart_frozen hlaw hpositive h
  | servicePartRemove => exact removePart_frozen h
  | partUpdate => exact updatePart_frozen h
  | partCreate => exact createPart_frozen h
  | serviceAuthorise => exact authorise_frozen h
  | _ => exact h.elim

theorem SparingRun.frozen (hlaw : p.Lawful) {start : Server}
    (hpositive : PartsPositive start.database) {actions : List (Route × Call)}
    (hrun : SparingRun p s q start actions server) :
    Frozen p s q start.database server.database ∧ server.sessions = start.sessions := by
  refine Run.invariant
    (P := fun server => Frozen p s q start.database server.database ∧
      server.sessions = start.sessions) ⟨.refl, rfl⟩ ?_ hrun
  rintro server ⟨route, call⟩ ⟨hfrozen, hsessions⟩ hspares
  exact ⟨hfrozen.trans (spares_frozen hlaw (hfrozen.positive hpositive) hspares),
    (handle_leaves hspares.login server call).sessions.trans hsessions⟩

/-- A closed service is frozen as long as every request keeps away from what its record
is made of and leaves the totals of the answer readable: whoever had an answer has
one later, with the same records of the service. -/
theorem closed_frozen (hlaw : p.Lawful) {start : Server} (hpositive : PartsPositive start.database)
    {response : ResponseWrapper}
    (hanswered : searchServices p start req q = .reply .ok (some response))
    {actions : List (Route × Call)} (hrun : SparingRun p s q start actions server) :
    ∃ response', searchServices p server req q = .reply .ok (some response') ∧
      closedFor p s response' = closedFor p s response := by
  obtain ⟨hfrozen, hsessions⟩ := hrun.frozen hlaw hpositive
  have hbefore : Answers p start.database q := by
    rw [← serviceLists_isSome_iff, (searchServices_ok_iff.mp hanswered).2.2.2]
    rfl
  obtain ⟨response', hlists⟩ :=
    Option.isSome_iff_exists.mp (serviceLists_isSome_iff.mpr (hfrozen.answers hbefore))
  have hagain := searchServices_again hanswered hsessions hlists
  exact ⟨response', hagain, hfrozen.shows.closedFor_eq hanswered hagain⟩

end Steps

/-! ## A price that changes after the service was closed -/

def pad : Part where
  name := .text ("pad" : Text)
  quantity := .int 8
  supplier := .int 1
  price := .int 10
  similar := .null

/-- The active data of a service. -/
def activeData (s : Int) : ActiveService where
  service := .int s
  labour := .real 0
  notes := .text []
  authoriser := .int 1
  quote := .int 100

def brakesRequest : ServiceShared where
  vehicle := .int 1
  requested := .text ("2021-05-01" : Text)
  request := .text ("brakes" : Text)

/-- A closed service with two brake pads, and an open one. -/
def closedGarage : Server where
  database :=
    { users := single
        { username := .text ("bob" : Text), password := .text ("pass" : Text), permissions := .int 2 }
      vehicles := single
        { plate := .text ("AB12" : Text), base := .int 1, owner := .int 1, year := .int 1999
          colour := .text ("red" : Text) }
      parts :=
        { rows := [(1, pad), (2, { pad with name := .text ("lamp" : Text), price := .int 5 })]
          sorted := by decide
          bounded := by decide }
      serviceShared :=
        { rows := [(1, brakesRequest), (2, brakesRequest)]
          sorted := by decide
          bounded := by decide }
      partsInService := single { part := .int 1, quantity := .int 2, service := .int 1 }
      serviceActive :=
        { rows := [(1, activeData 1), (2, activeData 2)]
          sorted := by decide
          bounded := by decide }
      serviceOpen := single { service := .int 2 }
      serviceClosed := single
        { service := .int 1, completer := .int 1, completed := .text ("2021-05-02" : Text)
          paid := .text ("100" : Text) } }
  sessions := managerSessions

def partCall (fields : List (Text × Text)) : Call where
  req := managerRequest
  b := .ofList fields
  q := .ofList []
  fresh := 0
  date := []

/-- The prices that an answer reports for the parts of a closed service. -/
def closedPrices (p : Platform) (s : Int) (response : ResponseWrapper) :
    List (List (Option Text)) :=
  (closedFor p s response).map fun record =>
    (record.recordsAt Key.parts).map fun part => part.field ("price" : Text)

theorem reply_of_record {ending : Ending} {response : ResponseWrapper}
    (h : ending.record = some response) : ending = .reply .ok (some response) := by
  unfold Ending.record at h
  split at h
  · rw [h]
  · cases h

/-- Brake pads go up from 10 to 99, and so does the price in the closed record. -/
theorem closed_price_changes : ∃ response response',
    searchServices .integers closedGarage managerRequest allServices =
      .reply .ok (some response) ∧
    searchServices .integers
      (handle .integers .partUpdate closedGarage
        (partCall [(Field.id, ("1" : Text)), (Field.price, ("99" : Text))])).1
      managerRequest allServices = .reply .ok (some response') ∧
    closedPrices .integers 1 response = [[some ("10" : Text)]] ∧
    closedPrices .integers 1 response' = [[some ("99" : Text)]] ∧
    closedFor .integers 1 response' ≠ closedFor .integers 1 response := by
  have hbefore : (searchServices .integers closedGarage managerRequest allServices).record.map
      (closedPrices .integers 1) = some [[some ("10" : Text)]] := by decide +kernel
  have hafter : (searchServices .integers
      (handle .integers .partUpdate closedGarage
        (partCall [(Field.id, ("1" : Text)), (Field.price, ("99" : Text))])).1
      managerRequest allServices).record.map
        (closedPrices .integers 1) = some [[some ("99" : Text)]] := by decide +kernel
  obtain ⟨response, hresponse, hprices⟩ := Option.map_eq_some_iff.mp hbefore
  obtain ⟨response', hresponse', hprices'⟩ := Option.map_eq_some_iff.mp hafter
  refine ⟨response, response', reply_of_record hresponse, reply_of_record hresponse', hprices,
    hprices', ?_⟩
  intro hsame
  have heq : closedPrices .integers 1 response' = closedPrices .integers 1 response := by
    rw [closedPrices, hsame, closedPrices]
  rw [hprices, hprices'] at heq
  revert heq
  decide +kernel

/-! ## A run that leaves it alone -/

/-- The manager renames the lamp and sells it for more. -/
def renameLamp : Route × Call :=
  (.partUpdate,
    partCall [(Field.id, ("2" : Text)), (Field.name, ("bulb" : Text)), (Field.price, ("7" : Text))])

/-- Three of them go into the open service. -/
def addLamps : Route × Call :=
  (.servicePartAdd,
    partCall [(Field.serviceID, ("2" : Text)), (Field.partID, ("2" : Text)),
      (Field.quantity, ("3" : Text))])

/-- One of them is taken out again. -/
def removeLamp : Route × Call :=
  (.servicePartRemove, partCall [(Field.entry, ("2" : Text))])

def lampSteps : List (Route × Call) := [renameLamp, addLamps, removeLamp]

def runSteps (actions : List (Route × Call)) : Server :=
  actions.foldl (fun server action => (handle .integers action.1 server action.2).1) closedGarage

theorem lampSteps_run :
    SparingRun .integers 1 allServices closedGarage lampSteps (runSteps lampSteps) := by
  have hrename : Spares .integers 1 allServices (runSteps []) renameLamp.2 renameLamp.1 := by
    have hother : ∀ entry used part, closedGarage.database.partsInService.get entry = some used →
        used.part = .int part →
        Platform.integers.isId part ((renameLamp.2.b.getElement Field.id).getD []) = false := by
      intro entry used part hget hpart
      obtain ⟨-, rfl⟩ := single_get hget
      obtain rfl : 1 = part := Value.int.inj hpart
      decide +kernel
    constructor
    · refine fun _ _ _ => ⟨by decide +kernel, ?_⟩
      rintro part ⟨entry, used, hget, -, hpart⟩ hnamed
      simp [hother entry used part hget hpart] at hnamed
    · intro _ _ entry used part row hget _ hpart _ hnamed
      simp [hother entry used part hget hpart] at hnamed
  have hadd : Spares .integers 1 allServices (runSteps [renameLamp]) addLamps.2 addLamps.1 := by
    constructor
    · exact fun _ => by decide +kernel
    · intro _ _ part hpart
      have hlamp : (requestedPair .integers addLamps.2.b).2.row
          (runSteps [renameLamp]).database.parts = some (2,
            { pad with name := .text ("bulb" : Text), price := .int 7 }) := by decide +kernel
      obtain rfl := Option.some.inj (hlamp.symm.trans hpart)
      unfold Reads
      decide +kernel
  have hremove : Spares .integers 1 allServices (runSteps [renameLamp, addLamps]) removeLamp.2
      removeLamp.1 := by
    have hrow : ∀ id row current n, RemoveAccepted .integers (runSteps [renameLamp, addLamps])
        removeLamp.2.req removeLamp.2.b id row current n →
        row = { part := .int 2, quantity := .int 3, service := .int 2 } := by
      intro id row current n haccepted
      obtain rfl : (2 : Int) = id := Value.int.inj
        ((by decide +kernel : Value.int 2 = Platform.integers.numeric
          ((removeLamp.2.b.getElement Field.entry).getD [])).trans haccepted.named)
      have hget : (runSteps [renameLamp, addLamps]).database.partsInService.get 2 =
          some { part := .int 2, quantity := .int 3, service := .int 2 } := by decide +kernel
      exact (Option.some.inj (hget.symm.trans haccepted.found)).symm
    constructor
    · intro id row current n haccepted
      rw [hrow id row current n haccepted]
      decide +kernel
    · intro id row current n haccepted _ _ part hpart
      obtain rfl := hrow id row current n haccepted
      have hlamp : (Value.int 2).row (runSteps [renameLamp, addLamps]).database.parts = some (2,
          { pad with name := .text ("bulb" : Text), price := .int 7 }) := by decide +kernel
      obtain rfl := Option.some.inj (hlamp.symm.trans hpart)
      unfold Reads
      decide +kernel
  have hfirst : SparingRun .integers 1 allServices closedGarage [renameLamp]
      (runSteps [renameLamp]) :=
    .snoc (show SparingRun .integers 1 allServices closedGarage [] (runSteps []) from .nil) hrename
  have hsecond : SparingRun .integers 1 allServices closedGarage [renameLamp, addLamps]
      (runSteps [renameLamp, addLamps]) := .snoc hfirst hadd
  exact .snoc hsecond hremove

theorem closed_frozen_lamps : ∃ response response',
    searchServices .integers closedGarage managerRequest allServices = .reply .ok (some response) ∧
    searchServices .integers (runSteps lampSteps) managerRequest allServices =
      .reply .ok (some response') ∧
    closedFor .integers 1 response' = closedFor .integers 1 response := by
  have hbefore : (searchServices .integers closedGarage managerRequest allServices).record.isSome =
      true := by decide +kernel
  obtain ⟨response, hresponse⟩ := Option.isSome_iff_exists.mp hbefore
  have hpositive : PartsPositive closedGarage.database := by
    intro id row hrow
    obtain ⟨rfl, -⟩ := single_get hrow
    decide
  obtain ⟨response', hsearch, hsame⟩ := closed_frozen Platform.integers_lawful hpositive
    (reply_of_record hresponse) lampSteps_run
  exact ⟨response, response', reply_of_record hresponse, hsearch, hsame⟩

end WFA
