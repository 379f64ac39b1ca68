-- SUMMARY: Over every run of added and removed parts, the rows of PARTSINSERVICE are the entries of a ledger.
import WFA.Base.Ledger
import WFA.Base.Run
import WFA.Server.Quantities

/-!
# Parts used in services

The rows of `PARTSINSERVICE` are the entries of a ledger whose keys are pairs of a
service and a part. Every accepted request with a plain quantity is an event of
the ledger.
-/

namespace WFA

open Text Ledger

/-! ## Runs -/

inductive PartsAction where
  | addPartToService (req : Request) (b : Body)
  | removePartFromService (req : Request) (b : Body)
  /-- Anything that leaves the parts in services alone, and the server like this
  otherwise. -/
  | other (server : Server)

section Runs

variable (p : Platform)

def partsStep (server : Server) : PartsAction → Server
  | .addPartToService req b => (addPartToService p server req b).1
  | .removePartFromService req b => (removePartFromService p server req b).1
  | .other after => after.withDatabase
      { after.database with partsInService := server.database.partsInService }

/-- What a pair has in the table. -/
def totalOf (database : Database) (pair : Value × Value) : Nat :=
  ((rowsOf database pair).map fun row => amountOf row.2.quantity).sum

/-- A request is accepted, its quantity is a plain numeral, and no total leaves
the range of 64-bit integers. -/
def partsAllowed (server : Server) : PartsAction → Prop
  | .addPartToService req b =>
    (addPartToService p server req b).2 = .reply .ok none ∧ Numeral (quantityText b) ∧
      totalOf server.database (requestedPair p b) + requestedQuantity b < 2 ^ 63
  | .removePartFromService req b =>
    (removePartFromService p server req b).2 = .reply .ok none ∧ Numeral (quantityText b)
  | .other _ => True

/-- A server whose table of parts in services is empty. -/
def noParts (database : Database) (sessions : Sessions) : Server where
  database := { database with partsInService := .empty }
  sessions

/-- A run from an empty table, with any other tables and any sessions. -/
def PartsRun (database : Database) (sessions : Sessions) : List PartsAction → Server → Prop :=
  Run (partsStep p) (partsAllowed p) (noParts database sessions)

/-- What a request is to the ledger. -/
def partsEvent : PartsAction → Event (Value × Value)
  | .addPartToService _ b => .add (requestedPair p b) (requestedQuantity b)
  | .removePartFromService _ b =>
    match p.numeric ((b.getElement Field.entry).getD []) with
    | .int id => .remove id (requestedQuantity b)
    | _ => .idle
  | .other _ => .idle

/-- The quantities that the requests add to a pair. -/
def addedTo (pair : Value × Value) (actions : List PartsAction) : Nat :=
  sumAdded pair (actions.map (partsEvent p))

/-- The quantities that the requests remove from a row. -/
def removedFrom (id : Int) (actions : List PartsAction) : Nat :=
  sumRemoved id (actions.map (partsEvent p))

end Runs

/-! ## The ledger of a database -/

def entryOf (row : PartInService) : Entry (Value × Value) where
  key := pairOf row
  amount := amountOf row.quantity

def ledgerOf (database : Database) : Ledger (Value × Value) :=
  fun id => (database.partsInService.get id).map entryOf

/-- What accepted requests with plain quantities keep. -/
structure Counted (database : Database) : Prop where
  positive : ∀ id row, database.partsInService.get id = some row → 0 < id
  integer : ∀ id row, database.partsInService.get id = some row →
    row.quantity = .int (amountOf row.quantity) ∧ amountOf row.quantity < 2 ^ 63
  sound : Sound (ledgerOf database)

section Steps

variable {p : Platform} {database database' : Database} {server : Server} {req : Request} {b : Body}
  {id : Int} {row : PartInService}

theorem ledgerOf_get (h : database.partsInService.get id = some row) :
    ledgerOf database id = some (entryOf row) := by
  simp [ledgerOf, h]

theorem mem_totalOf {pair : Value × Value} (hget : database.partsInService.get id = some row)
    (hpair : pairOf row = pair) : amountOf row.quantity ≤ totalOf database pair :=
  List.single_le_sum (by simp) _
    (List.mem_map.mpr ⟨(id, row), mem_rowsOf.mpr ⟨hget, hpair⟩, rfl⟩)

theorem ledgerOf_write {written : Option PartInService}
    (h : Table.Writes database.partsInService database'.partsInService id written) :
    ledgerOf database' = Function.update (ledgerOf database) id (written.map entryOf) := by
  funext other
  unfold ledgerOf
  rw [h other]
  by_cases hid : other = id
  · subst hid
    simp
  · simp [hid]

theorem Counted.write (h : Counted database) {written : Option PartInService}
    (hwrites : Table.Writes database.partsInService database'.partsInService id written)
    (hid : 0 < id)
    (hinteger : ∀ row, written = some row →
      row.quantity = .int (amountOf row.quantity) ∧ amountOf row.quantity < 2 ^ 63)
    (hsound : Sound (ledgerOf database')) : Counted database' where
  positive := hwrites.forall h.positive fun _ _ => hid
  integer := hwrites.forall h.integer hinteger
  sound := hsound

/-! ## Adding -/

/-- The row an accepted request writes: a new one for a pair that has none, or the
one its pair has. -/
theorem addPart_writes (hlaw : p.Numerals) (h : Counted server.database)
    (hallowed : partsAllowed p server (.addPartToService req b)) :
    1 ≤ requestedQuantity b ∧ ∃ id, 0 < id ∧
      ((server.database.partsInService.get id = none ∧
        (∀ other row, server.database.partsInService.get other = some row →
          pairOf row ≠ requestedPair p b) ∧
        Table.Writes server.database.partsInService
          (addPartToService p server req b).1.database.partsInService id
          (some { part := (requestedPair p b).2, quantity := .int (requestedQuantity b)
                  service := (requestedPair p b).1 })) ∨
      ∃ row, server.database.partsInService.get id = some row ∧ pairOf row = requestedPair p b ∧
        amountOf row.quantity + requestedQuantity b < 2 ^ 63 ∧
        Table.Writes server.database.partsInService
          (addPartToService p server req b).1.database.partsInService id
          (some { row with
                  quantity := .int (amountOf row.quantity + requestedQuantity b : Nat) })) := by
  obtain ⟨hok, hnumeral, htotal⟩ := hallowed
  obtain ⟨-, hrefused⟩ | ⟨haccepted, hcases⟩ := addPartToService_cases p server req b
  · exact absurd hok hrefused
  obtain ⟨n, hn, hread⟩ := fromChars_of_not_refused haccepted.quantity
  obtain rfl : requestedQuantity b = n := requestedQuantity_eq hnumeral.2 hread
  refine ⟨hn, ?_⟩
  obtain ⟨hnone, id, partsInService, hinsert, hafter⟩ | ⟨id, row, rest, hrows, hafter⟩ := hcases
  · have hvalue : p.numeric (quantityText b) = .int (requestedQuantity b) :=
      hlaw.numeric_numeral hnumeral (by unfold requestedQuantity at htotal; omega)
    have hid := Table.insert_id hinsert
    rw [hvalue] at hinsert
    refine ⟨id, hid ▸ Table.nextId_pos h.positive, .inl ⟨hid ▸ Table.get_nextId _, ?_, ?_⟩⟩
    · intro other row hget hpair
      have hmem := mem_rowsOf.mpr ⟨hget, hpair⟩
      simp [hnone] at hmem
    · rw [hafter]
      exact Table.insert_writes hinsert
  · have hmem : (id, row) ∈ rowsOf server.database (requestedPair p b) := by simp [hrows]
    obtain ⟨hrow, hpair⟩ := mem_rowsOf.mp hmem
    have hid := h.positive id row hrow
    have hbound : amountOf row.quantity + requestedQuantity b < 2 ^ 63 := by
      have := mem_totalOf hrow hpair
      omega
    have hvalue : p.integerAffinity (p.plus row.quantity (quantityText b)) =
        .int (amountOf row.quantity + requestedQuantity b : Nat) := by
      rw [(h.integer id row hrow).1]
      exact plus_numeral hlaw hnumeral hbound
    refine ⟨id, hid, .inr ⟨row, hrow, hpair, hbound, ?_⟩⟩
    rw [hafter, ← hvalue]
    have hkey := Platform.numeric_columnText hlaw.lawful hid
      (server.database.partsInService.get_lt hrow)
    exact p.update_isId hkey hrow _

theorem addPart_step (hlaw : p.Numerals) (h : Counted server.database)
    (hallowed : partsAllowed p server (.addPartToService req b)) :
    Step (ledgerOf server.database) (partsEvent p (.addPartToService req b))
        (ledgerOf (addPartToService p server req b).1.database) ∧
      Counted (addPartToService p server req b).1.database := by
  obtain ⟨hn, id, hid, ⟨hnone, hnew, hwrites⟩ | ⟨row, hrow, hpair, hbound, hwrites⟩⟩ :=
    addPart_writes hlaw h hallowed
  · have hstep : Step (ledgerOf server.database) (partsEvent p (.addPartToService req b))
        (ledgerOf (addPartToService p server req b).1.database) := by
      rw [ledgerOf_write hwrites]
      refine .opened (by simp [ledgerOf, hnone]) ?_
      intro other entry hentry
      obtain ⟨row, hrow, rfl⟩ := Option.map_eq_some_iff.mp hentry
      exact hnew other row hrow
    refine ⟨hstep, h.write hwrites hid ?_ (hstep.sound h.sound hn)⟩
    rintro row ⟨⟩
    have htotal := hallowed.2.2
    simp only [amountOf, Int.toNat_natCast, true_and]
    omega
  · have hstep : Step (ledgerOf server.database) (partsEvent p (.addPartToService req b))
        (ledgerOf (addPartToService p server req b).1.database) := by
      rw [ledgerOf_write hwrites, partsEvent, ← hpair]
      exact .added (ledgerOf_get hrow)
    refine ⟨hstep, h.write hwrites hid ?_ (hstep.sound h.sound hn)⟩
    rintro _ ⟨⟩
    exact ⟨rfl, hbound⟩

/-! ## Removing -/

/-- The row an accepted request names: it is deleted, or written with what is left. -/
theorem removePart_writes (hlaw : p.Numerals) (h : Counted server.database)
    (hallowed : partsAllowed p server (.removePartFromService req b)) :
    ∃ id row, p.numeric ((b.getElement Field.entry).getD []) = .int id ∧
      server.database.partsInService.get id = some row ∧
      ((amountOf row.quantity ≤ requestedQuantity b ∧
        Table.Writes server.database.partsInService
          (removePartFromService p server req b).1.database.partsInService id none) ∨
      (requestedQuantity b < amountOf row.quantity ∧
        Table.Writes server.database.partsInService
          (removePartFromService p server req b).1.database.partsInService id
          (some { row with
                  quantity := .int (amountOf row.quantity - requestedQuantity b : Nat) }))) := by
  obtain ⟨hok, hnumeral⟩ := hallowed
  obtain ⟨-, hrefused⟩ | ⟨id, row, current, n, haccepted, hcases⟩ :=
    removePartFromService_cases p server req b
  · exact absurd hok hrefused
  obtain rfl : requestedQuantity b = n := requestedQuantity_eq hnumeral.2 haccepted.removed
  have hkey := haccepted.named
  have hrow := haccepted.found
  have hcurrent := haccepted.current
  obtain ⟨hinteger, hbound⟩ := h.integer id row hrow
  have hamount : amountOf row.quantity = current := by
    rw [hinteger, Platform.columnText] at hcurrent
    have := fromChars_ofInt hcurrent
    omega
  subst hamount
  refine ⟨id, row, hkey, hrow, ?_⟩
  obtain ⟨hle, hafter⟩ | ⟨hlt, hafter⟩ := hcases
  · refine .inl ⟨hle, ?_⟩
    rw [hafter]
    exact p.delete_isId hkey
  · refine .inr ⟨hlt, ?_⟩
    have hvalue : p.integerAffinity (p.minus row.quantity (quantityText b)) =
        .int (amountOf row.quantity - requestedQuantity b : Nat) := by
      rw [hinteger]
      exact minus_numeral hlaw hnumeral hlt hbound
    rw [hafter, ← hvalue]
    exact p.update_isId hkey hrow _

theorem removePart_step (hlaw : p.Numerals) (h : Counted server.database)
    (hallowed : partsAllowed p server (.removePartFromService req b)) :
    Step (ledgerOf server.database) (partsEvent p (.removePartFromService req b))
        (ledgerOf (removePartFromService p server req b).1.database) ∧
      Counted (removePartFromService p server req b).1.database := by
  obtain ⟨id, row, hkey, hrow, ⟨hle, hwrites⟩ | ⟨hlt, hwrites⟩⟩ := removePart_writes hlaw h hallowed
  · have hstep : Step (ledgerOf server.database) (partsEvent p (.removePartFromService req b))
        (ledgerOf (removePartFromService p server req b).1.database) := by
      rw [ledgerOf_write hwrites]
      simp only [partsEvent, hkey]
      exact .closed (ledgerOf_get hrow) hle
    refine ⟨hstep, h.write hwrites (h.positive id row hrow) ?_ ?_⟩
    · rintro _ ⟨⟩
    · refine hstep.sound h.sound ?_
      simp [partsEvent, hkey, Event.Proper]
  · have hstep : Step (ledgerOf server.database) (partsEvent p (.removePartFromService req b))
        (ledgerOf (removePartFromService p server req b).1.database) := by
      rw [ledgerOf_write hwrites]
      simp only [partsEvent, hkey]
      exact .taken (ledgerOf_get hrow) hlt
    refine ⟨hstep, h.write hwrites (h.positive id row hrow) ?_ ?_⟩
    · rintro _ ⟨⟩
      have := (h.integer id row hrow).2
      refine ⟨rfl, ?_⟩
      change amountOf row.quantity - requestedQuantity b < 2 ^ 63
      omega
    · refine hstep.sound h.sound ?_
      simp [partsEvent, hkey, Event.Proper]

/-! ## Runs -/

/-- Every allowed request is a step of the ledger. -/
theorem parts_step (hlaw : p.Numerals) (h : Counted server.database) {action : PartsAction}
    (hallowed : partsAllowed p server action) :
    Step (ledgerOf server.database) (partsEvent p action)
        (ledgerOf (partsStep p server action).database) ∧
      Counted (partsStep p server action).database := by
  cases action with
  | addPartToService req b => exact addPart_step hlaw h hallowed
  | removePartFromService req b => exact removePart_step hlaw h hallowed
  | other after =>
    exact ⟨.idle, { positive := h.positive, integer := h.integer, sound := h.sound }⟩

variable {start : Database} {sessions : Sessions} {actions : List PartsAction}

theorem PartsRun.counted (hlaw : p.Numerals) (h : PartsRun p start sessions actions server) :
    Counted server.database := by
  refine Run.invariant (P := fun server => Counted server.database) ?_ ?_ h
  · exact { positive := by simp [noParts], integer := by simp [noParts], sound := sound_empty }
  · intro server action hcounted hallowed
    exact (parts_step hlaw hcounted hallowed).2

/-- The row with this ID is there. -/
def HasRow (id : Int) (server : Server) : Prop :=
  (server.database.partsInService.get id).isSome = true

/-- Since a row is there, its quantity is what was added to its pair less what was
removed from it. -/
theorem sum_of_since (hlaw : p.Numerals) {front rest : List PartsAction}
    (h : Run.Since (partsStep p) (partsAllowed p) (noParts start sessions) (HasRow id) front rest
      server)
    (hget : server.database.partsInService.get id = some row) :
    amountOf row.quantity + removedFrom p id rest = addedTo p (pairOf row) rest := by
  induction h generalizing row with
  | began hrun hnone hallowed hpresent =>
    rename_i state action
    obtain ⟨hstep, -⟩ := parts_step hlaw (PartsRun.counted hlaw hrun) hallowed
    have hbefore : ledgerOf state.database id = none := by
      simpa [HasRow, ledgerOf] using hnone
    exact hstep.sum_opened hbefore (ledgerOf_get hget)
  | kept hsince hallowed hpresent ih =>
    rename_i rest state action
    have hcounted := PartsRun.counted hlaw hsince.run
    obtain ⟨hstep, -⟩ := parts_step hlaw hcounted hallowed
    obtain ⟨before, hbefore⟩ := Option.isSome_iff_exists.mp hsince.holds
    obtain ⟨hkey, hsum⟩ :=
      hstep.sum_kept hcounted.sound (ledgerOf_get hbefore) (ledgerOf_get hget)
    have hpair : pairOf row = pairOf before := hkey
    have ih := ih hbefore
    simp only [removedFrom, addedTo, List.map_append, List.map_cons, List.map_nil,
      sumRemoved_append, sumAdded_append] at ih ⊢
    rw [hpair]
    simp only [entryOf] at hsum
    omega

/-- The pair whose row a request is about. -/
def Concerns (p : Platform) (database : Database) : PartsAction → Value × Value → Prop
  | .addPartToService _ b, pair => requestedPair p b = pair
  | .removePartFromService _ b, pair => ∃ id row,
    p.numeric ((b.getElement Field.entry).getD []) = .int id ∧
      database.partsInService.get id = some row ∧ pairOf row = pair
  | .other _, _ => False

theorem parts_frame (hlaw : p.Numerals) (h : Counted server.database) {action : PartsAction}
    (hallowed : partsAllowed p server action)
    (hother : ¬ Concerns p server.database action (pairOf row)) (id : Int) :
    (partsStep p server action).database.partsInService.get id = some row ↔
      server.database.partsInService.get id = some row := by
  cases action with
  | addPartToService req b =>
    obtain ⟨-, new, -, ⟨hnone, -, hwrites⟩ | ⟨found, hfound, hpair, -, hwrites⟩⟩ :=
      addPart_writes hlaw h hallowed
    · refine hwrites.frame (by simp [hnone]) ?_ id
      rintro ⟨⟩
      exact hother rfl
    · refine hwrites.frame ?_ ?_ id
      · rw [hfound]
        rintro ⟨⟩
        exact hother hpair.symm
      · rintro ⟨⟩
        exact hother hpair.symm
  | removePartFromService req b =>
    obtain ⟨entry, found, hkey, hfound, hcases⟩ := removePart_writes hlaw h hallowed
    have hpair : pairOf found ≠ pairOf row := fun hsame => hother ⟨entry, found, hkey, hfound, hsame⟩
    have hbefore : server.database.partsInService.get entry ≠ some row := by
      rw [hfound]
      rintro ⟨⟩
      exact hpair rfl
    obtain ⟨-, hwrites⟩ | ⟨-, hwrites⟩ := hcases
    · exact hwrites.frame hbefore (by simp) id
    · refine hwrites.frame hbefore ?_ id
      rintro ⟨⟩
      exact hpair rfl
  | other after => rfl

/-- Parts in services are conserved: a pair has one row at most; its quantity is a
positive integer, which is what was added to the pair less what was removed from
the row since the row was made; a removal of all of it deletes that row and no
other; and no request changes a row of another pair. -/
theorem parts_conserved (hlaw : p.Numerals) (hrun : PartsRun p start sessions actions server) :
    (∀ id other row found, server.database.partsInService.get id = some row →
      server.database.partsInService.get other = some found → pairOf row = pairOf found →
      id = other) ∧
    (∀ id row, server.database.partsInService.get id = some row → ∃ c : Nat, 1 ≤ c ∧
      row.quantity = .int c ∧ ∃ front rest, actions = front ++ rest ∧
        Run.Since (partsStep p) (partsAllowed p) (noParts start sessions) (HasRow id) front rest
          server ∧
        (c : Int) = addedTo p (pairOf row) rest - removedFrom p id rest) ∧
    ∀ action, partsAllowed p server action →
      (∀ row, ¬ Concerns p server.database action (pairOf row) → ∀ id,
        (partsStep p server action).database.partsInService.get id = some row ↔
          server.database.partsInService.get id = some row) ∧
      ∀ req b id row, action = .removePartFromService req b →
        p.numeric ((b.getElement Field.entry).getD []) = .int id →
        server.database.partsInService.get id = some row →
        (∃ c : Int, row.quantity = .int c ∧ c ≤ requestedQuantity b) → ∀ other,
          (partsStep p server action).database.partsInService.get other =
            if other = id then none else server.database.partsInService.get other := by
  have hcounted := hrun.counted hlaw
  refine ⟨?_, ?_, ?_⟩
  · intro id other row found hrow hfound hpair
    exact hcounted.sound.unique (ledgerOf_get hrow) (ledgerOf_get hfound) hpair
  · intro id row hrow
    obtain ⟨front, rest, hactions, hsince⟩ :=
      hrun.exists_since (P := HasRow id) (by simp [HasRow, noParts]) (by simp [HasRow, hrow])
    have hsum := sum_of_since hlaw hsince hrow
    exact ⟨amountOf row.quantity, hcounted.sound.positive (ledgerOf_get hrow),
      (hcounted.integer id row hrow).1, front, rest, hactions, hsince, by omega⟩
  · intro action hallowed
    refine ⟨fun row hother => parts_frame hlaw hcounted hallowed hother, ?_⟩
    rintro req b id row rfl hkey hrow ⟨c, hquantity, hle⟩
    obtain ⟨entry, found, hentry, hfound, hcases⟩ := removePart_writes hlaw hcounted hallowed
    obtain rfl : id = entry := Value.int.inj (hkey.symm.trans hentry)
    obtain rfl := Option.some.inj (hrow.symm.trans hfound)
    obtain ⟨-, hwrites⟩ | ⟨hlt, -⟩ := hcases
    · exact hwrites
    · rw [hquantity] at hlt
      simp only [amountOf] at hlt
      omega

end Steps

/-! ## Five parts, one more, and two less -/

theorem Platform.integers_numerals : Platform.integers.Numerals where
  numeric_numeral := by
    intro t ht hbound
    have hread : readInteger t = some (numeralValue t) := by
      simp [readInteger, digits_of_all ht.2, ht.1]
    simpa [integers, hread] using hbound
  leading_numeral := by
    intro t ht _
    have hplain : ('e' : Byte) ∉ t := by
      intro hb
      have hdigit := ht.2 _ hb
      revert hdigit
      decide
    simp [integers, hplain, digits_of_all ht.2]

/-- Brake pads for the first service. -/
def brakePads (quantity : List (Text × Text)) : PartsAction :=
  .addPartToService managerRequest
    (.ofList ([(Field.serviceID, ("1" : Text)), (Field.partID, ("2" : Text))] ++ quantity))

def usedParts : List PartsAction :=
  [brakePads [(Field.quantity, ("5" : Text))], brakePads [],
    .removePartFromService managerRequest
      (.ofList [(Field.entry, ("1" : Text)), (Field.quantity, ("2" : Text))])]

def partsAfter (actions : List PartsAction) : Server :=
  actions.foldl (partsStep .integers) (noParts {} managerSessions)

theorem usedParts_run : PartsRun .integers {} managerSessions usedParts (partsAfter usedParts) := by
  have hstart : PartsRun .integers {} managerSessions [] (partsAfter []) := .nil
  have hfirst : PartsRun .integers {} managerSessions (usedParts.take 1)
      (partsAfter (usedParts.take 1)) :=
    .snoc hstart ⟨by decide +kernel, by decide +kernel, by decide +kernel⟩
  have hsecond : PartsRun .integers {} managerSessions (usedParts.take 2)
      (partsAfter (usedParts.take 2)) :=
    .snoc hfirst ⟨by decide +kernel, by decide +kernel, by decide +kernel⟩
  exact .snoc hsecond ⟨by decide +kernel, by decide +kernel⟩

theorem parts_conserved_brakePads :
    (partsAfter usedParts).database.partsInService.get 1 =
      some { part := .int 2, quantity := .int 4, service := .int 1 } ∧
    ∃ front rest, usedParts = front ++ rest ∧
      (4 : Int) = addedTo .integers (.int 1, .int 2) rest - removedFrom .integers 1 rest := by
  have hrow : (partsAfter usedParts).database.partsInService.get 1 =
      some { part := .int 2, quantity := .int 4, service := .int 1 } := by decide +kernel
  obtain ⟨c, -, hquantity, front, rest, hactions, -, hsum⟩ :=
    (parts_conserved Platform.integers_numerals usedParts_run).2.1 1 _ hrow
  rw [← Value.int.inj hquantity] at hsum
  exact ⟨hrow, front, rest, hactions, hsum⟩

end WFA
