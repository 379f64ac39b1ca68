-- SUMMARY: What adding and removing a plain quantity does to the row of a part in a service.
import WFA.Server.ServiceEffects

/-!
# Quantities of parts

The check of a quantity reads the front of its text; the statement binds the whole
text, and SQLite reads it again. On a plain decimal numeral below `2 ^ 63` the two
agree, and so do the sums and differences SQLite stores.
-/

namespace WFA

open Text

/-- What SQLite makes of a plain decimal numeral that fits in 64 bits, where it is
stored and where it is added. -/
structure Platform.Numerals (p : Platform) : Prop where
  numeric_numeral : ∀ {t : Text}, Numeral t → numeralValue t < 2 ^ 63 →
    p.numeric t = .int (numeralValue t)
  leading_numeral : ∀ {t : Text}, Numeral t → numeralValue t < 2 ^ 63 →
    p.leading t = .int (numeralValue t)

theorem Platform.Numerals.lawful {p : Platform} (h : p.Numerals) : p.Lawful where
  numeric_ofNat n hn := by
    have hvalue := numeralValue_ofNat n
    rw [h.numeric_numeral (numeral_ofNat n) (by omega), hvalue]

/-- A service and a part, as a row refers to them. -/
def pairOf (row : PartInService) : Value × Value :=
  (row.service, row.part)

/-- The quantity a row has, when it is a number. -/
def amountOf : Value → Nat
  | .int n => n.toNat
  | _ => 0

/-- The number that a request is about. -/
def requestedQuantity (b : Body) : Nat :=
  numeralValue (quantityText b)

/-- The pair that a request to add parts names. -/
def requestedPair (p : Platform) (b : Body) : Value × Value :=
  (p.numeric ((b.getElement Field.serviceID).getD []),
    p.numeric ((b.getElement Field.partID).getD []))

section Requests

variable {p : Platform} {server : Server} {req : Request} {b : Body}

theorem quantityText_of_has (h : b.hasElement Field.quantity = true) :
    quantityText b = (b.getElement Field.quantity).getD [] := by
  simp [quantityText, h]

/-- The check lets a text pass whose front reads as a positive number. -/
theorem fromChars_of_not_refused (h : quantityRefused b = false) :
    ∃ n, 1 ≤ n ∧ fromChars uint64Max (quantityText b) = some n := by
  cases hhas : b.hasElement Field.quantity with
  | false => exact ⟨1, le_refl 1, by simp [quantityText, hhas, fromChars_ofNat, uint64Max]⟩
  | true =>
    rw [quantityText_of_has hhas]
    simp only [quantityRefused, hhas, Bool.true_and] at h
    cases hread : fromChars uint64Max ((b.getElement Field.quantity).getD []) with
    | none => simp [hread] at h
    | some n =>
      simp only [hread, beq_eq_false_iff_ne] at h
      exact ⟨n, by omega, rfl⟩

theorem removedQuantity_eq : removedQuantity b = fromChars uint64Max (quantityText b) := by
  cases hhas : b.hasElement Field.quantity with
  | false => simp [removedQuantity, quantityText, hhas, fromChars_ofNat, uint64Max]
  | true => simp [removedQuantity, quantityText, hhas]

/-! ## What an accepted request does -/

/-- The rows of a pair. -/
def rowsOf (database : Database) (pair : Value × Value) : List (Int × PartInService) :=
  database.partsInService.select fun _ row => row.service == pair.1 && row.part == pair.2

theorem mem_rowsOf {database : Database} {pair : Value × Value} {id : Int} {row : PartInService} :
    (id, row) ∈ rowsOf database pair ↔
      database.partsInService.get id = some row ∧ pairOf row = pair := by
  rw [rowsOf, Table.mem_select, pairOf, Prod.ext_iff]
  simp

/-- The checks `addPartToService` makes before its statements. -/
structure AddAccepted (server : Server) (req : Request) (b : Body) : Prop where
  fields : b.containsAll [Field.serviceID, Field.partID] = true
  employee : server.sessions.verify req AuthLevel.employee = true
  quantity : quantityRefused b = false

/-- The parts are added in a new row or to the first row of their pair. -/
theorem addPartToService_cases (p : Platform) (server : Server) (req : Request) (b : Body) :
    ((addPartToService p server req b).1 = server ∧
      (addPartToService p server req b).2 ≠ .reply .ok none) ∨
    AddAccepted server req b ∧
    ((rowsOf server.database (requestedPair p b) = [] ∧ ∃ id partsInService,
      server.database.partsInService.insert
        { part := (requestedPair p b).2, quantity := p.numeric (quantityText b)
          service := (requestedPair p b).1 } = some (id, partsInService) ∧
      addPartToService p server req b =
        (server.withDatabase { server.database with partsInService }, .reply .ok none)) ∨
    ∃ id row rest, rowsOf server.database (requestedPair p b) = (id, row) :: rest ∧
      addPartToService p server req b = (server.withDatabase { server.database with
        partsInService := server.database.partsInService.update
          (fun other _ => p.isId other (p.columnText (.int id)))
          (fun _ row =>
            { row with quantity := p.integerAffinity (p.plus row.quantity (quantityText b)) }) },
        .reply .ok none)) := by
  unfold addPartToService
  split
  · exact .inl ⟨rfl, by simp⟩
  · rename_i hfields
    split
    · exact .inl ⟨rfl, by simp⟩
    · rename_i hemployee
      split
      · exact .inl ⟨rfl, by simp⟩
      · rename_i hrefused
        have haccepted : AddAccepted server req b :=
          ⟨by simpa using hfields, by simpa using hemployee, by simpa using hrefused⟩
        simp only
        cases hrows : server.database.partsInService.select fun _ row =>
            row.service == p.numeric ((b.getElement Field.serviceID).getD []) &&
              row.part == p.numeric ((b.getElement Field.partID).getD []) with
        | cons first rest =>
          exact .inr ⟨haccepted, .inr ⟨first.1, first.2, rest, hrows, rfl⟩⟩
        | nil =>
          simp only
          split
          · exact .inl ⟨rfl, by simp⟩
          · rename_i id partsInService hinsert
            exact .inr ⟨haccepted, .inl ⟨hrows, id, partsInService, hinsert, rfl⟩⟩

/-- The checks `removePartFromService` makes before its statements: the entry is the
row `id`, and what is there and what is removed read as numbers. -/
structure RemoveAccepted (p : Platform) (server : Server) (req : Request) (b : Body) (id : Int)
    (row : PartInService) (current n : Nat) : Prop where
  has : b.hasElement Field.entry = true
  employee : server.sessions.verify req AuthLevel.employee = true
  named : p.numeric ((b.getElement Field.entry).getD []) = .int id
  found : server.database.partsInService.get id = some row
  current : fromChars uint64Max (p.columnText row.quantity) = some current
  removed : fromChars uint64Max (quantityText b) = some n
  positive : 1 ≤ n

/-- The row that parts are removed from goes, or it keeps some of them. -/
theorem removePartFromService_cases (p : Platform) (server : Server) (req : Request) (b : Body) :
    ((removePartFromService p server req b).1 = server ∧
      (removePartFromService p server req b).2 ≠ .reply .ok none) ∨
    ∃ id row current n, RemoveAccepted p server req b id row current n ∧
      ((current ≤ n ∧ removePartFromService p server req b =
        (server.withDatabase { server.database with
          partsInService := server.database.partsInService.delete
            fun other _ => p.isId other ((b.getElement Field.entry).getD []) }, .reply .ok none)) ∨
      (n < current ∧ removePartFromService p server req b =
        (server.withDatabase { server.database with
          partsInService := server.database.partsInService.update
            (fun other _ => p.isId other ((b.getElement Field.entry).getD []))
            (fun _ row =>
              { row with
                quantity := p.integerAffinity (p.minus row.quantity (quantityText b)) }) },
        .reply .ok none))) := by
  unfold removePartFromService
  split
  · exact .inl ⟨rfl, by simp⟩
  · rename_i hhas
    split
    · exact .inl ⟨rfl, by simp⟩
    · rename_i hemployee
      simp only
      obtain ⟨hnil, -⟩ | ⟨id, row, hselect, hget, hkey⟩ :=
        p.select_isId server.database.partsInService ((b.getElement Field.entry).getD [])
      · rw [hnil]
        exact .inl ⟨rfl, by simp⟩
      · simp only [hselect]
        cases hcurrent : fromChars uint64Max (p.columnText row.quantity) with
        | none => exact .inl ⟨rfl, by simp⟩
        | some current =>
          cases hremoved : removedQuantity b with
          | none => exact .inl ⟨rfl, by simp⟩
          | some n =>
            simp only
            rw [removedQuantity_eq] at hremoved
            split
            · exact .inl ⟨rfl, by simp⟩
            · rename_i hpositive
              refine .inr ⟨id, row, current, n, ⟨by simpa using hhas, by simpa using hemployee,
                hkey, hget, hcurrent, hremoved, by omega⟩, ?_⟩
              by_cases hle : current ≤ n
              · exact .inl ⟨hle, by rw [if_pos hle]; rfl⟩
              · exact .inr ⟨by omega, by rw [if_neg hle]; rfl⟩

/-- A request that passes the checks and names a pair without a row. -/
theorem addPartToService_insert {id : Int} {partsInService : Table PartInService}
    (hfields : b.containsAll [Field.serviceID, Field.partID] = true)
    (hemployee : server.sessions.verify req AuthLevel.employee = true)
    (hquantity : quantityRefused b = false) (hrows : rowsOf server.database (requestedPair p b) = [])
    (hinsert : server.database.partsInService.insert
      { part := (requestedPair p b).2, quantity := p.numeric (quantityText b)
        service := (requestedPair p b).1 } = some (id, partsInService)) :
    addPartToService p server req b =
      (server.withDatabase { server.database with partsInService }, .reply .ok none) := by
  simp only [rowsOf, requestedPair] at hrows hinsert
  simp [addPartToService, newPartInService, insertedPartInService, hfields, hemployee, hquantity,
    hrows, hinsert, Server.withDatabase]

/-- A request that passes the checks and names a pair with a row. -/
theorem addPartToService_update {id : Int} {row : PartInService} {rest : List (Int × PartInService)}
    (hfields : b.containsAll [Field.serviceID, Field.partID] = true)
    (hemployee : server.sessions.verify req AuthLevel.employee = true)
    (hquantity : quantityRefused b = false)
    (hrows : rowsOf server.database (requestedPair p b) = (id, row) :: rest) :
    addPartToService p server req b = (server.withDatabase { server.database with
      partsInService := server.database.partsInService.update
        (fun other _ => p.isId other (p.columnText (.int id)))
        (fun _ row =>
          { row with quantity := p.integerAffinity (p.plus row.quantity (quantityText b)) }) },
      .reply .ok none) := by
  simp only [rowsOf, requestedPair] at hrows
  simp [addPartToService, hfields, hemployee, hquantity, hrows, Server.withDatabase]

/-- A request that passes the checks and leaves a part of what is there. -/
theorem removePartFromService_update {id : Int} {row : PartInService} {current n : Nat}
    (haccepted : RemoveAccepted p server req b id row current n) (hlt : n < current) :
    removePartFromService p server req b = (server.withDatabase { server.database with
      partsInService := server.database.partsInService.update
        (fun other _ => p.isId other ((b.getElement Field.entry).getD []))
        (fun _ row =>
          { row with quantity := p.integerAffinity (p.minus row.quantity (quantityText b)) }) },
      .reply .ok none) := by
  have hselect : (server.database.partsInService.select fun other _ =>
      p.isId other ((b.getElement Field.entry).getD [])) = [(id, row)] := by
    refine Table.select_eq_singleton _ haccepted.found (by simp [p.isId_eq haccepted.named]) ?_
    intro other found _ hother
    simpa [p.isId_eq haccepted.named] using hother
  have hpositive : n ≠ 0 := by have := haccepted.positive; omega
  have hmore : ¬ current ≤ n := by omega
  simp [removePartFromService, haccepted.has, haccepted.employee, hselect, haccepted.current,
    removedQuantity_eq, haccepted.removed, hpositive, hmore, Server.withDatabase]

/-! ## Plain quantities -/

/-- The number that is read is the number of the whole text. -/
theorem requestedQuantity_eq (hnumeral : ∀ c ∈ quantityText b, isDigit c) {n : Nat}
    (h : fromChars uint64Max (quantityText b) = some n) : requestedQuantity b = n := by
  unfold fromChars at h
  rw [digits_of_all hnumeral] at h
  split at h
  · cases h
  · split at h
    · exact Option.some.inj h
    · cases h

variable (hlaw : p.Numerals) {t : Text} (ht : Numeral t)

include hlaw ht

theorem plus_numeral {c : Nat} (hbound : c + numeralValue t < 2 ^ 63) :
    p.integerAffinity (p.plus (.int c) t) = .int (c + numeralValue t : Nat) := by
  have hrange : Platform.inRange ((c : Int) + numeralValue t) = true := by
    simp only [Platform.inRange, Bool.and_eq_true, decide_eq_true_eq]
    omega
  simp only [Platform.plus, hlaw.leading_numeral ht (by omega), hrange, if_true,
    Platform.integerAffinity, Nat.cast_add]

theorem minus_numeral {c : Nat} (hlt : numeralValue t < c) (hbound : c < 2 ^ 63) :
    p.integerAffinity (p.minus (.int c) t) = .int (c - numeralValue t : Nat) := by
  have hrange : Platform.inRange ((c : Int) - numeralValue t) = true := by
    simp only [Platform.inRange, Bool.and_eq_true, decide_eq_true_eq]
    omega
  simp only [Platform.minus, hlaw.leading_numeral ht (by omega), hrange, if_true,
    Platform.integerAffinity, Nat.cast_sub hlt.le]

end Requests

end WFA
