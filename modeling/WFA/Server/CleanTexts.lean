-- SUMMARY: As long as no form brings a delimiter of the wire format, the database has none in any cell.
import WFA.Base.Each
import WFA.Server.ServiceEffects
import WFA.Server.UserEffects
import WFA.Server.VehicleRuns
import WFA.Shared.RoundTrip

/-!
# Cells without delimiters

The back end sends its records as text with brackets and commas as delimiters, and
it does not escape a value. What a value may not have in it comes from the forms:
numbers, dates and words of the server have no delimiter. An update can also copy
one column of a row to another, so the property is one of all cells together.
-/

namespace WFA

open Text ResponseWrapper

/-! ## Values -/

/-- A text of the cell has no delimiter in it. -/
def Value.Clean : Value → Prop
  | .text t => FreeOf valueDelimiters t
  | _ => True

/-- What is documented of numbers: an affinity converts a text to a number or keeps
it, arithmetic does not make a text, and a number prints without a delimiter. -/
structure Platform.PrintsNumbers (p : Platform) : Prop where
  numeric : ∀ t u, p.numeric t = .text u → u = t
  realNumeric : ∀ t u, p.realNumeric t = .text u → u = t
  realPlus : ∀ v w t, p.realPlus v w ≠ .text t
  realMinus : ∀ v w t, p.realMinus v w ≠ .text t
  realText : ∀ bits, FreeOf valueDelimiters (p.realText bits)
  doubleText : ∀ bits, FreeOf valueDelimiters (p.doubleText bits)

/-- Every element of a form has no delimiter in it. -/
def QueryBase.Clean (b : QueryBase) : Prop :=
  ∀ name t, b.getElement name = some t → FreeOf valueDelimiters t

/-- What a request brings, and the date of its day. -/
structure CleanCall (call : Call) : Prop where
  b : call.b.Clean
  q : call.q.Clean
  date : FreeOf valueDelimiters call.date

theorem freeOf_nil (delimiters : Text) : FreeOf delimiters [] := by
  intro b hb
  simp at hb

theorem freeOf_digits {t : Text} (h : ∀ b ∈ t, isDigit b = true) : FreeOf valueDelimiters t := by
  intro b hb hmem
  have hdigit := h b hb
  have hnone : ∀ d ∈ valueDelimiters, isDigit d = false := by decide +kernel
  rw [hnone b hmem] at hdigit
  simp at hdigit

theorem freeOf_ofNat (n : Nat) : FreeOf valueDelimiters (ofNat n) :=
  freeOf_digits fun _ hb => isDigit_ofNat hb

theorem freeOf_ofInt (n : Int) : FreeOf valueDelimiters (ofInt n) := by
  unfold ofInt
  split
  · intro b hb
    rcases List.mem_cons.mp hb with rfl | hb
    · decide
    · exact freeOf_ofNat _ b hb
  · exact freeOf_ofNat _

theorem QueryBase.Clean.getD {b : QueryBase} (h : b.Clean) (name : Text) :
    FreeOf valueDelimiters ((b.getElement name).getD []) := by
  cases hget : b.getElement name with
  | none => exact freeOf_nil _
  | some t => exact h name t hget

theorem clean_of_ne_text {v : Value} (h : ∀ t, v ≠ .text t) : v.Clean := by
  cases v with
  | text t => exact absurd rfl (h t)
  | _ => trivial

section Values

variable {p : Platform} (hp : p.PrintsNumbers) {v : Value} {t : Text}

include hp

theorem clean_numeric (h : FreeOf valueDelimiters t) : (p.numeric t).Clean := by
  cases hvalue : p.numeric t with
  | text u =>
    obtain rfl := hp.numeric t u hvalue
    exact h
  | _ => trivial

theorem clean_realNumeric (h : FreeOf valueDelimiters t) : (p.realNumeric t).Clean := by
  cases hvalue : p.realNumeric t with
  | text u =>
    obtain rfl := hp.realNumeric t u hvalue
    exact h
  | _ => trivial

theorem clean_integerAffinity (h : v.Clean) : (p.integerAffinity v).Clean := by
  cases v with
  | text t => exact clean_numeric hp h
  | real bits =>
    unfold Platform.integerAffinity
    dsimp only
    split <;> trivial
  | null => trivial
  | int n => trivial

theorem clean_realAffinity (h : v.Clean) : (p.realAffinity v).Clean := by
  cases v with
  | text t => exact clean_realNumeric hp h
  | _ => trivial

theorem clean_textAffinity (h : v.Clean) : (p.textAffinity v).Clean := by
  cases v with
  | text t => exact h
  | int n => exact freeOf_ofInt n
  | real bits => exact hp.realText bits
  | null => trivial

theorem clean_plus : (p.plus v t).Clean := by
  apply clean_of_ne_text
  intro u
  unfold Platform.plus
  split
  · split
    · simp
    · exact hp.realPlus _ _ u
  · exact hp.realPlus _ _ u

theorem clean_minus : (p.minus v t).Clean := by
  apply clean_of_ne_text
  intro u
  unfold Platform.minus
  split
  · split
    · simp
    · exact hp.realMinus _ _ u
  · exact hp.realMinus _ _ u

end Values

/-! ## Updates -/

/-- What a quoted value stands for has no byte that the value has not. -/
theorem mem_of_unquote {val u : Text} (h : unquote val = some u) {b : Byte} (hb : b ∈ u) :
    b ∈ val := by
  induction val using unquote.induct generalizing u with
  | case1 =>
    obtain rfl : [] = u := by simpa [unquote] using h
    simp at hb
  | case2 c hc => simp [unquote, hc] at h
  | case3 c hc =>
    obtain rfl : [c] = u := by simpa [unquote, hc] using h
    exact hb
  | case4 c d t hc => simp [unquote, hc] at h
  | case5 c d t hc hq hd ih =>
    obtain rfl : d = ('"' : Byte) := by simpa using hd
    obtain rfl : c = ('"' : Byte) := by simpa using hq
    simp only [unquote] at h
    obtain ⟨inner, hinner, rfl⟩ := Option.map_eq_some_iff.mp (by simpa [hc] using h)
    rcases List.mem_cons.mp hb with rfl | hb
    · simp
    · simp [ih hinner hb]
  | case6 c d t hc hq hd => simp [unquote, hc, hq, hd] at h
  | case7 c d t hc hq ih =>
    simp only [unquote] at h
    obtain ⟨inner, hinner, rfl⟩ := Option.map_eq_some_iff.mp (by simpa [hc, hq] using h)
    rcases List.mem_cons.mp hb with rfl | hb
    · simp
    · exact List.mem_cons_of_mem _ (ih hinner hb)

theorem freeOf_token {b : Body} (hb : b.Clean) {name t : Text} (h : token b name = some t) :
    FreeOf valueDelimiters t := by
  obtain ⟨val, hval, hunquote⟩ := Option.bind_eq_some_iff.mp h
  unfold assigned at hval
  split at hval
  · exact fun c hc => hb name val hval c (mem_of_unquote hunquote hc)
  · simp at hval

/-- An updated column has the value of the form, or that of a column. -/
theorem clean_updated {affinity : Value → Value} {columns : List (Text × Value)} {old : Value}
    {b : Body} {name : Text} (hb : b.Clean)
    (haffinity : ∀ v : Value, v.Clean → (affinity v).Clean)
    (hcolumns : ∀ column ∈ columns, column.2.Clean) (hold : old.Clean) :
    (updated affinity columns old (token b name)).Clean := by
  cases htoken : token b name with
  | none => exact hold
  | some t =>
    apply haffinity
    unfold quoted
    split
    · rename_i column hfind
      exact hcolumns column (List.mem_of_find?_eq_some hfind)
    · exact freeOf_token hb htoken

/-- What an update makes of a cell: it is kept, or set in a column of some affinity. -/
inductive UpdatedCell (p : Platform) (b : Body) (columns : List (Text × Value)) :
    Value → Value → Prop
  | kept {old : Value} : UpdatedCell p b columns old old
  | text {old : Value} (name : Text) :
    UpdatedCell p b columns old (updated p.textAffinity columns old (token b name))
  | integer {old : Value} (name : Text) :
    UpdatedCell p b columns old (updated p.integerAffinity columns old (token b name))
  | real {old : Value} (name : Text) :
    UpdatedCell p b columns old (updated p.realAffinity columns old (token b name))

theorem UpdatedCell.clean {p : Platform} {b : Body} {columns : List (Text × Value)}
    {old new : Value} (h : UpdatedCell p b columns old new) (hp : p.PrintsNumbers) (hb : b.Clean)
    (hcolumns : ∀ column ∈ columns, column.2.Clean) (hold : old.Clean) : new.Clean := by
  cases h with
  | kept => exact hold
  | text name => exact clean_updated hb (fun _ => clean_textAffinity hp) hcolumns hold
  | integer name => exact clean_updated hb (fun _ => clean_integerAffinity hp) hcolumns hold
  | real name => exact clean_updated hb (fun _ => clean_realAffinity hp) hcolumns hold

/-! ## Rows -/

def User.cells (row : User) : List Value := [row.username, row.password, row.permissions]

def Supplier.cells (row : Supplier) : List Value := [row.name, row.phone, row.email]

def VehicleShared.cells (row : VehicleShared) : List Value := [row.make, row.model]

def Vehicle.cells (row : Vehicle) : List Value :=
  [row.plate, row.base, row.owner, row.year, row.colour]

def PartGroup.cells (row : PartGroup) : List Value := [row.name]

def Part.cells (row : Part) : List Value :=
  [row.name, row.quantity, row.supplier, row.price, row.similar]

def ServiceShared.cells (row : ServiceShared) : List Value :=
  [row.vehicle, row.requested, row.request]

def PartInService.cells (row : PartInService) : List Value := [row.part, row.quantity, row.service]

def UnauthorisedService.cells (row : UnauthorisedService) : List Value := [row.service]

def ActiveService.cells (row : ActiveService) : List Value :=
  [row.service, row.labour, row.notes, row.authoriser, row.quote]

def OpenService.cells (row : OpenService) : List Value := [row.service]

def ClosedService.cells (row : ClosedService) : List Value :=
  [row.service, row.completer, row.completed, row.paid]

/-- Every cell is clean. -/
def CleanRow (cells : List Value) : Prop :=
  ∀ v ∈ cells, v.Clean

/-- Every cell of every table is clean. -/
structure CleanDatabase (db : Database) : Prop where
  users : db.users.Each fun row => CleanRow row.cells
  suppliers : db.suppliers.Each fun row => CleanRow row.cells
  vehicleShared : db.vehicleShared.Each fun row => CleanRow row.cells
  vehicles : db.vehicles.Each fun row => CleanRow row.cells
  partGroups : db.partGroups.Each fun row => CleanRow row.cells
  parts : db.parts.Each fun row => CleanRow row.cells
  serviceShared : db.serviceShared.Each fun row => CleanRow row.cells
  partsInService : db.partsInService.Each fun row => CleanRow row.cells
  serviceUnauthorised : db.serviceUnauthorised.Each fun row => CleanRow row.cells
  serviceActive : db.serviceActive.Each fun row => CleanRow row.cells
  serviceOpen : db.serviceOpen.Each fun row => CleanRow row.cells
  serviceClosed : db.serviceClosed.Each fun row => CleanRow row.cells

@[simp] theorem cleanRow_nil : CleanRow [] := by
  simp [CleanRow]

@[simp] theorem cleanRow_cons {v : Value} {cells : List Value} :
    CleanRow (v :: cells) ↔ v.Clean ∧ CleanRow cells := by
  simp [CleanRow]

/-- A row stays clean when each cell is kept or set from a form. -/
theorem CleanRow.updated {p : Platform} {b : Body} {cells after : List Value}
    (h : CleanRow cells) (hp : p.PrintsNumbers) (hb : b.Clean) (columns : List (Text × Value))
    (hcolumns : ∀ column ∈ columns, column.2.Clean)
    (hcells : List.Forall₂ (UpdatedCell p b columns) cells after) : CleanRow after := by
  induction hcells with
  | nil => exact cleanRow_nil
  | cons hcell _ ih =>
    obtain ⟨hold, hrest⟩ := cleanRow_cons.mp h
    exact cleanRow_cons.mpr ⟨hcell.clean hp hb hcolumns hold, ih hrest⟩

/-- The names of the rowid stand for a number. -/
theorem clean_columns {id : Int} {columns : List (Text × Value)}
    (h : CleanRow (columns.map Prod.snd)) :
    ∀ column ∈ rowidNames.map (·, Value.int id) ++ (("id" : Text), Value.int id) :: columns,
      column.2.Clean := by
  intro column hcolumn
  rcases List.mem_append.mp hcolumn with hrowid | hcolumn
  · obtain ⟨name, -, rfl⟩ := List.mem_map.mp hrowid
    trivial
  · rcases List.mem_cons.mp hcolumn with rfl | hcolumn
    · trivial
    · exact h _ (List.mem_map_of_mem hcolumn)

theorem freeOf_elementOrNull {b : Body} (hb : b.Clean) (name : Text) :
    FreeOf valueDelimiters (elementOrNull b name) := by
  unfold elementOrNull
  split
  · exact hb.getD name
  · change FreeOf valueDelimiters ("NULL" : Text)
    decide +kernel

section Rows

variable {p : Platform} (hp : p.PrintsNumbers) {b : Body} (hb : b.Clean)

include hp hb

theorem clean_newUser {permissions : Value} (hpermissions : permissions.Clean) :
    CleanRow (newUser p ((b.getElement Field.username).getD [])
      ((b.getElement Field.password).getD []) permissions).cells := by
  simp only [User.cells, newUser, cleanRow_cons, cleanRow_nil, and_true]
  exact ⟨hb.getD _, hb.getD _, clean_integerAffinity hp hpermissions⟩

theorem clean_newSupplier : CleanRow (newSupplier p b).cells := by
  simp only [Supplier.cells, newSupplier, insertedSupplier, cleanRow_cons, cleanRow_nil, and_true]
  exact ⟨hb.getD _, clean_numeric hp (freeOf_elementOrNull hb _), freeOf_elementOrNull hb _⟩

theorem clean_newPart : CleanRow (newPart p b).cells := by
  have hnull : FreeOf valueDelimiters nullWord := by decide +kernel
  simp only [Part.cells, newPart, insertedPart, cleanRow_cons, cleanRow_nil, and_true]
  exact ⟨hb.getD _, clean_numeric hp (hb.getD _), clean_numeric hp (hb.getD _),
    clean_numeric hp (hb.getD _), clean_numeric hp hnull⟩

theorem clean_newVehicle {base : Value} (hbase : base.Clean) :
    CleanRow (newVehicle p b base).cells := by
  simp only [Vehicle.cells, newVehicle, insertedVehicle, cleanRow_cons, cleanRow_nil, and_true]
  exact ⟨hb.getD _, hbase, clean_numeric hp (hb.getD _), clean_numeric hp (hb.getD _), hb.getD _⟩

theorem clean_newService {date : Text} (hdate : FreeOf valueDelimiters date) :
    CleanRow (newService p b date).cells := by
  simp only [ServiceShared.cells, newService, insertedService, cleanRow_cons, cleanRow_nil, and_true]
  exact ⟨clean_numeric hp (hb.getD _), clean_numeric hp hdate, hb.getD _⟩

theorem clean_newActive {key quote : Text} (hkey : b.getElement Field.id = some key)
    (hquote : b.getElement Field.quote = some quote) (user : Nat) :
    CleanRow (newActive p b key quote user).cells := by
  have hnotes : FreeOf valueDelimiters
      (if b.hasElement Field.notes then (b.getElement Field.notes).getD [] else []) := by
    split
    · exact hb.getD _
    · exact freeOf_nil _
  simp only [ActiveService.cells, newActive, insertedActive, cleanRow_cons, cleanRow_nil, and_true]
  exact ⟨clean_numeric hp (hb _ _ hkey), trivial, hnotes, clean_numeric hp (freeOf_ofNat user),
    clean_numeric hp (hb _ _ hquote)⟩

theorem clean_newClosed {paid date : Text} (hpaid : b.getElement Field.paid = some paid)
    (hdate : FreeOf valueDelimiters date) (user : Nat) :
    CleanRow (newClosed p ((b.getElement Field.id).getD []) paid date user).cells := by
  simp only [ClosedService.cells, newClosed, cleanRow_cons, cleanRow_nil, and_true]
  exact ⟨clean_numeric hp (hb.getD _), clean_numeric hp (freeOf_ofNat user),
    clean_numeric hp hdate, clean_realNumeric hp (hb _ _ hpaid)⟩

theorem clean_newPartInService : CleanRow (newPartInService p b).cells := by
  have hquantity : FreeOf valueDelimiters (quantityText b) := by
    unfold quantityText
    split
    · exact hb.getD _
    · exact freeOf_ofNat 1
  simp only [PartInService.cells, newPartInService, insertedPartInService, cleanRow_cons,
    cleanRow_nil, and_true]
  exact ⟨clean_numeric hp (hb.getD _), clean_numeric hp hquantity, clean_numeric hp (hb.getD _)⟩

end Rows

/-! ## Statements -/

section Statements

variable {p : Platform} {route : Route} {call : Call} {db db' : Database}

theorem Statement.clean (h : Statement p route call db db') (hp : p.PrintsNumbers)
    (hcall : CleanCall call) (hquoted : Quoted route call.b) (hdb : CleanDatabase db) :
    CleanDatabase db' := by
  have hb := hcall.b
  cases h with
  | insertUser hpermissions hinsert =>
    obtain ⟨hrow, -⟩ := insertUser_eq_some hinsert
    refine { hdb with users := hdb.users.insert hrow (clean_newUser hp hb ?_) }
    rcases hpermissions with rfl | rfl
    · trivial
    · exact hb.getD _
  | deleteUsers _ => exact { hdb with users := hdb.users.delete _ }
  | updateUsers hroute hupdate =>
    unfold WFA.updateUsers at hupdate
    rw [hquoted.well userRelations (congrArg Route.relations hroute)] at hupdate
    simp only [Bool.false_eq_true, if_false] at hupdate
    split at hupdate
    · obtain rfl := Option.some.inj hupdate
      refine { hdb with users := hdb.users.update fun id row hrow => ?_ }
      exact hrow.updated hp hb (row.columns id) (clean_columns hrow)
        (.cons (.text _) (.cons (.text _) (.cons (.integer _) .nil)))
    · simp at hupdate
  | insertSupplier hinsert =>
    obtain ⟨hrow, -⟩ := insertUnique_eq_some hinsert
    exact { hdb with suppliers := hdb.suppliers.insert hrow (clean_newSupplier hp hb) }
  | updateSuppliers hroute hupdate =>
    unfold WFA.updateSuppliers at hupdate
    rw [hquoted.well supplierRelations (congrArg Route.relations hroute)] at hupdate
    obtain ⟨table, hrows, rfl⟩ := Option.map_eq_some_iff.mp hupdate
    obtain rfl := updateRows_eq_some hrows
    refine { hdb with suppliers := hdb.suppliers.update fun id row hrow => ?_ }
    exact hrow.updated hp hb (row.columns id) (clean_columns hrow)
      (.cons (.text _) (.cons (.integer _) (.cons (.text _) .nil)))
  | insertPartGroup hinsert =>
    obtain ⟨hrow, -⟩ := insertUnique_eq_some hinsert
    refine { hdb with partGroups := hdb.partGroups.insert hrow ?_ }
    exact cleanRow_cons.mpr ⟨hb.getD _, cleanRow_nil⟩
  | updatePartGroups hupdate =>
    obtain rfl := updateRows_eq_some hupdate
    refine { hdb with partGroups := hdb.partGroups.update fun id _ _ => ?_ }
    exact cleanRow_cons.mpr ⟨hb.getD _, cleanRow_nil⟩
  | insertPart hinsert =>
    obtain ⟨hrow, -⟩ := insertUnique_eq_some hinsert
    exact { hdb with parts := hdb.parts.insert hrow (clean_newPart hp hb) }
  | updateParts hroute hupdate =>
    unfold WFA.updateParts at hupdate
    rw [hquoted.well partRelations (congrArg Route.relations hroute)] at hupdate
    obtain ⟨table, hrows, rfl⟩ := Option.map_eq_some_iff.mp hupdate
    obtain rfl := updateRows_eq_some hrows
    refine { hdb with parts := hdb.parts.update fun id row hrow => ?_ }
    exact hrow.updated hp hb (row.columns id) (clean_columns hrow)
      (.cons (.text _) (.cons (.integer _) (.cons (.integer _)
          (.cons (.integer _) (.cons (.integer _) .nil)))))
  | insertVehicleShared hinsert =>
    unfold WFA.insertVehicleShared at hinsert
    split at hinsert
    · obtain ⟨⟨new, table⟩, hrow, rfl⟩ := Option.map_eq_some_iff.mp hinsert
      refine { hdb with vehicleShared := hdb.vehicleShared.insert hrow ?_ }
      simp only [VehicleShared.cells, cleanRow_cons, cleanRow_nil, and_true]
      exact ⟨hb.getD _, hb.getD _⟩
    · obtain rfl := Option.some.inj hinsert
      exact { hdb with }
  | insertVehicle hinsert =>
    unfold WFA.insertVehicle at hinsert
    split at hinsert
    · simp at hinsert
    · obtain ⟨⟨new, table⟩, hunique, rfl⟩ := Option.map_eq_some_iff.mp hinsert
      obtain ⟨hrow, -⟩ := insertUnique_eq_some hunique
      refine { hdb with vehicles := hdb.vehicles.insert hrow (clean_newVehicle hp hb ?_) }
      unfold vehicleBase
      split <;> trivial
  | updateVehicles hroute hupdate =>
    unfold WFA.updateVehicles at hupdate
    rw [hquoted.well vehicleRelations (congrArg Route.relations hroute)] at hupdate
    obtain ⟨table, hrows, rfl⟩ := Option.map_eq_some_iff.mp hupdate
    obtain rfl := updateRows_eq_some hrows
    refine { hdb with vehicles := hdb.vehicles.update fun id row hrow => ?_ }
    exact hrow.updated hp hb (row.columns id) (clean_columns hrow)
      (.cons (.text _) (.cons .kept (.cons .kept (.cons .kept (.cons (.text _) .nil)))))
  | deleteVehicles _ => exact { hdb with vehicles := hdb.vehicles.delete _ }
  | insertService hinsert =>
    exact { hdb with
      serviceShared := hdb.serviceShared.insert hinsert (clean_newService hp hb hcall.date) }
  | insertUnauthorised hinsert =>
    obtain ⟨hrow, -⟩ := insertUnique_eq_some hinsert
    refine { hdb with serviceUnauthorised := hdb.serviceUnauthorised.insert hrow ?_ }
    exact cleanRow_cons.mpr ⟨trivial, cleanRow_nil⟩
  | deleteUnauthorised _ =>
    exact { hdb with serviceUnauthorised := hdb.serviceUnauthorised.delete _ }
  | insertActive hkey hquote hinsert =>
    exact { hdb with
      serviceActive := hdb.serviceActive.insert hinsert (clean_newActive hp hb hkey hquote _) }
  | updateServices hroute hupdate =>
    unfold WFA.updateServices at hupdate
    rw [hquoted.well serviceRelations (congrArg Route.relations hroute)] at hupdate
    obtain rfl := Option.some.inj hupdate
    refine { hdb with serviceActive := hdb.serviceActive.update fun id row hrow => ?_ }
    exact hrow.updated hp hb (row.columns id) (clean_columns hrow)
      (.cons .kept (.cons (.real _) (.cons (.text _) (.cons .kept (.cons .kept .nil)))))
  | insertOpen hinsert =>
    obtain ⟨hrow, -⟩ := insertUnique_eq_some hinsert
    refine { hdb with serviceOpen := hdb.serviceOpen.insert hrow ?_ }
    exact cleanRow_cons.mpr ⟨trivial, cleanRow_nil⟩
  | deleteOpen _ => exact { hdb with serviceOpen := hdb.serviceOpen.delete _ }
  | insertClosed hpaid hinsert =>
    obtain ⟨hrow, -⟩ := insertUnique_eq_some hinsert
    exact { hdb with
      serviceClosed := hdb.serviceClosed.insert hrow (clean_newClosed hp hb hpaid hcall.date _) }
  | insertPartInService hinsert =>
    exact { hdb with
      partsInService := hdb.partsInService.insert hinsert (clean_newPartInService hp hb) }
  | addQuantity _ =>
    refine { hdb with partsInService := hdb.partsInService.update fun id row hrow => ?_ }
    simp only [PartInService.cells, cleanRow_cons, cleanRow_nil, and_true] at hrow ⊢
    exact ⟨hrow.1, clean_integerAffinity hp (clean_plus hp), hrow.2.2⟩
  | removeQuantity _ =>
    refine { hdb with partsInService := hdb.partsInService.update fun id row hrow => ?_ }
    simp only [PartInService.cells, cleanRow_cons, cleanRow_nil, and_true] at hrow ⊢
    exact ⟨hrow.1, clean_integerAffinity hp (clean_minus hp), hrow.2.2⟩
  | deletePartsInService _ => exact { hdb with partsInService := hdb.partsInService.delete _ }

end Statements

end WFA
