-- SUMMARY: The tables of the garage, SQLite's column conversions, and the UPDATE clauses the routes build.
import WFA.Base.Table
import WFA.Base.Numeral
import WFA.Shared.Query

/-!
# The database

`Server/sqlcrt.txt`, `Server/include/Database.h` and `Server/src/Database.cpp`. A
column has an affinity but holds any value: a text that is bound to a parameter
is converted when it is stored, and every value is read back as a text. What
SQLite and the floating-point library do is a parameter, `Platform`.
-/

namespace WFA

open Text

/-! ## Values and tables -/

inductive Value where
  | null
  | int (n : Int)
  /-- A double, by its bits. -/
  | real (bits : UInt64)
  | text (t : Text)
  deriving DecidableEq, Repr

/-- `USERS`. -/
structure User where
  username : Value
  password : Value
  permissions : Value
  deriving DecidableEq, Repr

/-- `SUPPLIERS`. -/
structure Supplier where
  name : Value
  phone : Value
  email : Value
  deriving DecidableEq, Repr

/-- `VEHICLESHAREDDATA`. -/
structure VehicleShared where
  make : Value
  model : Value
  deriving DecidableEq, Repr

/-- `VEHICLES`. -/
structure Vehicle where
  plate : Value
  base : Value
  owner : Value
  year : Value
  colour : Value
  deriving DecidableEq, Repr

/-- `PARTGROUPS`. -/
structure PartGroup where
  name : Value
  deriving DecidableEq, Repr

/-- `PARTS`. -/
structure Part where
  name : Value
  quantity : Value
  supplier : Value
  price : Value
  similar : Value
  deriving DecidableEq, Repr

/-- `SERVICESHAREDDATA`. -/
structure ServiceShared where
  vehicle : Value
  requested : Value
  request : Value
  deriving DecidableEq, Repr

/-- `PARTSINSERVICE`. -/
structure PartInService where
  part : Value
  quantity : Value
  service : Value
  deriving DecidableEq, Repr

/-- `UNAUTHORISEDSERVICES`. -/
structure UnauthorisedService where
  service : Value
  deriving DecidableEq, Repr

/-- `ACTIVESERVICEDATA`. -/
structure ActiveService where
  service : Value
  labour : Value
  notes : Value
  authoriser : Value
  quote : Value
  deriving DecidableEq, Repr

/-- `OPENSERVICES`. -/
structure OpenService where
  service : Value
  deriving DecidableEq, Repr

/-- `CLOSEDSERVICES`. -/
structure ClosedService where
  service : Value
  completer : Value
  completed : Value
  paid : Value
  deriving DecidableEq, Repr

structure Database where
  users : Table User := .empty
  suppliers : Table Supplier := .empty
  vehicleShared : Table VehicleShared := .empty
  vehicles : Table Vehicle := .empty
  partGroups : Table PartGroup := .empty
  parts : Table Part := .empty
  serviceShared : Table ServiceShared := .empty
  partsInService : Table PartInService := .empty
  serviceUnauthorised : Table UnauthorisedService := .empty
  serviceActive : Table ActiveService := .empty
  serviceOpen : Table OpenService := .empty
  serviceClosed : Table ClosedService := .empty

/-- What the server relies on outside the repository. -/
structure Platform where
  /-- What a column of `INTEGER` affinity makes of a text. -/
  numeric : Text → Value
  /-- What a column of `REAL` affinity makes of a text. -/
  realNumeric : Text → Value
  /-- The double of an integer. -/
  toReal : Int → UInt64
  /-- The text of a double. -/
  realText : UInt64 → Text
  /-- The integer a double is, when it is one. -/
  realInteger : UInt64 → Option Int
  /-- The number at the front of a text, as arithmetic takes it. -/
  leading : Text → Value
  /-- Sum and difference of numbers of which one is no integer, or whose result
  leaves the range of integers. -/
  realPlus : Value → Value → Value
  realMinus : Value → Value → Value
  /-- `value LIKE pattern`. -/
  like : Value → Text → Bool
  /-- The order of values. -/
  atMost : Value → Value → Bool
  /-- The orders in which the join without a condition reads `SUPPLIERS` and `PARTGROUPS`,
  which SQL leaves to the engine. -/
  supplierScan : (table : Table Supplier) → table.Scan
  groupScan : (table : Table PartGroup) → table.Scan
  /-- The order in which a map of relations is visited. -/
  visited : List (Text × Text) → List (Text × Text)
  visited_perm : ∀ relations, (visited relations).Perm relations
  /-- `DATE(text, '-6 month')`. -/
  halfYearBefore : Text → Value
  /-- An `UPDATE` whose clause is not a list of quoted values for columns of its
  form, with the text that is bound to its key. `none` when the statement fails. -/
  escaped : Text → Text → Database → Option Database
  /-- `std::from_chars` of a double. -/
  readDouble : Text → Option UInt64
  /-- A double times a number of parts. -/
  timesQuantity : UInt64 → Nat → UInt64
  addDoubles : UInt64 → UInt64 → UInt64
  /-- `std::to_string` of a double. -/
  doubleText : UInt64 → Text

/-- The documented behaviour of `INTEGER` affinity on the numbers the server
prints itself. -/
structure Platform.Lawful (p : Platform) : Prop where
  numeric_ofNat : ∀ n : Nat, n < 2 ^ 63 → p.numeric (ofNat n) = .int n

namespace Platform

variable (p : Platform)

/-- A cell of a result: `NULL` as a word, and a text up to its first zero byte. -/
def columnText : Value → Text
  | .null => ("NULL" : Text)
  | .int n => ofInt n
  | .real bits => p.realText bits
  | .text t => t.takeWhile (· != 0)

def integerAffinity : Value → Value
  | .text t => p.numeric t
  | .real bits =>
    match p.realInteger bits with
    | some n => .int n
    | none => .real bits
  | v => v

def realAffinity : Value → Value
  | .text t => p.realNumeric t
  | .int n => .real (p.toReal n)
  | v => v

def textAffinity : Value → Value
  | .int n => .text (ofInt n)
  | .real bits => .text (p.realText bits)
  | v => v

/-- A result that fits is an integer. -/
def inRange (n : Int) : Bool :=
  -2 ^ 63 ≤ n && n < 2 ^ 63

/-- `value + :text`. -/
def plus (v : Value) (t : Text) : Value :=
  match v, p.leading t with
  | .int a, .int b => if inRange (a + b) then .int (a + b) else p.realPlus (.int a) (.int b)
  | a, b => p.realPlus a b

/-- `value - :text`. -/
def minus (v : Value) (t : Text) : Value :=
  match v, p.leading t with
  | .int a, .int b => if inRange (a - b) then .int (a - b) else p.realMinus (.int a) (.int b)
  | a, b => p.realMinus a b

/-- `ID = :ID` for a rowid and a bound text. -/
def isId (id : Int) (t : Text) : Bool :=
  p.numeric t == .int id

theorem isId_eq {key : Text} {id : Int} (h : p.numeric key = .int id) (other : Int) :
    p.isId other key = decide (other = id) := by
  rw [Bool.eq_iff_iff, isId, h, beq_iff_eq, decide_eq_true_eq, Value.int.injEq]
  exact eq_comm

variable {p} in
/-- The text of an ID reads as the ID. -/
theorem numeric_columnText (hlaw : p.Lawful) {id : Int} (hpos : 0 < id) (hbound : id < 2 ^ 63) :
    p.numeric (p.columnText (.int id)) = .int id := by
  have htext : p.columnText (.int id) = ofNat id.toNat := by
    rw [columnText, ofInt, if_neg (by omega)]
    congr 1
    omega
  rw [htext, hlaw.numeric_ofNat _ (by omega)]
  congr 1
  omega

/-- A bound text is the rowid of one row or of none. -/
theorem select_isId {α : Type} (t : Table α) (key : Text) :
    ((t.select fun id _ => p.isId id key) = [] ∧
      ∀ id a, t.get id = some a → p.isId id key = false) ∨
    ∃ id a, (t.select fun id _ => p.isId id key) = [(id, a)] ∧ t.get id = some a ∧
      p.numeric key = .int id := by
  cases hselect : t.select fun id _ => p.isId id key with
  | nil =>
    refine .inl ⟨rfl, ?_⟩
    intro id a hget
    cases hid : p.isId id key with
    | false => rfl
    | true =>
      have hmem : (id, a) ∈ t.select fun id _ => p.isId id key := t.mem_select.mpr ⟨hget, hid⟩
      simp [hselect] at hmem
  | cons row rest =>
    have hmem : (row.1, row.2) ∈ t.select fun id _ => p.isId id key := by simp [hselect]
    obtain ⟨hget, hid⟩ := t.mem_select.mp hmem
    have hkey : p.numeric key = .int row.1 := by simpa [isId] using hid
    refine .inr ⟨row.1, row.2, ?_, hget, hkey⟩
    rw [← hselect]
    refine t.select_eq_singleton hget hid ?_
    intro other b _ hother
    have : p.numeric key = .int other := by simpa [isId] using hother
    rw [hkey] at this
    exact (Value.int.inj this).symm

variable {α : Type} {t : Table α} {key : Text} {id : Int} {row : α}

/-- An update of the row that a bound text names. -/
theorem update_isId (hkey : p.numeric key = .int id) (hget : t.get id = some row)
    (f : Int → α → α) :
    Table.Writes t (t.update (fun other _ => p.isId other key) f) id (some (f id row)) := by
  intro other
  rw [Table.get_update]
  simp only [p.isId_eq hkey, decide_eq_true_eq]
  split
  · rename_i hother
    simp [hother, hget]
  · simp

/-- A deletion of the row that a bound text names. -/
theorem delete_isId (hkey : p.numeric key = .int id) :
    Table.Writes t (t.delete fun other _ => p.isId other key) id none := by
  intro other
  rw [Table.get_delete]
  simp only [p.isId_eq hkey]
  split
  · rename_i hother
    cases t.get other <;> simp [Option.filter, hother]
  · rename_i hother
    cases t.get other <;> simp [Option.filter, hother]

end Platform

/-! ## Update clauses -/

/-- The inside of a double-quoted token: doubled quotes stand for one. A single
quote ends the token early, and a zero byte ends the statement. -/
def unquote : Text → Option Text
  | [] => some []
  | [b] => if b == 0 || b == '"' then none else some [b]
  | b :: c :: t =>
    if b == 0 then none
    else if b == '"' then
      if c == '"' then (unquote t).map (('"' : Byte) :: ·) else none
    else (unquote (c :: t)).map (b :: ·)

/-- A text without quotes and zero bytes is its own token. -/
theorem unquote_plain {val : Text} (hquote : (('"' : Char) : Byte) ∉ val) (hzero : 0 ∉ val) :
    unquote val = some val := by
  induction val using unquote.induct with
  | case1 => rfl
  | case2 b hb =>
    simp only [List.mem_singleton] at hquote hzero
    simp [Ne.symm hquote, Ne.symm hzero] at hb
  | case3 b hb => simp [unquote, hb]
  | case4 b c t hb =>
    obtain rfl : b = 0 := by simpa using hb
    simp at hzero
  | case5 b c t hb hq hc ih =>
    obtain rfl : b = ('"' : Byte) := by simpa using hq
    simp at hquote
  | case6 b c t hb hq hc =>
    obtain rfl : b = ('"' : Byte) := by simpa using hq
    simp at hquote
  | case7 b c t hb hq ih =>
    have htail := ih (fun h => hquote (List.mem_cons_of_mem b h))
      (fun h => hzero (List.mem_cons_of_mem b h))
    simp [unquote, hb, hq, htail]

/-- The lower case of ASCII letters. -/
def lower (t : Text) : Text :=
  t.map fun (b : Byte) => if 'A' ≤ b && b ≤ 'Z' then b + 32 else b

/-- The names of the rowid that every table has. -/
def rowidNames : List Text := [("rowid" : Text), ("oid" : Text), ("_rowid_" : Text)]

/-- A double-quoted token is a column when it names one, and a string otherwise. -/
def quoted (columns : List (Text × Value)) (token : Text) : Value :=
  match columns.find? (·.1 == lower token) with
  | some column => column.2
  | none => .text token

theorem quoted_of_ne {columns : List (Text × Value)} {tok : Text}
    (h : ∀ column ∈ columns, column.1 ≠ lower tok) : quoted columns tok = .text tok := by
  have hfind : columns.find? (·.1 == lower tok) = none := by
    apply List.find?_eq_none.mpr
    intro column hmem
    simpa using h column hmem
  rw [quoted, hfind]

/-- The columns of a row of `USERS`. -/
def User.columns (id : Int) (row : User) : List (Text × Value) :=
  rowidNames.map (·, .int id) ++
    [(("id" : Text), .int id), (("username" : Text), row.username),
      (("password" : Text), row.password), (("permissions" : Text), row.permissions)]

/-- The columns of a row of `SUPPLIERS`. -/
def Supplier.columns (id : Int) (row : Supplier) : List (Text × Value) :=
  rowidNames.map (·, .int id) ++
    [(("id" : Text), .int id), (("name" : Text), row.name), (("phone" : Text), row.phone),
      (("email" : Text), row.email)]

/-- The columns of a row of `VEHICLES`. -/
def Vehicle.columns (id : Int) (row : Vehicle) : List (Text × Value) :=
  rowidNames.map (·, .int id) ++
    [(("id" : Text), .int id), (("plate" : Text), row.plate), (("base" : Text), row.base),
      (("owner" : Text), row.owner), (("year" : Text), row.year), (("colour" : Text), row.colour)]

/-- The columns of a row of `PARTS`. -/
def Part.columns (id : Int) (row : Part) : List (Text × Value) :=
  rowidNames.map (·, .int id) ++
    [(("id" : Text), .int id), (("name" : Text), row.name), (("quantity" : Text), row.quantity),
      (("supplier" : Text), row.supplier), (("price" : Text), row.price),
      (("similar" : Text), row.similar)]

/-- The columns of a row of `ACTIVESERVICEDATA`. -/
def ActiveService.columns (id : Int) (row : ActiveService) : List (Text × Value) :=
  rowidNames.map (·, .int id) ++
    [(("id" : Text), .int id), (("service" : Text), row.service), (("labour" : Text), row.labour),
      (("notes" : Text), row.notes), (("authoriser" : Text), row.authoriser),
      (("quote" : Text), row.quote)]

/-- The value a form sets: an element that is there and not empty. -/
def assigned (b : Body) (name : Text) : Option Text :=
  if b.hasElement name then b.getElement name else none

/-- `generateUpdateStatement`, where the list is the order in which the map of
relations is visited. -/
def generateUpdateStatement (b : Body) (relations : List (Text × Text)) : Text :=
  relations.foldl (fun ret relation =>
    match assigned b relation.1 with
    | none => ret
    | some val =>
      (if ret.isEmpty then ret else ret ++ [(',' : Byte)]) ++
        (relation.2 ++ ((" = \"" : Text) ++ (val ++ [('"' : Byte)])))) []

/-- Every value stays inside its quotes. -/
def wellQuoted (b : Body) (relations : List (Text × Text)) : Bool :=
  relations.all fun relation => (assigned b relation.1).all fun val => (unquote val).isSome

theorem isSome_unquote {b : Body} {relations : List (Text × Text)} {name column val : Text}
    (h : wellQuoted b relations = true) (hmem : (name, column) ∈ relations)
    (hval : assigned b name = some val) : (unquote val).isSome = true := by
  have hvalue := List.all_eq_true.mp h (name, column) hmem
  rwa [hval] at hvalue

/-- The token a relation contributes to the clause. -/
def token (b : Body) (name : Text) : Option Text :=
  (assigned b name).bind unquote

/-- One column after an `UPDATE`: the value of its token in the old row, with the
column's affinity, or the old value. -/
def updated (affinity : Value → Value) (columns : List (Text × Value)) (old : Value) :
    Option Text → Value
  | none => old
  | some t => affinity (quoted columns t)

/-! ## Statements -/

/-- `WHERE` of a foreign key: the row that a value names, if it names one. -/
def Value.row {α : Type} (v : Value) (t : Table α) : Option (Int × α) :=
  match v with
  | .int id => (t.get id).map (id, ·)
  | _ => none

theorem row_eq_some_iff {α : Type} {v : Value} {t : Table α} {id : Int} {row : α} :
    v.row t = some (id, row) ↔ v = .int id ∧ t.get id = some row := by
  cases v with
  | int n =>
    simp only [Value.row, Option.map_eq_some_iff, Prod.mk.injEq, Value.int.injEq]
    constructor
    · rintro ⟨found, hget, rfl, rfl⟩
      exact ⟨rfl, hget⟩
    · rintro ⟨rfl, hget⟩
      exact ⟨row, hget, rfl, rfl⟩
  | _ => simp [Value.row]

/-- No other row has this value in a `UNIQUE` column. -/
def unused {α : Type} (t : Table α) (column : α → Value) (id : Int) (row : α) : Bool :=
  (t.select fun other found => other != id && column found == column row).isEmpty

/-- An `INSERT` into a table with a `UNIQUE` column. The other columns are bound
texts or integers, so none is null. -/
def insertUnique {α : Type} (t : Table α) (column : α → Value) (row : α) :
    Option (Int × Table α) :=
  if unused t column t.nextId row then t.insert row else none

/-- An `UPDATE` of the rows that satisfy a condition, which fails when one of them
breaks a constraint. -/
def updateRows {α : Type} (t : Table α) (selected : Int → α → Bool) (f : Int → α → α)
    (admissible : Int → α → Bool) : Option (Table α) :=
  if (t.select selected).all fun row => admissible row.1 (f row.1 row.2) then
    some (t.update selected f)
  else none

section Updates

variable {α : Type} {t : Table α} {selected : Int → α → Bool} {f g : Int → α → α}
  {admissible : Int → α → Bool}

theorem updateRows_congr (h : ∀ row ∈ t.select selected, f row.1 row.2 = g row.1 row.2) :
    updateRows t selected f admissible = updateRows t selected g admissible := by
  have hadmissible : ((t.select selected).all fun row => admissible row.1 (f row.1 row.2)) =
      (t.select selected).all fun row => admissible row.1 (g row.1 row.2) := by
    rw [Bool.eq_iff_iff, List.all_eq_true, List.all_eq_true]
    apply forall₂_congr
    intro row hrow
    rw [h row hrow]
  have hupdate : t.update selected f = t.update selected g := by
    simp only [Table.update, Table.mk.injEq, List.map_inj_left, Prod.mk.injEq, true_and]
    intro row hrow
    split
    · rename_i hselected
      exact h row (List.mem_filter.mpr ⟨hrow, hselected⟩)
    · rfl
  rw [updateRows, updateRows, hadmissible, hupdate]

theorem updateRows_map {β : Type} {replace : Table α → β} :
    (updateRows t selected f admissible).map replace =
      if (t.select selected).all fun row => admissible row.1 (f row.1 row.2) then
        some (replace (t.update selected f))
      else none := by
  unfold updateRows
  split
  · rfl
  · rfl

theorem updateRows_eq_some {t' : Table α} (h : updateRows t selected f admissible = some t') :
    t' = t.update selected f := by
  unfold updateRows at h
  split at h
  · exact (Option.some.inj h).symm
  · exact absurd h (by simp)

/-- Two updates that succeed alike make the same rows. -/
theorem updateRows_inj {t' : Table α} (hf : updateRows t selected f admissible = some t')
    (hg : updateRows t selected g admissible = some t') {row : Int × α}
    (hrow : row ∈ t.select selected) : f row.1 row.2 = g row.1 row.2 := by
  obtain ⟨hget, hselected⟩ := t.mem_select.mp hrow
  have hupdate : t.update selected f = t.update selected g :=
    (updateRows_eq_some hf).symm.trans (updateRows_eq_some hg)
  have hrows := congrArg (fun rows => rows.get row.1) hupdate
  simpa [Table.get_update, hget, hselected] using hrows

end Updates

/-- A table of one row. -/
def single {α : Type} (row : α) : Table α :=
  (Table.empty.insert row).elim .empty (·.2)

theorem single_get {α : Type} {row found : α} {id : Int} (h : (single row).get id = some found) :
    id = 1 ∧ found = row := by
  have hmem : (id, found) ∈ [((1 : Int), row)] := Table.get_eq_some_iff _ |>.mp h
  simpa using hmem

/-! ## A platform to run the model on

It converts decimal integers, with an exponent or without one, and keeps every
other text as it is. -/

namespace Platform

/-- A run of digits, or one with an exponent. -/
def readInteger (t : Text) : Option Nat :=
  let front := digits t
  if front.isEmpty then none
  else
    match t.drop front.length with
    | [] => some (numeralValue front)
    | b :: exponent =>
      if b == 'e' && !exponent.isEmpty && exponent.all isDigit then
        some (numeralValue front * 10 ^ numeralValue exponent)
      else none

/-- The double of a natural number below `2 ^ 53`. -/
def doubleOf (n : Nat) : UInt64 :=
  if n = 0 then 0
  else UInt64.ofNat ((1023 + n.log2) * 2 ^ 52 + (n - 2 ^ n.log2) * 2 ^ (52 - n.log2))

/-- The natural number a double is, where it is one of those. -/
def natOf (bits : UInt64) : Option Nat :=
  let e := bits.toNat / 2 ^ 52 - 1023
  let n := (2 ^ 52 + bits.toNat % 2 ^ 52) / 2 ^ (52 - e)
  if doubleOf 0 = bits then some 0
  else if e ≤ 52 && doubleOf n = bits then some n
  else none

/-- The number of an operand. -/
def operand : Value → Option Int
  | .int n => some n
  | .real bits => (natOf bits).map Int.ofNat
  | _ => none

/-- An operation on doubles, where operands and result are natural numbers. -/
def onDoubles (op : Int → Int → Int) (a b : Value) : Value :=
  match operand a, operand b with
  | some a, some b => .real (doubleOf (op a b).toNat)
  | _, _ => .null

/-- The bytes of a text. -/
def bytes : Value → Text
  | .text t => t
  | _ => []

/-- The walk of an index on a column of texts. -/
def indexScan {α : Type} (column : α → Value) (table : Table α) : table.Scan :=
  ⟨table.rows.insertionSort fun row row' => bytes (column row.2) ≤ bytes (column row'.2),
    List.perm_insertionSort _ _⟩

/-- SQLite has the names of `SUPPLIERS` from the index of `UNIQUE(NAME)`, and takes the
rowids of `PARTGROUPS` from the table. -/
def integers : Platform where
  numeric t :=
    match readInteger t with
    | some n => if n < 2 ^ 63 then .int n else .text t
    | none => .text t
  realNumeric t := if t = ("0" : Text) then .real 0 else .text t
  toReal n := doubleOf n.toNat
  realText bits := ofNat ((natOf bits).getD 0) ++ (".0" : Text)
  realInteger bits := (natOf bits).map Int.ofNat
  leading t :=
    if t.any (fun b => b == 'e') then .real (doubleOf ((readInteger t).getD 0))
    else .int (numeralValue (digits t))
  realPlus := onDoubles (· + ·)
  realMinus := onDoubles (· - ·)
  like _ _ := true
  atMost _ _ := true
  supplierScan := indexScan Supplier.name
  groupScan table := ⟨table.rows, .refl _⟩
  visited relations := relations
  visited_perm _ := .refl _
  halfYearBefore t := .text t
  escaped _ _ _ := none
  readDouble t := (fromChars (2 ^ 53) t).map doubleOf
  timesQuantity bits n := doubleOf ((natOf bits).getD 0 * n)
  addDoubles a b := doubleOf ((natOf a).getD 0 + (natOf b).getD 0)
  doubleText bits := ofNat ((natOf bits).getD 0) ++ (".000000" : Text)

theorem integers_lawful : integers.Lawful where
  numeric_ofNat n h := by
    have hread : readInteger (ofNat n) = some n := by
      simp [readInteger, digits_ofNat, ofNat_ne_nil, numeralValue_ofNat]
    simpa [integers, hread] using h

end Platform

end WFA
