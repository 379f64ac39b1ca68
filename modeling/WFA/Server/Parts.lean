-- SUMMARY: The routes for suppliers, part groups and parts.
import WFA.Server.User

/-!
# Parts

`Server/include/WebRoutes/Parts.h`. Joins are nested loops over their tables in
the order in which the statement names them. A table that a condition joins is looked
up by its rowid; the two that come without one are read in the order of
`Platform.supplierScan` and `Platform.groupScan`.
-/

namespace WFA

open Text

section Parts

variable (p : Platform)

/-- The word that is bound where there is no value. -/
def nullWord : Text := ("NULL" : Text)

/-! ## Suppliers -/

/-- An element of the form, or the word `NULL`. -/
def elementOrNull (b : Body) (name : Text) : Text :=
  if b.hasElement name then (b.getElement name).getD [] else nullWord

/-- The row of an `INSERT` with these texts. -/
def insertedSupplier (name phone email : Text) : Supplier where
  name := .text name
  phone := p.numeric phone
  email := .text email

/-- The row of a new supplier. -/
def newSupplier (b : Body) : Supplier :=
  insertedSupplier p ((b.getElement Field.name).getD []) (elementOrNull b Field.phone)
    (elementOrNull b Field.email)

def createSupplier (server : Server) (req : Request) (b : Body) : Server × Ending :=
  if !b.hasElement Field.name then (server, .reply .badRequest none)
  else if !server.sessions.verify req AuthLevel.manager then (server, .reply .forbidden none)
  else
    match insertUnique server.database.suppliers Supplier.name (newSupplier p b) with
    | none => (server, .reply .internalError none)
    | some (_, suppliers) =>
      ({ server with database := { server.database with suppliers } }, .reply .ok none)

/-- The elements of the form and the columns they go to. -/
def supplierRelations : List (Text × Text) :=
  [(Field.rename, ("NAME" : Text)), (Field.phone, ("PHONE" : Text)),
    (Field.email, ("EMAIL" : Text))]

/-- The row an `UPDATE` of quoted values makes of a row. -/
def updatedSupplier (b : Body) (id : Int) (row : Supplier) : Supplier where
  name := updated p.textAffinity (row.columns id) row.name (token b Field.rename)
  phone := updated p.integerAffinity (row.columns id) row.phone (token b Field.phone)
  email := updated p.textAffinity (row.columns id) row.email (token b Field.email)

def supplierAdmissible (table : Table Supplier) (id : Int) (row : Supplier) : Bool :=
  row.name != .null && unused table Supplier.name id row

def supplierTarget : Target p where
  Row := Supplier
  head := ("UPDATE SUPPLIERS SET " : Text)
  tail := (" WHERE NAME = :NAM" : Text)
  relations := supplierRelations
  table database := database.suppliers
  replace database suppliers := { database with suppliers }
  selected key _ row := row.name == .text key
  columns := Supplier.columns
  set values row :=
    { name := (values ("NAME" : Text)).getD row.name
      phone := (values ("PHONE" : Text)).getD row.phone
      email := (values ("EMAIL" : Text)).getD row.email }
  admissible := supplierAdmissible
  words := by decide +kernel
  nodup := by decide +kernel
  table_replace _ _ := rfl
  quoted_set values id row := by
    simp only [supplierRelations, List.forall_mem_cons]
    exact ⟨rfl, rfl, rfl, by simp⟩
  set_congr row h := by
    simp only [supplierRelations, List.forall_mem_cons] at h
    simp only [h.1, h.2.1, h.2.2.1]

/-- `UPDATE SUPPLIERS SET … WHERE NAME = :NAM`. -/
def updateSuppliers (database : Database) (b : Body) (key : Text) : Option Database :=
  if !wellQuoted b supplierRelations then
    -- What leaves its quotes is read as SQL.
    (supplierTarget p).execute database (generateUpdateStatement b (p.visited supplierRelations)) key
  else
    (updateRows database.suppliers (fun _ row => row.name == .text key) (updatedSupplier p b)
      (supplierAdmissible database.suppliers)).map fun suppliers => { database with suppliers }

/-- The element `rename` is empty or not one that `hasElement` finds, so the
second half of the first check never fails. -/
def updateSupplier (server : Server) (req : Request) (b : Body) : Server × Ending :=
  if !b.hasElement Field.name ||
      (b.hasElement Field.rename && ((b.getElement Field.rename).getD []).isEmpty) then
    (server, .reply .badRequest none)
  else if !server.sessions.verify req AuthLevel.manager then (server, .reply .forbidden none)
  -- Nothing to update.
  else if (generateUpdateStatement b supplierRelations).isEmpty then (server, .reply .ok none)
  else
    match updateSuppliers p server.database b ((b.getElement Field.name).getD []) with
    | none => (server, .reply .internalError none)
    | some database => ({ server with database }, .reply .ok none)

def supplierRecord (row : Int × Supplier) : ResponseWrapper :=
  .ofFields
    [(("ID" : Text), p.columnText (.int row.1)), (("Name" : Text), p.columnText row.2.name),
      (("Phone" : Text), p.columnText row.2.phone), (("Email" : Text), p.columnText row.2.email)]

/-- The rows that `searchSuppliers` shows. -/
def suppliersLike (database : Database) (pattern : Text) : List (Int × Supplier) :=
  database.suppliers.select fun _ row =>
    p.like row.name pattern || p.like row.phone pattern || p.like row.email pattern

def supplierList (rows : List (Int × Supplier)) : ResponseWrapper :=
  ResponseWrapper.empty.addEach ("Suppliers" : Text) (rows.map (supplierRecord p))

def searchSuppliers (server : Server) (req : Request) (q : Query) : Ending :=
  if !q.hasElementOrEmpty Field.searchTerm then .reply .badRequest none
  else if !server.sessions.verify req AuthLevel.employee then .reply .forbidden none
  else
    Ending.ofRows (suppliersLike p server.database
      (generateLIKEArgument ((q.getElement Field.searchTerm).getD []))) (supplierList p)

def selectSupplier (server : Server) (req : Request) (q : Query) : Ending :=
  if !q.hasElement Field.id then .reply .badRequest none
  else if !server.sessions.verify req AuthLevel.employee then .reply .forbidden none
  else
    Ending.ofFirst (server.database.suppliers.select fun id _ =>
      p.isId id ((q.getElement Field.id).getD [])) (supplierRecord p)

/-! ## Part groups -/

def createPartGroup (server : Server) (req : Request) (b : Body) : Server × Ending :=
  if !b.hasElement Field.name then (server, .reply .badRequest none)
  else if !server.sessions.verify req AuthLevel.manager then (server, .reply .forbidden none)
  else
    match insertUnique server.database.partGroups PartGroup.name
        { name := .text ((b.getElement Field.name).getD []) } with
    | none => (server, .reply .internalError none)
    | some (_, partGroups) =>
      ({ server with database := { server.database with partGroups } }, .reply .ok none)

def updatePartGroup (server : Server) (req : Request) (b : Body) : Server × Ending :=
  if !b.containsAll [Field.name, Field.rename] then (server, .reply .badRequest none)
  else if !server.sessions.verify req AuthLevel.manager then (server, .reply .forbidden none)
  else
    match updateRows server.database.partGroups
        (fun _ row => row.name == .text ((b.getElement Field.name).getD []))
        (fun _ _ => { name := .text ((b.getElement Field.rename).getD []) })
        (unused server.database.partGroups PartGroup.name) with
    | none => (server, .reply .internalError none)
    | some partGroups =>
      ({ server with database := { server.database with partGroups } }, .reply .ok none)

def partGroupRecord (row : Int × PartGroup) : ResponseWrapper :=
  .ofFields
    [(("ID" : Text), p.columnText (.int row.1)), (("Name" : Text), p.columnText row.2.name)]

/-- The rows that `searchPartGroups` shows. -/
def groupsLike (database : Database) (pattern : Text) : List (Int × PartGroup) :=
  database.partGroups.select fun _ row => p.like row.name pattern

def groupList (rows : List (Int × PartGroup)) : ResponseWrapper :=
  ResponseWrapper.empty.addAll ("Groups" : Text) (rows.map (partGroupRecord p))

def searchPartGroups (server : Server) (req : Request) (q : Query) : Ending :=
  if !q.hasElementOrEmpty Field.name then .reply .badRequest none
  else if !server.sessions.verify req AuthLevel.employee then .reply .forbidden none
  else
    Ending.ofRows (groupsLike p server.database
      (generateLIKEArgument ((q.getElement Field.name).getD []))) (groupList p)

def selectPartGroup (server : Server) (req : Request) (q : Query) : Ending :=
  if !q.hasElement Field.id then .reply .badRequest none
  else if !server.sessions.verify req AuthLevel.employee then .reply .forbidden none
  else
    Ending.ofFirst (server.database.partGroups.select fun id _ =>
      p.isId id ((q.getElement Field.id).getD [])) (partGroupRecord p)

/-! ## Parts -/

/-- The row of an `INSERT` with these texts. The column of the group gets the word `NULL`
whatever the group is. -/
def insertedPart (name quantity supplier price : Text) : Part where
  name := .text name
  quantity := p.numeric quantity
  supplier := p.numeric supplier
  price := p.numeric price
  similar := p.numeric nullWord

/-- The row of a new part. -/
def newPart (b : Body) : Part :=
  insertedPart p ((b.getElement Field.name).getD []) ((b.getElement Field.quantity).getD [])
    ((b.getElement Field.supplier).getD []) ((b.getElement Field.price).getD [])

/-- The group of the form is looked up and then not used. -/
def createPart (server : Server) (req : Request) (b : Body) : Server × Ending :=
  if !b.containsAll [Field.name, Field.quantity, Field.supplier, Field.price] then
    (server, .reply .badRequest none)
  else if !server.sessions.verify req AuthLevel.manager then (server, .reply .forbidden none)
  else if b.hasElement Field.group && (server.database.partGroups.select fun _ row =>
      row.name == .text ((b.getElement Field.group).getD [])).length != 1 then
    (server, .reply .internalError none)
  else
    match insertUnique server.database.parts Part.name (newPart p b) with
    | none => (server, .reply .internalError none)
    | some (_, parts) =>
      ({ server with database := { server.database with parts } }, .reply .ok none)

/-- The elements of the form and the columns they go to. -/
def partRelations : List (Text × Text) :=
  [(Field.name, ("NAME" : Text)), (Field.quantity, ("QUANTITY" : Text)),
    (Field.supplier, ("SUPPLIER" : Text)), (Field.price, ("PRICE" : Text)),
    (Field.group, ("SIMILAR" : Text))]

/-- The row an `UPDATE` of quoted values makes of a row. -/
def updatedPart (b : Body) (id : Int) (row : Part) : Part where
  name := updated p.textAffinity (row.columns id) row.name (token b Field.name)
  quantity := updated p.integerAffinity (row.columns id) row.quantity (token b Field.quantity)
  supplier := updated p.integerAffinity (row.columns id) row.supplier (token b Field.supplier)
  price := updated p.integerAffinity (row.columns id) row.price (token b Field.price)
  similar := updated p.integerAffinity (row.columns id) row.similar (token b Field.group)

def partAdmissible (table : Table Part) (id : Int) (row : Part) : Bool :=
  row.name != .null && row.quantity != .null && row.supplier != .null && row.price != .null &&
    unused table Part.name id row

def partTarget : Target p where
  Row := Part
  head := ("UPDATE PARTS SET " : Text)
  tail := (" WHERE ID = :ID" : Text)
  relations := partRelations
  table database := database.parts
  replace database parts := { database with parts }
  selected key id _ := p.isId id key
  columns := Part.columns
  set values row :=
    { name := (values ("NAME" : Text)).getD row.name
      quantity := (values ("QUANTITY" : Text)).getD row.quantity
      supplier := (values ("SUPPLIER" : Text)).getD row.supplier
      price := (values ("PRICE" : Text)).getD row.price
      similar := (values ("SIMILAR" : Text)).getD row.similar }
  admissible := partAdmissible
  words := by decide +kernel
  nodup := by decide +kernel
  table_replace _ _ := rfl
  quoted_set values id row := by
    simp only [partRelations, List.forall_mem_cons]
    exact ⟨rfl, rfl, rfl, rfl, rfl, by simp⟩
  set_congr row h := by
    simp only [partRelations, List.forall_mem_cons] at h
    simp only [h.1, h.2.1, h.2.2.1, h.2.2.2.1, h.2.2.2.2.1]

/-- `UPDATE PARTS SET … WHERE ID = :ID`. -/
def updateParts (database : Database) (b : Body) (key : Text) : Option Database :=
  if !wellQuoted b partRelations then
    -- What leaves its quotes is read as SQL.
    (partTarget p).execute database (generateUpdateStatement b (p.visited partRelations)) key
  else
    (updateRows database.parts (fun id _ => p.isId id key) (updatedPart p b)
      (partAdmissible database.parts)).map fun parts => { database with parts }

def updatePart (server : Server) (req : Request) (b : Body) : Server × Ending :=
  if !b.hasElement Field.id ||
      (b.hasElement Field.rename && ((b.getElement Field.rename).getD []).isEmpty) then
    (server, .reply .badRequest none)
  else if !server.sessions.verify req AuthLevel.manager then (server, .reply .forbidden none)
  -- Nothing to update.
  else if (generateUpdateStatement b partRelations).isEmpty then (server, .reply .ok none)
  else
    match updateParts p server.database b ((b.getElement Field.id).getD []) with
    | none => (server, .reply .internalError none)
    | some database => ({ server with database }, .reply .ok none)

/-- A row of either part query: the part, its supplier's name and its group. -/
structure PartRow where
  id : Int
  part : Part
  supplier : Supplier
  group : Option Int

/-- `P.ID, P.NAME, P.PRICE, P.QUANTITY, S.NAME, G.ID`, under the names of the answer. -/
def partRecord (row : PartRow) : ResponseWrapper :=
  .ofFields
    [(("ID" : Text), p.columnText (.int row.id)), (("Name" : Text), p.columnText row.part.name),
      (("Price" : Text), p.columnText row.part.price),
      (("Quantity" : Text), p.columnText row.part.quantity),
      (("Supplier" : Text), p.columnText row.supplier.name),
      (("GroupID" : Text), p.columnText (row.group.elim .null .int))]

/-- `PARTS AS P LEFT JOIN PARTGROUPS AS G ON P.SIMILAR = G.ID INNER JOIN SUPPLIERS AS
S ON P.SUPPLIER = S.ID`. -/
def joinedParts (database : Database) : List PartRow :=
  database.parts.rows.filterMap fun row =>
    (row.2.supplier.row database.suppliers).map fun supplier =>
      { id := row.1
        part := row.2
        supplier := supplier.2
        group := (row.2.similar.row database.partGroups).map (·.1) }

/-- The conditions of `searchParts` on a row. -/
def partFits (q : Query) (name group : Text) (row : PartRow) : Bool :=
  (!q.hasElementOrEmpty Field.name || p.like row.part.name (generateLIKEArgument name)) &&
  (!q.hasElementOrEmpty Field.group || row.group.any fun id => p.isId id group)

/-- The parts with a name and in a group, where the query asks for these. -/
def partList (database : Database) (q : Query) (name group : Text) : ResponseWrapper :=
  ResponseWrapper.empty.addAll ("Parts" : Text)
    (((joinedParts database).filter (partFits p q name group)).map (partRecord p))

def partMatches (q : Query) : PartRow → Bool :=
  partFits p q ((q.getElement Field.name).getD []) ((q.getElement Field.group).getD [])

def searchParts (server : Server) (req : Request) (q : Query) : Ending :=
  if !q.hasElementOrEmpty Field.name && !q.hasElementOrEmpty Field.group then
    .reply .badRequest none
  else if !server.sessions.verify req AuthLevel.employee then .reply .forbidden none
  else
    .reply .ok (some (partList p server.database q ((q.getElement Field.name).getD [])
      ((q.getElement Field.group).getD [])))

/-- `PARTS AS P LEFT JOIN PARTGROUPS AS G INNER JOIN SUPPLIERS AS S WHERE P.ID = :ID`.
Neither join has a condition, so every group and every supplier comes with the part. -/
def crossedParts (database : Database) (key : Text) : List PartRow :=
  (database.parts.select fun id _ => p.isId id key).flatMap fun row =>
    (if (p.groupScan database.partGroups).1.isEmpty then [none]
      else (p.groupScan database.partGroups).1.map fun group => some group.1).flatMap fun group =>
    (p.supplierScan database.suppliers).1.map fun supplier =>
      { id := row.1, part := row.2, supplier := supplier.2, group }

def selectPart (server : Server) (req : Request) (q : Query) : Ending :=
  if !q.hasElement Field.id then .reply .badRequest none
  else if !server.sessions.verify req AuthLevel.employee then .reply .forbidden none
  else
    Ending.ofFirst (crossedParts p server.database ((q.getElement Field.id).getD [])) (partRecord p)

end Parts

end WFA
