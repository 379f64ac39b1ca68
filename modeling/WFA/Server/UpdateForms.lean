-- SUMMARY: The UPDATE statements of the five forms, compared with what the forms say.
import WFA.Server.Parts
import WFA.Server.ServiceIds

/-!
# Update forms

What a form says is an update with its texts bound to parameters. What is executed is
the clause that is made of these texts. The two are the same as long as each text stays
inside its quotes and names no column.
-/

namespace WFA

open Text

/-! ## Forms -/

/-- The forms that update a row. -/
inductive Form where
  | user
  | supplier
  | part
  | vehicle
  | service

def Form.target (p : Platform) : Form → Target p
  | .user => userTarget p
  | .supplier => supplierTarget p
  | .part => partTarget p
  | .vehicle => vehicleTarget p
  | .service => serviceTarget p

/-! ## What a clause does -/

namespace Target

variable {p : Platform} (t : Target p)

/-- The element that goes to a column. -/
def element (column : Text) : Option Text :=
  (t.relations.find? (·.2 == column)).map (·.1)

/-- What the form says: in the selected rows, each column whose element is there
and not empty gets the text of that element. -/
def bound (database : Database) (b : Body) (key : Text) : Option Database :=
  if t.relations.all fun relation => (assigned b relation.1).isNone then some database
  else
    t.write database key fun _ _ column =>
      ((t.element column).bind (assigned b)).map fun val => columnAffinity p column (.text val)

/-- The values of the tokens of the form in a row. -/
def tokenValues (b : Body) (id : Int) (row : t.Row) (column : Text) : Option Value :=
  ((t.element column).bind (token b)).map fun tok =>
    columnAffinity p column (quoted (t.columns id row) tok)

/-- Every text of the form stays inside its quotes, and in each selected row its
token has, as a value of its column, the value of the text. -/
def Faithful (database : Database) (b : Body) (key : Text) : Prop :=
  wellQuoted b t.relations = true ∧
    ∀ row ∈ (t.table database).select (t.selected key), ∀ relation ∈ t.relations,
      ∀ val tok, assigned b relation.1 = some val → unquote val = some tok →
        columnAffinity p relation.2 (quoted (t.columns row.1 row.2) tok) =
          columnAffinity p relation.2 (.text val)

theorem element_eq {name column : Text} (h : (name, column) ∈ t.relations) :
    t.element column = some name := by
  rw [element, find?_of_nodup t.nodup h]
  rfl

/-! ### Writes -/

/-- Only the values of the form's columns in the selected rows count. -/
theorem write_congr {database : Database} {key : Text}
    {values values' : Int → t.Row → Text → Option Value}
    (h : ∀ row ∈ (t.table database).select (t.selected key), ∀ relation ∈ t.relations,
      values row.1 row.2 relation.2 = values' row.1 row.2 relation.2) :
    t.write database key values = t.write database key values' := by
  unfold write
  congr 1
  apply updateRows_congr
  intro row hrow
  exact t.set_congr row.2 (h row hrow)

/-- A write that succeeds shows the values of the form's columns. -/
theorem write_inj {database : Database} {key : Text}
    {values values' : Int → t.Row → Text → Option Value}
    (h : t.write database key values = t.write database key values')
    (hwrite : t.write database key values' ≠ none) {row : Int × t.Row}
    (hrow : row ∈ (t.table database).select (t.selected key)) {relation : Text × Text}
    (hrelation : relation ∈ t.relations) :
    (values row.1 row.2 relation.2).getD (quoted (t.columns row.1 row.2) relation.2) =
      (values' row.1 row.2 relation.2).getD (quoted (t.columns row.1 row.2) relation.2) := by
  obtain ⟨written, hwritten⟩ := Option.ne_none_iff_exists'.mp hwrite
  rw [hwritten] at h
  obtain ⟨rows, hrows, rfl⟩ := Option.map_eq_some_iff.mp h
  obtain ⟨rows', hrows', hreplace⟩ := Option.map_eq_some_iff.mp hwritten
  obtain rfl : rows' = rows := by
    rw [← t.table_replace database rows', hreplace, t.table_replace]
  rw [← t.quoted_set _ _ _ _ hrelation, ← t.quoted_set _ _ _ _ hrelation,
    updateRows_inj hrows hrows' hrow]

/-! ### What the clause does -/

theorem isNone_iff_pieces (b : Body) (order : List (Text × Text)) :
    (order.all fun relation => (assigned b relation.1).isNone) = true ↔ pieces b order = [] := by
  simp [pieces, List.filterMap_eq_nil_iff]

/-- Well-quoted values are read back as tokens, whatever the order of the visits. -/
theorem execute_eq {b : Body} {order : List (Text × Text)} (horder : order.Perm t.relations)
    (hquoted : wellQuoted b t.relations = true) (database : Database) (key : Text) :
    t.execute database (generateUpdateStatement b order) key =
      if t.relations.all fun relation => (assigned b relation.1).isNone then some database
      else t.write database key (t.tokenValues b) := by
  have hquoted' : wellQuoted b order = true := by
    rw [wellQuoted, horder.all_eq]
    exact hquoted
  have hnone : (order.all fun relation => (assigned b relation.1).isNone) =
      t.relations.all fun relation => (assigned b relation.1).isNone := horder.all_eq
  by_cases hpieces : pieces b order = []
  · have hclause : generateUpdateStatement b order = [] := by
      rw [generateUpdateStatement_eq, hpieces]
    rw [← hnone, if_pos ((isNone_iff_pieces b order).mpr hpieces), hclause]
    rfl
  · obtain ⟨hclause, hread⟩ := readClause_generateUpdateStatement
      (fun relation h => t.words relation (horder.mem_iff.mp h)) hquoted' hpieces
    have hknown : ((tokens (pieces b order)).all fun assignment =>
        t.relations.any (·.2 == assignment.1)) = true := by
      apply List.all_eq_true.mpr
      rintro ⟨column, tok⟩ hmem
      obtain ⟨name, hname, -⟩ := mem_tokens_pieces.mp hmem
      exact List.any_eq_true.mpr ⟨(name, column), horder.mem_iff.mp hname, by simp⟩
    rw [execute, ← hnone, if_neg (by simpa using hclause),
      if_neg (fun h => hpieces ((isNone_iff_pieces b order).mp h)), hread, Option.filter_some,
      if_pos hknown]
    apply t.write_congr
    rintro row - ⟨name, column⟩ hrelation
    simp only [tokenValues, t.element_eq hrelation, Option.bind_some,
      rightmost_tokens t.nodup horder hrelation]

theorem token_eq_some {b : Body} {name val tok : Text} (hval : assigned b name = some val)
    (htok : unquote val = some tok) : token b name = some tok := by
  rw [token, hval, Option.bind_some, htok]

/-- The clause does what the form says. -/
theorem Faithful.execute {t : Target p} {database : Database} {b : Body} {key : Text}
    (h : t.Faithful database b key) {order : List (Text × Text)}
    (horder : order.Perm t.relations) :
    t.execute database (generateUpdateStatement b order) key = t.bound database b key := by
  obtain ⟨hquoted, hvalues⟩ := h
  rw [t.execute_eq horder hquoted, bound]
  congr 1
  apply t.write_congr
  rintro row hrow ⟨name, column⟩ hrelation
  simp only [tokenValues, t.element_eq hrelation, Option.bind_some]
  cases hval : assigned b name with
  | none => simp [token, hval]
  | some val =>
    obtain ⟨tok, htok⟩ := Option.isSome_iff_exists.mp (isSome_unquote hquoted hrelation hval)
    rw [token_eq_some hval htok, Option.map_some, Option.map_some,
      hvalues row hrow (name, column) hrelation val tok hval htok]

/-- Values that stay inside their quotes and that the table takes are only written
as the form says when each token has the value of its text. -/
theorem faithful_of_execute {database : Database} {b : Body} {key : Text}
    {order : List (Text × Text)} (horder : order.Perm t.relations)
    (hquoted : wellQuoted b t.relations = true) (hbound : t.bound database b key ≠ none)
    (h : t.execute database (generateUpdateStatement b order) key = t.bound database b key) :
    t.Faithful database b key := by
  refine ⟨hquoted, ?_⟩
  rintro row hrow ⟨name, column⟩ hrelation val tok hval htok
  have hset : ¬(t.relations.all fun relation => (assigned b relation.1).isNone) = true := by
    intro hall
    have hnone := List.all_eq_true.mp hall (name, column) hrelation
    simp [hval] at hnone
  rw [t.execute_eq horder hquoted, bound, if_neg hset, if_neg hset] at h
  rw [bound, if_neg hset] at hbound
  have hvalues := t.write_inj h hbound hrow hrelation
  simpa [tokenValues, t.element_eq hrelation, token_eq_some hval htok, hval] using hvalues

/-- Texts without quotes and zero bytes that name no column of the table. -/
theorem Faithful.of_plain {t : Target p} {database : Database} {b : Body} {key : Text}
    (h : ∀ relation ∈ t.relations, ∀ val, assigned b relation.1 = some val →
      (('"' : Char) : Byte) ∉ val ∧ 0 ∉ val ∧
        ∀ row ∈ (t.table database).select (t.selected key),
          ∀ column ∈ t.columns row.1 row.2, column.1 ≠ lower val) :
    t.Faithful database b key := by
  constructor
  · apply List.all_eq_true.mpr
    intro relation hrelation
    cases hval : assigned b relation.1 with
    | none => rfl
    | some val =>
      obtain ⟨hquote, hzero, -⟩ := h relation hrelation val hval
      simp [unquote_plain hquote hzero]
  · intro row hrow relation hrelation val tok hval htok
    obtain ⟨hquote, hzero, hcolumns⟩ := h relation hrelation val hval
    obtain rfl : val = tok := by
      rw [unquote_plain hquote hzero] at htok
      exact Option.some.inj htok
    rw [quoted_of_ne (hcolumns row hrow)]

/-- One column of the row that a route writes. -/
theorem updated_eq (name column : Text) (h : (name, column) ∈ t.relations) {b : Body} {id : Int}
    {row : t.Row} {old : Value} :
    updated (columnAffinity p column) (t.columns id row) old (token b name) =
      (t.tokenValues b id row column).getD old := by
  rw [tokenValues, t.element_eq h, Option.bind_some]
  cases token b name with
  | none => rfl
  | some tok => rfl

end Target

/-! ## The statements of the routes -/

namespace Form

variable {p : Platform} {database : Database} {b : Body} {key : Text}

/-- The statement of the route for the form. -/
def statement (p : Platform) : Form → Database → Body → Text → Option Database
  | .user => updateUsers p
  | .supplier => updateSuppliers p
  | .part => updateParts p
  | .vehicle => updateVehicles p
  | .service => updateServices p

theorem updatedUser_eq (b : Body) : updatedUser p b = fun id row =>
    (userTarget p).set ((userTarget p).tokenValues b id row) row := by
  funext id row
  apply (User.mk.injEq _ _ _ _ _ _).mpr
  exact
    ⟨(userTarget p).updated_eq Field.username ("USERNAME" : Text)
        (by simp [userTarget, userRelations]),
      (userTarget p).updated_eq Field.password ("PASSWORD" : Text)
        (by simp [userTarget, userRelations]),
      (userTarget p).updated_eq Field.permissions ("PERMISSIONS" : Text)
        (by simp [userTarget, userRelations])⟩

theorem updatedSupplier_eq (b : Body) : updatedSupplier p b = fun id row =>
    (supplierTarget p).set ((supplierTarget p).tokenValues b id row) row := by
  funext id row
  apply (Supplier.mk.injEq _ _ _ _ _ _).mpr
  exact
    ⟨(supplierTarget p).updated_eq Field.rename ("NAME" : Text)
        (by simp [supplierTarget, supplierRelations]),
      (supplierTarget p).updated_eq Field.phone ("PHONE" : Text)
        (by simp [supplierTarget, supplierRelations]),
      (supplierTarget p).updated_eq Field.email ("EMAIL" : Text)
        (by simp [supplierTarget, supplierRelations])⟩

theorem updatedPart_eq (b : Body) : updatedPart p b = fun id row =>
    (partTarget p).set ((partTarget p).tokenValues b id row) row := by
  funext id row
  apply (Part.mk.injEq _ _ _ _ _ _ _ _ _ _).mpr
  exact
    ⟨(partTarget p).updated_eq Field.name ("NAME" : Text)
        (by simp [partTarget, partRelations]),
      (partTarget p).updated_eq Field.quantity ("QUANTITY" : Text)
        (by simp [partTarget, partRelations]),
      (partTarget p).updated_eq Field.supplier ("SUPPLIER" : Text)
        (by simp [partTarget, partRelations]),
      (partTarget p).updated_eq Field.price ("PRICE" : Text)
        (by simp [partTarget, partRelations]),
      (partTarget p).updated_eq Field.group ("SIMILAR" : Text)
        (by simp [partTarget, partRelations])⟩

theorem updatedVehicle_eq (b : Body) : updatedVehicle p b = fun id row =>
    (vehicleTarget p).set ((vehicleTarget p).tokenValues b id row) row := by
  funext id row
  apply (Vehicle.mk.injEq _ _ _ _ _ _ _ _ _ _).mpr
  exact
    ⟨(vehicleTarget p).updated_eq Field.plate ("PLATE" : Text)
        (by simp [vehicleTarget, vehicleRelations]),
      rfl,
      rfl,
      rfl,
      (vehicleTarget p).updated_eq Field.colour ("COLOUR" : Text)
        (by simp [vehicleTarget, vehicleRelations])⟩

theorem updatedService_eq (b : Body) : updatedService p b = fun id row =>
    (serviceTarget p).set ((serviceTarget p).tokenValues b id row) row := by
  funext id row
  apply (ActiveService.mk.injEq _ _ _ _ _ _ _ _ _ _).mpr
  exact
    ⟨rfl,
      (serviceTarget p).updated_eq Field.hours ("LABOUR" : Text)
        (by simp [serviceTarget, serviceRelations]),
      (serviceTarget p).updated_eq Field.notes ("NOTES" : Text)
        (by simp [serviceTarget, serviceRelations]),
      rfl,
      rfl⟩

/-- The statement of a route writes the tokens of its form. -/
theorem statement_eq (form : Form) (hquoted : wellQuoted b (form.target p).relations = true) :
    form.statement p database b key =
      (form.target p).write database key ((form.target p).tokenValues b) := by
  cases form with
  | user =>
    have hquoted : wellQuoted b userRelations = true := hquoted
    simp only [statement, updateUsers, hquoted, Bool.not_true, Bool.false_eq_true, if_false,
      updatedUser_eq]
    rw [Target.write, updateRows_map]
    rfl
  | supplier =>
    have hquoted : wellQuoted b supplierRelations = true := hquoted
    simp only [statement, updateSuppliers, hquoted, Bool.not_true, Bool.false_eq_true, if_false,
      updatedSupplier_eq]
    rfl
  | part =>
    have hquoted : wellQuoted b partRelations = true := hquoted
    simp only [statement, updateParts, hquoted, Bool.not_true, Bool.false_eq_true, if_false,
      updatedPart_eq]
    rfl
  | vehicle =>
    have hquoted : wellQuoted b vehicleRelations = true := hquoted
    simp only [statement, updateVehicles, hquoted, Bool.not_true, Bool.false_eq_true, if_false,
      updatedVehicle_eq]
    rfl
  | service =>
    have hquoted : wellQuoted b serviceRelations = true := hquoted
    simp only [statement, updateServices, hquoted, Bool.not_true, Bool.false_eq_true, if_false,
      updatedService_eq]
    rw [Target.write, updateRows_map]
    exact (if_pos (List.all_eq_true.mpr fun _ _ => rfl)).symm

/-- With values that are well quoted, the order in which the map of relations is visited
does not count. -/
theorem statement_eq_of_quoted (form : Form) {order : List (Text × Text)}
    (horder : order.Perm (form.target p).relations)
    (hquoted : wellQuoted b (form.target p).relations = true)
    (hclause : generateUpdateStatement b order ≠ []) :
    form.statement p database b key =
      (form.target p).execute database (generateUpdateStatement b order) key := by
  have hset : ¬((form.target p).relations.all fun relation =>
      (assigned b relation.1).isNone) = true := by
    intro hall
    rw [← horder.all_eq, Target.isNone_iff_pieces] at hall
    exact hclause (by rw [generateUpdateStatement_eq, hall])
  rw [statement_eq form hquoted, Target.execute_eq _ horder hquoted, if_neg hset]

/-- The clause counts where a text leaves its quotes. -/
theorem statement_of_not_quoted (form : Form)
    (h : wellQuoted b (form.target p).relations = false) :
    form.statement p database b key = (form.target p).execute database
      (generateUpdateStatement b (p.visited (form.target p).relations)) key := by
  have hnot : (!wellQuoted b (form.target p).relations) = true := by rw [h, Bool.not_false]
  cases form <;> exact if_pos hnot

/-- What a route does, whatever the texts of the form are, is what its clause says. -/
theorem statement_eq_execute (form : Form)
    (hclause : generateUpdateStatement b (p.visited (form.target p).relations) ≠ []) :
    form.statement p database b key = (form.target p).execute database
      (generateUpdateStatement b (p.visited (form.target p).relations)) key := by
  by_cases hquoted : wellQuoted b (form.target p).relations = true
  · exact statement_eq_of_quoted form (p.visited_perm _) hquoted hclause
  · exact statement_of_not_quoted form (by simpa using hquoted)

/-- What a statement leaves: the database, new values in some rows of the table, or what
the engine makes of a clause that cannot be read. -/
theorem statement_cases (form : Form) {after : Database}
    (h : form.statement p database b key = some after) :
    after = database ∨ (∃ values, (form.target p).write database key values = some after) ∨
      ∃ statement, p.escaped statement key database = some after := by
  by_cases hquoted : wellQuoted b (form.target p).relations = true
  · rw [statement_eq form hquoted] at h
    exact .inr (.inl ⟨_, h⟩)
  · rw [Bool.not_eq_true] at hquoted
    rw [statement_of_not_quoted form hquoted, Target.execute] at h
    split at h
    · exact .inl (Option.some.inj h).symm
    · split at h
      · exact .inr (.inl ⟨_, h⟩)
      · exact .inr (.inr ⟨_, h⟩)

end Form

/-! ## The clause and the form -/

/-- The statement that is executed does what the form says, in whatever order the
map is visited, when each text stays inside its quotes and its token has the value
of the text in each selected row; and among texts that stay inside their quotes
and that the table takes only then. -/
theorem execute_eq_bound (p : Platform) (form : Form) (database : Database) (b : Body) (key : Text)
    {order : List (Text × Text)} (horder : order.Perm (form.target p).relations) :
    ((form.target p).Faithful database b key →
        (form.target p).execute database (generateUpdateStatement b order) key =
          (form.target p).bound database b key) ∧
      (wellQuoted b (form.target p).relations = true →
        (form.target p).bound database b key ≠ none →
        (form.target p).execute database (generateUpdateStatement b order) key =
          (form.target p).bound database b key →
        (form.target p).Faithful database b key) := by
  constructor
  · intro hfaithful
    exact hfaithful.execute horder
  · intro hquoted hbound heq
    exact (form.target p).faithful_of_execute horder hquoted hbound heq

/-- An open service that user 2 authorised. -/
def openedDatabase : Database where
  serviceActive := single
    { service := .int 1, labour := .real (Platform.doubleOf 1), notes := .text ("brakes" : Text)
      authoriser := .int 2, quote := .int 300 }

/-- New notes for that service, as the server executes them. -/
def executeNotes (notes : Text) : Option Database :=
  (Form.service.target .integers).execute openedDatabase
    (generateUpdateStatement (notesBody ("1" : Text) notes) serviceRelations.reverse) ("1" : Text)

/-- New notes for that service, as the form says. -/
def boundNotes (notes : Text) : Option Database :=
  (Form.service.target .integers).bound openedDatabase (notesBody ("1" : Text) notes) ("1" : Text)

theorem execute_eq_bound_tyres :
    executeNotes ("tyres" : Text) = boundNotes ("tyres" : Text) := by
  apply (execute_eq_bound .integers .service openedDatabase _ ("1" : Text)
    serviceRelations.reverse_perm).1
  apply Target.Faithful.of_plain
  have hne : ("tyres" : Text) ≠ [] := by decide +kernel
  intro relation hrelation val hval
  rcases List.mem_cons.mp hrelation with rfl | hrest
  · rw [(assigned_notesBody hne).1] at hval
    obtain rfl : ("tyres" : Text) = val := Option.some.inj hval
    decide +kernel
  · obtain rfl := List.mem_singleton.mp hrest
    rw [(assigned_notesBody hne).2] at hval
    exact absurd hval (by simp)

/-- Notes that are the name of a column copy the column, and notes with a quote in
them set a column whose element is not there. -/
theorem execute_columnName :
    (executeNotes ("authoriser" : Text)).map
        (fun database => (database.serviceActive.get 1).map (·.notes)) =
      some (some (.text ("2" : Text))) ∧
    (boundNotes ("authoriser" : Text)).map
        (fun database => (database.serviceActive.get 1).map (·.notes)) =
      some (some (.text ("authoriser" : Text))) ∧
    (executeNotes ("ok\",LABOUR = \"0" : Text)).map
        (fun database => (database.serviceActive.get 1).map (·.labour)) =
      some (some (.real 0)) ∧
    (boundNotes ("ok\",LABOUR = \"0" : Text)).map
        (fun database => (database.serviceActive.get 1).map (·.labour)) =
      some (some (.real (Platform.doubleOf 1))) := by
  refine ⟨?_, ?_, ?_, ?_⟩
  · decide +kernel
  · decide +kernel
  · decide +kernel
  · decide +kernel

end WFA
