-- SUMMARY: The console in front of the web part: results as they are stored and printed, scripts, and when it is left.
import WFA.Base.Grid
import WFA.Base.Iterator

/-!
# The console

`Server/src/Source.cpp` and `SQLResult` of `Server/include/Database.h`. Before the
server answers requests it reads lines: SQL statements, and control sequences that
begin with a backslash. SQLite is a parameter, as a function from statements to what
they return; what the file system and the memory hold comes with each line, as it may be
another one the next time. A console reads lines until it is told to stop, and for ever
if it is not.
-/

namespace WFA

open Text

/-! ## Results -/

/-- A statement that SQLite has stepped through: its columns, the rows it returned,
where a cell may be null, whether it was done then, and the database after it. -/
structure Stepped (Db : Type) where
  columnCount : Nat
  columnName : Nat → Text
  rows : List (Nat → Option Text)
  done : Bool
  after : Db

/-- What the console uses of SQLite. A text that is no statement prepares nothing. -/
structure Engine where
  Db : Type
  prepare : Db → Text → Option (Stepped Db)

/-- The text up to the first zero, as a C function reads it. -/
def cString (t : Text) : Text :=
  t.takeWhile (· != 0)

def intMax : Nat := 2 ^ 31 - 1

/-- What SQLite reads of a text whose length is made an `int`: no more than that, or all
of it when the number is negative, and in both cases up to the first zero. -/
def statementText (sql : Text) : Text :=
  let size := sql.length % 2 ^ 32
  cString (if size ≤ intMax then sql.take size else sql)

/-- The result of a database query. The cells are stored one row after the other. -/
structure SQLResult where
  colCount : Nat
  data : List Text := []
  colNames : List Text := []
  deriving DecidableEq, Repr

namespace SQLResult

/-- `execute`, for the rows that are stepped through. -/
def execute (result : SQLResult) (rows : List (Nat → Option Text)) : SQLResult :=
  { result with
    data := rows.foldl (fun data row =>
      (List.range result.colCount).foldl (fun data i =>
        data ++ [(row i).getD ("NULL" : Text)]) data) result.data }

/-- Whether a statement succeeds, its result, and the database after it. Without an open
database there is no statement. -/
def query (asserts : Bool) (engine : Engine) (database : Option engine.Db) (sql : Text) :
    Exec (Bool × SQLResult × Option engine.Db) :=
  if asserts && intMax < sql.length then .error .assertion
  else
    match database.bind fun db => engine.prepare db (statementText sql) with
    | none => .ok (false, { colCount := 0 }, database)
    | some statement =>
      let ret : SQLResult :=
        { colCount := statement.columnCount
          colNames := (List.range statement.columnCount).map statement.columnName }
      .ok (statement.done, ret.execute statement.rows, some statement.after)

variable (result : SQLResult)

/-- `operator[](row)[col]`. -/
def get (row col : Nat) : Exec Text :=
  match result.data[row * result.colCount + col]? with
  | some cell => .ok cell
  | none => .error .outOfRange

def getColName (col : Nat) : Exec Text :=
  match result.colNames[col]? with
  | some name => .ok name
  | none => .error .outOfRange

/-- Only asked of a result with columns. -/
def rowCount : Nat := result.data.length / result.colCount

end SQLResult

/-! ## Printing -/

section Printing

variable (result : SQLResult)

/-- The widths that the rows need. -/
def rowSizes : Exec (Nat → Nat) :=
  (List.range result.rowCount).foldlM (fun sizes r =>
    (List.range result.colCount).foldlM (fun sizes c => do
      let cell ← result.get r c
      pure (widen sizes c cell.length)) sizes) fun _ => 0

/-- The names of the columns, which are made wide enough for them on the way. -/
def printNames (sizes : Nat → Nat) : Exec ((Nat → Nat) × Text) :=
  (List.range result.colCount).foldlM (fun state c => do
    let name ← result.getColName c
    let sizes := widen state.1 c name.length
    pure (sizes, state.2 ++ padded (sizes c) name)) (sizes, [('|' : Byte)])

def printRow (sizes : Nat → Nat) (row : Nat) : Exec Text :=
  (List.range result.colCount).foldlM (fun out col => do
    let cell ← result.get row col
    pure (out ++ padded (sizes col) cell)) [('|' : Byte)]

def printResult : Exec Text :=
  if result.colCount == 0 || result.rowCount == 0 then pure []
  else do
    let sizes ← rowSizes result
    let (sizes, names) ← printNames result sizes
    (List.range result.rowCount).foldlM (fun out row => do
      let line ← printRow result sizes row
      pure (out ++ (line ++ [('\n' : Byte)]))) (names ++ [('\n' : Byte)])

end Printing

/-! ## What is stored -/

namespace SQLResult

/-- The result with these columns and rows. -/
def stored (n : Nat) (names : Nat → Text) (rows : List (Nat → Text)) : SQLResult where
  colCount := n
  data := rowMajor n rows
  colNames := (List.range n).map names

/-- The texts of the cells of a row. -/
def cellTexts (row : Nat → Option Text) : Nat → Text :=
  fun c => (row c).getD ("NULL" : Text)

theorem foldl_concat {α β : Type} (f : α → β) (items : List α) (out : List β) :
    items.foldl (fun out item => out ++ [f item]) out = out ++ items.map f := by
  induction items generalizing out with
  | nil => simp
  | cons item items ih => simp [ih]

theorem execute_eq (n : Nat) (names : List Text) (rows : List (Nat → Option Text)) :
    (SQLResult.mk n [] names).execute rows =
      { colCount := n, data := rowMajor n (rows.map cellTexts), colNames := names } := by
  have hdata : ∀ data : List Text, rows.foldl (fun data row =>
      (List.range n).foldl (fun data i => data ++ [(row i).getD ("NULL" : Text)]) data) data =
        data ++ rowMajor n (rows.map cellTexts) := by
    induction rows with
    | nil => simp [rowMajor]
    | cons row rows ih =>
      intro data
      rw [List.foldl_cons, ih, foldl_concat]
      simp [rowMajor, cellTexts]
  simp only [SQLResult.execute, hdata, List.nil_append]

section Query

variable {asserts : Bool} {engine : Engine} {database : Option engine.Db} {sql : Text}
  (hshort : asserts = true → sql.length ≤ intMax)

include hshort

theorem not_asserted : (asserts && decide (intMax < sql.length)) = false := by
  cases asserts with
  | false => rfl
  | true => simpa using hshort rfl

/-- A result has the columns of its statement, and the rows. -/
theorem query_eq {statement : Stepped engine.Db}
    (hstatement : (database.bind fun db => engine.prepare db (statementText sql)) =
      some statement) :
    query asserts engine database sql = .ok (statement.done,
      stored statement.columnCount statement.columnName (statement.rows.map cellTexts),
      some statement.after) := by
  simp only [query, not_asserted hshort, Bool.false_eq_true, if_false, hstatement, execute_eq]
  rfl

theorem query_stored : ∃ status after n names rows,
    query asserts engine database sql = .ok (status, stored n names rows, after) := by
  cases hstatement : database.bind fun db => engine.prepare db (statementText sql) with
  | none =>
    refine ⟨false, database, 0, fun _ => [], [], ?_⟩
    simp only [query, not_asserted hshort, Bool.false_eq_true, if_false, hstatement]
    rfl
  | some statement => exact ⟨_, _, _, _, _, query_eq hshort hstatement⟩

end Query

section Stored

variable {n : Nat} {names : Nat → Text} {rows : List (Nat → Text)}

theorem rowCount_stored (hn : n ≠ 0) : (stored n names rows).rowCount = rows.length := by
  change (rowMajor n rows).length / n = rows.length
  rw [length_rowMajor, Nat.mul_div_cancel _ (Nat.pos_of_ne_zero hn)]

theorem get_stored {r c : Nat} (hr : r < rows.length) (hc : c < n) :
    (stored n names rows).get r c = .ok (rows.getD r (fun _ => []) c) := by
  have hcell : (stored n names rows).data[r * (stored n names rows).colCount + c]? =
      some (rows.getD r (fun _ => []) c) := by
    change (rowMajor n rows)[r * n + c]? = _
    rw [getElem?_rowMajor hc]
    simp [hr]
  unfold get
  rw [hcell]

theorem getColName_stored {c : Nat} (hc : c < n) :
    (stored n names rows).getColName c = .ok (names c) := by
  have hname : (stored n names rows).colNames[c]? = some (names c) := by
    simp [stored, hc]
  unfold getColName
  rw [hname]

end Stored

end SQLResult

/-! ## What is printed -/

section Printed

variable {n : Nat} {names : Nat → Text} {rows : List (Nat → Text)}

open SQLResult

theorem rowSizes_stored (hn : n ≠ 0) :
    rowSizes (stored n names rows) = .ok (rows.foldl (widenRow n) fun _ => 0) := by
  unfold rowSizes
  rw [rowCount_stored hn]
  have hrow : ∀ r ∈ List.range rows.length, ∀ sizes : Nat → Nat,
      (List.range (stored n names rows).colCount).foldlM (fun sizes c => do
        let cell ← (stored n names rows).get r c
        pure (widen sizes c cell.length)) sizes =
        .ok (widenRow n sizes (rows.getD r fun _ => [])) := by
    intro r hr sizes
    apply foldlM_eq_ok
    intro c hc sizes
    have hlt : c < n := List.mem_range.mp hc
    rw [get_stored (List.mem_range.mp hr) hlt]
    rfl
  rw [foldlM_eq_ok hrow, foldl_range_getD (widenRow n)]

theorem printNames_stored (sizes : Nat → Nat) :
    printNames (stored n names rows) sizes =
      .ok (widenRow n sizes names, tableLine n (widenRow n sizes names) names) := by
  have hnames : ∀ c ∈ List.range n, ∀ state : (Nat → Nat) × Text,
      (do
        let name ← (stored n names rows).getColName c
        let sizes := widen state.1 c name.length
        pure (sizes, state.2 ++ padded (sizes c) name) : Exec ((Nat → Nat) × Text)) =
        .ok (widen state.1 c (names c).length,
          state.2 ++ padded (widen state.1 c (names c).length c) (names c)) := by
    intro c hc state
    rw [getColName_stored (List.mem_range.mp hc)]
    rfl
  unfold printNames
  change (List.range n).foldlM _ _ = _
  rw [foldlM_eq_ok hnames, Except.ok.injEq]
  clear hnames
  -- a column is not made wider any more once its name has been printed
  induction n with
  | zero => rfl
  | succ n ih =>
    rw [List.range_succ, List.foldl_append, ih, List.foldl_cons, List.foldl_nil, widenRow_succ,
      tableLine_succ]
    refine Prod.ext rfl (congrArg (· ++ _) (tableLine_congr ?_ names))
    intro c hc
    rw [widen_apply, if_neg (by omega)]

theorem printRow_stored {r : Nat} (hr : r < rows.length) (sizes : Nat → Nat) :
    printRow (stored n names rows) sizes r =
      .ok (tableLine n sizes (rows.getD r fun _ => [])) := by
  have hcells : ∀ c ∈ List.range n, ∀ out : Text,
      (do
        let cell ← (stored n names rows).get r c
        pure (out ++ padded (sizes c) cell) : Exec Text) =
        .ok (out ++ padded (sizes c) (rows.getD r (fun _ => []) c)) := by
    intro c hc out
    rw [get_stored hr (List.mem_range.mp hc)]
    rfl
  unfold printRow
  change (List.range n).foldlM _ _ = _
  rw [foldlM_eq_ok hcells, Except.ok.injEq]
  clear hcells
  induction n with
  | zero => rfl
  | succ n ih =>
    rw [List.range_succ, List.foldl_append, ih, List.foldl_cons, List.foldl_nil, tableLine_succ]

/-- The widths of the columns of a table. -/
def tableSizes (n : Nat) (names : Nat → Text) (rows : List (Nat → Text)) : Nat → Nat :=
  widenRow n (rows.foldl (widenRow n) fun _ => 0) names

/-- A result without columns or rows is not printed, any other one as a table. -/
theorem printResult_stored (n : Nat) (names : Nat → Text) (rows : List (Nat → Text)) :
    printResult (stored n names rows) =
      .ok (if n = 0 ∨ rows = [] then []
        else unlines ((names :: rows).map (tableLine n (tableSizes n names rows)))) := by
  unfold printResult
  change (if n == 0 || (stored n names rows).rowCount == 0 then pure [] else _) = _
  by_cases hn : n = 0
  · simp [hn, pure, Except.pure]
  · rw [rowCount_stored hn]
    by_cases hrows : rows = []
    · simp [hrows, pure, Except.pure]
    · have hempty : (n == 0 || rows.length == 0) = false := by simp [hn, hrows]
      have hlines : ∀ r ∈ List.range rows.length, ∀ out : Text,
          (do
            let line ← printRow (stored n names rows) (tableSizes n names rows) r
            pure (out ++ (line ++ [('\n' : Byte)])) : Exec Text) =
            .ok (out ++ (tableLine n (tableSizes n names rows) (rows.getD r fun _ => []) ++
              [('\n' : Byte)])) := by
        intro r hr out
        rw [printRow_stored (List.mem_range.mp hr)]
        rfl
      simp only [hempty, Bool.false_eq_true, if_false, rowSizes_stored hn, printNames_stored,
        bind, Except.bind, hn, hrows, or_self]
      refine (foldlM_eq_ok hlines _).trans ?_
      rw [foldl_range_getD (fun out row =>
        out ++ (tableLine n (tableSizes n names rows) row ++ [('\n' : Byte)])),
        List.foldl_append_eq_append]
      simp [unlines, tableSizes, Function.comp_def]

/-- Every result can be printed. -/
theorem printResult_query {asserts : Bool} (engine : Engine) (database : Option engine.Db)
    {sql : Text} (hshort : asserts = true → sql.length ≤ intMax) :
    ∃ status result after text, query asserts engine database sql = .ok (status, result, after) ∧
      printResult result = .ok text := by
  obtain ⟨status, after, n, names, rows, hquery⟩ : ∃ status after n names rows,
      query asserts engine database sql = .ok (status, stored n names rows, after) :=
    query_stored hshort
  exact ⟨status, _, after, _, hquery, printResult_stored n names rows⟩

/-- The rows of a statement, as SQLite returns them for the text of `sampleStatement`. -/
def sampleRow : Stepped Unit where
  columnCount := 2
  columnName c := if c = 0 then ("ID" : Text) else ("NAME" : Text)
  rows := [fun c => if c = 0 then some ("1" : Text) else none]
  done := true
  after := ()

def sampleStatement : Text := ("SELECT 1 AS ID, NULL AS NAME" : Text)

/-- SQLite, for one statement. -/
def sampleEngine : Engine where
  Db := Unit
  prepare _ sql := if sql = sampleStatement then some sampleRow else none

end Printed

/-! ## Commands -/

/-- The database that is open, if one is, and what has been printed. -/
structure Console (engine : Engine) where
  database : Option engine.Db
  printed : Text := []

/-- A line that is entered, with what is found when it is: the text that is read of a file
and the database in it, if they can be opened, and what stands in the memory behind the
line and its terminator. -/
structure Entered (engine : Engine) where
  line : Text
  files : Text → Option Text
  openFile : Text → Option engine.Db
  behind : Text

/-- The arguments of a control sequence are a view of the line behind the blank. Without a
blank its length is the largest number, and it begins behind the terminator. -/
structure Arguments where
  view : Option Text
  /-- The text at its beginning, as a C function reads it. -/
  data : Text

section Commands

variable (asserts : Bool) (engine : Engine)

def Console.print {engine : Engine} (console : Console engine) (text : Text) : Console engine :=
  { console with printed := console.printed ++ text }

/-- A statement whose result is printed, with what is said after it and what is said
instead when it fails. -/
def showQuery (sql done failed : Text) (console : Console engine) : Exec (Console engine) :=
  match SQLResult.query asserts engine console.database sql with
  | .error trap => .error trap
  | .ok (true, result, database) => do
    let text ← printResult result
    pure { database, printed := console.printed ++ (text ++ done) }
  | .ok (false, _, database) => pure { database, printed := console.printed ++ failed }

def displayTables : Console engine → Exec (Console engine) :=
  showQuery asserts engine
    ("SELECT name FROM sqlite_schema WHERE type='table' ORDER BY name" : Text) []
    ("Error accessing database metadata.\n" : Text)

/-- No string has the length of the view without a blank. -/
def displayRows (arguments : Arguments) (console : Console engine) : Exec (Console engine) :=
  match arguments.view with
  | none => .error .exception
  | some args => showQuery asserts engine (("SELECT * FROM " : Text) ++ args) []
    ("Error displaying table rows.\n" : Text) console

/-- What a statement of a script prints. -/
def scriptOutput (result : SQLResult) : Exec Text :=
  if result.colCount > 0 then do
    let text ← printResult result
    pure (("Output:\n" : Text) ++ text)
  else pure []

def echo (line : Text) : Text :=
  (">># " : Text) ++ (line ++ [('\n' : Byte)])

def stopped : Text := ("!!! Command failed, stopping autoexecution.\n" : Text)

/-- The body of the loop of `autoexec`. -/
def autoexecStep (console : Console engine) (line : Text) : Progress Trap (Console engine) :=
  if line.isEmpty then .next console
  else
    match SQLResult.query asserts engine console.database line with
    | .error trap => .fail trap
    | .ok (false, _, database) =>
      .stop { database, printed := console.printed ++ (echo line ++ stopped) }
    | .ok (true, result, database) =>
      match scriptOutput result with
      | .error trap => .fail trap
      | .ok text => .next { database, printed := console.printed ++ (echo line ++ text) }

/-- Executes a text file as SQL, line by line. -/
def autoexec (files : Text → Option Text) (arguments : Arguments) (console : Console engine) :
    Exec (Console engine) :=
  match files arguments.data with
  | none => pure (console.print ("Error opening file.\n" : Text))
  | some text => do
    let (console, _) ← loop (autoexecStep asserts engine) (lines text) console
    pure (console.print ("Done.\n" : Text))

/-- Only what is said of a file that is not opened reads all of the view. -/
def load (openFile : Text → Option engine.Db) (arguments : Arguments) (console : Console engine) :
    Exec (Console engine) :=
  match openFile arguments.data with
  | none =>
    match arguments.view with
    | none => .error .outOfRange
    | some args => pure
      { database := none
        printed := console.printed ++ (("Failed to open " : Text) ++ (args ++ (".\n" : Text))) }
  | some db => pure
    { database := some db, printed := console.printed ++ ("Opened DB file.\n" : Text) }

/-- `generateControlSequences`. -/
def controlSequences (input : Entered engine) :
    List (Text × (Arguments → Console engine → Exec (Console engine))) :=
  [(("dt" : Text), fun _ => displayTables asserts engine),
    (("dr" : Text), displayRows asserts engine), (("ax" : Text), autoexec asserts engine input.files),
    (("ld" : Text), load engine input.openFile)]

def toProgress {σ : Type} : Exec σ → Progress Trap σ
  | .ok state => .next state
  | .error trap => .fail trap

/-- The body of the loop of `db`. -/
def dbStep (console : Console engine) (input : Entered engine) : Progress Trap (Console engine) :=
  match input.line with
  | [] => .next console
  | first :: rest =>
    if first == '\\' then
      if rest.isEmpty then .next (console.print ("Error: Empty control sequence.\n" : Text))
      else
        let (sequence, view) := cut ' ' rest
        if sequence == ("\\" : Text) then .stop console
        else
          match (controlSequences asserts engine input).find? fun entry => entry.1 == sequence with
          | none => .next (console.print ("Error: Invalid control sequence.\n" : Text))
          | some entry =>
            toProgress (entry.2 { view, data := cString (view.getD input.behind) } console)
    else
      toProgress (showQuery asserts engine input.line ("Done.\n" : Text)
        ("SQL execution failed.\n" : Text) console)

/-- `db`, for the lines that can be read. The flag says that they are used up: the loop
then reads empty lines and does not end. -/
def db (inputs : List (Entered engine)) (console : Console engine) :
    Exec (Console engine × Bool) :=
  loop (dbStep asserts engine) inputs console

end Commands

/-! ## Scripts -/

section Scripts

variable {asserts : Bool} {engine : Engine}

theorem scriptOutput_query (engine : Engine) (database : Option engine.Db) {sql : Text}
    (hshort : asserts = true → sql.length ≤ intMax) :
    ∃ status result after text,
      SQLResult.query asserts engine database sql = .ok (status, result, after) ∧
        scriptOutput result = .ok text := by
  obtain ⟨status, result, after, text, hquery, htext⟩ := printResult_query engine database hshort
  refine ⟨status, result, after, ?_⟩
  unfold scriptOutput
  split
  · rw [htext]
    exact ⟨_, hquery, rfl⟩
  · exact ⟨_, hquery, rfl⟩

/-- The statements all succeed, one after the other, and print this. -/
inductive Succeeds (asserts : Bool) (engine : Engine) :
    Option engine.Db → List Text → Option engine.Db → Text → Prop
  | nil {database : Option engine.Db} : Succeeds asserts engine database [] database []
  | cons {database second last : Option engine.Db} {line : Text} {rest : List Text}
      {result : SQLResult} {shown out : Text} :
      SQLResult.query asserts engine database line = .ok (true, result, second) →
      scriptOutput result = .ok shown → Succeeds asserts engine second rest last out →
      Succeeds asserts engine database (line :: rest) last (echo line ++ (shown ++ out))

/-- A script leaves the database and the console where its statements lead: all of
them, or those in front of the first one that fails, and that one. -/
inductive ScriptEnds (asserts : Bool) (engine : Engine) (console : Console engine)
    (statements : List Text) : Console engine → Prop
  | all {last : Option engine.Db} {out : Text} :
      Succeeds asserts engine console.database statements last out →
      ScriptEnds asserts engine console statements
        { database := last, printed := console.printed ++ out }
  | failed {done rest : List Text} {middle last : Option engine.Db} {line out : Text}
      {result : SQLResult} :
      statements = done ++ line :: rest →
      Succeeds asserts engine console.database done middle out →
      SQLResult.query asserts engine middle line = .ok (false, result, last) →
      ScriptEnds asserts engine console statements
        { database := last, printed := console.printed ++ (out ++ (echo line ++ stopped)) }

/-- One more statement in front. -/
theorem ScriptEnds.cons {console after : Console engine} {second : Option engine.Db}
    {line shown : Text} {rest : List Text} {result : SQLResult}
    (hquery : SQLResult.query asserts engine console.database line = .ok (true, result, second))
    (hshown : scriptOutput result = .ok shown)
    (h : ScriptEnds asserts engine
      { database := second, printed := console.printed ++ (echo line ++ shown) } rest after) :
    ScriptEnds asserts engine console (line :: rest) after := by
  cases h with
  | all hall =>
    have hends : ScriptEnds asserts engine console (line :: rest) _ :=
      .all (.cons hquery hshown hall)
    simpa using hends
  | failed hrest hdone hfailed =>
    have hends : ScriptEnds asserts engine console (line :: rest) _ :=
      .failed (by rw [hrest, List.cons_append]) (.cons hquery hshown hdone) hfailed
    simpa using hends

theorem loop_autoexecStep {text : List Text}
    (hshort : asserts = true → ∀ line ∈ text, line.length ≤ intMax) (console : Console engine) :
    ∃ after all, loop (autoexecStep asserts engine) text console = .ok (after, all) ∧
      ScriptEnds asserts engine console (text.filter fun line => !line.isEmpty) after := by
  induction text generalizing console with
  | nil =>
    refine ⟨console, true, rfl, ?_⟩
    have hends : ScriptEnds asserts engine console [] _ := .all .nil
    simpa using hends
  | cons line text ih =>
    have hrest : asserts = true → ∀ other ∈ text, other.length ≤ intMax :=
      fun hasserts other hother => hshort hasserts other (by simp [hother])
    unfold loop
    by_cases hempty : line.isEmpty = true
    · obtain ⟨after, all, hloop, hends⟩ := ih hrest console
      refine ⟨after, all, ?_, by simpa [hempty] using hends⟩
      simpa [autoexecStep, hempty] using hloop
    · have hstatements : (line :: text).filter (fun line => !line.isEmpty) =
          line :: text.filter fun line => !line.isEmpty := by simp [hempty]
      obtain ⟨status, result, second, shown, hquery, hshown⟩ :=
        scriptOutput_query engine console.database
          fun hasserts => hshort hasserts line (by simp)
      rw [hstatements]
      cases status with
      | false =>
        have hends : ScriptEnds asserts engine console
            (line :: text.filter fun line => !line.isEmpty) _ :=
          .failed (List.nil_append _).symm .nil hquery
        exact ⟨_, false, by simp [autoexecStep, hempty, hquery], hends⟩
      | true =>
        obtain ⟨after, all, hloop, hends⟩ :=
          ih hrest { database := second, printed := console.printed ++ (echo line ++ shown) }
        refine ⟨after, all, ?_, hends.cons hquery hshown⟩
        simpa [autoexecStep, hempty, hquery, hshown] using hloop

theorem autoexec_eq {files : Text → Option Text} {arguments : Arguments} {text : Text}
    {console after : Console engine} {all : Bool} (hfile : files arguments.data = some text)
    (hloop : loop (autoexecStep asserts engine) (lines text) console = .ok (after, all)) :
    autoexec asserts engine files arguments console = .ok (after.print ("Done.\n" : Text)) := by
  simp [autoexec, hfile, hloop, bind, Except.bind, pure, Except.pure]

/-- A script is executed statement by statement, up to the first one that fails;
nothing is reverted, and nothing is executed behind it. Empty lines are passed over. The
assertion on the length of a statement holds for lines that are no longer. -/
theorem autoexec_ends {files : Text → Option Text} {arguments : Arguments} {text : Text}
    (hfile : files arguments.data = some text)
    (hshort : asserts = true → ∀ line ∈ lines text, line.length ≤ intMax)
    (console : Console engine) :
    ∃ after, autoexec asserts engine files arguments console =
        .ok (after.print ("Done.\n" : Text)) ∧
      ScriptEnds asserts engine console ((lines text).filter fun line => !line.isEmpty) after := by
  obtain ⟨after, all, hloop, hends⟩ := loop_autoexecStep hshort console
  exact ⟨after, autoexec_eq hfile hloop, hends⟩

/-- A script whose second statement is none. -/
def sampleScript (name : Text) : Option Text :=
  if name = ("a.sql" : Text) then
    some (unlines [sampleStatement, [], ("CREATE" : Text), sampleStatement])
  else none

def sampleArguments : Arguments where
  view := some ("a.sql" : Text)
  data := ("a.sql" : Text)

theorem autoexec_ends_sample :
    ∃ after, autoexec true sampleEngine sampleScript sampleArguments { database := some () } =
        .ok (after.print ("Done.\n" : Text)) ∧
      ScriptEnds true sampleEngine { database := some () }
        [sampleStatement, ("CREATE" : Text), sampleStatement] after := by
  have hfile : sampleScript sampleArguments.data =
      some (unlines [sampleStatement, [], ("CREATE" : Text), sampleStatement]) := by decide +kernel
  have hlines : lines (unlines [sampleStatement, [], ("CREATE" : Text), sampleStatement]) =
      [sampleStatement, [], ("CREATE" : Text), sampleStatement] := lines_unlines (by decide +kernel)
  have hshort : ∀ line ∈ lines (unlines [sampleStatement, [], ("CREATE" : Text), sampleStatement]),
      line.length ≤ intMax := by
    rw [hlines]
    decide +kernel
  obtain ⟨after, hrun, hends⟩ :=
    autoexec_ends hfile (fun _ : true = true => hshort)
      ({ database := some () } : Console sampleEngine)
  rw [hlines] at hends
  exact ⟨after, hrun, hends⟩

end Scripts

/-! ## When the console is left -/

section Leaving

variable {asserts : Bool} {engine : Engine}

/-- Exited by a double backslash, with anything behind a blank. -/
def Exits (input : Entered engine) : Prop :=
  input.line = ("\\\\" : Text) ∨ ∃ more, input.line = ("\\\\ " : Text) ++ more

/-- A control sequence that reads all of the view that no blank has begun. -/
def Overreads (input : Entered engine) : Prop :=
  input.line = ("\\dr" : Text) ∨
    input.line = ("\\ld" : Text) ∧ input.openFile (cString input.behind) = none

/-- No statement that comes of the line is too long for the assertion. -/
structure Short (input : Entered engine) : Prop where
  line : ("SELECT * FROM " : Text).length + input.line.length ≤ intMax
  files : ∀ name text, input.files name = some text → ∀ line ∈ lines text, line.length ≤ intMax

theorem showQuery_ok {sql : Text} (done failed : Text) (console : Console engine)
    (hshort : asserts = true → sql.length ≤ intMax) :
    ∃ after, showQuery asserts engine sql done failed console = .ok after := by
  obtain ⟨status, result, database, text, hquery, htext⟩ :=
    printResult_query engine console.database hshort
  unfold showQuery
  rw [hquery]
  cases status with
  | false => exact ⟨_, rfl⟩
  | true =>
    simp only [htext, bind, Except.bind]
    exact ⟨_, rfl⟩

theorem autoexec_ok {files : Text → Option Text}
    (hshort : asserts = true → ∀ name text, files name = some text →
      ∀ line ∈ lines text, line.length ≤ intMax)
    (arguments : Arguments) (console : Console engine) :
    ∃ after, autoexec asserts engine files arguments console = .ok after := by
  cases hfile : files arguments.data with
  | none => exact ⟨_, by simp only [autoexec, hfile]; rfl⟩
  | some text =>
    obtain ⟨after, all, hloop, -⟩ :=
      loop_autoexecStep (fun hasserts => hshort hasserts _ text hfile) console
    exact ⟨_, autoexec_eq hfile hloop⟩

theorem load_ok {openFile : Text → Option engine.Db} {arguments : Arguments}
    (h : arguments.view = none → openFile arguments.data ≠ none) (console : Console engine) :
    ∃ after, load engine openFile arguments console = .ok after := by
  unfold load
  cases hopen : openFile arguments.data with
  | some db => exact ⟨_, rfl⟩
  | none =>
    cases hview : arguments.view with
    | none => exact absurd hopen (h hview)
    | some args => exact ⟨_, rfl⟩

theorem cut_eq_none {c : Byte} {t s : Text} (h : cut c t = (s, none)) : t = s := by
  rcases mem_cases c t with hmem | ⟨a, b, rfl, hmem⟩
  · rw [cut_of_not_mem hmem] at h
    exact (Prod.mk.inj h).1
  · rw [cut_append hmem] at h
    simp at h

theorem cut_eq_some {c : Byte} {t s m : Text} (h : cut c t = (s, some m)) : t = s ++ c :: m := by
  rcases mem_cases c t with hmem | ⟨a, b, rfl, hmem⟩
  · rw [cut_of_not_mem hmem] at h
    simp at h
  · rw [cut_append hmem] at h
    obtain ⟨rfl, hrest⟩ := Prod.mk.inj h
    rw [Option.some.inj hrest]

/-- A line that leaves the console is a control sequence of one backslash. -/
theorem exits_iff {input : Entered engine} :
    Exits input ↔ ∃ rest, input.line = ('\\' : Byte) :: rest ∧
      (cut ' ' rest).1 = ("\\" : Text) := by
  constructor
  · rintro (hline | ⟨more, hline⟩)
    · exact ⟨("\\" : Text), hline, by decide⟩
    · refine ⟨("\\" : Text) ++ (' ' : Byte) :: more, hline, ?_⟩
      rw [cut_append (by decide)]
  · rintro ⟨rest, hline, hsequence⟩
    cases hcut : cut ' ' rest with
    | mk sequence view =>
      obtain rfl : sequence = ("\\" : Text) := by rwa [hcut] at hsequence
      cases view with
      | none => exact .inl (by rw [hline, cut_eq_none hcut]; rfl)
      | some more => exact .inr ⟨more, by rw [hline, cut_eq_some hcut]; rfl⟩

theorem overreads_iff {input : Entered engine} :
    Overreads input ↔ ∃ rest, input.line = ('\\' : Byte) :: rest ∧
      (cut ' ' rest = (("dr" : Text), none) ∨
        cut ' ' rest = (("ld" : Text), none) ∧ input.openFile (cString input.behind) = none) := by
  constructor
  · rintro (hline | ⟨hline, hclosed⟩)
    · exact ⟨("dr" : Text), hline, .inl (by decide)⟩
    · exact ⟨("ld" : Text), hline, .inr ⟨by decide, hclosed⟩⟩
  · rintro ⟨rest, hline, hcut | ⟨hcut, hclosed⟩⟩
    · exact .inl (by rw [hline, cut_eq_none hcut]; rfl)
    · exact .inr ⟨by rw [hline, cut_eq_none hcut]; rfl, hclosed⟩

theorem find?_key_cons {β : Type} (key sequence : Text) (value : β) (rest : List (Text × β)) :
    ((key, value) :: rest).find? (fun entry => entry.1 == sequence) =
      if sequence = key then some (key, value)
      else rest.find? fun entry => entry.1 == sequence := by
  rw [List.find?_cons]
  by_cases heq : sequence = key
  · simp [heq]
  · have hne : (key == sequence) = false := beq_eq_false_iff_ne.mpr (Ne.symm heq)
    simp only [hne, if_neg heq]

/-- The control sequence that is found. -/
theorem find?_controlSequences (input : Entered engine) (sequence : Text) :
    (controlSequences asserts engine input).find? (fun entry => entry.1 == sequence) =
      if sequence = ("dt" : Text) then some (("dt" : Text), fun _ => displayTables asserts engine)
      else if sequence = ("dr" : Text) then some (("dr" : Text), displayRows asserts engine)
      else if sequence = ("ax" : Text) then
        some (("ax" : Text), autoexec asserts engine input.files)
      else if sequence = ("ld" : Text) then some (("ld" : Text), load engine input.openFile)
      else none := by
  rw [controlSequences, find?_key_cons, find?_key_cons, find?_key_cons, find?_key_cons,
    List.find?_nil]

theorem toProgress_ok {σ : Type} {run : Exec σ} (h : ∃ after, run = .ok after) :
    ∃ second, toProgress run = .next second := by
  obtain ⟨after, rfl⟩ := h
  exact ⟨after, rfl⟩

section Control

variable {input : Entered engine} {rest sequence : Text} {view : Option Text}
  (hline : input.line = ('\\' : Byte) :: rest) (hcut : cut ' ' rest = (sequence, view))

include hline hcut

theorem dbStep_control (console : Console engine) (hne : rest ≠ [])
    (hexits : sequence ≠ ("\\" : Text)) :
    dbStep asserts engine console input =
      match (controlSequences asserts engine input).find? fun entry => entry.1 == sequence with
      | none => .next (console.print ("Error: Invalid control sequence.\n" : Text))
      | some entry =>
        toProgress (entry.2 { view, data := cString (view.getD input.behind) } console) := by
  have hempty : rest.isEmpty = false := by simpa using hne
  rw [dbStep, hline]
  dsimp only
  rw [if_pos (beq_self_eq_true _), if_neg (by simp [hempty]), hcut]
  exact if_neg fun heq => hexits (beq_iff_eq.mp heq)

/-- A control sequence that reads all of a view without an end traps. -/
theorem dbStep_overreads (console : Console engine) (hview : view = none)
    (hsequence : sequence = ("dr" : Text) ∨
      sequence = ("ld" : Text) ∧ input.openFile (cString input.behind) = none) :
    ∃ trap, dbStep asserts engine console input = .fail trap := by
  subst hview
  have hne : sequence ≠ [] ∧ sequence ≠ ("\\" : Text) := by
    rcases hsequence with rfl | ⟨rfl, -⟩ <;> decide
  have hrest : rest ≠ [] := by
    rintro rfl
    exact hne.1 (Prod.mk.inj hcut).1.symm
  rw [dbStep_control hline hcut console hrest hne.2, find?_controlSequences]
  rcases hsequence with rfl | ⟨rfl, hclosed⟩
  · rw [if_neg (by decide), if_pos rfl]
    exact ⟨.exception, rfl⟩
  · rw [if_neg (by decide), if_neg (by decide), if_neg (by decide), if_pos rfl]
    refine ⟨.outOfRange, ?_⟩
    simp only [load, Option.getD_none, hclosed, toProgress]

/-- Any other control sequence goes on. -/
theorem dbStep_goes_on (console : Console engine) (hshort : asserts = true → Short input)
    (hne : rest ≠ []) (hexits : sequence ≠ ("\\" : Text)) (hreads : ¬ Overreads input) :
    ∃ second, dbStep asserts engine console input = .next second := by
  have hargument : ∀ args, view = some args → asserts = true →
      (("SELECT * FROM " : Text) ++ args).length ≤ intMax := by
    rintro args rfl hasserts
    have hlength := (hshort hasserts).line
    rw [hline, cut_eq_some hcut] at hlength
    simp only [List.length_append, List.length_cons] at hlength ⊢
    omega
  rw [dbStep_control hline hcut console hne hexits, find?_controlSequences]
  split_ifs with hdt hdr hax hld
  · exact toProgress_ok (showQuery_ok _ _ console fun _ => by decide +kernel)
  · subst hdr
    cases view with
    | none => exact absurd (overreads_iff.mpr ⟨rest, hline, .inl hcut⟩) hreads
    | some args => exact toProgress_ok (showQuery_ok _ _ console (hargument args rfl))
  · exact toProgress_ok (autoexec_ok (fun hasserts => (hshort hasserts).files) _ console)
  · subst hld
    refine toProgress_ok (load_ok ?_ console)
    rintro rfl hclosed
    exact hreads (overreads_iff.mpr ⟨rest, hline, .inr ⟨hcut, hclosed⟩⟩)
  · exact ⟨_, rfl⟩

end Control

/-- By the line, and what is found when it is entered, it is known whether the console
goes on, is left, or traps. -/
theorem decides_dbStep : Decides (dbStep asserts engine) (fun input => asserts = true → Short input)
    Exits Overreads where
  stop console input hshort hexits := by
    obtain ⟨rest, hline, hsequence⟩ := exits_iff.mp hexits
    have hne : rest ≠ [] := by
      rintro rfl
      simp [cut] at hsequence
    have hempty : rest.isEmpty = false := by simpa using hne
    refine ⟨console, ?_⟩
    rw [dbStep, hline]
    dsimp only
    rw [if_pos (beq_self_eq_true _), if_neg (by simp [hempty])]
    exact if_pos (beq_iff_eq.mpr hsequence)
  fail console input hshort hreads := by
    obtain ⟨rest, hline, hcut | ⟨hcut, hclosed⟩⟩ := overreads_iff.mp hreads
    · exact dbStep_overreads hline hcut console rfl (.inl rfl)
    · exact dbStep_overreads hline hcut console rfl (.inr ⟨rfl, hclosed⟩)
  next console input hshort hexits hreads := by
    cases hline : input.line with
    | nil => exact ⟨console, by rw [dbStep, hline]⟩
    | cons first rest =>
      by_cases hfirst : first = ('\\' : Byte)
      · subst hfirst
        by_cases hne : rest = []
        · subst hne
          exact ⟨_, by rw [dbStep, hline]; rfl⟩
        · cases hcut : cut ' ' rest with
          | mk sequence view =>
            refine dbStep_goes_on hline hcut console hshort hne ?_ hreads
            rintro rfl
            exact hexits (exits_iff.mpr ⟨rest, hline, by rw [hcut]⟩)
      · -- anything else is SQL
        rw [dbStep, hline]
        dsimp only
        rw [if_neg fun heq => hfirst (beq_iff_eq.mp heq)]
        refine toProgress_ok (showQuery_ok _ _ console fun hasserts => ?_)
        have hlength := (hshort hasserts).line
        rw [hline] at hlength
        omega

/-- Whatever SQLite does, and whatever the files and the memory hold when a line is
entered, the console is left for the web part exactly when a double backslash is entered
and no line in front of it is a bare `\\dr`, or a bare `\\ld` where no database can be opened
under the name that stands behind the line; it traps exactly when such a line comes first. -/
theorem db_left_iff {inputs : List (Entered engine)}
    (hshort : asserts = true → ∀ input ∈ inputs, Short input) (console : Console engine) :
    ((∃ after, db asserts engine inputs console = .ok (after, false)) ↔
        Meets (fun input => ¬ Exits input ∧ ¬ Overreads input) Exits inputs) ∧
      ((∃ trap, db asserts engine inputs console = .error trap) ↔
        Meets (fun input => ¬ Exits input ∧ ¬ Overreads input) Overreads inputs) :=
  decides_dbStep.loop_iff (fun input hinput hasserts => hshort hasserts input hinput) console

/-- A line where no file can be opened. -/
def sampleEntered (line : Text) : Entered sampleEngine where
  line := line
  files _ := none
  openFile _ := none
  behind := []

/-- A bare `\\ax` goes on, and a bare `\\ld` does not when nothing can be opened. -/
theorem db_left_iff_sample :
    (∃ after, db true sampleEngine
        [sampleEntered ("\\ax" : Text), sampleEntered ("\\\\" : Text)]
        { database := some () } = .ok (after, false)) ∧
      ∃ trap, db true sampleEngine
        [sampleEntered ("\\ld" : Text), sampleEntered ("\\\\" : Text)]
        { database := some () } = .error trap := by
  have hshort : ∀ {line : Text}, ("SELECT * FROM " : Text).length + line.length ≤ intMax →
      Short (sampleEntered line) :=
    fun hlength => ⟨hlength, fun _ _ hfile => by simp [sampleEntered] at hfile⟩
  constructor
  · refine (db_left_iff ?_ _).1.mpr
      ⟨[sampleEntered ("\\ax" : Text)], sampleEntered ("\\\\" : Text), [], rfl, ?_, .inl rfl⟩
    · simp only [List.mem_cons, List.not_mem_nil, or_false]
      rintro - input (rfl | rfl) <;> exact hshort (by decide +kernel)
    · simp only [List.mem_singleton]
      rintro input rfl
      refine ⟨?_, ?_⟩
      · intro hexits
        obtain ⟨rest, hline, hsequence⟩ := exits_iff.mp hexits
        obtain rfl : ("ax" : Text) = rest := (List.cons.inj hline).2
        exact absurd hsequence (by decide)
      · rintro (hline | ⟨hline, -⟩)
        · exact absurd hline (by decide)
        · exact absurd hline (by decide)
  · refine (db_left_iff ?_ _).2.mpr
      ⟨[], sampleEntered ("\\ld" : Text), [sampleEntered ("\\\\" : Text)], rfl, by simp,
        .inr ⟨rfl, rfl⟩⟩
    simp only [List.mem_cons, List.not_mem_nil, or_false]
    rintro - input (rfl | rfl) <;> exact hshort (by decide +kernel)

end Leaving

end WFA
