-- SUMMARY: The tables that forms update, and what an UPDATE with a given clause does to one.
import WFA.Server.UpdateClauses

/-!
# Update targets

Five routes execute an `UPDATE` whose clause is made of the texts of a form. What the
statement does is read off its clause: a quoted token is a column when it names one and
a string otherwise, and every token is evaluated in the row as it was.
-/

namespace WFA

open Text

/-! ## Tables -/

/-- The affinities of the columns that a form can set. -/
def columnAffinity (p : Platform) (column : Text) : Value → Value :=
  if [("PERMISSIONS" : Text), ("PHONE" : Text), ("QUANTITY" : Text), ("SUPPLIER" : Text),
      ("PRICE" : Text), ("SIMILAR" : Text)].contains column then p.integerAffinity
  else if column = ("LABOUR" : Text) then p.realAffinity
  else p.textAffinity

/-- A table with the columns that a form can set and the statement that sets them. -/
structure Target (p : Platform) where
  Row : Type
  /-- The statement before and after its clause. -/
  head : Text
  tail : Text
  /-- The elements of the form and the columns they go to. -/
  relations : List (Text × Text)
  table : Database → Table Row
  replace : Database → Table Row → Database
  /-- The condition on a row, with the text that is bound to the key. -/
  selected : Text → Int → Row → Bool
  columns : Int → Row → List (Text × Value)
  /-- The row with new values in the columns that get one. -/
  set : (Text → Option Value) → Row → Row
  admissible : Table Row → Int → Row → Bool
  words : ∀ relation ∈ relations, relation.2.all isUpper = true
  nodup : (relations.map (·.2)).Nodup
  table_replace : ∀ database rows, table (replace database rows) = rows
  quoted_set : ∀ values id row, ∀ relation ∈ relations,
    quoted (columns id (set values row)) relation.2 =
      (values relation.2).getD (quoted (columns id row) relation.2)
  set_congr : ∀ {values values' : Text → Option Value} row,
    (∀ relation ∈ relations, values relation.2 = values' relation.2) →
      set values row = set values' row

/-! ## Executing a clause -/

namespace Target

variable {p : Platform} (t : Target p)

/-- New values in the rows that the key selects. -/
def write (database : Database) (key : Text) (values : Int → t.Row → Text → Option Value) :
    Option Database :=
  (updateRows (t.table database) (t.selected key) (fun id row => t.set (values id row) row)
    (t.admissible (t.table database))).map (t.replace database)

/-- `UPDATE t SET clause WHERE …` with the text that is bound to its key. Every
token is evaluated in the row as it was. A clause that is empty is not executed,
and one that is not a list of assignments to the columns of the form is left to
the engine. -/
def execute (database : Database) (clause key : Text) : Option Database :=
  if clause.isEmpty then some database
  else
    match (readClause (clause.length + 1) clause).filter fun assignments =>
        assignments.all fun assignment => t.relations.any (·.2 == assignment.1) with
    | some assignments =>
      t.write database key fun id row column =>
        (rightmost assignments column).map fun tok =>
          columnAffinity p column (quoted (t.columns id row) tok)
    | none => p.escaped (t.head ++ (clause ++ t.tail)) key database

end Target

end WFA
