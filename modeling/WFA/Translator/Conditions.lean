-- SUMMARY: Conditions of a template: how a joined text is taken apart, and what a condition checks.
import WFA.Translator.Template
import WFA.Shared.Response

/-!
# Conditions

A condition is a row of atoms joined by `&` and `|`. It is taken apart at the
nearest of the two, and checked from left to right without precedence. An atom is
taken apart at its first `=` when it has one anywhere, and only otherwise at `!`:
a constant behind `!` that has a `=` in it is torn apart.
-/

namespace WFA

open Text

/-! ## Checking -/

/-- `subCondition::check`. -/
def SubCondition.check (condition : SubCondition) (data : ResponseWrapper) : Bool :=
  let isEqual :=
    match data.search condition.variableName with
    -- Data must be present, strings, and exactly one string.
    | none => false
    | some (.objects _) => false
    | some (.strings values) =>
      if values.length ≠ 1 then false else values.head? == some condition.constant
  match condition.action with
  | .always => true
  | .equal => isEqual
  | .notEqual => !isEqual

namespace TranslationCondition

def applyConjunction (left : Bool) (val : Conjunction) (right : Bool) : Bool :=
  match val with
  | .and => left && right
  | .or => left || right

/-- The loop of `check`, behind the first condition. The conjunctions are indexed
without a check. -/
def checkFrom (data : ResponseWrapper) :
    Bool → List SubCondition → List Conjunction → Exec Bool
  | currentState, [], _ => .ok currentState
  | _, _ :: _, [] => .error .outOfRange
  | currentState, condition :: conditions, conjunction :: conjunctions =>
    checkFrom data (applyConjunction currentState conjunction (condition.check data)) conditions
      conjunctions

/-- `translationCondition::check`. -/
def check (condition : TranslationCondition) (data : ResponseWrapper) : Exec Bool :=
  match condition.conditions with
  | [] => .ok true
  | first :: conditions => checkFrom data (first.check data) conditions condition.conjunctions

end TranslationCondition

/-! ## Atoms -/

def isDivisor (b : Byte) : Bool :=
  b == '&' || b == '|'

def isOperator (b : Byte) : Bool :=
  b == '=' || b == '!'

/-- A text without operators and divisors. -/
abbrev PlainWord := { t : Text // ∀ b ∈ t, isOperator b = false ∧ isDivisor b = false }

/-- A text without divisors. -/
abbrev ConstantWord := { t : Text // ∀ b ∈ t, isDivisor b = false }

/-- One part of a condition, as it is meant. -/
inductive Atom where
  | equal (variableName : PlainWord) (constant : ConstantWord)
  | notEqual (variableName : PlainWord) (constant : ConstantWord)
  | always (text : PlainWord)

namespace Atom

def print : Atom → Text
  | .equal name constant => name.1 ++ ('=' : Byte) :: constant.1
  | .notEqual name constant => name.1 ++ ('!' : Byte) :: constant.1
  | .always text => text.1

/-- What an atom is parsed to. -/
def toSubCondition : Atom → SubCondition
  | .equal name constant => { action := .equal, constant := constant.1, variableName := name.1 }
  | .notEqual name constant => { action := .notEqual, constant := constant.1, variableName := name.1 }
  | .always _ => {}

/-- What an atom says: `=` that the variable is present as one string, the
constant, and `!` that it is not. -/
def Holds (data : ResponseWrapper) : Atom → Prop
  | .equal name constant => data.search name.1 = some (.strings [constant.1])
  | .notEqual name constant => data.search name.1 ≠ some (.strings [constant.1])
  | .always _ => True

/-- The constant of an inequality has no `=`. -/
def Intact : Atom → Prop
  | .notEqual _ constant => ('=' : Byte) ∉ constant.1
  | _ => True

end Atom

def Conjunction.divisor : Conjunction → Byte
  | .and => '&'
  | .or => '|'

/-- Atoms joined by `&` and `|`. -/
def joined (first : Atom) (rest : List (Conjunction × Atom)) : Text :=
  first.print ++ rest.flatMap fun part => part.1.divisor :: part.2.print

/-- Left to right, without precedence. -/
def EvaluatesFrom (data : ResponseWrapper) (state : Prop) (rest : List (Conjunction × Atom)) : Prop :=
  rest.foldl (fun state part =>
    match part.1 with
    | .and => state ∧ part.2.Holds data
    | .or => state ∨ part.2.Holds data) state

/-! ## Taking atoms apart -/

section Atoms

variable {data : ResponseWrapper} {atom : Atom}

theorem PlainWord.not_mem {b : Byte} (t : PlainWord) (h : isOperator b = true ∨ isDivisor b = true) :
    b ∉ t.1 := by
  intro hmem
  have hfree := t.2 b hmem
  simp [hfree] at h

theorem Atom.divisor_not_mem {b : Byte} (atom : Atom) (h : isDivisor b = true) : b ∉ atom.print := by
  have hconstant : ∀ constant : ConstantWord, b ∉ constant.1 := by
    intro constant hmem
    have hfree := constant.2 b hmem
    simp [hfree] at h
  have hequal : b ≠ '=' := by
    rintro rfl
    revert h
    decide
  have hexclaim : b ≠ '!' := by
    rintro rfl
    revert h
    decide
  cases atom with
  | equal name constant => simp [Atom.print, name.not_mem (.inr h), hconstant constant, hequal]
  | notEqual name constant => simp [Atom.print, name.not_mem (.inr h), hconstant constant, hexclaim]
  | always text => exact text.not_mem (.inr h)

open TranslationCondition in
/-- An atom is taken apart as it is meant exactly when it is intact. -/
theorem parseSubCondition_print (atom : Atom) :
    parseSubCondition atom.print = atom.toSubCondition ↔ atom.Intact := by
  cases atom with
  | equal name constant =>
    have hcut : cut '=' (name.1 ++ ('=' : Byte) :: constant.1) = (name.1, some constant.1) :=
      cut_append (name.not_mem (.inl (by decide)))
    simp [Atom.print, parseSubCondition, hcut, Atom.toSubCondition, Atom.Intact]
  | always text =>
    have hequal : cut '=' text.1 = (text.1, none) :=
      cut_of_not_mem (text.not_mem (.inl (by decide)))
    have hexclaim : cut '!' text.1 = (text.1, none) :=
      cut_of_not_mem (text.not_mem (.inl (by decide)))
    simp [Atom.print, parseSubCondition, hequal, hexclaim, Atom.toSubCondition, Atom.Intact]
  | notEqual name constant =>
    have hname : ('=' : Byte) ∉ name.1 := name.not_mem (.inl (by decide))
    have hexclaim : cut '!' (name.1 ++ ('!' : Byte) :: constant.1) = (name.1, some constant.1) :=
      cut_append (name.not_mem (.inl (by decide)))
    simp only [Atom.print, Atom.Intact, Atom.toSubCondition]
    rcases mem_cases '=' constant.1 with hmem | ⟨a, b, hsplit, hmem⟩
    · have hequal : cut '=' (name.1 ++ ('!' : Byte) :: constant.1) = (_, none) :=
        cut_of_not_mem (by simp [hname, hmem]; decide)
      simp [parseSubCondition, hequal, hexclaim, hmem]
    · -- the operator of the table that comes first is not the one that stands first
      have hequal : cut '=' ((name.1 ++ ('!' : Byte) :: a) ++ ('=' : Byte) :: b) = (_, some b) :=
        cut_append (by simp [hname, hmem]; decide)
      rw [List.append_assoc, List.cons_append, ← hsplit] at hequal
      have hequals : ('=' : Byte) ∈ constant.1 := by simp [hsplit]
      simp [parseSubCondition, hequal, hequals]

/-- The check of an atom says what the atom does. -/
theorem check_toSubCondition (data : ResponseWrapper) (atom : Atom) :
    atom.toSubCondition.check data = true ↔ atom.Holds data := by
  have hequal : ∀ (name constant : Text),
      ({ action := .equal, constant := constant, variableName := name } : SubCondition).check data =
        true ↔ data.search name = some (.strings [constant]) := by
    intro name constant
    simp only [SubCondition.check]
    cases data.search name with
    | none => simp
    | some container =>
      cases container with
      | objects values => simp
      | strings values =>
        match values with
        | [] => simp
        | [value] => simp
        | value :: next :: values => simp
  cases atom with
  | equal name constant => exact hequal name.1 constant.1
  | always text => exact ⟨fun _ => trivial, fun _ => rfl⟩
  | notEqual name constant =>
    have hnot : (Atom.notEqual name constant).toSubCondition.check data =
        !(Atom.equal name constant).toSubCondition.check data := rfl
    rw [hnot, Bool.not_eq_true', ← Bool.not_eq_true]
    exact not_congr (hequal name.1 constant.1)

end Atoms

/-! ## Taking rows apart -/

namespace TranslationCondition

section Rows

theorem findFrom_append (pre : Text) {a : Text} {c : Byte} (t : Text) (h : c ∉ a) :
    findFrom (pre ++ (a ++ t)) c pre.length =
      if c ∈ t then some (pre.length + (a.length + indexOf c t)) else none := by
  have hlen : a.findIdx (· == c) = a.length := indexOf_of_not_mem h
  simp [findFrom, h, indexOf, List.findIdx_append, hlen, Nat.add_comm]

/-- The nearest divisor stands behind the first atom. -/
theorem nextDivisor_append (pre t : Text) (atom : Atom) (conjunction : Conjunction) :
    nextDivisor (pre ++ (atom.print ++ conjunction.divisor :: t)) pre.length =
      some (pre.length + atom.print.length, conjunction) := by
  have hand : ('&' : Byte) ∉ atom.print := atom.divisor_not_mem (by decide)
  have hor : ('|' : Byte) ∉ atom.print := atom.divisor_not_mem (by decide)
  have hhere : ∀ c : Byte, indexOf c (c :: t) = 0 := fun c => by simp [indexOf, List.findIdx_cons]
  have hlater : ∀ {b c : Byte}, b ≠ c → indexOf c (b :: t) = indexOf c t + 1 := by
    intro b c hbc
    have hbeq : (b == c) = false := by simpa using hbc
    simp [indexOf, List.findIdx_cons, hbeq]
  have hne : ('|' : Byte) ≠ '&' := by decide
  rw [nextDivisor, findFrom_append _ _ hand, findFrom_append _ _ hor]
  cases conjunction with
  | and =>
    by_cases hmem : ('|' : Byte) ∈ t
    · simp [Conjunction.divisor, hhere, hlater hne.symm, hmem]
    · simp [Conjunction.divisor, hhere, hmem, hne]
  | or =>
    by_cases hmem : ('&' : Byte) ∈ t
    · simp [Conjunction.divisor, hhere, hlater hne, hmem]
    · simp [Conjunction.divisor, hhere, hmem, hne.symm]

theorem nextDivisor_last (pre : Text) (atom : Atom) :
    nextDivisor (pre ++ atom.print) pre.length = none := by
  have hand := findFrom_append pre [] (atom.divisor_not_mem (b := '&') (by decide))
  have hor := findFrom_append pre [] (atom.divisor_not_mem (b := '|') (by decide))
  rw [List.append_nil] at hand hor
  simp [nextDivisor, hand, hor]

/-- The loop takes the atoms off one by one. -/
theorem parseFrom_joined (rest : List (Conjunction × Atom)) (first : Atom) (pre : Text)
    (ret : TranslationCondition) :
    parseFrom (pre ++ joined first rest) pre.length ret =
      { conditions := ret.conditions ++
          (first :: rest.map Prod.snd).map fun atom => parseSubCondition atom.print
        conjunctions := ret.conjunctions ++ rest.map Prod.fst } := by
  induction rest generalizing first pre ret with
  | nil =>
    have htext : joined first [] = first.print := by simp [joined]
    have hslice : slice (pre ++ first.print) pre.length (pre ++ first.print).length = first.print :=
      slice_eq (c := []) (by simp) rfl (by simp)
    rw [htext, parseFrom]
    split
    · rw [hslice]
      simp
    · rename_i hfound
      rw [nextDivisor_last] at hfound
      cases hfound
  | cons part rest ih =>
    obtain ⟨conjunction, next⟩ := part
    have htext : joined first ((conjunction, next) :: rest) =
        first.print ++ conjunction.divisor :: joined next rest := by simp [joined]
    have hslice : slice (pre ++ (first.print ++ conjunction.divisor :: joined next rest)) pre.length
        (pre.length + first.print.length) = first.print := slice_eq rfl rfl rfl
    rw [htext, parseFrom]
    split
    · rename_i hfound
      rw [nextDivisor_append] at hfound
      cases hfound
    · rename_i div type hfound
      rw [nextDivisor_append] at hfound
      obtain ⟨rfl, rfl⟩ : pre.length + first.print.length = div ∧ conjunction = type := by
        simpa using hfound
      have hrest := ih next (pre ++ (first.print ++ [conjunction.divisor]))
        { conditions := ret.conditions ++ [parseSubCondition first.print]
          conjunctions := ret.conjunctions ++ [conjunction] }
      have hpre : (pre ++ (first.print ++ [conjunction.divisor])).length =
          pre.length + first.print.length + 1 := by
        simp only [List.length_append, List.length_singleton]
        omega
      rw [hpre] at hrest
      simpa [hslice] using hrest

/-- What the parser makes of a row of atoms. -/
theorem parse_joined (first : Atom) (rest : List (Conjunction × Atom)) :
    parse (joined first rest) =
      { conditions := (first :: rest.map Prod.snd).map fun atom => parseSubCondition atom.print
        conjunctions := rest.map Prod.fst } :=
  parseFrom_joined rest first [] {}

theorem checkFrom_joined (data : ResponseWrapper) (rest : List (Conjunction × Atom)) (state : Bool)
    (spec : Prop) (h : state = true ↔ spec) :
    ∃ result, checkFrom data state ((rest.map Prod.snd).map Atom.toSubCondition)
        (rest.map Prod.fst) = .ok result ∧ (result = true ↔ EvaluatesFrom data spec rest) := by
  induction rest generalizing state spec with
  | nil => exact ⟨state, rfl, h⟩
  | cons part rest ih =>
    obtain ⟨conjunction, atom⟩ := part
    have hatom := check_toSubCondition data atom
    cases conjunction with
    | and =>
      exact ih (state && atom.toSubCondition.check data) (spec ∧ atom.Holds data)
        (by rw [Bool.and_eq_true, h, hatom])
    | or =>
      exact ih (state || atom.toSubCondition.check data) (spec ∨ atom.Holds data)
        (by rw [Bool.or_eq_true, h, hatom])

end Rows

/-- A row of atoms is parsed to these atoms and connectives in order, and checked
from left to right, exactly when no inequality has a `=` in its constant. -/
theorem parse_check_iff (first : Atom) (rest : List (Conjunction × Atom)) :
    (parse (joined first rest) =
        { conditions := (first :: rest.map Prod.snd).map Atom.toSubCondition
          conjunctions := rest.map Prod.fst } ∧
      (parse (joined first rest)).conditions.length =
        (parse (joined first rest)).conjunctions.length + 1 ∧
      ∀ data, ∃ result, (parse (joined first rest)).check data = .ok result ∧
        (result = true ↔ EvaluatesFrom data (first.Holds data) rest)) ↔
    ∀ atom ∈ first :: rest.map Prod.snd, atom.Intact := by
  have hatoms : parse (joined first rest) =
      { conditions := (first :: rest.map Prod.snd).map Atom.toSubCondition
        conjunctions := rest.map Prod.fst } ↔
      ∀ atom ∈ first :: rest.map Prod.snd, atom.Intact := by
    rw [parse_joined, TranslationCondition.mk.injEq, List.map_inj_left]
    simp only [parseSubCondition_print, and_true]
  rw [← hatoms]
  refine ⟨fun h => h.1, fun hparse => ⟨hparse, parse_sizes _, ?_⟩⟩
  intro data
  rw [hparse]
  exact checkFrom_joined data rest _ _ (check_toSubCondition data first)

/-- The inequality `a!b=c`. -/
def tornInequality : Atom :=
  .notEqual ⟨("a" : Text), by decide +kernel⟩ ⟨("b=c" : Text), by decide +kernel⟩

/-- It is taken for the equality of `a!b` and `c`. -/
theorem parse_tornInequality :
    parse (joined tornInequality []) ≠
      { conditions := [tornInequality.toSubCondition], conjunctions := [] } := by
  rw [parse_joined]
  decide +kernel

end TranslationCondition

end WFA
