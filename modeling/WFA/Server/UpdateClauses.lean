-- SUMMARY: The clause of an UPDATE is read back from its text as assignments of quoted tokens.
import WFA.Server.Database

/-!
# Update clauses

`generateUpdateStatement` puts the values of a form between double quotes. The
clause is read here the way the engine reads it: a quoted token ends at a quote
that is not doubled, and of two assignments to a column the right one counts. The
order of the assignments is the order in which the map of relations is visited,
which may be any.
-/

namespace WFA

open Text

/-! ## Reading a clause -/

/-- The token after an opening quote, and the text behind its closing quote. -/
def readToken : Text → Option (Text × Text)
  | [] => none
  | [b] => if b == '"' then some ([], []) else none
  | b :: c :: t =>
    if b == 0 then none
    else if b == '"' then
      if c == '"' then (readToken t).map fun read => (('"' : Byte) :: read.1, read.2)
      else some ([], c :: t)
    else (readToken (c :: t)).map fun read => (b :: read.1, read.2)

def isUpper (b : Byte) : Bool :=
  'A' ≤ b && b ≤ 'Z'

/-- What stands between a column and its value. -/
def assignmentSign : Text := (" = \"" : Text)

/-- The assignment at the front of a text: a column and a token. -/
def readAssignment (t : Text) : Option ((Text × Text) × Text) :=
  let column := t.takeWhile isUpper
  let rest := t.dropWhile isUpper
  if assignmentSign.isPrefixOf rest then
    (readToken (rest.drop assignmentSign.length)).map fun read => ((column, read.1), read.2)
  else none

/-- Assignments with commas between them. -/
def readClause : Nat → Text → Option (List (Text × Text))
  | 0, _ => none
  | fuel + 1, t =>
    match readAssignment t with
    | none => none
    | some (assignment, []) => some [assignment]
    | some (assignment, b :: rest) =>
      if b == ',' then (readClause fuel rest).map (assignment :: ·) else none

/-- The value a list of assignments gives to a column. -/
def rightmost (assignments : List (Text × Text)) (column : Text) : Option Text :=
  (assignments.reverse.find? (·.1 == column)).map (·.2)

theorem quote_ne_zero : ((('"' : Char) : Byte) == 0) = false := by decide

/-- A token is read back in front of a text that does not go on with a quote. -/
theorem readToken_append {val tok : Text} (h : unquote val = some tok) {rest : Text}
    (hrest : rest.head? ≠ some ('"' : Byte)) :
    readToken (val ++ ('"' : Byte) :: rest) = some (tok, rest) := by
  induction val using unquote.induct generalizing tok with
  | case1 =>
    obtain rfl : [] = tok := by simpa [unquote] using h
    cases rest with
    | nil => simp [readToken]
    | cons c rest =>
      have hc : (c == ('"' : Byte)) = false := by simpa using hrest
      simp [readToken, hc, quote_ne_zero]
  | case2 b hb => simp [unquote, hb] at h
  | case3 b hb =>
    obtain rfl : [b] = tok := by simpa [unquote, hb] using h
    simp only [Bool.or_eq_true, not_or, Bool.not_eq_true] at hb
    cases rest with
    | nil => simp [readToken, hb]
    | cons c rest =>
      have hc : (c == ('"' : Byte)) = false := by simpa using hrest
      simp [readToken, hb, hc, quote_ne_zero]
  | case4 b c t hb => simp [unquote, hb] at h
  | case5 b c t hb hquote hc ih =>
    simp only [unquote, hb, hquote, hc, if_true, Bool.false_eq_true, if_false,
      Option.map_eq_some_iff] at h
    obtain ⟨tok, htok, rfl⟩ := h
    simp [readToken, hb, hquote, hc, ih htok]
  | case6 b c t hb hquote hc => simp [unquote, hb, hquote, hc] at h
  | case7 b c t hb hquote ih =>
    simp only [unquote, hb, hquote, Bool.false_eq_true, if_false, Option.map_eq_some_iff] at h
    obtain ⟨tok, htok, rfl⟩ := h
    have hread := ih htok
    rw [List.cons_append] at hread
    simp [readToken, hb, hquote, hread]

/-! ## The clause of a form -/

/-- The columns a form sets and the texts it sets them to, in the order of the visits. -/
def pieces (b : Body) (order : List (Text × Text)) : List (Text × Text) :=
  order.filterMap fun relation => (assigned b relation.1).map fun val => (relation.2, val)

/-- One assignment of the clause. -/
def pieceText (piece : Text × Text) : Text :=
  piece.1 ++ (assignmentSign ++ (piece.2 ++ [('"' : Byte)]))

/-- The assignments after the first. -/
def tailText (rest : List (Text × Text)) : Text :=
  rest.flatMap fun piece => (',' : Byte) :: pieceText piece

theorem pieceText_ne_nil (piece : Text × Text) : pieceText piece ≠ [] := by
  simp [pieceText]

theorem mem_pieces {b : Body} {order : List (Text × Text)} {column val : Text} :
    (column, val) ∈ pieces b order ↔
      ∃ name, (name, column) ∈ order ∧ assigned b name = some val := by
  simp only [pieces, List.mem_filterMap, Option.map_eq_some_iff, Prod.mk.injEq]
  constructor
  · rintro ⟨⟨name, column⟩, hmem, val, hval, rfl, rfl⟩
    exact ⟨name, hmem, hval⟩
  · rintro ⟨name, hmem, hval⟩
    exact ⟨(name, column), hmem, val, hval, rfl, rfl⟩

/-- The round of `generateUpdateStatement` for one relation. -/
def clauseRound (b : Body) (ret : Text) (relation : Text × Text) : Text :=
  match assigned b relation.1 with
  | none => ret
  | some val =>
    (if ret.isEmpty then ret else ret ++ [(',' : Byte)]) ++ pieceText (relation.2, val)

theorem generateUpdateStatement_foldl (b : Body) (order : List (Text × Text)) :
    generateUpdateStatement b order = order.foldl (clauseRound b) [] := rfl

/-- The loop from a text that is not empty. -/
theorem clauseRound_foldl {b : Body} (order : List (Text × Text)) {ret : Text}
    (hret : ret ≠ []) :
    order.foldl (clauseRound b) ret = ret ++ tailText (pieces b order) := by
  induction order generalizing ret with
  | nil => simp [pieces, tailText]
  | cons relation order ih =>
    rw [List.foldl_cons]
    cases hval : assigned b relation.1 with
    | none => simp [clauseRound, hval, pieces, ih hret]
    | some val =>
      have hround : clauseRound b ret relation =
          ret ++ (',' : Byte) :: pieceText (relation.2, val) := by
        simp [clauseRound, hval, hret]
      rw [hround, ih (by simp)]
      simp [pieces, hval, tailText]

/-- The clause is the assignments of the form with commas between them. -/
theorem generateUpdateStatement_eq (b : Body) (order : List (Text × Text)) :
    generateUpdateStatement b order =
      match pieces b order with
      | [] => []
      | piece :: rest => pieceText piece ++ tailText rest := by
  rw [generateUpdateStatement_foldl]
  induction order with
  | nil => rfl
  | cons relation order ih =>
    rw [List.foldl_cons]
    cases hval : assigned b relation.1 with
    | none => simpa [clauseRound, pieces, hval] using ih
    | some val =>
      have hround : clauseRound b [] relation = pieceText (relation.2, val) := by
        simp [clauseRound, hval]
      rw [hround, clauseRound_foldl order (pieceText_ne_nil _)]
      simp [pieces, hval]

theorem readAssignment_pieceText {column val tok : Text} (hcolumn : column.all isUpper = true)
    (hval : unquote val = some tok) (rest : Text) (hrest : rest.head? ≠ some ('"' : Byte)) :
    readAssignment (pieceText (column, val) ++ rest) = some ((column, tok), rest) := by
  have hspace : isUpper (' ' : Byte) = false := by decide
  have hsign : assignmentSign = (' ' : Byte) :: [('=' : Byte), (' ' : Byte), ('"' : Byte)] := by
    decide
  have htext : pieceText (column, val) ++ rest =
      column ++ (assignmentSign ++ (val ++ ('"' : Byte) :: rest)) := by
    simp [pieceText]
  have htake : (column ++ (assignmentSign ++ (val ++ ('"' : Byte) :: rest))).takeWhile isUpper =
      column := by
    rw [List.takeWhile_append_of_pos (by simpa using hcolumn), hsign]
    simp [hspace]
  have hdrop : (column ++ (assignmentSign ++ (val ++ ('"' : Byte) :: rest))).dropWhile isUpper =
      assignmentSign ++ (val ++ ('"' : Byte) :: rest) := by
    rw [List.dropWhile_append_of_pos (by simpa using hcolumn), hsign]
    simp [hspace]
  rw [htext, readAssignment, htake, hdrop]
  simp [readToken_append hval hrest]

/-- The texts of some assignments as the engine reads them. -/
def tokens (assignments : List (Text × Text)) : List (Text × Text) :=
  assignments.filterMap fun piece => (unquote piece.2).map fun tok => (piece.1, tok)

/-- Well-quoted values under columns that are words are read back. -/
theorem readClause_pieces {rest : List (Text × Text)} {piece : Text × Text} {fuel : Nat}
    (hcolumns : ∀ found ∈ piece :: rest, found.1.all isUpper = true)
    (hvalues : ∀ found ∈ piece :: rest, (unquote found.2).isSome = true)
    (hfuel : rest.length ≤ fuel) :
    readClause (fuel + 1) (pieceText piece ++ tailText rest) = some (tokens (piece :: rest)) := by
  induction rest generalizing piece fuel with
  | nil =>
    obtain ⟨tok, htok⟩ := Option.isSome_iff_exists.mp (hvalues piece (by simp))
    have hread := readAssignment_pieceText (hcolumns piece (by simp)) htok [] (by simp)
    rw [readClause, tailText, List.flatMap_nil, hread]
    simp [tokens, htok]
  | cons next rest ih =>
    obtain ⟨fuel, rfl⟩ : ∃ n, fuel = n + 1 := ⟨fuel - 1, by simp at hfuel; omega⟩
    obtain ⟨tok, htok⟩ := Option.isSome_iff_exists.mp (hvalues piece (by simp))
    have hcomma : ((',' : Char) : Byte) ≠ ((('"' : Char) : Byte)) := by decide
    have htail : tailText (next :: rest) = (',' : Byte) :: (pieceText next ++ tailText rest) := by
      simp [tailText]
    have hread := readAssignment_pieceText (hcolumns piece (by simp)) htok
      ((',' : Byte) :: (pieceText next ++ tailText rest)) (by simpa using hcomma)
    have hrest := ih (fun found hfound => hcolumns found (List.mem_cons_of_mem _ hfound))
      (fun found hfound => hvalues found (List.mem_cons_of_mem _ hfound)) (by simpa using hfuel)
    rw [readClause, htail, hread]
    simp [hrest, tokens, htok]

theorem length_le_tailText (rest : List (Text × Text)) :
    rest.length ≤ (tailText rest).length := by
  induction rest with
  | nil => simp
  | cons piece rest ih =>
    simp only [tailText, List.flatMap_cons, List.length_append, List.length_cons] at ih ⊢
    omega

/-- The clause of a form whose values are well quoted is read back. -/
theorem readClause_generateUpdateStatement {b : Body} {order : List (Text × Text)}
    (hwords : ∀ relation ∈ order, relation.2.all isUpper = true)
    (hquoted : wellQuoted b order = true) (hpieces : pieces b order ≠ []) :
    generateUpdateStatement b order ≠ [] ∧
      readClause ((generateUpdateStatement b order).length + 1) (generateUpdateStatement b order) =
        some (tokens (pieces b order)) := by
  have hmem : ∀ found ∈ pieces b order,
      found.1.all isUpper = true ∧ (unquote found.2).isSome = true := by
    rintro ⟨column, val⟩ hfound
    obtain ⟨name, hname, hval⟩ := mem_pieces.mp hfound
    exact ⟨hwords (name, column) hname, isSome_unquote hquoted hname hval⟩
  rw [generateUpdateStatement_eq]
  cases hcases : pieces b order with
  | nil => exact absurd hcases hpieces
  | cons piece rest =>
    rw [hcases] at hmem
    refine ⟨by simp [pieceText_ne_nil], ?_⟩
    apply readClause_pieces (fun found hfound => (hmem found hfound).1)
      (fun found hfound => (hmem found hfound).2)
    have hlength := length_le_tailText rest
    rw [List.length_append]
    omega

/-! ## Assignments as a map -/

/-- Pairs that are kept under their keys have some of the keys, in order. -/
theorem keys_filterMap_sublist {α : Type} (l : List α) (key : α → Text)
    (value : α → Option Text) :
    ((l.filterMap fun a => (value a).map fun v => (key a, v)).map (·.1)).Sublist (l.map key) := by
  induction l with
  | nil => simp
  | cons a l ih =>
    cases hvalue : value a with
    | none => simpa [hvalue] using ih.cons _
    | some v => simpa [hvalue] using ih

/-- Each column of the map is assigned once at most. -/
theorem tokens_pieces_nodup (b : Body) {order : List (Text × Text)}
    (h : (order.map (·.2)).Nodup) : ((tokens (pieces b order)).map (·.1)).Nodup := by
  have htokens := keys_filterMap_sublist (pieces b order) (·.1) fun piece => unquote piece.2
  have hpieces := keys_filterMap_sublist order (·.2) fun relation => assigned b relation.1
  exact List.Nodup.sublist (htokens.trans hpieces) h

/-- A key that no two elements share finds its element. -/
theorem find?_of_nodup {α : Type} {l : List α} {key : α → Text} (hnodup : (l.map key).Nodup)
    {a : α} (h : a ∈ l) : l.find? (key · == key a) = some a := by
  cases hfind : l.find? (key · == key a) with
  | none =>
    have hnone := List.find?_eq_none.mp hfind a h
    simp at hnone
  | some found =>
    have hkey : key found = key a := by simpa using List.find?_some hfind
    rw [List.inj_on_of_nodup_map hnodup (List.mem_of_find?_eq_some hfind) h hkey]

theorem rightmost_of_mem {assignments : List (Text × Text)} {column tok : Text}
    (hnodup : (assignments.map (·.1)).Nodup) (h : (column, tok) ∈ assignments) :
    rightmost assignments column = some tok := by
  have hreverse : (assignments.reverse.map (·.1)).Nodup := by
    rw [List.map_reverse]
    exact List.nodup_reverse.mpr hnodup
  rw [rightmost, find?_of_nodup hreverse (List.mem_reverse.mpr h)]
  rfl

theorem rightmost_of_not_mem {assignments : List (Text × Text)} {column : Text}
    (h : ∀ tok, (column, tok) ∉ assignments) : rightmost assignments column = none := by
  have hcolumns : ∀ assignment ∈ assignments, assignment.1 ≠ column := by
    rintro ⟨found, tok⟩ hmem rfl
    exact h tok hmem
  rw [rightmost, find?_reverse_of_not_mem hcolumns]
  rfl

theorem mem_tokens_pieces {b : Body} {order : List (Text × Text)} {column tok : Text} :
    (column, tok) ∈ tokens (pieces b order) ↔
      ∃ name, (name, column) ∈ order ∧ token b name = some tok := by
  simp only [tokens, List.mem_filterMap, Option.map_eq_some_iff, Prod.mk.injEq, token,
    Option.bind_eq_some_iff]
  constructor
  · rintro ⟨⟨column, val⟩, hmem, tok, htok, rfl, rfl⟩
    obtain ⟨name, hname, hval⟩ := mem_pieces.mp hmem
    exact ⟨name, hname, val, hval, htok⟩
  · rintro ⟨name, hname, val, hval, htok⟩
    exact ⟨(column, val), mem_pieces.mpr ⟨name, hname, hval⟩, tok, htok, rfl, rfl⟩

/-- In whatever order the map is visited, a column gets the token of its element. -/
theorem rightmost_tokens {b : Body} {relations order : List (Text × Text)}
    (hnodup : (relations.map (·.2)).Nodup) (horder : order.Perm relations) {name column : Text}
    (h : (name, column) ∈ relations) :
    rightmost (tokens (pieces b order)) column = token b name := by
  have hcolumns : (order.map (·.2)).Nodup := (horder.map _).nodup_iff.mpr hnodup
  cases htoken : token b name with
  | some tok =>
    apply rightmost_of_mem (tokens_pieces_nodup b hcolumns)
    exact mem_tokens_pieces.mpr ⟨name, horder.mem_iff.mpr h, htoken⟩
  | none =>
    apply rightmost_of_not_mem
    intro tok hmem
    obtain ⟨other, hother, htok⟩ := mem_tokens_pieces.mp hmem
    -- The column has one element only.
    have heq : (other, column) = (name, column) :=
      List.inj_on_of_nodup_map hnodup (horder.mem_iff.mp hother) h rfl
    obtain rfl : other = name := congrArg Prod.fst heq
    rw [htoken] at htok
    exact absurd htok (by simp)

end WFA
