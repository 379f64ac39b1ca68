-- SUMMARY: `selectPart` shows a part as `searchParts` does exactly when its supplier and its group are the ones that are read first.
import WFA.Server.Records
import WFA.Server.Parts

/-!
# Two views of a part

`searchParts` joins a part with its own supplier and its own group. The joins of
`selectPart` have no conditions and only the first row of the result is read, so
it shows the supplier and the group that the engine reads first.
-/

namespace WFA

open Text

namespace Key

def partsList : Text := ("Parts" : Text)
def id : Text := ("ID" : Text)
def supplier : Text := ("Supplier" : Text)

end Key

section Parts

variable {p : Platform} {database : Database} {id sid : Int} {part : Part} {supplier : Supplier}

/-! ## The list -/

/-- The entries of `searchParts` for one part. -/
def partEntries (p : Platform) (ending : Ending) (id : Int) : List ResponseWrapper :=
  (ending.records Key.partsList).filter fun record =>
    record.field Key.id == some (p.columnText (.int id))

/-- The row `searchParts` makes of a part. -/
def joinedPart (database : Database) (id : Int) (part : Part) (supplier : Supplier) : PartRow where
  id := id
  part := part
  supplier := supplier
  group := (part.similar.row database.partGroups).map (·.1)

theorem joinedParts_filter (hpart : database.parts.get id = some part)
    (hsupplier : part.supplier.row database.suppliers = some (sid, supplier)) :
    (joinedParts database).filter (fun row => row.id == id) =
      [joinedPart database id part supplier] := by
  have hrows : database.parts.rows.filter (fun row => row.1 == id) = [(id, part)] := by
    refine database.parts.select_eq_singleton (p := fun other _ => other == id) hpart (by simp) ?_
    intro other found _ hother
    simpa using hother
  -- the condition on the joined row is one on the part it comes from
  have hmove : (joinedParts database).filter (fun row => row.id == id) =
      (database.parts.rows.filter fun row => row.1 == id).filterMap fun row =>
        (row.2.supplier.row database.suppliers).map fun supplier =>
          joinedPart database row.1 row.2 supplier.2 := by
    rw [joinedParts, List.filter_filterMap, List.filterMap_filter]
    refine List.filterMap_congr fun row _ => ?_
    cases row.2.supplier.row database.suppliers with
    | none => simp
    | some supplier => cases hid : row.1 == id <;> simp [joinedPart, Option.filter, hid]
  rw [hmove, hrows, List.filterMap_cons_some (by rw [hsupplier]; rfl), List.filterMap_nil]

/-- The list has one entry for a part that matches. -/
theorem partEntries_searchParts {server : Server} {req : Request} {q : Query}
    (hemployee : server.sessions.verify req AuthLevel.employee = true)
    (hasked : (q.hasElementOrEmpty Field.name || q.hasElementOrEmpty Field.group) = true)
    (hpart : server.database.parts.get id = some part)
    (hsupplier : part.supplier.row server.database.suppliers = some (sid, supplier))
    (hmatches : partMatches p q (joinedPart server.database id part supplier) = true) :
    partEntries p (searchParts p server req q) id =
      [partRecord p (joinedPart server.database id part supplier)] := by
  have hasked' : (!q.hasElementOrEmpty Field.name && !q.hasElementOrEmpty Field.group) = false := by
    rw [← Bool.not_or, hasked, Bool.not_true]
  have hrecords : (searchParts p server req q).records Key.partsList =
      ((joinedParts server.database).filter (partMatches p q)).map (partRecord p) := by
    unfold searchParts
    rw [hasked', hemployee]
    exact ResponseWrapper.recordsAt_addAll_self rfl
  have hfield : ((fun record => record.field Key.id == some (p.columnText (.int id))) ∘
      partRecord p) = fun row => row.id == id := by
    funext row
    have hid : (partRecord p row).field Key.id = some (p.columnText (.int row.id)) :=
      ResponseWrapper.field_ofFields _ _ _
    simp only [Function.comp_apply, hid, Platform.columnText]
    rw [Bool.eq_iff_iff, beq_iff_eq, beq_iff_eq, Option.some.injEq]
    exact ⟨ofInt_injective, congrArg ofInt⟩
  rw [partEntries, hrecords, List.filter_map, hfield, List.filter_comm,
    joinedParts_filter hpart hsupplier, List.filter_cons_of_pos hmatches]
  rfl

/-! ## The single part -/

/-- The row `selectPart` shows. -/
theorem crossedParts_head {key : Text} {first : Int × Supplier} {rest : List (Int × Supplier)}
    (hkey : p.numeric key = .int id) (hpart : database.parts.get id = some part)
    (hfirst : (p.supplierScan database.suppliers).1 = first :: rest) :
    (crossedParts p database key).head? = some
      { id, part, supplier := first.2
        group := (p.groupScan database.partGroups).1.head?.map (·.1) } := by
  have hselect : (database.parts.select fun other _ => p.isId other key) = [(id, part)] := by
    refine database.parts.select_eq_singleton hpart (by simp [p.isId_eq hkey]) ?_
    intro other found _ hother
    simpa [p.isId_eq hkey] using hother
  unfold crossedParts
  rw [hselect, hfirst]
  cases (p.groupScan database.partGroups).1 <;> simp

theorem columnText_group_inj {g g' : Option Int}
    (h : p.columnText (g.elim .null .int) = p.columnText (g'.elim .null .int)) : g = g' := by
  have hnull : ∀ n : Int, ofInt n ≠ ("NULL" : Text) := by
    intro n hn
    rcases ofInt_head hn with hdigit | hminus
    · revert hdigit
      decide
    · revert hminus
      decide
  cases g with
  | none =>
    cases g' with
    | none => rfl
    | some n => exact absurd h.symm (hnull n)
  | some m =>
    cases g' with
    | none => exact absurd h (hnull m)
    | some n => exact congrArg some (ofInt_injective h)

/-- The part's own supplier reads like the one that is read first, and its group is the
one that is read first. -/
structure FirstJoined (p : Platform) (database : Database) (part : Part) (supplier : Supplier) :
    Prop where
  supplier : ∀ first, (p.supplierScan database.suppliers).1.head? = some first →
    p.columnText first.2.name = p.columnText supplier.name
  group : ∀ first, (p.groupScan database.partGroups).1.head? = some first →
    part.similar = .int first.1

/-- Both groups are missing or they are the same. -/
theorem group_eq_iff {scan : database.partGroups.Scan} :
    scan.1.head?.map (·.1) = (part.similar.row database.partGroups).map (·.1) ↔
      ∀ first, scan.1.head? = some first → part.similar = .int first.1 := by
  have hmem : ∀ row, row ∈ database.partGroups.rows ↔ row ∈ scan.1 := fun _ => scan.2.mem_iff.symm
  cases hrows : scan.1 with
  | nil =>
    have hnone : part.similar.row database.partGroups = none := by
      rw [Option.eq_none_iff_forall_ne_some]
      rintro ⟨g, row⟩ hrow
      have hget := database.partGroups.get_eq_some_iff.mp (row_eq_some_iff.mp hrow).2
      simp [hmem, hrows] at hget
    simp [hnone]
  | cons first rest =>
    have hget : database.partGroups.get first.1 = some first.2 :=
      database.partGroups.get_eq_some_iff.mpr (by simp [hmem, hrows])
    simp only [List.head?_cons, Option.map_some, Option.some.injEq, forall_eq']
    constructor
    · intro heq
      obtain ⟨⟨g, row⟩, hrow, hg⟩ := Option.map_eq_some_iff.mp heq.symm
      rw [(row_eq_some_iff.mp hrow).1]
      exact congrArg Value.int hg
    · intro heq
      rw [row_eq_some_iff.mpr ⟨heq, hget⟩]
      rfl

theorem partRecord_eq_iff {row row' : PartRow} (hid : row.id = row'.id)
    (hpart : row.part = row'.part) :
    partRecord p row = partRecord p row' ↔
      p.columnText row.supplier.name = p.columnText row'.supplier.name ∧ row.group = row'.group := by
  constructor
  · intro heq
    have hfields := ResponseWrapper.ofFields_inj heq
    simp only [List.cons.injEq, Prod.mk.injEq, true_and, and_true] at hfields
    exact ⟨hfields.2.2.2.2.1, columnText_group_inj hfields.2.2.2.2.2⟩
  · rintro ⟨hsupplier, hgroup⟩
    simp only [partRecord, hid, hpart, hsupplier, hgroup]

/-- For a part whose supplier exists, the two routes show the same record exactly
when the part's supplier and group are the ones that are read first. -/
theorem partViews_agree_iff {server : Server} {req : Request} {selecting searching : Query}
    {key : Text} (hemployee : server.sessions.verify req AuthLevel.employee = true)
    (hpart : server.database.parts.get id = some part)
    (hsupplier : part.supplier.row server.database.suppliers = some (sid, supplier))
    (hkey : selecting.getElement Field.id = some key) (hne : key ≠ [])
    (hid : p.numeric key = .int id)
    (hasked : (searching.hasElementOrEmpty Field.name ||
      searching.hasElementOrEmpty Field.group) = true)
    (hmatches : partMatches p searching (joinedPart server.database id part supplier) = true) :
    ∃ entry, partEntries p (searchParts p server req searching) id = [entry] ∧
      (selectPart p server req selecting = .reply .ok (some entry) ↔
        FirstJoined p server.database part supplier) := by
  refine ⟨_, partEntries_searchParts hemployee hasked hpart hsupplier hmatches, ?_⟩
  have hget := (row_eq_some_iff.mp hsupplier).2
  obtain ⟨first, rest, hfirst⟩ :
      ∃ first rest, (p.supplierScan server.database.suppliers).1 = first :: rest :=
    List.exists_cons_of_ne_nil fun hnil => by
      have hmem := (p.supplierScan server.database.suppliers).2.mem_iff.mpr
        (server.database.suppliers.get_eq_some_iff.mp hget)
      simp [hnil] at hmem
  have hhead := crossedParts_head hid hpart hfirst
  generalize hgroup : (p.groupScan server.database.partGroups).1.head?.map (·.1) = group at hhead
  obtain ⟨others, hcrossed⟩ := List.head?_eq_some_iff.mp hhead
  have hselect : selectPart p server req selecting = .reply .ok (some (partRecord p
      { id, part, supplier := first.2, group })) := by
    have hhas : selecting.hasElement Field.id = true :=
      QueryBase.hasElement_iff.mpr ⟨key, hkey, hne⟩
    simp [selectPart, hhas, hemployee, hkey, hcrossed]
  have hrecord : partRecord p { id, part, supplier := first.2, group } =
      partRecord p (joinedPart server.database id part supplier) ↔
        p.columnText first.2.name = p.columnText supplier.name ∧
          group = (part.similar.row server.database.partGroups).map (·.1) :=
    partRecord_eq_iff rfl rfl
  rw [hselect, Ending.reply.injEq, Option.some.injEq, hrecord, ← hgroup, group_eq_iff]
  simp only [true_and]
  constructor
  · rintro ⟨hname, hgroup⟩
    refine ⟨?_, hgroup⟩
    rintro found hfound
    rw [hfirst, List.head?_cons, Option.some.injEq] at hfound
    rw [← hfound]
    exact hname
  · rintro ⟨hname, hgroup⟩
    exact ⟨hname first (by rw [hfirst]; rfl), hgroup⟩

end Parts

/-! ## Two suppliers -/

def acme : Supplier where
  name := .text ("Acme" : Text)
  phone := .int 1
  email := .null

def lamp : Part where
  name := .text ("lamp" : Text)
  quantity := .int 9
  supplier := .int 2
  price := .int 5
  similar := .text nullWord

/-- Brakes from the supplier whose name comes last, and a lamp from the other one. -/
def storeServer : Server where
  database :=
    { suppliers :=
        { rows := [(1, { acme with name := .text ("Zeta" : Text) }), (2, acme)]
          sorted := by decide
          bounded := by decide }
      parts :=
        { rows := [(1, { lamp with name := .text ("brakes" : Text), supplier := .int 1 }), (2, lamp)]
          sorted := by decide
          bounded := by decide } }
  sessions := managerSessions

def partQuery (id : Text) : Query := .ofList [(Field.id, id)]

/-- Every part. -/
def allParts : Query := .ofList [(Field.name, [])]

/-- The list says that the brakes come from Zeta; the single view says Acme. -/
theorem supplier_mistaken :
    (partEntries .integers (searchParts .integers storeServer managerRequest allParts) 1).map
        (·.field Key.supplier) = [some ("Zeta" : Text)] ∧
      ((selectPart .integers storeServer managerRequest (partQuery ("1" : Text))).record.bind
        (·.field Key.supplier)) = some ("Acme" : Text) := by
  decide +kernel

theorem partViews_agree_lamp : ∃ entry,
    partEntries .integers (searchParts .integers storeServer managerRequest allParts) 2 = [entry] ∧
      selectPart .integers storeServer managerRequest (partQuery ("2" : Text)) =
        .reply .ok (some entry) := by
  have hpart : storeServer.database.parts.get 2 = some lamp := rfl
  have hsupplier : lamp.supplier.row storeServer.database.suppliers = some (2, acme) := rfl
  have hkey : (partQuery ("2" : Text)).getElement Field.id = some ("2" : Text) := by decide +kernel
  have hid : Platform.integers.numeric ("2" : Text) = .int 2 := by decide +kernel
  have hasked : (allParts.hasElementOrEmpty Field.name ||
      allParts.hasElementOrEmpty Field.group) = true := by decide +kernel
  obtain ⟨entry, hentry, hagree⟩ := partViews_agree_iff
    (show storeServer.sessions.verify managerRequest AuthLevel.employee = true from
      managerSessions_verify (by decide))
    hpart hsupplier hkey (by decide) hid hasked (by decide +kernel)
  refine ⟨entry, hentry, hagree.mpr ⟨?_, ?_⟩⟩
  · rintro first hfirst
    have hscan : (Platform.integers.supplierScan storeServer.database.suppliers).1.head? =
        some (2, acme) := by decide +kernel
    obtain rfl := Option.some.inj (hscan.symm.trans hfirst)
    rfl
  · rintro first hfirst
    cases hfirst

end WFA
