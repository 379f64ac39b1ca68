-- SUMMARY: Which cookies the header scanner finds, and when the session cookie is one of them.
import WFA.Server.Network

/-!
# The cookies of a header

A browser joins its cookies with a semicolon and a blank. The loop of `getCookies`
steps over the blank only behind a cookie that it stores. Behind a segment that it
ignores, the blank becomes a part of the name that follows.
-/

namespace WFA

open Text

/-! ## The loop -/

/-- The text that `setCookie` writes. -/
def setCookie (name val : Text) : Text :=
  name ++ ('=' : Byte) :: val

/-- One round of the loop of `getCookies`: what is left of the header, and the
cookies found so far. -/
def cookieRound (state : Text × List (Text × Text)) : Text × List (Text × Text) :=
  let segment := cut ';' state.1
  match cut '=' segment.1 with
  | (_, none) => (segment.2.getD [], state.2)
  | ([], some _) => (segment.2.getD [], state.2)
  | (name, some value) => ((segment.2.getD []).dropWhile isSpace, state.2 ++ [(name, value)])

variable {rest : Text} {values : List (Text × Text)} {fuel : Nat}

theorem cookiesFrom_nil : cookiesFrom fuel [] values = values := by
  cases fuel with
  | zero => rfl
  | succ fuel => simp [cookiesFrom]

theorem cookiesFrom_succ (h : rest ≠ []) :
    cookiesFrom (fuel + 1) rest values =
      cookiesFrom fuel (cookieRound (rest, values)).1 (cookieRound (rest, values)).2 := by
  have hempty : rest.isEmpty = false := by simpa using h
  simp only [cookiesFrom, hempty, Bool.false_eq_true, if_false, cookieRound]
  cases hcut : cut '=' (cut ';' rest).1 with
  | mk name value =>
    cases value with
    | none => rfl
    | some value =>
      cases name with
      | nil => rfl
      | cons b name => rfl

theorem cut_rest_lt (c : Byte) (h : rest ≠ []) : ((cut c rest).2.getD []).length < rest.length := by
  have hpos := List.length_pos_of_ne_nil h
  cases hcut : cut c rest with
  | mk key tail =>
    cases tail with
    | none => simpa using hpos
    | some tail =>
      have hlength := cut_length hcut
      simp only [Option.getD_some]
      omega

/-- Every round takes at least one byte of the header. -/
theorem cookieRound_length (h : rest ≠ []) : (cookieRound (rest, values)).1.length < rest.length := by
  have hlt := cut_rest_lt ';' h
  have hdrop : (((cut ';' rest).2.getD []).dropWhile isSpace).length ≤
      ((cut ';' rest).2.getD []).length := (List.dropWhile_suffix _).length_le
  simp only [cookieRound]
  split
  · exact hlt
  · exact hlt
  · exact Nat.lt_of_le_of_lt hdrop hlt

/-- The loop ends after at most one round for every byte of the header, with the
cookies that the model returns. -/
theorem cookiesFrom_ends (h : rest.length ≤ fuel) :
    ∃ rounds ≤ rest.length,
      cookieRound^[rounds] (rest, values) = ([], cookiesFrom fuel rest values) := by
  induction fuel generalizing rest values with
  | zero =>
    obtain rfl : rest = [] := List.length_eq_zero_iff.mp (Nat.le_zero.mp h)
    exact ⟨0, le_refl 0, rfl⟩
  | succ fuel ih =>
    by_cases hrest : rest = []
    · subst hrest
      exact ⟨0, le_refl 0, by rw [cookiesFrom_nil]; rfl⟩
    · have hlt : (cookieRound (rest, values)).1.length < rest.length := cookieRound_length hrest
      obtain ⟨rounds, hrounds, hends⟩ :=
        @ih (cookieRound (rest, values)).1 (cookieRound (rest, values)).2 (by omega)
      refine ⟨rounds + 1, by omega, ?_⟩
      rw [Function.iterate_succ_apply, cookiesFrom_succ hrest]
      exact hends

/-! ## Segments -/

/-- A piece of a header between two semicolons, without the blanks around it. -/
structure CookieSegment (segment : Text) : Prop where
  noDivider : (';' : Byte) ∉ segment
  noLeading : ∀ b ∈ segment.head?, isSpace b = false
  noTrailing : ∀ b ∈ segment.getLast?, isSpace b = false

/-- The name of a segment, when it has a divisor. -/
def cookieName (segment : Text) : Option Text :=
  match cut '=' segment with
  | (name, some _) => some name
  | (_, none) => none

/-- The segment has a divisor and nothing in front of it. -/
def emptyName (segment : Text) : Bool :=
  cookieName segment == some []

/-- The segments of a header joined with a semicolon and a blank. -/
def joinCookies (segments : List Text) : Text :=
  List.intercalate [(';' : Byte), (' ' : Byte)] segments

/-- The blank in front of a segment, when the loop has not stepped over it. -/
def blankIf (glued : Bool) : Text :=
  if glued then [(' ' : Byte)] else []

/-- What the loop stores of a segment. -/
def stored (segment : Text) : List (Text × Text) :=
  match cut '=' segment with
  | (_, none) => []
  | ([], some _) => []
  | (name, some value) => [(name, value)]

/-- Whether the blank behind a segment stays. -/
def glues (glued : Bool) (segment : Text) : Bool :=
  (stored (blankIf glued ++ segment)).isEmpty

/-- What the loop stores of the segments from one on. -/
def storedFrom : Bool → List Text → List (Text × Text)
  | _, [] => []
  | glued, segment :: rest =>
    stored (blankIf glued ++ segment) ++ storedFrom (glues glued segment) rest

theorem not_mem_blankIf {c : Byte} (hc : c ≠ ' ') (glued : Bool) : c ∉ blankIf glued := by
  cases glued with
  | false => simp [blankIf]
  | true => simpa [blankIf] using hc

/-- A round over a segment whose end is in sight. -/
theorem cookieRound_of_cut {segment : Text} {tail : Option Text}
    (h : cut ';' rest = (segment, tail)) :
    cookieRound (rest, values) =
      (if (stored segment).isEmpty then tail.getD [] else (tail.getD []).dropWhile isSpace,
        values ++ stored segment) := by
  simp only [cookieRound, h]
  split <;> rename_i hcut <;> simp [stored, hcut]

theorem cookieRound_last {segment : Text} (h : (';' : Byte) ∉ segment) :
    cookieRound (segment, values) = ([], values ++ stored segment) := by
  rw [cookieRound_of_cut (cut_of_not_mem h)]
  simp

theorem dropWhile_joined {next : Text} {segments : List Text} (h : CookieSegment next) :
    ((' ' : Byte) :: joinCookies (next :: segments)).dropWhile isSpace = joinCookies (next :: segments) := by
  have hblank : isSpace (' ' : Byte) = true := by decide
  have hsemicolon : isSpace (';' : Byte) = false := by decide
  rw [List.dropWhile_cons_of_pos hblank]
  cases next with
  | nil =>
    cases segments with
    | nil => rfl
    | cons segment segments =>
      simp only [joinCookies, List.intercalate_cons_cons, List.nil_append]
      exact List.dropWhile_cons_of_neg (by simp [hsemicolon])
  | cons b next =>
    have hb := h.noLeading b rfl
    cases segments with
    | nil => exact List.dropWhile_cons_of_neg (by simp [hb])
    | cons segment segments =>
      simp only [joinCookies, List.intercalate_cons_cons, List.cons_append]
      exact List.dropWhile_cons_of_neg (by simp [hb])

theorem cookieRound_segment {segment next : Text} {segments : List Text} {glued : Bool}
    (h : (';' : Byte) ∉ segment) (hnext : CookieSegment next) :
    cookieRound (blankIf glued ++ joinCookies (segment :: next :: segments), values) =
      (blankIf (glues glued segment) ++ joinCookies (next :: segments),
        values ++ stored (blankIf glued ++ segment)) := by
  have hmem : (';' : Byte) ∉ blankIf glued ++ segment := by
    simpa [h] using not_mem_blankIf (by decide) glued
  have hheader : blankIf glued ++ joinCookies (segment :: next :: segments) =
      (blankIf glued ++ segment) ++ (';' : Byte) :: ((' ' : Byte) :: joinCookies (next :: segments)) := by
    simp [joinCookies, List.intercalate_cons_cons]
  rw [cookieRound_of_cut (hheader ▸ cut_append hmem), Option.getD_some, dropWhile_joined hnext]
  unfold glues
  cases (stored (blankIf glued ++ segment)).isEmpty with
  | false => rfl
  | true => rfl

/-- The cookies of a header are what the loop stores of its segments. -/
theorem cookiesFrom_joined {segments : List Text} {glued : Bool}
    (h : ∀ segment ∈ segments, CookieSegment segment) (hne : segments ≠ [])
    (hfuel : (blankIf glued ++ joinCookies segments).length ≤ fuel) :
    cookiesFrom fuel (blankIf glued ++ joinCookies segments) values =
      values ++ storedFrom glued segments := by
  induction segments generalizing glued values fuel with
  | nil => exact absurd rfl hne
  | cons segment segments ih =>
    have hsegment := (h segment (by simp)).noDivider
    by_cases hempty : blankIf glued ++ joinCookies (segment :: segments) = []
    · -- nothing is left: an empty last segment
      cases segments with
      | nil =>
        rw [hempty, cookiesFrom_nil]
        simp only [joinCookies, List.intercalate_singleton] at hempty
        rw [storedFrom, hempty]
        simp [storedFrom, stored, cut]
      | cons next segments => simp [joinCookies, List.intercalate_cons_cons] at hempty
    · have hlt : (cookieRound (blankIf glued ++ joinCookies (segment :: segments), values)).1.length <
          _ := cookieRound_length hempty
      obtain ⟨fuel, rfl⟩ : ∃ k, fuel = k + 1 :=
        ⟨fuel - 1, by have := List.length_pos_of_ne_nil hempty; omega⟩
      rw [cookiesFrom_succ hempty]
      cases segments with
      | nil =>
        have hmem : (';' : Byte) ∉ blankIf glued ++ segment := by
          simpa [hsegment] using not_mem_blankIf (by decide) glued
        simp only [joinCookies, List.intercalate_singleton]
        rw [cookieRound_last hmem, cookiesFrom_nil]
        simp [storedFrom]
      | cons next segments =>
        have hnext := h next (by simp)
        rw [cookieRound_segment hsegment hnext] at hlt ⊢
        rw [ih (fun s hs => h s (by simp_all)) (by simp) (by simp only at hlt; omega)]
        simp [storedFrom]

theorem getCookies_joined {segments : List Text} (h : ∀ segment ∈ segments, CookieSegment segment)
    (hne : segments ≠ []) :
    getCookies { cookie := joinCookies segments } = storedFrom false segments := by
  have hcookies : cookiesFrom _ (blankIf false ++ joinCookies segments) [] =
      [] ++ storedFrom false segments := cookiesFrom_joined h hne (le_refl _)
  simpa [blankIf, getCookies] using hcookies

/-! ## Names -/

theorem cookieName_append {a b : Text} (h : ('=' : Byte) ∉ a) :
    cookieName (a ++ ('=' : Byte) :: b) = some a := by
  simp only [cookieName, cut_append h]

theorem cookieName_of_not_mem {segment : Text} (h : ('=' : Byte) ∉ segment) :
    cookieName segment = none := by
  simp only [cookieName, cut_of_not_mem h]

theorem emptyName_append {a b : Text} (h : ('=' : Byte) ∉ a) :
    emptyName (a ++ ('=' : Byte) :: b) = a.isEmpty := by
  rw [emptyName, cookieName_append h]
  cases a with
  | nil => rfl
  | cons x a => rfl

/-- A cookie is stored under the name of the text that was read. -/
theorem cookieName_of_stored {segment : Text} {pair : Text × Text} (h : pair ∈ stored segment) :
    cookieName segment = some pair.1 := by
  unfold stored at h
  split at h
  · simp at h
  · simp at h
  · rename_i hcut
    obtain rfl := List.mem_singleton.mp h
    simp only [cookieName, hcut]

theorem stored_of_pair {name val : Text} (h : ('=' : Byte) ∉ name) (hne : name ≠ []) :
    stored (setCookie name val) = [(name, val)] := by
  cases name with
  | nil => exact absurd rfl hne
  | cons b name => simp only [stored, setCookie, cut_append h]

/-- The blank in front of a segment becomes a part of its name. -/
theorem cookieName_blank (segment : Text) :
    cookieName (blankIf true ++ segment) = (cookieName segment).map (blankIf true ++ ·) := by
  have hblank : ('=' : Byte) ∉ blankIf true := not_mem_blankIf (by decide) true
  rcases mem_cases '=' segment with hmem | ⟨a, b, rfl, hmem⟩
  · rw [cookieName_of_not_mem hmem, cookieName_of_not_mem (by simp [hblank, hmem])]
    rfl
  · rw [cookieName_append hmem, ← List.append_assoc, cookieName_append (by simp [hblank, hmem])]
    rfl

/-! ## Where the blank stays -/

theorem glues_of_not_mem {segment : Text} (glued : Bool) (h : ('=' : Byte) ∉ segment) :
    glues glued segment = true := by
  have hmem : ('=' : Byte) ∉ blankIf glued ++ segment := by
    simpa [h] using not_mem_blankIf (by decide) glued
  simp only [glues, stored, cut_of_not_mem hmem, List.isEmpty_nil]

/-- A segment with an empty name is ignored, unless the blank in front of it
makes up a name. -/
theorem glues_emptyName {value : Text} (glued : Bool) :
    glues glued (('=' : Byte) :: value) = !glued := by
  have hmem : ('=' : Byte) ∉ blankIf glued := not_mem_blankIf (by decide) glued
  simp only [glues, stored, cut_append hmem]
  cases glued with
  | false => rfl
  | true => rfl

theorem glues_setCookie {name value : Text} (glued : Bool) (h : ('=' : Byte) ∉ name)
    (hne : name ≠ []) : glues glued (setCookie name value) = false := by
  have hmem : ('=' : Byte) ∉ blankIf glued ++ name := by
    simpa [h] using not_mem_blankIf (by decide) glued
  have happend : blankIf glued ++ setCookie name value = setCookie (blankIf glued ++ name) value := by
    simp [setCookie]
  rw [glues, happend, stored_of_pair hmem (by simp [hne])]
  rfl

/-- The loop steps over the blank in front of the segment that follows: the
segments with an empty name directly before it are even in number and a pair or
nothing stands before them, or they are odd in number and a segment without a
divisor stands before them. -/
def SteppedOver (before : List Text) : Prop :=
  Even (before.rtakeWhile emptyName).length ↔
    ∀ segment ∈ (before.rdropWhile emptyName).getLast?, ('=' : Byte) ∈ segment

instance (before : List Text) : Decidable (SteppedOver before) :=
  inferInstanceAs (Decidable (_ ↔ _))

theorem steppedOver_nil : SteppedOver [] := by
  simp [SteppedOver]

theorem steppedOver_concat_emptyName {before : List Text} {segment : Text}
    (h : emptyName segment = true) : SteppedOver (before ++ [segment]) ↔ ¬ SteppedOver before := by
  simp only [SteppedOver, List.rtakeWhile_concat_pos _ _ _ h, List.rdropWhile_concat_pos _ _ _ h,
    List.length_append, List.length_singleton, Nat.even_add_one]
  tauto

theorem steppedOver_concat {before : List Text} {segment : Text} (h : emptyName segment = false) :
    SteppedOver (before ++ [segment]) ↔ ('=' : Byte) ∈ segment := by
  have hneg : ¬ emptyName segment = true := by simp [h]
  simp [SteppedOver, List.rtakeWhile_concat_neg _ _ _ hneg, List.rdropWhile_concat_neg _ _ _ hneg]

theorem steppedOver_iff (before : List Text) :
    before.foldl glues false = false ↔ SteppedOver before := by
  induction before using List.reverseRecOn with
  | nil => simp [steppedOver_nil]
  | append_singleton before segment ih =>
    rw [List.foldl_append, List.foldl_cons, List.foldl_nil]
    rcases mem_cases '=' segment with hmem | ⟨name, value, rfl, hmem⟩
    · have hname : emptyName segment = false := by simp [emptyName, cookieName_of_not_mem hmem]
      rw [glues_of_not_mem _ hmem, steppedOver_concat hname]
      simp [hmem]
    · cases name with
      | nil =>
        have hname : emptyName ([] ++ ('=' : Byte) :: value) = true := emptyName_append hmem
        rw [steppedOver_concat_emptyName hname, ← ih, List.nil_append, glues_emptyName]
        simp
      | cons b name =>
        have hname : emptyName (b :: name ++ ('=' : Byte) :: value) = false := emptyName_append hmem
        have hglues : glues (before.foldl glues false) (b :: name ++ ('=' : Byte) :: value) = false :=
          glues_setCookie _ hmem (by simp)
        rw [steppedOver_concat hname, hglues]
        simp

/-! ## The session cookie -/

theorem storedFrom_append (before after : List Text) (glued : Bool) :
    storedFrom glued (before ++ after) =
      storedFrom glued before ++ storedFrom (before.foldl glues glued) after := by
  induction before generalizing glued with
  | nil => rfl
  | cons segment before ih => simp [storedFrom, ih]

/-- A segment with another name is not stored as the session cookie. -/
theorem authCookie_not_stored {segment : Text} {pair : Text × Text} {glued : Bool}
    (hname : glued = false → cookieName segment ≠ some authCookie)
    (h : pair ∈ stored (blankIf glued ++ segment)) : pair.1 ≠ authCookie := by
  intro hpair
  have hstored := cookieName_of_stored h
  cases glued with
  | false => exact hname rfl (by simpa [blankIf, hpair] using hstored)
  | true =>
    rw [cookieName_blank] at hstored
    obtain ⟨name, -, hname⟩ := Option.map_eq_some_iff.mp hstored
    rw [hpair] at hname
    have hhead := congrArg List.head? hname
    revert hhead
    simp only [blankIf, if_true, List.singleton_append, List.head?_cons]
    decide

theorem authCookie_not_storedFrom {segments : List Text} {pair : Text × Text} {glued : Bool}
    (hname : ∀ segment ∈ segments, cookieName segment ≠ some authCookie)
    (h : pair ∈ storedFrom glued segments) : pair.1 ≠ authCookie := by
  induction segments generalizing glued with
  | nil => simp [storedFrom] at h
  | cons segment segments ih =>
    rw [storedFrom, List.mem_append] at h
    rcases h with h | h
    · exact authCookie_not_stored (fun _ => hname segment (by simp)) h
    · exact ih (fun s hs => hname s (by simp [hs])) h

theorem cookieGet_of_not_mem {pairs : List (Text × Text)} {name : Text}
    (h : ∀ pair ∈ pairs, pair.1 ≠ name) : cookieGet pairs name = [] := by
  simp [cookieGet, find?_reverse_of_not_mem h]

/-- What is stored under other names does not matter. -/
theorem cookieGet_append {before after : List (Text × Text)} {name val : Text}
    (h : ∀ pair ∈ after, pair.1 ≠ name) :
    cookieGet (before ++ (name, val) :: after) name = val := by
  simp [cookieGet, find?_reverse_of_not_mem h]

theorem cookieSegment_session (v : Nat) : CookieSegment (setCookie authCookie (ofNat v)) := by
  have hdigits : ∀ b ∈ ofNat v, isDigit b = true := fun b hb => isDigit_ofNat hb
  refine ⟨?_, ?_, ?_⟩
  · have hauth : (';' : Byte) ∉ authCookie := by decide
    have hnumber : (';' : Byte) ∉ ofNat v := fun hmem => by
      have := hdigits _ hmem
      revert this
      decide
    have hne : (';' : Byte) ≠ '=' := by decide
    simp [setCookie, hauth, hnumber, hne]
  · intro b hb
    have hhead : (setCookie authCookie (ofNat v)).head? = some ('a' : Byte) := rfl
    obtain rfl : ('a' : Byte) = b := by simpa [hhead] using hb
    decide
  · intro b hb
    have hlast : (setCookie authCookie (ofNat v)).getLast? = (ofNat v).getLast? := by
      rw [setCookie, List.getLast?_append_of_ne_nil _ (by simp),
        List.getLast?_cons_of_ne_nil (ofNat_ne_nil v)]
    rw [hlast] at hb
    exact isSpace_of_isDigit (hdigits b (List.mem_of_mem_getLast? hb))

/-- The cookies around the one of the session. -/
theorem getCookies_around {v : Nat} {before after : List Text}
    (hsegments : ∀ segment ∈ before ++ after, CookieSegment segment) :
    getCookies { cookie := joinCookies (before ++ setCookie authCookie (ofNat v) :: after) } =
      storedFrom false before ++
        (stored (blankIf (before.foldl glues false) ++ setCookie authCookie (ofNat v)) ++
          storedFrom (glues (before.foldl glues false) (setCookie authCookie (ofNat v))) after) := by
  have hall : ∀ segment ∈ before ++ setCookie authCookie (ofNat v) :: after,
      CookieSegment segment := by
    intro segment hmem
    rcases List.mem_append.mp hmem with hmem | hmem
    · exact hsegments segment (List.mem_append_left _ hmem)
    · rcases List.mem_cons.mp hmem with rfl | hmem
      · exact cookieSegment_session v
      · exact hsegments segment (List.mem_append_right _ hmem)
  rw [getCookies_joined hall (by simp), storedFrom_append, storedFrom]

theorem stored_session (v : Nat) :
    stored (blankIf false ++ setCookie authCookie (ofNat v)) = [(authCookie, ofNat v)] := by
  have hauth : ('=' : Byte) ∉ authCookie := by decide
  exact stored_of_pair hauth (by decide)

/-- The session cookie is stored under its own name unless a blank is glued to it. -/
theorem cookieGet_around {v : Nat} {before after : List Text} (glued glued' : Bool)
    (hname : ∀ segment ∈ before ++ after, cookieName segment ≠ some authCookie) :
    cookieGet (storedFrom false before ++
      (stored (blankIf glued ++ setCookie authCookie (ofNat v)) ++ storedFrom glued' after))
        authCookie = if glued then [] else ofNat v := by
  have hbefore : ∀ pair ∈ storedFrom false before, pair.1 ≠ authCookie := fun pair =>
    authCookie_not_storedFrom fun segment hmem => hname segment (List.mem_append_left _ hmem)
  have hafter : ∀ pair ∈ storedFrom glued' after, pair.1 ≠ authCookie := fun pair =>
    authCookie_not_storedFrom fun segment hmem => hname segment (List.mem_append_right _ hmem)
  cases glued with
  | false =>
    rw [stored_session, List.singleton_append]
    exact cookieGet_append hafter
  | true =>
    apply cookieGet_of_not_mem
    intro pair hmem
    rcases List.mem_append.mp hmem with hmem | hmem
    · exact hbefore pair hmem
    · rcases List.mem_append.mp hmem with hmem | hmem
      · exact authCookie_not_stored (by simp) hmem
      · exact hafter pair hmem

/-- The session is found exactly when the blank in front of its cookie is stepped
over; the loop always ends. -/
theorem sessionCookie_found_iff {v : Nat} {before after : List Text} (hmax : v ≤ uint64Max)
    (hsegments : ∀ segment ∈ before ++ after, CookieSegment segment)
    (hname : ∀ segment ∈ before ++ after, cookieName segment ≠ some authCookie)
    (req : Request)
    (hreq : req.cookie = joinCookies (before ++ setCookie authCookie (ofNat v) :: after)) :
    (∃ rounds ≤ req.cookie.length,
      cookieRound^[rounds] (req.cookie, []) = ([], getCookies req)) ∧
    (getSessionID req = some v ↔ SteppedOver before) := by
  refine ⟨cookiesFrom_ends (le_refl _), ?_⟩
  obtain rfl : req = { cookie := joinCookies (before ++ setCookie authCookie (ofNat v) :: after) } := by
    cases req
    exact congrArg Request.mk hreq
  rw [← steppedOver_iff, getSessionID, getCookies_around hsegments, cookieGet_around _ _ hname]
  cases before.foldl glues false with
  | false => simp [stored_session, ofNat_ne_nil, fromChars_ofNat hmax]
  | true => simp

/-- Behind a pair and in front of a stray word, the session is found. -/
theorem sessionCookie_found_pair :
    getSessionID { cookie := ("theme=dark; auth=7; beta" : Text) } = some 7 := by
  refine (@sessionCookie_found_iff 7 [("theme=dark" : Text)] [("beta" : Text)] (by decide) ?_ ?_ _
    ?_).2.mpr ?_
  · intro segment hmem
    simp only [List.cons_append, List.nil_append, List.mem_cons, List.not_mem_nil, or_false] at hmem
    rcases hmem with rfl | rfl
    · exact ⟨by decide +kernel, by decide +kernel, by decide +kernel⟩
    · exact ⟨by decide +kernel, by decide +kernel, by decide +kernel⟩
  · decide +kernel
  · decide +kernel
  · decide +kernel

/-- Behind a stray word, the session is not found. -/
theorem sessionCookie_missed :
    CookieSegment ("beta" : Text) ∧ cookieName ("beta" : Text) ≠ some authCookie ∧
      getSessionID { cookie := joinCookies [("beta" : Text), setCookie authCookie (ofNat 5)] } ≠
        some 5 := by
  refine ⟨⟨by decide +kernel, by decide +kernel, by decide +kernel⟩, ?_, ?_⟩
  · decide +kernel
  · decide +kernel

end WFA
