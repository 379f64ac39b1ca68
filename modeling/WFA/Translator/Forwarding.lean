-- SUMMARY: The forwarding pages: the headers taken over from the back end, the body of a request, the page that is sent.
import WFA.Translator.Disclosure
import WFA.Translator.Reads
import WFA.Shared.RoundTrip
import WFA.Shared.UrlValues

/-!
# Forwarding

`Translator/include/Curl.h`, `Translator/include/Forwarding.h` and the
`forwardingWrapper` of `Translator/src/Source.cpp`. A request for a page is sent
on to the back end, and the answer is sent back: its headers as they are, and its
body as the template shows it.
-/

namespace WFA

open Text

/-! ## The answer of the back end -/

structure APIResponse where
  headers : List (Text × Text) := []
  /-- The body of the response. -/
  response : Text := []
  /-- HTTP Code. -/
  responseCode : Int := 0
  deriving DecidableEq, Repr

/-- Header fields that will be copied to the response. -/
def allowedHeaders : List Text := [("Set-Cookie" : Text), ("cookie" : Text)]

/-- `*it = c`. -/
def assign (t : Text) (it : Nat) (c : Byte) : Exec Text :=
  if it < t.length then .ok (t.set it c) else .error .outOfRange

/-- The two assertions of `writeHeaders`. The first one writes a blank behind the
colon where it was meant to look for one. -/
def headerAsserts (asserts : Bool) (buffer : Text) (div : Nat) : Exec Text :=
  if !asserts then pure buffer
  else do
    let buffer ← assign buffer (div + 1) ' '
    if [('\r' : Byte), ('\n' : Byte)] <:+ buffer then pure buffer else throw .assertion

/-- `writeHeaders`, which `curl` calls with each line of the header. -/
def writeHeaders (asserts : Bool) (headers : List (Text × Text)) (buffer : Text) :
    Exec (List (Text × Text)) :=
  let div := indexOf ':' buffer
  let name := buffer.take div
  if name ∉ allowedHeaders then pure headers
  else if div = buffer.length then pure headers
  else do
    let buffer ← headerAsserts asserts buffer div
    -- Skip the ':' and following space, ignore the trailing line break.
    let value ← range buffer (div + 2) (buffer.length - 2)
    pure (headers ++ [(name, value)])

/-- The lines of a header, one after the other. -/
def receiveHeaders (asserts : Bool) (lines : List Text) : Exec (List (Text × Text)) :=
  lines.foldlM (writeHeaders asserts) []

def lineBreak : Text := [('\r' : Byte), ('\n' : Byte)]

/-- A header field on the wire. -/
def headerLine (header : Text × Text) : Text :=
  header.1 ++ (':' : Byte) :: (' ' : Byte) :: (header.2 ++ lineBreak)

/-- The header of an answer: the status line, the fields, and an empty line. -/
def headerLines (status : Text) (headers : List (Text × Text)) : List Text :=
  (("HTTP/1.1 " : Text) ++ (status ++ lineBreak)) :: (headers.map headerLine ++ [lineBreak])

section Headers

variable {asserts : Bool} {headers : List (Text × Text)}

theorem take_indexOf {c : Byte} {a b : Text} (h : c ∉ a) :
    (a ++ c :: b).take (indexOf c (a ++ c :: b)) = a := by
  rw [indexOf_append h, List.take_left]

/-- A line whose name is not allowed is passed over. -/
theorem writeHeaders_other {buffer : Text}
    (h : buffer.take (indexOf ':' buffer) ∉ allowedHeaders) :
    writeHeaders asserts headers buffer = .ok headers := by
  unfold writeHeaders
  rw [if_pos h]
  rfl

/-- The assertions find a header line in order. -/
theorem headerAsserts_line {name value : Text} :
    headerAsserts asserts (headerLine (name, value)) name.length =
      .ok (headerLine (name, value)) := by
  have hset : (headerLine (name, value)).set (name.length + 1) ' ' = headerLine (name, value) := by
    simp [headerLine]
  have hlt : name.length + 1 < (headerLine (name, value)).length := by simp [headerLine]
  have hbreak : [('\r' : Byte), ('\n' : Byte)] <:+ headerLine (name, value) :=
    ⟨name ++ (':' : Byte) :: (' ' : Byte) :: value, by simp [headerLine, lineBreak]⟩
  cases asserts with
  | false => rfl
  | true =>
    simp only [headerAsserts, assign, hlt, if_true, hset, bind, Except.bind, hbreak]
    rfl

/-- A field is kept with its value as it is, if its name is allowed. -/
theorem writeHeaders_line {header : Text × Text} (h : (':' : Byte) ∉ header.1) :
    writeHeaders asserts headers (headerLine header) =
      .ok (headers ++ [header].filter fun header => decide (header.1 ∈ allowedHeaders)) := by
  obtain ⟨name, value⟩ := header
  have htake : (headerLine (name, value)).take (indexOf ':' (headerLine (name, value))) = name :=
    take_indexOf h
  by_cases hallowed : name ∈ allowedHeaders
  · have hdiv : indexOf ':' (headerLine (name, value)) = name.length := indexOf_append h
    rw [hdiv] at htake
    have hlength : (headerLine (name, value)).length = name.length + value.length + 4 := by
      simp only [headerLine, lineBreak, List.length_append, List.length_cons, List.length_nil]
      omega
    have hvalue : range (headerLine (name, value)) (name.length + 2)
        ((headerLine (name, value)).length - 2) = .ok value :=
      range_eq (a := name ++ [(':' : Byte), (' ' : Byte)]) (b := value) (c := lineBreak)
        (by simp [headerLine]) (by simp) (by simp [hlength]; omega)
    have hne : name.length ≠ (headerLine (name, value)).length := by omega
    simp only [writeHeaders, htake, hdiv, hallowed, not_true_eq_false, if_false, hne,
      headerAsserts_line, hvalue, bind, Except.bind]
    simp [hallowed, pure, Except.pure]
  · rw [writeHeaders_other (by rwa [htake])]
    simp [hallowed]

/-- The status line is not taken for a field. -/
theorem statusLine_other (status : Text) :
    (("HTTP/1.1 " : Text) ++ status).take (indexOf ':' (("HTTP/1.1 " : Text) ++ status)) ∉
      allowedHeaders := by
  have hhead : (("HTTP/1.1 " : Text) ++ status).take
      (indexOf ':' (("HTTP/1.1 " : Text) ++ status)) = ('H' : Byte) ::
      (("TTP/1.1 " : Text) ++ status).take (indexOf ':' (("TTP/1.1 " : Text) ++ status)) := by
    have htext : ("HTTP/1.1 " : Text) = ('H' : Byte) :: ("TTP/1.1 " : Text) := by decide
    have hne : (('H' : Byte) == (':' : Byte)) = false := by decide
    rw [htext, List.cons_append, indexOf, List.findIdx_cons, hne]
    rfl
  rw [hhead]
  intro hmem
  have hheads : some ('H' : Byte) ∈ allowedHeaders.map List.head? :=
    List.mem_map.mpr ⟨_, hmem, rfl⟩
  revert hheads
  decide

/-- Of an answer of the back end, the translator takes over exactly the fields
with an allowed name, in order and with their values as they are. -/
theorem receiveHeaders_headerLines (status : Text) (hnames : ∀ header ∈ headers, (':' : Byte) ∉ header.1) :
    receiveHeaders asserts (headerLines status headers) =
      .ok (headers.filter fun header => decide (header.1 ∈ allowedHeaders)) := by
  have hfields : ∀ (fields : List (Text × Text)) (found : List (Text × Text)),
      (∀ header ∈ fields, (':' : Byte) ∉ header.1) →
      (fields.map headerLine).foldlM (writeHeaders asserts) found =
        .ok (found ++ fields.filter fun header => decide (header.1 ∈ allowedHeaders)) := by
    intro fields
    induction fields with
    | nil => intro found _; simp [pure, Except.pure]
    | cons header fields ih =>
      intro found hnames
      rw [List.map_cons, List.foldlM_cons, writeHeaders_line (hnames header (by simp))]
      change List.foldlM (writeHeaders asserts) _ _ = _
      rw [ih _ fun other hother => hnames other (by simp [hother]), List.append_assoc,
        ← List.filter_append, List.singleton_append]
  have hlast : writeHeaders asserts (headers.filter fun header => decide (header.1 ∈ allowedHeaders))
      lineBreak = .ok _ := writeHeaders_other (by decide)
  unfold receiveHeaders headerLines
  rw [List.foldlM_cons, writeHeaders_other (statusLine_other _)]
  change List.foldlM (writeHeaders asserts) _ _ = _
  rw [List.foldlM_append, hfields headers [] hnames]
  simp only [bind, Except.bind, List.foldlM_cons, List.nil_append, hlast]
  rfl

end Headers

/-! ## The body of a request -/

def sizeMax : Nat := 2 ^ 64 - 1

/-- The length a request announces, or none. -/
def contentLength (header : Text) : Nat :=
  (fromChars sizeMax header).getD 0

/-- What the callback of `onData` has gathered, and the bodies it passed on. -/
structure BodyState where
  buffer : Text := []
  passed : List Text := []
  deriving DecidableEq, Repr

/-- The callback of `onData`, for a part of the body. -/
def BodyState.onData (state : BodyState) (part : Text × Bool) : BodyState :=
  let buffer := state.buffer ++ part.1
  { buffer, passed := if part.2 then state.passed ++ [buffer] else state.passed }

/-- `extractPostBody`: the bodies that the callback is called with, for the parts
in which the body arrives. -/
def extractPostBody (header : Text) (parts : List (Text × Bool)) : List Text :=
  if contentLength header = 0 then [[]] else (parts.foldl BodyState.onData {}).passed

/-- A body in parts, the last one of which says so. -/
def inParts (parts : List Text) (last : Text) : List (Text × Bool) :=
  parts.map (·, false) ++ [(last, true)]

/-- However a body arrives, the callback is called once with the whole of it;
without a length it is called with nothing. -/
theorem extractPostBody_inParts (header : Text) (parts : List Text) (last : Text) :
    extractPostBody header (inParts parts last) =
      [if contentLength header = 0 then [] else parts.flatten ++ last] := by
  have hparts : ∀ (parts : List Text) (state : BodyState),
      (parts.map (·, false)).foldl BodyState.onData state =
        { state with buffer := state.buffer ++ parts.flatten } := by
    intro parts
    induction parts with
    | nil => intro state; simp
    | cons part parts ih =>
      intro state
      rw [List.map_cons, List.foldl_cons, ih]
      simp [BodyState.onData]
  unfold extractPostBody
  split
  · rfl
  · simp [inParts, hparts, BodyState.onData]

/-! ## The page -/

/-- What the translator sends. -/
structure Page where
  status : Text
  headers : List (Text × Text)
  body : Text
  warnings : List Text := []
  deriving DecidableEq, Repr

/-- `applyTranslation`. -/
def applyTranslation (asserts : Bool) (api : APIResponse) (translation : Translation) (q : Query) :
    Exec Page := do
  match ← ResponseWrapper.fromData asserts api.response with
  | some data =>
    let out ← translation.apply asserts data api.responseCode q
    pure { status := ofInt api.responseCode, headers := api.headers, body := out.source
           warnings := out.warnings }
  | none =>
    pure { status := ofInt api.responseCode, headers := api.headers, body := api.response }

inductive Method where
  | get
  | post
  deriving DecidableEq, Repr

/-- The part of a request for a page that the wrapper reads. -/
structure PageRequest where
  method : Method
  /-- The text behind the `?` of the URL. -/
  queryText : Text
  cookie : Text
  /-- The header `content-length`. -/
  lengthText : Text := []
  /-- The parts in which the body arrives. -/
  parts : List (Text × Bool) := []

/-- What is sent on to the back end. -/
structure Forwarded where
  method : Method
  url : Text
  cookie : Text
  body : Text := []
  deriving DecidableEq, Repr

def backEnd : Text := ("localhost:9001" : Text)

def forwardedUrl (destination queryText : Text) : Text :=
  backEnd ++ (destination ++ if queryText.isEmpty then [] else ('?' : Byte) :: queryText)

/-- The requests that `forwardingWrapper::apply` makes: one for `GET`, and one for
each time the body of a `POST` is passed on. -/
def forwards (destination : Text) (request : PageRequest) : List Forwarded :=
  let url := forwardedUrl destination request.queryText
  match request.method with
  | .get => [{ method := .get, url, cookie := request.cookie }]
  | .post =>
    (extractPostBody request.lengthText request.parts).map fun body =>
      { method := .post, url, cookie := request.cookie, body }

end WFA
