-- SUMMARY: The back end behind its socket: which handler a request goes to, with which values, and the answer as text.
import WFA.Server.Answers
import WFA.System.Clients
import WFA.Translator.Wire

/-!
# The back end on the network

`Server/src/Network.cpp` and `HttpCallWrapper` in `Server/include/Network.h`. A
request comes with a method, a path, a query and a body; the handler of its route gets
the decoded values, and its record goes out as text. The paths of `net` have no
patterns in them, so each of them matches itself only. A handler that does not get to
its end takes the back end with it, and the database, which is in memory.
-/

namespace WFA

open Text

/-! ## Routes -/

/-- The handlers that `net` registers for one method. -/
def netRoutes : List (Method × String × Route) :=
  [(.post, "/request", .request), (.post, "/register", .register), (.get, "/release", .release),
    (.get, "/checkSession", .checkSession), (.post, "/user/create", .userCreate),
    (.get, "/user/me", .userMe), (.get, "/user/search", .userSearch),
    (.get, "/user/select", .userSelect), (.post, "/user/delete", .userDelete),
    (.post, "/user/update", .userUpdate), (.post, "/part/supplier/create", .supplierCreate),
    (.post, "/part/supplier/update", .supplierUpdate),
    (.get, "/part/supplier/search", .supplierSearch),
    (.get, "/part/supplier/select", .supplierSelect), (.post, "/part/group/create", .groupCreate),
    (.post, "/part/group/update", .groupUpdate), (.get, "/part/group/search", .groupSearch),
    (.get, "/part/group/select", .groupSelect), (.post, "/part/create", .partCreate),
    (.post, "/part/update", .partUpdate), (.get, "/part/search", .partSearch),
    (.get, "/part/select", .partSelect), (.post, "/vehicle/create", .vehicleCreate),
    (.post, "/vehicle/update", .vehicleUpdate), (.post, "/vehicle/delete", .vehicleDelete),
    (.get, "/vehicle/select", .vehicleSelect), (.post, "/service/create", .serviceCreate),
    (.post, "/service/authorise", .serviceAuthorise), (.post, "/service/update", .serviceUpdate),
    (.post, "/service/close", .serviceClose), (.post, "/service/part/add", .servicePartAdd),
    (.post, "/service/part/remove", .servicePartRemove),
    (.get, "/service/part/select", .servicePartSelect), (.get, "/service/search", .serviceSearch),
    (.get, "/service/select", .serviceSelect), (.get, "/debug/displayTables", .displayTables)]

/-- The route of a request. The handlers for any method come last. -/
def netRoute (method : Method) (path : Text) : Route :=
  match netRoutes.find? fun entry => entry.1 == method && (entry.2.1 : Text) == path with
  | some entry => entry.2.2
  | none => if path == ("/ping" : Text) then .ping else .other

/-- The handlers that are called through an `HttpCallWrapper`. -/
def Route.wrapped : Route → Bool
  | .release | .checkSession | .displayTables | .ping | .other => false
  | _ => true

/-! ## Calls -/

/-- `HttpCallWrapper::operator()`: the values that the handler is called with, each
time it is. -/
def httpCalls (queryText lengthText : Text) (parts : List (Text × Bool)) : List (Body × Query) :=
  let stackQuery := parseURLValues queryText
  if contentLength lengthText = 0 then [(QueryBase.empty, stackQuery)]
  else (parts.foldl BodyState.onData {}).passed.map fun buffer => (parseURLValues buffer, stackQuery)

/-- The other handlers are called at once, and read neither. -/
def netCalls (route : Route) (queryText lengthText : Text) (parts : List (Text × Bool)) :
    List (Body × Query) :=
  if route.wrapped then httpCalls queryText lengthText parts
  else [(QueryBase.empty, QueryBase.empty)]

/-- A body that arrives with the head of its request. A later part would find the request
gone, which the callbacks still use. -/
def arrive (body : Text) : List (Text × Bool) :=
  inParts [] body

/-- What a client says of the length of a body. -/
def lengthOf : Method → Text → Text
  | .get, _ => []
  | .post, body => ofNat body.length

theorem contentLength_lengthOf {method : Method} {body : Text} (h : body.length ≤ sizeMax) :
    contentLength (lengthOf method body) =
      match method with
      | .get => 0
      | .post => body.length := by
  cases method with
  | get => rfl
  | post => simp [contentLength, lengthOf, fromChars_ofNat h]

/-- The callback is called once with the body. -/
theorem extractPostBody_arrive {body : Text} (h : body.length ≤ sizeMax) :
    extractPostBody (lengthOf .post body) (arrive body) = [body] := by
  have hlength : contentLength (lengthOf .post body) = body.length := contentLength_lengthOf h
  rw [arrive, extractPostBody_inParts, hlength, List.flatten_nil, List.nil_append]
  split
  · rename_i hzero
    rw [List.length_eq_zero_iff.mp hzero]
  · rfl

theorem parseURLValues_nil : parseURLValues [] = .empty := by
  rw [parseURLValues, valuesFrom]

/-- A handler with a wrapper is called once, with the values of the query and of the
body. -/
theorem httpCalls_arrive (queryText : Text) {body : Text} (h : body.length ≤ sizeMax) :
    httpCalls queryText (lengthOf .post body) (arrive body) =
      [(parseURLValues body, parseURLValues queryText)] := by
  have hcalls := extractPostBody_arrive h
  have hlength : contentLength (lengthOf .post body) = body.length := contentLength_lengthOf h
  unfold extractPostBody at hcalls
  unfold httpCalls
  dsimp only
  split
  · rename_i hzero
    rw [hlength] at hzero
    rw [List.length_eq_zero_iff.mp hzero, parseURLValues_nil]
  · rename_i hpos
    rw [if_neg hpos] at hcalls
    rw [hcalls]
    rfl

theorem httpCalls_get (queryText body : Text) :
    httpCalls queryText (lengthOf .get body) (arrive body) =
      [(QueryBase.empty, parseURLValues queryText)] :=
  rfl

/-! ## Answers -/

/-- `HTTPCodes`. -/
def Status.text : Status → Text
  | .ok => ("200" : Text)
  | .badRequest => ("400" : Text)
  | .unauthorised => ("401" : Text)
  | .forbidden => ("403" : Text)
  | .notFound => ("404" : Text)
  | .conflict => ("409" : Text)
  | .internalError => ("500" : Text)

def Status.code : Status → Int
  | .ok => 200
  | .badRequest => 400
  | .unauthorised => 401
  | .forbidden => 403
  | .notFound => 404
  | .conflict => 409
  | .internalError => 500

/-- The body of an answer. The default handler answers with a sentence. -/
def bodyText (asserts : Bool) (route : Route) (response : Option ResponseWrapper) : Exec Text :=
  if route = .other then .ok ("Bad request." : Text) else answerText asserts response

/-- A handler that answers, with a record that can be written. -/
def Answered (asserts : Bool) (p : Platform) (route : Route) (server : Server) (call : Call) :
    Prop :=
  ∃ status response data, (handle p route server call).2 = .reply status response ∧
    bodyText asserts route response = .ok data

/-- The back end after a request, and what `curl` passes on. Nobody answers where the back
end does not run or ends instead. -/
def answer (asserts : Bool) (p : Platform) (route : Route) (server : Option Server) (call : Call) :
    Option Server × Exec APIResponse :=
  match server with
  | none => (none, pure {})
  | some server =>
    match handle p route server call with
    | (after, .reply status response) =>
      match bodyText asserts route response with
      | .error _ => (none, pure {})
      | .ok data =>
        (some after, do
          let headers ← receiveHeaders asserts
            (headerLines status.text (replyHeaders p route server call))
          pure { headers, response := data, responseCode := status.code })
    | (_, _) => (none, pure {})

section Answer

variable {asserts : Bool} {p : Platform} {route : Route} {server : Server} {call : Call}

/-- What an answer says is what the handler said. -/
theorem answer_eq {status : Status} {response : Option ResponseWrapper} {data : Text}
    (hhandle : (handle p route server call).2 = .reply status response)
    (hdata : bodyText asserts route response = .ok data) :
    answer asserts p route (some server) call =
      (some (handle p route server call).1, .ok
        { headers := replyHeaders p route server call, response := data
          responseCode := status.code }) := by
  cases hresult : handle p route server call with
  | mk after ending =>
    obtain rfl : ending = .reply status response := by simpa [hresult] using hhandle
    simp only [answer, hresult, hdata, receiveHeaders_replyHeaders]
    rfl

theorem answer_of_not_answered (h : ¬ Answered asserts p route server call) :
    answer asserts p route (some server) call = (none, .ok {}) := by
  cases hresult : handle p route server call with
  | mk after ending =>
    cases ending with
    | reply status response =>
      cases hdata : bodyText asserts route response with
      | error trap =>
        simp only [answer, hresult, hdata]
        rfl
      | ok data => exact absurd ⟨status, response, data, by rw [hresult], hdata⟩ h
    | exception =>
      simp only [answer, hresult]
      rfl
    | undefined =>
      simp only [answer, hresult]
      rfl
    | aborted =>
      simp only [answer, hresult]
      rfl

end Answer

/-! ## libcurl -/

/-- The path and the query that `libcurl` sends for a URL, when it takes the URL. -/
structure Curl where
  target : Text → Option (Text × Option Text)

def isPathByte (b : Byte) : Bool :=
  ('a' ≤ b && b ≤ 'z') || ('A' ≤ b && b ≤ 'Z') || isDigit b || b == '/'

/-- A printed byte that is no blank and does not begin a fragment. -/
def isQueryByte (b : Byte) : Bool :=
  32 < b && b < 127 && b != '#'

/-- A path as those of the pages are. -/
def PlainPath (path : Text) : Prop :=
  ('/' : Byte) ∈ path.head? ∧ path.all isPathByte = true

/-- What is relied on: a plain path goes out as it is, and a query without a fragment, a
blank and a control byte in it as well. -/
structure Curl.Lawful (curl : Curl) : Prop where
  path : ∀ path, PlainPath path → curl.target (backEnd ++ path) = some (path, none)
  query : ∀ path query, PlainPath path → query.all isQueryByte = true →
    curl.target (backEnd ++ (path ++ ('?' : Byte) :: query)) = some (path, some query)

/-- A `libcurl` that cuts the fragment off, and takes printed bytes only. -/
def Curl.cutting : Curl where
  target url :=
    let sent := url.takeWhile fun b => b != ('#' : Byte)
    if sent.all isQueryByte then some (cut '?' (sent.drop backEnd.length)) else none

theorem PlainPath.isQueryByte {path : Text} (h : PlainPath path) {b : Byte} (hb : b ∈ path) :
    isQueryByte b = true ∧ b ≠ '?' := by
  have hbytes : ∀ n < 256, isPathByte (UInt8.ofNat n) = true →
      WFA.isQueryByte (UInt8.ofNat n) = true ∧ UInt8.ofNat n ≠ ('?' : Byte) := by decide +kernel
  have hbyte := hbytes b.toNat b.toNat_lt
  rw [UInt8.ofNat_toNat] at hbyte
  exact hbyte (List.all_eq_true.mp h.2 b hb)

theorem Curl.cutting_lawful : Curl.cutting.Lawful := by
  have hhost : ∀ b ∈ backEnd, isQueryByte b = true := by decide +kernel
  have hkept : ∀ t : Text, (∀ b ∈ t, isQueryByte b = true) →
      (t.takeWhile fun b => b != ('#' : Byte)) = t := by
    intro t ht
    rw [List.takeWhile_eq_self_iff]
    intro b hb
    have hbyte := ht b hb
    simp only [isQueryByte, Bool.and_eq_true] at hbyte
    exact hbyte.2
  have hsent : ∀ t : Text, (∀ b ∈ t, isQueryByte b = true) →
      Curl.cutting.target (backEnd ++ t) = some (cut '?' t) := by
    intro t ht
    have hall : ∀ b ∈ backEnd ++ t, isQueryByte b = true := by
      intro b hb
      exact (List.mem_append.mp hb).elim (hhost b) (ht b)
    simp only [Curl.cutting, hkept _ hall, List.all_eq_true.mpr hall, if_true, List.drop_left]
  constructor
  · intro path hpath
    rw [hsent path fun b hb => (hpath.isQueryByte hb).1,
      cut_of_not_mem fun hmem => (hpath.isQueryByte hmem).2 rfl]
  · intro path query hpath hquery
    rw [hsent, cut_append fun hmem => (hpath.isQueryByte hmem).2 rfl]
    intro b hb
    rcases List.mem_append.mp hb with hb | hb
    · exact (hpath.isQueryByte hb).1
    · rcases List.mem_cons.mp hb with rfl | hb
      · decide
      · exact List.all_eq_true.mp hquery b hb

end WFA
