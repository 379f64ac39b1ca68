-- SUMMARY: Cookies, sessions and the authenticator of the back-end server.
import WFA.Server.Database
import WFA.Shared.Response

/-!
# Cookies and sessions

`Server/include/Network.h`. A request names its session by a number in the cookie
`auth`. The authenticator keeps the live sessions; `request` makes one and
`release` removes one, and no other function of the server changes them.
-/

namespace WFA

open Text

/-! ## Requests and answers -/

/-- The part of an HTTP request the handlers read besides its values. -/
structure Request where
  /-- The header `cookie`. -/
  cookie : Text
  deriving DecidableEq, Repr

/-- `HTTPCodes`. -/
inductive Status where
  | ok
  | badRequest
  | unauthorised
  | forbidden
  | notFound
  | conflict
  | internalError
  deriving DecidableEq, Repr

/-- How a handler ends. -/
inductive Ending where
  | reply (status : Status) (response : Option ResponseWrapper)
  /-- An exception leaves the handler. -/
  | exception
  /-- The handler reads a cell that the query did not return. -/
  | undefined
  /-- An assertion fails. -/
  | aborted

/-- An answer without a body can be recognised. -/
instance (ending : Ending) (status : Status) : Decidable (ending = .reply status none) :=
  match ending with
  | .reply found none => decidable_of_iff (found = status) (by simp)
  | .reply _ (some _) => isFalse (by simp)
  | .exception => isFalse (by simp)
  | .undefined => isFalse (by simp)
  | .aborted => isFalse (by simp)

/-- The first status that is written is the one that is sent. -/
def Ending.withStatus (status : Status) : Ending → Ending
  | .reply _ response => .reply status response
  | ending => ending

/-! ## Cookies -/

/-- The loop of `getCookies`, on the header from `it` on. -/
def cookiesFrom : Nat → Text → List (Text × Text) → List (Text × Text)
  | 0, _, values => values
  | fuel + 1, rest, values =>
    if rest.isEmpty then values
    else
      let segment := cut ';' rest
      match cut '=' segment.1 with
      -- Empty names are ignored, and so are segments without a divisor.
      | (_, none) => cookiesFrom fuel (segment.2.getD []) values
      | ([], some _) => cookiesFrom fuel (segment.2.getD []) values
      | (name, some value) =>
        cookiesFrom fuel ((segment.2.getD []).dropWhile isSpace) (values ++ [(name, value)])

/-- `getCookies`. Every round takes at least one byte of the header. -/
def getCookies (req : Request) : List (Text × Text) :=
  cookiesFrom req.cookie.length req.cookie []

/-- `cookieManager::get`: the value that was stored last, or nothing. -/
def cookieGet (values : List (Text × Text)) (name : Text) : Text :=
  ((values.reverse.find? (·.1 == name)).map (·.2)).getD []

/-! ## Sessions -/

/-- The underlying integer of the enumeration, which is a lower bound and not
one of its names only. -/
abbrev AuthLevel := Int

namespace AuthLevel

def client : AuthLevel := 0
def employee : AuthLevel := 1
def manager : AuthLevel := 2
def superuser : AuthLevel := 3

/-- `static_cast<authLevel>` of an `unsigned int`. -/
def ofUnsigned (n : Nat) : AuthLevel :=
  if n < 2 ^ 31 then n else n - 2 ^ 32

end AuthLevel

structure Session where
  authLevel : AuthLevel
  userID : Nat
  deriving DecidableEq, Repr

abbrev Sessions := Nat → Option Session

def authCookie : Text := ("auth" : Text)

def uint64Max : Nat := 2 ^ 64 - 1

def unsignedMax : Nat := 2 ^ 32 - 1

def getSessionID (req : Request) : Option Nat :=
  let cookies := getCookies req
  if cookies.isEmpty || (cookieGet cookies authCookie).isEmpty then none
  else fromChars uint64Max (cookieGet cookies authCookie)

def hasSession (req : Request) : Bool :=
  (getSessionID req).isSome

/-- Trivially reversible "hashing" function. -/
def hash (val : Text) : Text :=
  val.map fun b => ~~~b

namespace Sessions

variable (sessions : Sessions)

/-- The session that the cookie names, when it is live. -/
def current (req : Request) : Option Session :=
  (getSessionID req).bind sessions

def erase (id : Nat) : Sessions :=
  fun i => if i = id then none else sessions i

/-- `sessions[id] = session`. -/
def set (id : Nat) (session : Session) : Sessions :=
  fun i => if i = id then some session else sessions i

/-- `release`, and whether it answers `true`. -/
def release (req : Request) : Sessions × Bool :=
  match getSessionID req with
  | none => (sessions, false)
  | some id => (sessions.erase id, true)

def verify (req : Request) (checkLevel : AuthLevel) : Bool :=
  match sessions.current req with
  | none => false
  | some session => checkLevel ≤ session.authLevel

def getSessionUser (req : Request) : Option Nat :=
  (sessions.current req).map Session.userID

def getSessionAuthLevel (req : Request) : Option AuthLevel :=
  (sessions.current req).map Session.authLevel

def isSessionUser (req : Request) (userID : Text) : Bool :=
  match sessions.getSessionUser req with
  | some user => ofNat user == userID
  | none => false

def isSessionUserFromID (req : Request) (userIndex : Text) : Bool :=
  match sessions.getSessionUser req, fromChars uint64Max userIndex with
  | some user, some id => user == id
  | _, _ => false

end Sessions

section Sessions

variable {sessions : Sessions} {req : Request}

theorem hasSession_of_current {session : Session} (h : sessions.current req = some session) :
    hasSession req = true := by
  obtain ⟨id, hid, -⟩ := Option.bind_eq_some_iff.mp h
  simp [hasSession, hid]

theorem hasSession_of_verify {level : AuthLevel} (h : sessions.verify req level = true) :
    hasSession req = true := by
  cases hcurrent : sessions.current req with
  | none => simp [Sessions.verify, hcurrent] at h
  | some session => exact hasSession_of_current hcurrent

end Sessions

/-! ## The server -/

structure Server where
  database : Database
  sessions : Sessions

/-- What `request` comes to. -/
inductive Login where
  | denied
  | granted (session : Session)
  /-- Several rows match, which an assertion excludes. -/
  | aborted
  deriving DecidableEq, Repr

section Request

variable (p : Platform)

/-- `from_chars` on `PERMISSIONS`, cast to `authLevel`. -/
def userLevel (user : User) : Option AuthLevel :=
  (fromChars unsignedMax (p.columnText user.permissions)).map AuthLevel.ofUnsigned

/-- The session of a row that matched. -/
def sessionOf (id : Int) (user : User) : Option Session :=
  match fromChars uint64Max (p.columnText (.int id)), userLevel p user with
  | some userID, some authLevel => some { authLevel, userID }
  | _, _ => none

/-- `SELECT ID, PERMISSIONS FROM USERS WHERE USERNAME = :USR AND PASSWORD = :PWD`. -/
def matchingUsers (users : Table User) (username password : Text) : List (Int × User) :=
  users.select fun _ user =>
    user.username == .text username && user.password == .text (hash password)

/-- The part of `request` that reads the database. -/
def login (users : Table User) (username password : Text) : Login :=
  match matchingUsers users username password with
  | [] => .denied
  | [(id, user)] =>
    match sessionOf p id user with
    | none => .denied
    | some session => .granted session
  | _ => .aborted

/-- `authenticator::request`, where `fresh` is the session ID that is drawn. The
session of the cookie is released before the credentials are looked at. -/
def request (server : Server) (req : Request) (b : Body) (fresh : Nat) : Server × Login :=
  if !b.containsAll [Field.username, Field.password] then (server, .denied)
  else
    let sessions := (server.sessions.release req).1
    match login p server.database.users ((b.getElement Field.username).getD [])
        ((b.getElement Field.password).getD []) with
    | .granted session => ({ server with sessions := sessions.set fresh session }, .granted session)
    | refused => ({ server with sessions }, refused)

end Request

/-! ## A manager's session -/

def managerSessions : Sessions :=
  Sessions.set (fun _ => none) 7 { authLevel := AuthLevel.manager, userID := 1 }

def managerRequest : Request where
  cookie := ("auth=7" : Text)

theorem managerSessions_verify {level : AuthLevel} (h : level ≤ AuthLevel.manager) :
    managerSessions.verify managerRequest level = true := by
  have hcurrent : managerSessions.current managerRequest =
      some { authLevel := AuthLevel.manager, userID := 1 } := by decide +kernel
  simpa [Sessions.verify, hcurrent] using h

end WFA
