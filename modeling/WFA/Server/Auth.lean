-- SUMMARY: The routes that log a user in and out: `authenticate`, `registerUser`, `deauthenticate`, `checkSession`.
import WFA.Server.Network

/-!
# Logging in and out

`Server/include/WebRoutes/Auth.h`. A handler takes the server and a request to the
server after it and the way it ends.
-/

namespace WFA

open Text

section Auth

variable (p : Platform)

/-- An `INSERT INTO USERS` with the rowid `NULL`: the next rowid, unless the name
is taken. The values are bound texts, so none of them is null. -/
def insertUser (users : Table User) (username password : Text) (permissions : Value) :
    Option (Int × Table User) :=
  if (users.select fun _ user => user.username == .text username).isEmpty then
    users.insert
      { username := .text username, password := .text password
        permissions := p.integerAffinity permissions }
  else none

def adminName : Text := ("ADMIN" : Text)

/-- The insert of the user `ADMIN` in `main`, which fails when the name or the
rowid is taken. -/
def insertAdmin (users : Table User) : Option (Table User) :=
  if (users.select fun _ user => user.username == .text adminName).isEmpty then
    users.insertAt 0
      { username := .text adminName, password := .text (hash adminName)
        permissions := p.integerAffinity (.int 3) }
  else none

/-- A database as `main` leaves it when it starts empty. -/
def adminDatabase : Database :=
  { users := (insertAdmin p .empty).getD .empty }

/-- The status that is sent when `status` is written behind `request`. `release` has
written the header `Set-Cookie` by then if the cookie holds a number, and the first
header that is written sends the status 200. -/
def releasedStatus (req : Request) (status : Status) : Status :=
  if hasSession req then .ok else status

def authenticate (server : Server) (req : Request) (b : Body) (fresh : Nat) : Server × Ending :=
  if !b.containsAll [Field.username, Field.password] then
    (server, .reply .badRequest none)
  else
    match request p server req b fresh with
    | (server, .granted _) => (server, .reply .ok none)
    | (server, .denied) => (server, .reply (releasedStatus req .unauthorised) none)
    | (server, .aborted) => (server, .aborted)

/-- Both adds an account and authenticates it. The status of a failed insert is written
before any header. -/
def registerUser (server : Server) (req : Request) (b : Body) (fresh : Nat) : Server × Ending :=
  if !b.containsAll [Field.username, Field.password] then
    (server, .reply .badRequest none)
  else
    match insertUser p server.database.users ((b.getElement Field.username).getD [])
        ((b.getElement Field.password).getD []) (.int 1) with
    | none =>
      let (server, ending) := authenticate p server req b fresh
      (server, ending.withStatus .internalError)
    | some (_, users) =>
      authenticate p { server with database := { server.database with users } } req b fresh

def deauthenticate (server : Server) (req : Request) : Server × Ending :=
  match server.sessions.release req with
  | (sessions, true) => ({ server with sessions }, .reply .ok none)
  | (sessions, false) => ({ server with sessions }, .reply .conflict none)

def checkSession (server : Server) (req : Request) : Server × Ending :=
  if hasSession req then
    match server.sessions.getSessionAuthLevel req with
    | none => (server, .exception)
    | some level =>
      (server, .reply .ok
        (some (ResponseWrapper.empty.push ("Permissions" : Text) (.strings [ofInt level]) false)))
  else
    -- Clear invalid state (e.g. client-server mismatch).
    ({ server with sessions := (server.sessions.release req).1 }, .reply .unauthorised none)

end Auth

/-- The body of a login. -/
def credentials (username password : Text) : Body :=
  .ofList [(Field.username, username), (Field.password, password)]

theorem getElement_credentials (username password : Text) :
    (credentials username password).getElement Field.username = some username ∧
      (credentials username password).getElement Field.password = some password := by
  have hne : (Field.password == Field.username) = false := by decide +kernel
  simp [credentials, QueryBase.getElement, QueryBase.ofList, hne]

/-- The administrator, and Bob, whose password was stored as `request` compares it. -/
def staffDatabase : Database where
  users :=
    { rows := [(0, { username := .text adminName, password := .text (hash adminName)
                     permissions := .int 3 }),
               (1, { username := .text ("bob" : Text), password := .text (hash ("pass" : Text))
                     permissions := .int 2 })]
      sorted := by decide
      bounded := by decide }

/-! ## Who logs in -/

/-- The row of `USERS` that the credentials of a form belong to, and the session that is
read from it: the name, the hash of the password, and no second row with both; the
rowid, and the number in `PERMISSIONS`. -/
structure Authenticated (p : Platform) (users : Table User) (b : Body) (id : Int) (user : User)
    (session : Session) : Prop where
  fields : b.containsAll [Field.username, Field.password] = true
  row : users.get id = some user
  username : user.username = .text ((b.getElement Field.username).getD [])
  password : user.password = .text (hash ((b.getElement Field.password).getD []))
  only : ∀ other found, users.get other = some found → found.username = user.username →
    found.password = user.password → other = id
  userID : (session.userID : Int) = id
  authLevel : ∃ n, fromChars unsignedMax (p.columnText user.permissions) = some n ∧
    session.authLevel = AuthLevel.ofUnsigned n

section Authenticated

variable {p : Platform} {users : Table User} {b : Body} {id : Int} {user : User} {session : Session}

theorem sessionOf_eq_some_iff (hbound : id < 2 ^ 63) :
    sessionOf p id user = some session ↔ (session.userID : Int) = id ∧
      ∃ n, fromChars unsignedMax (p.columnText user.permissions) = some n ∧
        session.authLevel = AuthLevel.ofUnsigned n := by
  have huser : ∀ n : Nat, fromChars uint64Max (p.columnText (.int id)) = some n ↔ (n : Int) = id := by
    intro n
    constructor
    · exact fun h => (fromChars_ofInt h).symm
    · rintro rfl
      have htext : p.columnText (.int n) = ofNat n := by
        rw [Platform.columnText, ofInt, if_neg (by omega), Int.natAbs_natCast]
      rw [htext, fromChars_ofNat (by unfold uint64Max; omega)]
  unfold sessionOf userLevel
  constructor
  · intro h
    split at h
    · rename_i userID level hread hlevel
      obtain ⟨n, hn, rfl⟩ := Option.map_eq_some_iff.mp hlevel
      obtain rfl := Option.some.inj h
      exact ⟨(huser userID).mp hread, n, hn, rfl⟩
    · cases h
  · rintro ⟨hid, n, hn, hlevel⟩
    rw [(huser session.userID).mpr hid, hn]
    simp [← hlevel]

/-- The statement of `request` finds exactly the row that the credentials belong to. -/
theorem matchingUsers_eq_singleton_iff {username password : Text} :
    matchingUsers users username password = [(id, user)] ↔
      users.get id = some user ∧ user.username = .text username ∧
        user.password = .text (hash password) ∧
        ∀ other found, users.get other = some found → found.username = user.username →
          found.password = user.password → other = id := by
  have hmem : ∀ other found, (other, found) ∈ matchingUsers users username password ↔
      users.get other = some found ∧ found.username = .text username ∧
        found.password = .text (hash password) := by
    intro other found
    rw [matchingUsers, Table.mem_select]
    simp
  constructor
  · intro heq
    obtain ⟨hget, husername, hpassword⟩ := (hmem id user).mp (by simp [heq])
    refine ⟨hget, husername, hpassword, ?_⟩
    intro other found hother hname hword
    have hfound := (hmem other found).mpr ⟨hother, hname.trans husername, hword.trans hpassword⟩
    simp only [heq, List.mem_singleton, Prod.mk.injEq] at hfound
    exact hfound.1
  · rintro ⟨hget, husername, hpassword, honly⟩
    refine users.select_eq_singleton hget (by simp [husername, hpassword]) ?_
    intro other found hother hmatch
    simp only [Bool.and_eq_true, beq_iff_eq] at hmatch
    exact honly other found hother (hmatch.1.trans husername.symm) (hmatch.2.trans hpassword.symm)

/-- `request` grants a session exactly when the credentials belong to a row, and the
session is the one that is read from the row. -/
theorem request_authenticated_iff (server : Server) (req : Request) (fresh : Nat) :
    (request p server req b fresh).2 = .granted session ↔
      ∃ id user, Authenticated p server.database.users b id user session := by
  unfold request
  cases hall : b.containsAll [Field.username, Field.password] with
  | false =>
    refine iff_of_false (by simp) ?_
    rintro ⟨id, user, hauthenticated⟩
    simp [hauthenticated.fields] at hall
  | true =>
    have hlogin : login p server.database.users ((b.getElement Field.username).getD [])
        ((b.getElement Field.password).getD []) = .granted session ↔
        ∃ id user, Authenticated p server.database.users b id user session := by
      constructor
      · intro hgranted
        unfold login at hgranted
        split at hgranted
        · cases hgranted
        · rename_i id user hmatch
          obtain ⟨hget, husername, hpassword, honly⟩ := matchingUsers_eq_singleton_iff.mp hmatch
          cases hsession : sessionOf p id user with
          | none => simp [hsession] at hgranted
          | some issued =>
            obtain rfl : issued = session := by simpa [hsession] using hgranted
            obtain ⟨huserID, hlevel⟩ :=
              (sessionOf_eq_some_iff (server.database.users.get_lt hget)).mp hsession
            exact ⟨id, user, hall, hget, husername, hpassword, honly, huserID, hlevel⟩
        · cases hgranted
      · rintro ⟨id, user, hauthenticated⟩
        have hmatch := matchingUsers_eq_singleton_iff.mpr ⟨hauthenticated.row,
          hauthenticated.username, hauthenticated.password, hauthenticated.only⟩
        have hsession := (sessionOf_eq_some_iff (p := p)
          (server.database.users.get_lt hauthenticated.row)).mpr
            ⟨hauthenticated.userID, hauthenticated.authLevel⟩
        rw [login, hmatch]
        simp only [hsession]
    rw [← hlogin]
    cases login p server.database.users ((b.getElement Field.username).getD [])
      ((b.getElement Field.password).getD []) <;> simp

end Authenticated

/-! ## What the routes leave -/

section Auth

variable (p : Platform)

/-- The statement of `registerUser`. -/
def registerInsert (users : Table User) (b : Body) : Option (Int × Table User) :=
  insertUser p users ((b.getElement Field.username).getD []) ((b.getElement Field.password).getD [])
    (.int 1)

/-- The server that the statement leaves. -/
def registered (server : Server) (b : Body) : Server :=
  match registerInsert p server.database.users b with
  | none => server
  | some (_, users) => { server with database := { server.database with users } }

/-- The sessions after `request`, once the fields are there. -/
theorem request_fst {server : Server} {req : Request} {b : Body} {fresh : Nat}
    (hall : b.containsAll [Field.username, Field.password] = true) :
    (request p server req b fresh).1 = { server with
      sessions := match (request p server req b fresh).2 with
        | .granted session => (server.sessions.release req).1.set fresh session
        | _ => (server.sessions.release req).1 } := by
  unfold request
  rw [hall]
  cases login p server.database.users ((b.getElement Field.username).getD [])
    ((b.getElement Field.password).getD []) <;> rfl

theorem authenticate_fst (server : Server) (req : Request) (b : Body) (fresh : Nat) :
    (authenticate p server req b fresh).1 =
      if b.containsAll [Field.username, Field.password] then
        (request p server req b fresh).1
      else server := by
  unfold authenticate
  cases b.containsAll [Field.username, Field.password] with
  | false => rfl
  | true =>
    simp only [Bool.not_true, Bool.false_eq_true, if_false, if_true]
    split <;> simp [*]

theorem registerUser_fst (server : Server) (req : Request) (b : Body) (fresh : Nat) :
    (registerUser p server req b fresh).1 =
      if b.containsAll [Field.username, Field.password] then
        (authenticate p (registered p server b) req b fresh).1
      else server := by
  unfold registerUser registered registerInsert
  cases b.containsAll [Field.username, Field.password] with
  | false => rfl
  | true =>
    simp only [Bool.not_true, Bool.false_eq_true, if_false, if_true]
    split <;> simp

theorem registered_sessions (server : Server) (b : Body) :
    (registered p server b).sessions = server.sessions := by
  unfold registered
  split <;> rfl

theorem release_eq_some_iff {sessions : Sessions} {req : Request} {id : Nat} {session : Session} :
    (sessions.release req).1 id = some session ↔
      sessions id = some session ∧ getSessionID req ≠ some id := by
  unfold Sessions.release
  cases hid : getSessionID req with
  | none => simp
  | some other =>
    simp only [Sessions.erase, ne_eq, Option.some.injEq]
    split
    · rename_i heq
      simp [heq]
    · rename_i hne
      simp [Ne.symm hne]

theorem deauthenticate_fst (server : Server) (req : Request) :
    (deauthenticate server req).1 = { server with sessions := (server.sessions.release req).1 } := by
  unfold deauthenticate
  split <;> rename_i hresult <;> rw [hresult]

theorem checkSession_fst (server : Server) (req : Request) : (checkSession server req).1 = server := by
  unfold checkSession
  split
  · split <;> rfl
  · rename_i hnone
    have hid : getSessionID req = none := by simpa [hasSession] using hnone
    simp [Sessions.release, hid]

theorem authenticate_database (server : Server) (req : Request) (b : Body) (fresh : Nat) :
    (authenticate p server req b fresh).1.database = server.database := by
  rw [authenticate_fst]
  split
  · rename_i hall
    rw [request_fst p hall]
  · rfl

end Auth

end WFA
