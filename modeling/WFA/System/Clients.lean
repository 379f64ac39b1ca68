-- SUMMARY: Browsers, the translator and the back end together: every client is served with its own session.
import WFA.Base.Run
import WFA.Server.Cookies
import WFA.Server.Statements
import WFA.Translator.Forwarding

/-!
# Clients

A client has no session of its own. It has a cookie that its browser got from the
translator, which got it from the back end, and the back end has a table of
sessions. Seen from outside, each client has a slot: a login fills it, a logout
or a failed login empties it, and what other clients do leaves it alone. In every
run, in any order of the requests of any number of clients, the session that the
back end finds for a client is the one in its slot.

A browser is a parameter. It sends each cookie it holds as a pair, and takes over
the cookie of a header `Set-Cookie` unless that has expired. What is asked besides
is that every cookie it holds has a name, and no two the same one: behind a cookie
that is a bare value, the loop of `getCookies` loses the one of the session.
-/

namespace WFA

open Text

/-! ## The cookies that the back end sets -/

def setCookieName : Text := ("Set-Cookie" : Text)

/-- `cookieManager::setCookie`. -/
def cookieHeader (name val : Text) : Text × Text :=
  (setCookieName, setCookie name val)

/-- The value that `clearCookie` sets. -/
def expired : Text := ("deleted; expires=Thu, 01 Jan 1970 00:00:00 GMT;" : Text)

/-- The header fields that `release` writes. -/
def releaseHeaders (req : Request) : List (Text × Text) :=
  match getSessionID req with
  | none => []
  | some _ => [cookieHeader authCookie expired]

section Replies

variable (p : Platform)

/-- The header fields that `authenticator::request` writes. -/
def requestHeaders (server : Server) (req : Request) (b : Body) (fresh : Nat) :
    List (Text × Text) :=
  if !b.containsAll [Field.username, Field.password] then []
  else
    releaseHeaders req ++
      match (request p server req b fresh).2 with
      | .granted _ => [cookieHeader authCookie (ofNat fresh)]
      | _ => []

/-- The header fields that a handler writes. -/
def replyHeaders (route : Route) (server : Server) (call : Call) : List (Text × Text) :=
  match route with
  | .request => requestHeaders p server call.req call.b call.fresh
  | .register => requestHeaders p (registered p server call.b) call.req call.b call.fresh
  | .release => releaseHeaders call.req
  | .checkSession => if hasSession call.req then [] else releaseHeaders call.req
  | _ => []

end Replies

/-! ## Browsers -/

structure Browser where
  Jar : Type
  /-- The cookies for this site, in the order in which they are sent. -/
  cookies : Jar → List (Text × Text)
  /-- What becomes of the cookies after a header `Set-Cookie`. -/
  receive : Jar → Text → Jar

namespace Browser

variable (browser : Browser)

/-- The header `cookie` of a request. -/
def header (jar : browser.Jar) : Text :=
  joinCookies ((browser.cookies jar).map fun cookie => setCookie cookie.1 cookie.2)

def receiveAll (jar : browser.Jar) (headers : List (Text × Text)) : browser.Jar :=
  headers.foldl (fun jar header =>
    if header.1 = setCookieName then browser.receive jar header.2 else jar) jar

/-- What the two servers rely on: named cookies only, with pairwise distinct names,
and the cookie of the session set and cleared as asked for. -/
structure Lawful : Prop where
  pairs : ∀ jar, ∀ cookie ∈ browser.cookies jar,
    cookie.1 ≠ [] ∧ ('=' : Byte) ∉ cookie.1 ∧ CookieSegment (setCookie cookie.1 cookie.2)
  names : ∀ jar, ((browser.cookies jar).map Prod.fst).Nodup
  sets : ∀ jar id, (authCookie, ofNat id) ∈
    browser.cookies (browser.receive jar (setCookie authCookie (ofNat id)))
  clears : ∀ jar val, (authCookie, val) ∉
    browser.cookies (browser.receive jar (setCookie authCookie expired))

variable {browser} {jar : browser.Jar}

/-- Behind pairs only, the loop of `getCookies` is at the start of the next one. -/
theorem steppedOver_pairs (before : List (Text × Text))
    (h : ∀ cookie ∈ before, cookie.1 ≠ [] ∧ ('=' : Byte) ∉ cookie.1) :
    (before.map fun cookie => setCookie cookie.1 cookie.2).foldl glues false = false := by
  induction before using List.reverseRecOn with
  | nil => rfl
  | append_singleton before cookie ih =>
    obtain ⟨hne, hdivisor⟩ := h cookie (by simp)
    rw [List.map_append, List.foldl_append]
    exact glues_setCookie _ hdivisor hne

theorem cookieName_setCookie {name val : Text} (h : ('=' : Byte) ∉ name) :
    cookieName (setCookie name val) = some name :=
  cookieName_append h

theorem cookieSegments (hlaw : browser.Lawful) (jar : browser.Jar) :
    ∀ segment ∈ (browser.cookies jar).map fun cookie => setCookie cookie.1 cookie.2,
      CookieSegment segment := by
  intro segment hsegment
  obtain ⟨cookie, hcookie, rfl⟩ := List.mem_map.mp hsegment
  exact (hlaw.pairs jar cookie hcookie).2.2

/-- The session of a jar with the session cookie. -/
theorem getSessionID_header (hlaw : browser.Lawful) {id : Nat} (hid : id ≤ uint64Max)
    (hmem : (authCookie, ofNat id) ∈ browser.cookies jar) :
    getSessionID { cookie := browser.header jar } = some id := by
  obtain ⟨before, after, hcookies⟩ := List.append_of_mem hmem
  have hpairs := hlaw.pairs jar
  have hsegments := cookieSegments hlaw jar
  have hnames := hlaw.names jar
  rw [hcookies] at hpairs hsegments hnames
  rw [List.map_append, List.map_cons] at hnames hsegments
  -- no other cookie has the name
  have hother : ∀ cookie ∈ before ++ after, cookie.1 ≠ authCookie := by
    intro cookie hcookie heq
    rcases List.mem_append.mp hcookie with hbefore | hafter
    · exact (List.nodup_append.mp hnames).2.2 _ (List.mem_map_of_mem hbefore) _ (by simp) heq
    · have hcons := (List.nodup_append.mp hnames).2.1
      rw [List.nodup_cons] at hcons
      exact hcons.1 (List.mem_map.mpr ⟨cookie, hafter, heq⟩)
  have hname : ∀ segment ∈ (before.map fun cookie => setCookie cookie.1 cookie.2) ++
      (after.map fun cookie => setCookie cookie.1 cookie.2), cookieName segment ≠ some authCookie := by
    rw [← List.map_append]
    intro segment hsegment
    obtain ⟨cookie, hcookie, rfl⟩ := List.mem_map.mp hsegment
    have hdivisor := (hpairs cookie (by
      rcases List.mem_append.mp hcookie with h | h <;> simp [h])).2.1
    rw [cookieName_setCookie hdivisor, ne_eq, Option.some.injEq]
    exact hother cookie hcookie
  have hglues := steppedOver_pairs before fun cookie hcookie =>
    ⟨(hpairs cookie (by simp [hcookie])).1, (hpairs cookie (by simp [hcookie])).2.1⟩
  have hheader : browser.header jar =
      joinCookies ((before.map fun cookie => setCookie cookie.1 cookie.2) ++
        setCookie authCookie (ofNat id) ::
          after.map fun cookie => setCookie cookie.1 cookie.2) := by
    rw [header, hcookies, List.map_append, List.map_cons]
  rw [hheader, getSessionID, getCookies_around (by
    intro segment hsegment
    apply hsegments
    rcases List.mem_append.mp hsegment with h | h
    · exact List.mem_append_left _ h
    · exact List.mem_append_right _ (List.mem_cons_of_mem _ h)), cookieGet_around _ _ hname, hglues]
  simp [stored_session, ofNat_ne_nil, fromChars_ofNat hid]

/-- A jar without the session cookie has no session. -/
theorem getSessionID_header_none (hlaw : browser.Lawful)
    (hnone : ∀ val, (authCookie, val) ∉ browser.cookies jar) :
    getSessionID { cookie := browser.header jar } = none := by
  have hget : cookieGet (getCookies { cookie := browser.header jar }) authCookie = [] := by
    apply cookieGet_of_not_mem
    intro pair hpair
    by_cases hempty : browser.cookies jar = []
    · simp [header, hempty, joinCookies, getCookies, cookiesFrom] at hpair
    · have hsegments := cookieSegments hlaw jar
      rw [header, getCookies_joined hsegments (by simpa using hempty)] at hpair
      refine authCookie_not_storedFrom ?_ hpair
      intro segment hsegment
      obtain ⟨cookie, hcookie, rfl⟩ := List.mem_map.mp hsegment
      rw [cookieName_setCookie (hlaw.pairs jar cookie hcookie).2.1, ne_eq, Option.some.injEq]
      intro heq
      exact hnone cookie.2 (heq ▸ hcookie)
  simp [getSessionID, hget]

end Browser

/-! ## The system -/

/-- The back end, what every browser holds, and the slot of every client. -/
structure World (browser : Browser) (Client : Type) where
  server : Server
  jars : Client → browser.Jar
  /-- The session that a client was granted last, unless it has ended. -/
  slots : Client → Option Session

/-- A request of a client through the translator, with what the back end draws
for it and the status that goes in front of the header. -/
structure Visit (Client : Type) where
  client : Client
  route : Route
  b : Body
  q : Query
  fresh : Nat
  date : Text
  status : Text

/-- The slot after a login. -/
def loginSlot (p : Platform) (server : Server) (b : Body) (slot : Option Session) :
    Option Session :=
  if !b.containsAll [Field.username, Field.password] then slot
  else
    match login p server.database.users ((b.getElement Field.username).getD [])
        ((b.getElement Field.password).getD []) with
    | .granted session => some session
    | _ => none

/-- What a request does to the slot of its client. -/
def slotStep (p : Platform) (server : Server) (route : Route) (b : Body) (slot : Option Session) :
    Option Session :=
  match route with
  | .request => loginSlot p server b slot
  | .register => loginSlot p (registered p server b) b slot
  | .release => none
  | _ => slot

namespace World

variable {browser : Browser} {Client : Type}

/-- The request that the back end gets of a client. -/
def request (world : World browser Client) (client : Client) : Request where
  cookie := browser.header (world.jars client)

def call (world : World browser Client) (visit : Visit Client) : Call where
  req := world.request visit.client
  b := visit.b
  q := visit.q
  fresh := visit.fresh
  date := visit.date

/-- The header of the answer, as the translator sends it on. -/
def headers (asserts : Bool) (p : Platform) (world : World browser Client) (visit : Visit Client) :
    List (Text × Text) :=
  (receiveHeaders asserts (headerLines visit.status
    (replyHeaders p visit.route world.server (world.call visit)))).toOption.getD []

def step [DecidableEq Client] (asserts : Bool) (p : Platform) (world : World browser Client)
    (visit : Visit Client) : World browser Client where
  server := (handle p visit.route world.server (world.call visit)).1
  jars := Function.update world.jars visit.client
    (browser.receiveAll (world.jars visit.client) (world.headers asserts p visit))
  slots := Function.update world.slots visit.client
    (slotStep p world.server visit.route visit.b (world.slots visit.client))

/-- The ID that is drawn for a login is not zero and not in the map, from which
the session of the cookie has been released. -/
def allowed (world : World browser Client) (visit : Visit Client) : Prop :=
  visit.route.login = true →
    0 < visit.fresh ∧ visit.fresh ≤ uint64Max ∧
      (world.server.sessions.release (world.request visit.client)).1 visit.fresh = none

/-- A server without sessions, and browsers without its cookie. -/
structure Fresh (world : World browser Client) : Prop where
  sessions : world.server.sessions = fun _ => none
  jars : ∀ client val, (authCookie, val) ∉ browser.cookies (world.jars client)
  slots : ∀ client, world.slots client = none

/-- The session ID in the cookie of a client. -/
def sessionID (world : World browser Client) (client : Client) : Option Nat :=
  getSessionID (world.request client)

end World

/-! ## One request -/

section Steps

variable {p : Platform}

theorem request_snd {server : Server} {req : Request} {b : Body} {fresh : Nat}
    (hall : b.containsAll [Field.username, Field.password] = true) :
    (request p server req b fresh).2 = login p server.database.users
      ((b.getElement Field.username).getD []) ((b.getElement Field.password).getD []) := by
  unfold request
  rw [hall]
  cases login p server.database.users ((b.getElement Field.username).getD [])
    ((b.getElement Field.password).getD []) <;> rfl

/-- What a request can do to the sessions, with the header fields it writes and
the slot it leaves: nothing, end the session of its cookie, or end it and begin
the session that is drawn. -/
inductive SessionChange (sessions : Sessions) (req : Request) (fresh : Nat)
    (slot : Option Session) : Sessions → List (Text × Text) → Option Session → Prop
  | keep : SessionChange sessions req fresh slot sessions [] slot
  | finish : SessionChange sessions req fresh slot (sessions.release req).1 (releaseHeaders req) none
  | begin {session : Session} : SessionChange sessions req fresh slot
      ((sessions.release req).1.set fresh session)
      (releaseHeaders req ++ [cookieHeader authCookie (ofNat fresh)]) (some session)

theorem authenticate_change (server : Server) (req : Request) (b : Body) (fresh : Nat)
    (slot : Option Session) :
    SessionChange server.sessions req fresh slot (authenticate p server req b fresh).1.sessions
      (requestHeaders p server req b fresh) (loginSlot p server b slot) := by
  rw [authenticate_fst]
  unfold requestHeaders loginSlot
  cases hall : b.containsAll [Field.username, Field.password] with
  | false => exact .keep
  | true =>
    simp only [if_true, Bool.not_true, Bool.false_eq_true, if_false, request_fst p hall,
      request_snd hall]
    cases login p server.database.users ((b.getElement Field.username).getD [])
        ((b.getElement Field.password).getD []) with
    | denied =>
      simp only [List.append_nil]
      exact .finish
    | granted session => exact .begin
    | aborted =>
      simp only [List.append_nil]
      exact .finish

theorem handle_change (route : Route) (server : Server) (call : Call) (slot : Option Session) :
    SessionChange server.sessions call.req call.fresh slot
        (handle p route server call).1.sessions (replyHeaders p route server call)
        (slotStep p server route call.b slot) ∧
      (replyHeaders p route server call ≠ [] → route.login = true) := by
  cases hroute : route.login with
  | false =>
    have hsessions := (handle_leaves hroute server call : Leaves p route call server _).sessions
    have hheaders : replyHeaders p route server call = [] := by
      cases route with
      | checkSession =>
        unfold replyHeaders releaseHeaders
        cases hid : getSessionID call.req <;> simp [hasSession, hid]
      | request => simp [Route.login] at hroute
      | register => simp [Route.login] at hroute
      | release => simp [Route.login] at hroute
      | _ => rfl
    have hslot : slotStep p server route call.b slot = slot := by
      cases route with
      | request => simp [Route.login] at hroute
      | register => simp [Route.login] at hroute
      | release => simp [Route.login] at hroute
      | _ => rfl
    refine ⟨?_, fun hne => absurd hheaders hne⟩
    rw [hsessions, hheaders, hslot]
    exact .keep
  | true =>
    refine ⟨?_, fun _ => rfl⟩
    cases route with
    | request => exact authenticate_change server call.req call.b call.fresh slot
    | register =>
      have hchange := authenticate_change (p := p) (registered p server call.b) call.req call.b
        call.fresh slot
      rw [registered_sessions] at hchange
      change SessionChange _ _ _ _ (registerUser p server call.req call.b call.fresh).1.sessions
        (requestHeaders p (registered p server call.b) call.req call.b call.fresh)
        (loginSlot p (registered p server call.b) call.b slot)
      rw [registerUser_fst]
      split
      · exact hchange
      · rename_i hall
        simp only [requestHeaders, loginSlot, hall, Bool.not_false, if_true]
        exact .keep
    | release =>
      change SessionChange _ _ _ _ (deauthenticate server call.req).1.sessions
        (releaseHeaders call.req) none
      rw [deauthenticate_fst]
      exact .finish
    | _ => simp [Route.login] at hroute

theorem SessionChange.header_name {sessions sessions' : Sessions} {req : Request} {fresh : Nat}
    {slot slot' : Option Session} {headers : List (Text × Text)}
    (h : SessionChange sessions req fresh slot sessions' headers slot') :
    ∀ header ∈ headers, header.1 = setCookieName := by
  have hrelease : ∀ header ∈ releaseHeaders req, header.1 = setCookieName := by
    intro header hheader
    unfold releaseHeaders at hheader
    split at hheader
    · simp at hheader
    · obtain rfl := List.mem_singleton.mp hheader
      rfl
  cases h with
  | keep => simp
  | finish => exact hrelease
  | begin =>
    intro header hheader
    rcases List.mem_append.mp hheader with hheader | hheader
    · exact hrelease header hheader
    · obtain rfl := List.mem_singleton.mp hheader
      rfl

end Steps

/-! ## Isolation -/

section Isolation

variable {browser : Browser} {Client : Type} {p : Platform} {asserts : Bool}

/-- The translator takes over the cookies of the back end as they are, whatever the
status in front of them is. -/
theorem receiveHeaders_replyHeaders (asserts : Bool) (p : Platform) (status : Text) (route : Route)
    (server : Server) (call : Call) :
    receiveHeaders asserts (headerLines status (replyHeaders p route server call)) =
      .ok (replyHeaders p route server call) := by
  have hnames := (handle_change (p := p) route server call none).1.header_name
  have hallowed : setCookieName ∈ allowedHeaders := by decide
  have hcolon : (':' : Byte) ∉ setCookieName := by decide
  rw [receiveHeaders_headerLines status fun header hheader => by
    rw [hnames header hheader]
    exact hcolon]
  rw [Except.ok.injEq, List.filter_eq_self]
  intro header hheader
  rw [hnames header hheader]
  exact decide_eq_true hallowed

theorem World.headers_eq (asserts : Bool) (p : Platform) (world : World browser Client)
    (visit : Visit Client) :
    world.headers asserts p visit =
      replyHeaders p visit.route world.server (world.call visit) := by
  unfold World.headers
  rw [receiveHeaders_replyHeaders]
  rfl

/-- After the fields that end a session, the browser names none. -/
theorem Browser.receiveAll_release (hlaw : browser.Lawful) (jar : browser.Jar) :
    getSessionID { cookie := browser.header (browser.receiveAll jar
      (releaseHeaders { cookie := browser.header jar })) } = none := by
  unfold releaseHeaders
  cases hid : getSessionID { cookie := browser.header jar } with
  | none => exact hid
  | some id => exact Browser.getSessionID_header_none hlaw (hlaw.clears jar)

/-- After the fields that begin a session, the browser names it. -/
theorem Browser.receiveAll_begin (hlaw : browser.Lawful) (jar : browser.Jar)
    (headers : List (Text × Text)) {id : Nat} (hid : id ≤ uint64Max) :
    getSessionID { cookie := browser.header (browser.receiveAll jar
      (headers ++ [cookieHeader authCookie (ofNat id)])) } = some id := by
  apply Browser.getSessionID_header hlaw hid
  unfold Browser.receiveAll
  rw [List.foldl_append]
  exact hlaw.sets _ id

/-- Every cookie names a live session, the one of its client, and no two clients
have the same one. -/
structure World.Isolated (world : World browser Client) : Prop where
  live : ∀ client id, world.sessionID client = some id →
    ∃ session, world.server.sessions id = some session ∧ world.slots client = some session
  gone : ∀ client, world.sessionID client = none → world.slots client = none
  apart : ∀ client other id, world.sessionID client = some id →
    world.sessionID other = some id → client = other

theorem World.Fresh.isolated {world : World browser Client} (hlaw : browser.Lawful)
    (h : world.Fresh) : world.Isolated := by
  have hnone : ∀ client, world.sessionID client = none := fun client =>
    Browser.getSessionID_header_none hlaw (h.jars client)
  refine ⟨?_, fun client _ => h.slots client, ?_⟩
  · intro client id hid
    simp [hnone client] at hid
  · intro client other id hid
    simp [hnone client] at hid

/-- The release of a client's session leaves the sessions of the others. -/
theorem World.Isolated.release {world : World browser Client} (h : world.Isolated)
    {client other : Client} (hne : other ≠ client) {id : Nat} (hid : world.sessionID other = some id) :
    (world.server.sessions.release (world.request client)).1 id = world.server.sessions id := by
  unfold Sessions.release
  cases hown : getSessionID (world.request client) with
  | none => rfl
  | some own =>
    have hids : id ≠ own := by
      rintro rfl
      exact hne (h.apart other client id hid hown)
    simp [Sessions.erase, hids]

variable [DecidableEq Client]

/-- What a request does to the sessions, the cookie and the slot of its client
keeps the clients apart, when the ID that is drawn is free. -/
theorem World.Isolated.change {world world' : World browser Client} {client : Client} {fresh : Nat}
    {headers : List (Text × Text)} {slot : Option Session} (hlaw : browser.Lawful)
    (h : world.Isolated)
    (hchange : SessionChange world.server.sessions (world.request client) fresh
      (world.slots client) world'.server.sessions headers slot)
    (hfresh : headers ≠ [] → fresh ≤ uint64Max ∧
      (world.server.sessions.release (world.request client)).1 fresh = none)
    (hjars : world'.jars = Function.update world.jars client
      (browser.receiveAll (world.jars client) headers))
    (hslots : world'.slots = Function.update world.slots client slot) : world'.Isolated := by
  have hother : ∀ other, other ≠ client →
      world'.sessionID other = world.sessionID other ∧ world'.slots other = world.slots other := by
    intro other hne
    simp [World.sessionID, World.request, hjars, hslots, Function.update_of_ne hne]
  have hown : world'.sessionID client = getSessionID
      { cookie := browser.header (browser.receiveAll (world.jars client) headers) } := by
    simp [World.sessionID, World.request, hjars]
  have hslot : world'.slots client = slot := by simp [hslots]
  generalize hsessions : world'.server.sessions = sessions' at hchange
  cases hchange with
  | keep =>
    have hsame : ∀ other, world'.sessionID other = world.sessionID other ∧
        world'.slots other = world.slots other := by
      intro other
      by_cases hne : other = client
      · subst hne
        exact ⟨hown, hslot⟩
      · exact hother other hne
    refine ⟨?_, ?_, ?_⟩
    · intro other id hid
      rw [hsessions, (hsame other).2]
      exact h.live other id ((hsame other).1 ▸ hid)
    · intro other hid
      rw [(hsame other).2]
      exact h.gone other ((hsame other).1 ▸ hid)
    · intro other another id hid hid'
      exact h.apart other another id ((hsame other).1 ▸ hid) ((hsame another).1 ▸ hid')
  | finish =>
    have hnone : world'.sessionID client = none :=
      hown.trans (Browser.receiveAll_release hlaw _)
    -- whoever still names a session is another client
    have hnot : ∀ other id, world'.sessionID other = some id → other ≠ client := by
      rintro other id hid rfl
      simp [hnone] at hid
    refine ⟨?_, ?_, ?_⟩
    · intro other id hid
      have hne := hnot other id hid
      obtain ⟨hsame, hkept⟩ := hother other hne
      rw [hsessions, hkept, h.release hne (hsame ▸ hid)]
      exact h.live other id (hsame ▸ hid)
    · intro other hid
      by_cases hne : other = client
      · subst hne
        exact hslot
      · rw [(hother other hne).2]
        exact h.gone other ((hother other hne).1 ▸ hid)
    · intro other another id hid hid'
      have hne := (hother other (hnot other id hid)).1
      have hne' := (hother another (hnot another id hid')).1
      exact h.apart other another id (hne ▸ hid) (hne' ▸ hid')
  | begin =>
    obtain ⟨hmax, hfree⟩ := hfresh (by simp)
    have hnew : world'.sessionID client = some fresh :=
      hown.trans (Browser.receiveAll_begin hlaw _ _ hmax)
    -- the ID that is drawn is not the one of another client
    have hapart : ∀ other id, other ≠ client → world.sessionID other = some id → id ≠ fresh := by
      rintro other id hne hid rfl
      obtain ⟨session, hlive, -⟩ := h.live other _ hid
      rw [← h.release hne hid, hfree] at hlive
      simp at hlive
    refine ⟨?_, ?_, ?_⟩
    · intro other id hid
      by_cases hne : other = client
      · subst hne
        obtain rfl : fresh = id := by simpa [hnew] using hid
        exact ⟨_, by simp [hsessions, Sessions.set], hslot⟩
      · obtain ⟨hsame, hkept⟩ := hother other hne
        have hid' : world.sessionID other = some id := hsame ▸ hid
        obtain ⟨session, hlive, hheld⟩ := h.live other id hid'
        refine ⟨session, ?_, hkept.trans hheld⟩
        rw [hsessions, Sessions.set, if_neg (hapart other id hne hid'), h.release hne hid', hlive]
    · intro other hid
      by_cases hne : other = client
      · subst hne
        simp [hnew] at hid
      · rw [(hother other hne).2]
        exact h.gone other ((hother other hne).1 ▸ hid)
    · intro other another id hid hid'
      by_cases hne : other = client
      · by_cases hne' : another = client
        · exact hne.trans hne'.symm
        · subst hne
          obtain rfl : fresh = id := by simpa [hnew] using hid
          exact absurd rfl (hapart another _ hne' ((hother another hne').1 ▸ hid'))
      · by_cases hne' : another = client
        · subst hne'
          obtain rfl : fresh = id := by simpa [hnew] using hid'
          exact absurd rfl (hapart other _ hne ((hother other hne).1 ▸ hid))
        · exact h.apart other another id ((hother other hne).1 ▸ hid)
            ((hother another hne').1 ▸ hid')

theorem World.Isolated.step {world : World browser Client} {visit : Visit Client}
    (hlaw : browser.Lawful) (h : world.Isolated) (hallowed : world.allowed visit) :
    (world.step asserts p visit).Isolated := by
  obtain ⟨hchange, hlogin⟩ := handle_change (p := p) visit.route world.server (world.call visit)
    (world.slots visit.client)
  refine h.change hlaw hchange ?_ ?_ rfl
  · intro hne
    exact (hallowed (hlogin hne)).2
  · rw [← World.headers_eq asserts p world visit]
    rfl

/-- In every run of any number of clients whose browsers hold named cookies of
pairwise distinct names, from a server without sessions, the session that the back
end finds for a client is the one that this client was granted last and has not
ended, and no two clients have the same session ID. -/
theorem clients_isolated (hlaw : browser.Lawful) {start world : World browser Client}
    (hstart : start.Fresh) {visits : List (Visit Client)}
    (hrun : Run (World.step asserts p) World.allowed start visits world) :
    (∀ client, world.server.sessions.current (world.request client) = world.slots client) ∧
    ∀ client other id, world.sessionID client = some id → world.sessionID other = some id →
      client = other := by
  have h : world.Isolated :=
    hrun.invariant (hstart.isolated hlaw) fun _ _ hisolated hallowed => hisolated.step hlaw hallowed
  refine ⟨?_, h.apart⟩
  intro client
  unfold Sessions.current
  cases hid : getSessionID (world.request client) with
  | none => exact (h.gone client hid).symm
  | some id =>
    obtain ⟨session, hsession, hslot⟩ := h.live client id hid
    rw [Option.bind_some, hsession, hslot]

end Isolation

/-! ## Two clients -/

/-- A browser that keeps the session cookie and no other one. -/
def sessionBrowser : Browser where
  Jar := Option Nat
  cookies jar := jar.toList.map fun id => (authCookie, ofNat id)
  receive jar header :=
    match cut '=' header with
    | (name, some val) =>
      if name ≠ authCookie then jar
      else if val = expired then none
      else some (numeralValue (digits val))
    | (_, none) => jar

theorem sessionBrowser_lawful : sessionBrowser.Lawful where
  pairs jar cookie hcookie := by
    obtain ⟨id, -, rfl⟩ := List.mem_map.mp hcookie
    have hname : authCookie ≠ [] ∧ ('=' : Byte) ∉ authCookie := by decide
    exact ⟨hname.1, hname.2, cookieSegment_session id⟩
  names jar := by
    cases jar with
    | none => exact List.nodup_nil
    | some id => exact List.nodup_singleton _
  sets jar id := by
    have hcut : cut '=' (setCookie authCookie (ofNat id)) = (authCookie, some (ofNat id)) :=
      cut_append (by decide)
    -- a number is no text with a letter in it
    have hne : ofNat id ≠ expired := by
      intro heq
      have hdigit : isDigit 'd' = true := isDigit_ofNat (n := id) (by rw [heq]; decide)
      revert hdigit
      decide
    simp [sessionBrowser, hcut, hne, digits_ofNat, numeralValue_ofNat]
  clears jar val := by
    have hcut : cut '=' (setCookie authCookie expired) = (authCookie, some expired) :=
      cut_append (by decide)
    simp [sessionBrowser, hcut]

/-- The administrator logs in. -/
def adminVisit (client : Bool) (fresh : Nat) : Visit Bool where
  client := client
  route := .request
  b := credentials adminName adminName
  q := .ofList []
  fresh := fresh
  date := []
  status := ("200 OK" : Text)

def emptyWorld : World sessionBrowser Bool where
  server := { database := adminDatabase .integers, sessions := fun _ => none }
  jars _ := (none : Option Nat)
  slots _ := none

/-- One client has logged in, and then the other one. -/
def twoLogins : World sessionBrowser Bool :=
  ((emptyWorld.step true .integers (adminVisit false 7)).step true .integers (adminVisit true 9))

theorem clients_isolated_twoLogins :
    twoLogins.server.sessions.current (twoLogins.request false) =
        some { authLevel := 3, userID := 0 } ∧
      twoLogins.sessionID false ≠ twoLogins.sessionID true := by
  have hfirst : Run (World.step true .integers) World.allowed emptyWorld [adminVisit false 7] _ :=
    .snoc .nil fun _ => by decide +kernel
  have hrun : Run (World.step true .integers) World.allowed emptyWorld
      [adminVisit false 7, adminVisit true 9] twoLogins := .snoc hfirst fun _ => by decide +kernel
  have hstart : emptyWorld.Fresh := ⟨rfl, by simp [emptyWorld, sessionBrowser], fun _ => rfl⟩
  obtain ⟨hsessions, hapart⟩ := clients_isolated sessionBrowser_lawful hstart hrun
  refine ⟨(hsessions false).trans (by decide +kernel), ?_⟩
  have hid : twoLogins.sessionID false = some 7 := by decide +kernel
  intro heq
  exact absurd (hapart false true 7 hid (heq ▸ hid)) (by decide)

end WFA
