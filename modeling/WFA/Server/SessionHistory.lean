-- SUMMARY: The live sessions are those that a login issued and no request released since: soundness of `verify` over runs.
import WFA.Base.Run
import WFA.Server.Auth

/-!
# Session soundness

What a request does to the sessions is said twice. `Issues` and `Releases` say it
from the form, the cookie and the table `USERS` alone: a login whose credentials
belong to a row issues the drawn ID with what is read from that row, and a login
or a logout releases the ID in its cookie. The handlers say it through the map of
the authenticator. In every run the map holds exactly the sessions that were
issued and not released since, so `verify` answers from the history.

The map is private to the authenticator and only `request` and `release` write
it. Every handler other than the four below is one that changes the database in
any way and leaves the map alone.
-/

namespace WFA

open Text

/-! ## Actions -/

/-- A request to one of the four session handlers, or to any other one. -/
inductive SessionAction where
  | authenticate (req : Request) (b : Body) (fresh : Nat)
  | registerUser (req : Request) (b : Body) (fresh : Nat)
  | deauthenticate (req : Request)
  | checkSession (req : Request)
  | other (database : Database)

namespace SessionAction

/-- The ID in the cookie of the request. -/
def cookieID : SessionAction → Option Nat
  | .authenticate req _ _ | .registerUser req _ _ | .deauthenticate req | .checkSession req =>
    getSessionID req
  | .other _ => none

/-- A request that carries the ID and logs out, or logs in with both fields there,
whatever comes of it. -/
def Releases (id : Nat) : SessionAction → Prop
  | .authenticate req b _ | .registerUser req b _ =>
    b.containsAll [Field.username, Field.password] = true ∧ getSessionID req = some id
  | .deauthenticate req => getSessionID req = some id
  | .checkSession _ | .other _ => False

end SessionAction

section Runs

variable (p : Platform)

/-- A login whose credentials belong to a row of `USERS` issues the drawn ID, with what
is read from that row. `registerUser` has made its insert by then. -/
def Issues (id : Nat) (session : Session) (server : Server) : SessionAction → Prop
  | .authenticate _ b fresh =>
    id = fresh ∧ ∃ row user, Authenticated p server.database.users b row user session
  | .registerUser _ b fresh =>
    id = fresh ∧
      ∃ row user, Authenticated p (registered p server b).database.users b row user session
  | .deauthenticate _ | .checkSession _ | .other _ => False

def sessionStep (server : Server) : SessionAction → Server
  | .authenticate req b fresh => (authenticate p server req b fresh).1
  | .registerUser req b fresh => (registerUser p server req b fresh).1
  | .deauthenticate req => (deauthenticate server req).1
  | .checkSession req => (checkSession server req).1
  | .other database => { server with database }

/-- The drawn ID is not zero and not in the map, from which the session of the
cookie has been released. -/
def sessionAllowed (server : Server) : SessionAction → Prop
  | .authenticate req _ fresh | .registerUser req _ fresh =>
    0 < fresh ∧ fresh ≤ uint64Max ∧ (server.sessions.release req).1 fresh = none
  | _ => True

/-! ## One step -/

/-- The sessions after a login. -/
theorem authenticate_eq_some_iff {server : Server} {req : Request} {b : Body} {fresh id : Nat}
    {session : Session} (hfresh : (server.sessions.release req).1 fresh = none) :
    (authenticate p server req b fresh).1.sessions id = some session ↔
      (id = fresh ∧ ∃ row user, Authenticated p server.database.users b row user session) ∨
        server.sessions id = some session ∧
          ¬ (b.containsAll [Field.username, Field.password] = true ∧
            getSessionID req = some id) := by
  rw [authenticate_fst]
  cases hall : b.containsAll [Field.username, Field.password] with
  | false =>
    have hnot : ∀ row user, ¬ Authenticated p server.database.users b row user session :=
      fun row user h => by simp [h.fields] at hall
    simp [hnot]
  | true =>
    rw [if_pos rfl, request_fst p hall, ← request_authenticated_iff server req fresh]
    have hkept : (server.sessions.release req).1 id = some session ↔
        server.sessions id = some session ∧ getSessionID req ≠ some id := release_eq_some_iff
    cases hlogin : (request p server req b fresh).2 with
    | granted found =>
      simp only [Sessions.set, Login.granted.injEq, true_and]
      split
      · rename_i heq
        have hgone : ¬ (server.sessions id = some session ∧ getSessionID req ≠ some id) := by
          rw [← hkept, heq, hfresh]
          simp
        rw [or_iff_left hgone]
        simp [heq]
      · rename_i hne
        rw [hkept]
        simp [hne]
    | denied => simp [hkept]
    | aborted => simp [hkept]

/-- A session is there after a request exactly when the request issued it, or it was
there and the request did not release it. -/
theorem sessionStep_iff {server : Server} {action : SessionAction} {id : Nat} {session : Session}
    (hallowed : sessionAllowed server action) :
    (sessionStep p server action).sessions id = some session ↔
      Issues p id session server action ∨
        (server.sessions id = some session ∧ ¬ action.Releases id) := by
  cases action with
  | authenticate req b fresh => exact authenticate_eq_some_iff p hallowed.2.2
  | registerUser req b fresh =>
    have hsessions := registered_sessions p server b
    simp only [sessionStep, Issues, SessionAction.Releases, registerUser_fst]
    cases hall : b.containsAll [Field.username, Field.password] with
    | false =>
      have hnot : ∀ row user,
          ¬ Authenticated p (registered p server b).database.users b row user session :=
        fun row user h => by simp [h.fields] at hall
      simp [hnot]
    | true =>
      have hfresh : ((registered p server b).sessions.release req).1 fresh = none :=
        hsessions ▸ hallowed.2.2
      have hlogin := @authenticate_eq_some_iff p (registered p server b) req b fresh id session
        hfresh
      rw [hsessions, hall] at hlogin
      rw [if_pos rfl]
      exact hlogin
  | deauthenticate req =>
    simp only [sessionStep, Issues, SessionAction.Releases, deauthenticate_fst, false_or]
    exact release_eq_some_iff
  | checkSession req => simp [sessionStep, Issues, SessionAction.Releases, checkSession_fst]
  | other database => simp [sessionStep, Issues, SessionAction.Releases]

/-- A request changes no session but that of its own cookie and the one it issues. -/
theorem sessionStep_frame {server : Server} {action : SessionAction} {id : Nat}
    (hallowed : sessionAllowed server action) (hcookie : action.cookieID ≠ some id)
    (hissued : ∀ session, ¬ Issues p id session server action) :
    (sessionStep p server action).sessions id = server.sessions id := by
  have hreleases : ¬ action.Releases id := by
    cases action with
    | authenticate req b fresh => exact fun h => hcookie h.2
    | registerUser req b fresh => exact fun h => hcookie h.2
    | deauthenticate req => exact hcookie
    | checkSession req => exact not_false
    | other database => exact not_false
  refine Option.ext fun session => ?_
  rw [sessionStep_iff p hallowed]
  simp [hissued session, hreleases]

/-! ## Runs -/

/-- A run of requests from the empty session map. -/
def SessionRun (database : Database) : List SessionAction → Server → Prop :=
  Run (sessionStep p) sessionAllowed { database, sessions := fun _ => none }

/-- A request of the run issued the ID with this session, and none since has released it. -/
def IssuedSince (database : Database) (actions : List SessionAction) (id : Nat)
    (session : Session) : Prop :=
  Run.Standing (sessionStep p) { database, sessions := fun _ => none } (Issues p id session)
    (SessionAction.Releases id) actions

theorem SessionRun.session_iff {database : Database} {actions : List SessionAction}
    {server : Server} (h : SessionRun p database actions server) (id : Nat) (session : Session) :
    server.sessions id = some session ↔ IssuedSince p database actions id session :=
  Run.iff_standing (P := fun server => server.sessions id = some session) (by simp)
    (fun _ _ hallowed => sessionStep_iff p hallowed) h

/-- In every state reached, `verify` says whether the cookie's ID is one that was
issued, not released since, and issued with a sufficient level; the session's user
is the one read at that issue; and the next request leaves the sessions of other
IDs alone. -/
theorem verify_iff_issued {database : Database} {actions : List SessionAction} {server : Server}
    (h : SessionRun p database actions server) :
    (∀ req level, server.sessions.verify req level = true ↔
      ∃ id session, getSessionID req = some id ∧ IssuedSince p database actions id session ∧
        level ≤ session.authLevel) ∧
    (∀ req id session, getSessionID req = some id → IssuedSince p database actions id session →
      server.sessions.getSessionUser req = some session.userID) ∧
    (∀ action id, sessionAllowed server action → action.cookieID ≠ some id →
      (∀ session, ¬ Issues p id session server action) →
      (sessionStep p server action).sessions id = server.sessions id) := by
  have hsession := h.session_iff
  refine ⟨?_, ?_, ?_⟩
  · intro req level
    simp only [← hsession]
    unfold Sessions.verify Sessions.current
    cases hid : getSessionID req with
    | none => simp
    | some id =>
      simp only [Option.bind_some, Option.some.injEq, exists_and_left, exists_eq_left']
      cases server.sessions id <;> simp
  · intro req id session hid hissued
    have hlive := (hsession id session).mpr hissued
    simp [Sessions.getSessionUser, Sessions.current, hid, hlive]
  · intro action id hallowed hcookie hissued
    exact sessionStep_frame p hallowed hcookie hissued

end Runs

/-! ## Two logins, a logout and a deletion -/

/-- Both log in, the administrator logs out, and Bob's row is deleted. -/
def staffActions : List SessionAction :=
  [.authenticate { cookie := [] } (credentials adminName adminName) 7,
    .authenticate { cookie := [] } (credentials ("bob" : Text) ("pass" : Text)) 8,
    .deauthenticate { cookie := ("auth=7" : Text) },
    .other {}]

theorem staffActions_run : SessionRun .integers staffDatabase staffActions
    (staffActions.foldl (sessionStep .integers)
      { database := staffDatabase, sessions := fun _ => none }) := by
  have hstart : SessionRun .integers staffDatabase [] _ := Run.nil
  have hadmin : SessionRun .integers staffDatabase (staffActions.take 1) _ :=
    Run.snoc hstart ⟨by decide, by decide, by decide⟩
  have hbob : SessionRun .integers staffDatabase (staffActions.take 2) _ :=
    Run.snoc hadmin ⟨by decide, by decide, by decide +kernel⟩
  have hreleased : SessionRun .integers staffDatabase (staffActions.take 3) _ :=
    Run.snoc hbob trivial
  exact Run.snoc hreleased trivial

/-- Bob's session is the one that was issued to him, and the administrator has none. -/
theorem verify_staff :
    IssuedSince .integers staffDatabase staffActions 8 { authLevel := 2, userID := 1 } ∧
    (staffActions.foldl (sessionStep .integers)
        { database := staffDatabase, sessions := fun _ => none }).sessions.verify
      { cookie := ("auth=8" : Text) } AuthLevel.manager = true ∧
    ¬ ∃ session, IssuedSince .integers staffDatabase staffActions 7 session ∧
      AuthLevel.client ≤ session.authLevel := by
  have hverify := (verify_iff_issued .integers staffActions_run).1
  have hbob : Authenticated .integers staffDatabase.users
      (credentials ("bob" : Text) ("pass" : Text)) 1
      { username := .text ("bob" : Text), password := .text (hash ("pass" : Text))
        permissions := .int 2 } { authLevel := 2, userID := 1 } :=
    { fields := by decide +kernel
      row := by decide +kernel
      username := by decide +kernel
      password := by decide +kernel
      only := by
        intro other found hget hname _
        have hmem := staffDatabase.users.get_eq_some_iff.mp hget
        simp only [staffDatabase, List.mem_cons, Prod.mk.injEq, List.not_mem_nil, or_false] at hmem
        rcases hmem with ⟨-, rfl⟩ | ⟨rfl, -⟩
        · exact absurd hname (by decide +kernel)
        · rfl
      userID := rfl
      authLevel := ⟨2, by decide +kernel, rfl⟩ }
  have hissued : IssuedSince .integers staffDatabase staffActions 8
      { authLevel := 2, userID := 1 } := by
    refine ⟨staffActions.take 1, staffActions[1], staffActions.drop 2, rfl, ⟨rfl, 1, _, hbob⟩, ?_⟩
    intro later hlater
    simp only [staffActions, List.drop_succ_cons, List.drop_zero, List.mem_cons,
      List.not_mem_nil, or_false] at hlater
    rcases hlater with rfl | rfl
    · have hother : getSessionID { cookie := ("auth=7" : Text) } ≠ some 8 := by decide +kernel
      exact hother
    · exact not_false
  refine ⟨hissued, (hverify _ _).mpr
    ⟨8, _, by decide +kernel, hissued, by decide⟩, ?_⟩
  rintro ⟨session, hadmin, hlevel⟩
  have hfound := (hverify { cookie := ("auth=7" : Text) } AuthLevel.client).mpr
    ⟨7, session, by decide +kernel, hadmin, hlevel⟩
  revert hfound
  decide +kernel

end WFA
