-- SUMMARY: Live sessions belong to the account that logged in, as long as no row of a logged-in user is deleted.
import WFA.Server.UserRuns

/-!
# Accounts

A session holds a rowid and nothing else about its user, and rowids are used
again. An account is a row of the start or the row of one insert of the run, so that
it is told apart from a later one with its rowid, and the account a session was
issued to is the one whose name and password the login gave. `deleteUser` does not
look at the sessions: a run keeps every session with its account exactly as long as no
row of a user who is logged in is deleted.
-/

namespace WFA

open Text

/-! ## Runs -/

/-- Where a row of `USERS` comes from: it was there with its rowid at the start, or it is
the row of the insert with this number. -/
inductive Account where
  | atStart (id : Int)
  | inserted (serial : Nat)
  deriving DecidableEq, Repr

/-- The server with the inserts so far, the account each rowid stands for, and for each
session ID the account that logged in when it was last issued. -/
structure AccountState where
  server : Server
  inserts : Nat
  account : Int → Account
  owner : Nat → Option Account

section Runs

variable (p : Platform)

/-- The rowid of the row that has the name of the form and the hash of its password. -/
def credentialsRow (users : Table User) (b : Body) : Option Int :=
  (matchingUsers users ((b.getElement Field.username).getD [])
    ((b.getElement Field.password).getD [])).head?.map (·.1)

/-- What `request` issued: the ID of the session, and the row whose credentials the form has. -/
def issued (server : Server) (req : Request) (b : Body) (fresh : Nat) : Option (Nat × Int) :=
  match (request p server req b fresh).2 with
  | .granted _ => (credentialsRow server.database.users b).map (fresh, ·)
  | _ => none

def issuedBy (server : Server) : UserAction → Option (Nat × Int)
  | .authenticate req b fresh => issued p server req b fresh
  | .registerUser req b fresh => issued p (registered p server b) req b fresh
  | _ => none

def accountAfter (account : Int → Account) (inserts : Nat) : UserEvent → Int → Account
  | .inserted id _ _ _ => Function.update account id (.inserted inserts)
  | _ => account

def insertsAfter (inserts : Nat) : UserEvent → Nat
  | .inserted _ _ _ _ => inserts + 1
  | _ => inserts

def ownerAfter (owner : Nat → Option Account) (account : Int → Account) :
    Option (Nat × Int) → Nat → Option Account
  | some (sessionID, row) => Function.update owner sessionID (some (account row))
  | none => owner

def AccountState.step (state : AccountState) (action : UserAction) : AccountState :=
  let event := userEvent p state.server action
  let account := accountAfter state.account state.inserts event
  { server := userStep p state.server action
    inserts := insertsAfter state.inserts event
    account
    owner := ownerAfter state.owner account (issuedBy p state.server action) }

/-- Updates stay inside their quotes, and the row that is deleted is not one of a
user who is logged in. -/
def accountAllowed (server : Server) : UserAction → Prop
  | .updateUser _ b => wellQuoted b userRelations = true
  | .deleteUser req b => ∀ id row, DeleteAccepted p server req b id row →
    ∀ sessionID session, server.sessions sessionID = some session → (session.userID : Int) ≠ id
  | _ => True

/-- A run from any database, with no sessions. -/
def AccountRun (database : Database) : List UserAction → AccountState → Prop :=
  Run (AccountState.step p) (fun state action => accountAllowed p state.server action)
    { server := { database, sessions := fun _ => none }
      inserts := 0
      account := .atStart
      owner := fun _ => none }

end Runs

/-- Every session has the rowid of a row that is there, and the account of that row is the
one that logged in when the session was issued. -/
def Owned (state : AccountState) : Prop :=
  ∀ sessionID session, state.server.sessions sessionID = some session →
    (∃ row, state.server.database.users.get session.userID = some row) ∧
      state.owner sessionID = some (state.account session.userID)

section Steps

variable {p : Platform} {server : Server}

/-! ## One step -/

theorem Authenticated.credentialsRow {users : Table User} {b : Body} {id : Int} {user : User}
    {session : Session} (h : Authenticated p users b id user session) :
    credentialsRow users b = some id := by
  have hmatch := matchingUsers_eq_singleton_iff.mpr ⟨h.row, h.username, h.password, h.only⟩
  rw [WFA.credentialsRow, hmatch]
  rfl

/-- A session that is granted has the rowid of the row with the credentials, which is
there. -/
theorem issued_of_granted {req : Request} {b : Body} {fresh : Nat} {session : Session}
    (h : (request p server req b fresh).2 = .granted session) :
    issued p server req b fresh = some (fresh, (session.userID : Int)) ∧
      ∃ user, server.database.users.get session.userID = some user := by
  obtain ⟨id, user, hauthenticated⟩ := (request_authenticated_iff _ _ _).mp h
  refine ⟨?_, user, hauthenticated.userID ▸ hauthenticated.row⟩
  rw [issued, h, hauthenticated.credentialsRow, hauthenticated.userID]
  rfl

theorem issued_of_not_granted {req : Request} {b : Body} {fresh : Nat}
    (h : ∀ session, (request p server req b fresh).2 ≠ .granted session) :
    issued p server req b fresh = none := by
  unfold issued
  split
  · rename_i session hgranted
    exact absurd hgranted (h session)
  · rfl

/-- A session after a login is the one it issued, for the row with the credentials, or one
that was there. -/
theorem authenticate_sessions {req : Request} {b : Body} {fresh id : Nat} {session : Session}
    (h : (authenticate p server req b fresh).1.sessions id = some session) :
    (issued p server req b fresh = some (id, (session.userID : Int)) ∧
      ∃ user, server.database.users.get session.userID = some user) ∨
      server.sessions id = some session ∧ ∀ row, issued p server req b fresh ≠ some (id, row) := by
  rw [authenticate_fst] at h
  split at h
  · rename_i hall
    rw [request_fst p hall] at h
    cases hlogin : (request p server req b fresh).2 with
    | granted found =>
      obtain ⟨hissued, user, hget⟩ := issued_of_granted hlogin
      simp only [hlogin, Sessions.set] at h
      split at h
      · rename_i heq
        obtain rfl : found = session := Option.some.inj h
        exact .inl ⟨heq ▸ hissued, user, hget⟩
      · rename_i hne
        refine .inr ⟨(release_eq_some_iff.mp h).1, ?_⟩
        intro row hother
        rw [hissued] at hother
        exact hne (congrArg Prod.fst (Option.some.inj hother)).symm
    | denied =>
      simp only [hlogin] at h
      exact .inr ⟨(release_eq_some_iff.mp h).1, by simp [issued_of_not_granted, hlogin]⟩
    | aborted =>
      simp only [hlogin] at h
      exact .inr ⟨(release_eq_some_iff.mp h).1, by simp [issued_of_not_granted, hlogin]⟩
  · rename_i hall
    have hdenied : (request p server req b fresh).2 = .denied := by simp [request, hall]
    exact .inr ⟨h, by simp [issued_of_not_granted, hdenied]⟩

theorem userStep_sessions {action : UserAction} {id : Nat} {session : Session}
    (h : (userStep p server action).sessions id = some session) :
    (issuedBy p server action = some (id, (session.userID : Int)) ∧
      ∃ user, (userStep p server action).database.users.get session.userID = some user) ∨
      server.sessions id = some session ∧ ∀ row, issuedBy p server action ≠ some (id, row) := by
  cases action with
  | start => simp [userStep] at h
  | authenticate req b fresh =>
    simp only [userStep, authenticate_database]
    exact authenticate_sessions h
  | registerUser req b fresh =>
    simp only [userStep, registerUser_fst] at h ⊢
    split at h
    · rename_i hall
      rw [if_pos hall, authenticate_database]
      rcases authenticate_sessions h with hissued | ⟨hold, hnot⟩
      · exact .inl hissued
      · exact .inr ⟨registered_sessions p server b ▸ hold, hnot⟩
    · rename_i hall
      have hdenied : (request p (registered p server b) req b fresh).2 = .denied := by
        simp [request, hall]
      exact .inr ⟨h, by simp [issuedBy, issued_of_not_granted, hdenied]⟩
  | deauthenticate req =>
    simp only [userStep, deauthenticate_fst] at h
    exact .inr ⟨(release_eq_some_iff.mp h).1, by simp [issuedBy]⟩
  | createUser req b =>
    refine .inr ⟨?_, by simp [issuedBy]⟩
    rcases createUser_cases (p := p) server req b with
      ⟨-, row, users, -, hresult⟩ | ⟨⟨status, -, hresult⟩, -⟩
    · simpa only [userStep, hresult, Server.withUsers_sessions] using h
    · simpa only [userStep, hresult] using h
  | updateUser req b =>
    refine .inr ⟨?_, by simp [issuedBy]⟩
    rcases updateUser_cases (p := p) server req b with
      ⟨row, user, database, -, -, hresult⟩ | ⟨hsame, -⟩
    · simpa only [userStep, hresult] using h
    · simpa only [userStep, hsame] using h
  | deleteUser req b =>
    refine .inr ⟨?_, by simp [issuedBy]⟩
    rcases deleteUser_cases (p := p) server req b with hsame | ⟨row, user, -, hresult⟩
    · simpa only [userStep, hsame] using h
    · simpa only [userStep, hresult, Server.withUsers_sessions] using h
  | other database => exact .inr ⟨h, by simp [issuedBy]⟩

/-- Only an accepted request to `deleteUser` deletes a row. -/
theorem accepted_of_deleted {action : UserAction} {id : Int}
    (h : userEvent p server action = .deleted id) :
    ∃ req b row, action = .deleteUser req b ∧ DeleteAccepted p server req b id row := by
  have hinsert : ∀ b permissions writer inserted,
      insertEvent p b permissions writer inserted ≠ .deleted id := by
    intro b permissions writer inserted
    cases inserted <;> simp [insertEvent]
  cases action with
  | start =>
    simp only [userEvent] at h
    split at h <;> cases h
  | registerUser req b fresh =>
    simp only [userEvent] at h
    split at h
    · exact absurd h (hinsert _ _ _ _)
    · cases h
  | createUser req b =>
    simp only [userEvent] at h
    split at h
    · exact absurd h (hinsert _ _ _ _)
    · cases h
  | updateUser req b =>
    simp only [userEvent] at h
    split at h
    · split at h
      · split at h <;> cases h
      · cases h
    · cases h
  | deleteUser req b =>
    simp only [userEvent] at h
    split at h
    · rename_i found hid
      split at h
      · rename_i hgone
        obtain rfl := UserEvent.deleted.inj h
        simp only [Bool.and_eq_true, Option.isSome_iff_ne_none, Option.isNone_iff_eq_none] at hgone
        rcases deleteUser_cases (p := p) server req b with hsame | ⟨other, row, haccepted, -⟩
        · exact absurd (hsame ▸ hgone.2) hgone.1
        · obtain rfl : found = other := Value.int.inj (hid.symm.trans haccepted.names)
          exact ⟨req, b, row, rfl, haccepted⟩
      · cases h
    · cases h
  | _ => cases h

theorem quoted_of_allowed {action : UserAction} (h : accountAllowed p server action) :
    action.quoted = true := by
  cases action with
  | updateUser req b => exact h
  | _ => rfl

/-- A row of a live session is the same row after an allowed step. -/
theorem row_kept {action : UserAction} (hallowed : accountAllowed p server action)
    {sessionID : Nat} {session : Session} (hlive : server.sessions sessionID = some session)
    (hrow : ∃ row, server.database.users.get session.userID = some row) (account : Int → Account)
    (inserts : Nat) :
    (∃ row, (userStep p server action).database.users.get session.userID = some row) ∧
      accountAfter account inserts (userEvent p server action) session.userID =
        account session.userID := by
  obtain ⟨row, hget⟩ := hrow
  have hdescribes : (userEvent p server action).Describes p server.database.users
      (userStep p server action).database.users :=
    userStep_describes (quoted_of_allowed hallowed)
  cases hevent : userEvent p server action with
  | none =>
    rw [hevent] at hdescribes
    cases hdescribes with
    | none hsame => exact ⟨⟨row, by rw [hsame, hget]⟩, rfl⟩
  | inserted id new writer password =>
    rw [hevent] at hdescribes
    cases hdescribes with
    | inserted hid hnew hfree hne hpassword hafter =>
      have hother : (session.userID : Int) ≠ id := by
        rintro rfl
        simp [hnew] at hget
      exact ⟨⟨row, by rw [hafter, if_neg hother, hget]⟩, by simp [accountAfter, hother]⟩
  | updated id new set =>
    rw [hevent] at hdescribes
    cases hdescribes with
    | updated hold hfree hpassword hafter =>
      refine ⟨?_, rfl⟩
      rw [hafter]
      split
      · exact ⟨new, rfl⟩
      · exact ⟨row, hget⟩
  | deleted id =>
    obtain ⟨req, b, old, rfl, haccepted⟩ := accepted_of_deleted hevent
    have hother := hallowed id old haccepted sessionID session hlive
    rw [hevent] at hdescribes
    cases hdescribes with
    | deleted hold hafter => exact ⟨⟨row, by rw [hafter, if_neg hother, hget]⟩, rfl⟩

theorem Owned.step {state : AccountState} (h : Owned state) {action : UserAction}
    (hallowed : accountAllowed p state.server action) : Owned (state.step p action) := by
  intro sessionID session hsession
  simp only [AccountState.step] at hsession ⊢
  rcases userStep_sessions hsession with ⟨hissued, hrow⟩ | ⟨hold, hnot⟩
  · refine ⟨hrow, ?_⟩
    simp [hissued, ownerAfter]
  · obtain ⟨hrow, howner⟩ := h sessionID session hold
    obtain ⟨hkept, haccount⟩ := row_kept hallowed hold hrow state.account state.inserts
    refine ⟨hkept, ?_⟩
    rw [haccount, ← howner]
    cases hissued : issuedBy p state.server action with
    | none => rfl
    | some issue =>
      have hne : sessionID ≠ issue.1 := by
        rintro rfl
        exact hnot issue.2 hissued
      simp [ownerAfter, hne]

/-- The session of a deleted row stays. -/
theorem not_owned_of_deleted {state : AccountState} {req : Request} {b : Body} {id : Int}
    {row : User} (haccepted : DeleteAccepted p state.server req b id row) {sessionID : Nat}
    {session : Session} (hlive : state.server.sessions sessionID = some session)
    (hid : (session.userID : Int) = id) : ¬ Owned (state.step p (.deleteUser req b)) := by
  intro howned
  have hresult := deleteUser_of_accepted haccepted
  have hsession : (state.step p (.deleteUser req b)).server.sessions sessionID = some session := by
    simpa only [AccountState.step, userStep, hresult, Server.withUsers_sessions] using hlive
  obtain ⟨⟨found, hget⟩, -⟩ := howned sessionID session hsession
  simp only [AccountState.step, userStep, hresult, Server.withUsers_users] at hget
  rw [delete_isId_get _ haccepted.names, if_pos hid] at hget
  cases hget

/-! ## Runs -/

theorem AccountRun.owned {database : Database} {actions : List UserAction} {state : AccountState}
    (h : AccountRun p database actions state) : Owned state := by
  refine Run.invariant (P := Owned) ?_ (fun _ _ howned hallowed => howned.step hallowed) h
  intro sessionID session hsession
  simp at hsession

theorem getLocalUserData_ne_undefined (hlaw : p.Lawful) {state : AccountState} (h : Owned state)
    (req : Request) : (getLocalUserData p state.server req).2 ≠ .undefined := by
  unfold getLocalUserData
  cases huser : state.server.sessions.getSessionUser req with
  | none => simp
  | some user =>
    obtain ⟨session, hcurrent, rfl⟩ := Option.map_eq_some_iff.mp huser
    obtain ⟨sessionID, -, hsession⟩ := Option.bind_eq_some_iff.mp hcurrent
    obtain ⟨⟨row, hget⟩, -⟩ := h sessionID session hsession
    have hbound : session.userID < 2 ^ 63 := by
      have := state.server.database.users.get_lt hget
      omega
    have hid : p.isId session.userID (ofNat session.userID) = true := by
      simp [Platform.isId, hlaw.numeric_ofNat _ hbound]
    have hmem : ((session.userID : Int), row) ∈ state.server.database.users.select
        fun id _ => p.isId id (ofNat session.userID) :=
      state.server.database.users.mem_select.mpr ⟨hget, hid⟩
    simp only
    split
    · rename_i hnil
      rw [hnil] at hmem
      simp at hmem
    · simp

/-- In every state reached without deleting the row of a user who is logged in,
every session belongs to the account it was issued to, and its user is found. A
deletion of such a row leaves a session without an account. -/
theorem sessions_owned (hlaw : p.Lawful) {database : Database} {actions : List UserAction}
    {state : AccountState} (h : AccountRun p database actions state) :
    (∀ sessionID session, state.server.sessions sessionID = some session →
      (∃ row, state.server.database.users.get session.userID = some row) ∧
        state.owner sessionID = some (state.account session.userID)) ∧
    (∀ req, (getLocalUserData p state.server req).2 ≠ .undefined) ∧
    (∀ req b id row sessionID session, DeleteAccepted p state.server req b id row →
      state.server.sessions sessionID = some session → (session.userID : Int) = id →
      ¬ Owned (state.step p (.deleteUser req b))) := by
  have howned := h.owned
  refine ⟨howned, getLocalUserData_ne_undefined hlaw howned, ?_⟩
  intro req b id row sessionID session haccepted hlive hid
  exact not_owned_of_deleted haccepted hlive hid

end Steps

/-! ## Runs with deletions -/

/-- The states of a run from a database without sessions. -/
def accountsAfter (database : Database) (actions : List UserAction) : AccountState :=
  actions.foldl (AccountState.step .integers)
    { server := { database, sessions := fun _ => none }
      inserts := 0
      account := .atStart
      owner := fun _ => none }

def adminAction : UserAction :=
  .authenticate { cookie := [] } (credentials adminName adminName) 7

/-- The administrator's request to delete a row. -/
def deleteAction (id : Text) : UserAction :=
  .deleteUser { cookie := ("auth=7" : Text) } (.ofList [(Field.id, id)])

/-- The administrator logs in and deletes his own row: the session stays and its user
cannot be found any more. -/
theorem session_orphaned :
    AccountRun .integers (adminDatabase .integers) [adminAction]
      (accountsAfter (adminDatabase .integers) [adminAction]) ∧
    ¬ Owned (accountsAfter (adminDatabase .integers) [adminAction, deleteAction ("0" : Text)]) ∧
    (getLocalUserData .integers
      (accountsAfter (adminDatabase .integers) [adminAction, deleteAction ("0" : Text)]).server
      { cookie := ("auth=7" : Text) }).2 = .undefined := by
  refine ⟨Run.snoc Run.nil trivial, ?_, ?_⟩
  · intro howned
    obtain ⟨⟨row, hget⟩, -⟩ := howned 7 { authLevel := 3, userID := 0 } (by decide +kernel)
    have hnone : (accountsAfter (adminDatabase .integers)
        [adminAction, deleteAction ("0" : Text)]).server.database.users.get 0 = none := by
      decide +kernel
    rw [Nat.cast_zero, hnone] at hget
    cases hget
  · rfl

/-- The administrator and Bob log in, Bob logs out, his row is deleted, and Eve's account
gets its rowid. -/
def staffTurnover : List UserAction :=
  [adminAction,
    .authenticate { cookie := [] } (credentials ("bob" : Text) ("pass" : Text)) 8,
    .deauthenticate { cookie := ("auth=8" : Text) },
    deleteAction ("1" : Text),
    .createUser { cookie := ("auth=7" : Text) } (.ofList [(Field.username, ("eve" : Text)),
      (Field.password, ("word" : Text)), (Field.permission, ("1" : Text))])]

/-- Bob has no session when his row is deleted. -/
theorem staffTurnover_run : AccountRun .integers staffDatabase staffTurnover
    (accountsAfter staffDatabase staffTurnover) := by
  have hstart : AccountRun .integers staffDatabase [] (accountsAfter staffDatabase []) := Run.nil
  have hadmin : AccountRun .integers staffDatabase (staffTurnover.take 1) _ :=
    Run.snoc hstart trivial
  have hbob : AccountRun .integers staffDatabase (staffTurnover.take 2) _ :=
    Run.snoc hadmin trivial
  have hreleased : AccountRun .integers staffDatabase (staffTurnover.take 3) _ :=
    Run.snoc hbob trivial
  refine Run.snoc (show AccountRun .integers staffDatabase (staffTurnover.take 4) _ from
    Run.snoc hreleased ?_) trivial
  intro id row haccepted sessionID session hlive hid
  have hone : Platform.integers.numeric ("1" : Text) = .int 1 := by decide +kernel
  obtain rfl : 1 = id := Value.int.inj (hone.symm.trans haccepted.names)
  have hsessions : (accountsAfter staffDatabase (staffTurnover.take 3)).server.sessions =
      Sessions.erase (Sessions.set (Sessions.set (fun _ => none) 7 { authLevel := 3, userID := 0 }) 8
        { authLevel := 2, userID := 1 }) 8 := rfl
  change (accountsAfter staffDatabase (staffTurnover.take 3)).server.sessions sessionID =
    some session at hlive
  rw [hsessions] at hlive
  simp only [Sessions.erase, Sessions.set] at hlive
  split at hlive
  · cases hlive
  · split at hlive
    · obtain rfl := Option.some.inj hlive
      cases hid
    · cases hlive

/-- The administrator's session is still his; Bob's rowid is the account of the first
insert. -/
theorem sessions_owned_staff :
    (accountsAfter staffDatabase staffTurnover).account 1 = .inserted 0 ∧
      (accountsAfter staffDatabase staffTurnover).owner 7 =
        some ((accountsAfter staffDatabase staffTurnover).account 0) ∧
      (getLocalUserData .integers (accountsAfter staffDatabase staffTurnover).server
        { cookie := ("auth=7" : Text) }).2 ≠ .undefined := by
  have hsession : (accountsAfter staffDatabase staffTurnover).server.sessions 7 =
      some { authLevel := 3, userID := 0 } := by decide +kernel
  have howned := sessions_owned Platform.integers_lawful staffTurnover_run
  exact ⟨by decide +kernel, (howned.1 7 _ hsession).2, howned.2.1 _⟩

end WFA
