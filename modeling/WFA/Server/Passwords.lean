-- SUMMARY: Which accounts can log in with the password that was last set for them.
import WFA.Server.UserRuns

/-!
# Passwords

`request` looks for the hash of a password. `main` stores the hash, but
`registerUser`, `createUser` and `updateUser` store the text itself, so an account
works exactly as long as its password is the one that `main` set (or one that
`updateUser` copied from a column which happened to hold the hash).
-/

namespace WFA

open Text

/-! ## The hash -/

theorem hash_injective : Function.Injective hash := by
  intro s t h
  refine List.map_injective_iff.mpr ?_ h
  intro a b hab
  simpa using congrArg (~~~ ·) hab

theorem hash_ne {t : Text} (h : t ≠ []) : hash t ≠ t := by
  cases t with
  | nil => exact absurd rfl h
  | cons b t =>
    intro heq
    have hbyte : ∀ b : Byte, ~~~b ≠ b := by decide +kernel
    exact hbyte b (List.cons.inj heq).1

@[simp] theorem length_hash (t : Text) : (hash t).length = t.length := by
  simp [hash]

/-- A token is its value, or shorter where quotes were doubled. -/
theorem unquote_eq_or_shorter (t : Text) :
    ∀ inner, unquote t = some inner → inner = t ∨ inner.length < t.length := by
  fun_induction unquote t with
  | case1 => simp
  | case2 => simp
  | case3 => simp
  | case4 => simp
  | case5 b c t hzero hquote hnext ih =>
    intro inner h
    obtain ⟨rest, hrest, rfl⟩ := Option.map_eq_some_iff.mp h
    rcases ih rest hrest with rfl | hlt
    · exact .inr (by simp)
    · exact .inr (by simp; omega)
  | case6 => simp
  | case7 b c t hzero hquote ih =>
    intro inner h
    obtain ⟨rest, hrest, rfl⟩ := Option.map_eq_some_iff.mp h
    rcases ih rest hrest with rfl | hlt
    · exact .inl rfl
    · exact .inr (by simpa using hlt)

theorem unquote_ne_hash {t inner : Text} (h : unquote t = some inner) (hne : t ≠ []) :
    inner ≠ hash t := by
  rintro rfl
  rcases unquote_eq_or_shorter t _ h with heq | hlt
  · exact hash_ne hne heq
  · simp at hlt

/-- Which writers store the hash of a password. -/
theorem stored_eq_hash_iff {p : Platform} {writer : Writer} {password : Text}
    (hne : password ≠ []) :
    writer.stored p password = .text (hash password) ↔
      writer = .main ∨
        ∃ value, writer = .column value ∧ p.textAffinity value = .text (hash password) := by
  cases writer with
  | main => simp [Writer.stored]
  | registerUser => simp [Writer.stored, (hash_ne hne).symm]
  | createUser => simp [Writer.stored, (hash_ne hne).symm]
  | updateUser =>
    simp only [Writer.stored, Value.text.injEq, reduceCtorEq, false_and, exists_false, or_self,
      iff_false]
    cases hunquote : unquote password with
    | none =>
      intro heq
      exact hne (by simpa [hash] using heq.symm)
    | some inner => exact unquote_ne_hash hunquote hne
  | column value => simp [Writer.stored]

/-! ## Runs -/

/-- The server, and for each row of `USERS` who set its password last and to what. -/
structure PasswordState where
  server : Server
  setter : Int → Option (Writer × Text)

def setterAfter (setter : Int → Option (Writer × Text)) : UserEvent → Int → Option (Writer × Text)
  | .none => setter
  | .inserted id _ writer password => Function.update setter id (some (writer, password))
  | .updated _ _ none => setter
  | .updated id _ (some set) => Function.update setter id (some set)
  | .deleted id => Function.update setter id none

def PasswordState.step (p : Platform) (state : PasswordState) (action : UserAction) :
    PasswordState where
  server := userStep p state.server action
  setter := setterAfter state.setter (userEvent p state.server action)

/-- A run from an empty table of users, any sessions and any other tables. -/
def PasswordRun (p : Platform) (database : Database) (sessions : Sessions) :
    List UserAction → PasswordState → Prop :=
  Run (PasswordState.step p) (fun _ action => action.quoted = true)
    { server := { database := { database with users := .empty }, sessions }
      setter := fun _ => none }

/-- Rowids are not negative, names are unique, and every password is what its
last writer stores. -/
structure PasswordsTracked (p : Platform) (users : Table User)
    (setter : Int → Option (Writer × Text)) : Prop where
  nonneg : ∀ id row, users.get id = some row → 0 ≤ id
  names : ∀ id id' row row', users.get id = some row → users.get id' = some row' →
    row.username = row'.username → id = id'
  stored : ∀ id row, users.get id = some row → ∃ writer password,
    setter id = some (writer, password) ∧ password ≠ [] ∧
      row.password = writer.stored p password

theorem nextId_nonneg {α : Type} {t : Table α} (h : ∀ id a, t.get id = some a → 0 ≤ id) :
    0 ≤ t.nextId := by
  unfold Table.nextId
  cases hlast : t.rows.getLast? with
  | none => simp
  | some row =>
    have hget : t.get row.1 = some row.2 := t.get_eq_some_iff.mpr (List.mem_of_getLast? hlast)
    have := h row.1 row.2 hget
    simp only
    omega

section Tracked

variable {p : Platform} {users users' : Table User} {setter : Int → Option (Writer × Text)}

/-- A name that no other row has keeps the names apart. -/
theorem names_of_nameFree {id : Int} {row : User}
    (hnames : ∀ id id' row row', users.get id = some row → users.get id' = some row' →
      row.username = row'.username → id = id')
    (hfree : NameFree users id row)
    (hget : ∀ other, users'.get other = if other = id then some row else users.get other)
    (a a' : Int) (r r' : User) (ha : users'.get a = some r) (ha' : users'.get a' = some r')
    (hname : r.username = r'.username) : a = a' := by
  rw [hget] at ha ha'
  split at ha
  · rename_i heq
    split at ha'
    · rename_i heq'
      rw [heq, heq']
    · rename_i hne
      obtain rfl := Option.some.inj ha
      exact absurd hname.symm (hfree a' r' hne ha')
  · rename_i hne
    split at ha'
    · obtain rfl := Option.some.inj ha'
      exact absurd hname (hfree a r hne ha)
    · exact hnames a a' r r' ha ha' hname

theorem PasswordsTracked.step (h : PasswordsTracked p users setter) {event : UserEvent}
    (hevent : event.Describes p users users') :
    PasswordsTracked p users' (setterAfter setter event) := by
  cases hevent with
  | none hsame =>
    subst hsame
    exact h
  | @inserted id row writer password hid hnew hfree hne hpassword hget =>
    refine ⟨?_, names_of_nameFree h.names hfree hget, ?_⟩
    · intro other found hother
      rw [hget] at hother
      split at hother
      · rename_i heq
        rw [heq]
        rcases hid with rfl | rfl
        · exact le_refl 0
        · exact nextId_nonneg h.nonneg
      · exact h.nonneg other found hother
    · intro other found hother
      rw [hget] at hother
      split at hother
      · rename_i heq
        obtain rfl := Option.some.inj hother
        exact ⟨writer, password, by simp [setterAfter, heq], hne, hpassword⟩
      · rename_i hother_ne
        simp only [setterAfter, Function.update_of_ne hother_ne]
        exact h.stored other found hother
  | @updated id old row set hold hfree hpassword hget =>
    refine ⟨?_, names_of_nameFree h.names hfree hget, ?_⟩
    · intro other found hother
      rw [hget] at hother
      split at hother
      · rename_i heq
        rw [heq]
        exact h.nonneg id old hold
      · exact h.nonneg other found hother
    · intro other found hother
      rw [hget] at hother
      cases set with
      | none =>
        simp only [setterAfter]
        split at hother
        · rename_i heq
          obtain rfl := Option.some.inj hother
          obtain ⟨writer, password, hset, hne, hstored⟩ := h.stored id old hold
          exact ⟨writer, password, heq ▸ hset, hne, hpassword.trans hstored⟩
        · exact h.stored other found hother
      | some set =>
        split at hother
        · rename_i heq
          obtain rfl := Option.some.inj hother
          exact ⟨set.1, set.2, by simp [setterAfter, heq], hpassword.1, hpassword.2⟩
        · rename_i hne
          simp only [setterAfter, Function.update_of_ne hne]
          exact h.stored other found hother
  | @deleted id old hold hget =>
    -- What is left was there before.
    have hkept : ∀ other found, users'.get other = some found →
        other ≠ id ∧ users.get other = some found := by
      intro other found hother
      rw [hget] at hother
      split at hother
      · simp at hother
      · rename_i hne
        exact ⟨hne, hother⟩
    refine ⟨?_, ?_, ?_⟩
    · intro other found hother
      exact h.nonneg other found (hkept other found hother).2
    · intro a a' r r' ha ha' hname
      exact h.names a a' r r' (hkept a r ha).2 (hkept a' r' ha').2 hname
    · intro other found hother
      obtain ⟨hne, hother⟩ := hkept other found hother
      simp only [setterAfter, Function.update_of_ne hne]
      exact h.stored other found hother

theorem PasswordRun.tracked {database : Database} {sessions : Sessions}
    {actions : List UserAction} {state : PasswordState}
    (h : PasswordRun p database sessions actions state) :
    PasswordsTracked p state.server.database.users state.setter :=
  Run.invariant (P := fun state => PasswordsTracked p state.server.database.users state.setter)
    ⟨by simp, by simp, by simp⟩
    (fun _ _ htracked hquoted => htracked.step (userStep_describes hquoted)) h

/-! ## Logging in -/

theorem sessionOf_isSome {id : Int} {row : User} (hid : 0 ≤ id) (hbound : id < 2 ^ 63) :
    (sessionOf p id row).isSome = (userLevel p row).isSome := by
  have hread : fromChars uint64Max (p.columnText (.int id)) = some id.toNat := by
    have hnat : ofInt id = ofNat id.toNat := by
      rw [ofInt, if_neg (not_lt.mpr hid)]
      congr 1
      omega
    have hmax : id.toNat ≤ uint64Max := by
      unfold uint64Max
      omega
    simp only [Platform.columnText, hnat]
    exact fromChars_ofNat hmax
  simp only [sessionOf, hread]
  cases userLevel p row <;> rfl

/-- Who logs in with a name and a password: the row with the name, when it holds
the hash. -/
theorem login_granted_iff (h : PasswordsTracked p users setter) {id : Int} {row : User}
    {username password : Text} (hget : users.get id = some row)
    (hname : row.username = .text username) :
    (∃ session, login p users username password = .granted session) ↔
      row.password = .text (hash password) ∧ (userLevel p row).isSome := by
  rw [← sessionOf_isSome (h.nonneg id row hget) (users.get_lt hget)]
  by_cases hpassword : row.password = .text (hash password)
  · have hone : matchingUsers users username password = [(id, row)] := by
      refine users.select_eq_singleton hget (by simp [hname, hpassword]) ?_
      intro other user hother hboth
      simp only [Bool.and_eq_true, beq_iff_eq] at hboth
      exact h.names other id user row hother hget (hboth.1.trans hname.symm)
    simp only [login, hone]
    cases sessionOf p id row <;> simp [hpassword]
  · have hnone : matchingUsers users username password = [] := by
      refine users.select_eq_nil ?_
      intro other user hother
      simp only [Bool.and_eq_false_iff, beq_eq_false_iff_ne]
      by_cases husername : user.username = .text username
      · obtain rfl := h.names other id user row hother hget (husername.trans hname.symm)
        obtain rfl := Option.some.inj (hother.symm.trans hget)
        exact .inr hpassword
      · exact .inl husername
    simp [login, hnone, hpassword]

/-- `request` is `login` once both fields are there. -/
theorem request_granted_iff {server : Server} {req : Request} {b : Body} {fresh : Nat}
    {username password : Text} (husername : b.getElement Field.username = some username)
    (hpassword : b.getElement Field.password = some password) :
    (∃ session, (request p server req b fresh).2 = .granted session) ↔
      username ≠ [] ∧ password ≠ [] ∧
        ∃ session, login p server.database.users username password = .granted session := by
  have hall : b.containsAll [Field.username, Field.password] = true ↔
      username ≠ [] ∧ password ≠ [] := by
    simp [QueryBase.containsAll, QueryBase.hasElement_iff, husername, hpassword]
  unfold request
  split
  · rename_i hfields
    rw [Bool.not_eq_true', ← Bool.not_eq_true, hall] at hfields
    constructor
    · rintro ⟨session, hsession⟩
      cases hsession
    · rintro ⟨hname, hword, -⟩
      exact absurd ⟨hname, hword⟩ hfields
  · rename_i hfields
    rw [Bool.not_eq_true', Bool.not_eq_false, hall] at hfields
    simp only [husername, hpassword, Option.getD_some, hfields.1, hfields.2, ne_eq,
      not_false_eq_true, true_and]
    cases login p server.database.users username password <;> simp

end Tracked

/-- `request` with this name accepts this password and no other. -/
def PasswordWorks (p : Platform) (server : Server) (username password : Text) : Prop :=
  ∀ req b fresh x, b.getElement Field.username = some username →
    b.getElement Field.password = some x → x ≠ [] →
    ((∃ session, (request p server req b fresh).2 = .granted session) ↔ x = password)

section Works

variable {p : Platform}

theorem passwordWorks_iff_stored {server : Server} {setter : Int → Option (Writer × Text)}
    (h : PasswordsTracked p server.database.users setter) {id : Int} {row : User}
    {username password : Text} (hget : server.database.users.get id = some row)
    (hname : row.username = .text username) (hne : password ≠ []) :
    PasswordWorks p server username password ↔
      username ≠ [] ∧ (userLevel p row).isSome ∧ row.password = .text (hash password) := by
  constructor
  · intro hworks
    obtain ⟨hb, hx⟩ := getElement_credentials username password
    have hgranted := (hworks { cookie := [] } (credentials username password) 1 password hb hx
      hne).mpr rfl
    rw [request_granted_iff hb hx, login_granted_iff h hget hname] at hgranted
    exact ⟨hgranted.1, hgranted.2.2.2, hgranted.2.2.1⟩
  · rintro ⟨husername, hlevel, hpassword⟩ req b fresh x hb hx hxne
    rw [request_granted_iff hb hx, login_granted_iff h hget hname, hpassword]
    simp only [husername, hxne, hlevel, ne_eq, not_false_eq_true, true_and, and_true,
      Value.text.injEq]
    exact ⟨fun heq => (hash_injective heq).symm, fun heq => by rw [heq]⟩

/-- The row that `registerUser` has just inserted holds the password itself. -/
theorem registered_not_granted {server : Server} {setter : Int → Option (Writer × Text)}
    (h : PasswordsTracked p server.database.users setter) {req : Request} {b : Body} {fresh : Nat}
    (hall : b.containsAll [Field.username, Field.password] = true)
    (hinsert : (registerInsert p server.database.users b).isSome = true) (session : Session) :
    (request p (registered p server b) req b fresh).2 ≠ .granted session := by
  obtain ⟨⟨id, users⟩, hinserted⟩ := Option.isSome_iff_exists.mp hinsert
  obtain ⟨username, husername, -⟩ := QueryBase.hasElement_iff.mp
    (List.all_eq_true.mp hall Field.username (by simp))
  obtain ⟨password, hpassword, hne⟩ := QueryBase.hasElement_iff.mp
    (List.all_eq_true.mp hall Field.password (by simp))
  have hevent : (insertEvent p b (.int 1) .registerUser (some (id, users))).Describes p
      server.database.users users :=
    describes_insert (getElement_ne_nil hall (by simp)) (fun _ => rfl) hinserted
  have hget := (insertUser_get hinserted).2 id
  rw [if_pos rfl, husername, hpassword, Option.getD_some, Option.getD_some] at hget
  intro hgranted
  have hlogin := (request_granted_iff husername hpassword).mp ⟨session, hgranted⟩
  simp only [registered, hinserted] at hlogin
  rw [login_granted_iff (h.step hevent) hget rfl] at hlogin
  exact hash_ne hne (Value.text.inj hlogin.2.2.1).symm

/-- In every state reached by updates whose values stay inside their quotes: an
account works with the password that was last set for it exactly when `main` set
it, or `updateUser` copied it from a column that held its hash, and the account
can log in at all, which takes a name and readable permissions. A registration
never logs the new account in. -/
theorem passwordWorks_iff {database : Database} {sessions : Sessions}
    {actions : List UserAction} {state : PasswordState}
    (h : PasswordRun p database sessions actions state) :
    (∀ id row username writer password, state.server.database.users.get id = some row →
      row.username = .text username → state.setter id = some (writer, password) →
      (PasswordWorks p state.server username password ↔
        username ≠ [] ∧ (userLevel p row).isSome ∧
          (writer = .main ∨ ∃ value, writer = .column value ∧
            p.textAffinity value = .text (hash password)))) ∧
    (∀ req b fresh session, b.containsAll [Field.username, Field.password] = true →
      (registerInsert p state.server.database.users b).isSome = true →
      (request p (registered p state.server b) req b fresh).2 ≠ .granted session) := by
  have htracked := h.tracked
  refine ⟨?_, ?_⟩
  · intro id row username writer password hget hname hset
    obtain ⟨writer', password', hset', hne, hstored⟩ := htracked.stored id row hget
    obtain ⟨rfl, rfl⟩ := Prod.mk.inj (Option.some.inj (hset.symm.trans hset'))
    rw [passwordWorks_iff_stored htracked hget hname hne, hstored, stored_eq_hash_iff hne]
  · intro req b fresh session hall hinsert
    exact registered_not_granted htracked hall hinsert session

end Works

/-! ## An account that does not work, and one that does -/

def registration : UserAction :=
  .registerUser { cookie := [] } (credentials ("bob" : Text) ("pass" : Text)) 7

def firstState (action : UserAction) : PasswordState :=
  PasswordState.step .integers
    { server := { database := {}, sessions := fun _ => none }, setter := fun _ => none } action

theorem firstState_run {action : UserAction} (h : action.quoted = true) :
    PasswordRun .integers {} (fun _ => none) [action] (firstState action) :=
  Run.snoc Run.nil h

/-- The text that was registered is refused. -/
theorem password_refused :
    PasswordRun .integers {} (fun _ => none) [registration] (firstState registration) ∧
    (firstState registration).setter 1 = some (.registerUser, ("pass" : Text)) ∧
    (firstState registration).server.database.users.get 1 =
      some (newUser .integers ("bob" : Text) ("pass" : Text) (.int 1)) ∧
    ¬ PasswordWorks .integers (firstState registration).server ("bob" : Text)
      ("pass" : Text) := by
  refine ⟨firstState_run rfl, by decide +kernel, by decide +kernel, ?_⟩
  intro hworks
  obtain ⟨hb, hx⟩ := getElement_credentials ("bob" : Text) ("pass" : Text)
  obtain ⟨session, hgranted⟩ := (hworks { cookie := [] } _ 8 _ hb hx (by decide +kernel)).mpr rfl
  have hdenied : (request .integers (firstState registration).server { cookie := [] }
      (credentials ("bob" : Text) ("pass" : Text)) 8).2 = .denied := by decide +kernel
  rw [hdenied] at hgranted
  cases hgranted

theorem password_admin :
    PasswordWorks .integers (firstState .start).server adminName adminName :=
  ((passwordWorks_iff (firstState_run rfl)).1 0 (adminUser .integers) adminName .main adminName
    (by decide +kernel) rfl (by decide +kernel)).mpr
    ⟨by decide +kernel, by decide +kernel, .inl rfl⟩

end WFA
