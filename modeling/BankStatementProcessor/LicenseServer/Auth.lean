import BankStatementProcessor.Infra.Hex
import BankStatementProcessor.Infra.Program
import BankStatementProcessor.Infra.Utf8Bytes
import BankStatementProcessor.LicenseServer.Db

/-!
# Server accounts

Login, session validation and logout, as programs whose actions are the statements they send to
the database one by one, and the routes that put a bearer token in front of them. Nothing here
writes a user. The audit log is left out: it is written on the side, and nothing reads it back.

`AuthLib` has the two hash functions.
-/

namespace LicenseServer

open Infra

inductive UserRole
  | customer
  | admin
  deriving DecidableEq, Repr

structure User where
  id : ℕ
  email : String
  passwordHash : String
  role : UserRole
  deriving DecidableEq, Repr

structure Session where
  id : ℕ
  userId : ℕ
  /-- The token itself is not stored. -/
  tokenHash : String
  createdAt : Timestamp
  expiresAt : Timestamp
  revokedAt : Option Timestamp
  deriving DecidableEq, Repr

structure NewSession where
  userId : ℕ
  tokenHash : String
  expiresAt : Timestamp
  deriving DecidableEq, Repr

structure AuthDb where
  users : Table User User.id
  sessions : Table Session Session.id
  email_unique : UniqueOn (fun u => some u.email) users.rows
  tokenHash_unique : UniqueOn (fun s => some s.tokenHash) sessions.rows
  session_user : ∀ s ∈ sessions.rows, ∃ u ∈ users.rows, u.id = s.userId

namespace AuthDb

variable (db : AuthDb)

theorem tokenHash_unique_empty :
    UniqueOn (fun s => some s.tokenHash) (Table.empty : Table Session Session.id).rows := .nil

/-- The same accounts, nobody logged in. -/
def withoutSessions : AuthDb where
  users := db.users
  sessions := .empty
  email_unique := db.email_unique
  tokenHash_unique := tokenHash_unique_empty
  session_user := by simp [Table.empty]

def findByEmail (email : String) : Option User := db.users.rows.find? (·.email = email)

def findById (id : ℕ) : Option User := db.users.get? id

def findByTokenHash (tokenHash : String) : Option Session :=
  db.sessions.rows.find? (·.tokenHash = tokenHash)

def newSession (txNow : Timestamp) (new : NewSession) (id : ℕ) : Session where
  id := id
  userId := new.userId
  tokenHash := new.tokenHash
  createdAt := txNow
  expiresAt := new.expiresAt
  revokedAt := none

/-- `INSERT INTO sessions ... RETURNING ...` -/
def insertSession (txNow : Timestamp) (new : NewSession) :
    Except RepositoryError Session × AuthDb :=
  if hkey : ∀ s ∈ db.sessions.rows, s.tokenHash ≠ new.tokenHash then
    if hfk : ∃ u ∈ db.users.rows, u.id = new.userId then
      (.ok (newSession txNow new db.sessions.nextId),
        { db with
          sessions := db.sessions.insert (newSession txNow new) (fun _ => rfl)
          tokenHash_unique := by
            refine db.tokenHash_unique.insert fun s hs b hb hsb => ?_
            cases hb
            exact hkey s hs (Option.some.inj hsb)
          session_user := by
            intro s hs
            rcases Table.mem_insert.mp hs with h | rfl
            · exact db.session_user s h
            · exact hfk })
    else (.error (.database "sessions_user_id_fkey"), db)
  else (.error (.database "sessions_token_hash_key"), db)

def revoked (txNow : Timestamp) (s : Session) : Session := { s with revokedAt := some txNow }

/-- `UPDATE sessions SET revoked_at = now() WHERE id = $1` -/
def revoke (txNow : Timestamp) (id : ℕ) : AuthDb :=
  { db with
    sessions := db.sessions.modify id (revoked txNow) (fun _ => rfl)
    tokenHash_unique := db.tokenHash_unique.modify (fun _ => rfl)
    session_user := by
      intro s hs
      obtain ⟨s₀, hs₀, rfl⟩ := Table.mem_modify.mp hs
      have := db.session_user s₀ hs₀
      split <;> exact this }

@[simp] theorem revoke_users {db : AuthDb} {txNow : Timestamp} {id : ℕ} :
    (db.revoke txNow id).users = db.users := rfl

theorem mem_revoke {db : AuthDb} {txNow : Timestamp} {id : ℕ} {s : Session} :
    s ∈ (db.revoke txNow id).sessions.rows ↔
      ∃ s₀ ∈ db.sessions.rows, (if s₀.id = id then revoked txNow s₀ else s₀) = s :=
  List.mem_map

/-- An insert is refused where another session has the hash, and does nothing then. -/
theorem insertSession_cases (db : AuthDb) (txNow : Timestamp) (new : NewSession) :
    (∃ e, db.insertSession txNow new = (.error e, db)) ∨
      ∃ db', (∀ s ∈ db.sessions.rows, s.tokenHash ≠ new.tokenHash) ∧ db'.users = db.users ∧
        db'.sessions.rows = db.sessions.rows ++ [newSession txNow new db.sessions.nextId] ∧
        db.insertSession txNow new = (.ok (newSession txNow new db.sessions.nextId), db') := by
  by_cases hkey : ∀ s ∈ db.sessions.rows, s.tokenHash ≠ new.tokenHash
  · by_cases hfk : ∃ u ∈ db.users.rows, u.id = new.userId
    · right
      unfold insertSession
      rw [dif_pos hkey, dif_pos hfk]
      refine ⟨_, hkey, ?_, ?_, rfl⟩
      · rfl
      · rfl
    · left
      unfold insertSession
      rw [dif_pos hkey, dif_neg hfk]
      exact ⟨_, rfl⟩
  · left
    unfold insertSession
    rw [dif_neg hkey]
    exact ⟨_, rfl⟩

/-- The owner is an account, so nothing but the hash can be in the way. -/
theorem insertSession_of_free {db : AuthDb} {txNow : Timestamp} {new : NewSession}
    (hkey : ∀ s ∈ db.sessions.rows, s.tokenHash ≠ new.tokenHash)
    (hfk : ∃ u ∈ db.users.rows, u.id = new.userId) :
    (db.insertSession txNow new).2.users = db.users ∧
      (db.insertSession txNow new).2.sessions.rows =
        db.sessions.rows ++ [newSession txNow new db.sessions.nextId] := by
  unfold insertSession
  rw [dif_pos hkey, dif_pos hfk]
  exact ⟨rfl, rfl⟩

end AuthDb

/-! ## Tokens -/

/-- Argon2 and SHA-256. -/
structure AuthLib where
  /-- It fails on a stored hash that cannot be read. -/
  verifyPassword : (plain hash : String) → Except String Bool
  sha256 : List UInt8 → List UInt8

/-- Tokens are 256 random bits. -/
def generateSessionToken (random : Vector UInt8 32) : String :=
  String.ofList (Hex.encode random.toList)

def hashToken (lib : AuthLib) (token : String) : String :=
  String.ofList (Hex.encode (lib.sha256 (asBytes token.toList)))

def dummyPasswordHash : String :=
  "$argon2id$v=19$m=19456,t=2,p=1$AR8yt1NfD9lMVlV1/oHSjw$4rwRmMWXaTJIQaKGaFNn0Dc8yoALxtlDBIfMMUUMYkA"

/-- `SESSION_LIFETIME_DAYS`, in microseconds. -/
def sessionLifetime : ℤ := 30 * 86400000000

/-- An unknown email costs a verification too. -/
def hashToVerify (user : Option User) : String :=
  (user.map User.passwordHash).getD dummyPasswordHash

/-! ## The service -/

inductive AuthError
  | invalidCredentials
  | unauthorized
  | forbidden
  | repository (e : RepositoryError)
  deriving DecidableEq, Repr

structure LoginOutcome where
  sessionToken : String
  userId : ℕ
  expiresAt : Timestamp
  deriving DecidableEq, Repr

/-- What an action sees from outside. -/
structure AuthEnv where
  now : Timestamp
  txNow : Timestamp
  random : Vector UInt8 32

abbrev AuthM := ExceptT AuthError (Prog AuthDb AuthEnv)

namespace AuthM

def query {α : Type} (f : AuthDb → α) : AuthM α := ExceptT.lift (Prog.query fun _ db => f db)

/-- `Utc::now()` -/
def clock : AuthM Timestamp := ExceptT.lift (Prog.query fun env _ => env.now)

def random : AuthM (Vector UInt8 32) := ExceptT.lift (Prog.query fun env _ => env.random)

def execute (f : Timestamp → AuthDb → AuthDb) : AuthM Unit :=
  ExceptT.lift (Prog.atomically fun env db => ((), f env.txNow db))

/-- A statement that can fail. -/
def insert {α : Type} (f : Timestamp → AuthDb → Except RepositoryError α × AuthDb) :
    AuthM (Except RepositoryError α) :=
  ExceptT.lift (Prog.atomically fun env db => f env.txNow db)

section

variable {α β : Type} {env : AuthEnv} {db db' : AuthDb}

/-- The call runs alone. -/
def eval (env : AuthEnv) (x : AuthM α) (db : AuthDb) : Except AuthError α × AuthDb :=
  Prog.eval env x.run db

@[simp] theorem eval_pure (a : α) : eval env (pure a) db = (.ok a, db) := rfl

@[simp] theorem eval_throw (e : AuthError) : eval env (throw e : AuthM α) db = (.error e, db) := rfl

@[simp] theorem eval_query_bind (g : AuthDb → α) (f : α → AuthM β) :
    eval env (query g >>= f) db = eval env (f (g db)) db := rfl

@[simp] theorem eval_clock_bind (f : Timestamp → AuthM β) :
    eval env (clock >>= f) db = eval env (f env.now) db := rfl

@[simp] theorem eval_random_bind (f : Vector UInt8 32 → AuthM β) :
    eval env (random >>= f) db = eval env (f env.random) db := rfl

@[simp] theorem eval_execute (g : Timestamp → AuthDb → AuthDb) :
    eval env (execute g) db = (.ok (), g env.txNow db) := rfl

@[simp] theorem eval_execute_bind (g : Timestamp → AuthDb → AuthDb) (f : Unit → AuthM β) :
    eval env (execute g >>= f) db = eval env (f ()) (g env.txNow db) := rfl

@[simp] theorem eval_insert_bind (g : Timestamp → AuthDb → Except RepositoryError α × AuthDb)
    (f : Except RepositoryError α → AuthM β) :
    eval env (insert g >>= f) db = eval env (f (g env.txNow db).1) (g env.txNow db).2 := rfl

theorem eval_bind_of_ok {x : AuthM α} {f : α → AuthM β} {a : α}
    (h : eval env x db = (.ok a, db')) : eval env (x >>= f) db = eval env (f a) db' := by
  have hrun := Prog.eval_bind env x.run (ExceptT.bindCont f) db
  unfold eval at h
  rw [h] at hrun
  exact hrun

theorem eval_bind_of_error {x : AuthM α} {f : α → AuthM β} {e : AuthError}
    (h : eval env x db = (.error e, db')) : eval env (x >>= f) db = (.error e, db') := by
  have hrun := Prog.eval_bind env x.run (ExceptT.bindCont f) db
  unfold eval at h
  rw [h] at hrun
  exact hrun

theorem eval_map (x : AuthM α) (f : α → β) :
    eval env (f <$> x) db = ((eval env x db).1.map f, (eval env x db).2) := by
  unfold eval
  rw [Prog.run_map, Prog.eval_map]

end

end AuthM

namespace AuthService

open AuthM

variable (lib : AuthLib)

/-- The part of `login` that follows the check of the password. -/
def issueSession (user : User) : AuthM LoginOutcome := do
  let token := generateSessionToken (← random)
  let expiresAt := (← clock) + sessionLifetime
  match ← insert fun txNow db =>
      db.insertSession txNow { userId := user.id, tokenHash := hashToken lib token, expiresAt } with
  | .error e => throw (.repository e)
  | .ok session =>
    pure { sessionToken := token, userId := user.id, expiresAt := session.expiresAt }

def login (email password : String) : AuthM LoginOutcome := do
  let user ← query (·.findByEmail email)
  match lib.verifyPassword password (hashToVerify user) with
  | .error e => throw (.repository (.invalidData s!"password hashing error: {e}"))
  | .ok verified =>
    match user, verified with
    | some user, true => issueSession lib user
    | some _, false => throw .invalidCredentials
    -- whatever the dummy hash says
    | none, _ => throw .invalidCredentials

def validateSession (token : String) : AuthM Session := do
  match ← query (·.findByTokenHash (hashToken lib token)) with
  | none => throw .unauthorized
  | some session =>
    -- for a revoked session the clock is not read
    if session.revokedAt.isSome then throw .unauthorized
    else
      let now ← clock
      if session.expiresAt ≤ now then throw .unauthorized else pure session

def requireAdmin (token : String) : AuthM Session := do
  let session ← validateSession lib token
  match ← query (·.findById session.userId) with
  | none => throw .unauthorized
  | some user => if user.role ≠ .admin then throw .forbidden else pure session

def logout (sessionId : ℕ) : AuthM Unit := execute fun txNow db => db.revoke txNow sessionId

end AuthService

/-! ## Routes -/

/-- The `Authorization` header, where there is one that is text. -/
def extractBearerToken (authorization : Option String) : Option String :=
  authorization.bind fun value =>
    (value.toList.dropPrefix? "Bearer ".toList).map String.ofList

inductive AuthCall
  | login (email password : String)
  /-- A route behind `require_session`. -/
  | session (authorization : Option String)
  /-- A route behind `require_admin`. -/
  | admin (authorization : Option String)
  | logout (authorization : Option String)
  deriving DecidableEq

inductive AuthOutcome
  | login (o : LoginOutcome)
  | session (s : Session)
  | admin (s : Session)
  | logout
  deriving DecidableEq, Repr

def AuthCall.run (lib : AuthLib) : AuthCall → AuthM AuthOutcome
  | .login email password => .login <$> AuthService.login lib email password
  | .session authorization =>
    match extractBearerToken authorization with
    | none => throw .unauthorized
    | some token => .session <$> AuthService.validateSession lib token
  | .admin authorization =>
    match extractBearerToken authorization with
    | none => throw .unauthorized
    | some token => .admin <$> AuthService.requireAdmin lib token
  | .logout authorization =>
    match extractBearerToken authorization with
    | none => throw .unauthorized
    | some token => do
      let session ← AuthService.validateSession lib token
      AuthService.logout session.id
      pure .logout

/-- The calls, none of which has begun. -/
def startAuth {κ : Type} (lib : AuthLib) (calls : κ → AuthCall) (db : AuthDb) :
    Pool AuthDb AuthEnv (Except AuthError AuthOutcome) κ where
  store := db
  calls := fun k => ((calls k).run lib).run

end LicenseServer
