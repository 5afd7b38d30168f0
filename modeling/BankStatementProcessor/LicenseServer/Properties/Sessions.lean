import BankStatementProcessor.LicenseServer.AuthCalls

/-!
# Sessions

* `session_needs_password` — whichever way the calls interleave, a session that is accepted belongs
  to an account that some login of the run has named with the right password
* `session_stays_over` — a session that is logged out, or has expired, is not accepted again
* `session_law` — of calls that follow one another: which tokens are accepted, when, and for whom
-/

namespace LicenseServer

open Infra AuthService AuthM

/-! ## Interleaved calls -/

section

variable {κ : Type} {lib : AuthLib} {calls : κ → AuthCall} {db db' : AuthDb}

/-- Every session was issued by one of the calls, to an account whose password it knew. -/
def AllVouched (lib : AuthLib) (calls : κ → AuthCall) (db : AuthDb) : Prop :=
  ∀ s ∈ db.sessions.rows, ∃ k, Vouches lib db (calls k) s.userId

theorem AllVouched.of_guarantee {k : κ} (h : AllVouched lib calls db)
    (hdo : AuthGuarantee lib (calls k) db db') : AllVouched lib calls db' := by
  intro s' hs'
  rcases hdo.issued s' hs' with ⟨s, hs, hissued⟩ | hvouches
  · obtain ⟨k', hk'⟩ := h s hs
    rw [show s'.userId = s.userId from (Session.columns_of_issued hissued).2.1.symm]
    exact ⟨k', hk'.later hdo.grow⟩
  · exact ⟨k, hvouches.later hdo.grow⟩

theorem guarded_startAuth {I : AuthDb → Prop} (h : I db) :
    (startAuth lib calls db).Guarded SessionsGrow I fun k => AuthGuarantee lib (calls k) :=
  ⟨h, fun _ => along_run⟩

variable [DecidableEq κ]

theorem sessionsGrow_run {I : AuthDb → Prop}
    (hI : ∀ k s t, I s → AuthGuarantee lib (calls k) s t → SessionsGrow s t ∧ I t)
    {p : Pool AuthDb AuthEnv (Except AuthError AuthOutcome) κ}
    (h : p.Guarded SessionsGrow I fun k => AuthGuarantee lib (calls k)) (es : List (κ × AuthEnv)) :
    SessionsGrow p.store (run Pool.step p es).store := by
  induction es generalizing p with
  | nil => exact .refl p.store
  | cons e es ih =>
    obtain ⟨hnext, hdo⟩ := h.step .refl (fun _ _ _ => .trans) hI e
    refine SessionsGrow.trans ?_ (ih hnext)
    rcases hdo with heq | hdo
    · rw [heq]
      exact .refl p.store
    · exact hdo.grow

/-- **Whoever gets in knows a password.** However the calls interleave, a session that one of them
accepts is that of the token presented, and of an account that some login has named with the right
password; behind `require_admin` the account is an administrator's. -/
theorem session_needs_password (es : List (κ × AuthEnv)) {k : κ} {o : AuthOutcome} {s : Session}
    (hend : (run Pool.step (startAuth lib calls db.withoutSessions) es).calls k = .ret (.ok o))
    (hs : o.session? = some s) :
    (∃ token ∈ (calls k).token, s.tokenHash = hashToken lib token) ∧
      (∃ k', Vouches lib db (calls k') s.userId) ∧
      (o = .admin s → ∃ u ∈ db.users.rows, u.id = s.userId ∧ u.role = .admin) := by
  have hI : ∀ k s t, AllVouched lib calls s → AuthGuarantee lib (calls k) s t →
      SessionsGrow s t ∧ AllVouched lib calls t := fun _ _ _ h hdo => ⟨hdo.grow, h.of_guarantee hdo⟩
  have hstart : (startAuth lib calls db.withoutSessions).Guarded SessionsGrow
      (AllVouched lib calls) fun k => AuthGuarantee lib (calls k) := by
    refine guarded_startAuth fun s hs => ?_
    cases hs
  have hgrow := sessionsGrow_run hI hstart es
  have hvouched := (hstart.run .refl (fun _ _ _ => .trans) hI es).1.1
  have haccepted := hstart.ends .refl (fun _ _ _ => .trans) hI (J := fun _ => True)
    (fun r db₁ db₂ h hgrow o ho s hs => (h o ho s hs).later hgrow) (k := k) ends_run es
    fun _ _ => trivial
  rw [hend] at haccepted
  obtain ⟨htoken, ⟨s', hs', hissued⟩, hadmin⟩ := haccepted o rfl s hs
  rw [hgrow.users] at hadmin
  obtain ⟨k', hk'⟩ := hvouched s' hs'
  refine ⟨htoken, ⟨k', ?_⟩, hadmin⟩
  rw [show s'.userId = s.userId from (Session.columns_of_issued hissued).2.1] at hk'
  unfold Vouches at hk' ⊢
  rwa [hgrow.users] at hk'

/-! ### A sample -/

/-- Stands for Argon2 and SHA-256. -/
def sampleAuthLib : AuthLib where
  verifyPassword plain hash := .ok (plain == hash)
  sha256 bytes := bytes.take 1

def sampleAdmin (id : ℕ) : User := ⟨id, "admin@books.in", "secret", .admin⟩

def sampleAuthDb : AuthDb where
  users := Table.empty.insert sampleAdmin fun _ => rfl
  sessions := .empty
  email_unique := UniqueOn.nil.insert fun _ hu => absurd hu List.not_mem_nil
  tokenHash_unique := AuthDb.tokenHash_unique_empty
  session_user := fun _ hs => absurd hs List.not_mem_nil

def sampleHeader : Option String :=
  some "Bearer 0000000000000000000000000000000000000000000000000000000000000000"

def sampleAuthCalls (k : Fin 3) : AuthCall :=
  if k = 0 then .login "admin@books.in" "secret"
  else if k = 1 then .logout sampleHeader
  else .admin sampleHeader

def sampleAuthEnv (now : Timestamp) : AuthEnv := ⟨now, now, Vector.replicate 32 0⟩

def sampleLogin : List (Fin 3 × AuthEnv) := List.replicate 4 (0, sampleAuthEnv 1)

def sampleSession : Session := ⟨1, 1, "30", 1, 1 + sessionLifetime, none⟩

/-- An administrator logs in and is let in. -/
theorem admin_is_let_in :
    (∃ token ∈ (sampleAuthCalls 2).token, sampleSession.tokenHash = hashToken sampleAuthLib token) ∧
      (∃ k', Vouches sampleAuthLib sampleAuthDb (sampleAuthCalls k') sampleSession.userId) ∧
      (AuthOutcome.admin sampleSession = .admin sampleSession →
        ∃ u ∈ sampleAuthDb.users.rows, u.id = sampleSession.userId ∧ u.role = .admin) := by
  have hend : ((run Pool.step (startAuth sampleAuthLib sampleAuthCalls
      sampleAuthDb.withoutSessions) (sampleLogin ++ List.replicate 3 (2, sampleAuthEnv 2))).calls
      2).result? = some (.ok (.admin sampleSession)) := by
    decide +kernel
  exact session_needs_password _ (Prog.eq_ret_of_result? hend) rfl

/-- **A session that is over stays over.** A call that begins after a logout with its token has
returned, or when the session has expired by every clock still to be read, is refused, however the
calls interleave. -/
theorem session_stays_over (es es' : List (κ × AuthEnv)) {k : κ} {token : String}
    {r : Except AuthError AuthOutcome} (htoken : (calls k).token = some token)
    (hended : (∃ k' token', (calls k').token = some token' ∧
          hashToken lib token' = hashToken lib token ∧
          (run Pool.step (startAuth lib calls db) es).calls k' = .ret (.ok .logout)) ∨
        ∃ s ∈ (run Pool.step (startAuth lib calls db) es).store.sessions.rows,
          s.tokenHash = hashToken lib token ∧ ∀ e ∈ es', s.expiresAt ≤ e.2.now)
    (hfresh : (run Pool.step (startAuth lib calls db) es).calls k = ((calls k).run lib).run)
    (hend : (run Pool.step (startAuth lib calls db) (es ++ es')).calls k = .ret r) :
    r = .error .unauthorized := by
  have hI : ∀ k s t, True → AuthGuarantee lib (calls k) s t → SessionsGrow s t ∧ True :=
    fun _ _ _ _ hdo => ⟨hdo.grow, trivial⟩
  have hstart : (startAuth lib calls db).Guarded SessionsGrow (fun _ => True)
      fun k => AuthGuarantee lib (calls k) := guarded_startAuth trivial
  have hmiddle := (hstart.run .refl (fun _ _ _ => .trans) hI es).1
  have hisOver : (run Pool.step (startAuth lib calls db) es).store.Over
      (fun env => ∃ e ∈ es', e.2 = env) (hashToken lib token) := by
    rcases hended with ⟨k', token', htoken', hsame, hlogout⟩ | ⟨s, hs, hhash, hexpired⟩
    · have hout := hstart.ends .refl (fun _ _ _ => .trans) hI (J := fun _ => True) (k := k')
        (fun r db₁ db₂ h hgrow hr => ?_) ends_logout es fun _ _ => trivial
      · rw [hlogout] at hout
        obtain ⟨token'', htoken'', s, hs, hhash, hrevoked⟩ := hout rfl
        rw [htoken'] at htoken''
        cases htoken''
        exact ⟨s, hs, hhash.trans hsame, Or.inl hrevoked⟩
      · obtain ⟨token'', htoken'', hout⟩ := h hr
        exact ⟨token'', htoken'', hout.later hgrow⟩
    · refine ⟨s, hs, hhash, Or.inr ?_⟩
      rintro env ⟨e, he, rfl⟩
      exact hexpired e he
  have hrefused := hmiddle.ends .refl (fun _ _ _ => .trans) hI (k := k)
    (P := fun _ (r : Except AuthError AuthOutcome) => r = .error .unauthorized)
    (fun _ _ _ hr _ => hr)
    (hfresh ▸ ends_run_of_over htoken hisOver) es' fun e he => ⟨e, he, rfl⟩
  rw [← run_append, hend] at hrefused
  exact hrefused

/-- After a logout the same token lets nobody in. -/
theorem logged_out_is_refused :
    (run Pool.step (startAuth sampleAuthLib sampleAuthCalls sampleAuthDb)
      ((sampleLogin ++ List.replicate 3 (1, sampleAuthEnv 2)) ++ [(2, sampleAuthEnv 3)])).calls 2 =
        .ret (.error .unauthorized) := by
  have hlogout : ((run Pool.step (startAuth sampleAuthLib sampleAuthCalls sampleAuthDb)
      (sampleLogin ++ List.replicate 3 (1, sampleAuthEnv 2))).calls 1).result? =
        some (.ok .logout) := by
    decide +kernel
  have hend : ((run Pool.step (startAuth sampleAuthLib sampleAuthCalls sampleAuthDb)
      ((sampleLogin ++ List.replicate 3 (1, sampleAuthEnv 2)) ++
        [(2, sampleAuthEnv 3)])).calls 2).result?.isSome = true := by
    decide +kernel
  obtain ⟨r, hr⟩ := Option.isSome_iff_exists.mp hend
  have htoken : (sampleAuthCalls 2).token.isSome = true := by decide +kernel
  obtain ⟨token, htoken⟩ := Option.isSome_iff_exists.mp htoken
  have hrefused := session_stays_over _ _ htoken
    (Or.inl ⟨1, token, htoken, rfl, Prog.eq_ret_of_result? hlogout⟩) rfl
    (Prog.eq_ret_of_result? hr)
  rw [Prog.eq_ret_of_result? hr, hrefused]

end

/-! ## Calls one after another -/

structure AuthRequest where
  env : AuthEnv
  call : AuthCall

/-- The answer to a call that runs alone. -/
def answer (lib : AuthLib) (db : AuthDb) (r : AuthRequest) : Except AuthError AuthOutcome :=
  ((r.call.run lib).eval r.env db).1

def serveAuth (lib : AuthLib) (db : AuthDb) (r : AuthRequest) : AuthDb :=
  ((r.call.run lib).eval r.env db).2

/-- What the tokens with one hash open. -/
structure SessionView where
  userId : ℕ
  expiresAt : Timestamp
  ended : Bool
  deriving DecidableEq, Repr

def Session.view (s : Session) : SessionView := ⟨s.userId, s.expiresAt, s.revokedAt.isSome⟩

def AuthDb.view (db : AuthDb) (tokenHash : String) : Option SessionView :=
  (db.findByTokenHash tokenHash).map Session.view

def SessionView.opens (v : SessionView) (now : Timestamp) : Bool := !v.ended && now < v.expiresAt

/-- The account that a call logs in to. -/
def verifiedUser (lib : AuthLib) (db : AuthDb) : AuthCall → Option User
  | .login email password => (db.findByEmail email).filter fun u =>
      match lib.verifyPassword password u.passwordHash with
      | .ok verified => verified
      | .error _ => false
  | _ => none

/-- A login that draws a token with this hash. -/
def LogsIn (lib : AuthLib) (db : AuthDb) (tokenHash : String) (r : AuthRequest) : Bool :=
  (verifiedUser lib db r.call).isSome &&
    hashToken lib (generateSessionToken r.env.random) == tokenHash

/-- A logout with a token of this hash. -/
def LogsOut (lib : AuthLib) (tokenHash : String) (r : AuthRequest) : Bool :=
  match r.call with
  | .logout authorization => (extractBearerToken authorization).any (hashToken lib · == tokenHash)
  | _ => false

/-- One call, as the tokens with one hash see it. -/
def SessionView.after (lib : AuthLib) (db : AuthDb) (tokenHash : String) (v : Option SessionView)
    (r : AuthRequest) : Option SessionView :=
  match v with
  | some v => some { v with ended := v.ended || LogsOut lib tokenHash r && v.opens r.env.now }
  | none =>
    if LogsIn lib db tokenHash r then
      (verifiedUser lib db r.call).map fun u => ⟨u.id, r.env.now + sessionLifetime, false⟩
    else none

section

variable {lib : AuthLib} {db db' : AuthDb} {env : AuthEnv} {token tokenHash : String}

/-- The session that a token opens. -/
def AuthDb.accept (db : AuthDb) (now : Timestamp) (tokenHash : String) : Option Session :=
  (db.findByTokenHash tokenHash).filter fun s => s.view.opens now

theorem eval_validateSession : (validateSession lib token).eval env db =
    ((db.accept env.now (hashToken lib token)).elim (.error .unauthorized) .ok, db) := by
  unfold validateSession AuthDb.accept
  rw [eval_query_bind]
  cases db.findByTokenHash (hashToken lib token) with
  | none => rfl
  | some s =>
    dsimp only
    rw [Option.filter_some, SessionView.opens]
    cases hrevoked : s.revokedAt.isSome with
    | true => simp [Session.view, hrevoked]
    | false =>
      simp only [Session.view, hrevoked, Bool.false_eq_true, if_false, eval_clock_bind,
        Bool.not_false, Bool.true_and, decide_eq_true_eq]
      by_cases hexpired : s.expiresAt ≤ env.now
      · rw [if_pos hexpired, if_neg (not_lt.mpr hexpired)]
        rfl
      · rw [if_neg hexpired, if_pos (not_le.mp hexpired)]
        rfl

/-! ### Logins -/

theorem verifiedUser_login_eq_some {email password : String} {u : User} :
    verifiedUser lib db (.login email password) = some u ↔
      db.findByEmail email = some u ∧ lib.verifyPassword password u.passwordHash = .ok true := by
  unfold verifiedUser
  rw [Option.filter_eq_some_iff]
  refine and_congr_right fun _ => ?_
  cases lib.verifyPassword password u.passwordHash with
  | error e => simp
  | ok verified => simp

/-- A login with a wrong password, or to no account, does nothing. -/
theorem eval_login_of_none {email password : String}
    (h : verifiedUser lib db (.login email password) = none) :
    ∃ e, (login lib email password).eval env db = (.error e, db) := by
  unfold login
  rw [eval_query_bind]
  cases hverify : lib.verifyPassword password (hashToVerify (db.findByEmail email)) with
  | error e => exact ⟨_, rfl⟩
  | ok verified =>
    cases hfind : db.findByEmail email with
    | none => exact ⟨_, rfl⟩
    | some u =>
      cases verified with
      | false => exact ⟨_, rfl⟩
      | true =>
        rw [hfind] at hverify
        rw [verifiedUser_login_eq_some.mpr ⟨hfind, hverify⟩] at h
        cases h

theorem eval_login_of_some {email password : String} {u : User}
    (h : verifiedUser lib db (.login email password) = some u) :
    ((login lib email password).eval env db).2 =
      (db.insertSession env.txNow
        { userId := u.id, tokenHash := hashToken lib (generateSessionToken env.random),
          expiresAt := env.now + sessionLifetime }).2 := by
  obtain ⟨hfind, hverify⟩ := verifiedUser_login_eq_some.mp h
  unfold login
  rw [eval_query_bind]
  rw [hfind, hashToVerify, Option.map_some, Option.getD_some, hverify]
  dsimp only
  unfold issueSession
  rw [eval_random_bind, eval_clock_bind, eval_insert_bind]
  split <;> rfl

/-! ### What a call does -/

theorem serveAuth_login {email password : String} :
    serveAuth lib db ⟨env, .login email password⟩ =
      (verifiedUser lib db (.login email password)).elim db fun u =>
        (db.insertSession env.txNow
          { userId := u.id, tokenHash := hashToken lib (generateSessionToken env.random),
            expiresAt := env.now + sessionLifetime }).2 := by
  rw [serveAuth, AuthCall.run, eval_map]
  cases h : verifiedUser lib db (.login email password) with
  | none =>
    obtain ⟨e, heval⟩ : ∃ e, (login lib email password).eval env db = (.error e, db) :=
      eval_login_of_none h
    rw [heval]
    rfl
  | some u => exact eval_login_of_some h

theorem serveAuth_logout {authorization : Option String} :
    serveAuth lib db ⟨env, .logout authorization⟩ =
      ((extractBearerToken authorization).bind fun token =>
        db.accept env.now (hashToken lib token)).elim db fun s => db.revoke env.txNow s.id := by
  rw [serveAuth, AuthCall.run]
  cases extractBearerToken authorization with
  | none => rfl
  | some token =>
    rw [Option.bind_some]
    dsimp only
    have heval : (validateSession lib token).eval env db = _ := eval_validateSession
    cases haccept : db.accept env.now (hashToken lib token) with
    | none =>
      rw [haccept] at heval
      rw [eval_bind_of_error heval]
      rfl
    | some s =>
      rw [haccept] at heval
      rw [eval_bind_of_ok heval]
      rfl

theorem serveAuth_session {authorization : Option String} :
    serveAuth lib db ⟨env, .session authorization⟩ = db := by
  rw [serveAuth, AuthCall.run]
  cases extractBearerToken authorization with
  | none => rfl
  | some token =>
    dsimp only
    rw [eval_map, eval_validateSession]

theorem serveAuth_admin {authorization : Option String} :
    serveAuth lib db ⟨env, .admin authorization⟩ = db := by
  rw [serveAuth, AuthCall.run]
  cases extractBearerToken authorization with
  | none => rfl
  | some token =>
    dsimp only
    rw [eval_map]
    have heval : (validateSession lib token).eval env db = _ := eval_validateSession
    unfold requireAdmin
    cases haccept : db.accept env.now (hashToken lib token) with
    | none =>
      rw [haccept] at heval
      rw [eval_bind_of_error heval]
    | some s =>
      rw [haccept] at heval
      rw [eval_bind_of_ok heval, eval_query_bind]
      cases db.findById s.userId with
      | none => rfl
      | some user =>
        dsimp only
        split <;> rfl

/-! ### What the tokens with one hash see of it -/

/-- Neither a login that draws the hash nor a logout from an open session. -/
theorem after_eq_self (v : Option SessionView) {r : AuthRequest}
    (hin : LogsIn lib db tokenHash r = false)
    (hout : ∀ w ∈ v, (LogsOut lib tokenHash r && w.opens r.env.now) = false) :
    SessionView.after lib db tokenHash v r = v := by
  cases v with
  | none =>
    rw [SessionView.after, hin]
    rfl
  | some w => rw [SessionView.after, hout w rfl, Bool.or_false]

theorem view_insertSession {txNow : Timestamp} {new : NewSession}
    (hfk : ∃ u ∈ db.users.rows, u.id = new.userId) :
    (db.insertSession txNow new).2.view tokenHash =
      (db.view tokenHash).or
        (if new.tokenHash = tokenHash then some ⟨new.userId, new.expiresAt, false⟩ else none) := by
  by_cases hkey : ∀ s ∈ db.sessions.rows, s.tokenHash ≠ new.tokenHash
  · have hrows : (db.insertSession txNow new).2.sessions.rows = _ :=
      (AuthDb.insertSession_of_free hkey hfk).2
    rw [AuthDb.view, AuthDb.view, AuthDb.findByTokenHash, hrows, List.find?_append, Option.map_or]
    refine congrArg _ ?_
    by_cases hnew : new.tokenHash = tokenHash
    · simp [AuthDb.newSession, Session.view, hnew]
    · simp [AuthDb.newSession, hnew]
  · rcases db.insertSession_cases txNow new with ⟨e, heq⟩ | ⟨db', hfree, -⟩
    · rw [heq]
      cases hview : db.view tokenHash with
      | some v => rfl
      | none =>
        rw [if_neg, Option.or_none]
        rintro rfl
        push Not at hkey
        obtain ⟨s, hs, hhash⟩ := hkey
        rw [AuthDb.view, findByTokenHash_eq_some.mpr ⟨hs, hhash⟩] at hview
        cases hview
    · exact absurd hfree hkey

theorem findByTokenHash_revoke {txNow : Timestamp} {id : ℕ} :
    (db.revoke txNow id).findByTokenHash tokenHash =
      (db.findByTokenHash tokenHash).map fun s =>
        if s.id = id then AuthDb.revoked txNow s else s := by
  have hhash : (fun s : Session => decide (s.tokenHash = tokenHash)) ∘
      (fun s => if s.id = id then AuthDb.revoked txNow s else s) =
      fun s => decide (s.tokenHash = tokenHash) := by
    funext s
    dsimp only [Function.comp_apply]
    split <;> rfl
  have hfind := List.find?_map (p := fun s : Session => decide (s.tokenHash = tokenHash))
    (f := fun s => if s.id = id then AuthDb.revoked txNow s else s) (l := db.sessions.rows)
  rw [hhash] at hfind
  exact hfind

/-- The row that is revoked is the only one with its hash. -/
theorem view_revoke {txNow : Timestamp} {s : Session} (hs : s ∈ db.sessions.rows) :
    (db.revoke txNow s.id).view tokenHash =
      (db.view tokenHash).map fun v => { v with ended := v.ended || s.tokenHash == tokenHash } := by
  rw [AuthDb.view, AuthDb.view, findByTokenHash_revoke, Option.map_map, Option.map_map]
  cases hfind : db.findByTokenHash tokenHash with
  | none => rfl
  | some s' =>
    obtain ⟨hs', hhash'⟩ := findByTokenHash_eq_some.mp hfind
    rw [Option.map_some, Option.map_some]
    refine congrArg some ?_
    dsimp only [Function.comp_apply]
    by_cases hid : s'.id = s.id
    · obtain rfl := db.sessions.eq_of_key hs' hs hid
      rw [if_pos rfl, beq_iff_eq.mpr hhash', Bool.or_true]
      rfl
    · have hother : (s.tokenHash == tokenHash) = false := by
        rw [beq_eq_false_iff_ne]
        intro hhash
        rw [findByTokenHash_eq_some.mpr ⟨hs, hhash⟩] at hfind
        cases hfind
        exact hid rfl
      rw [if_neg hid, hother, Bool.or_false]

theorem accept_eq_some {now : Timestamp} {s : Session} : db.accept now tokenHash = some s ↔
    db.findByTokenHash tokenHash = some s ∧ s.view.opens now = true :=
  Option.filter_eq_some_iff

theorem accept_eq_none {now : Timestamp} (h : db.accept now tokenHash = none) {v : SessionView}
    (hv : db.view tokenHash = some v) : v.opens now = false := by
  obtain ⟨s, hfind, rfl⟩ := Option.map_eq_some_iff.mp hv
  refine eq_false_of_ne_true fun hopens => ?_
  rw [accept_eq_some.mpr ⟨hfind, hopens⟩] at h
  cases h

theorem view_logout {authorization : Option String} :
    (serveAuth lib db ⟨env, .logout authorization⟩).view tokenHash =
      SessionView.after lib db tokenHash (db.view tokenHash) ⟨env, .logout authorization⟩ := by
  rw [serveAuth_logout]
  cases htoken : extractBearerToken authorization with
  | none =>
    have hout : LogsOut lib tokenHash ⟨env, .logout authorization⟩ = false :=
      congrArg (Option.any (hashToken lib · == tokenHash)) htoken
    rw [after_eq_self _ rfl fun w _ => by rw [hout, Bool.false_and]]
    rfl
  | some token =>
    have hout : LogsOut lib tokenHash ⟨env, .logout authorization⟩ =
        (hashToken lib token == tokenHash) :=
      congrArg (Option.any (hashToken lib · == tokenHash)) htoken
    rw [Option.bind_some]
    cases haccept : db.accept env.now (hashToken lib token) with
    | none =>
      rw [Option.elim_none, after_eq_self _ rfl]
      intro w hw
      rw [hout, Bool.and_eq_false_iff, or_iff_not_imp_left, Bool.not_eq_false, beq_iff_eq]
      rintro rfl
      exact accept_eq_none haccept hw
    | some s =>
      obtain ⟨hfind, hopens⟩ := accept_eq_some.mp haccept
      obtain ⟨hs, hhash⟩ := findByTokenHash_eq_some.mp hfind
      rw [Option.elim_some, view_revoke hs, hhash]
      cases hview : db.view tokenHash with
      | none => rfl
      | some v =>
        rw [Option.map_some, SessionView.after, hout]
        by_cases hsame : hashToken lib token = tokenHash
        · -- the view is that of the session which is accepted
          subst hsame
          rw [AuthDb.view, hfind] at hview
          cases hview
          rw [hopens, Bool.and_true]
        · rw [beq_false_of_ne hsame, Bool.false_and]

theorem view_login {email password : String} :
    (serveAuth lib db ⟨env, .login email password⟩).view tokenHash =
      SessionView.after lib db tokenHash (db.view tokenHash) ⟨env, .login email password⟩ := by
  rw [serveAuth_login]
  cases hverified : verifiedUser lib db (.login email password) with
  | none =>
    have hin : LogsIn lib db tokenHash ⟨env, .login email password⟩ = false := by
      rw [LogsIn, hverified]
      rfl
    rw [Option.elim_none, after_eq_self _ hin fun _ _ => rfl]
  | some u =>
    have hmem := (findByEmail_eq_some.mp (verifiedUser_login_eq_some.mp hverified).1).1
    rw [Option.elim_some, view_insertSession ⟨u, hmem, rfl⟩]
    cases db.view tokenHash with
    | none =>
      rw [SessionView.after, LogsIn, hverified, Option.none_or]
      simp only [Option.isSome_some, Bool.true_and, beq_iff_eq, Option.map_some]
    | some v =>
      have hout : LogsOut lib tokenHash ⟨env, .login email password⟩ = false := rfl
      rw [SessionView.after, hout, Bool.false_and, Bool.or_false, Option.some_or]

/-- A call does to the view of a hash what `SessionView.after` says. -/
theorem view_serveAuth (r : AuthRequest) :
    (serveAuth lib db r).view tokenHash =
      SessionView.after lib db tokenHash (db.view tokenHash) r := by
  obtain ⟨env, call⟩ := r
  cases call with
  | login email password => exact view_login
  | session authorization => rw [serveAuth_session, after_eq_self _ rfl fun _ _ => rfl]
  | admin authorization => rw [serveAuth_admin, after_eq_self _ rfl fun _ _ => rfl]
  | logout authorization => exact view_logout

theorem serveAuth_users (r : AuthRequest) : (serveAuth lib db r).users = db.users := by
  obtain ⟨env, call⟩ := r
  cases call with
  | login email password =>
    rw [serveAuth_login]
    cases verifiedUser lib db (.login email password) with
    | none => rfl
    | some u =>
      rw [Option.elim_some]
      rcases db.insertSession_cases env.txNow
          { userId := u.id, tokenHash := hashToken lib (generateSessionToken env.random),
            expiresAt := env.now + sessionLifetime } with ⟨e, heq⟩ | ⟨db', -, husers, -, heq⟩
      · rw [heq]
      · rw [heq]
        exact husers
  | session authorization => rw [serveAuth_session]
  | admin authorization => rw [serveAuth_admin]
  | logout authorization =>
    rw [serveAuth_logout]
    cases (extractBearerToken authorization).bind fun token =>
      db.accept env.now (hashToken lib token) <;> rfl

/-! ### Runs -/

theorem after_congr (h : db'.users = db.users) :
    SessionView.after lib db' tokenHash = SessionView.after lib db tokenHash := by
  have hverified : verifiedUser lib db' = verifiedUser lib db := by
    funext call
    cases call with
    | login email password =>
      unfold verifiedUser AuthDb.findByEmail
      rw [h]
    | _ => rfl
  funext v r
  cases v with
  | some v => rfl
  | none =>
    unfold SessionView.after LogsIn
    rw [hverified]

theorem view_run (rs : List AuthRequest) :
    (run (serveAuth lib) db rs).view tokenHash =
      run (SessionView.after lib db tokenHash) (db.view tokenHash) rs := by
  induction rs generalizing db with
  | nil => rfl
  | cons r rs ih => rw [run_cons, run_cons, ih, view_serveAuth, after_congr (serveAuth_users r)]

/-- Once a session is there, a run can only log it out. -/
theorem run_after_some (v : SessionView) (rs : List AuthRequest) :
    ∃ ended, run (SessionView.after lib db tokenHash) (some v) rs = some { v with ended } ∧
      (ended = false ↔ v.ended = false ∧
        ∀ r ∈ rs, LogsOut lib tokenHash r = true → v.expiresAt ≤ r.env.now) := by
  induction rs generalizing v with
  | nil => exact ⟨v.ended, rfl, by simp⟩
  | cons r rs ih =>
    obtain ⟨ended, hrun, hended⟩ :=
      ih { v with ended := v.ended || (LogsOut lib tokenHash r && v.opens r.env.now) }
    refine ⟨ended, hrun, hended.trans ?_⟩
    rw [List.forall_mem_cons, ← and_assoc]
    refine and_congr_left' ?_
    unfold SessionView.opens
    cases v.ended with
    | true => simp
    | false => cases LogsOut lib tokenHash r <;> simp

/-- The first login that draws the hash opens the session. -/
theorem run_after_none (rs : List AuthRequest) :
    run (SessionView.after lib db tokenHash) none rs =
      (rs.dropWhile fun r => !LogsIn lib db tokenHash r).head?.bind fun r =>
        (verifiedUser lib db r.call).bind fun u =>
          run (SessionView.after lib db tokenHash) (some ⟨u.id, r.env.now + sessionLifetime, false⟩)
            (rs.dropWhile fun r => !LogsIn lib db tokenHash r).tail := by
  induction rs with
  | nil => rfl
  | cons r rs ih =>
    rw [run_cons, List.dropWhile_cons]
    cases hlogs : LogsIn lib db tokenHash r with
    | false =>
      rw [SessionView.after, hlogs]
      exact ih
    | true =>
      rw [SessionView.after, hlogs, if_pos rfl, Bool.not_true]
      obtain ⟨u, hu⟩ := Option.isSome_iff_exists.mp (Bool.and_eq_true_iff.mp hlogs).1
      simp [hu]

theorem answer_session_iff {authorization : Option String} {userId : ℕ} :
    (∃ s, answer lib db ⟨env, .session authorization⟩ = .ok (.session s) ∧ s.userId = userId) ↔
      ∃ token ∈ extractBearerToken authorization, ∃ v, db.view (hashToken lib token) = some v ∧
        v.userId = userId ∧ v.opens env.now = true := by
  rw [answer, AuthCall.run]
  cases extractBearerToken authorization with
  | none => simp
  | some token =>
    dsimp only
    rw [eval_map, eval_validateSession]
    simp only [Option.mem_some_iff, exists_eq_left']
    rw [AuthDb.view]
    cases haccept : db.accept env.now (hashToken lib token) with
    | none =>
      refine ⟨?_, ?_⟩
      · rintro ⟨s, hs, -⟩
        cases hs
      · rintro ⟨v, hv, -, hopens⟩
        rw [accept_eq_none haccept hv] at hopens
        cases hopens
    | some s =>
      obtain ⟨hfind, hopens⟩ := accept_eq_some.mp haccept
      rw [hfind]
      refine ⟨?_, ?_⟩
      · rintro ⟨s', hs', huser⟩
        cases hs'
        exact ⟨s.view, rfl, huser, hopens⟩
      · rintro ⟨v, hv, huser, -⟩
        cases hv
        exact ⟨s, rfl, huser⟩

/-- **Which tokens are accepted.** After calls that followed one another, from a database without
sessions, a token gives access to an account just in case the first login to draw a token with its
hash was to that account, less than thirty days ago, and no logout with such a token has come
before it expired. -/
theorem session_law (rs : List AuthRequest) (authorization : Option String) (userId : ℕ) :
    (∃ s, answer lib (run (serveAuth lib) db.withoutSessions rs) ⟨env, .session authorization⟩ =
        .ok (.session s) ∧ s.userId = userId) ↔
      ∃ token ∈ extractBearerToken authorization, ∃ r later u,
        rs.dropWhile (fun r => !LogsIn lib db (hashToken lib token) r) = r :: later ∧
        verifiedUser lib db r.call = some u ∧ u.id = userId ∧
        env.now < r.env.now + sessionLifetime ∧
        ∀ r' ∈ later, LogsOut lib (hashToken lib token) r' = true →
          r.env.now + sessionLifetime ≤ r'.env.now := by
  rw [answer_session_iff]
  refine exists_congr fun token => and_congr_right fun _ => ?_
  have hafter : SessionView.after lib db.withoutSessions (hashToken lib token) =
      SessionView.after lib db (hashToken lib token) := after_congr rfl
  rw [view_run, hafter, show db.withoutSessions.view (hashToken lib token) = none from rfl,
    run_after_none]
  cases hdrop : rs.dropWhile fun r => !LogsIn lib db (hashToken lib token) r with
  | nil => simp
  | cons r later =>
    have hlogs : LogsIn lib db (hashToken lib token) r = true := by
      have hhead := List.head?_dropWhile_not (fun r => !LogsIn lib db (hashToken lib token) r) rs
      rw [hdrop] at hhead
      simpa using hhead
    obtain ⟨u, hu⟩ := Option.isSome_iff_exists.mp (Bool.and_eq_true_iff.mp hlogs).1
    obtain ⟨ended, hrun, hended⟩ :
        ∃ ended, run (SessionView.after lib db (hashToken lib token)) _ _ = _ ∧ _ :=
      run_after_some ⟨u.id, r.env.now + sessionLifetime, false⟩ later
    rw [List.head?_cons, List.tail_cons, Option.bind_some, hu, Option.bind_some, hrun]
    constructor
    · rintro ⟨v, hv, huser, hopens⟩
      cases hv
      obtain ⟨hopen, hnow⟩ := Bool.and_eq_true_iff.mp hopens
      exact ⟨r, later, u, rfl, hu, huser, of_decide_eq_true hnow,
        (hended.mp (Bool.not_eq_true' _ ▸ hopen)).2⟩
    · rintro ⟨r', later', u', hcons, hu', huser, hnow, hlater⟩
      cases hcons
      rw [hu] at hu'
      cases hu'
      refine ⟨_, rfl, huser, ?_⟩
      rw [SessionView.opens, hended.mpr ⟨rfl, hlater⟩]
      exact decide_eq_true hnow

end

end LicenseServer
