import BankStatementProcessor.LicenseServer.Auth

/-!
# What an account call does

`AuthGuarantee` is what each action of a call does to the sessions, whatever the others do
(`along_run`), and `Accepted` is what its answer says of them (`ends_run`). A session that is over
lets nobody in (`ends_run_of_over`).
-/

namespace LicenseServer

open Infra AuthService AuthM

/-! ## The rows -/

/-- A session as it was issued. -/
def Session.issued (s : Session) : Session := { s with revokedAt := none }

theorem Session.columns_of_issued {s s' : Session} (h : s'.issued = s.issued) :
    s'.id = s.id ∧ s'.userId = s.userId ∧ s'.tokenHash = s.tokenHash ∧
      s'.expiresAt = s.expiresAt := by
  unfold Session.issued at h
  injection h with hid huser hhash hcreated hexpires
  exact ⟨hid, huser, hhash, hexpires⟩

/-- The accounts stay; a session stays as it was issued, and revoked once it is. -/
structure SessionsGrow (db db' : AuthDb) : Prop where
  users : db'.users = db.users
  sessions : ∀ s ∈ db.sessions.rows, ∃ s' ∈ db'.sessions.rows,
    s'.issued = s.issued ∧ (s.revokedAt.isSome = true → s'.revokedAt.isSome = true)

theorem SessionsGrow.refl (db : AuthDb) : SessionsGrow db db :=
  ⟨rfl, fun s hs => ⟨s, hs, rfl, id⟩⟩

theorem SessionsGrow.trans {db₁ db₂ db₃ : AuthDb} (h : SessionsGrow db₁ db₂)
    (h' : SessionsGrow db₂ db₃) : SessionsGrow db₁ db₃ where
  users := h'.users.trans h.users
  sessions := by
    intro s hs
    obtain ⟨s', hs', hissued, hrevoked⟩ := h.sessions s hs
    obtain ⟨s'', hs'', hissued', hrevoked'⟩ := h'.sessions s' hs'
    exact ⟨s'', hs'', hissued'.trans hissued, fun h => hrevoked' (hrevoked h)⟩

section

variable {db : AuthDb} {email tokenHash : String} {u : User} {s : Session}

theorem findByEmail_eq_some : db.findByEmail email = some u ↔ u ∈ db.users.rows ∧ u.email = email := by
  unfold AuthDb.findByEmail
  rw [find?_eq_some_of_unique]
  · simp
  · intro u hu u' hu' h h'
    simp only [decide_eq_true_eq] at h h'
    exact db.email_unique u hu u' hu' email (congrArg some h) (congrArg some h')

theorem findByTokenHash_eq_some :
    db.findByTokenHash tokenHash = some s ↔ s ∈ db.sessions.rows ∧ s.tokenHash = tokenHash := by
  unfold AuthDb.findByTokenHash
  rw [find?_eq_some_of_unique]
  · simp
  · intro s hs s' hs' h h'
    simp only [decide_eq_true_eq] at h h'
    exact db.tokenHash_unique s hs s' hs' tokenHash (congrArg some h) (congrArg some h')

end

/-! ## One action -/

/-- The call is a login to the account, with its password. -/
def Vouches (lib : AuthLib) (db : AuthDb) (call : AuthCall) (userId : ℕ) : Prop :=
  ∃ email password, call = .login email password ∧
    ∃ u ∈ db.users.rows, u.email = email ∧ u.id = userId ∧
      lib.verifyPassword password u.passwordHash = .ok true

/-- What an action of the call does: only a login with the right password issues a session. -/
structure AuthGuarantee (lib : AuthLib) (call : AuthCall) (db db' : AuthDb) : Prop where
  grow : SessionsGrow db db'
  issued : ∀ s' ∈ db'.sessions.rows,
    (∃ s ∈ db.sessions.rows, s.issued = s'.issued) ∨ Vouches lib db call s'.userId

section

variable {lib : AuthLib} {call : AuthCall} {db : AuthDb} {txNow : Timestamp}

theorem AuthGuarantee.refl (db : AuthDb) : AuthGuarantee lib call db db :=
  ⟨.refl db, fun s' hs' => Or.inl ⟨s', hs', rfl⟩⟩

theorem guarantee_insertSession {new : NewSession} (h : Vouches lib db call new.userId) :
    AuthGuarantee lib call db (db.insertSession txNow new).2 := by
  rcases db.insertSession_cases txNow new with ⟨e, heq⟩ | ⟨db', -, husers, hrows, heq⟩
  · rw [heq]
    exact .refl db
  · rw [heq]
    refine ⟨⟨husers, fun s hs => ⟨s, ?_, rfl, id⟩⟩, fun s' hs' => ?_⟩
    · rw [hrows]
      exact List.mem_append_left _ hs
    · rw [hrows, List.mem_append, List.mem_singleton] at hs'
      rcases hs' with hs' | rfl
      · exact Or.inl ⟨s', hs', rfl⟩
      · exact Or.inr h

theorem guarantee_revoke {id : ℕ} : AuthGuarantee lib call db (db.revoke txNow id) := by
  have hrow : ∀ s : Session, (if s.id = id then AuthDb.revoked txNow s else s).issued = s.issued := by
    intro s
    split <;> rfl
  refine ⟨⟨rfl, fun s hs => ?_⟩, fun s' hs' => ?_⟩
  · refine ⟨_, AuthDb.mem_revoke.mpr ⟨s, hs, rfl⟩, hrow s, fun h => ?_⟩
    split
    · rfl
    · exact h
  · obtain ⟨s, hs, rfl⟩ := AuthDb.mem_revoke.mp hs'
    exact Or.inl ⟨s, hs, (hrow s).symm⟩

end

/-! ## One call -/

section

variable {lib : AuthLib} {call : AuthCall} {db : AuthDb} {I : AuthDb → Prop}

open Prog

theorem Vouches.later {db' : AuthDb} {userId : ℕ} (h : Vouches lib db call userId)
    (hgrow : SessionsGrow db db') : Vouches lib db' call userId := by
  unfold Vouches at h ⊢
  rwa [hgrow.users]

theorem along_issueSession {user : User} (h : Vouches lib db call user.id) :
    Along SessionsGrow I (AuthGuarantee lib call) db (issueSession lib user).run := by
  refine along_query_bind AuthGuarantee.refl fun _ db₁ h₁ _ => ?_
  refine along_query_bind AuthGuarantee.refl fun _ db₂ h₂ _ => ?_
  refine along_atomically_bind fun env db₃ h₃ _ => ⟨?_, ?_⟩
  · exact guarantee_insertSession (h.later ((h₁.trans h₂).trans h₃))
  · split <;> trivial

theorem along_login {email password : String} :
    Along SessionsGrow I (AuthGuarantee lib (.login email password)) db
      (login lib email password).run := by
  refine along_query_bind AuthGuarantee.refl fun _ db₁ h₁ _ => ?_
  cases hverify : lib.verifyPassword password (hashToVerify (db₁.findByEmail email)) with
  | error e => trivial
  | ok verified =>
    dsimp only
    cases hfind : db₁.findByEmail email with
    | none => trivial
    | some user =>
      cases verified with
      | false => trivial
      | true =>
        obtain ⟨hmem, hemail⟩ := findByEmail_eq_some.mp hfind
        rw [hfind] at hverify
        exact along_issueSession ⟨email, password, rfl, user, hmem, hemail, rfl, hverify⟩

theorem along_validateSession {token : String} :
    Along SessionsGrow I (AuthGuarantee lib call) db (validateSession lib token).run := by
  refine along_query_bind AuthGuarantee.refl fun _ db₁ h₁ _ => ?_
  dsimp only
  cases db₁.findByTokenHash (hashToken lib token) with
  | none => trivial
  | some s =>
    dsimp only
    split
    · trivial
    · refine along_query_bind AuthGuarantee.refl fun _ db₂ h₂ _ => ?_
      split <;> trivial

/-- An action of a call is what the call guarantees, whatever the others do. -/
theorem along_run : Along SessionsGrow I (AuthGuarantee lib call) db (call.run lib).run := by
  have hgrow : ∀ s t, I s → AuthGuarantee lib call s t → SessionsGrow s t := fun _ _ _ h => h.grow
  cases call with
  | login email password =>
    rw [AuthCall.run, run_map]
    exact along_map.mpr along_login
  | session authorization =>
    dsimp only [AuthCall.run]
    cases extractBearerToken authorization with
    | none => trivial
    | some token =>
      dsimp only
      rw [run_map]
      exact along_map.mpr along_validateSession
  | admin authorization =>
    dsimp only [AuthCall.run]
    cases extractBearerToken authorization with
    | none => trivial
    | some token =>
      dsimp only
      rw [run_map]
      refine along_map.mpr (along_except_bind .refl (fun _ _ _ => .trans) hgrow
        along_validateSession fun s db₁ h₁ => ?_)
      refine along_query_bind AuthGuarantee.refl fun _ db₂ h₂ _ => ?_
      dsimp only
      cases db₂.findById s.userId with
      | none => trivial
      | some user =>
        dsimp only
        split <;> trivial
  | logout authorization =>
    dsimp only [AuthCall.run]
    cases extractBearerToken authorization with
    | none => trivial
    | some token =>
      refine along_except_bind .refl (fun _ _ _ => .trans) hgrow along_validateSession
        fun s db₁ h₁ => ?_
      exact along_atomically_bind fun env db₂ h₂ _ => ⟨guarantee_revoke, trivial⟩

end

/-! ## How a call ends -/

/-- The row of a session is still there. -/
def AuthDb.Keeps (db : AuthDb) (s : Session) : Prop :=
  ∃ s' ∈ db.sessions.rows, s'.issued = s.issued

/-- The session that is handed to the handler of a route. -/
def AuthOutcome.session? : AuthOutcome → Option Session
  | .session s | .admin s => some s
  | .login _ | .logout => none

def AuthCall.token : AuthCall → Option String
  | .login _ _ => none
  | .session authorization | .admin authorization | .logout authorization =>
    extractBearerToken authorization

/-- A session that a call has accepted. -/
structure Accepted (lib : AuthLib) (call : AuthCall) (o : AuthOutcome) (db : AuthDb) (s : Session) :
    Prop where
  token : ∃ token ∈ call.token, s.tokenHash = hashToken lib token
  row : db.Keeps s
  admin : o = .admin s → ∃ u ∈ db.users.rows, u.id = s.userId ∧ u.role = .admin

/-- A session with this hash is revoked, or has expired by every clock in `J`. -/
def AuthDb.Over (db : AuthDb) (J : AuthEnv → Prop) (tokenHash : String) : Prop :=
  ∃ s ∈ db.sessions.rows, s.tokenHash = tokenHash ∧
    (s.revokedAt.isSome = true ∨ ∀ env, J env → s.expiresAt ≤ env.now)

/-- The session of the token is revoked. -/
def AuthDb.LoggedOut (db : AuthDb) (tokenHash : String) : Prop :=
  ∃ s ∈ db.sessions.rows, s.tokenHash = tokenHash ∧ s.revokedAt.isSome = true

section

variable {lib : AuthLib} {call : AuthCall} {db db' : AuthDb} {I : AuthDb → Prop}
  {J : AuthEnv → Prop} {s : Session} {token tokenHash : String}

open Prog

theorem AuthDb.Keeps.later (h : db.Keeps s) (hgrow : SessionsGrow db db') : db'.Keeps s := by
  obtain ⟨s₁, hs₁, hissued⟩ := h
  obtain ⟨s₂, hs₂, hsame, -⟩ := hgrow.sessions s₁ hs₁
  exact ⟨s₂, hs₂, hsame.trans hissued⟩

theorem Accepted.later {o : AuthOutcome} (h : Accepted lib call o db s)
    (hgrow : SessionsGrow db db') : Accepted lib call o db' s where
  token := h.token
  row := h.row.later hgrow
  admin := by
    rw [hgrow.users]
    exact h.admin

theorem AuthDb.LoggedOut.later (h : db.LoggedOut tokenHash) (hgrow : SessionsGrow db db') :
    db'.LoggedOut tokenHash := by
  obtain ⟨s₁, hs₁, hhash, hrevoked⟩ := h
  obtain ⟨s₂, hs₂, hsame, hstays⟩ := hgrow.sessions s₁ hs₁
  exact ⟨s₂, hs₂, (Session.columns_of_issued hsame).2.2.1.trans hhash, hstays hrevoked⟩

theorem AuthDb.Over.later (h : db.Over J tokenHash) (hgrow : SessionsGrow db db') :
    db'.Over J tokenHash := by
  obtain ⟨s₁, hs₁, hhash, hover⟩ := h
  obtain ⟨s₂, hs₂, hsame, hstays⟩ := hgrow.sessions s₁ hs₁
  have hexpires : s₂.expiresAt = s₁.expiresAt := (Session.columns_of_issued hsame).2.2.2
  refine ⟨s₂, hs₂, (Session.columns_of_issued hsame).2.2.1.trans hhash, ?_⟩
  exact hover.imp hstays fun h env henv => hexpires ▸ h env henv

theorem ends_validateSession :
    Ends J SessionsGrow I
      (fun db r => ∀ s, r = .ok s → s.tokenHash = hashToken lib token ∧ db.Keeps s) db
      (validateSession lib token).run := by
  refine ends_query_bind fun _ db₁ _ _ _ => ?_
  dsimp only
  cases hfind : db₁.findByTokenHash (hashToken lib token) with
  | none =>
    intro s hs
    cases hs
  | some s =>
    obtain ⟨hmem, hhash⟩ := findByTokenHash_eq_some.mp hfind
    dsimp only
    split
    · intro s hs
      cases hs
    · refine ends_query_bind fun env db₂ _ h₂ _ => ?_
      split
      · intro s hs
        cases hs
      · intro s' hs'
        cases hs'
        exact ⟨hhash, AuthDb.Keeps.later ⟨s, hmem, rfl⟩ h₂⟩

/-- Nobody gets in with a session that is over. -/
theorem ends_validateSession_of_over (h : db.Over J (hashToken lib token)) :
    Ends J SessionsGrow I (fun _ r => r = .error .unauthorized) db
      (validateSession lib token).run := by
  refine ends_query_bind fun _ db₁ _ h₁ _ => ?_
  obtain ⟨s, hmem, hhash, hover⟩ := h.later h₁
  dsimp only
  rw [findByTokenHash_eq_some.mpr ⟨hmem, hhash⟩]
  dsimp only
  split
  · rfl
  · next hopen =>
    refine ends_query_bind fun env db₂ henv _ _ => ?_
    have hexpired : s.expiresAt ≤ env.now := hover.resolve_left hopen env henv
    rw [if_pos hexpired]
    rfl

/-- A call that hands a session on has accepted it. -/
theorem ends_run :
    Ends J SessionsGrow I
      (fun db r => ∀ o, r = .ok o → ∀ s, o.session? = some s → Accepted lib call o db s) db
      (call.run lib).run := by
  cases call with
  | login email password =>
    rw [AuthCall.run, run_map]
    refine ends_map.mpr (ends_imp (P := fun _ _ => True) ?_ (ends_true _ _))
    intro r db₁ _ o ho s hs
    cases r with
    | error e => cases ho
    | ok o =>
      cases ho
      cases hs
  | session authorization =>
    dsimp only [AuthCall.run]
    cases htoken : extractBearerToken authorization with
    | none =>
      intro o ho
      cases ho
    | some token =>
      dsimp only
      rw [run_map]
      refine ends_map.mpr (ends_imp ?_ ends_validateSession)
      intro r db₁ hr o ho s hs
      cases r with
      | error e => cases ho
      | ok s₁ =>
        cases ho
        cases hs
        obtain ⟨hhash, hrow⟩ := hr s rfl
        exact ⟨⟨token, htoken, hhash⟩, hrow, fun h => by cases h⟩
  | admin authorization =>
    dsimp only [AuthCall.run]
    cases htoken : extractBearerToken authorization with
    | none =>
      intro o ho
      cases ho
    | some token =>
      dsimp only
      rw [run_map]
      refine ends_map.mpr (ends_except_bind ends_validateSession (fun s₁ db₁ hs₁ => ?_) ?_)
      · obtain ⟨hhash, hrow⟩ := hs₁ s₁ rfl
        refine ends_query_bind fun _ db₂ _ h₂ _ => ?_
        dsimp only
        cases hfind : db₂.findById s₁.userId with
        | none =>
          intro o ho
          cases ho
        | some user =>
          obtain ⟨huser, hid⟩ := Table.get?_eq_some.mp hfind
          dsimp only
          split
          · intro o ho
            cases ho
          · next hrole =>
            intro o ho s hs
            cases ho
            cases hs
            exact ⟨⟨token, htoken, hhash⟩, hrow.later h₂,
              fun _ => ⟨user, huser, hid, not_not.mp hrole⟩⟩
      · intro e db₁ _ o ho
        cases ho
  | logout authorization =>
    dsimp only [AuthCall.run]
    cases extractBearerToken authorization with
    | none =>
      intro o ho
      cases ho
    | some token =>
      refine ends_except_bind ends_validateSession (fun s₁ db₁ _ => ?_) ?_
      · refine ends_atomically_bind fun env db₂ _ _ _ o ho s hs => ?_
        cases ho
        cases hs
      · intro e db₁ _ o ho
        cases ho

/-- A call with a token whose session is over is refused. -/
theorem ends_run_of_over (htoken : call.token = some token)
    (h : db.Over J (hashToken lib token)) :
    Ends J SessionsGrow I (fun _ r => r = .error .unauthorized) db (call.run lib).run := by
  have hrefused := ends_validateSession_of_over (I := I) h
  cases call with
  | login email password => cases htoken
  | session authorization =>
    rw [AuthCall.run, show extractBearerToken authorization = some token from htoken]
    dsimp only
    rw [run_map]
    refine ends_map.mpr (ends_imp ?_ hrefused)
    rintro r db₁ rfl
    rfl
  | admin authorization =>
    rw [AuthCall.run, show extractBearerToken authorization = some token from htoken]
    dsimp only
    rw [run_map]
    refine ends_map.mpr (ends_except_bind hrefused ?_ ?_)
    · intro s db₁ hs
      cases hs
    · rintro e db₁ he
      cases he
      rfl
  | logout authorization =>
    rw [AuthCall.run, show extractBearerToken authorization = some token from htoken]
    refine ends_except_bind hrefused ?_ fun e db₁ he => ?_
    · intro s db₁ hs
      cases hs
    · cases he
      rfl

/-- A logout that succeeds has revoked the session of its token. -/
theorem ends_logout :
    Ends J SessionsGrow I (fun db r => r = .ok .logout →
      ∃ token, call.token = some token ∧ db.LoggedOut (hashToken lib token)) db
      (call.run lib).run := by
  cases call with
  | login email password =>
    rw [AuthCall.run, run_map]
    refine ends_map.mpr (ends_imp (fun r _ _ hr => ?_) (ends_true _ _))
    cases r <;> cases hr
  | session authorization =>
    dsimp only [AuthCall.run]
    cases extractBearerToken authorization with
    | none =>
      intro hr
      cases hr
    | some token =>
      dsimp only
      rw [run_map]
      refine ends_map.mpr (ends_imp (fun r _ _ hr => ?_) (ends_true _ _))
      cases r <;> cases hr
  | admin authorization =>
    dsimp only [AuthCall.run]
    cases extractBearerToken authorization with
    | none =>
      intro hr
      cases hr
    | some token =>
      dsimp only
      rw [run_map]
      refine ends_map.mpr (ends_imp (fun r _ _ hr => ?_) (ends_true _ _))
      cases r <;> cases hr
  | logout authorization =>
    dsimp only [AuthCall.run]
    cases htoken : extractBearerToken authorization with
    | none =>
      intro hr
      cases hr
    | some token =>
      refine ends_except_bind ends_validateSession (fun s db₁ hs => ?_) ?_
      · obtain ⟨hhash, hrow⟩ := hs s rfl
        refine ends_atomically_bind fun env db₂ _ h₂ _ _ => ⟨token, htoken, ?_⟩
        obtain ⟨s', hs', hissued⟩ := hrow.later h₂
        have hid : s'.id = s.id := (Session.columns_of_issued hissued).1
        have hhash' : s'.tokenHash = s.tokenHash := (Session.columns_of_issued hissued).2.2.1
        exact ⟨_, AuthDb.mem_revoke.mpr ⟨s', hs', if_pos hid⟩, hhash'.trans hhash, rfl⟩
      · intro e db₁ _ hr
        cases hr

end

end LicenseServer
