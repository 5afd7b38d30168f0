import BankStatementProcessor.Desktop.Encryption

/-!
# What an open does to the database file

An open that reads the file leaves it as it is, and so does one that cannot read it and finds no
backup. With a backup it takes the file for a broken one and puts the backup in its place,
also when only the key is gone.

A migration never leaves less than a whole copy at the path. The contents of the new file are
those of the export, which has the tables but not the `user_version`.
-/

namespace Desktop

open Infra Prog

variable {Key : Type} {sqlcipherExport : Contents → Contents} {o : Opening Key} {d : Disk Key}
  {k key : Key} {db : Contents} {I : Disk Key → Prop}

theorem meets_look {α β : Type} {Q : Except OpenError β → Disk Key → Prop} {f : Disk Key → α}
    {next : α → OpenM Key β} (hI : I d) (h : Meets o I Q (next (f d)).run d) :
    Meets o I Q (look f >>= next).run d :=
  meets_query_bind hI h

theorem meets_change {β : Type} {Q : Except OpenError β → Disk Key → Prop}
    {f : Opening Key → Disk Key → Disk Key} {next : Unit → OpenM Key β} (hI : I d)
    (h : Meets o I Q (next ()).run (f o d)) : Meets o I Q (change f >>= next).run d :=
  meets_atomically_bind hI h

/-! ## The key -/

/-- The key that the open gets from the credential store, or makes. -/
def availableKey (o : Opening Key) (d : Disk Key) : Option Key :=
  if o.keyringError then none else some (d.entry.getD o.generated)

theorem getPassword_meets (hI : I d) : Meets o I (fun r d' => d' = d ∧
    r = if o.keyringError then .error .keyring else .ok d.entry)
    (getPassword : OpenM Key (Option Key)).run d := by
  refine meets_query_bind hI ?_
  by_cases hk : o.keyringError = true
  · rw [if_pos hk, if_pos hk]
    exact meets_throw hI ⟨rfl, rfl⟩
  · rw [if_neg hk, if_neg hk]
    exact meets_pure hI ⟨rfl, rfl⟩

/-- Reading the key, or making one, changes no file. -/
theorem keyLiteral_meets (hI : I d) (hnew : d.entry = none → I { d with entry := some o.generated }) :
    Meets o I (fun r d' => (∀ e, r = .error e → o.keyringError = true) ∧
      ∀ key, r = .ok key → availableKey o d = some key ∧ d' = { d with entry := some key })
      (keyLiteral : OpenM Key Key).run d := by
  refine (getPassword_meets hI).except_bind ?_ ?_
  · rintro entry d' - ⟨rfl, hentry⟩
    split at hentry
    · cases hentry
    · rename_i hk
      obtain rfl := Except.ok.inj hentry
      cases he : d'.entry with
      | some key =>
        refine meets_pure hI ⟨nofun, fun key' hkey' => ?_⟩
        rw [← Except.ok.inj hkey', ← he]
        exact ⟨by simp [availableKey, hk, he], rfl⟩
      | none =>
        refine meets_query_bind hI (meets_change hI (meets_pure (hnew he) ⟨nofun, fun key' hkey' => ?_⟩))
        rw [← Except.ok.inj hkey']
        exact ⟨by simp [availableKey, hk, he], rfl⟩
  · rintro e d' - ⟨rfl, he⟩
    refine ⟨fun _ _ => ?_, nofun⟩
    by_contra hk
    rw [if_neg hk] at he
    cases he

/-! ## The backup -/

theorem backUp_meets (hI : ∀ bak, I { d with bak := bak }) :
    Meets o I (fun r d' => r = .ok () ∧ d' = { d with bak := d'.bak })
      (backUp : OpenM Key Unit).run d := by
  refine meets_look (hI d.bak) ?_
  split
  · refine meets_change (hI d.bak) ?_
    exact meets_atomically_bind (f := fun _ => pure ()) (hI _) (meets_pure (hI _) ⟨rfl, rfl⟩)
  · exact meets_pure (hI d.bak) ⟨rfl, rfl⟩

section

variable [DecidableEq Key]

/-! ## The loop of an open -/

section

variable {file : File Key} {Q : Except OpenError Key → Disk Key → Prop} {unreadable : OpenM Key Key}

theorem meets_openOrElse_read (hI : I d) (hpath : d.path = some file)
    (hread : (tryOpenWithKey key file).isSome) (hQ : Q (.ok key) d) :
    Meets o I Q (openOrElse sqlcipherExport key unreadable).run d := by
  refine meets_look hI ?_
  rw [hpath]
  dsimp only
  rw [if_pos hread]
  exact meets_pure hI hQ

theorem meets_openOrElse_unreadable (hI : I d) (hpath : d.path = some file)
    (hread : tryOpenWithKey key file = none) (hplain : readPlaintext file = none)
    (h : Meets o I Q unreadable.run d) :
    Meets o I Q (openOrElse sqlcipherExport key unreadable).run d := by
  refine meets_look hI ?_
  rw [hpath]
  dsimp only
  rw [if_neg (by simp [hread]), if_neg (by simp [isPlaintextSqlite, hplain])]
  exact h

theorem meets_openOrElse_plain (hI : I d) (hpath : d.path = some (.plain db))
    (h : Meets o I (fun r d' => r = .ok () ∧ (d'.path.bind (tryOpenWithKey key)).isSome ∧
      Q (.ok key) d') (migratePlaintextToEncrypted sqlcipherExport key).run d) :
    Meets o I Q (openOrElse sqlcipherExport key unreadable).run d := by
  refine meets_look hI ?_
  rw [hpath]
  dsimp only
  rw [if_neg (by simp [tryOpenWithKey]), if_pos (by simp [isPlaintextSqlite, readPlaintext])]
  refine h.except_bind ?_ ?_
  · rintro _ d' hd' ⟨-, hread, hQ⟩
    refine meets_look hd' ?_
    rw [if_pos hread]
    exact meets_pure hd' hQ
  · rintro e d' - ⟨he, -⟩
    cases he

end

/-! ## Opening an encrypted file -/

/-- The file the open finds and its backup stay. -/
def Untouched (d d' : Disk Key) : Prop := d'.path = d.path ∧ d'.bak = d.bak

variable (sqlcipherExport) in
/-- An open of an encrypted file touches nothing if it has the key or finds no backup, and
succeeds only with the key. -/
theorem openEncrypted_meets (hpath : d.path = some (.encrypted k db))
    (hkey : ∀ key, availableKey o d = some key → key = k ∨ d.bak = none) :
    Meets o (Untouched d) (fun r _ => ∀ key, r = .ok key → key = k ∧ availableKey o d = some key)
      (openEncrypted sqlcipherExport).run d := by
  refine (keyLiteral_meets ⟨rfl, rfl⟩ fun _ => ⟨rfl, rfl⟩).except_bind ?_ fun e d' _ _ => nofun
  rintro key d' hun ⟨-, hok⟩
  obtain ⟨havail, -⟩ := hok key rfl
  have hpath' : d'.path = some (.encrypted k db) := hun.1.trans hpath
  by_cases hk : key = k
  · subst hk
    refine meets_openOrElse_read hun hpath' (by simp [tryOpenWithKey]) fun key' hkey' => ?_
    rw [← Except.ok.inj hkey']
    exact ⟨rfl, havail⟩
  · have hbak : d'.bak = none := hun.2.trans ((hkey key havail).resolve_left hk)
    refine meets_openOrElse_unreadable hun hpath' (by simp [tryOpenWithKey, Ne.symm hk]) rfl ?_
    refine meets_look hun ?_
    rw [hbak]
    exact meets_throw hun nofun

/-! ## Committed data -/

/-- What was last committed is at the path. -/
def CommittedAtPath (s : Session Key) : Prop :=
  ∀ db, s.committed = some db → ∃ key, s.disk.path = some (.encrypted key db)

/-- An open that does not have the key of the file fails and leaves the file and its backup. -/
def OpenRefuses (sqlcipherExport : Contents → Contents) (d : Disk Key) (o : Opening Key)
    (cut : Option ℕ) : Prop :=
  ∀ k db, d.path = some (.encrypted k db) → availableKey o d ≠ some k →
    (∀ r, ((openEncrypted sqlcipherExport).run.cutOff o cut d).1 = some r → ∃ e, r = .error e) ∧
      Untouched d ((openEncrypted sqlcipherExport).run.cutOff o cut d).2

def KeepsCommitted (sqlcipherExport : Contents → Contents) (s : Session Key) (e : StoreEvent Key) :
    Prop :=
  CommittedAtPath (s.step sqlcipherExport e) ∧
    ∀ o cut, e = .openDb o cut → OpenRefuses sqlcipherExport s.disk o cut

/-- An open that gets a key gets that of the file, or there is no backup. -/
def KeyFits (s : Session Key) : StoreEvent Key → Prop
  | .openDb o _ =>
    match s.disk.path, availableKey o s.disk with
    | some (.encrypted k _), some key => key = k ∨ s.disk.bak = none
    | _, _ => True
  | _ => True

instance (s : Session Key) (e : StoreEvent Key) : Decidable (KeyFits s e) := by
  unfold KeyFits
  split
  · split <;> infer_instance
  · infer_instance

omit [DecidableEq Key] in
theorem KeyFits.opens {s : Session Key} {cut : Option ℕ} (h : KeyFits s (.openDb o cut))
    (hpath : s.disk.path = some (.encrypted k db)) :
    ∀ key, availableKey o s.disk = some key → key = k ∨ s.disk.bak = none := by
  intro key hkey
  rw [KeyFits, hpath, hkey] at h
  exact h

theorem openRefuses_of_keyFits {s : Session Key} {cut : Option ℕ}
    (h : KeyFits s (.openDb o cut)) : OpenRefuses sqlcipherExport s.disk o cut := by
  intro k db hpath hkey
  obtain ⟨htouch, hresult⟩ :=
    (openEncrypted_meets sqlcipherExport hpath (h.opens hpath)).cutOff cut
  refine ⟨fun r hr => ?_, htouch⟩
  cases r with
  | error e => exact ⟨e, rfl⟩
  | ok key =>
    obtain ⟨rfl, havail⟩ := hresult _ hr key rfl
    exact absurd havail hkey

/-- One event. -/
theorem CommittedAtPath.step {s : Session Key} (h : CommittedAtPath s) {e : StoreEvent Key}
    (he : KeyFits s e) : CommittedAtPath (s.step sqlcipherExport e) := by
  cases e with
  | openDb o cut =>
    intro db hdb
    obtain ⟨k, hpath⟩ := h db hdb
    obtain ⟨htouch, -⟩ :=
      (openEncrypted_meets sqlcipherExport hpath (he.opens hpath)).cutOff cut
    exact ⟨k, htouch.1.trans hpath⟩
  | commit new =>
    intro db hdb
    cases hconn : s.conn with
    | none =>
      simp only [Session.step, hconn] at hdb ⊢
      exact h db hdb
    | some key =>
      simp only [Session.step, hconn, Option.some.injEq] at hdb ⊢
      exact ⟨key, by rw [hdb]⟩
  | close => exact h
  | setEntry entry => exact h

/-- If every open has the key of the file or finds no backup, nothing that was committed is lost,
in any run. -/
theorem keepsCommitted_of_keyFits (sqlcipherExport : Contents → Contents) {s : Session Key}
    {es : List (StoreEvent Key)} (h : s.committed = none)
    (hkeys : EveryStep (Session.step sqlcipherExport) KeyFits s es) :
    EveryStep (Session.step sqlcipherExport) (KeepsCommitted sqlcipherExport) s es := by
  have hstart : CommittedAtPath s := by
    intro db hdb
    rw [h] at hdb
    cases hdb
  refine hkeys.of_invariant (fun s e hs he => hs.step he) (fun s e hs he => ⟨hs.step he, ?_⟩) hstart
  rintro o cut rfl
  exact openRefuses_of_keyFits he

end

def opening (generated : ℕ) : Opening ℕ :=
  ⟨false, generated, .unreadable, .unreadable, .unreadable⟩

def oldBook : Contents := ⟨3, [("clients", [["Acme Co"]])], by decide⟩

def newBook : Contents := ⟨3, [("clients", [["Acme Co"], ["Beta Ltd"]])], by decide⟩

/-- A plaintext database that was never opened by this build. -/
def plaintextDisk : Disk ℕ := ⟨some (.plain oldBook), none, none, none⟩

def withoutVersion (db : Contents) : Contents := { db with userVersion := 0 }

theorem keepsCommitted_same_key :
    EveryStep (Session.step withoutVersion) (KeepsCommitted withoutVersion)
      ⟨plaintextDisk, none, none⟩
      [.openDb (opening 1) (some 5), .openDb (opening 2) none, .commit newBook, .close,
        .openDb (opening 3) none] :=
  keepsCommitted_of_keyFits withoutVersion rfl (by decide)

/-- The entry of the credential store is lost: the open makes a new key, takes the file for a broken
one and puts the old plaintext database in its place. -/
theorem lost_key_loses_data :
    ¬EveryStep (Session.step withoutVersion) (KeepsCommitted withoutVersion)
      ⟨plaintextDisk, none, none⟩
      [.openDb (opening 1) none, .commit newBook, .close, .setEntry none,
        .openDb (opening 2) none] := by
  rintro ⟨-, -, -, -, ⟨hkept, -⟩, -⟩
  obtain ⟨key, hpath⟩ := hkept newBook (by decide)
  have hold : (run (Session.step withoutVersion) ⟨plaintextDisk, none, none⟩
      [.openDb (opening 1) none, .commit newBook, .close, .setEntry none,
        .openDb (opening 2) none]).disk.path = some (.encrypted 2 (withoutVersion oldBook)) := by
    decide
  cases hpath.symm.trans hold

/-! ## The migration of a plaintext database -/

/-- `sqlcipher_export` copies the tables, and does not set the `user_version` of the new database. -/
structure ExportSpec (sqlcipherExport : Contents → Contents) : Prop where
  tables : ∀ db, (sqlcipherExport db).tables = db.tables
  userVersion : ∀ db, (sqlcipherExport db).userVersion = 0

section

variable [DecidableEq Key]

theorem lookup_of_mem {α β : Type} [BEq α] [LawfulBEq α] {l : List (α × β)}
    (h : (l.map Prod.fst).Nodup) {t : α × β} (ht : t ∈ l) : l.lookup t.1 = some t.2 := by
  induction l with
  | nil => cases ht
  | cons t' l ih =>
    rw [List.map_cons, List.nodup_cons] at h
    obtain ⟨name, value⟩ := t'
    rcases List.mem_cons.mp ht with rfl | hmem
    · rw [List.lookup_cons, beq_self_eq_true]
    · have hne : t.1 ≠ name := by
        rintro rfl
        exact h.1 (List.mem_map.mpr ⟨t, hmem, rfl⟩)
      rw [List.lookup_cons, beq_false_of_ne hne]
      exact ih h.2 hmem

theorem verifyMigratedDb_of_tables {new : Contents} (h : new.tables = db.tables) :
    verifyMigratedDb key (some (.plain db)) (some (.encrypted key new)) = true := by
  simp only [verifyMigratedDb, Option.bind_some, readPlaintext, tryOpenWithKey, if_true]
  rw [List.all_eq_true]
  intro t ht
  rw [h, lookup_of_mem db.distinct ht]
  simp

/-- A whole copy is at the path, plaintext or migrated. -/
def WholeCopy (sqlcipherExport : Contents → Contents) (key : Key) (db : Contents) (d : Disk Key) :
    Prop :=
  d.entry = some key ∧
    (d.path = some (.plain db) ∨ d.path = some (.encrypted key (sqlcipherExport db)))

theorem exportAndReplace_meets (hspec : ExportSpec sqlcipherExport)
    (hpath : d.path = some (.plain db)) (hentry : d.entry = some key) :
    Meets o (WholeCopy sqlcipherExport key db)
      (fun r d' => r = .ok () ∧ d'.entry = some key ∧
        d'.path = some (.encrypted key (sqlcipherExport db)))
      (exportAndReplace sqlcipherExport key).run d := by
  have hI : ∀ migrating, WholeCopy sqlcipherExport key db { d with migrating := migrating } :=
    fun _ => ⟨hentry, .inl hpath⟩
  have hnew : ((d.path.bind readPlaintext).map fun db => File.encrypted key (sqlcipherExport db)) =
      some (.encrypted key (sqlcipherExport db)) := by
    rw [hpath]
    rfl
  have hverify : verifyMigratedDb key d.path
      ((d.path.bind readPlaintext).map fun db => .encrypted key (sqlcipherExport db)) = true := by
    rw [hnew, hpath]
    exact verifyMigratedDb_of_tables (hspec.tables db)
  refine meets_change (hI _) (meets_change (hI _) (meets_change (hI _) (meets_look (hI _) ?_)))
  rw [if_pos hverify]
  exact meets_atomically_bind (f := fun _ => pure ()) (hI _)
    (meets_pure ⟨hentry, .inr hnew⟩ ⟨rfl, hentry, hnew⟩)

theorem migrate_meets (hspec : ExportSpec sqlcipherExport) (hpath : d.path = some (.plain db))
    (hentry : d.entry = some key) :
    Meets o (WholeCopy sqlcipherExport key db)
      (fun r d' => r = .ok () ∧ d'.entry = some key ∧
        d'.path = some (.encrypted key (sqlcipherExport db)))
      (migratePlaintextToEncrypted sqlcipherExport key).run d := by
  have hI : ∀ bak, WholeCopy sqlcipherExport key db { d with bak := bak } :=
    fun _ => ⟨hentry, .inl hpath⟩
  refine (backUp_meets hI).except_bind ?_ ?_
  · rintro _ d' - ⟨-, hd'⟩
    rw [hd']
    exact exportAndReplace_meets hspec hpath hentry
  · rintro e d' - ⟨he, -⟩
    cases he

/-- An open that reads the key leaves a whole copy wherever it is cut off, and if it is not cut off
it succeeds and has migrated the database. -/
theorem openEncrypted_migrates (hspec : ExportSpec sqlcipherExport) (hkeyring : o.keyringError = false)
    (h : WholeCopy sqlcipherExport key db d) :
    Meets o (WholeCopy sqlcipherExport key db)
      (fun r d' => r = .ok key ∧ d'.path = some (.encrypted key (sqlcipherExport db)))
      (openEncrypted sqlcipherExport).run d := by
  have hentry : d.entry = some key := h.1
  have hnone : d.entry ≠ none := by simp [hentry]
  refine (keyLiteral_meets h fun he => absurd he hnone).except_bind ?_ ?_
  · rintro key' d' hwhole ⟨-, hok⟩
    obtain ⟨havail, -⟩ := hok key' rfl
    have hkey : key' = key := by simpa [availableKey, hkeyring, hentry, eq_comm] using havail
    subst hkey
    rcases hwhole.2 with hpath | hpath
    · refine meets_openOrElse_plain hwhole hpath ((migrate_meets hspec hpath hwhole.1).imp ?_)
      rintro r d₁ - ⟨hr, -, hnew⟩
      exact ⟨hr, by simp [hnew, tryOpenWithKey], rfl, hnew⟩
    · exact meets_openOrElse_read hwhole hpath (by simp [tryOpenWithKey]) ⟨rfl, hpath⟩
  · rintro e d' - ⟨herror, -⟩
    rw [herror e rfl] at hkeyring
    cases hkeyring

/-! ## Opening again and again -/

/-- The disk after an open that is cut off somewhere or not. -/
def afterOpening (sqlcipherExport : Contents → Contents) (d : Disk Key)
    (attempt : Opening Key × Option ℕ) : Disk Key :=
  ((openEncrypted sqlcipherExport).run.cutOff attempt.1 attempt.2 d).2

theorem wholeCopy_run (hspec : ExportSpec sqlcipherExport) (h : WholeCopy sqlcipherExport key db d)
    {attempts : List (Opening Key × Option ℕ)}
    (hkeyring : ∀ a ∈ attempts, a.1.keyringError = false) :
    WholeCopy sqlcipherExport key db (run (afterOpening sqlcipherExport) d attempts) := by
  induction attempts generalizing d with
  | nil => exact h
  | cons a attempts ih =>
    have hstep := (openEncrypted_migrates hspec (hkeyring a List.mem_cons_self) h).cutOff a.2
    exact ih hstep.1 fun a' ha' => hkeyring a' (List.mem_cons_of_mem _ ha')

/-- A copy of the whole database. -/
def IsCopy (db : Contents) (f : Option (File Key)) : Prop :=
  f = some (.plain db) ∨ ∃ key, f = some (.encrypted key db)

/-- After these attempts the file or its backup is a whole copy, and an open that is not cut off has
a connection to the database. -/
def MigrationKeeps (sqlcipherExport : Contents → Contents) (db : Contents) (d : Disk Key)
    (attempts : List (Opening Key × Option ℕ)) : Prop :=
  (IsCopy db (run (afterOpening sqlcipherExport) d attempts).path ∨
    IsCopy db (run (afterOpening sqlcipherExport) d attempts).bak) ∧
  ∀ o, o.keyringError = false → ∃ key,
    ((openEncrypted sqlcipherExport).run.eval o
      (run (afterOpening sqlcipherExport) d attempts)).1 = .ok key ∧
    ((openEncrypted sqlcipherExport).run.eval o
      (run (afterOpening sqlcipherExport) d attempts)).2.path.bind (tryOpenWithKey key) = some db

/-- What the next open reads that is not cut off: the export of the plaintext database. -/
theorem opens_export (hspec : ExportSpec sqlcipherExport) (hpath : d.path = some (.plain db))
    (hentry : d.entry = some key) {attempts : List (Opening Key × Option ℕ)}
    (hkeyring : ∀ a ∈ attempts, a.1.keyringError = false) (ho : o.keyringError = false) :
    ((openEncrypted sqlcipherExport).run.eval o
      (run (afterOpening sqlcipherExport) d attempts)).1 = .ok key ∧
    ((openEncrypted sqlcipherExport).run.eval o
      (run (afterOpening sqlcipherExport) d attempts)).2.path.bind (tryOpenWithKey key) =
        some (sqlcipherExport db) := by
  have hwhole : WholeCopy sqlcipherExport key db d := ⟨hentry, .inl hpath⟩
  obtain ⟨hok, hnew⟩ := (openEncrypted_migrates hspec ho (wholeCopy_run hspec hwhole hkeyring)).eval
  exact ⟨hok, by simp [hnew, tryOpenWithKey]⟩

theorem ExportSpec.eq_self_iff (hspec : ExportSpec sqlcipherExport) :
    sqlcipherExport db = db ↔ db.userVersion = 0 := by
  rw [← hspec.userVersion db]
  have htables := hspec.tables db
  generalize sqlcipherExport db = new at htables
  cases db
  cases new
  simp_all [eq_comm]

/-- **The migration keeps the database exactly if it has no `user_version`.** -/
theorem migrationKeeps_iff (hspec : ExportSpec sqlcipherExport) (hpath : d.path = some (.plain db))
    (hentry : d.entry = some key) {attempts : List (Opening Key × Option ℕ)}
    (hkeyring : ∀ a ∈ attempts, a.1.keyringError = false) :
    MigrationKeeps sqlcipherExport db d attempts ↔ db.userVersion = 0 := by
  constructor
  · rintro ⟨-, hopen⟩
    obtain ⟨key', hok', hdb⟩ := hopen ⟨false, key, .empty, .empty, .empty⟩ rfl
    obtain ⟨hok, hnew⟩ := opens_export hspec hpath hentry hkeyring
      (o := ⟨false, key, .empty, .empty, .empty⟩) rfl
    obtain rfl := Except.ok.inj (hok'.symm.trans hok)
    exact hspec.eq_self_iff.mp (Option.some.inj (hnew.symm.trans hdb))
  · intro hversion
    have hsame := hspec.eq_self_iff.mpr hversion
    have hwhole := wholeCopy_run hspec (d := d) ⟨hentry, .inl hpath⟩ hkeyring
    refine ⟨.inl ?_, fun o ho => ⟨key, ?_⟩⟩
    · rcases hwhole.2 with hplain | henc
      · exact .inl hplain
      · exact .inr ⟨key, by rw [henc, hsame]⟩
    · have hopens := opens_export hspec hpath hentry hkeyring ho
      rw [hsame] at hopens
      exact hopens

end

theorem withoutVersion_exportSpec : ExportSpec withoutVersion := ⟨fun _ => rfl, fun _ => rfl⟩

/-- A database without a version survives two attempts that are cut off in the backup and in the
export. -/
theorem migrationKeeps_iff_cutOff :
    MigrationKeeps withoutVersion (withoutVersion oldBook)
      ⟨some (.plain (withoutVersion oldBook)), none, none, some 1⟩
      [(opening 1, some 4), (opening 1, some 8)] :=
  (migrationKeeps_iff withoutVersion_exportSpec rfl rfl (by decide)).mpr rfl

/-- A database of version 3 comes out of the migration with version 0. -/
theorem migration_loses_version :
    ¬MigrationKeeps withoutVersion oldBook ⟨some (.plain oldBook), none, none, some 1⟩ [] := by
  rintro ⟨-, hopen⟩
  obtain ⟨key, hok, hdb⟩ := hopen (opening 1) rfl
  obtain rfl : 1 = key := Except.ok.inj hok
  exact absurd (Option.some.inj hdb) (by decide)

end Desktop
