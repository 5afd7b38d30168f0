import BankStatementProcessor.Infra.CutOff
import BankStatementProcessor.Infra.StateMachine

/-!
# Encryption at rest

`open_encrypted` as a program on the database file, its `.bak` and its `.migrating` file, and
the entry of the credential store. A copy is made of a step that leaves a part of the file and a
step that leaves all of it, and so is an export; a rename is one step.

What SQLCipher makes of a database that it exports into a new file is a parameter.
-/

namespace Desktop

open Infra

/-- The contents of a database: its `user_version` and the rows of its tables. -/
structure Contents where
  userVersion : ℕ
  tables : List (String × List (List String))
  distinct : (tables.map Prod.fst).Nodup
deriving DecidableEq, Repr

/-- The contents of a file without bytes. -/
def Contents.empty : Contents := ⟨0, [], List.nodup_nil⟩

/-- What a file holds; `unreadable` is neither a database nor an encrypted one. -/
inductive File (Key : Type) where
  | empty
  | plain (db : Contents)
  | encrypted (key : Key) (db : Contents)
  | unreadable
deriving DecidableEq, Repr

structure Disk (Key : Type) where
  path : Option (File Key)
  bak : Option (File Key)
  migrating : Option (File Key)
  /-- The entry of the credential store. -/
  entry : Option Key
deriving DecidableEq, Repr

/-- What one open meets with. -/
structure Opening (Key : Type) where
  /-- The credential store cannot be read. -/
  keyringError : Bool
  /-- `generate_key_hex` -/
  generated : Key
  /-- Parts of files, as a copy or an export leaves them that is cut off. -/
  partOfBak : File Key
  partOfExport : File Key
  partOfRestore : File Key
deriving DecidableEq, Repr

inductive OpenError where
  | keyring
  | verification
  | reopen
  | noBackup
  | stillUnreadable
deriving DecidableEq, Repr

variable {Key : Type} [DecidableEq Key]

/-! ## What a file is -/

/-- What a connection reads that has opened the file with the key. -/
def tryOpenWithKey (key : Key) : File Key → Option Contents
  | .empty => some Contents.empty
  | .encrypted k db => if k = key then some db else none
  | .plain _ => none
  | .unreadable => none

/-- What a connection without a key reads. -/
def readPlaintext : File Key → Option Contents
  | .empty => some Contents.empty
  | .plain db => some db
  | .encrypted _ _ => none
  | .unreadable => none

def isPlaintextSqlite (f : File Key) : Bool := (readPlaintext f).isSome

abbrev OpenM (Key : Type) := ExceptT OpenError (Prog (Disk Key) (Opening Key))

def look {α : Type} (f : Disk Key → α) : OpenM Key α := ExceptT.lift (Prog.query fun _ d => f d)

/-- A step that changes the disk. -/
def change (f : Opening Key → Disk Key → Disk Key) : OpenM Key Unit :=
  ExceptT.lift (Prog.atomically fun o d => ((), f o d))

/-! ## The key -/

def generateKeyHex : OpenM Key Key := ExceptT.lift (Prog.query fun o _ => o.generated)

/-- `get_password`, which fails, or has the entry if there is one. -/
def getPassword : OpenM Key (Option Key) :=
  ExceptT.lift (Prog.query fun o d => if o.keyringError then none else some d.entry) >>=
    fun r => match r with
      | none => throw .keyring
      | some entry => pure entry

def keyLiteral : OpenM Key Key := do
  match ← getPassword with
  | some key => return key
  | none =>
    let key ← generateKeyHex
    change fun _ d => { d with entry := some key }
    return key

/-! ## The migration of a plaintext database -/

/-- The checks of `verify_migrated_db`: the new file can be read with the key, and each table of the
original has as many rows in it. -/
def verifyMigratedDb (key : Key) (original new : Option (File Key)) : Bool :=
  match original.bind readPlaintext, new.bind (tryOpenWithKey key) with
  | some orig, some db => orig.tables.all fun t =>
      (db.tables.lookup t.1).any fun rows => rows.length == t.2.length
  | _, _ => false

/-- A backup of an earlier attempt is kept. -/
def backUp : OpenM Key Unit := do
  if (← look Disk.bak).isNone then
    change fun o d => { d with bak := some o.partOfBak }
    change fun _ d => { d with bak := d.path }

section

variable (sqlcipherExport : Contents → Contents)

def exportAndReplace (key : Key) : OpenM Key Unit := do
  change fun _ d => { d with migrating := none }
  change fun o d => { d with migrating := some o.partOfExport }
  change fun _ d => { d with
    migrating := (d.path.bind readPlaintext).map fun db => .encrypted key (sqlcipherExport db) }
  if ← look fun d => verifyMigratedDb key d.path d.migrating then
    change fun _ d => { d with path := d.migrating, migrating := none }
  else
    change fun _ d => { d with migrating := none }
    throw .verification

def migratePlaintextToEncrypted (key : Key) : OpenM Key Unit := do
  backUp
  exportAndReplace sqlcipherExport key

/-! ## An open -/

/-- The body of the loop of `open_encrypted`; `unreadable` is what it does with a file that can be
read in no way. The result is the key of the connection. -/
def openOrElse (key : Key) (unreadable : OpenM Key Key) : OpenM Key Key := do
  match ← look Disk.path with
  | none =>
    change fun _ d => { d with path := some .empty }
    return key
  | some file =>
    if (tryOpenWithKey key file).isSome then
      return key
    else if isPlaintextSqlite file then
      migratePlaintextToEncrypted sqlcipherExport key
      if (← look fun d => d.path.bind (tryOpenWithKey key)).isSome then
        return key
      else
        throw .reopen
    else
      unreadable

/-- The loop goes round a second time after it has restored the backup. -/
def openLoop (key : Key) : OpenM Key Key :=
  openOrElse sqlcipherExport key do
    if (← look Disk.bak).isNone then
      throw .noBackup
    else
      change fun o d => { d with path := some o.partOfRestore }
      change fun _ d => { d with path := d.bak }
      openOrElse sqlcipherExport key (throw .stillUnreadable)

def openEncrypted : OpenM Key Key := do
  let key ← keyLiteral
  openLoop sqlcipherExport key

end

/-! ## Runs -/

structure Session (Key : Type) where
  disk : Disk Key
  /-- The key of the open connection. -/
  conn : Option Key
  /-- What was last committed through a connection. -/
  committed : Option Contents
deriving DecidableEq, Repr

inductive StoreEvent (Key : Type) where
  /-- An open, cut off after some steps by a crash or by an operation that fails. -/
  | openDb (o : Opening Key) (cut : Option ℕ)
  | commit (db : Contents)
  /-- The process ends. -/
  | close
  /-- The credential store loses its entry or gets another one. -/
  | setEntry (entry : Option Key)
deriving DecidableEq, Repr

def Session.step (sqlcipherExport : Contents → Contents) (s : Session Key) :
    StoreEvent Key → Session Key
  | .openDb o cut =>
    let (result, disk) := (openEncrypted sqlcipherExport).run.cutOff o cut s.disk
    { s with
      disk := disk
      conn := match result with
        | some (.ok key) => some key
        | _ => none }
  | .commit db =>
    match s.conn with
    | none => s
    | some key => { s with
        disk := { s.disk with path := some (.encrypted key db) }
        committed := some db }
  | .close => { s with conn := none }
  | .setEntry entry => { s with disk := { s.disk with entry := entry } }

end Desktop
