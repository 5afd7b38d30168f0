import BankStatementProcessor.Desktop.Classifier
import BankStatementProcessor.Desktop.Db
import BankStatementProcessor.Infra.Capture

/-!
# The classification rules and their backup

The rules of a client are rows of `classification_rules`. `export_rules_json` writes them as
JSON by hand, and `import_rules_json` finds them again with a regular expression.
-/

namespace Desktop

open Infra

/-! ## The table -/

structure RuleRow where
  id : ℕ
  clientId : ℕ
  pattern : String
  vendor : Option String
  accountHead : Option String
  txnType : Option String
  priority : ℤ
deriving DecidableEq, Repr

/-- A text as `COLLATE NOCASE` compares it. -/
def noCase (s : String) : List Char := s.toList.map Char.toLower

/-- The columns of `idx_classification_rules_unique`. -/
def RuleRow.index (r : RuleRow) : ℕ × List Char := (r.clientId, noCase r.pattern)

/-- A rule refers to a client, and the ids of clients begin at 1. -/
structure RuleDb where
  clients : Table Client Client.id
  rules : Table RuleRow RuleRow.id
  clients_pos : ∀ c ∈ clients.rows, 0 < c.id
  rules_client : ∀ r ∈ rules.rows, ∃ c ∈ clients.rows, c.id = r.clientId
  rules_unique : UniqueOn (fun r => some r.index) rules.rows

/-- A rule as an `INSERT` gives it. -/
structure RuleText where
  pattern : String
  vendor : String
  accountHead : String
  txnType : String
deriving DecidableEq, Repr

def RuleText.toRow (t : RuleText) (clientId : ℕ) (priority : ℤ) (id : ℕ) : RuleRow where
  id := id
  clientId := clientId
  pattern := t.pattern
  vendor := some t.vendor
  accountHead := some t.accountHead
  txnType := some t.txnType
  priority := priority

/-- What `get_rules` makes of a row. -/
def RuleRow.toRule (r : RuleRow) : ClassificationRule where
  id := r.id
  clientId := r.clientId
  pattern := r.pattern
  vendor := r.vendor.getD ""
  accountHead := r.accountHead.getD ""
  txnType := r.txnType.getD ""

/-- `priority DESC, id` -/
def RuleRow.before (r r' : RuleRow) : Bool :=
  r'.priority < r.priority || (r.priority == r'.priority && r.id ≤ r'.id)

namespace RuleDb

/-- The rows stored for a client. -/
def stored (db : RuleDb) (clientId : ℕ) : List RuleRow :=
  db.rules.rows.filter (fun r => r.clientId = clientId)

/-- `INSERT OR IGNORE` and the number of rows it inserts. It fails on an unknown client. -/
def insertOrIgnore (db : RuleDb) (clientId : ℕ) (t : RuleText) (priority : ℤ) :
    Option (RuleDb × ℕ) :=
  if htaken : ∃ r ∈ db.rules.rows, r.index = (clientId, noCase t.pattern) then
    some (db, 0)
  else if hclient : ∃ c ∈ db.clients.rows, c.id = clientId then
    some ({ db with
      rules := db.rules.insert (t.toRow clientId priority) (fun _ => rfl)
      rules_client := by
        intro r hr
        rcases Table.mem_insert.mp hr with hr | rfl
        · exact db.rules_client r hr
        · exact hclient
      rules_unique := by
        refine db.rules_unique.insert ?_
        intro r hr b hb hrb
        rw [← hb, Option.some.injEq] at hrb
        exact htaken ⟨r, hr, hrb⟩ }, 1)
  else none

/-- `add_rule` answers whether the rule is new. -/
def addRule (db : RuleDb) (clientId : ℕ) (t : RuleText) : Option (RuleDb × Bool) :=
  (db.insertOrIgnore clientId t 0).map fun (db, rows) => (db, rows > 0)

/-- `get_rules`, the rules of the client and the global ones. -/
def getRules (db : RuleDb) (clientId : ℕ) : List ClassificationRule :=
  ((db.rules.rows.filter fun r => r.clientId = clientId || r.clientId = 0).mergeSort
    RuleRow.before).map RuleRow.toRule

/-- `DELETE FROM classification_rules WHERE client_id = ?1` -/
def deleteRules (db : RuleDb) (clientId : ℕ) : RuleDb :=
  { db with
    rules := db.rules.keep (fun r => r.clientId ≠ clientId)
    rules_client := fun r hr => db.rules_client r (List.mem_of_mem_filter hr)
    rules_unique := db.rules_unique.keep _ }

end RuleDb

/-! ## Export -/

/-- `str::replace` of one character. -/
def replaceChar (c : Char) (text cs : List Char) : List Char :=
  cs.flatMap fun d => if d = c then text else [d]

def jsonEscape (cs : List Char) : List Char :=
  replaceChar '"' ['\\', '"'] (replaceChar '\\' ['\\', '\\'] cs)

/-- `json_str` -/
def jsonStr (s : String) : List Char := '"' :: (jsonEscape s.toList ++ ['"'])

/-- The JSON object of a rule. -/
def ruleObject (r : ClassificationRule) : List Char :=
  '{' :: ("\"pattern\":".toList ++ jsonStr r.pattern ++ ",\"vendor\":".toList ++
    jsonStr r.vendor ++ ",\"account_head\":".toList ++ jsonStr r.accountHead ++
    ",\"txn_type\":".toList ++ jsonStr r.txnType ++ ['}'])

def rulesJson (rules : List ClassificationRule) : List Char :=
  "\x7b\"version\":1,\"rules\":[".toList ++ [','].intercalate (rules.map ruleObject) ++ "]\x7d".toList

def RuleDb.exportRulesJson (db : RuleDb) (clientId : ℕ) : String :=
  String.ofList (rulesJson (db.getRules clientId))

/-! ## Import -/

/-- `str::find`: the text from the first place on where `pat` stands. -/
def findText (pat : List Char) : List Char → Option (List Char)
  | [] => if pat.isEmpty then some [] else none
  | c :: cs => if pat.isPrefixOf (c :: cs) then some (c :: cs) else findText pat cs

/-- What follows the bracket of the `"rules"` array. -/
def rulesArray (json : List Char) : Option (List Char) :=
  ((findText "\"rules\"".toList json).bind (findText ['['])).map List.tail

section

open Piece

/-- `"key"\s*:\s*"([^"]*)"`, after the key's opening quote and name. -/
def keyedGroup (key : List Char) : List Piece :=
  [.lit ('"' :: key ++ ['"']), .run isSpace, .lit [':'], .run isSpace, .lit ['"'],
    .group (· != '"'), .lit ['"']]

/-- `\s*,\s*` -/
def commaPieces : List Piece := [.run isSpace, .lit [','], .run isSpace]

/-- `obj_re` -/
def objRe : List Piece :=
  keyedGroup "pattern".toList ++ commaPieces ++ keyedGroup "vendor".toList ++ commaPieces ++
    keyedGroup "account_head".toList ++ commaPieces ++ keyedGroup "txn_type".toList

/-- The rule of one match; a group that took no part is empty. -/
def capturedRule (groups : List (List Char)) : RuleText where
  pattern := String.ofList (groups.getD 0 [])
  vendor := String.ofList (groups.getD 1 [])
  accountHead := String.ofList (groups.getD 2 [])
  txnType := String.ofList (groups.getD 3 [])

/-- The rules that `captures_iter` finds in the array. -/
def capturedRules (slice : List Char) : List RuleText :=
  (captures objRe 0 slice).map capturedRule

end

/-- Which of the writes of an import fail; inserts are counted from 0. -/
structure WriteFaults where
  delete : Bool
  insert : ℕ → Bool

def WriteFaults.none : WriteFaults := ⟨false, fun _ => false⟩

/-- The loop of `import_rules_json`, before its `n`-th insert. -/
def insertCaptured (clientId : ℕ) (fails : ℕ → Bool) :
    List RuleText → ℕ → RuleDb → ℕ → RuleDb × Except String ℕ
  | [], _, db, count => (db, .ok count)
  | t :: ts, n, db, count =>
    if t.pattern.isEmpty then insertCaptured clientId fails ts n db count
    else if fails n then (db, .error "import_rules_json insert")
    else match db.insertOrIgnore clientId t 1 with
      | none => (db, .error "import_rules_json insert")
      | some (db, inserted) => insertCaptured clientId fails ts (n + 1) db (count + inserted)

/-- `import_rules_json`. No transaction is open, so what was written before an error stays. -/
def RuleDb.importRulesJson (db : RuleDb) (clientId : ℕ) (json : String) (faults : WriteFaults) :
    RuleDb × Except String ℕ :=
  match rulesArray json.toList with
  | none => (db, .error "no 'rules' array in backup JSON")
  | some slice =>
    if faults.delete then (db, .error "import_rules_json delete")
    else insertCaptured clientId faults.insert (capturedRules slice) 0 (db.deleteRules clientId) 0

end Desktop
