import BankStatementProcessor.Desktop.Loading

/-!
# Classification in the background

An AI run works on a copy of the transactions in a thread of its own. When it is done the copy
is put on the screen and written to the database, whatever was done in between.
-/

namespace Desktop

open Infra

/-- The copy of a run. The client and the rows of the table at that time are not part of it. -/
structure AiCopy where
  txns : List Transaction
  clientId : Option ℕ
  rows : List TransactionRow

/-- The end of a run: `classify` is what the AI made of the copy, vendors normalized. -/
def Screen.finishAiClassify (s : Screen) (classify : AutoClassify) (txns : List Transaction) :
    Screen :=
  let txns := (classify.classifyAll txns).2
  { s with
    st := { s.st with transactions := txns }
    db := ((s.db.upsertTransactions (s.st.clientId.getD 0) none txns).map Prod.fst).getD s.db }

structure AiScreen where
  screen : Screen
  dedupeHashes : List (ℕ × String)
  batch : Option BatchProgress
  copies : List AiCopy

inductive AiEvent where
  | start
  | finish (n : ℕ) (classify : AutoClassify)
  | edit (e : String × EditEvent)
  | view (e : String × ViewEvent)
  | loadFile (auto : AutoClassify) (f : Faults) (dedupEnabled : Bool) (file : StatementFile)
  | startBatch (f : Faults)
  | batchFile (f : Faults) (file : StatementFile)
  | finishBatch (auto : AutoClassify) (f : Faults)

namespace AiScreen

def store (s : AiScreen) : Store := ⟨s.screen.db, s.dedupeHashes⟩

def setStore (s : AiScreen) (store : Store) : AiScreen :=
  { s with screen := { s.screen with db := store.db }, dedupeHashes := store.dedupeHashes }

def loadFile (s : AiScreen) (auto : AutoClassify) (f : Faults) (dedupEnabled : Bool)
    (file : StatementFile) : AiScreen :=
  let clientId := s.screen.st.clientId
  let loaded := finishLoadFile auto f dedupEnabled clientId s.store file
  let s := s.setStore loaded.store
  if dedupEnabled && clientId.isSome && (realRows loaded.kept).isEmpty then s
  else
    let st := { s.screen.st.showing (auto.classifyAll loaded.kept).2 with undoStack := [] }
    let screen := { s.screen with
      st := st
      bankName := file.result.bankName
      accountNo := file.result.accountNo }
    { s with screen := screen }

def step (s : AiScreen) : AiEvent → AiScreen
  | .start =>
    { s with copies := s.copies ++
      [⟨s.screen.st.transactions, s.screen.st.clientId, s.screen.db.transactions.rows⟩] }
  | .finish n classify =>
    match s.copies[n]? with
    | none => s
    | some c =>
      { s with
        screen := s.screen.finishAiClassify classify c.txns
        copies := s.copies.eraseIdx n }
  | .edit e => { s with screen := s.screen.edit e }
  | .view e => { s with screen := s.screen.view e }
  | .loadFile auto f dedupEnabled file => s.loadFile auto f dedupEnabled file
  | .startBatch f =>
    let bp := Desktop.startBatch f s.store s.screen.st.transactions s.screen.st.clientId
    { s with batch := some bp }
  | .batchFile f file =>
    match s.batch with
    | none => s
    | some bp =>
      let (bp, loaded) := recordBatchSuccess f bp s.store file
      { (s.setStore loaded.store) with batch := some bp }
  | .finishBatch auto f =>
    match s.batch with
    | none => s
    | some bp =>
      if bp.allTxns.isEmpty then { s with batch := none }
      else
        let s := s.setStore (Desktop.finishBatch f bp s.store)
        { s with
          screen := { s.screen with st := s.screen.st.showing (auto.classifyAll bp.allTxns).2 }
          batch := none }

end AiScreen

end Desktop
