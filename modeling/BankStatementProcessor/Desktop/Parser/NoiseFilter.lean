import BankStatementProcessor.Desktop.Analytics
import BankStatementProcessor.Infra.Regex

/-!
# Noise rows

`is_noise_row`: the rows that are taken for totals, balances and repeated headers. Only the
narration is looked at.
-/

namespace Desktop.Parser

open Infra

/-- `[a-z\s]` -/
def letterOrSpace : Regex := .one fun _ c => ('a' ≤ c && c ≤ 'z') || isSpace c

/-- `balance|bal` -/
def balanceOrBal : Regex := .alts [.lit "balance", .lit "bal"]

/-- `^`, the words of a header or a balance row, and `\b`. -/
def leading (rs : List Regex) : Regex := .seqs ([.start] ++ rs ++ [.boundary])

def totals : List Regex :=
  [leading [.opt (.seqs [.lit "grand", .spaces]), .lit "total"],
    leading [.lit "sub", .opt (.alts [.space, .char '-']), .lit "total"],
    leading [.lit "closing", .spaces, balanceOrBal],
    leading [.lit "opening", .spaces, balanceOrBal],
    leading [.lit "brought", .spaces1, .lit "forward"],
    leading [.lit "balance", .spaces1, .lit "brought", .spaces1, .lit "forward"],
    leading [.lit "b", .spaces, .oneOf ['/', '\\'], .spaces, .oneOf ['f', 'd']],
    leading [.lit "balance", .spaces,
      .alts [.lit "c/f", .lit "b/f", .seqs [.lit "carried", .spaces, .lit "forward"], .lit "bf",
        .lit "cf"]],
    leading [.lit "carried", .spaces1, .lit "forward"],
    leading [.lit "c/f"],
    leading [.lit "b/f"],
    leading [.lit "balance", .spaces1, .lit "as", .spaces1,
      .alts [.lit "on", .lit "at", .lit "of"]],
    leading [.lit "available", .spaces, .lit "balance"],
    leading [.lit "ledger", .spaces, .lit "balance"],
    leading [.lit "total", .spaces, .lit "balance"],
    leading [.lit "statement", .spaces, .alts [.lit "of", .lit "summary"]],
    leading [.lit "op", .opt (.char '.'), .spaces, balanceOrBal],
    leading [.lit "prev", .opt (.lit "ious"), .spaces,
      .alts [.lit "balance", .lit "bal", .lit "closing"]],
    leading [.lit "balance", .spaces, .alts [.lit "forward", .lit "fwd"]],
    leading [.lit "net", .spaces, balanceOrBal],
    -- the one pattern that is looked for anywhere
    .seqs [.boundary, .lit "page", .spaces, .lit "total", .boundary],
    .seqs [.start, .lit "page", .spaces1, .plus .digit,
      .opt (.seqs [.spaces1, .lit "of", .spaces1, .plus .digit]), .stop],
    .seqs [.start, .plus .digit, .spaces1, .lit "of", .spaces1, .plus .digit, .stop],
    .seqs [.start, .plus letterOrSpace, .lit "bank", .spaces1, .plus .digit, .plus (.char 'x'),
      .plus .digit, .stop],
    .seqs [.start, .plus letterOrSpace, .lit "bank", .spaces1, .atLeast 10 .digit, .stop]]

/-- `transaction` and `tran` before the name of a column. -/
def transactionColumn : List Regex :=
  [.spaces, .alts [.lit "date", .lit "details", .lit "id", .lit "no"]]

def hdrs : List Regex :=
  [leading [.lit "date"],
    leading [.lit "narration"],
    leading [.lit "particulars"],
    leading [.lit "description"],
    leading (.lit "transaction" :: transactionColumn),
    leading (.lit "tran" :: transactionColumn),
    leading [.lit "debit"],
    leading [.lit "credit"],
    leading [.lit "balance"],
    leading [.lit "amount"],
    leading [.lit "withdrawal"],
    leading [.lit "deposit"],
    leading [.lit "chq"],
    leading [.lit "cheque"],
    leading [.lit "reference"],
    leading [.lit "remarks"],
    leading [.lit "s", .opt (.char '.'), .spaces, .lit "no"],
    leading [.lit "sr", .opt (.char '.'), .spaces, .lit "no"],
    leading [.lit "sl", .opt (.char '.'), .spaces, .lit "no"],
    leading [.lit "serial", .spaces, .alts [.lit "no", .lit "number"]],
    .seqs [.start, .lit "receipt", .boundary, .opt (.char '?'), .stop],
    .seqs [.start, .plus (.oneOf ['✓', '✗', '✔', '✘']), .stop]]

def isNoiseRow (u : Unicode) (narration : List Char) : Bool :=
  let nl := trim (u.toLowercase narration)
  !nl.isEmpty && (totals.any (·.isMatch u nl) || hdrs.any (·.isMatch u nl))

end Desktop.Parser
