import BankStatementProcessor.Desktop.Transaction
import Mathlib.Data.List.Infix

/-!
# Live validation and the status filter

`match_status` is the predicate behind every filter chip and every clickable summary item.
-/

namespace Desktop

open Infra

/-! ## The string functions it uses -/

/-- `char::is_whitespace`. -/
def isWhitespace (c : Char) : Bool :=
  let n := c.toNat
  (9 ≤ n && n ≤ 13) || (0x2000 ≤ n && n ≤ 0x200A) ||
    [0x20, 0x85, 0xA0, 0x1680, 0x2028, 0x2029, 0x202F, 0x205F, 0x3000].contains n

/-- `str::trim`. -/
def trim (cs : List Char) : List Char :=
  ((cs.dropWhile isWhitespace).reverse.dropWhile isWhitespace).reverse

/-- `str::len`, which counts bytes. -/
def len (cs : List Char) : ℕ := cs.foldl (fun n c => n + c.utf8Size) 0

/-- The upper case of one character. Beyond ASCII only the characters with an ASCII letter in
their upper case are mapped: no other one can complete the words looked for below. -/
def charToUppercase : Char → List Char
  | 'ß' => ['S', 'S']
  | 'ı' => ['I']
  | 'ŉ' => ['ʼ', 'N']
  | 'ſ' => ['S']
  | 'ǰ' => ['J', '\u030C']
  | 'ẖ' => ['H', '\u0331']
  | 'ẗ' => ['T', '\u0308']
  | 'ẘ' => ['W', '\u030A']
  | 'ẙ' => ['Y', '\u030A']
  | 'ẚ' => ['A', 'ʾ']
  | 'ﬀ' => ['F', 'F']
  | 'ﬁ' => ['F', 'I']
  | 'ﬂ' => ['F', 'L']
  | 'ﬃ' => ['F', 'F', 'I']
  | 'ﬄ' => ['F', 'F', 'L']
  | 'ﬅ' => ['S', 'T']
  | 'ﬆ' => ['S', 'T']
  | c => [c.toUpper]

/-- `str::to_uppercase`. -/
def toUppercase (cs : List Char) : List Char := cs.flatMap charToUppercase

/-- `str::contains`. -/
def contains (cs : List Char) (pat : String) : Bool := decide (pat.toList <:+: cs)

/-! ## Validation -/

/-- The failed checks of `validate_transaction`, in the order it makes them. -/
def validationReasons (t : Transaction) : List String :=
  let date := if t.date.isEmpty || len t.date.toList < 8 then ["Missing or invalid date"] else []
  let amount := match t.debit.or t.credit with
    | none => ["No amount (debit or credit)"]
    | some a =>
      (if !a.isFinite || F64.lt (.finite 2000000000) a.abs then
        ["Amount exceeds ₹200 crore"] else []) ++
      if a.lt (.finite 0) then ["Negative amount — check column detection"] else []
  let narration :=
    if len (trim t.narration.toList) < 2 then ["Empty or very short narration"] else []
  let balance := match t.balance with
    | none => []
    | some bal => if bal.lt (.finite (-1000000)) then ["Suspiciously negative balance"] else []
  let dup := if t.dupFlag then ["Possible duplicate transaction"] else []
  date ++ amount ++ narration ++ balance ++ dup

def validateTransaction (t : Transaction) : Bool × String :=
  ((validationReasons t).isEmpty, "; ".intercalate (validationReasons t))

/-- Tagged for review, or failing validation outside the suspense and manual buckets. -/
def effectiveNeedsReview (t : Transaction) : Bool :=
  match t.status with
  | .needsReview => true
  | .suspense => false
  | .manual => false
  | _ => !(validateTransaction t).1

/-! ## The status filter -/

/-- The double written `0.7`. -/
def highConfidence : F64 := .finite (mkRat 3152519739159347 4503599627370496)

/-- A tag names GST or tax. -/
def isGstTag (g : String) : Bool :=
  let u := toUppercase g.toList
  decide (['G', 'S', 'T'] <:+: u) || decide (['T', 'A', 'X'] <:+: u)

/-- `t` belongs to the bucket `s`. An unknown bucket holds everything. -/
def matchStatus (t : Transaction) (s : String) : Bool :=
  match s with
  | "unreviewed" => t.status == .unreviewed
  | "suspense" => t.status == .suspense
  | "high" => t.status == .classified && highConfidence.le t.confidence
  | "duplicates" => t.dupFlag
  | "gst" => t.tags.any isGstTag
  | "needs_review" => effectiveNeedsReview t
  | "credits" => t.credit.isSome && t.debit.isNone
  | "debits" => t.debit.isSome && t.credit.isNone
  | _ => true

end Desktop
