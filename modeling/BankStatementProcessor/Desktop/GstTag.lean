import BankStatementProcessor.Desktop.Classifier
import BankStatementProcessor.Infra.Utf8

/-!
# The GST tag

`detect_gst` looks for words, and for a registration number with a scan over the bytes of the
text. A slice at a byte where no character begins panics; such a run has no result.
-/

namespace Desktop

open Infra

/-- The words that name the tax. -/
def namesGst (n : List Char) : Bool :=
  contains n "IGST" || contains n "CGST" || contains n "SGST" ||
    (contains n "GST" &&
      (contains n "PAY" || contains n "PMT" || contains n "REFUND" || contains n "CHALLAN"))

def namesTax (n : List Char) : Bool :=
  contains n "INCOME TAX" || contains n "ADVANCE TAX" || contains n "TDS PMT" ||
    contains n "TRACES" || contains n "CHALLAN 28"

/-- The tests on one chunk. -/
def isGstinChunk (chunk : List Char) : Option Bool :=
  if utf8Len chunk = 15 ∧ isCharBoundary chunk 2 = true ∧ isCharBoundary chunk 7 = true ∧
      isCharBoundary chunk 11 = true then do
    let state ← slice chunk 0 2
    let letters ← slice chunk 2 7
    let digits ← slice chunk 7 11
    return state.all Char.isDigit && letters.all Char.isAlpha && digits.all Char.isDigit &&
      chunk.all Char.isAlphanum
  else some false

/-- One turn of the scan. -/
def gstinAt (n : List Char) (i : ℕ) : Option Bool :=
  if !isCharBoundary n i || !isCharBoundary n (i + 15) then some false
  else do
    let chunk ← slice n i (i + 15)
    isGstinChunk chunk

/-- The text that is searched. -/
def gstText (u : Unicode) (narration reference : String) : List Char :=
  u.toUppercase (narration.toList ++ ' ' :: reference.toList)

/-- The tag, if any. -/
def detectGst (u : Unicode) (narration reference : String) : Option (Option String) :=
  let n := gstText u narration reference
  if namesGst n then some (some "GST")
  else do
    let found ← (List.range (utf8Len n - 15)).anyM (gstinAt n)
    return if found then some "GST" else if namesTax n then some "TAX" else none

example : detectGst .ascii "GST CHALLAN" "" = some (some "GST") := by decide +kernel
example : detectGst .ascii "27AAPFU0939F1ZV ₹" "" = some (some "GST") := by decide +kernel

end Desktop
