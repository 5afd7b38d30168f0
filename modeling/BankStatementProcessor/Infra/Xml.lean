import Mathlib.Data.List.Infix

/-!
# XML documents

A reader of XML 1.0 documents that are made of elements, attributes, text and references. It is a
machine that takes one character after the other. What it gives are the marks of the document in
order, each with the text before it; elements are nested rightly and there is one root.

A document with comments, CDATA sections, processing instructions or a document type is not read,
and of the declarations only that of version 1.0 in UTF-8.
-/

namespace Infra

namespace Xml

abbrev Text := List Char

/-! ## Characters -/

/-- `Char` of XML 1.0. -/
def isXmlChar (c : Char) : Bool :=
  let n := c.toNat
  (0x20 ≤ n && n ≤ 0xD7FF) || n == 0x9 || n == 0xA || n == 0xD || (0xE000 ≤ n && n ≤ 0xFFFD) ||
    0x10000 ≤ n

/-- `S` -/
def isSpace (c : Char) : Bool := c == ' ' || c == '\t' || c == '\n' || c == '\r'

/-- `NameStartChar` -/
def isNameStart (c : Char) : Bool :=
  c.isAlpha || c == '_' || c == ':' ||
    [(0xC0, 0xD6), (0xD8, 0xF6), (0xF8, 0x2FF), (0x370, 0x37D), (0x37F, 0x1FFF), (0x200C, 0x200D),
      (0x2070, 0x218F), (0x2C00, 0x2FEF), (0x3001, 0xD7FF), (0xF900, 0xFDCF), (0xFDF0, 0xFFFD),
      (0x10000, 0xEFFFF)].any fun range => range.1 ≤ c.toNat && c.toNat ≤ range.2

/-- `NameChar` -/
def isNameChar (c : Char) : Bool :=
  c.isAlphanum || c == '-' || c == '.' || isNameStart c || c.toNat == 0xB7 ||
    (0x300 ≤ c.toNat && c.toNat ≤ 0x36F) || (0x203F ≤ c.toNat && c.toNat ≤ 0x2040)

/-- The value of the digits of a character reference. -/
def refDigits (base : ℕ) : Text → Option ℕ
  | [] => none
  | cs => cs.foldl (fun n c => do
      let n ← n
      let d ←
        if c.isDigit then some (c.toNat - 48)
        else if base = 16 && 'a' ≤ c && c ≤ 'f' then some (c.toNat - 87)
        else if base = 16 && 'A' ≤ c && c ≤ 'F' then some (c.toNat - 55)
        else none
      return base * n + d) (some 0)

/-- The character that a reference names. -/
def reference : Text → Option Char
  | ['a', 'm', 'p'] => some '&'
  | ['l', 't'] => some '<'
  | ['g', 't'] => some '>'
  | ['q', 'u', 'o', 't'] => some '"'
  | ['a', 'p', 'o', 's'] => some '\x27'
  | '#' :: 'x' :: ds => ((refDigits 16 ds).filter Nat.isValidChar).map Char.ofNat |>.filter isXmlChar
  | '#' :: ds => ((refDigits 10 ds).filter Nat.isValidChar).map Char.ofNat |>.filter isXmlChar
  | _ => none

/-! ## The reader -/

structure Tag where
  name : Text
  attributes : List (Text × Text)
deriving DecidableEq, Repr

inductive Mark where
  | start (tag : Tag)
  | close (name : Text)
deriving DecidableEq, Repr

/-- A mark and the text before it. -/
structure Piece where
  before : Text
  mark : Mark
deriving DecidableEq, Repr

/-- Where in a document a reader stands. -/
inductive Place where
  /-- In text, after so many brackets in a row. -/
  | content (acc : Text) (brackets : ℕ)
  | contentRef (acc ref : Text)
  /-- After `<`. -/
  | markup (before : Text)
  | startName (before : Text) (name : Text)
  | startGap (before : Text) (tag : Tag)
  | attrName (before : Text) (tag : Tag) (attr : Text)
  | attrGap (before : Text) (tag : Tag) (attr : Text)
  /-- After `=`. -/
  | attrEq (before : Text) (tag : Tag) (attr : Text)
  | value (before : Text) (tag : Tag) (attr : Text) (quote : Char) (acc : Text)
  | valueRef (before : Text) (tag : Tag) (attr : Text) (quote : Char) (acc ref : Text)
  | valueEnd (before : Text) (tag : Tag)
  /-- After `/` in a start tag. -/
  | emptyTag (before : Text) (tag : Tag)
  | endName (before : Text) (name : Text)
  | endGap (before : Text) (name : Text)
deriving DecidableEq, Repr

structure Reader where
  /-- What has been read, the last piece first. -/
  pieces : List Piece
  opened : List Text
  place : Place
deriving DecidableEq, Repr

namespace Reader

/-- A start tag. A second root has none. -/
def openTag (r : Reader) (before : Text) (tag : Tag) : Option Reader :=
  if r.opened.isEmpty && !r.pieces.isEmpty then none
  else some { pieces := ⟨before, .start tag⟩ :: r.pieces, opened := tag.name :: r.opened
              place := .content [] 0 }

/-- An end tag closes the element opened last. -/
def closeTag (r : Reader) (before name : Text) : Option Reader :=
  match r.opened with
  | top :: opened =>
    if top = name then
      some { pieces := ⟨before, .close name⟩ :: r.pieces, opened, place := .content [] 0 }
    else none
  | [] => none

def goto (r : Reader) (place : Place) : Option Reader := some { r with place }

/-- A character in a reference. -/
def inReference (r : Reader) (c : Char) (ref : Text) (more : Text → Place) (done : Char → Place) :
    Option Reader :=
  if c = ';' then (reference ref).bind fun d => r.goto (done d)
  else if isNameChar c || c = '#' then r.goto (more (ref ++ [c]))
  else none

/-- One character. -/
def step (r : Reader) (c : Char) : Option Reader :=
  if !isXmlChar c then none
  else
    match r.place with
    | .content acc brackets =>
      if c = '<' then
        -- outside the root only white space may stand
        if r.opened.isEmpty && !acc.all isSpace then none else r.goto (.markup acc)
      else if c = '&' then if r.opened.isEmpty then none else r.goto (.contentRef acc [])
      else if c = '>' then if 2 ≤ brackets then none else r.goto (.content (acc ++ [c]) 0)
      else if c = ']' then r.goto (.content (acc ++ [c]) (brackets + 1))
      else r.goto (.content (acc ++ [c]) 0)
    | .contentRef acc ref =>
      r.inReference c ref (.contentRef acc) fun d => .content (acc ++ [d]) 0
    | .markup before =>
      if c = '/' then r.goto (.endName before [])
      else if isNameStart c then r.goto (.startName before [c])
      else none
    | .startName before name =>
      if isSpace c then r.goto (.startGap before ⟨name, []⟩)
      else if c = '>' then r.openTag before ⟨name, []⟩
      else if c = '/' then r.goto (.emptyTag before ⟨name, []⟩)
      else if isNameChar c then r.goto (.startName before (name ++ [c]))
      else none
    | .startGap before tag =>
      if isSpace c then some r
      else if c = '>' then r.openTag before tag
      else if c = '/' then r.goto (.emptyTag before tag)
      else if isNameStart c then r.goto (.attrName before tag [c])
      else none
    | .attrName before tag attr =>
      if c = '=' then r.goto (.attrEq before tag attr)
      else if isSpace c then r.goto (.attrGap before tag attr)
      else if isNameChar c then r.goto (.attrName before tag (attr ++ [c]))
      else none
    | .attrGap before tag attr =>
      if isSpace c then some r
      else if c = '=' then r.goto (.attrEq before tag attr)
      else none
    | .attrEq before tag attr =>
      if isSpace c then some r
      else if c = '"' || c = '\x27' then r.goto (.value before tag attr c [])
      else none
    | .value before tag attr quote acc =>
      if c = quote then
        -- an attribute is given once
        if tag.attributes.any (·.1 = attr) then none
        else r.goto (.valueEnd before { tag with attributes := tag.attributes ++ [(attr, acc)] })
      else if c = '<' then none
      else if c = '&' then r.goto (.valueRef before tag attr quote acc [])
      else r.goto (.value before tag attr quote (acc ++ [if isSpace c then ' ' else c]))
    | .valueRef before tag attr quote acc ref =>
      r.inReference c ref (.valueRef before tag attr quote acc)
        fun d => .value before tag attr quote (acc ++ [d])
    | .valueEnd before tag =>
      if isSpace c then r.goto (.startGap before tag)
      else if c = '>' then r.openTag before tag
      else if c = '/' then r.goto (.emptyTag before tag)
      else none
    | .emptyTag before tag =>
      if c = '>' then (r.openTag before tag).bind fun r => r.closeTag [] tag.name else none
    | .endName before name =>
      if c = '>' then r.closeTag before name
      else if isSpace c then r.goto (.endGap before name)
      else if isNameChar c then r.goto (.endName before (name ++ [c]))
      else none
    | .endGap before name =>
      if isSpace c then some r else if c = '>' then r.closeTag before name else none

def run (r : Reader) : Text → Option Reader
  | [] => some r
  | c :: cs => (r.step c).bind (run · cs)

end Reader

/-- Each line break is read as a line feed. -/
def lineEnds : Text → Text
  | '\r' :: '\n' :: cs => '\n' :: lineEnds cs
  | '\r' :: cs => '\n' :: lineEnds cs
  | c :: cs => c :: lineEnds cs
  | [] => []

/-- The declaration that may stand first. -/
def declaration : Text := "<?xml version=\"1.0\" encoding=\"UTF-8\"?>".toList

def dropDeclaration (text : Text) : Text :=
  if declaration.isPrefixOf text then text.drop declaration.length else text

/-- A reader before a document. -/
def Reader.init : Reader := { pieces := [], opened := [], place := .content [] 0 }

/-- What a reader has read at the end of a document. -/
def Reader.finish (r : Reader) : Option (List Piece) :=
  match r.opened, r.place with
  | [], .content acc _ => if acc.all isSpace && !r.pieces.isEmpty then some r.pieces.reverse else none
  | _, _ => none

/-- The pieces of a document, if it is well-formed. -/
def read (text : Text) : Option (List Piece) :=
  (Reader.init.run (dropDeclaration (lineEnds text))).bind Reader.finish

example : read "<a b=\"1&lt;\n\">x&#x26;<c/> </a>\n".toList =
    some [⟨[], .start ⟨['a'], [(['b'], ['1', '<', ' '])]⟩⟩, ⟨['x', '&'], .start ⟨['c'], []⟩⟩,
      ⟨[], .close ['c']⟩, ⟨[' '], .close ['a']⟩] := by decide +kernel

end Xml

end Infra
