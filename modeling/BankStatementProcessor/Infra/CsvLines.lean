import BankStatementProcessor.Infra.Csv

/-!
# Comma-separated values with any line break

A reader for which a record ends at a line feed, a carriage return or both in a row. A carriage
return that stands in a field without quotes splits the field.
-/

namespace Infra

namespace Csv

/-- Where a reader stands. -/
inductive Spot where
  | opening
  | plain
  | quoted
  /-- After a quote in a quoted field, which closes the field or is the first of two. -/
  | closing
  /-- After a line break. -/
  | lineStart
  /-- After a carriage return, which a line feed may complete. -/
  | afterReturn
deriving DecidableEq, Repr

/-- The records of a text, by a reader that has read `record` and of the next field `field`. -/
def readFrom (spot : Spot) (record : List Field) (field : Field) :
    List Char → Option (List (List Field))
  | [] =>
    if spot = .quoted then none
    else if spot = .lineStart ∨ spot = .afterReturn then some []
    else some [record ++ [field]]
  | c :: cs =>
    if spot = .quoted then
      if c = '"' then readFrom .closing record field cs
      else readFrom .quoted record (field ++ [c]) cs
    else if spot = .afterReturn ∧ c = '\n' then readFrom .lineStart [] [] cs
    else if c = '\n' then (readFrom .lineStart [] [] cs).map ((record ++ [field]) :: ·)
    else if c = '\r' then (readFrom .afterReturn [] [] cs).map ((record ++ [field]) :: ·)
    else if c = ',' then readFrom .opening (record ++ [field]) [] cs
    else if spot = .closing then
      if c = '"' then readFrom .quoted record (field ++ ['"']) cs else none
    else if c = '"' then
      if spot = .plain then none else readFrom .quoted record field cs
    else readFrom .plain record (field ++ [c]) cs

/-- The records of a text. A text has at least one. -/
def read (text : List Char) : Option (List (List Field)) := readFrom .opening [] [] text

example : read "a,\"b\r\"\"\"\rc".toList = some [[['a'], ['b', '\r', '"']], [['c']]] := by
  decide +kernel

section

variable {spot : Spot} {record : List Field} {field f : Field} {w rest : List Char}

theorem readFrom_quoted (field f : Field) :
    readFrom .quoted record field
        (f.flatMap (fun c => if c = '"' then ['"', '"'] else [c]) ++ '"' :: rest) =
      readFrom .closing record (field ++ f) rest := by
  induction f generalizing field with
  | nil =>
    rw [List.flatMap_nil, List.nil_append, readFrom, if_pos rfl, if_pos rfl, List.append_nil]
  | cons c f ih =>
    rw [List.flatMap_cons, List.append_assoc]
    by_cases hc : c = '"'
    · subst hc
      rw [if_pos rfl, List.cons_append, List.singleton_append, readFrom, if_pos rfl, if_pos rfl]
      simp only [readFrom, reduceCtorEq, if_false, if_true, Char.reduceEq, false_and]
      rw [ih, List.append_assoc, List.singleton_append]
    · rw [if_neg hc, List.singleton_append, readFrom, if_pos rfl, if_neg hc, ih,
        List.append_assoc, List.singleton_append]

/-- Where a reader can stand within a field that has no quotes. -/
def Spot.InPlain (spot : Spot) : Prop := spot = .opening ∨ spot = .plain

theorem readFrom_plain (hf : IsPlain f) (hspot : spot.InPlain) (field : Field) (hne : f ≠ []) :
    readFrom spot record field (f ++ rest) = readFrom .plain record (field ++ f) rest := by
  induction f generalizing spot field with
  | nil => exact absurd rfl hne
  | cons c f ih =>
    obtain ⟨hquote, hcomma, hlf, hcr⟩ := hf c List.mem_cons_self
    have hstep : readFrom spot record field (c :: (f ++ rest)) =
        readFrom .plain record (field ++ [c]) (f ++ rest) := by
      rcases hspot with rfl | rfl <;> simp [readFrom, hquote, hcomma, hlf, hcr]
    rw [List.cons_append, hstep]
    by_cases hnil : f = []
    · rw [hnil, List.nil_append]
    · rw [ih (fun x hx => hf x (List.mem_cons_of_mem _ hx)) (Or.inr rfl) _ hnil,
        List.append_assoc, List.singleton_append]

/-- Where a reader stands at the end of a field. -/
def Spot.AtEnd (spot : Spot) : Prop := spot = .opening ∨ spot = .plain ∨ spot = .closing

/-- A written field is read, and the reader stands at its end. -/
theorem readFrom_written (h : Written w f) : ∃ spot : Spot, spot.AtEnd ∧
    ∀ record rest, readFrom .opening record [] (w ++ rest) = readFrom spot record f rest := by
  cases h with
  | plain hf =>
    by_cases hnil : f = []
    · subst hnil
      exact ⟨.opening, Or.inl rfl, fun _ _ => rfl⟩
    · exact ⟨.plain, Or.inr (Or.inl rfl), fun record rest =>
        readFrom_plain hf (Or.inl rfl) [] hnil⟩
  | quoted =>
    refine ⟨.closing, Or.inr (Or.inr rfl), fun record rest => ?_⟩
    rw [quote, List.cons_append, List.cons_append, List.append_assoc, List.singleton_append]
    have hopen : ∀ cs, readFrom .opening record [] ('"' :: cs) =
        readFrom .quoted record [] cs := fun cs => by simp [readFrom]
    rw [hopen, readFrom_quoted, List.nil_append]

theorem readFrom_comma (h : spot.AtEnd) : readFrom spot record field (',' :: rest) =
    readFrom .opening (record ++ [field]) [] rest := by
  rcases h with rfl | rfl | rfl <;> simp [readFrom]

theorem readFrom_nil (h : spot.AtEnd) :
    readFrom spot record field [] = some [record ++ [field]] := by
  rcases h with rfl | rfl | rfl <;> simp [readFrom]

theorem readFrom_return (h : spot.AtEnd) : readFrom spot record field ('\r' :: rest) =
    (readFrom .afterReturn [] [] rest).map ((record ++ [field]) :: ·) := by
  rcases h with rfl | rfl | rfl <;> simp [readFrom]

/-- Both characters of a line break end one record. -/
theorem readFrom_lineBreak (h : spot.AtEnd) (hne : rest ≠ []) :
    readFrom spot record field ('\r' :: '\n' :: rest) =
      (read rest).map ((record ++ [field]) :: ·) := by
  obtain ⟨c, cs, rfl⟩ := List.exists_cons_of_ne_nil hne
  rw [readFrom_return h, read]
  simp [readFrom]

/-- A carriage return splits a field without quotes: what is before it ends the record. -/
theorem readFrom_split {before : Field} (hbefore : IsPlain before) :
    readFrom .opening record [] (before ++ '\r' :: rest) =
      (readFrom .afterReturn [] [] rest).map ((record ++ [before]) :: ·) := by
  obtain ⟨spot, hspot, hread⟩ := readFrom_written (.plain hbefore)
  rw [hread, readFrom_return hspot]

end

end Csv

end Infra
