import Mathlib.Data.List.Basic
import Mathlib.Data.List.Forall2

/-!
# Comma-separated values

RFC 4180: records end with a line break, fields are separated by commas, and a field between
quotes may hold both, and quotes that are doubled. A line break is CRLF or LF alone, and the
last record may stand without one.
-/

namespace Infra

namespace Csv

abbrev Field := List Char

/-- Where in a field a reader stands. -/
inductive Place where
  | opening
  | plain
  | quoted
  /-- After a quote in a quoted field, which closes the field or is the first of two. -/
  | closing
  /-- After a CR. -/
  | lineBreak
deriving DecidableEq, Repr

/-- The records of a text, by a reader that has read `record` and of the next field `field`. -/
def decodeFrom (place : Place) (record : List Field) (field : Field) :
    List Char → Option (List (List Field))
  | [] =>
    if place = .quoted ∨ place = .lineBreak then none
    else if place = .opening ∧ record = [] then some []
    else some [record ++ [field]]
  | c :: cs =>
    if place = .quoted then
      if c = '"' then decodeFrom .closing record field cs
      else decodeFrom .quoted record (field ++ [c]) cs
    else if c = '\n' then (decodeFrom .opening [] [] cs).map ((record ++ [field]) :: ·)
    else if place = .lineBreak then none
    else if c = '\r' then decodeFrom .lineBreak record field cs
    else if c = ',' then decodeFrom .opening (record ++ [field]) [] cs
    else if place = .closing then
      if c = '"' then decodeFrom .quoted record (field ++ ['"']) cs else none
    else if c = '"' then
      if place = .opening then decodeFrom .quoted record field cs else none
    else decodeFrom .plain record (field ++ [c]) cs

def decode (text : List Char) : Option (List (List Field)) := decodeFrom .opening [] [] text

/-! ## Writing -/

/-- A field between quotes, its own quotes doubled. -/
def quote (field : Field) : List Char :=
  '"' :: field.flatMap (fun c => if c = '"' then ['"', '"'] else [c]) ++ ['"']

/-- A field that may stand without quotes. -/
def IsPlain (field : Field) : Prop := ∀ c ∈ field, c ≠ '"' ∧ c ≠ ',' ∧ c ≠ '\n' ∧ c ≠ '\r'

instance : DecidablePred IsPlain :=
  fun field => List.decidableBAll (fun c : Char => c ≠ '"' ∧ c ≠ ',' ∧ c ≠ '\n' ∧ c ≠ '\r') field

/-- The two ways to write a field. -/
inductive Written : List Char → Field → Prop
  | plain {field : Field} : IsPlain field → Written field field
  | quoted (field : Field) : Written (quote field) field

/-- The line of a record. An empty one is no record. -/
def WrittenRecord (line : List Char) (record : List Field) : Prop :=
  line ≠ [] ∧ ∃ ws, List.Forall₂ Written ws record ∧ [','].intercalate ws = line

/-! ## Reading a field -/

section

variable {place : Place} {record : List Field} {field f : Field} {w rest : List Char}

theorem decodeFrom_quoted (field f : Field) :
    decodeFrom .quoted record field
        (f.flatMap (fun c => if c = '"' then ['"', '"'] else [c]) ++ '"' :: rest) =
      decodeFrom .closing record (field ++ f) rest := by
  induction f generalizing field with
  | nil =>
    rw [List.flatMap_nil, List.nil_append, decodeFrom, if_pos rfl, if_pos rfl, List.append_nil]
  | cons c f ih =>
    rw [List.flatMap_cons, List.append_assoc]
    by_cases hc : c = '"'
    · subst hc
      rw [if_pos rfl, List.cons_append, List.singleton_append, decodeFrom, if_pos rfl,
        if_pos rfl]
      simp only [decodeFrom, reduceCtorEq, if_false, if_true, Char.reduceEq]
      rw [ih, List.append_assoc, List.singleton_append]
    · rw [if_neg hc, List.singleton_append, decodeFrom, if_pos rfl, if_neg hc, ih,
        List.append_assoc, List.singleton_append]

theorem decodeFrom_plain (hf : IsPlain f) (hplace : place = .opening ∨ place = .plain)
    (field : Field) (hne : f ≠ []) :
    decodeFrom place record field (f ++ rest) = decodeFrom .plain record (field ++ f) rest := by
  induction f generalizing place field with
  | nil => exact absurd rfl hne
  | cons c f ih =>
    obtain ⟨hquote, hcomma, hlf, hcr⟩ := hf c List.mem_cons_self
    have hstep : decodeFrom place record field (c :: (f ++ rest)) =
        decodeFrom .plain record (field ++ [c]) (f ++ rest) := by
      rcases hplace with rfl | rfl <;> simp [decodeFrom, hquote, hcomma, hlf, hcr]
    rw [List.cons_append, hstep]
    by_cases hnil : f = []
    · rw [hnil, List.nil_append]
    · rw [ih (fun x hx => hf x (List.mem_cons_of_mem _ hx)) (Or.inr rfl) _ hnil,
        List.append_assoc, List.singleton_append]

/-- Where a reader can stand at the end of a field. -/
def Place.AtEnd (place : Place) : Prop := place ≠ .quoted ∧ place ≠ .lineBreak

/-- A written field is read, and the reader stands at its end. -/
theorem decodeFrom_written (h : Written w f) :
    ∃ place : Place, place.AtEnd ∧ (w ≠ [] → place ≠ .opening) ∧
      ∀ record rest, decodeFrom .opening record [] (w ++ rest) =
        decodeFrom place record f rest := by
  cases h with
  | plain hf =>
    by_cases hnil : f = []
    · subst hnil
      exact ⟨.opening, by simp [Place.AtEnd], fun h => absurd rfl h, fun _ _ => rfl⟩
    · exact ⟨.plain, by simp [Place.AtEnd], by simp, fun record rest =>
        decodeFrom_plain hf (Or.inl rfl) [] hnil⟩
  | quoted =>
    refine ⟨.closing, by simp [Place.AtEnd], by simp, fun record rest => ?_⟩
    rw [quote, List.cons_append, List.cons_append, List.append_assoc, List.singleton_append]
    have hopen : ∀ cs, decodeFrom .opening record [] ('"' :: cs) =
        decodeFrom .quoted record [] cs := fun cs => by simp [decodeFrom]
    rw [hopen, decodeFrom_quoted, List.nil_append]

theorem decodeFrom_comma (h : place.AtEnd) :
    decodeFrom place record field (',' :: rest) =
      decodeFrom .opening (record ++ [field]) [] rest := by
  simp [decodeFrom, h.1, h.2]

theorem decodeFrom_lineFeed (h : place.AtEnd) :
    decodeFrom place record field ('\n' :: rest) =
      (decode rest).map ((record ++ [field]) :: ·) := by
  simp [decodeFrom, decode, h.1]

theorem decodeFrom_nil (h : place.AtEnd) (hne : place ≠ .opening ∨ record ≠ []) :
    decodeFrom place record field [] = some [record ++ [field]] := by
  have hrecord : ¬(place = .opening ∧ record = []) := not_and_or.mpr hne
  simp [decodeFrom, h.1, h.2, hrecord]

end

/-! ## Reading records -/

/-- What follows the fields of a line does not depend on them: at its end the reader has read
them all. -/
theorem decodeFrom_fields {ws : List (List Char)} {fields : List Field}
    (h : List.Forall₂ Written ws fields) (hne : ws ≠ []) (record : List Field) :
    ∃ (place : Place) (before : List Field) (last : Field), place.AtEnd ∧
      before ++ [last] = record ++ fields ∧
      ([','].intercalate ws ≠ [] ∨ record ≠ [] → place ≠ .opening ∨ before ≠ []) ∧
      ∀ rest, decodeFrom .opening record [] ([','].intercalate ws ++ rest) =
        decodeFrom place before last rest := by
  induction h generalizing record with
  | nil => exact absurd rfl hne
  | @cons w field ws fields hw hws ih =>
    obtain ⟨place, hend, hopening, hread⟩ := decodeFrom_written hw
    cases ws with
    | nil =>
      cases hws
      refine ⟨place, record, field, hend, rfl, ?_, fun rest => ?_⟩
      · rw [List.intercalate_singleton]
        exact Or.imp_left hopening
      · rw [List.intercalate_singleton, hread]
    | cons w' ws =>
      obtain ⟨place', before, last, hend', happend, hopening', hread'⟩ :=
        ih (List.cons_ne_nil _ _) (record ++ [field])
      refine ⟨place', before, last, hend', ?_, fun _ => hopening' (Or.inr (by simp)),
        fun rest => ?_⟩
      · rw [happend, List.append_assoc, List.singleton_append]
      · rw [List.intercalate_cons_cons, List.append_assoc, List.append_assoc, hread,
          List.singleton_append, decodeFrom_comma hend, hread']

/-- **The lines of records are read back.** -/
theorem decode_lines {lines : List (List Char)} {records : List (List Field)}
    (h : List.Forall₂ WrittenRecord lines records) :
    decode (['\n'].intercalate lines) = some records := by
  induction h with
  | nil => simp [decode, decodeFrom]
  | @cons line record lines records hline hlines ih =>
    obtain ⟨hne, ws, hws, rfl⟩ := hline
    have hsome : ws ≠ [] := by
      rintro rfl
      exact hne rfl
    obtain ⟨place, before, last, hend, happend, hopening, hread⟩ :=
      decodeFrom_fields hws hsome []
    rw [List.nil_append] at happend
    cases lines with
    | nil =>
      cases hlines
      have hlast := hread []
      rw [List.append_nil, decodeFrom_nil hend (hopening (Or.inl hne)), happend] at hlast
      rw [List.intercalate_singleton]
      exact hlast
    | cons line' lines =>
      rw [List.intercalate_cons_cons, List.append_assoc, List.singleton_append, decode, hread,
        decodeFrom_lineFeed hend, ih, happend]
      rfl

end Csv

end Infra
