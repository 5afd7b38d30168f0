import BankStatementProcessor.Infra.Xml

/-!
# Text in XML documents

Text that is escaped is read as it was, in content and, but for its white space, in the value of
an attribute. Text that stands as it is, is read as it is only where it is character data.
-/

namespace Infra

namespace Xml

/-! ## Escaping -/

/-- The five characters that have a reference by name. -/
def escapeChar (c : Char) : Text :=
  if c = '&' then ['&', 'a', 'm', 'p', ';']
  else if c = '<' then ['&', 'l', 't', ';']
  else if c = '>' then ['&', 'g', 't', ';']
  else if c = '"' then ['&', 'q', 'u', 'o', 't', ';']
  else if c = '\x27' then ['&', 'a', 'p', 'o', 's', ';']
  else [c]

def escape (s : Text) : Text := s.flatMap escapeChar

/-- White space in the value of an attribute is read as spaces. -/
def normalSpace (s : Text) : Text := s.map fun c => if isSpace c then ' ' else c

/-- Text of characters that a document may hold, and without those that are read as a line feed. -/
def IsXmlText (s : Text) : Prop := ∀ c ∈ s, isXmlChar c = true ∧ c ≠ '\r'

instance : DecidablePred IsXmlText := fun s =>
  List.decidableBAll (fun c : Char => isXmlChar c = true ∧ c ≠ '\r') s

/-- Whether `]]>` stands in a text that follows so many brackets. -/
def hasCdataEnd : ℕ → Text → Bool
  | _, [] => false
  | brackets, c :: cs =>
    if c = '>' then decide (2 ≤ brackets) || hasCdataEnd 0 cs
    else if c = ']' then hasCdataEnd (brackets + 1) cs
    else hasCdataEnd 0 cs

/-- The brackets at the end of a text that follows so many. -/
def bracketsAfter (brackets : ℕ) (s : Text) : ℕ :=
  s.foldl (fun b c => if c = ']' then b + 1 else 0) brackets

/-- `CharData`: text that may stand as it is. -/
def IsCharData (s : Text) : Prop := (∀ c ∈ s, c ≠ '<' ∧ c ≠ '&') ∧ hasCdataEnd 0 s = false

instance : DecidablePred IsCharData := fun s =>
  @instDecidableAnd _ _ (List.decidableBAll (fun c : Char => c ≠ '<' ∧ c ≠ '&') s)
    (inferInstanceAs (Decidable (hasCdataEnd 0 s = false)))

section

variable {r r' : Reader} {ps : List Piece} {n : Text} {op : List Text} {acc s t rest : Text}
  {b : ℕ} {c : Char}

theorem Reader.run_append (r : Reader) (s t : Text) :
    r.run (s ++ t) = (r.run s).bind fun r => r.run t := by
  induction s generalizing r with
  | nil => rfl
  | cons c s ih =>
    rw [List.cons_append, run, run, Option.bind_assoc]
    exact congrArg _ (funext fun r => ih r)

theorem Reader.run_of_run (h : r.run s = some r') (t : Text) : r.run (s ++ t) = r'.run t := by
  rw [run_append, h]
  rfl

/-- A character that means nothing in content. -/
theorem Reader.step_content (hc : isXmlChar c = true) (h : c ≠ '<' ∧ c ≠ '&' ∧ c ≠ '>') :
    Reader.step ⟨ps, op, .content acc b⟩ c =
      some ⟨ps, op, .content (acc ++ [c]) (bracketsAfter b [c])⟩ := by
  obtain ⟨hlt, hamp, hgt⟩ := h
  simp only [step, hc, Bool.not_true, Bool.false_eq_true, if_false, if_neg hlt, if_neg hamp,
    if_neg hgt, goto, bracketsAfter, List.foldl_cons, List.foldl_nil]
  split <;> rfl

theorem escapeChar_cases (c : Char) :
    (c = '&' ∨ c = '<' ∨ c = '>' ∨ c = '"' ∨ c = '\x27') ∨
      (escapeChar c = [c] ∧ c ≠ '&' ∧ c ≠ '<' ∧ c ≠ '>' ∧ c ≠ '"') := by
  by_cases h : c = '&' ∨ c = '<' ∨ c = '>' ∨ c = '"' ∨ c = '\x27'
  · exact Or.inl h
  · simp only [not_or] at h
    obtain ⟨hamp, hlt, hgt, hquote, hapos⟩ := h
    exact Or.inr ⟨by simp [escapeChar, *], hamp, hlt, hgt, hquote⟩

theorem Reader.run_singleton (r : Reader) (c : Char) : r.run [c] = r.step c := by
  rw [run]
  cases r.step c <;> rfl

/-- Escaped text is read as it was. -/
theorem Reader.run_escape_content (h : IsXmlText s) (acc : Text) (b : ℕ) :
    Reader.run ⟨ps, n :: op, .content acc b⟩ (escape s) =
      some ⟨ps, n :: op, .content (acc ++ s) (bracketsAfter b s)⟩ := by
  induction s generalizing acc b with
  | nil =>
    rw [List.append_nil]
    rfl
  | cons c s ih =>
    have hc := (h c List.mem_cons_self).1
    have hone : Reader.run ⟨ps, n :: op, .content acc b⟩ (escapeChar c) =
        some ⟨ps, n :: op, .content (acc ++ [c]) (bracketsAfter b [c])⟩ := by
      rcases escapeChar_cases c with (rfl | rfl | rfl | rfl | rfl) | ⟨heq, hamp, hlt, hgt, -⟩
      · rfl
      · rfl
      · rfl
      · rfl
      · rfl
      · rw [heq, run_singleton]
        exact step_content hc ⟨hlt, hamp, hgt⟩
    rw [escape, List.flatMap_cons, run_of_run hone, ← escape,
      ih (fun d hd => h d (List.mem_cons_of_mem c hd)), List.append_assoc]
    rfl

/-- In the value of an attribute its white space is read as spaces. -/
theorem Reader.run_escape_value (h : IsXmlText s) (op : List Text) (before : Text) (tag : Tag)
    (attr acc : Text) :
    Reader.run ⟨ps, op, .value before tag attr '"' acc⟩ (escape s) =
      some ⟨ps, op, .value before tag attr '"' (acc ++ normalSpace s)⟩ := by
  induction s generalizing acc with
  | nil =>
    rw [normalSpace, List.map_nil, List.append_nil]
    rfl
  | cons c s ih =>
    have hc := (h c List.mem_cons_self).1
    have hone : Reader.run ⟨ps, op, .value before tag attr '"' acc⟩ (escapeChar c) =
        some ⟨ps, op, .value before tag attr '"' (acc ++ normalSpace [c])⟩ := by
      rcases escapeChar_cases c with (rfl | rfl | rfl | rfl | rfl) | ⟨heq, hamp, hlt, -, hquote⟩
      · rfl
      · rfl
      · rfl
      · rfl
      · rfl
      · rw [heq, run_singleton]
        simp only [step, hc, Bool.not_true, Bool.false_eq_true, if_false, if_neg hlt, if_neg hamp,
          if_neg hquote, goto]
        rfl
    rw [escape, List.flatMap_cons, run_of_run hone, ← escape,
      ih fun d hd => h d (List.mem_cons_of_mem c hd), List.append_assoc]
    rfl

/-! ## Text as it stands -/

/-- Character data is read as it is. -/
theorem Reader.run_charData (h : IsXmlText s) (hmarks : ∀ c ∈ s, c ≠ '<' ∧ c ≠ '&')
    (hend : hasCdataEnd b s = false) : Reader.run ⟨ps, n :: op, .content acc b⟩ s =
      some ⟨ps, n :: op, .content (acc ++ s) (bracketsAfter b s)⟩ := by
  induction s generalizing acc b with
  | nil =>
    rw [List.append_nil]
    rfl
  | cons c s ih =>
    have hc := (h c List.mem_cons_self).1
    obtain ⟨hlt, hamp⟩ := hmarks c List.mem_cons_self
    have hstep : Reader.step ⟨ps, n :: op, .content acc b⟩ c =
        some ⟨ps, n :: op, .content (acc ++ [c]) (bracketsAfter b [c])⟩ ∧
          hasCdataEnd (bracketsAfter b [c]) s = false := by
      rw [hasCdataEnd] at hend
      by_cases hgt : c = '>'
      · subst hgt
        rw [if_pos rfl, Bool.or_eq_false_iff, decide_eq_false_iff_not] at hend
        simp [step, hc, hend.1, goto, bracketsAfter, hend.2]
      · refine ⟨step_content hc ⟨hlt, hamp, hgt⟩, ?_⟩
        rw [if_neg hgt] at hend
        by_cases hbracket : c = ']'
        · simpa [bracketsAfter, hbracket] using hend
        · simpa [bracketsAfter, hbracket] using hend
    rw [run, hstep.1, Option.bind_some, ih (fun d hd => h d (List.mem_cons_of_mem c hd))
      (fun d hd => hmarks d (List.mem_cons_of_mem c hd)) hstep.2, List.append_assoc]
    rfl

/-! ## Pieces are not taken back -/

/-- The text before the mark that is being read. -/
def Place.before? : Place → Option Text
  | .content _ _ | .contentRef _ _ => none
  | .markup before | .startName before _ | .startGap before _ | .attrName before _ _
  | .attrGap before _ _ | .attrEq before _ _ | .value before _ _ _ _ | .valueRef before _ _ _ _ _
  | .valueEnd before _ | .emptyTag before _ | .endName before _ | .endGap before _ => some before

/-- What one character can do to the pieces: none is added and a mark that is being read goes on,
or its piece is added. -/
def Reader.Goes (r r' : Reader) : Prop :=
  (r'.pieces = r.pieces ∧
      ∀ before, r.place.before? = some before → r'.place.before? = some before) ∨
    ∃ before mark more, r.place.before? = some before ∧
      r'.pieces = more ++ ⟨before, mark⟩ :: r.pieces

theorem Reader.goes_of_openTag {before : Text} {tag : Tag} (hplace : r.place.before? = some before)
    (h : r.openTag before tag = some r') : r.Goes r' := by
  unfold openTag at h
  split at h
  · cases h
  · cases h
    exact Or.inr ⟨before, .start tag, [], hplace, rfl⟩

theorem Reader.goes_of_closeTag {before name : Text} (hplace : r.place.before? = some before)
    (h : r.closeTag before name = some r') : r.Goes r' := by
  unfold closeTag at h
  split at h
  · split at h
    · cases h
      exact Or.inr ⟨before, .close name, [], hplace, rfl⟩
    · cases h
  · cases h

theorem Reader.goes_of_emptyTag {before : Text} {tag : Tag} (hplace : r.place.before? = some before)
    (h : ((r.openTag before tag).bind fun r => r.closeTag [] tag.name) = some r') : r.Goes r' := by
  obtain ⟨opened, hopen, hclose⟩ := Option.bind_eq_some_iff.mp h
  unfold openTag at hopen
  split at hopen
  · cases hopen
  · cases hopen
    simp only [closeTag, if_true] at hclose
    cases hclose
    exact Or.inr ⟨before, .start tag, [⟨[], .close tag.name⟩], hplace, rfl⟩

theorem Reader.goes_of_inReference {ref : Text} {more : Text → Place} {done : Char → Place}
    (hmore : ∀ ref before, r.place.before? = some before → (more ref).before? = some before)
    (hdone : ∀ d before, r.place.before? = some before → (done d).before? = some before)
    (h : r.inReference c ref more done = some r') : r.Goes r' := by
  unfold inReference at h
  split at h
  · obtain ⟨d, -, h⟩ := Option.bind_eq_some_iff.mp h
    cases h
    exact Or.inl ⟨rfl, hdone d⟩
  · split at h
    · cases h
      exact Or.inl ⟨rfl, hmore _⟩
    · cases h

theorem Reader.goes_of_step (h : r.step c = some r') : r.Goes r' := by
  unfold step at h
  split at h
  · cases h
  · obtain ⟨pieces, opened, place⟩ := r
    cases place with
    | content acc brackets =>
      dsimp only at h
      split_ifs at h <;> (cases h; exact Or.inl ⟨rfl, nofun⟩)
    | contentRef acc ref =>
      dsimp only at h
      exact goes_of_inReference (fun _ _ => nofun) (fun _ _ => nofun) h
    | value before tag attr quote acc =>
      dsimp only at h
      split_ifs at h <;> (cases h; exact Or.inl ⟨rfl, fun _ h => h⟩)
    | valueRef before tag attr quote acc ref =>
      dsimp only at h
      refine goes_of_inReference ?_ ?_ h <;> exact fun _ _ h => h
    | emptyTag before tag =>
      dsimp only at h
      split_ifs at h
      exact goes_of_emptyTag rfl h
    | _ =>
      dsimp only at h
      split_ifs at h <;> first
        | exact goes_of_openTag rfl h
        | exact goes_of_closeTag rfl h
        | (cases h; exact Or.inl ⟨rfl, fun _ h => h⟩)

/-- A run takes no piece back. -/
theorem Reader.pieces_of_run (h : r.run s = some r') : r.pieces <:+ r'.pieces := by
  induction s generalizing r with
  | nil =>
    cases h
    exact List.suffix_rfl
  | cons c s ih =>
    obtain ⟨next, hstep, hrun⟩ := Option.bind_eq_some_iff.mp h
    refine List.IsSuffix.trans ?_ (ih hrun)
    rcases goes_of_step hstep with ⟨heq, -⟩ | ⟨before, mark, more, -, heq⟩
    · exact heq ▸ List.suffix_rfl
    · exact heq ▸ (List.suffix_cons _ _).trans (List.suffix_append _ _)

/-- A run from within a mark to the text behind it adds the piece of the mark. -/
theorem Reader.pieces_of_mark {before : Text} (hplace : r.place.before? = some before)
    (h : r.run s = some r') (hend : r'.place.before? = none) :
    ∃ mark, ⟨before, mark⟩ :: r.pieces <:+ r'.pieces := by
  induction s generalizing r with
  | nil =>
    cases h
    rw [hend] at hplace
    cases hplace
  | cons c s ih =>
    obtain ⟨next, hstep, hrun⟩ := Option.bind_eq_some_iff.mp h
    rcases goes_of_step hstep with ⟨heq, hkeep⟩ | ⟨before', mark, more, hsame, heq⟩
    · rw [← heq]
      exact ih (hkeep before hplace) hrun
    · obtain rfl := Option.some.inj (hplace.symm.trans hsame)
      exact ⟨mark, List.IsSuffix.trans ⟨more, heq.symm⟩ (pieces_of_run hrun)⟩

/-- A mark that begins behind the text `acc`. -/
theorem Reader.pieces_of_content (hend : r'.place.before? = none)
    (h : Reader.run ⟨ps, op, .content acc b⟩ ('<' :: rest) = some r') :
    ∃ mark, ⟨acc, mark⟩ :: ps <:+ r'.pieces := by
  obtain ⟨next, hstep, hrun⟩ := Option.bind_eq_some_iff.mp h
  have hnext : next = ⟨ps, op, .markup acc⟩ := by
    have hlt : isXmlChar '<' = true := by decide
    simp only [step, hlt, Bool.not_true, Bool.false_eq_true, if_false, if_true, goto] at hstep
    split_ifs at hstep
    exact (Option.some.inj hstep).symm
  rw [hnext] at hrun
  exact pieces_of_mark rfl hrun hend

/-- Text up to the next mark is read as no more characters than it has, and as as many only where
it is character data; a reference that is being read is one character. -/
theorem Reader.pieces_of_text (hend : r'.place.before? = none) :
    (∀ acc b, Reader.run ⟨ps, op, .content acc b⟩ (s ++ '<' :: rest) = some r' →
      ∃ t mark, ⟨acc ++ t, mark⟩ :: ps <:+ r'.pieces ∧ t.length ≤ s.length ∧
        (t.length = s.length → (∀ c ∈ s, c ≠ '<' ∧ c ≠ '&') ∧ hasCdataEnd b s = false)) ∧
    ∀ acc ref, Reader.run ⟨ps, op, .contentRef acc ref⟩ (s ++ '<' :: rest) = some r' →
      ∃ t mark, ⟨acc ++ t, mark⟩ :: ps <:+ r'.pieces ∧ t.length ≤ s.length := by
  induction s with
  | nil =>
    refine ⟨fun acc b h => ?_, fun acc ref h => ?_⟩
    · obtain ⟨mark, hpieces⟩ := pieces_of_content hend h
      exact ⟨[], mark, by rwa [List.append_nil], le_rfl, fun _ => ⟨List.forall_mem_nil _, rfl⟩⟩
    · -- no reference goes on over a mark
      cases h
  | cons c s ih =>
    obtain ⟨ihText, ihRef⟩ := ih
    refine ⟨fun acc b h => ?_, fun acc ref h => ?_⟩
    · by_cases hlt : c = '<'
      · subst hlt
        obtain ⟨mark, hpieces⟩ := pieces_of_content hend h
        exact ⟨[], mark, by rwa [List.append_nil], Nat.zero_le _, fun heq => nomatch heq⟩
      · obtain ⟨next, hstep, hrun⟩ := Option.bind_eq_some_iff.mp h
        unfold step at hstep
        split at hstep
        · cases hstep
        · simp only at hstep
          split at hstep
          · -- a reference is shorter when it is read
            split at hstep
            · cases hstep
            · cases hstep
              obtain ⟨t, mark, hpieces, hlen⟩ := ihRef acc [] hrun
              exact ⟨t, mark, hpieces, by rw [List.length_cons]; omega, fun heq => by
                rw [List.length_cons] at heq
                omega⟩
          · next hamp =>
            have hgo : ∀ b', next = ⟨ps, op, .content (acc ++ [c]) b'⟩ →
                (hasCdataEnd b' s = false → hasCdataEnd b (c :: s) = false) →
                ∃ t mark, ⟨acc ++ t, mark⟩ :: ps <:+ r'.pieces ∧ t.length ≤ (c :: s).length ∧
                  (t.length = (c :: s).length →
                    (∀ d ∈ c :: s, d ≠ '<' ∧ d ≠ '&') ∧ hasCdataEnd b (c :: s) = false) := by
              rintro b' rfl hcdata
              obtain ⟨t, mark, hpieces, hlen, heq⟩ := ihText _ b' hrun
              refine ⟨c :: t, mark, by rwa [List.append_assoc] at hpieces, Nat.succ_le_succ hlen,
                fun hsame => ?_⟩
              obtain ⟨hmarks, hrest⟩ := heq (Nat.succ.inj hsame)
              exact ⟨List.forall_mem_cons.mpr ⟨⟨hlt, hamp⟩, hmarks⟩, hcdata hrest⟩
            split at hstep
            · next hgt =>
              split at hstep
              · cases hstep
              · next hbrackets =>
                exact hgo 0 (Option.some.inj hstep).symm fun hrest => by
                  simp [hasCdataEnd, hgt, hbrackets, hrest]
            · next hgt =>
              split at hstep
              · next hbracket =>
                exact hgo (b + 1) (Option.some.inj hstep).symm fun hrest => by
                  simp [hasCdataEnd, hbracket, hrest]
              · next hbracket =>
                exact hgo 0 (Option.some.inj hstep).symm fun hrest => by
                  simp [hasCdataEnd, hgt, hbracket, hrest]
    · obtain ⟨next, hstep, hrun⟩ := Option.bind_eq_some_iff.mp h
      unfold step at hstep
      split at hstep
      · cases hstep
      · dsimp only [inReference] at hstep
        split at hstep
        · obtain ⟨d, -, hstep⟩ := Option.bind_eq_some_iff.mp hstep
          cases hstep
          obtain ⟨t, mark, hpieces, hlen, -⟩ := ihText _ 0 hrun
          exact ⟨d :: t, mark, by rwa [List.append_assoc] at hpieces, Nat.succ_le_succ hlen⟩
        · split at hstep
          · cases hstep
            obtain ⟨t, mark, hpieces, hlen⟩ := ihRef acc _ hrun
            exact ⟨t, mark, hpieces, Nat.le_succ_of_le hlen⟩
          · cases hstep

/-! ## Pieces below -/

/-- The reader with pieces below its own. -/
def Reader.onto (r : Reader) (ps : List Piece) : Reader := { r with pieces := r.pieces ++ ps }

/-- The root is open, or it was. -/
def Reader.Begun (r : Reader) : Prop := r.opened ≠ [] ∨ r.pieces ≠ []

/-- `next'` is what `next` is, with pieces below. -/
def Reader.Framed (ps : List Piece) (next next' : Option Reader) : Prop :=
  next' = next.map (·.onto ps) ∧ ∀ r ∈ next, r.Begun

theorem Reader.framed_none : Framed ps none none := ⟨rfl, nofun⟩

theorem Reader.framed_ite {p : Prop} [Decidable p] {x x' y y' : Option Reader}
    (hx : Framed ps x x') (hy : Framed ps y y') :
    Framed ps (if p then x else y) (if p then x' else y') := by
  split
  · exact hx
  · exact hy

theorem Reader.framed_goto (h : r.Begun) (place : Place) :
    Framed ps (r.goto place) ((r.onto ps).goto place) :=
  ⟨rfl, fun _ hr => Option.some.inj hr ▸ h⟩

theorem Reader.framed_openTag (h : r.Begun) (before : Text) (tag : Tag) :
    Framed ps (r.openTag before tag) ((r.onto ps).openTag before tag) := by
  have hroot : (r.opened.isEmpty && !(r.onto ps).pieces.isEmpty) =
      (r.opened.isEmpty && !r.pieces.isEmpty) := by
    rcases h with hopened | hpieces
    · rw [List.isEmpty_eq_false_iff.mpr hopened]
      rfl
    · have honto : (r.onto ps).pieces ≠ [] := List.append_ne_nil_of_left_ne_nil hpieces ps
      rw [List.isEmpty_eq_false_iff.mpr hpieces, List.isEmpty_eq_false_iff.mpr honto]
  unfold openTag
  rw [show (r.onto ps).opened = r.opened from rfl, hroot]
  exact framed_ite framed_none ⟨rfl, fun _ hr => Option.some.inj hr ▸ .inr (List.cons_ne_nil _ _)⟩

theorem Reader.framed_closeTag (r : Reader) (before name : Text) :
    Framed ps (r.closeTag before name) ((r.onto ps).closeTag before name) := by
  obtain ⟨pieces, opened, place⟩ := r
  cases opened with
  | nil => exact framed_none
  | cons top opened =>
    exact framed_ite ⟨rfl, fun _ hr => Option.some.inj hr ▸ .inr (List.cons_ne_nil _ _)⟩ framed_none

theorem Reader.framed_inReference (h : r.Begun) (ref : Text) (more : Text → Place)
    (done : Char → Place) :
    Framed ps (r.inReference c ref more done) ((r.onto ps).inReference c ref more done) := by
  refine framed_ite ?_ (framed_ite (framed_goto h _) framed_none)
  cases reference ref with
  | none => exact framed_none
  | some d => exact framed_goto h _

theorem Reader.framed_bind {x x' : Option Reader} {f : Reader → Option Reader}
    (hx : Framed ps x x') (hf : ∀ r, r.Begun → Framed ps (f r) (f (r.onto ps))) :
    Framed ps (x.bind f) (x'.bind f) := by
  obtain ⟨rfl, hbegun⟩ := hx
  cases x with
  | none => exact framed_none
  | some r => exact hf r (hbegun r rfl)

theorem Reader.framed_step (h : r.Begun) (c : Char) :
    Framed ps (r.step c) ((r.onto ps).step c) := by
  refine framed_ite framed_none ?_
  obtain ⟨pieces, opened, place⟩ := r
  cases place with
  | contentRef acc ref => exact framed_inReference h ref _ _
  | valueRef before tag attr quote acc ref => exact framed_inReference h ref _ _
  | emptyTag before tag =>
    exact framed_ite (framed_bind (framed_openTag h before tag) fun r _ =>
      framed_closeTag r [] tag.name) framed_none
  | _ =>
    repeat' refine framed_ite ?_ ?_
    all_goals first
      | exact framed_none
      | exact framed_goto h _
      | exact framed_openTag h _ _
      | exact framed_closeTag _ _ _

/-- Once the root is open nothing depends on the pieces read before. -/
theorem Reader.framed_run (h : r.Begun) (s : Text) :
    Framed ps (r.run s) ((r.onto ps).run s) := by
  induction s generalizing r with
  | nil => exact framed_goto h r.place
  | cons c s ih => exact framed_bind (framed_step h c) fun r hr => ih hr

end

/-! ## Segments -/

/-- A part of a document, which a reader at `p` reads as the pieces `ps'` and stands at `p'`
behind it, if `P` holds. If not, nothing that follows makes the pieces of the document these. -/
structure Segment (op : List Text) (p : Place) (text : Text) (ps' : List Piece) (op' : List Text)
    (p' : Place) (P : Prop) : Prop where
  noReturn : '\r' ∉ text
  reads : P → ∀ ps, Reader.run ⟨ps, op, p⟩ text = some ⟨ps'.reverse ++ ps, op', p'⟩
  misreads : ¬P → ∀ ps rest r', Reader.run ⟨ps, op, p⟩ (text ++ rest) = some r' →
    r'.place.before? = none → ¬ps'.reverse ++ ps <:+ r'.pieces

section

variable {op op' op'' : List Text} {p p' p'' : Place} {s t : Text} {ps' ps'' : List Piece}
  {P Q : Prop}

/-- Text of one document only. -/
theorem Segment.literal (hreturn : '\r' ∉ s)
    (h : ∀ ps, Reader.run ⟨ps, op, p⟩ s = some ⟨ps'.reverse ++ ps, op', p'⟩) :
    Segment op p s ps' op' p' True :=
  ⟨hreturn, fun _ => h, fun hnot => absurd trivial hnot⟩

/-- Text of one document, read once. -/
theorem Segment.fixed {n : Text} (hreturn : '\r' ∉ s)
    (h : Reader.run ⟨[], n :: op, p⟩ s = some ⟨ps'.reverse, op', p'⟩) :
    Segment (n :: op) p s ps' op' p' True := by
  refine .literal hreturn fun ps => ?_
  have hframed : Reader.Framed ps (Reader.run ⟨[], n :: op, p⟩ s) (Reader.run ⟨ps, n :: op, p⟩ s) :=
    Reader.framed_run (.inl (List.cons_ne_nil _ _)) s
  rw [hframed.1, h]
  rfl

theorem Segment.append (h : Segment op p s ps' op' p' P) (h' : Segment op' p' t ps'' op'' p'' Q) :
    Segment op p (s ++ t) (ps' ++ ps'') op'' p'' (P ∧ Q) := by
  refine ⟨List.not_mem_append h.noReturn h'.noReturn, fun hPQ ps => ?_,
    fun hnot ps rest r' hrun hend hpieces => ?_⟩
  · rw [Reader.run_of_run (h.reads hPQ.1 ps), h'.reads hPQ.2, List.reverse_append,
      List.append_assoc]
  · rw [List.reverse_append, List.append_assoc] at hpieces
    rw [List.append_assoc] at hrun
    by_cases hP : P
    · rw [Reader.run_of_run (h.reads hP ps)] at hrun
      exact h'.misreads (fun hQ => hnot ⟨hP, hQ⟩) _ rest r' hrun hend hpieces
    · exact h.misreads hP ps _ r' hrun hend ((List.suffix_append _ _).trans hpieces)

theorem Segment.congr (h : Segment op p s ps' op' p' P) (hPQ : P ↔ Q) :
    Segment op p s ps' op' p' Q := by
  rwa [← propext hPQ]

/-- Segments of a list, each from one place back to it. -/
theorem Segment.flatMap {α : Type*} {l : List α} {text : α → Text} {pieces : α → List Piece}
    {holds : α → Prop} (h : ∀ a ∈ l, Segment op p (text a) (pieces a) op p (holds a)) :
    Segment op p (l.flatMap text) (l.flatMap pieces) op p (∀ a ∈ l, holds a) := by
  induction l with
  | nil => exact (Segment.literal List.not_mem_nil fun _ => rfl).congr (by simp)
  | cons a l ih =>
    obtain ⟨ha, hl⟩ := List.forall_mem_cons.mp h
    rw [List.flatMap_cons, List.flatMap_cons]
    exact (ha.append (ih hl)).congr List.forall_mem_cons.symm

theorem IsXmlText.noReturn (h : IsXmlText s) : '\r' ∉ s := fun hmem => (h _ hmem).2 rfl

theorem IsXmlText.noReturn_escape (h : IsXmlText s) : '\r' ∉ escape s := by
  intro hmem
  obtain ⟨c, hc, hreturn⟩ := List.mem_flatMap.mp hmem
  rcases escapeChar_cases c with (rfl | rfl | rfl | rfl | rfl) | ⟨heq, -⟩
  · exact absurd hreturn (by decide)
  · exact absurd hreturn (by decide)
  · exact absurd hreturn (by decide)
  · exact absurd hreturn (by decide)
  · exact absurd hreturn (by decide)
  · rw [heq, List.mem_singleton] at hreturn
    exact (h c hc).2 hreturn.symm

/-- Escaped text in content. -/
theorem Segment.escaped {n : Text} (h : IsXmlText s) (acc : Text) (b : ℕ) :
    Segment (n :: op) (.content acc b) (escape s) [] (n :: op)
      (.content (acc ++ s) (bracketsAfter b s)) True :=
  .literal h.noReturn_escape fun _ => Reader.run_escape_content h acc b

/-- The piece at one place of what is read is one. -/
theorem eq_of_suffix {ps pieces : List Piece} {a a' : Piece} (h : a :: ps <:+ pieces)
    (h' : a' :: ps <:+ pieces) : a = a' := by
  have heq : a :: ps = a' :: ps :=
    (List.suffix_of_suffix_length_le h h' le_rfl).eq_of_length rfl
  exact (List.cons.inj heq).1

/-- Text that stands as it is, up to the mark behind it. -/
theorem Segment.raw {n : Text} {mark : Mark} {more : List Piece} {closing : Text}
    (h : IsXmlText s) (hmark : closing.head? = some '<') (hreturn : '\r' ∉ closing)
    (hclosing : ∀ b ps, Reader.run ⟨ps, n :: op, .content s b⟩ closing =
      some ⟨more.reverse ++ ⟨s, mark⟩ :: ps, op', p'⟩) :
    Segment (n :: op) (.content [] 0) (s ++ closing) (⟨s, mark⟩ :: more) op' p'
      (IsCharData s) := by
  refine ⟨List.not_mem_append h.noReturn hreturn, fun hdata ps => ?_,
    fun hnot ps rest r' hrun hend hpieces => ?_⟩
  · rw [Reader.run_of_run (Reader.run_charData h hdata.1 hdata.2), List.nil_append, hclosing]
    simp
  · obtain ⟨tail, rfl⟩ := List.head?_eq_some_iff.mp hmark
    rw [List.append_assoc, List.cons_append] at hrun
    obtain ⟨t, mark', hread, -, heq⟩ := (Reader.pieces_of_text hend).1 [] 0 hrun
    have hfirst : (⟨s, mark⟩ : Piece) :: ps <:+ r'.pieces := by
      refine List.IsSuffix.trans ⟨more.reverse, ?_⟩ hpieces
      simp
    have hsame := eq_of_suffix hread hfirst
    exact hnot (heq (congrArg List.length (Piece.mk.inj hsame).1))

/-- The escaped value of an attribute, up to the end of its tag. -/
theorem Segment.value {before attr closing : Text} {tag : Tag} {others : List (Text × Text)}
    {more : List Piece} (h : IsXmlText s) (hreturn : '\r' ∉ closing)
    (hclosing : ∀ v ps, Reader.run ⟨ps, op, .value before tag attr '"' v⟩ closing =
      some ⟨more.reverse ++ ⟨before, .start ⟨tag.name, tag.attributes ++ (attr, v) :: others⟩⟩ :: ps,
        op', p'⟩) :
    Segment op (.value before tag attr '"' []) (escape s ++ closing)
      (⟨before, .start ⟨tag.name, tag.attributes ++ (attr, s) :: others⟩⟩ :: more) op' p'
      (normalSpace s = s) := by
  have hvalue : ∀ ps, Reader.run ⟨ps, op, .value before tag attr '"' []⟩ (escape s ++ closing) =
      some ⟨more.reverse ++
        ⟨before, .start ⟨tag.name, tag.attributes ++ (attr, normalSpace s) :: others⟩⟩ :: ps,
          op', p'⟩ := by
    intro ps
    rw [Reader.run_of_run (Reader.run_escape_value h op before tag attr []), List.nil_append]
    exact hclosing _ ps
  refine ⟨List.not_mem_append h.noReturn_escape hreturn, fun hspace ps => ?_,
    fun hnot ps rest r' hrun hend hpieces => ?_⟩
  · rw [hvalue, hspace]
    simp
  · rw [Reader.run_of_run (hvalue ps)] at hrun
    have hread := List.IsSuffix.trans ⟨more.reverse, rfl⟩ (Reader.pieces_of_run hrun)
    have hfirst : (⟨before, .start ⟨tag.name, tag.attributes ++ (attr, s) :: others⟩⟩ : Piece) ::
        ps <:+ r'.pieces := by
      refine List.IsSuffix.trans ⟨more.reverse, ?_⟩ hpieces
      simp
    have hsame := eq_of_suffix hread hfirst
    simp only [Piece.mk.injEq, Mark.start.injEq, Tag.mk.injEq, true_and, List.append_cancel_left_eq,
      List.cons.injEq, Prod.mk.injEq, and_true] at hsame
    exact hnot hsame

end

theorem IsXmlText.append {s t : Text} (hs : IsXmlText s) (ht : IsXmlText t) :
    IsXmlText (s ++ t) :=
  List.forall_mem_append.mpr ⟨hs, ht⟩

theorem normalSpace_eq_iff {s : Text} (h : IsXmlText s) :
    normalSpace s = s ↔ ∀ c ∈ s, c ≠ '\t' ∧ c ≠ '\n' := by
  induction s with
  | nil => simp [normalSpace]
  | cons c s ih =>
    obtain ⟨⟨-, hreturn⟩, hs⟩ := List.forall_mem_cons.mp h
    rw [List.forall_mem_cons, ← ih hs, normalSpace, List.map_cons, List.cons.injEq, ← normalSpace]
    refine and_congr_left fun _ => ?_
    by_cases hspace : c = ' '
    · subst hspace
      decide
    · simp [isSpace, hspace, hreturn, Ne.symm hspace]

/-! ## Elements -/

/-- `Name`, of characters that a document may hold. -/
def IsName (name : Text) : Prop :=
  (∃ c cs, name = c :: cs ∧ isNameStart c = true) ∧
    ∀ c ∈ name, isXmlChar c = true ∧ c ≠ '\r' ∧ isNameChar c = true

/-- The test for a name. -/
def isNameText (name : Text) : Bool :=
  name.head?.any isNameStart && name.all fun c => isXmlChar c && c != '\r' && isNameChar c

def startTag (name : Text) : Text := '<' :: (name ++ ['>'])

def endTag (name : Text) : Text := '<' :: '/' :: (name ++ ['>'])

section

variable {op : List Text} {n name acc s : Text} {b : ℕ} {ps : List Piece} {c : Char}

theorem isName_of_isNameText (h : isNameText name = true) : IsName name := by
  rw [isNameText, Bool.and_eq_true] at h
  obtain ⟨hname, hall⟩ := h
  refine ⟨?_, fun c hc => ?_⟩
  · cases name with
    | nil => cases hname
    | cons c cs => exact ⟨c, cs, rfl, hname⟩
  · have hchar := List.all_eq_true.mp hall c hc
    rw [Bool.and_eq_true, Bool.and_eq_true, bne_iff_ne] at hchar
    exact ⟨hchar.1.1, hchar.1.2, hchar.2⟩

/-- No character of a name ends it. -/
theorem ne_of_isNameChar (h : isNameChar c = true) :
    isSpace c = false ∧ c ≠ '>' ∧ c ≠ '/' := by
  refine ⟨?_, ?_, ?_⟩
  · rw [← Bool.not_eq_true]
    intro hspace
    simp only [isSpace, Bool.or_eq_true, beq_iff_eq] at hspace
    rcases hspace with ((rfl | rfl) | rfl) | rfl <;> exact absurd h (by decide)
  · rintro rfl
    exact absurd h (by decide)
  · rintro rfl
    exact absurd h (by decide)

theorem Reader.run_startName (h : ∀ c ∈ s, isXmlChar c = true ∧ c ≠ '\r' ∧ isNameChar c = true)
    (before name : Text) : Reader.run ⟨ps, op, .startName before name⟩ s =
      some ⟨ps, op, .startName before (name ++ s)⟩ := by
  induction s generalizing name with
  | nil =>
    rw [List.append_nil]
    rfl
  | cons c s ih =>
    obtain ⟨hc, -, hchar⟩ := h c List.mem_cons_self
    obtain ⟨hspace, hgt, hslash⟩ := ne_of_isNameChar hchar
    have hstep : Reader.step ⟨ps, op, .startName before name⟩ c =
        some ⟨ps, op, .startName before (name ++ [c])⟩ := by
      simp [step, hc, hspace, hgt, hslash, hchar, goto]
    rw [run, hstep, Option.bind_some, ih (fun d hd => h d (List.mem_cons_of_mem c hd)),
      List.append_assoc]
    rfl

theorem Reader.run_endName (h : ∀ c ∈ s, isXmlChar c = true ∧ c ≠ '\r' ∧ isNameChar c = true)
    (before name : Text) : Reader.run ⟨ps, op, .endName before name⟩ s =
      some ⟨ps, op, .endName before (name ++ s)⟩ := by
  induction s generalizing name with
  | nil =>
    rw [List.append_nil]
    rfl
  | cons c s ih =>
    obtain ⟨hc, -, hchar⟩ := h c List.mem_cons_self
    obtain ⟨hspace, hgt, -⟩ := ne_of_isNameChar hchar
    have hstep : Reader.step ⟨ps, op, .endName before name⟩ c =
        some ⟨ps, op, .endName before (name ++ [c])⟩ := by
      simp [step, hc, hspace, hgt, hchar, goto]
    rw [run, hstep, Option.bind_some, ih (fun d hd => h d (List.mem_cons_of_mem c hd)),
      List.append_assoc]
    rfl

theorem Reader.run_startTag (h : IsName name) : Reader.run ⟨ps, n :: op, .content acc b⟩
    (startTag name) = some ⟨⟨acc, .start ⟨name, []⟩⟩ :: ps, name :: n :: op, .content [] 0⟩ := by
  obtain ⟨⟨c, cs, rfl, hstart⟩, hall⟩ := h
  obtain ⟨hc, -, hchar⟩ := hall c List.mem_cons_self
  obtain ⟨-, -, hslash⟩ := ne_of_isNameChar hchar
  have hopen : Reader.run ⟨ps, n :: op, .content acc b⟩ ['<', c] =
      some ⟨ps, n :: op, .startName acc [c]⟩ := by
    have hlt : isXmlChar '<' = true := by decide
    simp [run, step, hlt, hc, hslash, hstart, goto]
  have hsplit : startTag (c :: cs) = ['<', c] ++ (cs ++ ['>']) := rfl
  rw [hsplit, run_of_run hopen,
    run_of_run (run_startName (fun d hd => hall d (List.mem_cons_of_mem c hd)) acc [c])]
  rfl

theorem Reader.run_endTag (h : IsName name) : Reader.run ⟨ps, name :: op, .content acc b⟩
    (endTag name) = some ⟨⟨acc, .close name⟩ :: ps, op, .content [] 0⟩ := by
  have hopen : Reader.run ⟨ps, name :: op, .content acc b⟩ ['<', '/'] =
      some ⟨ps, name :: op, .endName acc []⟩ := rfl
  have hsplit : endTag name = ['<', '/'] ++ (name ++ ['>']) := rfl
  have hgt : isXmlChar '>' = true := by decide
  rw [hsplit, run_of_run hopen, run_of_run (run_endName h.2 acc []), run_singleton, List.nil_append]
  simp [step, hgt, closeTag]

theorem IsName.noReturn (h : IsName name) :
    '\r' ∉ startTag name ∧ '\r' ∉ endTag name := by
  have hname : '\r' ∉ name := fun hmem => (h.2 _ hmem).2.1 rfl
  constructor
  · simp [startTag, hname]
  · simp [endTag, hname]

theorem Segment.startTag (h : IsName name) (acc : Text) (b : ℕ) :
    Segment (n :: op) (.content acc b) (startTag name) [⟨acc, .start ⟨name, []⟩⟩] (name :: n :: op)
      (.content [] 0) True :=
  .literal h.noReturn.1 fun _ => Reader.run_startTag h

theorem Segment.endTag (h : IsName name) (acc : Text) (b : ℕ) :
    Segment (name :: op) (.content acc b) (endTag name) [⟨acc, .close name⟩] op
      (.content [] 0) True :=
  .literal h.noReturn.2 fun _ => Reader.run_endTag h

/-- An element with escaped text. -/
theorem Segment.leaf (h : IsName name) (hs : IsXmlText s) (acc : Text) (b : ℕ) :
    Segment (n :: op) (.content acc b) (Xml.startTag name ++ escape s ++ Xml.endTag name)
      [⟨acc, .start ⟨name, []⟩⟩, ⟨s, .close name⟩] (n :: op) (.content [] 0) True := by
  have hopen : Segment (n :: op) (.content acc b) (Xml.startTag name)
      [⟨acc, .start ⟨name, []⟩⟩] (name :: n :: op) (.content [] 0) True :=
    .startTag h acc b
  exact ((hopen.append (.escaped hs [] 0)).append (.endTag h _ _)).congr (by simp)

/-- An element with text that stands as it is. -/
theorem Segment.rawLeaf (h : IsName name) (hs : IsXmlText s) (acc : Text) (b : ℕ) :
    Segment (n :: op) (.content acc b) (Xml.startTag name ++ (s ++ Xml.endTag name))
      [⟨acc, .start ⟨name, []⟩⟩, ⟨s, .close name⟩] (n :: op) (.content [] 0) (IsCharData s) := by
  have hopen : Segment (n :: op) (.content acc b) (Xml.startTag name)
      [⟨acc, .start ⟨name, []⟩⟩] (name :: n :: op) (.content [] 0) True :=
    .startTag h acc b
  have hraw : Segment (name :: n :: op) (.content [] 0) (s ++ Xml.endTag name)
      [⟨s, .close name⟩] (n :: op) (.content [] 0) (IsCharData s) :=
    .raw hs rfl h.noReturn.2 fun b ps => Reader.run_endTag h
  exact (hopen.append hraw).congr (by simp)

end

/-! ## Documents -/

section

variable {s : Text} {pieces : List Piece} {P : Prop} {acc : Text} {b : ℕ}

theorem lineEnds_of_notMem (h : '\r' ∉ s) : lineEnds s = s := by
  induction s with
  | nil => rfl
  | cons c s ih =>
    rw [List.mem_cons, not_or] at h
    obtain ⟨hc, hs⟩ := h
    rw [lineEnds, ih hs]
    · exact fun _ heq _ => hc heq.symm
    · exact fun heq => hc heq.symm

theorem dropDeclaration_append (s : Text) : dropDeclaration (declaration ++ s) = s := by
  rw [dropDeclaration, if_pos (List.isPrefixOf_iff_prefix.mpr (List.prefix_append _ _)),
    List.drop_left]

/-- A document of the start of a root and one segment is read as its pieces just where the segment
is. -/
theorem read_iff {root : Text} {first : List Piece} {op : List Text} {p : Place}
    (hroot : Reader.init.run root = some ⟨first.reverse, op, p⟩) (hreturn : '\r' ∉ root)
    (hne : first ≠ []) (h : Segment op p s pieces [] (.content acc b) P)
    (hspace : acc.all isSpace = true) :
    read (declaration ++ (root ++ s)) = some (first ++ pieces) ↔ P := by
  have hdocument : read (declaration ++ (root ++ s)) =
      (Reader.run ⟨first.reverse, op, p⟩ s).bind Reader.finish := by
    have hall : '\r' ∉ declaration ++ (root ++ s) :=
      List.not_mem_append (by decide) (List.not_mem_append hreturn h.noReturn)
    rw [read, lineEnds_of_notMem hall, dropDeclaration_append, Reader.run_of_run hroot]
  rw [hdocument]
  constructor
  · intro hread
    by_contra hnot
    obtain ⟨r', hrun, hfinish⟩ := Option.bind_eq_some_iff.mp hread
    rw [← List.append_nil s] at hrun
    unfold Reader.finish at hfinish
    split at hfinish
    · next hplace =>
      split at hfinish
      · refine h.misreads hnot _ [] r' hrun (by rw [hplace]; rfl) ?_
        rw [← List.reverse_append, ← Option.some.inj hfinish, List.reverse_reverse]
      · cases hfinish
    · cases hfinish
  · intro hP
    have hsome : (pieces.reverse ++ first.reverse).isEmpty = false := by
      rw [← List.reverse_append, List.isEmpty_eq_false_iff]
      exact fun hnil => hne (List.append_eq_nil_iff.mp (List.reverse_eq_nil_iff.mp hnil)).1
    have hfinish : Reader.finish ⟨pieces.reverse ++ first.reverse, [], .content acc b⟩ =
        some (pieces.reverse ++ first.reverse).reverse :=
      if_pos (by rw [hspace, hsome]; rfl)
    rw [h.reads hP, Option.bind_some, hfinish, ← List.reverse_append, List.reverse_reverse]

end

end Xml

end Infra
