import Bindery.Proofs.Html.Escape
import Mathlib.Data.List.Nodup

/-!
# Reading back what was written

A start tag is read as the tag that was written, and a text as the text, except for
the character zero. Reading goes on behind it, whatever stands there.
-/

set_option autoImplicit false

namespace Bindery.Html

/-! ## Tags -/

/-- A name as it is kept when it is read. -/
def isPlainName (name : String) : Bool :=
  name.toList.head?.any Char.isAlpha &&
    name.toList.all fun c => !endsTagName c && c != '=' && nameChar c == c

/-- A value as it is kept when it is read. -/
def keptValue (value : String) : String := String.ofList (value.toList.map withoutNull)

def keptAttribute (item : String × String) : String × String := (item.1, keptValue item.2)

structure PlainChar (c : Char) : Prop where
  unending : endsTagName c = false
  sign : c ≠ '='
  kept : nameChar c = c

theorem plainChar_of_mem {name : String} (plain : isPlainName name = true) :
    ∀ c ∈ name.toList, PlainChar c := by
  intro c member
  have all := List.all_eq_true.mp (Bool.and_eq_true _ _ ▸ plain).2 c member
  simp only [Bool.and_eq_true, Bool.not_eq_true', bne_iff_ne, beq_iff_eq] at all
  exact ⟨all.1.1, all.1.2, all.2⟩

theorem exists_cons_of_isPlainName {name : String} (plain : isPlainName name = true) :
    ∃ c others, name.toList = c :: others ∧ c.isAlpha = true := by
  have first := (Bool.and_eq_true _ _ ▸ plain).1
  cases letters : name.toList with
  | nil => simp [letters] at first
  | cons c others => exact ⟨c, others, rfl, by simpa [letters] using first⟩

theorem PlainChar.ends {c : Char} (plain : PlainChar c) :
    isTagBlank c = false ∧ c ≠ '/' ∧ c ≠ '>' := by
  have unending := plain.unending
  simp only [endsTagName, Bool.or_eq_false_iff, beq_eq_false_iff_ne] at unending
  exact ⟨unending.1.1, unending.1.2, unending.2⟩

theorem quote_not_mem_escapeValue (value : String) : '"' ∉ (escapeValue value).toList := by
  rw [escapeValue, String.toList_ofList, List.mem_flatMap]
  rintro ⟨c, -, member⟩
  unfold escapeValueChar at member
  split at member
  · exact absurd member (by decide)
  · exact absurd member (by decide)
  · exact absurd member (by decide)
  · next other => exact other (List.mem_singleton.mp member).symm

theorem TagDraft.close_of_fresh {done : List (String × String)} {name : String}
    (plain : isPlainName name = true) (fresh : name ∉ done.map Prod.fst) (value : String) :
    TagDraft.close
        ⟨done, name.toList.reverse, ((escapeValue value).toList.map withoutNull).reverse⟩ =
      ⟨(name, keptValue value) :: done, [], []⟩ := by
  have nonempty : name.toList.reverse.isEmpty = false := by
    obtain ⟨c, others, letters, -⟩ := exists_cons_of_isPlainName plain
    simp [letters]
  have other : done.any (·.1 = name) = false := by
    refine List.any_eq_false.mpr fun item member => ?_
    simpa using ne_of_mem_of_not_mem (List.mem_map_of_mem member) fresh
  have decoded : decodeValue ((escapeValue value).toList.map withoutNull) =
      value.toList.map withoutNull := by
    rw [escapeValue, String.toList_ofList, map_withoutNull_escaped escapes_value,
      decodeValue_escaped escapes_value]
  simp [close, nonempty, other, decoded, keptValue]

section Tag

variable {tag : String} {place : TagPlace} {draft : TagDraft} {rest : List Char}

theorem readTag_cons {c : Char} (inside : c ≠ '>' ∨ place.closes = false) :
    readTag tag place draft (c :: rest) =
      readTag tag (tagStep place draft c).1 (tagStep place draft c).2 rest := by
  rw [readTag, if_neg]
  rcases inside with other | quoted
  · simp [other]
  · simp [quoted]

theorem readTag_name {name : List Char} (plain : ∀ c ∈ name, PlainChar c) :
    readTag tag .inName draft (name ++ rest) =
      readTag tag .inName { draft with name := name.reverse ++ draft.name } rest := by
  induction name generalizing draft with
  | nil => rfl
  | cons c name ih =>
      obtain ⟨first, others⟩ := List.forall_mem_cons.mp plain
      obtain ⟨blank, slash, close⟩ := first.ends
      have step : tagStep .inName draft c = (.inName, draft.addName c) := by
        simp [tagStep, blank, slash, first.sign]
      rw [List.cons_append, readTag_cons (.inl close), step, ih others]
      simp [TagDraft.addName, first.kept]

theorem readTag_value {value : List Char} (unquoted : '"' ∉ value) :
    readTag tag (.quoted '"') draft (value ++ rest) =
      readTag tag (.quoted '"')
        { draft with value := (value.map withoutNull).reverse ++ draft.value } rest := by
  induction value generalizing draft with
  | nil => rfl
  | cons c value ih =>
      rw [List.mem_cons, not_or] at unquoted
      have step : tagStep (.quoted '"') draft c = (.quoted '"', draft.addValue c) :=
        if_neg (Ne.symm unquoted.1)
      rw [List.cons_append, readTag_cons (.inr rfl), step, ih unquoted.2]
      simp [TagDraft.addValue]

/-- A place where a blank may stand before the next attribute. -/
def TagPlace.isBetween (place : TagPlace) : Prop := place = .beforeName ∨ place = .afterQuoted

theorem readTag_attribute (between : place.isBetween) {done : List (String × String)}
    (closed : draft.close = ⟨done, [], []⟩) {name : String} (plain : isPlainName name = true)
    (value : String) :
    readTag tag place draft ((Attribute.plain name value).write.toList ++ rest) =
      readTag tag .afterQuoted
        ⟨done, name.toList.reverse, ((escapeValue value).toList.map withoutNull).reverse⟩ rest := by
  obtain ⟨c, others, letters, -⟩ := exists_cons_of_isPlainName plain
  obtain ⟨first, more⟩ := List.forall_mem_cons.mp (letters ▸ plainChar_of_mem plain)
  obtain ⟨blank, slash, close⟩ := first.ends
  have written : (Attribute.plain name value).write.toList ++ rest =
      ' ' :: c :: (others ++ ('=' :: '"' :: ((escapeValue value).toList ++ '"' :: rest))) := by
    simp [Attribute.write, Attribute.plain, Attribute.writtenName, letters]
  have opens : tagStep place draft ' ' = (.beforeName, draft) := by
    rcases between with rfl | rfl <;> rfl
  have begins : tagStep .beforeName draft c = (.inName, ⟨done, [c], []⟩) := by
    simp [tagStep, openName, blank, slash, TagDraft.begin, closed, first.kept]
  have assigns : ∀ draft, tagStep .inName draft '=' = (.beforeValue, draft) := fun _ => rfl
  have quotes : ∀ draft, tagStep .beforeValue draft '"' = (.quoted '"', draft) := fun _ => rfl
  have ends : ∀ draft, tagStep (.quoted '"') draft '"' = (.afterQuoted, draft) := fun _ => rfl
  rw [written, readTag_cons (.inl (by decide)), opens, readTag_cons (.inl close), begins,
    readTag_name more, readTag_cons (.inl (by decide)), assigns, readTag_cons (.inl (by decide)),
    quotes, readTag_value (quote_not_mem_escapeValue value), readTag_cons (.inr rfl), ends, letters]
  simp

theorem readTag_attributes (between : place.isBetween) {done : List (String × String)}
    (closed : draft.close = ⟨done, [], []⟩) {attributes : List (String × String)}
    (plain : ∀ item ∈ attributes, isPlainName item.1 = true)
    (distinct : (done.reverse.map Prod.fst ++ attributes.map Prod.fst).Nodup) :
    readTag tag place draft
        ((String.join ((Element.ofName tag attributes).attributes.map Attribute.write)).toList ++
          '>' :: rest) =
      some (⟨tag, done.reverse ++ attributes.map keptAttribute, false⟩, rest) := by
  induction attributes generalizing place draft done with
  | nil =>
      rcases between with rfl | rfl <;> simp [readTag, TagPlace.closes, TagDraft.attributes, closed,
        Element.ofName]
  | cons first others ih =>
      have written : (String.join ((Element.ofName tag (first :: others)).attributes.map
          Attribute.write)).toList = (Attribute.plain first.1 first.2).write.toList ++
            (String.join ((Element.ofName tag others).attributes.map Attribute.write)).toList := by
        simp [Element.ofName, String.join_cons]
      obtain ⟨named, more⟩ := List.forall_mem_cons.mp plain
      have fresh : first.1 ∉ done.map Prod.fst := fun member =>
        (List.nodup_append.mp distinct).2.2 _ (by simpa using member) _ List.mem_cons_self rfl
      have next := ih (.inr rfl) (TagDraft.close_of_fresh named fresh first.2) more
        (by simpa [keptAttribute] using distinct)
      rw [written, List.append_assoc, readTag_attribute between closed named, next]
      simp [keptAttribute]

end Tag

/-- A tag that is read as it is written, but for its values. -/
structure Tag.IsPlain (tag : Tag) : Prop where
  name : isPlainName tag.name = true
  attributes : ∀ item ∈ tag.attributes, isPlainName item.1 = true
  distinct : (tag.attributes.map Prod.fst).Nodup

/-- A start tag as it is kept when it is read. -/
def Tag.kept (tag : Tag) : Tag := ⟨tag.name, tag.attributes.map keptAttribute, false⟩

def Tag.writtenAttributes (tag : Tag) : List Char :=
  (String.join (tag.element.attributes.map Attribute.write)).toList

section Written

variable {tag : Tag} {rest : List Char}

theorem readNamedTag_written (plain : tag.IsPlain) :
    readNamedTag (tag.name.toList ++ (tag.writtenAttributes ++ '>' :: rest)) =
      some (tag.kept, rest) := by
  have chars := plainChar_of_mem plain.name
  have kept : tag.name.toList.map nameChar = tag.name.toList :=
    (List.map_congr_left fun c member => (chars c member).kept).trans (List.map_id _)
  have name : ∀ after : List Char, after.head?.all endsTagName = true →
      (tag.name.toList ++ after).takeWhile (fun c => !endsTagName c) = tag.name.toList := by
    intro after stops
    rw [List.takeWhile_append_of_pos fun c member => by simp [(chars c member).unending]]
    cases after with
    | nil => simp
    | cons c after =>
        have ends : endsTagName c = true := stops
        simp [ends]
  have begins : (tag.writtenAttributes ++ '>' :: rest).head?.all endsTagName = true := by
    rw [Tag.writtenAttributes, Tag.element]
    cases tag.attributes with
    | nil => rfl
    | cons first others => simp [Element.ofName, Attribute.write]; decide
  have read : readTag tag.name .beforeName .empty (tag.writtenAttributes ++ '>' :: rest) =
      some (⟨tag.name, [].reverse ++ tag.attributes.map keptAttribute, false⟩, rest) :=
    readTag_attributes (.inl rfl) rfl plain.attributes (by simpa using plain.distinct)
  rw [readNamedTag, name _ begins, List.drop_left, kept, String.ofList_toList, read]
  rfl

theorem readMarkup_letter {c : Char} (letter : c.isAlpha = true) (sections : Bool)
    {found : Tag × List Char} (read : readNamedTag (c :: rest) = some found) :
    readMarkup sections (c :: rest) = ⟨some (.startTag found.1), .data, found.2⟩ := by
  unfold readMarkup
  split
  · next same => exact absurd ((List.cons.inj same).1 ▸ letter) (by decide)
  · next same => exact absurd ((List.cons.inj same).1 ▸ letter) (by decide)
  · next same => exact absurd ((List.cons.inj same).1 ▸ letter) (by decide)
  · next same => exact absurd ((List.cons.inj same).1 ▸ letter) (by decide)
  · next same => exact absurd ((List.cons.inj same).1 ▸ letter) (by decide)
  · next same =>
      obtain ⟨rfl, rfl⟩ := List.cons.inj same
      rw [if_pos letter, read]
  · next same => cases same

theorem readMarkup_slash {c : Char} (letter : c.isAlpha = true) (sections : Bool)
    {found : Tag × List Char} (read : readNamedTag (c :: rest) = some found) :
    readMarkup sections ('/' :: c :: rest) = ⟨some (.endTag found.1), .data, found.2⟩ := by
  rw [readMarkup, if_pos letter, read]
  rintro rfl
  exact absurd letter (by decide)

theorem readData_startTag (plain : tag.IsPlain) (sections : Bool) :
    readData sections (tag.element.startTag.toList ++ rest) =
      ⟨some (.startTag tag.kept), .data, rest⟩ := by
  have read := @readNamedTag_written tag rest plain
  have written : tag.element.startTag.toList ++ rest =
      '<' :: (tag.name.toList ++ (tag.writtenAttributes ++ '>' :: rest)) := by
    simp [Element.startTag, Tag.element, Tag.writtenAttributes, Element.ofName]
  obtain ⟨c, others, letters, letter⟩ := exists_cons_of_isPlainName plain.name
  rw [letters, List.cons_append] at read
  rw [written, readData, letters, List.cons_append, readMarkup_letter letter sections read]

theorem readData_endTag (named : isPlainName tag.name = true) (sections : Bool) :
    readData sections (tag.element.endTag.toList ++ rest) =
      ⟨some (.endTag ⟨tag.name, [], false⟩), .data, rest⟩ := by
  have bare : Tag.IsPlain ⟨tag.name, [], false⟩ := ⟨named, nofun, List.nodup_nil⟩
  have read : readNamedTag (tag.name.toList ++ '>' :: rest) = some (⟨tag.name, [], false⟩, rest) :=
    readNamedTag_written bare
  have written : tag.element.endTag.toList ++ rest =
      '<' :: '/' :: (tag.name.toList ++ '>' :: rest) := by
    simp [Element.endTag, Tag.element, Element.ofName]
  obtain ⟨c, others, letters, letter⟩ := exists_cons_of_isPlainName named
  rw [letters, List.cons_append] at read
  rw [written, readData, letters, List.cons_append, readMarkup_slash letter sections read]

end Written

/-! ## Text -/

/-- The characters at the start of a written text that the test holds of are written as they
are. -/
theorem exists_takeWhile_written {test : Char → Bool} (sign : test '<' = false)
    (ampersand : test '&' = false) (text after : List Char) :
    ∃ run more, text = run ++ more ∧
      (text.flatMap escapeTextChar ++ '<' :: after).takeWhile test = run ∧
      text.flatMap escapeTextChar = run ++ more.flatMap escapeTextChar := by
  induction text with
  | nil => exact ⟨[], [], rfl, by simp [sign], rfl⟩
  | cons c text ih =>
      rw [List.flatMap_cons, List.append_assoc]
      rcases escapes_text c with ⟨plain, -⟩ | ⟨name, written, -⟩
      · rw [plain, List.singleton_append, List.takeWhile_cons]
        cases holds : test c with
        | false => exact ⟨[], c :: text, rfl, rfl, by simp [plain]⟩
        | true =>
            obtain ⟨run, more, parts, taken, split⟩ := ih
            exact ⟨c :: run, more, by rw [parts]; rfl, by simp [taken], by simp [split]⟩
      · refine ⟨[], c :: text, rfl, ?_, by simp⟩
        rw [written, List.cons_append, List.takeWhile_cons, ampersand]
        rfl

/-- A piece of a text as the reader takes it. -/
inductive TextPiece : List Char → Token → Prop where
  | null : TextPiece ['\x00'] .null
  | run {run : List Char} {token : Token} (whole : '\x00' ∉ run)
      (read : textToken? run = some token) : TextPiece run token

theorem exists_textToken (c : Char) (run : List Char) :
    ∃ token, textToken? (c :: run) = some token := by
  by_cases blank : isTextBlank c = true
  · exact ⟨_, if_pos blank⟩
  · exact ⟨_, if_neg blank⟩

theorem exists_readData_text (sections : Bool) (c : Char) (text after : List Char) :
    ∃ run more token, TextPiece run token ∧ c :: text = run ++ more ∧
      readData sections ((c :: text).flatMap escapeTextChar ++ '<' :: after) =
        ⟨some token, .data, more.flatMap escapeTextChar ++ '<' :: after⟩ := by
  by_cases zero : c = '\x00'
  · subst zero
    exact ⟨['\x00'], text, .null, .null, rfl, rfl⟩
  rw [List.flatMap_cons, List.append_assoc]
  rcases escapes_text c with ⟨plain, sign⟩ | ⟨name, written, member⟩
  · have opening : c ≠ '<' := by
      rintro rfl
      exact absurd plain (by decide)
    let test := fun d => !(d == '<' || d == '&' || d == '\x00') && isTextBlank d == isTextBlank c
    obtain ⟨run, more, parts, taken, split⟩ :=
      @exists_takeWhile_written test rfl rfl text after
    obtain ⟨token, read⟩ := exists_textToken c run
    have whole : '\x00' ∉ c :: run := by
      rw [List.mem_cons, not_or]
      refine ⟨Ne.symm zero, fun member => ?_⟩
      have holds : test '\x00' = true := List.mem_takeWhile_imp (taken ▸ member)
      simp [test] at holds
    have pieces : c :: text = c :: run ++ more := congrArg (c :: ·) parts
    refine ⟨c :: run, more, token, .run whole read, pieces, ?_⟩
    rw [plain, List.singleton_append, readData, readRun, taken, read, split, List.append_assoc,
      List.drop_left]
    · exact opening
    · exact sign
    · exact zero
  · have feed : c ≠ '\n' := by
      have none : ∀ escape ∈ escapes, escape.2 ≠ ['\n'] := by decide
      simpa using none _ member
    have whole : '\x00' ∉ [c] := by simpa using Ne.symm zero
    obtain ⟨token, read⟩ := exists_textToken c []
    have reference :=
      readReference_escape member false (text.flatMap escapeTextChar ++ '<' :: after)
    refine ⟨[c], text, token, .run whole read, rfl, ?_⟩
    rw [written, List.cons_append, readData, readAmpersand, reference]
    simp [feed, read]

/-! ## Markup -/

theorem toList_write_element {tag : Element} (verbatim : tag.isVerbatim = false)
    (void : tag.isVoid = false) (children : List Node) :
    (Tree.write .outside (.element tag children)).toList =
      tag.startTag.toList ++ ((Tree.writeAll .outside children).toList ++ tag.endTag.toList) := by
  simp [Tree.write, Surroundings.outside, verbatim, void]

theorem Tree.writeAll_append (around : Surroundings) (left right : List Node) :
    writeAll around (left ++ right) = writeAll around left ++ writeAll around right := by
  induction left with
  | nil => exact String.empty_append.symm
  | cons node rest ih => rw [List.cons_append, writeAll, ih, writeAll, String.append_assoc]

theorem toList_writeAll_concat (nodes : List Node) (node : Node) :
    (Tree.writeAll .outside (nodes ++ [node])).toList =
      (Tree.writeAll .outside nodes).toList ++ (Tree.write .outside node).toList := by
  simp [Tree.writeAll_append, Tree.writeAll]

theorem toList_writeAll_text (code : String) :
    (Tree.writeAll .outside [.text code]).toList = code.toList.flatMap escapeTextChar := by
  simp [Tree.writeAll, Tree.write, Surroundings.outside, escapeText]

/-! ## Runs -/

/-- What is read takes one state to the other, whatever number bounds the characters. -/
def Reads (state : State) (text : List Char) (next : State) (rest : List Char) : Prop :=
  ∃ pieces, pieces + rest.length ≤ text.length ∧
    ∀ bound, state.readWithin (bound + pieces) text = next.readWithin bound rest

namespace Reads

variable {state next last : State} {text rest after : List Char}

theorem refl (state : State) (text : List Char) : Reads state text state text :=
  ⟨0, by omega, fun _ => rfl⟩

theorem trans (first : Reads state text next rest) (second : Reads next rest last after) :
    Reads state text last after := by
  obtain ⟨taken, short, reads⟩ := first
  obtain ⟨more, shorter, goes⟩ := second
  refine ⟨more + taken, by omega, fun bound => ?_⟩
  rw [← Nat.add_assoc, reads, goes]

theorem token {front : List Char} (nonempty : front ≠ []) (data : state.reading = .data)
    {token : Token} (goes : token ≠ .finish)
    (read : readData state.allowsSections (front ++ rest) = ⟨some token, .data, rest⟩) :
    Reads state (front ++ rest) (state.take token) rest := by
  have long : 0 < front.length := List.length_pos_of_ne_nil nonempty
  refine ⟨1, by rw [List.length_append]; omega, fun bound => ?_⟩
  have same : { state with reading := .data } = state := by rw [← data]
  have piece : state.reading.next state.allowsSections (front ++ rest) =
      ⟨some token, .data, rest⟩ := by rw [data]; exact read
  rw [State.readWithin, piece]
  dsimp only
  rw [same]
  cases token with
  | finish => exact absurd rfl goes
  | _ => rfl

theorem startTag {tag : Tag} (plain : tag.IsPlain) (data : state.reading = .data)
    (rest : List Char) :
    Reads state (tag.element.startTag.toList ++ rest) (state.take (.startTag tag.kept)) rest :=
  token (by simp [Element.startTag]) data nofun (readData_startTag plain _)

theorem endTag {tag : Tag} (named : isPlainName tag.name = true) (data : state.reading = .data)
    (rest : List Char) :
    Reads state (tag.element.endTag.toList ++ rest)
      (state.take (.endTag ⟨tag.name, [], false⟩)) rest :=
  token (by simp [Element.endTag]) data nofun (readData_endTag named _)

theorem readWithin_eq (reads : Reads state text next []) (data : next.reading = .data)
    {bound : Nat} (enough : text.length < bound) :
    state.readWithin bound text = next.take .finish := by
  obtain ⟨pieces, short, goes⟩ := reads
  rw [List.length_nil] at short
  obtain ⟨left, rfl⟩ : ∃ left, bound = left + 1 + pieces := ⟨bound - pieces - 1, by omega⟩
  have same : { next with reading := .data } = next := by rw [← data]
  rw [goes, State.readWithin, data]
  exact congrArg (State.take · .finish) same

end Reads

theorem TextPiece.ne_nil {run : List Char} {token : Token} (piece : TextPiece run token) :
    run ≠ [] := by
  cases piece with
  | null => exact List.cons_ne_nil _ _
  | run whole read =>
      rintro rfl
      cases read

theorem TextPiece.ne_finish {run : List Char} {token : Token} (piece : TextPiece run token) :
    token ≠ .finish := by
  cases piece with
  | null => nofun
  | run whole read =>
      rintro rfl
      unfold textToken? at read
      split at read
      · cases read
      · split at read <;> cases read

/-- A written text is read piece by piece, up to the next tag. The characters zero get lost, and
what each piece keeps of the state and of the text read into it holds at the end. -/
theorem exists_reads_text (known : State → List Char → Prop)
    (data : ∀ state content, known state content → state.reading = .data)
    (piecewise : ∀ state content run token, known state content → TextPiece run token →
      known (state.take token) (content ++ run.filter (· ≠ '\x00')))
    {state : State} (content text after : List Char) (begins : known state content) :
    ∃ next, known next (content ++ text.filter (· ≠ '\x00')) ∧
      Reads state (text.flatMap escapeTextChar ++ '<' :: after) next ('<' :: after) := by
  -- A piece may be a run of any length, so the induction is on the number of characters left.
  induction h : text.length using Nat.strong_induction_on generalizing text content state with
  | _ length ih =>
      subst h
      cases text with
      | nil => exact ⟨state, by simpa using begins, Reads.refl _ _⟩
      | cons c others =>
          obtain ⟨run, more, token, piece, parts, read⟩ :=
            exists_readData_text state.allowsSections c others after
          have shorter : more.length < (c :: others).length := by
            have total := congrArg List.length parts
            have some := List.length_pos_of_ne_nil piece.ne_nil
            rw [List.length_append] at total
            omega
          have written : (c :: others).flatMap escapeTextChar ++ '<' :: after =
              run.flatMap escapeTextChar ++ (more.flatMap escapeTextChar ++ '<' :: after) := by
            rw [parts, List.flatMap_append, List.append_assoc]
          have nonempty : run.flatMap escapeTextChar ≠ [] := by
            obtain ⟨d, run, rfl⟩ := List.exists_cons_of_ne_nil piece.ne_nil
            simp [write_ne_nil escapes_text]
          rw [written] at read ⊢
          have first := Reads.token nonempty (data state content begins) piece.ne_finish read
          obtain ⟨next, there, rest⟩ :=
            ih _ shorter _ more (piecewise state content run token begins piece) rfl
          refine ⟨next, ?_, first.trans rest⟩
          rwa [parts, List.filter_append, ← List.append_assoc]

/-- States that differ only in the text that has been read into them. -/
structure TakesText (family : List Char → State) : Prop where
  data : ∀ content, (family content).reading = .data
  text : ∀ content c run, (family content).take (.text (String.ofList (c :: run))) =
    family (content ++ c :: run)
  blank : ∀ content c run, (family content).take (.blank (String.ofList (c :: run))) =
    family (content ++ c :: run)
  null : ∀ content, (family content).take .null = family content

namespace TakesText

variable {family : List Char → State} (takes : TakesText family)

include takes

theorem take_piece {run : List Char} {token : Token} (piece : TextPiece run token)
    (content : List Char) :
    (family content).take token = family (content ++ run.filter (· ≠ '\x00')) := by
  cases piece with
  | null => exact (takes.null content).trans (congrArg family (List.append_nil content).symm)
  | run whole read =>
      have kept : run.filter (· ≠ '\x00') = run := by
        refine List.filter_eq_self.mpr fun d member => decide_eq_true ?_
        rintro rfl
        exact whole member
      rw [kept]
      unfold textToken? at read
      split at read
      · cases read
      · split at read
        · cases read
          exact takes.blank _ _ _
        · cases read
          exact takes.text _ _ _

/-- A written text is read up to the next tag, without the characters zero. -/
theorem reads (text content after : List Char) :
    Reads (family content) (text.flatMap escapeTextChar ++ '<' :: after)
      (family (content ++ text.filter (· ≠ '\x00'))) ('<' :: after) := by
  obtain ⟨next, rfl, reads⟩ := exists_reads_text (fun state content => state = family content)
    (by
      rintro state content rfl
      exact takes.data content)
    (by
      rintro state content run token rfl piece
      exact takes.take_piece piece content)
    content text after rfl
  exact reads

end TakesText

end Bindery.Html
