import Bindery.Proofs.Text.Trim
import Bindery.Proofs.Textile.BlockForm
import Bindery.Proofs.Textile.Passthrough

/-!
# The block around a piece of markup

The lines above decide where the block begins that a piece of markup is in, and
its beginning decides whether the block is copied. A block that is not copied is
changed, so it stays as it is exactly if it is copied.
-/

set_option autoImplicit false

namespace Bindery.Textile

/-! ## Splitting into blocks -/

/-- The lines of the block that is still open behind some lines, in reverse order. -/
def openLines : List (List Char) → List (List Char) → List (List Char)
  | current, [] => current
  | current, line :: rest =>
      match lineKind line with
      | .ordinary => openLines (line :: current) rest
      | .blank => openLines [] rest
      | .passed => openLines [] rest

theorem groupLines_append (current lines : List (List Char)) :
    ∃ closed, ∀ rest,
      groupLines current (lines ++ rest) = closed ++ groupLines (openLines current lines) rest := by
  induction lines generalizing current with
  | nil => exact ⟨[], fun _ => rfl⟩
  | cons line lines ih =>
      simp only [List.cons_append, groupLines, openLines]
      cases lineKind line with
      | ordinary => exact ih _
      | blank =>
          obtain ⟨closed, grouped⟩ := ih []
          exact ⟨closeBlock current ++ closed, fun rest => by
            simp only [grouped, List.append_assoc]⟩
      | passed =>
          obtain ⟨closed, grouped⟩ := ih []
          exact ⟨closeBlock current ++ Text.trim line :: closed, fun rest => by
            simp only [grouped, List.append_assoc, List.cons_append]⟩

theorem join_append_singleton {separator : List Char} {lines : List (List Char)}
    (nonempty : lines ≠ []) (line : List Char) :
    Text.join separator (lines ++ [line]) = Text.join separator lines ++ (separator ++ line) := by
  induction lines with
  | nil => exact absurd rfl nonempty
  | cons first lines ih =>
      cases lines with
      | nil => simp [Text.join]
      | cons second lines =>
          have joined := ih (List.cons_ne_nil second lines)
          simp only [Text.join, List.cons_append, List.intercalate_cons_cons] at joined ⊢
          rw [joined, ← List.append_assoc]

/-- The last of some joined lines may be any. -/
theorem exists_join_append (separator : List Char) (lines : List (List Char)) :
    ∃ lead, ∀ line, Text.join separator (lines ++ [line]) = lead ++ line := by
  by_cases nonempty : lines = []
  · refine ⟨[], fun line => ?_⟩
    rw [nonempty, List.nil_append, Text.join, List.intercalate_singleton]
    rfl
  · exact ⟨Text.join separator lines ++ separator, fun line => by
      rw [join_append_singleton nonempty, List.append_assoc]⟩

/-- The lines of an open block are the beginning of the next block. -/
theorem groupLines_open {current : List (List Char)} (nonempty : current ≠ [])
    (lines : List (List Char)) :
    ∃ tail others,
      groupLines current lines = (Text.join ['\n'] current.reverse ++ tail) :: others := by
  have here : ∀ {current : List (List Char)}, current ≠ [] →
      closeBlock current = [Text.join ['\n'] current.reverse] := by
    intro current nonempty
    rw [closeBlock, if_neg (by simpa using nonempty)]
  induction lines generalizing current with
  | nil => exact ⟨[], [], by rw [groupLines, here nonempty, List.append_nil]⟩
  | cons line lines ih =>
      rw [groupLines]
      cases lineKind line with
      | ordinary =>
          obtain ⟨tail, others, grouped⟩ := ih (List.cons_ne_nil line current)
          rw [List.reverse_cons,
            join_append_singleton (List.reverse_eq_nil_iff.not.mpr nonempty)] at grouped
          exact ⟨_, others, by rw [grouped, List.append_assoc]⟩
      | blank => exact ⟨[], _, by rw [here nonempty, List.append_nil]; rfl⟩
      | passed => exact ⟨[], _, by rw [here nonempty, List.append_nil]; rfl⟩

/-- A text is some whole lines and the beginning of one more. -/
theorem exists_lastLine (text : List Char) :
    ∃ above start, text = above ++ start ∧ '\n' ∉ start ∧
      ∀ after, Text.lines (above ++ after) = Text.lines above ++ Text.lines after := by
  induction text using List.reverseRecOn with
  | nil => exact ⟨[], [], rfl, List.not_mem_nil, fun _ => rfl⟩
  | append_singleton text c ih =>
      by_cases feed : c = '\n'
      · subst feed
        refine ⟨text ++ ['\n'], [], (List.append_nil _).symm, List.not_mem_nil, fun after => ?_⟩
        rw [List.append_assoc]
        exact Text.lines_append_lineFeed text after
      · obtain ⟨above, start, rfl, plain, whole⟩ := ih
        refine ⟨above, start ++ [c], List.append_assoc _ _ _, ?_, whole⟩
        exact List.not_mem_append plain (by simpa using Ne.symm feed)

theorem sign_not_mem_of_isStandIn {text : List Char} {sign : Char}
    (passed : isStandIn text = true) (other : Text.isDecimalDigit sign = false)
    (ends : sign ∉ [opener, closer]) : sign ∉ text := by
  unfold isStandIn at passed
  split at passed
  · next digits read =>
      obtain ⟨decimal, behind, rfl⟩ := eq_append_of_standInDigits? read
      obtain rfl : behind = [] := by simpa using passed
      have number : sign ∉ digits := by
        intro member
        rw [decimal sign member] at other
        cases other
      simp only [List.mem_cons, List.not_mem_nil, or_false, not_or] at ends
      simpa using ⟨ends.1, number, ends.2⟩
  · cases passed

theorem not_mem_of_isStandIn {text : List Char} (passed : isStandIn text = true) : '<' ∉ text :=
  sign_not_mem_of_isStandIn passed (by decide) (by decide)

theorem lineKind_eq_ordinary {line : List Char} (markup : '<' ∈ line) :
    lineKind line = .ordinary := by
  have visible : Text.isBlank '<' = false := by decide
  have standing : isStandIn (Text.trim line) = false :=
    Bool.eq_false_iff.mpr fun passed => not_mem_of_isStandIn passed (Text.mem_trim markup visible)
  have shown : Text.allBlank line = false := by
    rw [Text.allBlank, List.all_eq_false]
    exact ⟨'<', markup, by simp [visible]⟩
  rw [lineKind, standing, shown]
  rfl

/-- The block that a piece of markup on one line is in: it begins where the last block begins when
the text ends with the markup. -/
theorem exists_block_around {markup : List Char} (before after : List Char)
    (plain : '\n' ∉ markup) (tag : '<' ∈ markup) (closed : markup.getLast? = some '>') :
    ∃ lead rest, (blocks (before ++ markup)).getLast? = some (lead ++ markup) ∧
      lead ++ markup ++ rest ∈ blocks (before ++ (markup ++ after)) := by
  obtain ⟨above, start, rfl, startPlain, whole⟩ := exists_lastLine before
  have nonempty : start ++ markup ≠ [] :=
    List.append_ne_nil_of_right_ne_nil _ (List.ne_nil_of_mem tag)
  have inLine : '\n' ∉ start ++ markup := List.not_mem_append startPlain plain
  have ending : (start ++ markup).getLast? ≠ some '\r' := by
    rw [List.getLast?_append_of_ne_nil start (List.ne_nil_of_mem tag), closed]
    decide
  have short : Text.lines (start ++ markup) = [start ++ markup] := by
    have alone := Text.lines_append [] nonempty inLine ending
    rwa [List.append_nil] at alone
  obtain ⟨tail, more, long⟩ : ∃ tail more,
      Text.lines (start ++ markup ++ after) = (start ++ markup ++ tail) :: more := by
    rw [Text.lines_append after nonempty inLine ending]
    cases Text.lines after with
    | nil => exact ⟨[], [], by rw [List.append_nil]; rfl⟩
    | cons line others => exact ⟨line, others, rfl⟩
  obtain ⟨done, grouped⟩ := groupLines_append [] (Text.lines above)
  obtain ⟨lead, joined⟩ := exists_join_append ['\n'] (openLines [] (Text.lines above)).reverse
  have ordinary : ∀ tail, lineKind (start ++ markup ++ tail) = .ordinary := fun tail =>
    lineKind_eq_ordinary (List.mem_append_left _ (List.mem_append_right _ tag))
  -- The lines above leave a block open. In the one text the line of the markup is its last line,
  -- in the other it goes on.
  refine ⟨lead ++ start, ?_⟩
  have last : blocks (above ++ start ++ markup) = done ++ [lead ++ start ++ markup] := by
    have kind := ordinary []
    rw [List.append_nil] at kind
    rw [List.append_assoc, blocks, whole, short, grouped, groupLines, kind]
    dsimp only
    rw [groupLines, closeBlock, if_neg (by simp), List.reverse_cons, joined, List.append_assoc]
  obtain ⟨rest, others, opened⟩ := groupLines_open
    (List.cons_ne_nil (start ++ markup ++ tail) (openLines [] (Text.lines above))) more
  have around : blocks (above ++ start ++ (markup ++ after)) =
      done ++ (lead ++ start ++ markup ++ (tail ++ rest)) :: others := by
    rw [List.append_assoc above, ← List.append_assoc start, blocks, whole, long, grouped, groupLines,
      ordinary tail]
    dsimp only
    rw [opened, List.reverse_cons, joined]
    simp only [List.append_assoc]
  refine ⟨tail ++ rest, by rw [last, List.getLast?_concat], ?_⟩
  rw [around]
  exact List.mem_append_right _ List.mem_cons_self

/-! ## Blocks that are copied -/

section

variable {text : List Char}

/-- A sign that ends the name of a tag. -/
def endsName (c : Char) : Bool := c = '>' || c = ' '

theorem startsWithTagName_append {name : String} {stop : Char} (after : List Char)
    (known : name ∈ blockTagNames) (stops : endsName stop = true) (member : stop ∈ text) :
    startsWithTagName name (text ++ after) = startsWithTagName name text := by
  have foreign : ∀ name ∈ blockTagNames, '>' ∉ name.toList ∧ ' ' ∉ name.toList := by
    decide
  have folded : stop ∉ name.toList ∧ Text.foldChar stop = stop := by
    obtain rfl | rfl : stop = '>' ∨ stop = ' ' := by simpa [endsName] using stops
    · exact ⟨(foreign name known).1, by decide⟩
    · exact ⟨(foreign name known).2, by decide⟩
  by_cases long : name.length < text.length
  · unfold startsWithTagName
    rw [List.take_append_of_le_length long.le, List.drop_append_of_le_length long.le]
    cases behind : text.drop name.length with
    | nil => exact absurd (List.drop_eq_nil_iff.mp behind) (Nat.not_le.mpr long)
    | cons c rest => rfl
  · have other : ∀ whole, stop ∈ whole.take name.length → startsWithTagName name whole = false := by
      intro whole inside
      have differs : (whole.take name.length).map Text.foldChar ≠ name.toList := by
        intro same
        refine folded.1 ?_
        rw [← same, List.mem_map]
        exact ⟨stop, inside, folded.2⟩
      rw [startsWithTagName, decide_eq_false differs, Bool.false_and]
    have short := Nat.not_lt.mp long
    rw [other text (by rwa [List.take_of_length_le short]), other (text ++ after)]
    rw [List.take_append, List.take_of_length_le short]
    exact List.mem_append_left _ member

/-- A text is markup by its beginning, which goes as far as the first name. -/
theorem isMarkup_append {stop : Char} (after : List Char) (stops : endsName stop = true)
    (member : stop ∈ text) : isMarkup (text ++ after) = isMarkup text := by
  have named : ∀ {rest : List Char}, stop ∈ rest →
      (blockTagNames.any fun name => startsWithTagName name (rest ++ after)) =
        blockTagNames.any fun name => startsWithTagName name rest := by
    intro rest inside
    rw [Bool.eq_iff_iff, List.any_eq_true, List.any_eq_true]
    exact exists_congr fun name => and_congr_right fun known => by
      rw [startsWithTagName_append after known stops inside]
  have bracket : stop ≠ '<' ∧ stop ≠ '/' := by
    obtain rfl | rfl : stop = '>' ∨ stop = ' ' := by simpa [endsName] using stops
    · decide
    · decide
  rcases text with _ | ⟨c, rest⟩
  · cases member
  · by_cases angle : c = '<'
    · subst angle
      have inside := (List.mem_cons.mp member).resolve_left bracket.1
      rcases rest with _ | ⟨d, rest⟩
      · cases inside
      · by_cases slash : d = '/'
        · subst slash
          exact named ((List.mem_cons.mp inside).resolve_left bracket.2)
        · have opening := named inside
          simpa [isMarkup, slash] using opening
    · simp [isMarkup, angle]

theorem isMarkup_eq_cons (markup : isMarkup text = true) : ∃ rest, text = '<' :: rest := by
  unfold isMarkup at markup
  split at markup
  · exact ⟨_, rfl⟩
  · exact ⟨_, rfl⟩
  · cases markup

theorem isMarkup_trimStart_of_opening {opening : List Char} {stop : Char} (after : List Char)
    (tag : isMarkup opening = true) (stops : endsName stop = true) (member : stop ∈ opening) :
    isMarkup (Text.trimStart (opening ++ after)) = true := by
  have whole := isMarkup_append after stops member
  obtain ⟨rest, rfl⟩ := isMarkup_eq_cons tag
  have trimmed : Text.trimStart ('<' :: rest ++ after) = '<' :: rest ++ after :=
    List.dropWhile_cons_of_neg (by decide)
  rw [trimmed, whole, tag]

theorem level_of_heading? {level : Char} {content : List Char}
    (read : heading? text = some (level, content)) : level ∈ ['1', '2', '3', '4', '5', '6'] := by
  unfold heading? at read
  split at read
  · next first rest =>
      split at read
      · next bounds =>
          obtain ⟨_, _, same⟩ := Option.map_eq_some_iff.mp read
          obtain ⟨rfl, -⟩ := Prod.mk.inj same
          have range : 49 ≤ first.toNat ∧ first.toNat ≤ 54 := by
            simpa [Char.le_def, UInt32.le_iff_toNat_le] using bounds
          rw [← Char.ofNat_toNat first]
          obtain same | same | same | same | same | same : first.toNat = 49 ∨ first.toNat = 50 ∨
              first.toNat = 51 ∨ first.toNat = 52 ∨ first.toNat = 53 ∨ first.toNat = 54 := by
            omega
          all_goals
            rw [same]
            decide
      · cases read
  · cases read

theorem isMarkup_trimStart_element {name : String} (content : List Char)
    (tag : isMarkup ("<".toList ++ name.toList ++ ">".toList) = true) :
    isMarkup (Text.trimStart (element name content)) = true := by
  have bracket : '>' ∈ "<".toList ++ name.toList ++ ">".toList :=
    List.mem_append_right _ (by decide)
  have opened := isMarkup_trimStart_of_opening
    (content ++ ("</".toList ++ (name.toList ++ ">".toList))) tag rfl bracket
  unfold element
  simpa only [List.append_assoc] using opened

theorem isMarkup_renderNote (number content : List Char) :
    isMarkup (Text.trimStart (renderNote number content)) = true := by
  have blank : ' ' ∈ "<p class=\"footnote\" id=\"fn".toList := by decide
  have tag : isMarkup "<p class=\"footnote\" id=\"fn".toList = true := by decide
  unfold renderNote
  simp only [List.append_assoc]
  exact isMarkup_trimStart_of_opening _ tag rfl blank

theorem isMarkup_renderQuote (content : List Char) :
    isMarkup (Text.trimStart (renderQuote content)) = true := by
  have bracket : '>' ∈ "<blockquote>\n".toList := by decide
  have tag : isMarkup "<blockquote>\n".toList = true := by decide
  unfold renderQuote
  rw [List.append_assoc]
  exact isMarkup_trimStart_of_opening _ tag rfl bracket

end

/-- What a block of any other form becomes begins with the tag of a block. -/
theorem isMarkup_renderBlock {block : List Char} (other : formOf block ≠ .kept) :
    isMarkup (Text.trimStart (renderBlock block)) = true := by
  rw [renderBlock_eq]
  cases form : formOf block with
  | kept => exact absurd form other
  | heading level content =>
      have tags : ['1', '2', '3', '4', '5', '6'].all (fun level =>
          isMarkup ("<".toList ++ ("h".push level).toList ++ ">".toList)) = true := by
        decide
      rw [BlockForm.render]
      exact isMarkup_trimStart_element _
        (List.all_eq_true.mp tags level (level_of_heading? (heading?_of_formOf form)))
  | note number content =>
      rw [BlockForm.render]
      exact isMarkup_renderNote number content
  | quote content =>
      rw [BlockForm.render]
      exact isMarkup_renderQuote content
  | list ordered items =>
      rw [BlockForm.render, renderList]
      cases ordered
      · exact isMarkup_trimStart_element _ (by decide)
      · exact isMarkup_trimStart_element _ (by decide)
  | paragraph content =>
      rw [BlockForm.render, renderParagraph]
      exact isMarkup_trimStart_element _ (by decide)

/-- A block stays as it is exactly if it is copied. -/
theorem renderBlock_eq_self_iff {block : List Char} :
    renderBlock block = block ↔ formOf block = .kept := by
  constructor
  · intro same
    by_contra other
    have markup := isMarkup_renderBlock other
    rw [same] at markup
    exact other (formOf_eq_kept_iff.mpr (.inr markup))
  · intro kept
    rw [renderBlock_eq, kept, BlockForm.render]

end Bindery.Textile
