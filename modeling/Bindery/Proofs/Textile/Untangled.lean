import Bindery.Proofs.Textile.Linked
import Bindery.Proofs.Textile.Spans

/-!
# Well-formed markup

The rules within a line are applied one after another, each to what the ones before it
have written. So a rule may take a mark that now stands in a tag, or a phrase that
begins in one element and ends in another. The markup is well formed exactly if no rule
does so.
-/

set_option autoImplicit false

namespace Bindery.Textile

/-! ## What each rule is applied to -/

def noted (phrase : List Char) : List Char := Text.substitute footnoteRule (escapeText phrase)

def linked (phrase : List Char) : List Char := Text.substitute linkRule (noted phrase)

def coded (phrase : List Char) : List Char :=
  Text.substitute (phraseRule '@' "code") (linked phrase)

def strengthened (phrase : List Char) : List Char :=
  Text.substitute (phraseRule '*' "strong") (coded phrase)

/-- No rule within a line is used within a tag, no address of a link has a quotation mark, and
the tags in each phrase that a rule takes are nested. Emphasis at the very start is emphasis
behind a blank. -/
structure Untangled (phrase : List Char) : Prop where
  links : UsedBetween linkRule 0 TargetUnquoted (noted phrase)
  code : UsedBetween (phraseRule '@' "code") 0 (PhraseNested '@' 0) (linked phrase)
  strong : UsedBetween (phraseRule '*' "strong") 0 (PhraseNested '*' 0) (coded phrase)
  emphasis : UsedBetween emphasisRule 1 (PhraseNested '_' 1) (' ' :: strengthened phrase)

instance : DecidablePred Untangled := fun phrase =>
  decidable_of_iff (UsedBetween linkRule 0 TargetUnquoted (noted phrase) ∧
      UsedBetween (phraseRule '@' "code") 0 (PhraseNested '@' 0) (linked phrase) ∧
      UsedBetween (phraseRule '*' "strong") 0 (PhraseNested '*' 0) (coded phrase) ∧
      UsedBetween emphasisRule 1 (PhraseNested '_' 1) (' ' :: strengthened phrase))
    ⟨fun all => ⟨all.1, all.2.1, all.2.2.1, all.2.2.2⟩,
      fun all => ⟨all.links, all.code, all.strong, all.emphasis⟩⟩

section

variable {text phrase block content : List Char} {condition : Prop} {c : Char} {name : String}

/-- The rules within a line leave tags nested exactly if they do not get tangled. -/
theorem tagged_renderInline (plain : '<' ∉ phrase) :
    TaggedBy ["em", "strong", "code", "a", "sup"] (renderInline phrase) (Untangled phrase) := by
  have linked := tagged_substitute_linkRule (noted_substitute (not_mem_escapeText plain))
  have code : Surrounds (phraseRule '@' "code") '@' 0 "code" :=
    surrounds_phraseRule (by decide) (by decide)
  have strong : Surrounds (phraseRule '*' "strong") '*' 0 "strong" :=
    surrounds_phraseRule (by decide) (by decide)
  have coded := code.tagged linked (by decide)
  have strengthened := strong.tagged coded (by decide)
  have emphasised := taggedBy_emphasise strengthened (by decide)
  refine emphasised.congr ⟨fun all => ?_, fun all => ?_⟩
  · exact ⟨all.1.1.1, all.1.1.2, all.1.2, all.2⟩
  · exact ⟨⟨⟨all.links, all.code⟩, all.strong⟩, all.emphasis⟩

theorem neutral_renderInline (plain : '<' ∉ phrase) :
    Neutral (renderInline phrase) (Untangled phrase) :=
  (tagged_renderInline plain).neutral

/-! ## Blocks -/

theorem Neutral.element (neutral : Neutral content condition) (own : IsElement name) :
    Neutral (element name content) condition := by
  have whole := element_append name content []
  rw [List.append_nil, List.append_nil] at whole
  rw [whole]
  exact neutral.within own.opens rfl own.closes

theorem neutral_join {separator : List Char} {α : Type} {items : List α} {write : α → List Char}
    {condition : α → Prop} (separates : Neutral separator True)
    (each : ∀ item ∈ items, Neutral (write item) (condition item)) :
    Neutral (Text.join separator (items.map write)) (∀ item ∈ items, condition item) := by
  induction items with
  | nil => exact neutral_nil.congr (by simp)
  | cons item items ih =>
      obtain ⟨here, others⟩ := List.forall_mem_cons.mp each
      have later := ih others
      cases items with
      | nil =>
          rw [List.map_singleton, Text.join, List.intercalate_singleton]
          exact here.congr (by simp)
      | cons next items =>
          rw [List.map_cons, List.map_cons, Text.join, List.intercalate_cons_cons]
          rw [Text.join, List.map_cons] at later
          exact ((here.append separates).append later).congr (by simp)

theorem neutral_renderLines (plain : ∀ line ∈ Text.lines text, '<' ∉ line) :
    Neutral (renderLines text) (∀ line ∈ Text.lines text, Untangled line) := by
  have read : run pass between "<br />\n".toList = some ([], between) := by decide
  have separates : Neutral "<br />\n".toList True := neutral_of_run read rfl
  exact neutral_join separates fun line member => neutral_renderInline (plain line member)

theorem neutral_renderParagraph (plain : ∀ line ∈ Text.lines text, '<' ∉ line) :
    Neutral (renderParagraph text) (∀ line ∈ Text.lines text, Untangled line) :=
  (neutral_renderLines plain).element (by decide)

theorem neutral_renderQuote (plain : ∀ line ∈ Text.lines text, '<' ∉ line) :
    Neutral (renderQuote text) (∀ line ∈ Text.lines text, Untangled line) := by
  have opens : run pass between "<blockquote>\n".toList =
      some ([.start "blockquote".toList], between) := by decide
  have closes : run pass between "\n</blockquote>".toList =
      some ([.finish "blockquote".toList], between) := by decide
  unfold renderQuote
  rw [List.append_assoc]
  exact (neutral_renderParagraph plain).within opens rfl closes

theorem neutral_renderItem (plain : '<' ∉ phrase) :
    Neutral (renderItem phrase) (Untangled phrase) := by
  have opens : run pass between "\t<li>".toList = some ([.start "li".toList], between) := by decide
  have closes : run pass between "</li>\n".toList =
      some ([.finish "li".toList], between) := by decide
  unfold renderItem
  rw [List.append_assoc]
  exact (neutral_renderInline plain).within opens rfl closes

theorem neutral_renderNote {number : List Char}
    (decimal : ∀ digit ∈ number, Text.isDecimalDigit digit = true) (plain : '<' ∉ content) :
    Neutral (renderNote number content) (Untangled content) := by
  obtain ⟨digits, quote, -⟩ := plain_of_decimal decimal
  have start : run pass between "<p class=\"footnote\" id=\"fn".toList =
      some ([], .plain (.value "p".toList)) := by decide
  have link : run pass (.plain (.value "p".toList)) "\"><a href=\"#fnr".toList =
      some ([.start "p".toList], .plain (.value "a".toList)) := by decide
  have raised : run pass (.plain (.value "a".toList)) "\"><sup>".toList =
      some ([.start "a".toList, .start "sup".toList], between) := by decide
  have ends : run pass between "</sup></a> ".toList =
      some ([.finish "sup".toList, .finish "a".toList], between) := by decide
  have closes : run pass between "</p>".toList = some ([.finish "p".toList], between) := by decide
  have value : ∀ name, run pass (.plain (.value name)) number = some ([], .plain (.value name)) :=
    run_value digits quote
  have opens := run_append (run_append (run_append (run_append (run_append (run_append start
    (value _)) link) (value _)) raised) (run_plain digits)) ends
  rw [renderNote_eq]
  exact (neutral_renderInline plain).within opens rfl closes

theorem neutral_renderList (ordered : Bool) {items : List (List Char)}
    (plain : ∀ item ∈ items, '<' ∉ item) :
    Neutral (renderList ordered items) (∀ item ∈ items, Untangled item) := by
  have own : IsElement (if ordered then "ol" else "ul") := by cases ordered <;> decide
  have feed : Neutral ['\n'] True := neutral_of_plain (by decide)
  have each := Neutral.flatMap fun item member => neutral_renderItem (plain item member)
  exact ((feed.append each).congr (by rw [true_and])).element own

/-- A block that is copied has no signs of tags if the text has none that opens a tag. -/
theorem plain_of_kept (plain : '<' ∉ block) (kept : formOf block = .kept) : '>' ∉ block := by
  intro member
  have inside := Text.mem_trimStart member (by decide)
  rcases formOf_eq_kept_iff.mp kept with standing | markup
  · exact sign_not_mem_of_isStandIn standing (by decide) (by decide) inside
  · obtain ⟨rest, whole⟩ := isMarkup_eq_cons markup
    have first : '<' ∈ Text.trimStart block := by simp [whole]
    exact plain ((List.dropWhile_suffix _).subset first)

/-- A block leaves tags nested exactly if the rules do not get tangled in its phrases. -/
theorem neutral_renderBlock (plain : '<' ∉ block)
    (phrases : ∀ phrase ∈ (formOf block).phrases, '<' ∉ phrase) :
    Neutral (renderBlock block) (∀ phrase ∈ (formOf block).phrases, Untangled phrase) := by
  rw [renderBlock_eq]
  cases form : formOf block with
  | kept =>
      exact (neutral_of_plain ⟨plain, plain_of_kept plain form⟩).congr (iff_of_true trivial nofun)
  | heading level content =>
      have levels : ∀ level ∈ ['1', '2', '3', '4', '5', '6'], IsElement ("h".push level) := by
        decide
      rw [form] at phrases
      have inside := neutral_renderInline (phrases content (List.mem_singleton_self content))
      refine (inside.element (levels level (level_of_heading? (heading?_of_formOf form)))).congr ?_
      exact List.forall_mem_singleton.symm
  | note number content =>
      rw [form] at phrases
      refine (neutral_renderNote (decimal_of_note? (note?_of_formOf form))
        (phrases content (List.mem_singleton_self content))).congr ?_
      exact List.forall_mem_singleton.symm
  | quote content =>
      rw [form] at phrases
      exact neutral_renderQuote phrases
  | list ordered items =>
      rw [form] at phrases
      exact neutral_renderList ordered phrases
  | paragraph content =>
      rw [form] at phrases
      exact neutral_renderParagraph phrases

/-! ## The characters of phrases -/

theorem mem_of_mem_closeBlock {lines : List (List Char)} (among : block ∈ closeBlock lines)
    (member : c ∈ block) (other : c ≠ '\n') : ∃ line ∈ lines, c ∈ line := by
  unfold closeBlock at among
  split at among
  · cases among
  · obtain rfl := List.mem_singleton.mp among
    have apart : '\n' ∉ [c] := fun feed => other (List.mem_singleton.mp feed).symm
    rw [← List.singleton_infix_iff, Text.infix_join_iff apart (List.cons_ne_nil c [])] at member
    obtain ⟨line, listed, inside⟩ := member
    exact ⟨line, List.mem_reverse.mp listed, (List.singleton_infix_iff _ _).mp inside⟩

theorem mem_of_mem_groupLines {current lines : List (List Char)}
    (among : block ∈ groupLines current lines) (member : c ∈ block) (other : c ≠ '\n') :
    ∃ line ∈ current ++ lines, c ∈ line := by
  induction lines generalizing current with
  | nil =>
      rw [List.append_nil]
      exact mem_of_mem_closeBlock among member other
  | cons line lines ih =>
      rw [groupLines] at among
      cases kind : lineKind line with
      | ordinary =>
          rw [kind] at among
          obtain ⟨found, within, inside⟩ := ih among
          exact ⟨found, List.perm_middle.symm.subset within, inside⟩
      | blank =>
          rw [kind] at among
          rcases List.mem_append.mp among with closed | later
          · obtain ⟨found, within, inside⟩ := mem_of_mem_closeBlock closed member other
            exact ⟨found, List.mem_append_left _ within, inside⟩
          · obtain ⟨found, within, inside⟩ := ih later
            exact ⟨found, List.mem_append_right _ (List.mem_cons_of_mem _ within), inside⟩
      | passed =>
          rw [kind] at among
          rcases List.mem_append.mp among with closed | later
          · obtain ⟨found, within, inside⟩ := mem_of_mem_closeBlock closed member other
            exact ⟨found, List.mem_append_left _ within, inside⟩
          · rcases List.mem_cons.mp later with rfl | later
            · obtain ⟨front, back, whole, -, -⟩ := Text.exists_trim line
              refine ⟨line, List.mem_append_right _ List.mem_cons_self, ?_⟩
              rw [whole]
              exact List.mem_append_left _ (List.mem_append_right _ member)
            · obtain ⟨found, within, inside⟩ := ih later
              exact ⟨found, List.mem_append_right _ (List.mem_cons_of_mem _ within), inside⟩

theorem mem_of_mem_blocks (among : block ∈ blocks text) (member : c ∈ block) (other : c ≠ '\n') :
    c ∈ text := by
  obtain ⟨line, listed, inside⟩ := mem_of_mem_groupLines among member other
  exact Text.mem_of_mem_lines listed inside

theorem BehindLead.mem (behind : BehindLead text block) (member : c ∈ text) : c ∈ block := by
  obtain ⟨lead, -, rfl⟩ := behind
  exact List.mem_append_right lead member

theorem mem_of_mem_phrases (among : phrase ∈ (formOf block).phrases) (member : c ∈ phrase) :
    c ∈ block := by
  have other : formOf block ≠ .kept := by
    intro kept
    rw [kept] at among
    cases among
  rcases phrases_cases other with ⟨text, behind, same | same⟩ | items
  · rw [same] at among
    obtain rfl := List.mem_singleton.mp among
    exact behind.mem member
  · rw [same] at among
    exact behind.mem (Text.mem_of_mem_lines among member)
  · obtain ⟨index, small, rfl⟩ := List.getElem_of_mem among
    have behind := items.get small (items.length_eq ▸ small)
    have inLine := behind.mem member
    have inside := Text.mem_of_mem_lines (List.getElem_mem _) inLine
    exact (behindLead_trimStart block).mem inside

/-! ## The whole text -/

theorem segments_plain_text (plain : '<' ∉ text) : segments text = text.map .plain := by
  have whole : segments (text ++ []) = text.map .plain ++ segments [] :=
    segments_append_of_not_mem plain []
  rwa [List.append_nil, segments, segments, segmentsAfter, List.append_nil] at whole

theorem lift_eq_self (plain : '<' ∉ text) : lift text = text := by
  rw [lift_eq, segments_plain_text plain, numbered_plain]

theorem spans_eq_nil (plain : '<' ∉ text) : spans text = [] := by
  rw [spans_eq, segments_plain_text plain, List.filterMap_map]
  exact List.filterMap_eq_nil_iff.mpr fun _ _ => rfl

theorem neutral_renderBlocks (plain : '<' ∉ text) :
    Neutral (renderBlocks text)
      (∀ block ∈ blocks text, ∀ phrase ∈ (formOf block).phrases, Untangled phrase) := by
  have feed : Neutral ['\n'] True := neutral_of_plain (by decide)
  refine Neutral.flatMap fun block among => ?_
  have inBlock : '<' ∉ block := fun member => plain (mem_of_mem_blocks among member (by decide))
  have inPhrase : ∀ phrase ∈ (formOf block).phrases, '<' ∉ phrase :=
    fun phrase own member => inBlock (mem_of_mem_phrases own member)
  exact ((neutral_renderBlock inBlock inPhrase).append feed).congr (by rw [and_true])

end

/-- The HTML of a text without tags of its own is well formed exactly if the rules do not get
tangled in any of its phrases. -/
theorem wellFormed_render_iff {text : String} (plain : '<' ∉ text.toList) :
    WellFormed (render text).toList ↔
      ∀ phrase ∈ (forms text).flatMap BlockForm.phrases, Untangled phrase := by
  have unix : '<' ∉ Text.unixEndings text.toList :=
    fun member => plain (mem_of_mem_unixEndings (by decide) member)
  rw [render, String.toList_ofList, renderChars, spans_eq_nil unix, wellFormed_restore_iff, forms,
    lift_eq_self unix, neutral_renderBlocks unix, List.forall_mem_flatMap, List.forall_mem_map]
  exact and_iff_left ⟨rfl, rfl⟩

theorem wellFormed_render_nested :
    '<' ∉ "h2. _a *b*_\n\n\"See @c@\":d[1]\n\nfn1. e".toList ∧
      WellFormed (render "h2. _a *b*_\n\n\"See @c@\":d[1]\n\nfn1. e").toList :=
  have plain : '<' ∉ "h2. _a *b*_\n\n\"See @c@\":d[1]\n\nfn1. e".toList := by decide
  ⟨plain, (wellFormed_render_iff plain).mpr (by decide +kernel)⟩

/-- An address of a link that is in asterisks gets a tag. -/
theorem not_wellFormed_render_strong_address :
    '<' ∉ "\"a\":*b*".toList ∧ spans "\"a\":*b*".toList = [] ∧
      render "\"a\":*b*" = "<p><a href=\"<strong>b</strong>\">a</a></p>\n" ∧
      ¬ WellFormed (render "\"a\":*b*").toList := by
  decide +kernel

end Bindery.Textile
