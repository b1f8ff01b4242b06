import Bindery.Proofs.Callout.OuterPass
import Bindery.Proofs.Html.Returns

/-!
# Callouts on one line

A callout never has a line feed. It has a carriage return only if its class has one, or if a
numeric reference in its content has the number of one: the reference is decoded when the content
is read, and the writer does not put it back.
-/

set_option autoImplicit false

namespace Bindery.Callout

/-! ## The class -/

theorem lineFeed_not_mem_header (inset : List Char) :
    '\n' ∉ (Inset.headerAndBody inset).1 := by
  unfold Inset.headerAndBody
  cases found : Text.splitOnce '\n' inset with
  | none =>
      intro member
      obtain ⟨before, after, whole, first⟩ := List.eq_append_cons_of_mem member
      rw [Option.getD_none] at whole
      rw [Text.splitOnce_eq_some_iff.mpr ⟨whole, first⟩] at found
      cases found
  | some parts => exact (Text.splitOnce_eq_some_iff.mp found).2

theorem lineFeed_not_mem_className (inset : List Char) :
    '\n' ∉ (className (Inset.headerAndBody inset).1).toList := by
  have header := lineFeed_not_mem_header inset
  generalize (Inset.headerAndBody inset).1 = header_ at header ⊢
  obtain ⟨front, back, whole, -⟩ := Text.exists_trim header_
  unfold className
  dsimp only
  split
  · decide
  · rw [String.toList_ofList]
    intro member
    rw [whole] at header
    exact header (List.mem_append_left _ (List.mem_append_right _ member))

/-! ## The element -/

/-- The tag around the content of a callout. -/
theorem exists_container (name : String) (children : List Html.Node) :
    ∃ others : List Html.Attribute,
      container name children =
        .element ⟨.html, "div", .plain "class" name :: others⟩ children ∧
      ∀ item ∈ others, item = .plain Footnote.scopeAttribute "" := by
  unfold container
  dsimp only
  split
  · exact ⟨[.plain Footnote.scopeAttribute ""], rfl, by simp⟩
  · exact ⟨[], rfl, nofun⟩

theorem outer_container_class (name : String) (children : List Html.Node) :
    ∃ behind, (container name children).outer.toList =
      "<div class=\"".toList ++ ((Html.escapeValue name).toList ++ '"' :: behind) := by
  obtain ⟨others, same, -⟩ := exists_container name children
  have paired : ∀ attributes, Html.Element.isVoid ⟨.html, "div", attributes⟩ = false :=
    fun _ => rfl
  have opening : "<div class=\"".toList = "<".toList ++ "div".toList ++ " ".toList ++
      "class".toList ++ "=\"".toList := by decide
  have quote : "\"".toList = ['"'] := by decide
  rw [same, opening, Html.Tree.outer, Html.Tree.write]
  simp only [Html.Surroundings.outside, paired, Html.Element.startTag, Html.Attribute.write,
    Html.Attribute.writtenName, Html.Attribute.plain, Bool.false_eq_true, if_false,
    String.toList_append, String.toList_join, List.map_cons, List.flatMap_cons, List.append_assoc,
    quote, List.cons_append]
  exact ⟨_, rfl⟩

theorem returnless_outer_container {name : String} {children : List Html.Node}
    (plain : Html.Returnless name) (inside : ∀ child ∈ children, child.Returnless) :
    Html.Returnless (container name children).outer := by
  obtain ⟨others, same, only⟩ := exists_container name children
  have names : Html.Returnless "div" ∧ Html.Returnless "class" ∧
      Html.Returnless Footnote.scopeAttribute ∧ Html.Returnless "" := by decide
  rw [same]
  refine Html.Tree.returnless_element ⟨names.1, ?_⟩ inside .outside
  refine List.forall_mem_cons.mpr ⟨⟨names.2.1, plain⟩, fun item member => ?_⟩
  rw [only item member]
  exact names.2.2

/-! ## The line -/

theorem return_not_mem_foldLines {html : List Char} (plain : '\r' ∉ html) :
    '\r' ∉ Inset.foldLines html := by
  rw [Inset.foldLines, Text.unixEndings_eq_self_of_no_return plain]
  intro member
  obtain ⟨c, among, written⟩ := List.mem_flatMap.mp member
  split at written
  · revert written
    decide
  · exact plain (List.mem_singleton.mp written ▸ among)

theorem return_mem_foldLines {html : List Char} (member : '\r' ∈ Text.unixEndings html) :
    '\r' ∈ Inset.foldLines html :=
  List.mem_flatMap.mpr ⟨'\r', member, by decide⟩

/-- A carriage return of the class has no line feed behind it, so it stays. -/
theorem return_mem_foldLines_container {name : String} (oneLine : '\n' ∉ name.toList)
    (member : '\r' ∈ name.toList) (children : List Html.Node) :
    '\r' ∈ Inset.foldLines (container name children).outer.toList := by
  obtain ⟨behind, whole⟩ := outer_container_class name children
  have value : '\r' ∈ (Html.escapeValue name).toList := by
    rw [Html.escapeValue, String.toList_ofList]
    refine List.mem_flatMap.mpr ⟨'\r', member, ?_⟩
    rw [Html.write_of_isOrdinary Html.escapes_value Html.isOrdinary_carriageReturn]
    exact List.mem_singleton_self _
  have plain : '\n' ∉ (Html.escapeValue name).toList := by
    rw [Html.escapeValue, String.toList_ofList]
    intro feed
    obtain ⟨c, among, written⟩ := List.mem_flatMap.mp feed
    exact oneLine
      (Html.eq_of_mem_write Html.escapes_value Html.isOrdinary_lineFeed (by decide) written ▸ among)
  refine return_mem_foldLines ?_
  rw [whole, Text.unixEndings_append (.inl (by decide)), Text.unixEndings_append (.inr (by simp)),
    Text.unixEndings_eq_self plain]
  exact List.mem_append_right _ (List.mem_append_left _ value)

/-- A rendered callout is the container of a body that has been read. -/
theorem renderCallout_eq_ok {markup : Markup} {format : Format} {inset div : List Char}
    (rendered : renderCallout markup format inset = .ok div) :
    ∃ html body, markup.render format (String.ofList (Inset.headerAndBody inset).2) = .ok html ∧
      Html.parseBody? html = some body ∧
      div = Inset.foldLines
        (container (className (Inset.headerAndBody inset).1) body.children).outer.toList := by
  unfold renderCallout at rendered
  obtain ⟨html, written, rendered⟩ := bind_eq_ok rendered
  split at rendered
  · cases rendered
  · next body parsed =>
      cases rendered
      exact ⟨html, body, written, parsed, rfl⟩

/-- No callout of a text has a line feed. It has a carriage return if its class has one, and else
only if a reference in its content names one. -/
theorem render_oneLine {markup : Markup} {format : Format} {text output : String}
    (rendered : render markup format text = .ok output) :
    ∃ write, output.toList = Inset.splice marker write (Inset.cut marker text.toList) ∧
      ∀ inset ∈ Inset.insets (Inset.cut marker text.toList),
        ∃ html, markup.render format (String.ofList (Inset.headerAndBody inset).2) = .ok html ∧
          '\n' ∉ write inset ∧
          ('\r' ∈ (className (Inset.headerAndBody inset).1).toList → '\r' ∈ write inset) ∧
          ('\r' ∉ (className (Inset.headerAndBody inset).1).toList →
            Html.namesReturn (Html.documentText html) = false → '\r' ∉ write inset) := by
  obtain ⟨write, written, whole⟩ := render_eq_ok_iff.mp rendered
  refine ⟨write, whole, fun inset member => ?_⟩
  obtain ⟨html, body, content, parsed, div⟩ := renderCallout_eq_ok (written inset member)
  rw [div]
  refine ⟨html, content, Inset.lineFeed_not_mem_foldLines _, fun named => ?_,
    fun unnamed clear => ?_⟩
  · exact return_mem_foldLines_container (lineFeed_not_mem_className inset) named _
  · exact return_not_mem_foldLines
      (returnless_outer_container unnamed (Html.returnless_parseBody? parsed clear))

/-- A callout with a line ending, a reference to a line feed and one to another number. -/
def endedCallout : String := "&&& tip\n<b title='&#10;'>x&#131;</b>\r\ny\n&&&"

def endedInset : List Char := " tip\n<b title='&#10;'>x&#131;</b>\r\ny\n".toList

theorem render_oneLine_ended :
    render .standard .html endedCallout =
        .ok "<div class=\"tip\"><b title=\"&#10;\">xƒ</b>&#10;y&#10;</div>" ∧
      ∃ write : List Char → List Char,
        "<div class=\"tip\"><b title=\"&#10;\">xƒ</b>&#10;y&#10;</div>".toList = write endedInset ∧
          '\n' ∉ write endedInset ∧ '\r' ∉ write endedInset := by
  have rendered : render .standard .html endedCallout =
      .ok "<div class=\"tip\"><b title=\"&#10;\">xƒ</b>&#10;y&#10;</div>" := by decide +kernel
  have pieces : Inset.cut marker endedCallout.toList = [[], endedInset, []] := by decide +kernel
  have named : '\r' ∉ (className (Inset.headerAndBody endedInset).1).toList := by decide +kernel
  obtain ⟨write, whole, each⟩ := render_oneLine rendered
  rw [pieces] at whole each
  obtain ⟨html, content, feed, -, absent⟩ := each endedInset (List.mem_singleton_self _)
  cases content
  refine ⟨rendered, write, whole.trans ?_, feed, absent named (by decide +kernel)⟩
  simp [Inset.splice, Inset.pieceWritten]

/-- A reference to a carriage return in a text, and one in a value. Both are decoded and stay. -/
theorem render_keeps_return :
    render .standard .html "&&&\nx&#13;y\n&&&" = .ok "<div class=\"callout\">x\ry&#10;</div>" ∧
      render .standard .markdown "&&&\n<b title='&#xd;'>x</b>\n&&&" =
        .ok "<div class=\"callout\"><p><b title=\"\r\">x</b></p>&#10;</div>" := by
  decide +kernel

end Bindery.Callout
