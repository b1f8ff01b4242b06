import Bindery.Proofs.Html.Insertion
import Bindery.Snippet.Engine
import Bindery.Textile.Passthrough

/-!
# Captions

The name of the file of a snippet goes into the first element of the class `highlight`, and
without such an element into the first element of the body. What is inside a void element is
written without tags, so a caption there is only text.
-/

set_option autoImplicit false

namespace Bindery.Snippet

open Html

/-! ## Where a caption goes -/

/-- The element that a caption is put into. -/
inductive TakesCaption (body : Node) : Place → Element → Prop
  | marked {place : Place} {label : Element} :
      Tree.IsFirst (·.hasClass "highlight") body place label → TakesCaption body place label
  | unmarked {index : Nat} {label : Element} :
      (∀ other ∈ body.labels, other.hasClass "highlight" = false) →
      body.labelAt? [index] = some label →
      (∀ earlier < index, body.labelAt? [earlier] = none) → TakesCaption body [index] label

theorem prependInFirst_eq (child : Node) {nodes : List Node}
    (holds : nodes.any Tree.isElement = true) :
    ∃ before label children after, nodes = before ++ .element label children :: after ∧
      (∀ node ∈ before, node.isElement = false) ∧
      prependInFirst child nodes = before ++ .element label (child :: children) :: after := by
  induction nodes with
  | nil => cases holds
  | cons node nodes ih =>
      cases node with
      | element label children => exact ⟨[], label, children, nodes, rfl, nofun, rfl⟩
      | text content =>
          obtain ⟨before, label, children, after, rfl, plain, put⟩ := ih holds
          refine ⟨.text content :: before, label, children, after, rfl, ?_, ?_⟩
          · exact List.forall_mem_cons.mpr ⟨rfl, plain⟩
          · exact congrArg (Tree.text content :: ·) put
      | comment content =>
          obtain ⟨before, label, children, after, rfl, plain, put⟩ := ih holds
          refine ⟨.comment content :: before, label, children, after, rfl, ?_, ?_⟩
          · exact List.forall_mem_cons.mpr ⟨rfl, plain⟩
          · exact congrArg (Tree.comment content :: ·) put

/-- A caption becomes the first child of the element that takes it, and nothing else changes. -/
theorem addCaption_eq (file : List Char) {body : Node}
    (holds : body.children.any Tree.isElement = true) :
    ∃ place label children, TakesCaption body place label ∧
      body.at? place = some (.element label children) ∧
      addCaption file body = body.withChildren (caption file :: children) place := by
  unfold addCaption
  split
  · next changed prepended =>
      obtain ⟨place, label, children, first, stands, rfl⟩ := Tree.prependIn?_eq_some prepended
      exact ⟨place, label, children, .marked first, stands, rfl⟩
  · next missed =>
      cases body with
      | element own nodes =>
          obtain ⟨before, label, children, after, rfl, plain, put⟩ :=
            prependInFirst_eq (caption file) holds
          have selected : (before ++ .element label children :: after)[before.length]? =
              some (.element label children) := by simp
          have inside :
              before.length < (before ++ Tree.element label children :: after).length := by simp
          refine ⟨[before.length], label, children,
            .unmarked (Tree.prependIn?_eq_none missed) ?_ ?_, ?_, ?_⟩
          · rw [Tree.labelAt?_cons, Tree.children, selected]
            rfl
          · intro earlier smaller
            rw [Tree.labelAt?_cons, Tree.children, List.getElem?_append_left smaller,
              List.getElem?_eq_getElem smaller]
            exact Option.not_isSome_iff_eq_none.mp
              (Bool.eq_false_iff.mp (plain _ (List.getElem_mem smaller)))
          · rw [Tree.at?_cons, Tree.children, selected]
            rfl
          · rw [Tree.withChildren, List.modify_eq_take_cons_drop inside]
            rw [Tree.children] at put
            simpa [Tree.withChildren] using put
      | text content => cases holds
      | comment content => cases holds

/-! ## What a caption is written as -/

def captionTag : Element := .ofName "span" [("class", "filename")]

def captionText (file : List Char) : String := escapeText ("./code/" ++ String.ofList file)

def captionMarkup (file : List Char) : String :=
  captionTag.startTag ++ captionText file ++ captionTag.endTag

theorem startTag_captionTag : captionTag.startTag = "<span class=\"filename\">" := by decide

theorem endTag_captionTag : captionTag.endTag = "</span>" := by decide

/-- Inside a void element a caption has no tags. -/
theorem write_caption (file : List Char) (around : Surroundings) :
    (caption file).write around = if around.void then captionText file else captionMarkup file := by
  have plain : captionTag.isVerbatim = false := by decide
  have paired : captionTag.isVoid = false := by decide
  have same : caption file =
      .element captionTag [.text ("./code/" ++ String.ofList file)] := rfl
  rw [same, Tree.write]
  simp only [plain, paired, Tree.writeAll, Tree.write, String.append_empty,
    Bool.false_eq_true, if_false]
  rfl

/-! ## Snippets -/

/-- HTML as a part of a chapter: on one line, and passed through where Textile follows. -/
def embedded (format : Format) (html : String) : List Char :=
  let line := Inset.foldLines html.toList
  match format with
  | .textile => Textile.spanOpening ++ line ++ Textile.spanClosing
  | _ => line

theorem count_foldLines (html : List Char) : (Inset.foldLines html).count '<' = html.count '<' := by
  rw [Inset.foldLines]
  fun_induction Text.unixEndings html with
  | case1 => rfl
  | case2 rest ih => simpa using ih
  | case3 c rest _ ih =>
      rw [List.flatMap_cons, List.count_append, ih]
      by_cases feed : c = '\n'
      · subst feed
        simp
      · rw [if_neg feed, ← List.count_append, List.singleton_append]

theorem embedded_ne {left right : String}
    (fewer : left.toList.count '<' < right.toList.count '<') (format : Format) :
    embedded format left ≠ embedded format right := by
  intro same
  have lines : Inset.foldLines left.toList = Inset.foldLines right.toList := by
    cases format with
    | textile => exact List.append_cancel_left (List.append_cancel_right same)
    | markdown => exact same
    | html => exact same
  have counts := congrArg (List.count '<') lines
  rw [count_foldLines, count_foldLines] at counts
  exact Nat.ne_of_lt fewer counts

namespace Engine

/-- What the highlighter turns a snippet into. -/
def highlighted (engine : Engine) (plain : Bool) (inset : List Char) : String :=
  let directive := Directive.parse (Inset.headerAndBody inset).1
  engine.highlighter
    (String.ofList (engine.shownCode directive (Inset.headerAndBody inset).2))
    (language plain directive)

theorem renderSnippet_eq_embedded (engine : Engine) (format : Format) (plain : Bool)
    (inset : List Char) :
    engine.renderSnippet format plain inset = embedded format (finish
      (engine.highlighted plain inset) (Directive.parse (Inset.headerAndBody inset).1).file) := by
  cases format <;> rfl

/-- A snippet without a file is the body of what its highlighter wrote. For a file, the caption is
put between the start tag of one element and what that element holds, and the rest stays. The
caption is an element exactly if there are tags down to there, and else only its text. -/
theorem renderSnippet_caption_iff (engine : Engine) (format : Format) (plain : Bool)
    {inset : List Char} {body : Node}
    (parsed : parseBody? (engine.highlighted plain inset) = some body)
    (holds : body.children.any Tree.isElement = true) :
    let directive := Directive.parse (Inset.headerAndBody inset).1
    (directive.file = none →
      engine.renderSnippet format plain inset = embedded format body.inner) ∧
    ∀ file, directive.file = some file → ∃ place label front content back,
      TakesCaption body place label ∧
      body.inner = front ++ content ++ back ∧
      (Tree.TagsShown body place →
        (place = [] ∧ front = "" ∧ back = "") ∨
        ((∃ before, front = before ++ label.startTag) ∧ ∃ after, back = label.endTag ++ after)) ∧
      (engine.renderSnippet format plain inset =
          embedded format (front ++ captionMarkup file ++ content ++ back) ↔
        Tree.TagsShown body place) ∧
      (engine.renderSnippet format plain inset =
          embedded format (front ++ captionText file ++ content ++ back) ↔
        ¬ Tree.TagsShown body place) := by
  intro directive
  have finished : ∀ file?, finish (engine.highlighted plain inset) file? =
      (file?.elim body (addCaption · body)).inner := by
    intro file?
    cases file? <;> simp only [finish, parsed, Option.elim]
  refine ⟨fun unnamed => ?_, fun file named => ?_⟩
  · rw [renderSnippet_eq_embedded, finished, unnamed, Option.elim]
  obtain ⟨place, label, children, takes, stands, added⟩ := addCaption_eq file holds
  obtain ⟨inside, front, back, shown, frames⟩ := Tree.exists_framesInside stands
  have whole : body.inner = front ++ Tree.writeAll inside children ++ back := by
    rw [← frames.written, Tree.withChildren_self stands]
  have output : engine.renderSnippet format plain inset = embedded format
      (front ++ (if inside.void then captionText file else captionMarkup file) ++
        Tree.writeAll inside children ++ back) := by
    rw [renderSnippet_eq_embedded, finished, named, Option.elim, added, frames.written,
      Tree.writeAll, write_caption]
    simp only [String.append_assoc]
  have different : embedded format (front ++ captionText file ++ Tree.writeAll inside children ++
      back) ≠ embedded format (front ++ captionMarkup file ++ Tree.writeAll inside children ++
        back) := by
    refine embedded_ne ?_ format
    rw [captionMarkup]
    simp only [String.toList_append, List.count_append, startTag_captionTag, endTag_captionTag]
    have tags : 0 < "<span class=\"filename\">".toList.count '<' := by decide
    omega
  refine ⟨place, label, front, _, back, takes, whole, fun tags => ?_, ?_⟩
  · have tagged := shown.mpr tags
    by_cases top : place = []
    · exact .inl ⟨top, frames.whole top⟩
    · exact .inr ⟨frames.opens top tagged, frames.ends top tagged⟩
  · rw [← shown]
    cases hidden : inside.void with
    | true =>
        rw [hidden, if_pos rfl] at output
        rw [output]
        exact ⟨iff_of_false different Bool.noConfusion, iff_of_true rfl Bool.noConfusion⟩
    | false =>
        rw [hidden, if_neg Bool.noConfusion] at output
        rw [output]
        exact ⟨iff_of_true rfl rfl, iff_of_false different.symm (not_not_intro rfl)⟩

/-- Code below an element of the class `highlight` that is not the first. -/
def framedEngine : Engine :=
  ⟨"code", fun _ => .ok "x", fun code _ =>
    "<p>a</p><div><pre class=\"c highlight\">" ++ code ++ "</pre></div>"⟩

def framedBody : Node :=
  .element (.ofName "body" []) [
    .element (.ofName "p" []) [.text "a"],
    .element (.ofName "div" []) [.element (.ofName "pre" [("class", "c highlight")]) [.text "x"]]]

theorem renderSnippet_caption_framed :
    parseBody? (framedEngine.highlighted false "ruby a.rb".toList) = some framedBody ∧
      framedBody.children.any Tree.isElement = true ∧
      ∃ place label front content back, TakesCaption framedBody place label ∧
        framedBody.inner = front ++ content ++ back ∧
        (framedEngine.renderSnippet .markdown false "ruby a.rb".toList =
            embedded .markdown (front ++ captionMarkup "a.rb".toList ++ content ++ back) ↔
          Tree.TagsShown framedBody place) := by
  have parsed : parseBody? (framedEngine.highlighted false "ruby a.rb".toList) =
      some framedBody := by decide +kernel
  have holds : framedBody.children.any Tree.isElement = true := by decide
  have named : (Directive.parse (Inset.headerAndBody "ruby a.rb".toList).1).file =
      some "a.rb".toList := by decide +kernel
  obtain ⟨-, captioned⟩ := renderSnippet_caption_iff framedEngine .markdown false parsed holds
  obtain ⟨place, label, front, content, back, takes, whole, -, shown, -⟩ := captioned _ named
  exact ⟨parsed, holds, place, label, front, content, back, takes, whole, shown⟩

/-- Code below a rule. -/
def ruledEngine : Engine :=
  ⟨"code", fun _ => .ok "x", fun code _ => "<hr><pre>" ++ code ++ "</pre>"⟩

def ruledBody : Node :=
  .element (.ofName "body" []) [
    .element (.ofName "hr" []) [], .element (.ofName "pre" []) [.text "x"]]

/-- A rule takes the caption, but it has no end tag, so the caption loses its tags. -/
theorem renderSnippet_caption_ruled :
    parseBody? (ruledEngine.highlighted false "ruby a.rb".toList) = some ruledBody ∧
      TakesCaption ruledBody [0] (.ofName "hr" []) ∧
      ruledBody.inner = "<hr><pre>x</pre>" ∧
      ruledEngine.renderSnippet .markdown false "ruby a.rb".toList =
        "<hr>./code/a.rb<pre>x</pre>".toList ∧
      ruledEngine.renderSnippet .markdown false "ruby a.rb".toList ≠
        embedded .markdown ("<hr>" ++ captionMarkup "a.rb".toList ++ "<pre>x</pre>") := by
  refine ⟨by decide +kernel, .unmarked (by decide) rfl nofun, by decide +kernel,
    by decide +kernel, by decide +kernel⟩

end Engine

end Bindery.Snippet
