import Bindery.Proofs.Html.Reading
import Bindery.Snippet.Highlight

/-!
# Reading plain code back

What the highlighter without colours writes is read back as the same elements. The
code in them has line feeds for its line endings and no character zero.
-/

set_option autoImplicit false

namespace Bindery.Snippet

open Html

/-! ## The document while it is read -/

def wrapper : Tag := ⟨"div", [("class", "highlight")], false⟩

def block : Tag := ⟨"pre", [], false⟩

def codeTag (attributes : List (String × String)) : Tag := ⟨"code", attributes, false⟩

def slot (tag : Tag) (parent : Nat) (children : Array Nat) : Slot :=
  ⟨.element tag.element, some parent, children, none⟩

/-- The document with these children of the body, and these nodes below. -/
def documentSlots (below : Array Nat) (nodes : Array Slot) : Array Slot :=
  #[⟨.holder, none, #[1], none⟩, slot ⟨"html", [], false⟩ 0 #[2, 3], slot ⟨"head", [], false⟩ 1 #[],
    slot ⟨"body", [], false⟩ 1 below] ++ nodes

/-- The state in the body of a document of these nodes. -/
def inBody (slots : Array Slot) (opened : List Nat) (formatting : List Formatting) : State where
  arena := ⟨slots⟩
  mode := .inBody
  returnMode := .inBody
  reading := .data
  opened := opened
  formatting := formatting
  templateModes := []
  head? := some 2
  form? := none
  framesAllowed := false
  fostering := false
  lenient := true
  skipsNewline := false
  pending := []

/-- The nodes of the document with the code read so far. -/
def codeSlots (attributes : List (String × String)) : List Char → Array Slot
  | [] =>
      documentSlots #[4] #[slot wrapper 3 #[5], slot block 4 #[6], slot (codeTag attributes) 5 #[]]
  | c :: content =>
      documentSlots #[4] #[slot wrapper 3 #[5], slot block 4 #[6],
        slot (codeTag attributes) 5 #[7], ⟨.text (String.ofList (c :: content)), some 6, #[], none⟩]

def inCode (attributes : List (String × String)) (content : List Char) : State :=
  inBody (codeSlots attributes content) [6, 5, 4, 3, 1] [.element 6 (codeTag attributes)]

/-- The state behind the code, with these elements open. -/
def behindCode (attributes : List (String × String)) (content : List Char) (opened : List Nat) :
    State :=
  inBody (codeSlots attributes content) opened []

def inWrapper : State :=
  { inBody (documentSlots #[4] #[slot wrapper 3 #[]]) [4, 3, 1] [] with framesAllowed := true }

def inBlock : State :=
  { inBody (documentSlots #[4] #[slot wrapper 3 #[5], slot block 4 #[]]) [5, 4, 3, 1] [] with
    skipsNewline := true }

theorem take_wrapper : State.start.take (.startTag wrapper) = inWrapper := rfl

theorem take_block : inWrapper.take (.startTag block) = inBlock := rfl

section

variable (attributes : List (String × String))

theorem take_codeTag : inBlock.take (.startTag (codeTag attributes)) = inCode attributes [] := rfl

theorem appendText_code (content : List Char) (c : Char) (run : List Char) :
    { inCode attributes content with
        arena := (inCode attributes content).arena.appendText 6 (String.ofList (c :: run)) } =
      inCode attributes (content ++ c :: run) := by
  cases content with
  | nil => rfl
  | cons first others =>
      have extended : (inCode attributes (first :: others)).arena.appendText 6
          (String.ofList (c :: run)) = (inCode attributes (first :: others)).arena.extendText 7
            (String.ofList (c :: run)) := rfl
      have joined : String.ofList (first :: others ++ c :: run) =
          String.ofList (first :: others) ++ String.ofList (c :: run) := String.ofList_append
      rw [List.cons_append] at joined ⊢
      rw [extended, inCode, inCode, codeSlots, codeSlots, joined]
      simp [inBody, documentSlots, Arena.extendText, Arena.change]

theorem takesText_inCode : TakesText (inCode attributes) where
  data _ := rfl
  text content c run := by
    rw [← appendText_code]
    cases content <;> rfl
  blank content c run := by
    rw [← appendText_code]
    cases content <;> rfl
  null content := by cases content <;> rfl

variable (content : List Char)

theorem take_endTag_code : (inCode attributes content).take (.endTag ⟨"code", [], false⟩) =
    behindCode attributes content [5, 4, 3, 1] := by
  cases content <;> rfl

theorem take_endTag_block :
    (behindCode attributes content [5, 4, 3, 1]).take (.endTag ⟨"pre", [], false⟩) =
      behindCode attributes content [4, 3, 1] := by
  cases content <;> rfl

theorem take_endTag_wrapper :
    (behindCode attributes content [4, 3, 1]).take (.endTag ⟨"div", [], false⟩) =
      behindCode attributes content [3, 1] := by
  cases content <;> rfl

theorem take_finish :
    (behindCode attributes content [3, 1]).take .finish = behindCode attributes content [3, 1] := by
  cases content <;> rfl

theorem find_body :
    ((behindCode attributes content [3, 1]).arena.children State.document).toList.findSome?
      ((behindCode attributes content [3, 1]).arena.find? (·.name = "body")) = some 3 := by
  cases content <;> rfl

/-- The text of the code, if there is any. -/
def codeText : List Char → List Node
  | [] => []
  | c :: content => [.text (String.ofList (c :: content))]

theorem tree?_behindCode :
    (behindCode attributes content [3, 1]).arena.tree? 3 =
      some (.element (.ofName "body" []) [.element wrapper.element
        [.element block.element [.element (codeTag attributes).element (codeText content)]]]) := by
  cases content <;> rfl

end

/-! ## Reading it -/

def codeAttributes (language : String) : List (String × String) :=
  [("class", "language-" ++ language), ("data-lang", language)]

/-- The elements around highlighted code, with other nodes in front of it. -/
def highlighted (above : List Node) (language : String) (content : List Node) : Node :=
  .element wrapper.element (above ++
    [.element block.element [.element (codeTag (codeAttributes language)).element content]])

theorem plainCode_eq (code language : String) :
    plainCode code language = highlighted [] language [.text code] := rfl

theorem toList_write_highlighted (above : List Node) (language : String) (content : List Node) :
    (Tree.write .outside (highlighted above language content)).toList =
      wrapper.element.startTag.toList ++ ((Tree.writeAll .outside above).toList ++
        (block.element.startTag.toList ++
          ((codeTag (codeAttributes language)).element.startTag.toList ++
            ((Tree.writeAll .outside content).toList ++
              ((codeTag (codeAttributes language)).element.endTag.toList ++
                (block.element.endTag.toList ++ wrapper.element.endTag.toList)))))) := by
  have alone := toList_writeAll_concat []
    (.element (codeTag (codeAttributes language)).element content)
  rw [List.nil_append] at alone
  rw [highlighted, toList_write_element rfl rfl, toList_writeAll_concat,
    toList_write_element rfl rfl, alone, toList_write_element rfl rfl]
  simp only [Tree.writeAll, List.append_assoc, String.toList_empty, List.nil_append]

theorem toList_outer_plainCode (code language : String) :
    (plainCode code language).outer.toList =
      wrapper.element.startTag.toList ++ (block.element.startTag.toList ++
        ((codeTag (codeAttributes language)).element.startTag.toList ++
          (code.toList.flatMap escapeTextChar ++
            ((codeTag (codeAttributes language)).element.endTag.toList ++
              (block.element.endTag.toList ++ wrapper.element.endTag.toList))))) := by
  have none : (Tree.writeAll .outside []).toList = [] := by simp [Tree.writeAll]
  rw [plainCode_eq, Tree.outer, toList_write_highlighted, toList_writeAll_text, none,
    List.nil_append]

theorem isPlain_wrapper : wrapper.IsPlain :=
  ⟨by decide, by decide, by decide⟩

theorem isPlain_block : block.IsPlain := ⟨by decide, nofun, List.nodup_nil⟩

theorem isPlain_codeTag (language : String) : (codeTag (codeAttributes language)).IsPlain := by
  have names : ∀ name ∈ ["class", "data-lang"], isPlainName name = true := by decide
  have distinct : ["class", "data-lang"].Nodup := by decide
  have coded : isPlainName "code" = true := by decide
  exact ⟨coded, fun item member => names _ (List.mem_map_of_mem member), distinct⟩

def keptAttributes (language : String) : List (String × String) :=
  (codeAttributes language).map keptAttribute

theorem kept_wrapper : wrapper.kept = wrapper := by decide

section

variable (language : String) (rest : List Char)

theorem reads_wrapper :
    Reads State.start (wrapper.element.startTag.toList ++ rest) inWrapper rest := by
  have read := Reads.startTag isPlain_wrapper (rfl : State.start.reading = .data) rest
  rwa [kept_wrapper, take_wrapper] at read

theorem reads_block : Reads inWrapper (block.element.startTag.toList ++ rest) inBlock rest := by
  rw [← take_block]
  exact Reads.startTag isPlain_block rfl rest

theorem reads_codeTag :
    Reads inBlock ((codeTag (codeAttributes language)).element.startTag.toList ++ rest)
      (inCode (keptAttributes language) []) rest := by
  rw [← take_codeTag]
  exact Reads.startTag (isPlain_codeTag language) rfl rest

variable (attributes : List (String × String)) (content : List Char)

theorem reads_endTag_code :
    Reads (inCode attributes content)
      ((codeTag (codeAttributes language)).element.endTag.toList ++ rest)
      (behindCode attributes content [5, 4, 3, 1]) rest := by
  rw [← take_endTag_code]
  exact Reads.endTag (isPlain_codeTag language).name rfl rest

theorem reads_endTag_block :
    Reads (behindCode attributes content [5, 4, 3, 1]) (block.element.endTag.toList ++ rest)
      (behindCode attributes content [4, 3, 1]) rest := by
  rw [← take_endTag_block]
  exact Reads.endTag isPlain_block.name rfl rest

theorem reads_endTag_wrapper :
    Reads (behindCode attributes content [4, 3, 1]) wrapper.element.endTag.toList
      (behindCode attributes content [3, 1]) [] := by
  rw [← take_endTag_wrapper, ← List.append_nil wrapper.element.endTag.toList]
  exact Reads.endTag isPlain_wrapper.name rfl []

end

theorem reads_plainCode (code language : String) :
    Reads State.start (plainCode code language).outer.toList
      (behindCode (keptAttributes language) (code.toList.filter (· ≠ '\x00')) [3, 1]) [] := by
  obtain ⟨after, ends⟩ : ∃ after, (codeTag (codeAttributes language)).element.endTag.toList ++
      (block.element.endTag.toList ++ wrapper.element.endTag.toList) = '<' :: after := by
    simp [Element.endTag]
  have text := (takesText_inCode (keptAttributes language)).reads code.toList [] after
  rw [← ends, List.nil_append] at text
  rw [toList_outer_plainCode]
  exact (reads_wrapper _).trans <| (reads_block _).trans <| (reads_codeTag language _).trans <|
    text.trans <| (reads_endTag_code language _ _ _).trans <| (reads_endTag_block _ _ _).trans <|
      reads_endTag_wrapper _ _

end Bindery.Snippet
