import Bindery.Proofs.Text.Lines
import Bindery.Proofs.Text.Mark
import Bindery.Proofs.Text.Substitution
import Bindery.Textile.Passthrough

/-!
# Taking spans out and putting them back

Spans are taken out part by part when none of them reaches across the parts. A
stand-in begins with a character for private use, and only digits and the other
such character belong to it. So markup between stand-ins is left as it is.
-/

set_option autoImplicit false

namespace Bindery.Textile

/-- A character that no stand-in goes on with. -/
def endsStandIn (c : Char) : Bool := !Text.isDecimalDigit c && c != closer

section

variable {text after : List Char}

theorem standInDigits?_append (ends : after.head?.any endsStandIn = true) (nonempty : text ≠ []) :
    standInDigits? (text ++ after) = standInDigits? text := by
  cases text with
  | nil => exact absurd rfl nonempty
  | cons c rest =>
      cases after with
      | nil => simp at ends
      | cons d after =>
          obtain ⟨notDigit, notCloser⟩ : Text.isDecimalDigit d = false ∧ d ≠ closer := by
            simpa [endsStandIn] using ends
          -- The digits at the end of the text would go on only with a digit behind them.
          have digits : (rest ++ d :: after).takeWhile Text.isDecimalDigit =
              rest.takeWhile Text.isDecimalDigit := by
            rw [List.takeWhile_append]
            split
            · next whole =>
                rw [List.takeWhile_cons_of_neg (by simp [notDigit]), List.append_nil]
                exact ((List.takeWhile_prefix _).eq_of_length whole).symm
            · rfl
          have length := (List.takeWhile_prefix (l := rest) Text.isDecimalDigit).length_le
          rw [List.cons_append, standInDigits?, standInDigits?, digits]
          split
          · dsimp only
            rw [List.drop_append_of_le_length length]
            cases rest.drop (rest.takeWhile Text.isDecimalDigit).length with
            | nil => simp [notCloser]
            | cons e behind => rfl
          · rfl

theorem eq_append_of_standInDigits? {digits : List Char}
    (read : standInDigits? text = some digits) :
    (∀ digit ∈ digits, Text.isDecimalDigit digit = true) ∧
      ∃ behind, text = opener :: (digits ++ closer :: behind) := by
  unfold standInDigits? at read
  split at read
  · next c rest =>
      split at read
      · next first =>
          dsimp only at read
          split at read
          · next d behind found =>
              split at read
              · next last =>
                  obtain rfl := Option.some.inj read
                  obtain rfl : d = closer := by simpa using (Bool.and_eq_true_iff.mp last).1
                  refine ⟨List.all_eq_true.mp List.all_takeWhile, behind, ?_⟩
                  rw [first, ← found,
                    List.prefix_append_drop (List.takeWhile_prefix Text.isDecimalDigit) |>.symm]
              · cases read
          · cases read
      · cases read
  · cases read

variable {contents : List (List Char)}

theorem staysWithin_restoreRule (ends : after.head?.any endsStandIn = true) :
    Text.StaysWithin (restoreRule contents) text after := by
  intro here _ nonempty
  refine ⟨by rw [restoreRule, restoreRule, standInDigits?_append ends nonempty], ?_⟩
  intro use used
  obtain ⟨digits, read, rfl⟩ := Option.map_eq_some_iff.mp used
  obtain ⟨-, behind, rfl⟩ := eq_append_of_standInDigits? read
  simp only [List.length_cons, List.length_append]
  omega

theorem restore_append (ends : after.head?.any endsStandIn = true) :
    restore contents (text ++ after) = restore contents text ++ restore contents after :=
  Text.substitute_append (staysWithin_restoreRule ends)

/-- A text without stand-ins stays as it is, whatever follows. -/
theorem restore_append_of_not_mem (absent : opener ∉ text) :
    restore contents (text ++ after) = text ++ restore contents after := by
  have unused : ∀ here, here <:+ text → here ≠ [] → ∀ rest,
      restoreRule contents (here ++ rest) = none := by
    intro here suffix nonempty rest
    obtain ⟨c, tail, rfl⟩ := List.exists_cons_of_ne_nil nonempty
    have other : c ≠ opener := fun same =>
      absent (suffix.subset (same ▸ List.mem_cons_self))
    rw [restoreRule, List.cons_append, standInDigits?, if_neg other, Option.map_none]
  have alone : ∀ here, here <:+ text → here ≠ [] → restoreRule contents here = none :=
    fun here suffix nonempty => by simpa using unused here suffix nonempty []
  have within : Text.StaysWithin (restoreRule contents) text after := by
    intro here suffix nonempty
    rw [alone here suffix nonempty]
    exact ⟨unused here suffix nonempty after, nofun⟩
  rw [restore, Text.substitute_append within, Text.substitute_eq_self alone]
  rfl

/-- Markup that holds no stand-in, and that does not begin like the rest of one, is found in the
text with the spans put back. -/
theorem infix_restore {markup text : List Char} (absent : opener ∉ markup)
    (ends : markup.head?.any endsStandIn = true) (inside : markup <:+: text) :
    markup <:+: restore contents text := by
  obtain ⟨before, behind, rfl⟩ := inside
  have begins : (markup ++ behind).head?.any endsStandIn = true := by
    cases markup with
    | nil => simp at ends
    | cons c rest => exact ends
  rw [List.append_assoc, restore_append begins, restore_append_of_not_mem absent,
    ← List.append_assoc]
  exact ⟨_, _, rfl⟩

end

/-! ## Taking spans out -/

/-- Each span that begins in the text ends in it. -/
def SpansClosed (text : List Char) : Prop :=
  ∀ inside, spanOpening ++ inside <:+ text → spanClosing <:+: inside

/-- No tag that opens a span reaches from the text into what follows it. -/
def OpensWithin (text after : List Char) : Prop :=
  ∀ here, here <:+ text → here ≠ [] → spanOpening <+: here ++ after → spanOpening <+: here

section

variable {text after : List Char}

theorem opensWithin_of_split
    (unsplit : ∀ here rest, here <:+ text → here ≠ [] → rest ≠ [] → rest <+: after →
      spanOpening ≠ here ++ rest) : OpensWithin text after := by
  rintro here suffix nonempty ⟨tail, same⟩
  rcases List.append_eq_append_iff.mp same with ⟨inside, whole, -⟩ | ⟨rest, across, follows⟩
  · exact ⟨inside, whole.symm⟩
  · by_cases ended : rest = []
    · rw [ended, List.append_nil] at across
      exact ⟨[], by rw [across, List.append_nil]⟩
    · exact absurd across (unsplit here rest suffix nonempty ended ⟨tail, follows.symm⟩)

/-- The rest of a tag does not begin with an angle bracket. -/
theorem opensWithin_of_head (markup : after.head? = some '<') : OpensWithin text after := by
  refine opensWithin_of_split fun here rest _ nonempty some starts same => ?_
  obtain ⟨c, tail, rfl⟩ := List.exists_cons_of_ne_nil nonempty
  obtain ⟨d, behind, rfl⟩ := List.exists_cons_of_ne_nil some
  obtain rfl : d = '<' := by
    obtain ⟨more, rfl⟩ := starts
    exact Option.some.inj markup
  have later : '<' ∈ spanOpening.tail := by
    rw [same]
    simp
  exact absurd later (by decide)

/-- The start of a tag does not end with an angle bracket. -/
theorem opensWithin_of_last (markup : text.getLast? = some '>') : OpensWithin text after := by
  refine opensWithin_of_split fun here rest suffix nonempty some _ same => ?_
  have last : '>' ∈ here := by
    obtain ⟨front, rfl⟩ := suffix
    rw [List.getLast?_append_of_ne_nil front nonempty] at markup
    exact List.mem_of_getLast? markup
  have earlier : '>' ∈ spanOpening.dropLast := by
    rw [same, List.dropLast_append_of_ne_nil some]
    exact List.mem_append_left _ last
  exact absurd earlier (by decide)

theorem splitAt?_eq_append {mark before behind : List Char}
    (found : splitAt? mark text = some (before, behind)) : text = before ++ (mark ++ behind) := by
  induction text generalizing before with
  | nil => cases found
  | cons c rest ih =>
      rw [splitAt?] at found
      cases here : Text.dropStart? mark (c :: rest) with
      | some tail =>
          rw [here] at found
          obtain ⟨rfl, rfl⟩ := Prod.mk.inj (Option.some.inj found)
          exact (Text.dropStart?_eq_some_iff.mp here).trans (List.nil_append _).symm
      | none =>
          rw [here] at found
          obtain ⟨⟨front, back⟩, later, same⟩ := Option.map_eq_some_iff.mp found
          obtain ⟨rfl, rfl⟩ := Prod.mk.inj same
          exact congrArg (c :: ·) (ih later)

/-- The first place of a mark stays the first one when the text goes on. -/
theorem splitAt?_append {mark before behind : List Char}
    (found : splitAt? mark text = some (before, behind)) :
    splitAt? mark (text ++ after) = some (before, behind ++ after) := by
  induction text generalizing before with
  | nil => cases found
  | cons c rest ih =>
      have whole := splitAt?_eq_append found
      rw [splitAt?] at found
      rw [List.cons_append, splitAt?]
      cases here : Text.dropStart? mark (c :: rest) with
      | some tail =>
          rw [here] at found
          obtain ⟨rfl, rfl⟩ := Prod.mk.inj (Option.some.inj found)
          have longer : Text.dropStart? mark (c :: (rest ++ after)) = some (tail ++ after) := by
            rw [Text.dropStart?_eq_some_iff] at here ⊢
            rw [← List.cons_append, here, List.append_assoc]
          rw [longer]
      | none =>
          have absent : Text.dropStart? mark (c :: (rest ++ after)) = none := by
            rw [Text.dropStart?_eq_none_iff] at here ⊢
            intro starts
            have inside : mark.length ≤ (c :: rest).length := by
              rw [whole]
              simp only [List.length_append]
              omega
            exact here (List.prefix_of_prefix_length_le starts (List.prefix_append _ after) inside)
          rw [here] at found
          obtain ⟨⟨front, back⟩, later, same⟩ := Option.map_eq_some_iff.mp found
          obtain ⟨rfl, rfl⟩ := Prod.mk.inj same
          rw [absent, ih later]
          rfl

theorem splitAt?_isSome {mark : List Char} (nonempty : mark ≠ []) (inside : mark <:+: text) :
    (splitAt? mark text).isSome = true := by
  induction text with
  | nil => exact absurd (List.infix_nil.mp inside) nonempty
  | cons c rest ih =>
      rw [splitAt?]
      cases here : Text.dropStart? mark (c :: rest) with
      | some tail => rfl
      | none =>
          rw [Text.dropStart?_eq_none_iff] at here
          rw [Option.isSome_map]
          exact ih ((List.infix_cons_iff.mp inside).resolve_left here)

/-- Up to the first mark, if the mark does not begin within itself. -/
theorem splitAt?_first {c : Char} {mark : List Char} (once : c ∉ mark)
    (absent : ¬ c :: mark <:+: text) :
    splitAt? (c :: mark) (text ++ (c :: mark ++ after)) = some (text, after) := by
  induction text with
  | nil =>
      have here : Text.dropStart? (c :: mark) (c :: (mark ++ after)) = some after :=
        Text.dropStart?_eq_some_iff.mpr rfl
      rw [List.nil_append, List.cons_append, splitAt?, here]
  | cons d rest ih =>
      have none : Text.dropStart? (c :: mark) (d :: (rest ++ (c :: mark ++ after))) = none := by
        refine Text.dropStart?_eq_none_iff.mpr fun starts => ?_
        obtain ⟨rfl, later⟩ := List.cons_prefix_cons.mp starts
        exact absent (List.cons_prefix_cons.mpr
          ⟨rfl, Text.prefix_of_prefix_append_cons once later⟩).isInfix
      rw [List.cons_append, splitAt?, none, ih fun inside => absent (List.infix_cons inside)]
      rfl

theorem splitAt?_first_iff {c : Char} {mark : List Char} (once : c ∉ mark) :
    (splitAt? (c :: mark) (text ++ (c :: mark ++ after))).map Prod.fst = some text ↔
      ¬ c :: mark <:+: text := by
  refine ⟨fun found inside => ?_, fun absent => by rw [splitAt?_first once absent]; rfl⟩
  obtain ⟨⟨before, behind⟩, first⟩ :=
    Option.isSome_iff_exists.mp (splitAt?_isSome (List.cons_ne_nil c mark) inside)
  rw [splitAt?_append first] at found
  obtain rfl := Option.some.inj found
  have length := congrArg List.length (splitAt?_eq_append first)
  simp at length

theorem span?_eq_none (unopened : ¬ spanOpening <+: text) : span? text = none := by
  have none : Text.dropStart? spanOpening text = none := Text.dropStart?_eq_none_iff.mpr unopened
  simp [span?, none]

theorem span?_opened (inside : List Char) :
    span? (spanOpening ++ inside) = (splitAt? spanClosing inside).map fun (content, _) =>
      (content, spanOpening.length + content.length + spanClosing.length) := by
  have here : Text.dropStart? spanOpening (spanOpening ++ inside) = some inside :=
    Text.dropStart?_eq_some_iff.mpr rfl
  rw [span?, here, Option.bind_eq_bind, Option.bind_some]
  cases splitAt? spanClosing inside <;> rfl

theorem span?_append (opens : OpensWithin text after) (closed : SpansClosed text)
    (nonempty : text ≠ []) : span? (text ++ after) = span? text ∧
      ∀ span ∈ span? text, span.2 ≤ text.length := by
  by_cases opened : spanOpening <+: text
  · obtain ⟨inside, rfl⟩ := opened
    have closes := closed inside List.suffix_rfl
    obtain ⟨⟨content, behind⟩, found⟩ :=
      Option.isSome_iff_exists.mp (splitAt?_isSome (by decide) closes)
    have whole := congrArg List.length (splitAt?_eq_append found)
    simp only [List.length_append] at whole
    rw [List.append_assoc, span?_opened, span?_opened, found, splitAt?_append found]
    refine ⟨rfl, ?_⟩
    intro span spanned
    obtain rfl := Option.some.inj spanned
    simp only [List.length_append]
    omega
  · rw [span?_eq_none opened,
      span?_eq_none fun longer => opened (opens text List.suffix_rfl nonempty longer)]
    exact ⟨rfl, nofun⟩

theorem SpansClosed.suffix {here : List Char} (closed : SpansClosed text)
    (suffix : here <:+ text) : SpansClosed here :=
  fun later inner => closed later (inner.trans suffix)

theorem OpensWithin.suffix {here : List Char} (opens : OpensWithin text after)
    (suffix : here <:+ text) : OpensWithin here after :=
  fun later inner => opens later (inner.trans suffix)

theorem spansClosed_of_not_mem (absent : '<' ∉ text) : SpansClosed text :=
  fun _ suffix => absurd (suffix.subset List.mem_cons_self) absent

theorem liftAfter_append {taken index : Nat} (fits : taken ≤ text.length)
    (opens : OpensWithin text after) (closed : SpansClosed text) :
    liftAfter taken index (text ++ after) =
      liftAfter taken index text ++ liftAfter 0 (index + (spansAfter taken text).length) after := by
  induction text generalizing taken index with
  | nil =>
      obtain rfl : taken = 0 := Nat.le_zero.mp fits
      rfl
  | cons c rest ih =>
      have behind : rest <:+ c :: rest := List.suffix_cons c rest
      have next : ∀ {taken index : Nat}, taken ≤ rest.length →
          liftAfter taken index (rest ++ after) = liftAfter taken index rest ++
            liftAfter 0 (index + (spansAfter taken rest).length) after :=
        fun fits => ih fits (opens.suffix behind) (closed.suffix behind)
      cases taken with
      | succ taken => exact next (Nat.le_of_succ_le_succ fits)
      | zero =>
          obtain ⟨same, bounded⟩ := span?_append opens closed (List.cons_ne_nil c rest)
          rw [List.cons_append] at same
          rw [List.cons_append, liftAfter, liftAfter, spansAfter, same]
          cases found : span? (c :: rest) with
          | none => exact congrArg (c :: ·) (next (Nat.zero_le _))
          | some span =>
              have reach : span.2 - 1 ≤ rest.length := by
                have := bounded span found
                rw [List.length_cons] at this
                omega
              simp only [next reach, List.append_assoc, List.length_cons]
              congr 3
              omega

/-- A text without a tag that opens a span is left as it is. -/
theorem liftAfter_append_of_unopened {index : Nat} (opens : OpensWithin text after)
    (unopened : ¬ spanOpening <:+: text) :
    liftAfter 0 index (text ++ after) = text ++ liftAfter 0 index after := by
  induction text with
  | nil => rfl
  | cons c rest ih =>
      have none : span? (c :: (rest ++ after)) = none := span?_eq_none fun longer =>
        unopened (opens _ List.suffix_rfl (List.cons_ne_nil c rest) longer).isInfix
      rw [List.cons_append, liftAfter, none]
      exact congrArg (c :: ·) (ih (opens.suffix (List.suffix_cons c rest)) fun inside =>
        unopened (List.infix_cons inside))

end

end Bindery.Textile
