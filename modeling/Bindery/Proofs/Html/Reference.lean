import Bindery.Proofs.Html.Escape
import Bindery.Proofs.Inset
import Bindery.Proofs.Text.Mark

/-!
# References in folded texts

A folded text has a reference to a line feed where the other one has the line feed. Where
references count, both are read alike: no name of a reference has a line feed or an ampersand, so
no reference reaches into a line feed or into a reference to one.
-/

set_option autoImplicit false

namespace Bindery.Html

/-! ## References to line feeds -/

/-- Some line feeds of the one text are references in the other one. -/
inductive Folds : List Char → List Char → Prop where
  | nil : Folds [] []
  | cons (c : Char) {text folded : List Char} (rest : Folds text folded) :
      Folds (c :: text) (c :: folded)
  | feed {text folded : List Char} (rest : Folds text folded) :
      Folds ('\n' :: text) ('&' :: '#' :: '1' :: '0' :: ';' :: folded)

namespace Folds

variable {text folded front rest : List Char} {c : Char}

theorem refl (text : List Char) : Folds text text := by
  induction text with
  | nil => exact .nil
  | cons c text ih => exact .cons c ih

theorem append {more moreFolded : List Char} (first : Folds text folded)
    (second : Folds more moreFolded) : Folds (text ++ more) (folded ++ moreFolded) := by
  induction first with
  | nil => exact second
  | cons c _ ih => exact .cons c ih
  | feed _ ih => exact .feed ih

/-- What is no line feed stands in both texts. -/
theorem cons_inv (folds : Folds (c :: text) folded) (other : c ≠ '\n') :
    ∃ rest, folded = c :: rest ∧ Folds text rest := by
  cases folds with
  | cons c rest => exact ⟨_, rfl, rest⟩
  | feed rest => exact absurd rfl other

/-- A front without line feeds stands in both texts. -/
theorem front_inv (folds : Folds (front ++ rest) folded) (plain : '\n' ∉ front) :
    ∃ after, folded = front ++ after ∧ Folds rest after := by
  induction front generalizing folded with
  | nil => exact ⟨folded, rfl, folds⟩
  | cons c front ih =>
      rw [List.mem_cons, not_or] at plain
      obtain ⟨others, rfl, behind⟩ := folds.cons_inv (Ne.symm plain.1)
      obtain ⟨after, rfl, last⟩ := ih behind plain.2
      exact ⟨after, rfl, last⟩

/-- A front of the folded text without ampersands stands in both texts. -/
theorem front_inv_folded {after : List Char} (folds : Folds text (front ++ after))
    (plain : '&' ∉ front) : ∃ rest, text = front ++ rest ∧ Folds rest after := by
  induction front generalizing text with
  | nil => exact ⟨text, rfl, folds⟩
  | cons c front ih =>
      rw [List.mem_cons, not_or] at plain
      generalize whole : c :: front ++ after = folded at folds
      cases folds with
      | nil => cases whole
      | cons d others =>
          obtain ⟨rfl, rfl⟩ := List.cons.inj whole
          obtain ⟨rest, rfl, last⟩ := ih others plain.2
          exact ⟨rest, rfl, last⟩
      | feed _ => exact absurd (List.cons.inj whole).1.symm plain.1

theorem eq_of_not_mem (folds : Folds text folded) (plain : '\n' ∉ text) : folded = text := by
  rw [← List.append_nil text] at folds
  obtain ⟨after, rfl, last⟩ := folds.front_inv plain
  cases last
  exact List.append_nil text

/-! ### Documents -/

theorem lineFeeds_foldLines (text : List Char) :
    Folds (lineFeeds text) (lineFeeds (Inset.foldLines text)) := by
  have feed : ∀ rest, lineFeeds ('&' :: '#' :: '1' :: '0' :: ';' :: rest) =
      '&' :: '#' :: '1' :: '0' :: ';' :: lineFeeds rest := fun rest =>
    lineFeeds_append_of_not_mem rest (show '\r' ∉ ['&', '#', '1', '0', ';'] by decide)
  unfold Inset.foldLines
  fun_induction Text.unixEndings text with
  | case1 => exact .nil
  | case2 rest ih =>
      rw [List.flatMap_cons, lineFeeds]
      exact (feed _).symm ▸ .feed ih
  | case3 c rest alone ih =>
      rw [List.flatMap_cons]
      by_cases ending : c = '\n'
      · subst ending
        exact (feed _).symm ▸ .feed ih
      · rw [if_neg ending, List.singleton_append]
        by_cases single : c = '\r'
        · subst single
          have first : rest.head? ≠ some '\n' := by
            intro first
            obtain ⟨others, rfl⟩ := List.head?_eq_some_iff.mp first
            exact alone others rfl rfl
          have folded : ((Text.unixEndings rest).flatMap fun c =>
              if c = '\n' then "&#10;".toList else [c]).head? ≠ some '\n' := fun first =>
            Inset.lineFeed_not_mem_foldLines rest (List.mem_of_mem_head? first)
          rw [lineFeeds_carriageReturn first, lineFeeds_carriageReturn folded]
          exact .cons '\n' ih
        · have plain : '\r' ∉ [c] := by simpa using Ne.symm single
          have one := lineFeeds_append_of_not_mem rest plain
          have other := lineFeeds_append_of_not_mem ((Text.unixEndings rest).flatMap fun c =>
            if c = '\n' then "&#10;".toList else [c]) plain
          rw [List.singleton_append] at one other
          rw [one, other]
          exact .cons c ih

theorem documentText_foldLines (html : String) :
    Folds (documentText html) (documentText (String.ofList (Inset.foldLines html.toList))) := by
  rw [documentText, documentText, String.toList_ofList]
  cases html.toList with
  | nil => exact .nil
  | cons c rest =>
      by_cases mark : c = '\uFEFF'
      · subst mark
        have first : (['\uFEFF'] : List Char).getLast? ≠ some '\r' := by decide
        have alone : Inset.foldLines ['\uFEFF'] = ['\uFEFF'] := by decide
        have split := @Inset.foldLines_append ['\uFEFF'] rest (.inl first)
        rw [alone, List.singleton_append, List.singleton_append] at split
        rw [split]
        exact lineFeeds_foldLines rest
      · have unmarked : ∀ {text}, text.head? ≠ some '\uFEFF' →
            withoutByteOrderMark text = text := by
          intro text other
          unfold withoutByteOrderMark
          split
          · exact absurd rfl other
          · rfl
        have folded : (Inset.foldLines (c :: rest)).head? ≠ some '\uFEFF' := by
          unfold Inset.foldLines Text.unixEndings
          split
          · simp
          · simp
          · next same =>
              obtain ⟨rfl, rfl⟩ := List.cons.inj same
              rw [List.flatMap_cons]
              split
              · simp
              · simpa using mark
        rw [unmarked (by simpa using mark), unmarked folded]
        exact lineFeeds_foldLines (c :: rest)

end Folds

/-! ## Names -/

/-- Groups of names whose sources are given by their characters. -/
inductive Spells :
    List ((Char × Char) × String) → List ((Char × Char) × List Char) → Prop where
  | nil : Spells [] []
  | cons {letters : Char × Char} {source : List Char} {groups : List ((Char × Char) × String)}
      {spelled : List ((Char × Char) × List Char)} (others : Spells groups spelled) :
      Spells ((letters, String.ofList source) :: groups) ((letters, source) :: spelled)

/-- No name of the group can reach into a line feed or a reference. -/
def isApart (group : (Char × Char) × List Char) : Bool :=
  group.1.2 != '\n' && group.1.2 != '&' && group.2.all (· != '&')

theorem Spells.all {test : (Char × Char) × List Char → Bool} {groups : List ((Char × Char) × String)}
    {spelled : List ((Char × Char) × List Char)} (spells : Spells groups spelled)
    (passed : spelled.all test = true) : ∀ group ∈ groups, test (group.1, group.2.toList) = true := by
  induction spells with
  | nil => exact List.forall_mem_nil _
  | cons others ih =>
      rw [List.all_cons, Bool.and_eq_true] at passed
      refine List.forall_mem_cons.mpr ⟨?_, ih passed.2⟩
      rw [String.toList_ofList]
      exact passed.1

set_option maxRecDepth 10000 in
theorem isApart_of_mem_entityGroups :
    ∀ group ∈ entityGroups, isApart (group.1, group.2.toList) = true := by
  apply Spells.all
  · unfold entityGroups
    repeat apply Spells.cons
    exact .nil
  · decide +kernel

theorem mem_words_of_mem_pairEntities {words : List (List Char)} {entity : List Char × List Char}
    (member : entity ∈ pairEntities words) : entity.1 ∈ words := by
  fun_induction pairEntities words with
  | case1 name codes rest ih =>
      rcases List.mem_cons.mp member with rfl | later
      · exact List.mem_cons_self
      · exact List.mem_cons_of_mem _ (List.mem_cons_of_mem _ (ih later))
  | case2 => cases member

theorem apart_of_mem_entities {group : (Char × Char) × List (List Char × List Char)}
    (member : group ∈ entities) : (group.1.2 ≠ '\n' ∧ group.1.2 ≠ '&') ∧
      ∀ entity ∈ group.2, '\n' ∉ entity.1 ∧ '&' ∉ entity.1 := by
  obtain ⟨⟨letters, source⟩, listed, rfl⟩ := List.mem_map.mp member
  have apart := isApart_of_mem_entityGroups _ listed
  simp only [isApart, Bool.and_eq_true, bne_iff_ne, List.all_eq_true] at apart
  obtain ⟨second, absent⟩ := apart
  refine ⟨second, fun entity among => ?_⟩
  have inside := Text.mem_of_mem_words (mem_words_of_mem_pairEntities among)
  constructor
  · intro blank
    exact absurd (inside _ blank).2 (by decide)
  · exact fun sign => absent _ (inside _ sign).1 rfl

theorem exists_group_of_mem_entitiesAt {text : List Char} {entity : List Char × List Char}
    (member : entity ∈ entitiesAt text) : ∃ group ∈ entities, entity ∈ group.2 := by
  unfold entitiesAt at member
  split at member
  · next first second _ =>
      cases found : entities.lookup (first, second) with
      | none =>
          rw [found] at member
          cases member
      | some names =>
          rw [found] at member
          obtain ⟨before, after, split, -⟩ := List.lookup_eq_some_iff.mp found
          exact ⟨((first, second), names), by simp [split], member⟩
  · cases member

theorem apart_of_mem_entitiesAt {text : List Char} {entity : List Char × List Char}
    (member : entity ∈ entitiesAt text) : '\n' ∉ entity.1 ∧ '&' ∉ entity.1 := by
  obtain ⟨group, listed, among⟩ := exists_group_of_mem_entitiesAt member
  exact (apart_of_mem_entities listed).2 entity among

theorem entitiesAt_eq_nil {second : Char} (other : second = '\n' ∨ second = '&') (first : Char)
    (rest : List Char) : entitiesAt (first :: second :: rest) = [] := by
  have none : entities.lookup (first, second) = none := by
    rw [List.lookup_eq_none_iff]
    intro group member
    obtain ⟨⟨feed, sign⟩, -⟩ := apart_of_mem_entities member
    have differs : (first, second) ≠ group.1 := by
      rintro same
      rw [← same] at feed sign
      exact other.elim feed sign
    simpa using differs
  rw [entitiesAt, none]
  rfl

namespace Folds

variable {text folded : List Char}

/-- Names that begin with one character are looked for among the same ones. -/
theorem entitiesAt (folds : Folds text folded) (c : Char) :
    Html.entitiesAt (c :: folded) = Html.entitiesAt (c :: text) := by
  cases folds with
  | nil => rfl
  | cons d rest => rfl
  | feed rest => rw [entitiesAt_eq_nil (.inl rfl), entitiesAt_eq_nil (.inr rfl)]

/-- The same is taken off the front of both texts. -/
def Cut (text folded rest after : List Char) : Prop :=
  ∃ taken, text = taken ++ rest ∧ folded = taken ++ after ∧ Folds rest after

namespace Cut

variable {rest after : List Char}

theorem whole (folds : Folds text folded) : Cut text folded text folded :=
  ⟨[], rfl, rfl, folds⟩

theorem trans {last later : List Char} (first : Cut text folded rest after)
    (second : Cut rest after last later) : Cut text folded last later := by
  obtain ⟨taken, rfl, rfl, -⟩ := first
  obtain ⟨more, rfl, rfl, folds⟩ := second
  exact ⟨taken ++ more, (List.append_assoc _ _ _).symm, (List.append_assoc _ _ _).symm, folds⟩

theorem folds (cut : Cut text folded rest after) : Folds rest after := by
  obtain ⟨-, -, -, folds⟩ := cut
  exact folds

theorem cons (c : Char) (folds : Folds text folded) : Cut (c :: text) (c :: folded) text folded :=
  ⟨[c], rfl, rfl, folds⟩

/-- What is taken off ends in both texts alike. -/
theorem closedBy (cut : Cut text folded rest after) :
    Html.closedBy folded after = Html.closedBy text rest := by
  obtain ⟨taken, rfl, rfl, -⟩ := cut
  simp [Html.closedBy]

end Cut

/-- A run of characters that ends before line feeds and ampersands is taken off both texts. -/
theorem cut_takeWhile (folds : Folds text folded) {test : Char → Bool} (feed : test '\n' = false)
    (sign : test '&' = false) : folded.takeWhile test = text.takeWhile test ∧
      Cut text folded (text.drop (text.takeWhile test).length)
        (folded.drop (text.takeWhile test).length) := by
  induction folds with
  | nil => exact ⟨rfl, .whole .nil⟩
  | cons c rest ih =>
      cases holds : test c with
      | true => simpa [holds, ih.1] using (Cut.cons c rest).trans ih.2
      | false => simpa [holds] using Cut.whole (Folds.cons c rest)
  | feed rest => simpa [feed, sign] using Cut.whole (Folds.feed rest)

theorem dropStart? (folds : Folds text folded) {start : List Char}
    (apart : '\n' ∉ start ∧ '&' ∉ start) :
    Option.Rel (Cut text folded) (Text.dropStart? start text) (Text.dropStart? start folded) := by
  cases found : Text.dropStart? start text with
  | some rest =>
      obtain rfl := Text.dropStart?_eq_some_iff.mp found
      obtain ⟨after, rfl, behind⟩ := folds.front_inv apart.1
      rw [Text.dropStart?_eq_some_iff.mpr rfl]
      exact .some ⟨start, rfl, rfl, behind⟩
  | none =>
      have absent : Text.dropStart? start folded = none := by
        rw [Text.dropStart?_eq_none_iff] at found ⊢
        rintro ⟨after, rfl⟩
        obtain ⟨rest, rfl, -⟩ := folds.front_inv_folded apart.2
        exact found (List.prefix_append start rest)
      rw [absent]
      exact .none

/-! ## References -/

/-- The same name is found in both texts. -/
def SameName (text folded : List Char) (found other : Found) : Prop :=
  (found.1 = other.1 ∧ found.2.1 = other.2.1 ∧ found.2.2.1 = other.2.2.1) ∧
    Cut text folded found.2.2.2 other.2.2.2

theorem longer (folds : Folds text folded) {entity : List Char × List Char}
    (apart : '\n' ∉ entity.1 ∧ '&' ∉ entity.1) {best other : Option Found}
    (same : Option.Rel (SameName text folded) best other) :
    Option.Rel (SameName text folded) (Html.longer text best entity)
      (Html.longer folded other entity) := by
  have found := folds.dropStart? apart
  unfold Html.longer
  generalize Text.dropStart? entity.1 text = one at found ⊢
  generalize Text.dropStart? entity.1 folded = two at found ⊢
  cases found with
  | none => exact same
  | some cut =>
      cases same with
      | none => exact .some ⟨⟨rfl, rfl, rfl⟩, cut⟩
      | @some best other same =>
          obtain ⟨length, value, last, rest⟩ := best
          obtain ⟨_, _, _, after⟩ := other
          obtain ⟨⟨rfl, rfl, rfl⟩, behind⟩ := same
          dsimp only
          split
          · exact .some ⟨⟨rfl, rfl, rfl⟩, cut⟩
          · exact .some ⟨⟨rfl, rfl, rfl⟩, behind⟩

theorem longestName (folds : Folds text folded) (c : Char) :
    Option.Rel (SameName (c :: text) (c :: folded)) (Html.longestName (c :: text))
      (Html.longestName (c :: folded)) := by
  have apart : ∀ entity ∈ Html.entitiesAt (c :: text), '\n' ∉ entity.1 ∧ '&' ∉ entity.1 :=
    fun entity member => apart_of_mem_entitiesAt member
  rw [longestName_eq, longestName_eq, folds.entitiesAt]
  -- The names are looked at one by one, and the best one so far stays the same.
  suffices ∀ (names : List (List Char × List Char)) (best other : Option Found),
      (∀ entity ∈ names, '\n' ∉ entity.1 ∧ '&' ∉ entity.1) →
        Option.Rel (SameName (c :: text) (c :: folded)) best other →
          Option.Rel (SameName (c :: text) (c :: folded))
            (names.foldl (Html.longer (c :: text)) best)
            (names.foldl (Html.longer (c :: folded)) other) from
    this _ none none apart .none
  intro names
  induction names with
  | nil => exact fun best other _ same => same
  | cons entity names ih =>
      intro best other apart same
      obtain ⟨first, others⟩ := List.forall_mem_cons.mp apart
      exact ih _ _ others ((Folds.cons c folds).longer first same)

/-- The same is read off the front of both texts. -/
def SameRead {α : Type} (text folded : List Char) (read other : α × List Char) : Prop :=
  read.1 = other.1 ∧ Cut text folded read.2 other.2

theorem Cut.behind {α : Type} {rest after : List Char} {read other : Option (α × List Char)}
    (cut : Cut text folded rest after) (same : Option.Rel (SameRead rest after) read other) :
    Option.Rel (SameRead text folded) read other := by
  cases same with
  | none => exact .none
  | some same => exact .some ⟨same.1, cut.trans same.2⟩

theorem skipSemicolon (folds : Folds text folded) :
    Cut text folded (Html.skipSemicolon text) (Html.skipSemicolon folded) := by
  cases folds with
  | nil => exact .whole .nil
  | cons c rest =>
      by_cases ends : c = ';'
      · subst ends
        exact .cons ';' rest
      · have kept : ∀ text, Html.skipSemicolon (c :: text) = c :: text := by
          intro text
          unfold Html.skipSemicolon
          split
          · next same => exact absurd (List.cons.inj same).1 ends
          · rfl
        rw [kept, kept]
        exact .whole (.cons c rest)
  | feed rest => exact .whole (.feed rest)

theorem readNumeral (folds : Folds text folded) (base : Nat) {digitOf : Char → Option Nat}
    (feed : (digitOf '\n').isSome = false) (sign : (digitOf '&').isSome = false) :
    Option.Rel (SameRead text folded) (Html.readNumeral base digitOf text)
      (Html.readNumeral base digitOf folded) := by
  obtain ⟨same, cut⟩ := @cut_takeWhile _ _ folds (fun c => (digitOf c).isSome) feed sign
  unfold Html.readNumeral
  rw [same]
  dsimp only
  split
  · exact .none
  · exact .some ⟨rfl, cut.trans cut.folds.skipSemicolon⟩

theorem keepsAmpersand (folds : Folds text folded) :
    Html.keepsAmpersand folded = Html.keepsAmpersand text := by
  cases folds with
  | nil => rfl
  | cons c rest => rfl
  | feed rest => rfl

/-- The reference of a text is that of the folded one. -/
theorem readReference (folds : Folds text folded) (inValue : Bool) :
    Option.Rel (SameRead text folded) (Html.readReference inValue text)
      (Html.readReference inValue folded) := by
  cases folds with
  | nil => exact .none
  | feed rest => exact .none
  | @cons c text folded rest =>
      by_cases number : c = '#'
      · subst number
        cases rest with
        | nil => exact .none
        | feed rest => exact .none
        | @cons d text folded rest =>
            by_cases hexadecimal : d = 'x' ∨ d = 'X'
            · have opened := (Cut.cons '#' (.cons d rest)).trans (.cons d rest)
              have read := opened.behind (@readNumeral _ _ rest 16 hexDigit? rfl rfl)
              rcases hexadecimal with rfl | rfl <;> exact read
            · rw [not_or] at hexadecimal
              have decimal : ∀ text, Html.readReference inValue ('#' :: d :: text) =
                  Html.readNumeral 10 digit? (d :: text) := by
                intro text
                rw [Html.readReference]
                · exact fun _ same => hexadecimal.1 (List.cons.inj same).1
                · exact fun _ same => hexadecimal.2 (List.cons.inj same).1
              rw [decimal, decimal]
              exact Cut.behind (.cons '#' (.cons d rest))
                (@readNumeral _ _ (.cons d rest) 10 digit? rfl rfl)
      · have named : ∀ text, Html.readReference inValue (c :: text) =
            if c.isAlpha then
              (Html.longestName (c :: text)).bind fun found =>
                if inValue && found.2.2.1 != ';' && Html.keepsAmpersand found.2.2.2 then none
                else some (found.2.1, found.2.2.2)
            else none := by
          intro text
          unfold Html.readReference
          split
          · next same => exact absurd (List.cons.inj same).1 number
          · next same => exact absurd (List.cons.inj same).1 number
          · next same => exact absurd (List.cons.inj same).1 number
          · next same => cases same
          · next same =>
              cases same
              cases Html.longestName (c :: text) <;> rfl
        rw [named, named]
        split
        · have found := rest.longestName c
          generalize Html.longestName (c :: text) = one at found ⊢
          generalize Html.longestName (c :: folded) = two at found ⊢
          cases found with
          | none => exact .none
          | @some found other same =>
              obtain ⟨length, value, last, behind⟩ := found
              obtain ⟨_, _, _, after⟩ := other
              obtain ⟨⟨rfl, rfl, rfl⟩, cut⟩ := same
              dsimp only [Option.bind_some]
              rw [cut.folds.keepsAmpersand]
              split
              · exact .none
              · exact .some ⟨rfl, cut⟩
        · exact .none

theorem Cut.length_le {rest after : List Char} (cut : Cut text folded rest after) :
    rest.length ≤ text.length ∧ after.length ≤ folded.length := by
  obtain ⟨taken, rfl, rfl, -⟩ := cut
  simp

/-- A folded value stands for the same as the value. -/
theorem decodeWithin (folds : Folds text folded) {bound other : Nat}
    (enough : text.length ≤ bound) (enoughFolded : folded.length ≤ other) :
    Html.decodeWithin other folded = Html.decodeWithin bound text := by
  induction h : text.length using Nat.strong_induction_on generalizing text folded bound other with
  | _ length ih =>
      subst h
      cases folds with
      | nil => cases bound <;> cases other <;> rfl
      | @cons c text folded rest =>
          rw [List.length_cons] at enough enoughFolded
          obtain ⟨bound, rfl⟩ :=
            Nat.exists_eq_add_of_le' (Nat.le_trans (Nat.le_add_left 1 _) enough)
          obtain ⟨other, rfl⟩ :=
            Nat.exists_eq_add_of_le' (Nat.le_trans (Nat.le_add_left 1 _) enoughFolded)
          have next : Html.decodeWithin other folded = Html.decodeWithin bound text :=
            ih _ (Nat.lt_succ_self _) rest (by omega) (by omega) rfl
          by_cases sign : c = '&'
          · subst sign
            have read := rest.readReference true
            rw [Html.decodeWithin, Html.decodeWithin]
            generalize Html.readReference true text = one at read ⊢
            generalize Html.readReference true folded = two at read ⊢
            cases read with
            | none => exact congrArg ('&' :: ·) next
            | @some read readFolded same =>
                obtain ⟨value, behind⟩ := read
                obtain ⟨_, after⟩ := readFolded
                obtain ⟨rfl, cut⟩ := same
                have folds : Folds behind after := cut.folds
                have shorter : behind.length ≤ text.length ∧ after.length ≤ folded.length :=
                  cut.length_le
                have later := ih behind.length (Nat.lt_succ_of_le shorter.1) folds
                  (Nat.le_trans shorter.1 (Nat.le_of_succ_le_succ enough))
                  (Nat.le_trans shorter.2 (Nat.le_of_succ_le_succ enoughFolded)) rfl
                exact congrArg (value ++ ·) later
          · rw [Html.decodeWithin, Html.decodeWithin, next]
            · exact sign
            · exact sign
      | @feed text folded rest =>
          simp only [List.length_cons] at enough enoughFolded
          obtain ⟨bound, rfl⟩ :=
            Nat.exists_eq_add_of_le' (Nat.le_trans (Nat.le_add_left 1 _) enough)
          obtain ⟨other, rfl⟩ :=
            Nat.exists_eq_add_of_le' (Nat.le_trans (Nat.le_add_left 1 _) enoughFolded)
          have next : Html.decodeWithin other folded = Html.decodeWithin bound text :=
            ih _ (Nat.lt_succ_self _) rest (by omega) (by omega) rfl
          have reference : Html.decodeWithin (other + 1) ('&' :: ("#10;".toList ++ folded)) =
              '\n' :: Html.decodeWithin other folded := by
            rw [Html.decodeWithin, readReference_lineFeed]
            rfl
          have plain : Html.decodeWithin (bound + 1) ('\n' :: text) =
              '\n' :: Html.decodeWithin bound text := by
            rw [Html.decodeWithin]
            decide
          exact reference.trans (plain ▸ congrArg ('\n' :: ·) next)

theorem decodeValue (folds : Folds text folded) :
    Html.decodeValue folded = Html.decodeValue text :=
  folds.decodeWithin (Nat.le_refl _) (Nat.le_refl _)

end Folds

end Bindery.Html
