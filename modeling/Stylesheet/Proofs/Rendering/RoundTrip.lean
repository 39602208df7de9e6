import Stylesheet.Proofs.Rendering.Reading

/-!
# Round trip

Trees of declarations and blocks whose texts hold no marker are written as a stylesheet
that is read as the same tree, without a report, in every layout that puts nothing but
blanks between tokens.
-/

namespace Stylesheet

/-! ## Texts without markers -/

/-- Whether no marker of plain stylesheets begins anywhere in a text. -/
def Text.IsMarkerFree (text : Text) : Prop :=
  ∀ back, back <:+ text → Marker.front? false back = none

@[simp]
theorem Text.isMarkerFree_nil : IsMarkerFree [] := by
  intro back isBack
  obtain rfl := List.suffix_nil.mp isBack
  rfl

theorem Text.isMarkerFree_cons {character : Char} {rest : Text} :
    IsMarkerFree (character :: rest) ↔
      Marker.front? false (character :: rest) = none ∧ IsMarkerFree rest := by
  constructor
  · intro free
    exact ⟨free _ List.suffix_rfl, fun back isBack =>
      free back (isBack.trans (List.suffix_cons ..))⟩
  · rintro ⟨noMarker, free⟩ back isBack
    rcases List.suffix_cons_iff.mp isBack with rfl | isBack
    · exact noMarker
    · exact free back isBack

instance Text.decideMarkerFree : (text : Text) → Decidable text.IsMarkerFree
  | [] => isTrue isMarkerFree_nil
  | character :: rest =>
      have := decideMarkerFree rest
      decidable_of_iff (Marker.front? false (character :: rest) = none ∧ IsMarkerFree rest)
        isMarkerFree_cons.symm

/-- A text without markers and without blanks around it. -/
def Text.IsPlain (text : Text) : Prop :=
  text.trim = text ∧ text.IsMarkerFree
  deriving Decidable

/-! ## Writable tokens -/

/-- A declaration with plain texts. No flag can be taken from the value, and all modifiers
are flags that are taken by default. -/
structure Declaration.IsWritable (declaration : Declaration) : Prop where
  key : declaration.key.IsPlain ∧ declaration.key ≠ [] ∧ ':' ∉ declaration.key
  value : declaration.value.IsPlain ∧ declaration.value ≠ [] ∧ ':' ∉ declaration.value
  noFlag : Flagged.ofValue defaultModifiers declaration.value = ⟨declaration.value, .empty⟩
  known : ∀ name ∈ declaration.modifiers.names, name ∈ defaultModifiers

instance (declaration : Declaration) : Decidable declaration.IsWritable :=
  decidable_of_iff (_ ∧ _ ∧ _ ∧ _)
    ⟨fun ⟨key, value, noFlag, known⟩ => ⟨key, value, noFlag, known⟩,
      fun writable => ⟨writable.key, writable.value, writable.noFlag, writable.known⟩⟩

/-- Selectors with plain texts, none of which is empty or holds a comma. The first is no
at-rule. -/
def Heading.AreWritable (selectors : List Text) : Prop :=
  selectors ≠ [] ∧ (∀ selector ∈ selectors, selector.IsPlain ∧ selector ≠ [] ∧ ',' ∉ selector) ∧
    selectors.head?.bind List.head? ≠ some '@'
  deriving Decidable

/-- An at-rule with plain texts, whose name is one word and whose values hold no comma. No
value but the first is empty. -/
def AtRule.IsWritable (atRule : AtRule) : Prop :=
  atRule.name.IsPlain ∧
    (∀ character ∈ atRule.name, Text.isBlank character = false ∧ character ≠ ',') ∧
    atRule.values ≠ [] ∧ (∀ value ∈ atRule.values, value.IsPlain ∧ ',' ∉ value) ∧
    ∀ value ∈ atRule.values.tail, value ≠ []
  deriving Decidable

/-- A heading that was recognised as selectors or as an at-rule with plain texts. -/
def Heading.IsWritable : Heading → Prop
  | ⟨_, some selectors, none⟩ => AreWritable selectors
  | ⟨_, none, some atRule⟩ => atRule.IsWritable
  | _ => False

instance Heading.decideWritable : (heading : Heading) → Decidable heading.IsWritable
  | ⟨_, some selectors, none⟩ => inferInstanceAs (Decidable (AreWritable selectors))
  | ⟨_, none, some atRule⟩ => inferInstanceAs (Decidable atRule.IsWritable)
  | ⟨_, none, none⟩ => isFalse nofun
  | ⟨_, some _, some _⟩ => isFalse nofun

namespace Token

mutual

/-- A declaration or a block with plain texts, all the way down. -/
def IsWritable : Token → Prop
  | rule declaration _ error => error = false ∧ declaration.IsWritable
  | block heading _ children => heading.IsWritable ∧ AreWritable children
  | _ => False

def AreWritable : List Token → Prop
  | [] => True
  | token :: tokens => IsWritable token ∧ AreWritable tokens

end

mutual

instance decideWritable : (token : Token) → Decidable token.IsWritable
  | rule declaration _ error =>
      inferInstanceAs (Decidable (error = false ∧ declaration.IsWritable))
  | block heading _ children =>
      have := decideAllWritable children
      inferInstanceAs (Decidable (heading.IsWritable ∧ AreWritable children))
  | code .. => isFalse nofun
  | opening .. => isFalse nofun
  | closing .. => isFalse nofun
  | bare .. => isFalse nofun

instance decideAllWritable : (tokens : List Token) → Decidable (AreWritable tokens)
  | [] => isTrue trivial
  | token :: tokens =>
      have := decideWritable token
      have := decideAllWritable tokens
      inferInstanceAs (Decidable (token.IsWritable ∧ AreWritable tokens))

end

end Token

/-! ## Writable tokens are legible -/

theorem lexed_of_isMarkerFree {text : Text} (free : text.IsMarkerFree) :
    Lexed text (text.map .text) false := by
  induction text with
  | nil => exact .nil
  | cons character rest induction =>
      obtain ⟨noMarker, free⟩ := Text.isMarkerFree_cons.mp free
      exact .plain noMarker (induction free)

theorem not_endsOpen_of_isMarkerFree {text : Text} (free : text.IsMarkerFree) :
    text.endsOpen = false :=
  (lexed_of_isMarkerFree free).isOpen_eq.symm

theorem Declaration.IsWritable.isLegible {declaration : Declaration}
    (writable : declaration.IsWritable) : declaration.IsLegible where
  key := by
    obtain ⟨⟨-, free⟩, -, noColon⟩ := writable.key
    refine ⟨_, false, lexed_of_isMarkerFree free, ?_⟩
    intro glyph member
    obtain ⟨character, inKey, rfl⟩ := List.mem_map.mp member
    exact ⟨character, rfl, fun same => noColon (same ▸ inKey)⟩
  value := by
    obtain ⟨⟨-, free⟩, -, noColon⟩ := writable.value
    exact ⟨_, false, lexed_of_isMarkerFree free, isContent_map_text _, by simpa using noColon⟩
  keyTrimmed := writable.key.1.1
  keyNotEmpty := writable.key.2.1
  valueTrimmed := writable.value.1.1
  valueNotEmpty := writable.value.2.1
  known := by
    intro name contained
    exact writable.known name (List.contains_iff_mem.mp contained)
  noFlag := by
    intro name isName _
    have taken := Flagged.next?_ofValue declaration.value
    rw [writable.noFlag] at taken
    rcases taken with empty | noNext
    · exact absurd empty writable.value.2.1
    · exact Flagged.next?_eq_none_iff.mp noNext name isName (NameSet.contains_empty name)

theorem Text.IsPlain.isPiece {text : Text} (plain : text.IsPlain) (noComma : ',' ∉ text) :
    text.IsPiece False :=
  ⟨_, false, lexed_of_isMarkerFree plain.2, isContent_map_text _, by simpa using noComma, nofun⟩

theorem Text.IsPlain.isSelector {text : Text} (plain : text.IsPlain) (notEmpty : text ≠ [])
    (noComma : ',' ∉ text) : text.IsSelector False where
  piece := plain.isPiece noComma
  trimmed := plain.1
  notEmpty := notEmpty

theorem leads_at : Leads ['@'] [.text '@'] :=
  Leads.cons (fun _ => Marker.front?_eq_none_of_first (by decide)) Leads.nil

theorem AtRule.IsWritable.isLegible {atRule : AtRule} (writable : atRule.IsWritable)
    (text : Text) : Heading.IsLegible False ⟨text, none, some atRule⟩ := by
  obtain ⟨name, values⟩ := atRule
  obtain ⟨isName, oneWord, notEmpty, isValue, others_⟩ := writable
  cases values with
  | nil => exact absurd rfl notEmpty
  | cons value others =>
      obtain ⟨valuePlain, valueNoComma⟩ := isValue value List.mem_cons_self
      have nameLexed := leads_at.lexed_append (lexed_of_isMarkerFree isName.2)
      have space := Leads.separator nameLexed (by decide : ' ' ∈ Leads.separators)
      have valueLexed := space.lexed_append (lexed_of_isMarkerFree valuePlain.2)
      have noComma : ',' ∉ name := fun member => (oneWord ',' member).2 rfl
      refine .atRule text (fun character member => (oneWord character member).1) ?_ ?_
        valuePlain.1 ?_
      · intro _
        exact ⟨_, false, nameLexed, isContent_map_text ('@' :: name), by simpa using noComma, nofun⟩
      · refine ⟨_, false, ?_, isContent_map_text ('@' :: name ++ ' ' :: value), ?_, nofun⟩
        · simpa using valueLexed
        · simpa using And.intro noComma valueNoComma
      · intro other member
        obtain ⟨otherPlain, otherNoComma⟩ := isValue other (List.mem_cons_of_mem _ member)
        exact otherPlain.isSelector (others_ other member) otherNoComma

theorem Heading.IsWritable.isLegible {heading : Heading} (writable : heading.IsWritable) :
    heading.IsLegible False := by
  obtain ⟨text, selectors, atRule⟩ := heading
  cases selectors with
  | none =>
      cases atRule with
      | none => exact absurd writable id
      | some atRule => exact AtRule.IsWritable.isLegible writable text
  | some selectors =>
      cases atRule with
      | some atRule => exact absurd writable id
      | none =>
          obtain ⟨notEmpty, each, noAt⟩ := writable
          cases selectors with
          | nil => exact absurd rfl notEmpty
          | cons first others =>
              refine .selectors text (fun selector member => ?_) noAt
              obtain ⟨plain, notEmpty, noComma⟩ := each selector member
              exact plain.isSelector notEmpty noComma

namespace Token

mutual

theorem IsWritable.isLegible : {token : Token} → token.IsWritable →
    token.IsLegible False ∧ ∀ isLast, token.leavesOpen isLast = false
  | .rule declaration _ error, writable => by
      refine ⟨⟨writable.1, writable.2.isLegible⟩, fun _ => ?_⟩
      have closed := not_endsOpen_of_isMarkerFree writable.2.value.1.2
      rw [leavesOpen, Declaration.leavesOpen, closed, Bool.and_false]
  | .block heading _ children, writable => by
      obtain ⟨legible, closed⟩ := AreWritable.areLegible writable.2
      exact ⟨⟨writable.1.isLegible, legible⟩, fun _ => closed⟩

theorem AreWritable.areLegible : {tokens : List Token} → AreWritable tokens →
    AreLegible False tokens ∧ anyLeavesOpen tokens = false
  | [], _ => ⟨trivial, rfl⟩
  | token :: tokens, writable => by
      obtain ⟨first, firstClosed⟩ := IsWritable.isLegible writable.1
      obtain ⟨later, laterClosed⟩ := AreWritable.areLegible writable.2
      refine ⟨⟨Or.inl first, later⟩, ?_⟩
      rw [anyLeavesOpen, firstClosed, laterClosed]
      rfl

end

end Token

/-! ## Round trip -/

/-- What is written of writable tokens is read as the same tokens, but for offsets and the
raw text of headings, and nothing is reported. -/
theorem outline_tree_render_of_areWritable {options : LayoutOptions} (plain : options.IsPlain)
    {tokens : List Token} (writable : Token.AreWritable tokens) :
    Token.outline (TokenizeOptions.strict.tree (options.render tokens)).tokens =
        Token.outline tokens ∧
      (TokenizeOptions.strict.tree (options.render tokens)).diagnostics = [] := by
  obtain ⟨legible, closed⟩ := Token.AreWritable.areLegible writable
  exact outline_tree_render plain False.elim legible closed

theorem outline_tree_render_nested :
    let tokens : List Token :=
      [.block ⟨[], none, some ⟨"media".toList, ["screen".toList, "print".toList]⟩⟩ 7
        [.block ⟨[], some ["a:hover".toList, "b > c".toList], none⟩ 3
          [.rule ⟨"color".toList, "Red".toList, .ofList ["important".toList]⟩ 0 false]],
       .rule ⟨"x".toList, "1px + 2px".toList, .empty⟩ 1 false]
    let options : LayoutOptions := { minify := true }
    options.IsPlain ∧ Token.AreWritable tokens ∧
      Token.outline (TokenizeOptions.strict.tree (options.render tokens)).tokens =
          Token.outline tokens ∧
        (TokenizeOptions.strict.tree (options.render tokens)).diagnostics = [] :=
  have plain : LayoutOptions.IsPlain { minify := true } := ⟨by decide, by decide, rfl⟩
  ⟨plain, by decide, outline_tree_render_of_areWritable plain (by decide)⟩

end Stylesheet
