import Stylesheet.Tokenizer

/-!
# Outlines and flat forms

The outline of a token leaves out what rendering cannot keep: offsets, and the raw text
of headings. The flat form of a tree is nested into the tree again.
-/

namespace Stylesheet
namespace Token

/-! ## Adjusting -/

mutual

/-- The token without offsets, and with every heading changed. -/
def adjust (change : Heading → Heading) : Token → Token
  | code text _ error => code text 0 error
  | rule declaration _ error => rule declaration 0 error
  | opening heading _ => opening (change heading) 0
  | block heading _ children => block (change heading) 0 (adjustAll change children)
  | closing _ => closing 0
  | bare atRule => bare atRule

def adjustAll (change : Heading → Heading) : List Token → List Token
  | [] => []
  | token :: tokens => adjust change token :: adjustAll change tokens

end

/-- A heading without its raw text. -/
def withoutText (heading : Heading) : Heading :=
  { heading with text := [] }

/-- The tokens without offsets and without the raw text of headings. -/
def outline (tokens : List Token) : List Token :=
  adjustAll withoutText tokens

theorem adjustAll_eq_map (change : Heading → Heading) (tokens : List Token) :
    adjustAll change tokens = tokens.map (adjust change) := by
  induction tokens with
  | nil => rfl
  | cons token tokens induction => rw [adjustAll, List.map_cons, induction]

mutual

theorem clearOffsets_eq_adjust : (token : Token) → token.clearOffsets = token.adjust id
  | code .. => rfl
  | rule .. => rfl
  | opening .. => rfl
  | block heading offset children => by
      rw [clearOffsets, adjust, clearAllOffsets_eq_adjustAll children, id]
  | closing _ => rfl
  | bare _ => rfl

theorem clearAllOffsets_eq_adjustAll :
    (tokens : List Token) → clearAllOffsets tokens = adjustAll id tokens
  | [] => rfl
  | token :: tokens => by
      rw [clearAllOffsets, adjustAll, clearOffsets_eq_adjust token,
        clearAllOffsets_eq_adjustAll tokens]

theorem adjust_adjust (first second : Heading → Heading) :
    (token : Token) → (token.adjust first).adjust second = token.adjust (second ∘ first)
  | code .. => rfl
  | rule .. => rfl
  | opening .. => rfl
  | block heading offset children => by
      rw [adjust, adjust, adjust, adjustAll_adjustAll first second children, Function.comp_apply]
  | closing _ => rfl
  | bare _ => rfl

theorem adjustAll_adjustAll (first second : Heading → Heading) :
    (tokens : List Token) →
      adjustAll second (adjustAll first tokens) = adjustAll (second ∘ first) tokens
  | [] => rfl
  | token :: tokens => by
      rw [adjustAll, adjustAll, adjustAll, adjust_adjust first second token,
        adjustAll_adjustAll first second tokens]

end

/-! ## Trees -/

mutual

/-- Whether a token is complete in itself: a statement, or a block of such tokens. -/
def IsTree : Token → Prop
  | code .. => True
  | rule .. => True
  | block _ _ children => AreTrees children
  | _ => False

def AreTrees : List Token → Prop
  | [] => True
  | token :: tokens => IsTree token ∧ AreTrees tokens

end

mutual

/-- The flat form of a token, and of the tokens inside it. -/
def flattenOne : Token → List Token
  | block heading offset children =>
      opening heading offset :: (flatten children ++ [closing 0])
  | token => [token]

def flatten : List Token → List Token
  | [] => []
  | token :: tokens => flattenOne token ++ flatten tokens

end

end Token

namespace Nesting

variable {nesting : Nesting}

/-- Put finished tokens where they belong, one after the other. -/
def addAll (nesting : Nesting) (tokens : List Token) : Nesting :=
  tokens.foldl add nesting

theorem addAll_opened {block : OpenBlock} {outer : List OpenBlock} (tokens : List Token)
    (opened : nesting.opened = block :: outer) :
    nesting.addAll tokens = { nesting with opened := block.append tokens :: outer } := by
  induction tokens generalizing nesting block with
  | nil => simp [addAll, OpenBlock.append, ← opened]
  | cons token tokens induction =>
      have first : nesting.add token =
          { nesting with opened := block.append [token] :: outer } := by
        rw [add, opened]
      have stillOpened : (nesting.add token).opened = block.append [token] :: outer := by
        rw [first]
      have later := induction stillOpened
      rw [addAll, List.foldl_cons]
      rw [addAll, first] at later
      rw [first, later]
      simp [OpenBlock.append]

theorem addAll_root (roots tokens : List Token) :
    addAll ⟨roots, []⟩ tokens = ⟨roots ++ tokens, []⟩ := by
  induction tokens generalizing roots with
  | nil => simp [addAll]
  | cons token tokens induction =>
      have first : add ⟨roots, []⟩ token = ⟨roots ++ [token], []⟩ := rfl
      rw [addAll, List.foldl_cons, first]
      rw [← addAll, induction, List.append_assoc]
      rfl

mutual

theorem forest_flattenOne : (token : Token) → token.IsTree → (nesting : Nesting) →
    (rest : List Token) →
      forest nesting (token.flattenOne ++ rest) = forest (nesting.add token) rest
  | .code .., _, _, _ => rfl
  | .rule .., _, _, _ => rfl
  | .block heading offset children, trees, nesting, rest => by
      have inner := forest_flatten children trees (nesting.openBlock heading offset)
        (.closing 0 :: rest)
      have opened : (nesting.openBlock heading offset).opened =
          ⟨heading, offset, []⟩ :: nesting.opened := rfl
      have collected := addAll_opened children opened
      rw [Token.flattenOne, List.cons_append, List.append_assoc, forest, List.singleton_append,
        inner, collected, forest]
      rfl

theorem forest_flatten : (tokens : List Token) → Token.AreTrees tokens → (nesting : Nesting) →
    (rest : List Token) →
      forest nesting (Token.flatten tokens ++ rest) = forest (nesting.addAll tokens) rest
  | [], _, _, _ => rfl
  | token :: tokens, trees, nesting, rest => by
      rw [Token.flatten, List.append_assoc, forest_flattenOne token trees.1,
        forest_flatten tokens trees.2]
      rfl

end

/-! ## Adjusting what is nested -/

def adjustBlock (change : Heading → Heading) (block : OpenBlock) : OpenBlock :=
  ⟨change block.heading, 0, Token.adjustAll change block.children⟩

def adjust (change : Heading → Heading) (nesting : Nesting) : Nesting :=
  ⟨Token.adjustAll change nesting.roots, nesting.opened.map (adjustBlock change)⟩

variable (change : Heading → Heading)

theorem adjustBlock_append (block : OpenBlock) (tokens : List Token) :
    adjustBlock change (block.append tokens) =
      (adjustBlock change block).append (Token.adjustAll change tokens) := by
  simp [adjustBlock, OpenBlock.append, Token.adjustAll_eq_map]

theorem adjustBlock_close (block : OpenBlock) :
    block.close.adjust change = (adjustBlock change block).close := rfl

theorem adjust_add (nesting : Nesting) (token : Token) :
    (nesting.add token).adjust change = (nesting.adjust change).add (token.adjust change) := by
  obtain ⟨roots, opened⟩ := nesting
  cases opened with
  | nil => simp [add, adjust, Token.adjustAll_eq_map]
  | cons block outer =>
      simp only [add, adjust, List.map_cons, adjustBlock_append]
      rfl

theorem adjust_finish (nesting : Nesting) :
    Token.adjustAll change nesting.finish = (nesting.adjust change).finish := by
  have closing (inner : List Token) (opened : List OpenBlock) :
      Token.adjustAll change (closeAll inner opened) =
        closeAll (Token.adjustAll change inner) (opened.map (adjustBlock change)) := by
    induction opened generalizing inner with
    | nil => rfl
    | cons block outer induction =>
        rw [closeAll, induction, Token.adjustAll, Token.adjustAll, adjustBlock_close,
          adjustBlock_append]
        rfl
  rw [finish, finish, Token.adjustAll_eq_map, List.map_append, ← Token.adjustAll_eq_map,
    ← Token.adjustAll_eq_map, closing]
  rfl

theorem forest_adjust (nesting : Nesting) (tokens : List Token) :
    (forest (nesting.adjust change) (Token.adjustAll change tokens)).1 =
        Token.adjustAll change (forest nesting tokens).1 ∧
      (forest (nesting.adjust change) (Token.adjustAll change tokens)).2.length =
        (forest nesting tokens).2.length := by
  induction tokens generalizing nesting with
  | nil => exact ⟨(adjust_finish change nesting).symm, rfl⟩
  | cons token tokens induction =>
      cases token with
      | closing offset =>
          obtain ⟨roots, opened⟩ := nesting
          cases opened with
          | nil =>
              have inner := induction ⟨roots, []⟩
              have dropped (nesting : Nesting) (offset : Int) (rest : List Token)
                  (outside : nesting.opened = []) :
                  (forest nesting (.closing offset :: rest)).2.length =
                    rest.head?.toList.length + (forest nesting rest).2.length := by
                rw [forest, close?, outside]
                cases rest <;> simp [Nat.add_comm]
              have heads : (Token.adjustAll change tokens).head?.toList.length =
                  tokens.head?.toList.length := by
                cases tokens <;> rfl
              refine ⟨inner.1, ?_⟩
              rw [Token.adjustAll, Token.adjust, dropped _ _ _ rfl, dropped _ _ _ rfl, inner.2,
                heads]
          | cons block outer =>
              have inner := induction (add ⟨roots, outer⟩ block.close)
              rw [adjust_add, adjustBlock_close] at inner
              exact inner
      | opening heading offset => exact induction (nesting.openBlock heading offset)
      | code text offset error =>
          have inner := induction (nesting.add (.code text offset error))
          rw [adjust_add] at inner
          exact inner
      | rule declaration offset error =>
          have inner := induction (nesting.add (.rule declaration offset error))
          rw [adjust_add] at inner
          exact inner
      | block heading offset children =>
          have inner := induction (nesting.add (.block heading offset children))
          rw [adjust_add] at inner
          exact inner
      | bare atRule =>
          have inner := induction (nesting.add (.bare atRule))
          rw [adjust_add] at inner
          exact inner

end Nesting

namespace Token

/-- The flat form of a tree is nested into the tree again, and nothing is dropped. -/
theorem forest_flatten {tokens : List Token} (trees : AreTrees tokens) :
    Nesting.forest {} (flatten tokens) = (tokens, []) := by
  have whole := Nesting.forest_flatten tokens trees {} []
  have collected := Nesting.addAll_root [] tokens
  rw [List.append_nil] at whole
  rw [whole, collected, Nesting.forest]
  simp [Nesting.finish, Nesting.closeAll]

/-- Flat tokens that are those of a tree, but for what is changed, are nested into the tree,
but for what is changed. -/
theorem adjustAll_nest (change : Heading → Heading) {tokens flat : List Token}
    (trees : AreTrees tokens) (same : adjustAll change flat = adjustAll change (flatten tokens)) :
    adjustAll change (nest flat) = adjustAll change tokens ∧ (Nesting.forest {} flat).2 = [] := by
  have flatSide := Nesting.forest_adjust change {} flat
  have treeSide := Nesting.forest_adjust change {} (flatten tokens)
  rw [forest_flatten trees] at treeSide
  rw [same] at flatSide
  refine ⟨?_, ?_⟩
  · rw [nest, ← flatSide.1, treeSide.1]
  · apply List.length_eq_zero_iff.mp
    rw [← flatSide.2, treeSide.2]
    rfl

end Token
end Stylesheet
