import Stylesheet.Proofs.Token.Outline

/-!
# Tokens in reading order

Spread out, the tokens of a list and those inside them stand in the order in which they
begin, without closings. Nesting changes nothing about this order.
-/

namespace Stylesheet
namespace Token

mutual

/-- A token and the tokens inside it as they begin one after the other. -/
def spreadOne : Token → List Token
  | block heading offset children => opening heading offset :: spread children
  | closing _ => []
  | token => [token]

def spread : List Token → List Token
  | [] => []
  | token :: tokens => spreadOne token ++ spread tokens

end

theorem spreadOne_opening (heading : Heading) (offset : Int) :
    spreadOne (opening heading offset) = [opening heading offset] := rfl

theorem spread_append (first second : List Token) :
    spread (first ++ second) = spread first ++ spread second := by
  induction first with
  | nil => rfl
  | cons token first induction =>
      rw [List.cons_append, spread, spread, induction, List.append_assoc]

mutual

theorem spread_flattenOne : (token : Token) → spread token.flattenOne = token.spreadOne
  | code .. => rfl
  | rule .. => rfl
  | opening .. => rfl
  | block heading offset children => by
      rw [flattenOne, spread, spread_append, spread_flatten children, spreadOne_opening, spreadOne]
      simp [spread, spreadOne]
  | closing _ => rfl
  | bare _ => rfl

theorem spread_flatten : (tokens : List Token) → spread (flatten tokens) = spread tokens
  | [] => rfl
  | token :: tokens => by
      rw [flatten, spread_append, spread_flattenOne token, spread_flatten tokens, spread]

theorem spreadOne_adjust (change : Heading → Heading) :
    (token : Token) → (token.adjust change).spreadOne = adjustAll change token.spreadOne
  | code .. => rfl
  | rule .. => rfl
  | opening .. => rfl
  | block heading offset children => by
      rw [adjust, spreadOne, spread_adjustAll change children, spreadOne, adjustAll, adjust]
  | closing _ => rfl
  | bare _ => rfl

theorem spread_adjustAll (change : Heading → Heading) :
    (tokens : List Token) → spread (adjustAll change tokens) = adjustAll change (spread tokens)
  | [] => rfl
  | token :: tokens => by
      rw [adjustAll, spread, spreadOne_adjust change token, spread_adjustAll change tokens, spread]
      simp only [adjustAll_eq_map, List.map_append]

end

end Token

namespace Nesting

open Token (spread spreadOne spread_append)

/-- The order of all tokens so far. -/
def spread (nesting : Nesting) : List Token :=
  Token.spread nesting.roots ++
    nesting.opened.reverse.flatMap fun block =>
      .opening block.heading block.offset :: Token.spread block.children

theorem spread_add (nesting : Nesting) (token : Token) :
    (nesting.add token).spread = nesting.spread ++ token.spreadOne := by
  obtain ⟨roots, opened⟩ := nesting
  cases opened with
  | nil => simp [add, spread, spread_append, Token.spread]
  | cons block outer => simp [add, spread, OpenBlock.append, spread_append, Token.spread]

theorem spread_finish (nesting : Nesting) : Token.spread nesting.finish = nesting.spread := by
  have closing (inner : List Token) (opened : List OpenBlock) :
      Token.spread (closeAll inner opened) =
        (opened.reverse.flatMap fun block =>
          .opening block.heading block.offset :: Token.spread block.children) ++
            Token.spread inner := by
    induction opened generalizing inner with
    | nil => rfl
    | cons block outer induction =>
        rw [closeAll, induction]
        simp [OpenBlock.close, OpenBlock.append, Token.spread, spreadOne, spread_append]
  rw [finish, spread_append, closing, spread]
  simp [Token.spread]

theorem spread_close {nesting closed : Nesting} (closes : nesting.close? = some closed) :
    closed.spread = nesting.spread := by
  obtain ⟨roots, opened⟩ := nesting
  cases opened with
  | nil => cases closes
  | cons block outer =>
      cases closes
      rw [spread_add]
      simp [spread, OpenBlock.close, spreadOne]

theorem spread_forest (nesting : Nesting) (tokens : List Token) :
    Token.spread (forest nesting tokens).1 = nesting.spread ++ Token.spread tokens := by
  induction tokens generalizing nesting with
  | nil => rw [forest, spread_finish, Token.spread, List.append_nil]
  | cons token tokens induction =>
      have added : Token.spread (forest (nesting.add token) tokens).1 =
          nesting.spread ++ Token.spread (token :: tokens) := by
        rw [induction, spread_add, Token.spread, List.append_assoc]
      cases token with
      | closing offset =>
          rw [forest, Token.spread, spreadOne, List.nil_append]
          cases closes : nesting.close? with
          | none => exact induction nesting
          | some closed =>
              dsimp only
              rw [induction, spread_close closes]
      | opening heading offset =>
          rw [forest, induction, Token.spread, Token.spreadOne_opening]
          simp [openBlock, spread, Token.spread]
      | code text offset error => exact added
      | rule declaration offset error => exact added
      | block heading offset children => exact added
      | bare atRule => exact added

end Nesting

namespace Token

/-- Nesting keeps the order of the tokens. -/
theorem spread_nest (flat : List Token) : spread (nest flat) = spread flat := by
  rw [nest, Nesting.spread_forest]
  rfl

/-! ## Departing -/

/-- Whether some tokens differ from the tokens of a tree at the first place where the
order of tokens is not the same. -/
def Departs (flat tree : List Token) : Prop :=
  ∃ common first second later others, first ≠ second ∧
    spread (outline flat) = common ++ first :: later ∧
      spread (outline tree) = common ++ second :: others

theorem departs_of_head {head token : Token} (tail : List Token)
    (headSpreads : head.spreadOne = [head]) (tokenSpreads : token.spreadOne = [token])
    (different : head.adjust withoutText ≠ token.adjust withoutText) :
    Departs (head :: tail) [token] := by
  refine ⟨[], head.adjust withoutText, token.adjust withoutText, spread (outline tail), [],
    different, ?_, ?_⟩
  · rw [outline, adjustAll, spread, spreadOne_adjust, headSpreads]
    rfl
  · rw [outline, adjustAll, spread, spreadOne_adjust, tokenSpreads]
    rfl

theorem Departs.block {heading other : Heading} {offset place : Int}
    {flat children : List Token} (same : withoutText other = withoutText heading)
    (departs : Departs flat children) :
    Departs (opening other place :: flat) [block heading offset children] := by
  obtain ⟨common, first, second, later, others, different, flatSide, treeSide⟩ := departs
  refine ⟨opening (withoutText heading) 0 :: common, first, second, later, others, different,
    ?_, ?_⟩
  · rw [outline, adjustAll, adjust, spread, spreadOne_opening, ← outline, flatSide, same]
    rfl
  · rw [outline, adjustAll, adjust, adjustAll, spread, spreadOne, ← outline, treeSide, spread,
      List.append_nil]
    rfl

theorem Departs.outline_ne {flat tree : List Token} (departs : Departs flat tree) :
    outline (nest flat) ≠ outline tree := by
  obtain ⟨common, first, second, later, others, different, flatSide, treeSide⟩ := departs
  intro same
  have spreads : spread (outline flat) = spread (outline tree) := by
    rw [← same, outline, outline, spread_adjustAll, spread_adjustAll, spread_nest]
  rw [flatSide, treeSide, List.append_cancel_left_eq] at spreads
  exact different (List.cons.inj spreads).1

theorem outline_append (first second : List Token) :
    outline (first ++ second) = outline first ++ outline second := by
  simp only [outline, adjustAll_eq_map, List.map_append]

theorem Departs.append_left {flat tree front known : List Token} (departs : Departs flat tree)
    (same : spread (outline front) = spread (outline known)) :
    Departs (front ++ flat) (known ++ tree) := by
  obtain ⟨common, first, second, later, others, different, flatSide, treeSide⟩ := departs
  refine ⟨spread (outline front) ++ common, first, second, later, others, different, ?_, ?_⟩
  · rw [outline_append, spread_append, flatSide, List.append_assoc]
  · rw [outline_append, spread_append, treeSide, ← same, List.append_assoc]

theorem Departs.append_right {flat tree : List Token} (departs : Departs flat tree)
    (more : List Token) : Departs flat (tree ++ more) := by
  obtain ⟨common, first, second, later, others, different, flatSide, treeSide⟩ := departs
  refine ⟨common, first, second, later, others ++ spread (outline more), different, flatSide, ?_⟩
  rw [outline_append, spread_append, treeSide, List.append_assoc, List.cons_append]

end Token
end Stylesheet
