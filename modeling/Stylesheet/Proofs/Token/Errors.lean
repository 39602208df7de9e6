import Mathlib.Data.List.Forall2
import Stylesheet.Token.Nesting

/-!
# Error flags

Statements carry error flags. Tokens that differ in nothing but their flags are nested into
trees that differ in nothing but their flags. More generally, nesting respects every relation
between tokens that keeps their roles and can be carried over from contents to blocks.
-/

namespace Stylesheet

/-! ## Nesting related tokens -/

/-- A relation between tokens which nesting respects. -/
structure Token.Nests (related : Token → Token → Prop) : Prop where
  closing {first second : Token} (same : related first second) :
    first.isClosing = second.isClosing
  opening {heading : Heading} {offset : Int} {other : Token}
      (same : related (.opening heading offset) other ∨ related other (.opening heading offset)) :
    other = .opening heading offset
  block (heading : Heading) (offset : Int) {first second : List Token}
      (each : List.Forall₂ related first second) :
    related (.block heading offset first) (.block heading offset second)

theorem Token.exists_of_isClosing {token : Token} (closes : token.isClosing = true) :
    ∃ offset, token = .closing offset := by
  cases token with
  | closing offset => exact ⟨offset, rfl⟩
  | _ => cases closes

namespace Nesting

variable {related : Token → Token → Prop}

/-- Open blocks with related contents. -/
structure BlocksAlike (related : Token → Token → Prop) (first second : OpenBlock) : Prop where
  heading : first.heading = second.heading
  offset : first.offset = second.offset
  children : List.Forall₂ related first.children second.children

/-- What has been nested so far is related. -/
structure Alike (related : Token → Token → Prop) (first second : Nesting) : Prop where
  roots : List.Forall₂ related first.roots second.roots
  opened : List.Forall₂ (BlocksAlike related) first.opened second.opened

theorem BlocksAlike.append {first second : OpenBlock} (blocks : BlocksAlike related first second)
    {firstMore secondMore : List Token} (more : List.Forall₂ related firstMore secondMore) :
    BlocksAlike related (first.append firstMore) (second.append secondMore) :=
  ⟨blocks.heading, blocks.offset, List.rel_append blocks.children more⟩

theorem BlocksAlike.close (nests : Token.Nests related) {first second : OpenBlock}
    (blocks : BlocksAlike related first second) : related first.close second.close := by
  obtain ⟨heading, offset, children⟩ := blocks
  rw [OpenBlock.close, OpenBlock.close, heading, offset]
  exact nests.block _ _ children

theorem Alike.add {first second : Nesting} (alike : Alike related first second)
    {firstToken secondToken : Token} (same : related firstToken secondToken) :
    Alike related (first.add firstToken) (second.add secondToken) := by
  obtain ⟨firstRoots, firstOpened⟩ := first
  obtain ⟨secondRoots, secondOpened⟩ := second
  obtain ⟨roots, opened⟩ := alike
  cases opened with
  | nil => exact ⟨List.rel_append roots (.cons same .nil), .nil⟩
  | cons block outer => exact ⟨roots, .cons (block.append (.cons same .nil)) outer⟩

theorem Alike.finish (nests : Token.Nests related) {first second : Nesting}
    (alike : Alike related first second) : List.Forall₂ related first.finish second.finish := by
  have closed {firstInner secondInner : List Token} {firstOpened secondOpened : List OpenBlock}
      (inner : List.Forall₂ related firstInner secondInner)
      (opened : List.Forall₂ (BlocksAlike related) firstOpened secondOpened) :
      List.Forall₂ related (closeAll firstInner firstOpened)
        (closeAll secondInner secondOpened) := by
    induction opened generalizing firstInner secondInner with
    | nil => exact inner
    | cons block outer induction => exact induction (.cons ((block.append inner).close nests) .nil)
  exact List.rel_append alike.roots (closed .nil alike.opened)

/-- A token that opens and closes nothing is put where it belongs. -/
theorem forest_cons_of_content (nesting : Nesting) {token : Token} (rest : List Token)
    (noClosing : token.isClosing = false)
    (noOpening : ∀ heading offset, token ≠ .opening heading offset) :
    forest nesting (token :: rest) = forest (nesting.add token) rest := by
  cases token with
  | closing offset => cases noClosing
  | opening heading offset => exact absurd rfl (noOpening heading offset)
  | _ => rfl

/-- Nesting goes on alike from token to token. -/
theorem Alike.forest (nests : Token.Nests related) {first second : Nesting}
    (alike : Alike related first second) {firstTokens secondTokens : List Token}
    (each : List.Forall₂ related firstTokens secondTokens) :
    List.Forall₂ related (first.forest firstTokens).1 (second.forest secondTokens).1 := by
  induction each generalizing first second with
  | nil => exact alike.finish nests
  | @cons firstToken secondToken firstRest secondRest same rest induction =>
      cases isClosing : firstToken.isClosing with
      | true =>
          obtain ⟨firstRoots, firstOpened⟩ := first
          obtain ⟨secondRoots, secondOpened⟩ := second
          obtain ⟨firstOffset, rfl⟩ := Token.exists_of_isClosing isClosing
          obtain ⟨secondOffset, rfl⟩ :=
            Token.exists_of_isClosing ((nests.closing same).symm.trans isClosing)
          obtain ⟨roots, opened⟩ := alike
          cases opened with
          | nil => exact induction ⟨roots, .nil⟩
          | @cons _ _ firstOuter secondOuter block outer =>
              have around : Alike related ⟨firstRoots, firstOuter⟩ ⟨secondRoots, secondOuter⟩ :=
                ⟨roots, outer⟩
              exact induction (around.add (block.close nests))
      | false =>
          have secondStays := (nests.closing same).symm.trans isClosing
          by_cases isOpening : ∃ heading offset, firstToken = .opening heading offset
          · obtain ⟨heading, offset, rfl⟩ := isOpening
            obtain rfl := nests.opening (.inl same)
            exact induction ⟨alike.roots, .cons ⟨rfl, rfl, .nil⟩ alike.opened⟩
          · have firstContent (heading : Heading) (offset : Int) :
                firstToken ≠ .opening heading offset :=
              fun opens => isOpening ⟨heading, offset, opens⟩
            have secondContent (heading : Heading) (offset : Int) :
                secondToken ≠ .opening heading offset := by
              rintro rfl
              exact firstContent heading offset (nests.opening (.inr same))
            rw [forest_cons_of_content first _ isClosing firstContent,
              forest_cons_of_content second _ secondStays secondContent]
            exact induction (alike.add same)

end Nesting

namespace Token

theorem nest_of_forall₂ {related : Token → Token → Prop} (nests : Nests related)
    {first second : List Token} (each : List.Forall₂ related first second) :
    List.Forall₂ related (nest first) (nest second) := by
  have start : Nesting.Alike related {} {} := ⟨.nil, .nil⟩
  exact start.forest nests each

/-! ## Flags -/

mutual

/-- The token without any error flag, its own and those inside. -/
def clearErrors : Token → Token
  | code text offset _ => code text offset false
  | rule declaration offset _ => rule declaration offset false
  | opening heading offset => opening heading offset
  | block heading offset children => block heading offset (clearAllErrors children)
  | closing offset => closing offset
  | bare atRule => bare atRule

def clearAllErrors : List Token → List Token
  | [] => []
  | token :: tokens => clearErrors token :: clearAllErrors tokens

end

/-- Whether the token itself is flagged. -/
def isFlagged : Token → Bool
  | code _ _ error => error
  | rule _ _ error => error
  | _ => false

/-- One entry of a token list is flagged only if another one is. -/
def FlaggedOnlyIf (entry other : Int × Token) : Prop :=
  entry.2.isFlagged = true → other.2.isFlagged = true

/-- Tokens that differ in nothing but flags, where the second has no flag that the first
does not have. -/
structure Relieves (first second : Token) : Prop where
  cleared : second.clearErrors = first.clearErrors
  flags (depth : Int) :
    List.Forall₂ FlaggedOnlyIf (preorderOf depth second) (preorderOf depth first)

namespace Relieves

variable {first second : List Token}

theorem clearAll_eq (each : List.Forall₂ Relieves first second) :
    clearAllErrors second = clearAllErrors first := by
  induction each with
  | nil => rfl
  | cons same rest induction => rw [clearAllErrors, clearAllErrors, same.cleared, induction]

theorem preorder (each : List.Forall₂ Relieves first second) (depth : Int) :
    List.Forall₂ FlaggedOnlyIf (preorder depth second) (preorder depth first) := by
  induction each with
  | nil => exact .nil
  | cons same rest induction => exact List.rel_append (same.flags depth) induction

theorem nests : Nests Relieves where
  closing {first second} same := by
    obtain ⟨cleared, -⟩ := same
    cases first <;> cases second <;> first | rfl | cases cleared
  opening {heading offset other} same := by
    have cleared : other.clearErrors = .opening heading offset := by
      rcases same with ⟨cleared, -⟩ | ⟨cleared, -⟩
      · exact cleared
      · exact cleared.symm
    cases other with
    | opening _ _ => exact cleared
    | _ => cases cleared
  block heading offset first second each := by
    refine ⟨congrArg (block heading offset) (clearAll_eq each), fun depth => ?_⟩
    exact .cons id (preorder each (depth + 1))

end Relieves
end Token
end Stylesheet
