import Mathlib.Data.List.Chain
import Stylesheet.Proofs.Rendering.Idempotence
import Stylesheet.Proofs.Token.Folding

/-!
# Flat form and tree form

A tree is written by recursion, with a longer indentation for the contents of each block. In
flat form the indentation is cut at its front by each closing instead. Both come to the same,
because an indentation is one step repeated. Only the empty line tells them apart: it stands
in front of an opening behind a closing, and in a tree no closing is left.
-/

namespace Stylesheet
namespace Token

/-- No opening stands directly behind a closing. -/
def KeepsApart (tokens : List Token) : Prop :=
  tokens.IsChain fun first second => first.isClosing = true → second.isOpening = false

theorem keepsApart_map_forgetClosing {tokens : List Token} :
    KeepsApart (tokens.map forgetClosing) ↔ KeepsApart tokens := by
  have closes (token : Token) : token.forgetClosing.isClosing = token.isClosing := by
    cases token <;> rfl
  have opens (token : Token) : token.forgetClosing.isOpening = token.isOpening := by
    cases token <;> rfl
  rw [KeepsApart, List.isChain_map]
  simp only [closes, opens]
  rfl

theorem IsComplete.children {heading : Heading} {offset : Int} {children : List Token}
    (complete : (block heading offset children).IsComplete) :
    ∀ child ∈ children, child.IsComplete := by
  intro child member depth entry inside
  apply complete (depth - 1) entry
  have within : entry ∈ preorder (depth - 1 + 1) children := by
    rw [mem_preorder, Int.sub_add_cancel]
    exact ⟨child, member, inside⟩
  exact List.mem_cons_of_mem _ within

theorem IsComplete.boundaries {token : Token} (complete : token.IsComplete) :
    token.isClosing = false ∧ token.isOpening = false := by
  have first : (0, token) ∈ preorderOf 0 token := by
    cases token <;> simp [preorderOf]
  exact complete 0 (0, token) first

end Token

namespace LayoutOptions

open Token (flatten flattenOne)

variable {options : LayoutOptions}

/-- The indentation inside so many blocks. -/
def indentation (options : LayoutOptions) (depth : Nat) : Text :=
  (List.replicate depth options.indent).flatten

theorem indentation_append (depth : Nat) :
    options.indentation depth ++ options.indent = options.indentation (depth + 1) := by
  rw [indentation, indentation, List.replicate_succ', List.flatten_append]
  simp

theorem drop_indentation (depth : Nat) :
    (options.indentation (depth + 1)).drop options.indent.length = options.indentation depth := by
  rw [indentation, indentation, List.replicate_succ, List.flatten_cons, List.drop_left]

/-- Whether no empty line is written in front of an opening, where the tokens are what is
left to write. -/
def WritesNoGap (options : LayoutOptions) (afterClosing : Bool) (tokens : List Token) : Prop :=
  options.lineBreak = [] ∨
    (afterClosing = true → ∀ token ∈ tokens.head?, token.isOpening = false) ∧
      Token.KeepsApart tokens

namespace WritesNoGap

variable {afterClosing : Bool} {token : Token} {tokens : List Token}

theorem tail (noGap : options.WritesNoGap afterClosing (token :: tokens)) :
    options.WritesNoGap token.isClosing tokens := by
  rcases noGap with noBreak | ⟨-, apart⟩
  · exact .inl noBreak
  · obtain ⟨next, apart⟩ := List.isChain_cons.mp apart
    exact .inr ⟨fun closes other member => next other member closes, apart⟩

theorem renderOpening {heading : Heading} {offset : Int}
    (noGap : options.WritesNoGap afterClosing (.opening heading offset :: tokens)) (space : Text) :
    options.renderOpening space afterClosing heading =
      options.renderOpening space false heading := by
  rw [LayoutOptions.renderOpening, LayoutOptions.renderOpening]
  rcases noGap with noBreak | ⟨ahead, -⟩
  · simp [noBreak]
  · have notBehind : afterClosing = false := by
      rw [Bool.eq_false_iff]
      intro behind
      cases ahead behind _ rfl
    rw [notBehind]

end WritesNoGap

/-- Whether a closing has just been written, where the tokens have been written in flat form. -/
def endsClosed (afterClosing : Bool) (tokens : List Token) : Bool :=
  tokens.foldl (fun _ token => token.isBlock) afterClosing

mutual

theorem renderTokens_flattenOne (depth : Nat) (afterClosing : Bool) (rest : List Token) :
    (token : Token) → token.IsComplete →
      options.WritesNoGap afterClosing (flattenOne token ++ rest) →
        options.renderTokens (options.indentation depth) afterClosing (flattenOne token ++ rest) =
            options.renderToken (options.indentation depth) false token ++
              options.renderTokens (options.indentation depth) token.isBlock rest ∧
          options.WritesNoGap token.isBlock rest
  | .code .., _, noGap => ⟨rfl, noGap.tail⟩
  | .rule .., _, noGap => ⟨rfl, noGap.tail⟩
  | .opening .., complete, _ => nomatch complete.boundaries.2
  | .closing _, complete, _ => nomatch complete.boundaries.1
  | .bare _, _, noGap => ⟨rfl, noGap.tail⟩
  | .block heading offset children, complete, noGap => by
      have whole : flattenOne (.block heading offset children) ++ rest =
          .opening heading offset :: (flatten children ++ .closing 0 :: rest) := by
        simp [flattenOne]
      rw [whole] at noGap ⊢
      obtain ⟨inner, ended⟩ := renderTokens_flatten (depth + 1) false (.closing 0 :: rest) children
        complete.children noGap.tail
      refine ⟨?_, ended.tail⟩
      rw [renderTokens, renderToken, renderToken, noGap.renderOpening]
      change _ ++ options.renderTokens (options.indentation depth ++ options.indent) false _ = _
      rw [indentation_append, inner, renderTokens, renderToken]
      simp only [spaceAfter, drop_indentation, List.append_assoc]
      rfl

theorem renderTokens_flatten (depth : Nat) (afterClosing : Bool) (rest : List Token) :
    (tokens : List Token) → (∀ token ∈ tokens, token.IsComplete) →
      options.WritesNoGap afterClosing (flatten tokens ++ rest) →
        options.renderTokens (options.indentation depth) afterClosing (flatten tokens ++ rest) =
            options.renderTokens (options.indentation depth) false tokens ++
              options.renderTokens (options.indentation depth) (endsClosed afterClosing tokens)
                rest ∧
          options.WritesNoGap (endsClosed afterClosing tokens) rest
  | [], _, noGap => ⟨rfl, noGap⟩
  | token :: tokens, complete, noGap => by
      have here := complete token List.mem_cons_self
      have same : options.spaceAfter (options.indentation depth) token =
          options.indentation depth := by
        obtain ⟨notClosing, notOpening⟩ := here.boundaries
        cases token with
        | opening heading offset => cases notOpening
        | closing offset => cases notClosing
        | _ => rfl
      rw [flatten, List.append_assoc] at noGap ⊢
      obtain ⟨first, noGap⟩ :=
        renderTokens_flattenOne depth afterClosing (flatten tokens ++ rest) token here noGap
      obtain ⟨later, noGap⟩ := renderTokens_flatten depth token.isBlock rest tokens
        (fun other member => complete other (List.mem_cons_of_mem _ member)) noGap
      refine ⟨?_, noGap⟩
      rw [first, later, renderTokens, same, here.boundaries.1, List.append_assoc]
      rfl

end

theorem renderTokens_map_forgetClosing (space : Text) (afterClosing : Bool) (tokens : List Token) :
    options.renderTokens space afterClosing (tokens.map Token.forgetClosing) =
      options.renderTokens space afterClosing tokens := by
  induction tokens generalizing space afterClosing with
  | nil => rfl
  | cons token tokens induction =>
      rw [List.map_cons, renderTokens, renderTokens, induction]
      cases token <;> rfl

/-- Well-nested tokens in flat form are written like the tree that they are folded into, if no
opening stands directly behind a closing or line breaks are empty. -/
theorem render_nest {tokens : List Token} (options : LayoutOptions)
    (noBlock : ∀ token ∈ tokens, token.isBlock = false)
    (isWellNested : Token.IsWellNested tokens)
    (noGap : options.lineBreak = [] ∨ Token.KeepsApart tokens) :
    options.render tokens = options.render (Token.nest tokens) := by
  have flat := (isWellNested.nest (Token.flatten_eq_self_iff.mpr noBlock)).2
  have complete := Token.isComplete_of_mem_nest noBlock
  have start : options.WritesNoGap false (flatten (Token.nest tokens) ++ []) := by
    rw [List.append_nil, flat]
    apply noGap.imp_right
    intro apart
    exact ⟨fun isClosing => absurd isClosing Bool.false_ne_true,
      Token.keepsApart_map_forgetClosing.mpr apart⟩
  have written := (renderTokens_flatten 0 false [] (Token.nest tokens) complete start).1
  rw [List.append_nil, flat, renderTokens_map_forgetClosing] at written
  change Text.trim (options.renderTokens (options.indentation 0) false tokens) =
    Text.trim (options.renderTokens (options.indentation 0) false (Token.nest tokens))
  rw [written, renderTokens, List.append_nil]

/-- A block with a block inside, and another block that stands behind a statement. -/
theorem render_nest_apart :
    let heading : Heading := ⟨"a".toList, some ["a".toList], none⟩
    let tokens : List Token := [.opening heading 0, .opening heading 1,
      .rule ⟨"b".toList, "c".toList, .empty⟩ 2 false, .closing 3, .closing 4,
      .code "d;".toList 5 false, .opening heading 6, .closing 7]
    (∀ token ∈ tokens, token.isBlock = false) ∧ Token.IsWellNested tokens ∧
      Token.KeepsApart tokens ∧
      render {} tokens = render {} (Token.nest tokens) := by
  intro heading tokens
  have noBlock : ∀ token ∈ tokens, token.isBlock = false := by decide
  have isWellNested : Token.IsWellNested tokens := by
    rw [Token.isWellNested_iff]
    simp [tokens, Token.staysUp_cons, Token.staysUp_nil, Token.balance_cons, Token.rise]
  have apart : Token.KeepsApart tokens := by
    simp [Token.KeepsApart, tokens, Token.isOpening, Token.isClosing]
  exact ⟨noBlock, isWellNested, apart, render_nest {} noBlock isWellNested (.inr apart)⟩

end LayoutOptions
end Stylesheet
