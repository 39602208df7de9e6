import Stylesheet.Proofs.Rendering.Origin
import Stylesheet.Proofs.Rendering.Reading

/-!
# Writing what has been read

Writing the tokens of a source and reading them again changes nothing about their structure
if and only if no text takes along the semicolon that is written behind it. The tokens must
be those of a source without comments: taking comments out may bring characters together
that make up a comment or a url themselves.
-/

namespace Stylesheet

/-! ## Offsets do not matter -/

namespace LayoutOptions

variable (options : LayoutOptions)

mutual

theorem renderToken_clearOffsets (space : Text) (afterClosing : Bool) : (token : Token) →
    options.renderToken space afterClosing token.clearOffsets =
      options.renderToken space afterClosing token
  | .code .. => rfl
  | .rule .. => rfl
  | .opening .. => rfl
  | .block heading offset children => by
      rw [Token.clearOffsets, renderToken, renderToken,
        renderTokens_clearAllOffsets (space ++ options.indent) false children]
  | .closing _ => rfl
  | .bare _ => rfl

theorem renderTokens_clearAllOffsets (space : Text) (afterClosing : Bool) :
    (tokens : List Token) →
      options.renderTokens space afterClosing (Token.clearAllOffsets tokens) =
        options.renderTokens space afterClosing tokens
  | [] => rfl
  | token :: tokens => by
      have spaces : options.spaceAfter space token.clearOffsets =
          options.spaceAfter space token := by cases token <;> rfl
      have closes : token.clearOffsets.isClosing = token.isClosing := by cases token <;> rfl
      rw [Token.clearAllOffsets, renderTokens, renderTokens, spaces, closes,
        renderToken_clearOffsets space afterClosing token,
        renderTokens_clearAllOffsets _ _ tokens]

end

theorem render_clearAllOffsets (tokens : List Token) :
    options.render (Token.clearAllOffsets tokens) = options.render tokens := by
  rw [render, render, renderTokens_clearAllOffsets]

end LayoutOptions

namespace Token

mutual

theorem leavesOpen_clearOffsets (isLast : Bool) : (token : Token) →
    token.clearOffsets.leavesOpen isLast = token.leavesOpen isLast
  | code .. => rfl
  | rule .. => rfl
  | opening .. => rfl
  | block _ _ children => anyLeavesOpen_clearAllOffsets children
  | closing _ => rfl
  | bare _ => rfl

theorem anyLeavesOpen_clearAllOffsets : (tokens : List Token) →
    anyLeavesOpen (clearAllOffsets tokens) = anyLeavesOpen tokens
  | [] => rfl
  | token :: tokens => by
      have last : (clearAllOffsets tokens).isEmpty = tokens.isEmpty := by cases tokens <;> rfl
      rw [clearAllOffsets, anyLeavesOpen, anyLeavesOpen, last, leavesOpen_clearOffsets _ token,
        anyLeavesOpen_clearAllOffsets tokens]

theorem namesUrl_clearOffsets : (token : Token) → token.clearOffsets.namesUrl = token.namesUrl
  | code .. => rfl
  | rule .. => rfl
  | opening .. => rfl
  | block heading offset children => by
      rw [clearOffsets, namesUrl, namesUrl, anyNamesUrl_clearAllOffsets children]
  | closing _ => rfl
  | bare _ => rfl

theorem anyNamesUrl_clearAllOffsets : (tokens : List Token) →
    anyNamesUrl (clearAllOffsets tokens) = anyNamesUrl tokens
  | [] => rfl
  | token :: tokens => by
      rw [clearAllOffsets, anyNamesUrl, anyNamesUrl, namesUrl_clearOffsets token,
        anyNamesUrl_clearAllOffsets tokens]

end

theorem outline_clearAllOffsets (tokens : List Token) :
    outline (clearAllOffsets tokens) = outline tokens := by
  rw [clearAllOffsets_eq_adjustAll, outline, adjustAll_adjustAll]
  rfl

end Token

/-! ## What is read without comments -/

open TokenizeOptions (strict)

/-- What is read without comments and without a report are faithful tokens. -/
theorem exists_faithful {source : Text} (unreported : (strict.tree source).diagnostics = [])
    (noComment : ∀ step ∈ Scan.steps ⟨strict, source⟩, step.marker ≠ some .comment) :
    ∃ tokens, Token.AreFaithful tokens ∧
      Token.clearAllOffsets (strict.tree source).tokens = Token.clearAllOffsets tokens := by
  have flatUnreported : (strict.tokenize source).diagnostics = [] :=
    (List.append_eq_nil_iff.mp unreported).1
  have clean : Scan.Clean (Scan.strictly source) {} 0 := by
    intro step member
    rw [Scan.stepsAt, Scan.markersFrom_zero] at member
    exact ⟨List.flatMap_eq_nil_iff.mp flatUnreported step member, noComment step member⟩
  obtain ⟨glyphs, isOpen, lexed⟩ := Scan.exists_lexed (Scan.Standing.start source) clean
  rw [List.drop_zero] at lexed
  obtain ⟨tokensMeet, soundMeet⟩ := Scan.meets_tokenize lexed
  obtain ⟨tokens, faithful, ends⟩ :=
    Token.exists_assemblesTo lexed (Int.le_refl 0) (soundMeet.mp flatUnreported)
  refine ⟨tokens, faithful, ?_⟩
  rcases ends with ⟨-, assembled⟩ | ⟨within, -⟩
  · have same : Token.adjustAll id (strict.tokenize source).tokens =
        Token.adjustAll id (Token.flatten tokens) := by
      rw [← assembled, ← tokensMeet, Token.adjustAll_eq_map, Token.adjustAll_eq_map, List.map_map]
      apply List.map_congr_left
      intro token _
      rw [Function.comp_apply, Token.clearOffsets_eq_adjust, Token.adjust_adjust]
      rfl
    rw [Token.clearAllOffsets_eq_adjustAll, Token.clearAllOffsets_eq_adjustAll]
    exact (Token.adjustAll_nest id faithful.1 same).1
  · omega

theorem LayoutOptions.isPlain_default : LayoutOptions.IsPlain {} :=
  ⟨by decide, by decide, rfl⟩

theorem LayoutOptions.isRoomy_default : LayoutOptions.IsRoomy {} := by
  refine ⟨by decide, fun space => ?_⟩
  simp [LayoutOptions.beforeBrace, LayoutOptions.lineBreak]

/-- Let the tokens of a source be those of another source without comments, both read without
a report, and let no at-rule have the beginning of a url in its name. Then the tokens, written
in the default layout, are read as the same tokens if and only if no text takes along the
semicolon behind it. -/
theorem outline_tree_render_tree_iff {source twin : Text}
    (unreported : (strict.tree twin).diagnostics = [])
    (noComment : ∀ step ∈ Scan.steps ⟨strict, twin⟩, step.marker ≠ some .comment)
    (same : Token.clearAllOffsets (strict.tree source).tokens =
      Token.clearAllOffsets (strict.tree twin).tokens)
    (noUrl : Token.anyNamesUrl (strict.tree source).tokens = false) :
    Token.outline (strict.tree (LayoutOptions.render {} (strict.tree source).tokens)).tokens =
        Token.outline (strict.tree source).tokens ↔
      Token.anyLeavesOpen (strict.tree source).tokens = false := by
  obtain ⟨tokens, faithful, twinSame⟩ := exists_faithful unreported noComment
  rw [twinSame] at same
  rw [← Token.anyNamesUrl_clearAllOffsets, same, Token.anyNamesUrl_clearAllOffsets] at noUrl
  have legible := faithful.2 noUrl
  rw [← LayoutOptions.render_clearAllOffsets, ← Token.anyLeavesOpen_clearAllOffsets,
    ← Token.outline_clearAllOffsets (strict.tree source).tokens, same,
    LayoutOptions.render_clearAllOffsets, Token.anyLeavesOpen_clearAllOffsets,
    Token.outline_clearAllOffsets]
  constructor
  · intro preserved
    cases opened : Token.anyLeavesOpen tokens with
    | false => rfl
    | true =>
        exact absurd preserved (outline_tree_render_ne LayoutOptions.isPlain_default
          (fun _ => LayoutOptions.isRoomy_default) legible opened)
  · intro closed
    exact (outline_tree_render LayoutOptions.isPlain_default
      (fun _ => LayoutOptions.isRoomy_default) legible closed).1

theorem outline_tree_render_tree_annotated :
    let source := "a\x7b/* note */b:c!important;d:e\x7d".toList
    let twin := "a\x7bb:c!important;d:e\x7d".toList
    (strict.tree twin).diagnostics = [] ∧
      (∀ step ∈ Scan.steps ⟨strict, twin⟩, step.marker ≠ some .comment) ∧
      Token.clearAllOffsets (strict.tree source).tokens =
        Token.clearAllOffsets (strict.tree twin).tokens ∧
      Token.anyNamesUrl (strict.tree source).tokens = false ∧
      (Token.outline (strict.tree (LayoutOptions.render {} (strict.tree source).tokens)).tokens =
          Token.outline (strict.tree source).tokens ↔
        Token.anyLeavesOpen (strict.tree source).tokens = false) := by
  intro source twin
  have unreported : (strict.tree twin).diagnostics = [] := by decide +kernel
  have noComment : ∀ step ∈ Scan.steps ⟨strict, twin⟩, step.marker ≠ some .comment := by
    decide +kernel
  have same : Token.clearAllOffsets (strict.tree source).tokens =
      Token.clearAllOffsets (strict.tree twin).tokens := by decide +kernel
  have noUrl : Token.anyNamesUrl (strict.tree source).tokens = false := by decide +kernel
  exact ⟨unreported, noComment, same, noUrl,
    outline_tree_render_tree_iff unreported noComment same noUrl⟩

/-- A blank that is escaped at the end of a value is trimmed off, and its backslash takes
along the semicolon instead. -/
theorem not_forall_outline_tree_render_tree :
    ¬∀ source : Text, (strict.tree source).diagnostics = [] →
      Token.outline (strict.tree (LayoutOptions.render {} (strict.tree source).tokens)).tokens =
        Token.outline (strict.tree source).tokens := by
  intro preserved
  have same := preserved "a\x7bb:c\\ ;\x7d".toList (by decide +kernel)
  revert same
  decide +kernel

end Stylesheet
