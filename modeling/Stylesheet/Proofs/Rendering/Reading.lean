import Stylesheet.Proofs.Rendering.Legible
import Stylesheet.Proofs.Scan.Units

/-!
# Reading what has been written

Legible tokens are written as a stylesheet that is read as the same tokens if and only if
no text takes along the semicolon behind it.
-/

namespace Stylesheet

open Token

theorem outline_map_clearOffsets (tokens : List Token) :
    outline (tokens.map clearOffsets) = outline tokens := by
  have clear : tokens.map clearOffsets = adjustAll id tokens := by
    rw [adjustAll_eq_map]
    exact List.map_congr_left fun token _ => clearOffsets_eq_adjust token
  rw [clear, outline, adjustAll_adjustAll]
  rfl

theorem meets_trim {text : Text} {glyphs : List Glyph} {isOpen : Bool}
    (lexed : Lexed text glyphs isOpen) :
    Scan.Meets (TokenizeOptions.strict.tokenize text.trim) (assemble 0 [] glyphs) := by
  obtain ⟨front, known, back, wasOpen, rfl, frontBlank, backBlank, inner⟩ := lexed.trim
  have same : assemble 0 [] (front.map .text ++ known ++ back.map .text) = assemble 0 [] known := by
    rw [List.append_assoc, Reads.assemble_blank frontBlank, assemble_append_blank backBlank]
  rw [same]
  exact Scan.meets_tokenize inner

variable {options : LayoutOptions} {roomy : Prop} {tokens : List Token}

/-- Legible tokens whose texts take along no semicolon are read again as they were written. -/
theorem outline_tree_render (plain : options.IsPlain) (room : roomy → options.IsRoomy)
    (legible : AreLegible roomy tokens) (closed : anyLeavesOpen tokens = false) :
    outline (TokenizeOptions.strict.tree (options.render tokens)).tokens = outline tokens ∧
      (TokenizeOptions.strict.tree (options.render tokens)).diagnostics = [] := by
  obtain ⟨glyphs, transcript⟩ := exists_transcripts plain room tokens legible [] Text.blank_nil
  obtain ⟨flat, flatSame, reads⟩ := transcript.reads closed
  obtain ⟨tokensMeet, soundMeet⟩ := meets_trim transcript.leads.lexed
  have assembled := reads [] .nil 0 (Int.le_refl 0)
  have nothing : assemble 0 [] [] = ⟨[], true⟩ := rfl
  rw [List.append_nil, nothing] at assembled
  rw [assembled] at tokensMeet soundMeet
  have same : outline (TokenizeOptions.strict.tokenize (options.render tokens)).tokens =
      outline (flatten tokens) := by
    rw [← outline_map_clearOffsets, LayoutOptions.render, tokensMeet, Draft.prepend,
      List.append_nil, flatSame]
  obtain ⟨treeSame, noStrays⟩ := adjustAll_nest withoutText (areTrees_of_areLegible legible) same
  refine ⟨treeSame, ?_⟩
  have unreported := soundMeet.mpr rfl
  rw [TokenizeOptions.tree, strayClosings, noStrays]
  dsimp only
  rw [LayoutOptions.render, unreported]
  rfl

/-- Legible tokens of which some text takes along a semicolon are read differently. -/
theorem outline_tree_render_ne (plain : options.IsPlain) (room : roomy → options.IsRoomy)
    (legible : AreLegible roomy tokens) (opened : anyLeavesOpen tokens = true) :
    outline (TokenizeOptions.strict.tree (options.render tokens)).tokens ≠ outline tokens := by
  obtain ⟨glyphs, transcript⟩ := exists_transcripts plain room tokens legible [] Text.blank_nil
  obtain ⟨tokensMeet, -⟩ := meets_trim transcript.leads.lexed
  have departs := transcript.departs opened 0 [] (Int.le_refl 0)
  rw [List.append_nil, ← tokensMeet, Departs, outline_map_clearOffsets] at departs
  exact Departs.outline_ne departs

end Stylesheet
