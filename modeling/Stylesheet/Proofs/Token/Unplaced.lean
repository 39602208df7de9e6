import Stylesheet.Proofs.Token.Serial

/-!
# The serial form without offsets

A text that leaves the offsets out says all else about the tokens. Two token lists have one such
text if and only if they are equal after every offset, inside of blocks too, is set to zero; and
the list with zeros is what is read from the text.
-/

namespace Stylesheet
namespace Token

mutual

/-- Offsets leave no trace where they are left out. -/
theorem encode_clearOffsets : (token : Token) →
    encode false token.clearOffsets = encode false token
  | code _ _ _ => rfl
  | rule _ _ _ => rfl
  | opening _ _ => rfl
  | block heading offset children => by
      rw [clearOffsets, encode, encode, encodeAll_clearAllOffsets children]
      rfl
  | closing _ => rfl
  | bare _ => rfl

theorem encodeAll_clearAllOffsets : (tokens : List Token) →
    encodeAll false (clearAllOffsets tokens) = encodeAll false tokens
  | [] => rfl
  | token :: tokens => by
      rw [clearAllOffsets, encodeAll, encodeAll, encode_clearOffsets token,
        encodeAll_clearAllOffsets tokens]

end

/-- The text of tokens holds every field that is written. -/
theorem encodeAll_of_write {layout : Json.Layout} {withOffsets : Bool} {first second : List Token}
    (same : write layout withOffsets first = write layout withOffsets second) :
    encodeAll withOffsets first = encodeAll withOffsets second := by
  have firstRead : Json.read? (write layout withOffsets first) =
      some (.array (encodeAll withOffsets first)) :=
    Json.read?_print layout (areWhole_encodeAll withOffsets first)
  have secondRead : Json.read? (write layout withOffsets second) =
      some (.array (encodeAll withOffsets second)) :=
    Json.read?_print layout (areWhole_encodeAll withOffsets second)
  rw [same, secondRead] at firstRead
  injection firstRead with arrays
  injection arrays with items
  exact items.symm

/-- The fields that are written hold everything that is kept. -/
theorem keptAll_of_encodeAll {withOffsets : Bool} {first second : List Token}
    (same : encodeAll withOffsets first = encodeAll withOffsets second) :
    keptAll withOffsets first = keptAll withOffsets second := by
  obtain ⟨values, decoded, content⟩ := decodeItems_encodeAll withOffsets first
  obtain ⟨otherValues, otherDecoded, otherContent⟩ := decodeItems_encodeAll withOffsets second
  rw [same, otherDecoded] at decoded
  injection decoded with equal
  rw [equal, content] at otherContent
  exact Option.some.inj otherContent

/-- Without offsets, one text belongs to exactly the token lists that are equal up to offsets,
whatever the indentation. It is read as the list in which every offset is zero. -/
theorem write_unplaced_eq_iff (indent : Option Int) (first second : List Token) :
    (write (.ofIndent indent) false first = write (.ofIndent indent) false second ↔
      clearAllOffsets first = clearAllOffsets second) ∧
    ((∀ token ∈ first, token.isBare = false) →
      read (write (.ofIndent indent) false first) = .ok (clearAllOffsets first)) := by
  refine ⟨⟨fun same => ?_, fun same => ?_⟩, fun noBare => ?_⟩
  · exact keptAll_of_encodeAll (encodeAll_of_write same)
  · rw [write, write, ← encodeAll_clearAllOffsets first, same, encodeAll_clearAllOffsets second]
  · exact read_write_kept (.ofIndent indent) false noBare

/-- Two blocks whose contents lie at other places, with names and texts that need escapes. -/
theorem write_unplaced_eq_iff_nested :
    let tokens (shift : Int) : List Token :=
      [.block ⟨"@m \"a\"".toList, none, some ⟨"m".toList, ["\"a\"".toList]⟩⟩ shift
        [.block ⟨"b,😀".toList, some ["b".toList, "😀".toList], none⟩ (shift + 7)
          [.rule ⟨"c".toList, ['\\', '\x00'], .ofList ["important".toList]⟩ (shift + 9) true]],
        .opening ⟨[], none, none⟩ (-shift), .closing (2 * shift)]
    (∀ token ∈ tokens 40, token.isBare = false) ∧
      clearAllOffsets (tokens 40) = clearAllOffsets (tokens 3) ∧
      write (.ofIndent (some 2)) false (tokens 40) = write (.ofIndent (some 2)) false (tokens 3) ∧
      read (write (.ofIndent (some 2)) false (tokens 40)) =
        .ok (clearAllOffsets (tokens 40)) := by
  refine ⟨by decide, by decide, ?_, ?_⟩
  · exact (write_unplaced_eq_iff (some 2) _ _).1.mpr (by decide)
  · exact (write_unplaced_eq_iff (some 2) _ []).2 (by decide)

end Token
end Stylesheet
