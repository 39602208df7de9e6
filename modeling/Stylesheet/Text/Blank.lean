import Stylesheet.Text.Range

/-!
# Blanks

Blanks are the characters that are trimmed from both ends of keys, values,
selectors and rendered text: the white space of Unicode together with the four
information separators U+001C to U+001F.
-/

namespace Stylesheet
namespace Text

def blankRanges : List CodeRange :=
  [⟨0x09, 0x0D⟩, ⟨0x1C, 0x20⟩, ⟨0x85, 0x85⟩, ⟨0xA0, 0xA0⟩, ⟨0x1680, 0x1680⟩,
   ⟨0x2000, 0x200A⟩, ⟨0x2028, 0x2029⟩, ⟨0x202F, 0x202F⟩, ⟨0x205F, 0x205F⟩,
   ⟨0x3000, 0x3000⟩]

def isBlank (character : Char) : Bool :=
  CodeRange.anyContains blankRanges character

/-- Drop the blanks at the front. -/
def trimStart (text : Text) : Text :=
  text.dropWhile isBlank

/-- Drop the blanks at the back: a blank stays only if something follows it
that is kept. -/
def trimEnd (text : Text) : Text :=
  text.foldr (fun character kept =>
    if kept.isEmpty && isBlank character then [] else character :: kept) []

/-- Drop the blanks at both ends. -/
def trim (text : Text) : Text :=
  trimEnd (trimStart text)

theorem isBlank_space : isBlank ' ' = true := rfl

theorem trimEnd_cons (character : Char) (rest : Text) :
    trimEnd (character :: rest) =
      if (trimEnd rest).isEmpty && isBlank character then []
      else character :: trimEnd rest := rfl

theorem trimEnd_trimEnd (text : Text) : trimEnd (trimEnd text) = trimEnd text := by
  induction text with
  | nil => rfl
  | cons character rest induction =>
      rw [trimEnd_cons]
      split
      · rfl
      next kept => rw [trimEnd_cons, induction, if_neg kept]

/-- Trimming the back leaves a trimmed front as it is. -/
theorem trimStart_trimEnd_trimStart (text : Text) :
    trimStart (trimEnd (trimStart text)) = trimEnd (trimStart text) := by
  cases start : trimStart text with
  | nil => rfl
  | cons character rest =>
      have visible : isBlank character = false := by
        have head := List.head?_dropWhile_not isBlank text
        rw [← trimStart, start] at head
        simpa using head
      rw [trimEnd_cons, visible]
      simp [trimStart, visible]

@[simp] theorem trim_trim (text : Text) : trim (trim text) = trim text := by
  rw [trim, trim, trimStart_trimEnd_trimStart, trimEnd_trimEnd]

end Text
end Stylesheet
