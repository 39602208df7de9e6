import Stylesheet.Proofs.Text.Blank
import Stylesheet.Word

/-!
# Significant characters

All characters but blanks and semicolons are significant. Tokens keep them; blanks
and semicolons may be lost around them. Where rules are not split semicolons are kept too.
-/

namespace Stylesheet
namespace Text

/-- Trimming changes nothing for a test that no blank passes. -/
theorem filter_trim {test : Char → Bool}
    (visible : ∀ character, isBlank character = true → test character = false) (text : Text) :
    (trim text).filter test = text.filter test := by
  have nothing {blank : Text} (isBlank : Blank blank) : blank.filter test = [] := by
    apply List.filter_eq_nil_iff.mpr
    intro character member
    rw [visible character (isBlank character member)]
    exact Bool.false_ne_true
  obtain ⟨front, back, frontBlank, backBlank, split⟩ := exists_append_trim_append text
  conv => rhs; rw [split]
  rw [List.filter_append, List.filter_append, nothing frontBlank, nothing backBlank,
    List.nil_append, List.append_nil]

/-- The characters that are no blanks. -/
def withoutBlanks (text : Text) : Text :=
  text.filter (!isBlank ·)

@[simp] theorem withoutBlanks_nil : withoutBlanks [] = [] := rfl

@[simp] theorem withoutBlanks_append (first second : Text) :
    withoutBlanks (first ++ second) = withoutBlanks first ++ withoutBlanks second :=
  List.filter_append ..

@[simp] theorem withoutBlanks_trim (text : Text) : withoutBlanks (trim text) = withoutBlanks text :=
  filter_trim (by simp) text

/-- The characters that are neither blanks nor semicolons. -/
def significant (text : Text) : Text :=
  text.filter fun character => !isBlank character && character != ';'

@[simp] theorem significant_nil : significant [] = [] := rfl

@[simp] theorem significant_append (first second : Text) :
    significant (first ++ second) = significant first ++ significant second :=
  List.filter_append ..

theorem significant_cons (character : Char) (rest : Text) :
    significant (character :: rest) = significant [character] ++ significant rest :=
  significant_append [character] rest

@[simp] theorem significant_semicolon : significant [';'] = [] := by decide

@[simp] theorem significant_trim (text : Text) : significant (trim text) = significant text :=
  filter_trim (by simp +contextual) text

end Text

namespace Word

@[simp] theorem joined_nil : joined [] = [] := rfl

@[simp] theorem joined_append (first second : List Word) :
    joined (first ++ second) = joined first ++ joined second :=
  List.flatMap_append

@[simp] theorem joined_cons (word : Word) (words : List Word) :
    joined (word :: words) = word.text ++ joined words :=
  List.flatMap_cons

end Word
end Stylesheet
