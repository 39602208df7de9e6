import Stylesheet.Text.Basic

/-!
# Text buffers

A buffer collects parts and joins them when the text is asked for. Empty parts
are not kept.
-/

namespace Stylesheet

structure Buffer where
  parts : List Text := []
  deriving DecidableEq

namespace Buffer

def append (buffer : Buffer) (part : Text) : Buffer :=
  if part.isEmpty then buffer else ⟨buffer.parts ++ [part]⟩

/-- All parts, one after the other. -/
def text (buffer : Buffer) : Text :=
  buffer.parts.flatten

/-- Append parts one after the other, and collect the buffers in between. -/
def appendEach (buffer : Buffer) : List Text → List Buffer
  | [] => []
  | part :: parts =>
      let next := buffer.append part
      next :: appendEach next parts

@[simp] theorem text_append (buffer : Buffer) (part : Text) :
    (buffer.append part).text = buffer.text ++ part := by
  unfold append text
  split
  next empty => simp [List.isEmpty_iff.mp empty]
  next => simp

end Buffer
end Stylesheet
