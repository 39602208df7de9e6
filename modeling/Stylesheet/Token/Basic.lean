import Stylesheet.NameSet

/-!
# Tokens

A stylesheet is read into tokens of four types. In flat form a block is opened
by one token and closed by another; in tree form it holds its contents. A list
that comes from outside may also hold at-rules without a block. They are no
tokens of a stylesheet, but they can be nested and written like them.
-/

namespace Stylesheet

/-- A name after `@`, with the values behind it. -/
structure AtRule where
  name : Text
  values : List Text
  deriving DecidableEq

/-- What stands before a block: its text, and the selectors or the at-rule that
the text was recognised as. -/
structure Heading where
  text : Text
  selectors : Option (List Text)
  atRule : Option AtRule
  deriving DecidableEq

/-- A key with a value, and the flags that were written behind the value. -/
structure Declaration where
  key : Text
  value : Text
  modifiers : NameSet
  deriving DecidableEq

inductive Token
  /-- A statement kept as it was written. -/
  | code (text : Text) (offset : Int) (error : Bool)
  | rule (declaration : Declaration) (offset : Int) (error : Bool)
  /-- The opening of a block whose contents follow as tokens of their own. -/
  | opening (heading : Heading) (offset : Int)
  /-- A block together with its contents. -/
  | block (heading : Heading) (offset : Int) (children : List Token)
  /-- The closing of a block that was opened by an earlier token. -/
  | closing (offset : Int)
  /-- An at-rule by itself, which no stylesheet is read into. -/
  | bare (atRule : AtRule)

namespace Declaration

def isImportant (declaration : Declaration) : Bool :=
  declaration.modifiers.contains "important".toList

end Declaration

namespace Heading

def isAtRule (heading : Heading) : Bool :=
  heading.atRule.isSome

end Heading

namespace Token

/-- The type of a token, as written in every serial form. An opening and a
block are one type: they differ in whether the contents are attached. -/
def typeName : Token → Text
  | code _ _ _ => "Code".toList
  | rule _ _ _ => "Rule".toList
  | opening _ _ => "BlockStart".toList
  | block _ _ _ => "BlockStart".toList
  | closing _ => "BlockEnd".toList
  | bare _ => "AtRule".toList

/-- The offset where a token begins. A bare at-rule has none. -/
def offset? : Token → Option Int
  | code _ offset _ => some offset
  | rule _ offset _ => some offset
  | opening _ offset => some offset
  | block _ offset _ => some offset
  | closing offset => some offset
  | bare _ => none

/-- The offset where a token begins, or zero if it has none. -/
def offset (token : Token) : Int :=
  token.offset?.getD 0

def isClosing : Token → Bool
  | closing _ => true
  | _ => false

def isBare : Token → Bool
  | bare _ => true
  | _ => false

/-! ## Equality -/

mutual

def decideEq : (first second : Token) → Decidable (first = second)
  | code text offset error, code text' offset' error' =>
      decidable_of_iff (text = text' ∧ offset = offset' ∧ error = error') (by simp)
  | rule declaration offset error, rule declaration' offset' error' =>
      decidable_of_iff
        (declaration = declaration' ∧ offset = offset' ∧ error = error') (by simp)
  | opening heading offset, opening heading' offset' =>
      decidable_of_iff (heading = heading' ∧ offset = offset') (by simp)
  | block heading offset children, block heading' offset' children' =>
      match decideListEq children children' with
      | isTrue equal =>
          decidable_of_iff (heading = heading' ∧ offset = offset') (by simp [equal])
      | isFalse different => isFalse (by simp [different])
  | closing offset, closing offset' =>
      decidable_of_iff (offset = offset') (by simp)
  | bare atRule, bare atRule' =>
      decidable_of_iff (atRule = atRule') (by simp)
  | code .., rule .. => isFalse nofun
  | code .., opening .. => isFalse nofun
  | code .., block .. => isFalse nofun
  | code .., closing .. => isFalse nofun
  | code .., bare .. => isFalse nofun
  | rule .., code .. => isFalse nofun
  | rule .., opening .. => isFalse nofun
  | rule .., block .. => isFalse nofun
  | rule .., closing .. => isFalse nofun
  | rule .., bare .. => isFalse nofun
  | opening .., code .. => isFalse nofun
  | opening .., rule .. => isFalse nofun
  | opening .., block .. => isFalse nofun
  | opening .., closing .. => isFalse nofun
  | opening .., bare .. => isFalse nofun
  | block .., code .. => isFalse nofun
  | block .., rule .. => isFalse nofun
  | block .., opening .. => isFalse nofun
  | block .., closing .. => isFalse nofun
  | block .., bare .. => isFalse nofun
  | closing .., code .. => isFalse nofun
  | closing .., rule .. => isFalse nofun
  | closing .., opening .. => isFalse nofun
  | closing .., block .. => isFalse nofun
  | closing .., bare .. => isFalse nofun
  | bare .., code .. => isFalse nofun
  | bare .., rule .. => isFalse nofun
  | bare .., opening .. => isFalse nofun
  | bare .., block .. => isFalse nofun
  | bare .., closing .. => isFalse nofun

def decideListEq : (first second : List Token) → Decidable (first = second)
  | [], [] => isTrue rfl
  | [], _ :: _ => isFalse nofun
  | _ :: _, [] => isFalse nofun
  | head :: tail, head' :: tail' =>
      match decideEq head head', decideListEq tail tail' with
      | isTrue sameHead, isTrue sameTail => isTrue (by simp [sameHead, sameTail])
      | isFalse different, _ => isFalse (by simp [different])
      | _, isFalse different => isFalse (by simp [different])

end

instance : DecidableEq Token := decideEq

/-! ## Offsets -/

mutual

/-- The token with every offset, its own and those inside, set to zero. -/
def clearOffsets : Token → Token
  | code text _ error => code text 0 error
  | rule declaration _ error => rule declaration 0 error
  | opening heading _ => opening heading 0
  | block heading _ children => block heading 0 (clearAllOffsets children)
  | closing _ => closing 0
  | bare atRule => bare atRule

def clearAllOffsets : List Token → List Token
  | [] => []
  | token :: tokens => clearOffsets token :: clearAllOffsets tokens

end

end Token
end Stylesheet
