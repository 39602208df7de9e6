import Stylesheet.Diagnostic
import Stylesheet.Token.Basic

/-!
# Nesting of blocks

In flat form a closing token ends the block that was opened last. Nesting turns
flat tokens into blocks with contents. Blocks that are never closed end with the
tokens. A closing token without an open block is dropped; the tokens behind it
are nested all the same.
-/

namespace Stylesheet

/-- A block that has been opened, with the contents collected so far. -/
structure OpenBlock where
  heading : Heading
  offset : Int
  children : List Token
  deriving DecidableEq

namespace OpenBlock

/-- The finished block. -/
def close (block : OpenBlock) : Token :=
  .block block.heading block.offset block.children

def append (block : OpenBlock) (tokens : List Token) : OpenBlock :=
  { block with children := block.children ++ tokens }

end OpenBlock

/-- The finished tokens outside all blocks, and the open blocks, innermost first. -/
structure Nesting where
  roots : List Token := []
  opened : List OpenBlock := []
  deriving DecidableEq

namespace Nesting

/-- Put a finished token where it belongs. -/
def add (nesting : Nesting) (token : Token) : Nesting :=
  match nesting.opened with
  | [] => { nesting with roots := nesting.roots ++ [token] }
  | block :: outer => { nesting with opened := block.append [token] :: outer }

def openBlock (nesting : Nesting) (heading : Heading) (offset : Int) : Nesting :=
  { nesting with opened := ⟨heading, offset, []⟩ :: nesting.opened }

/-- Close the innermost block, if there is one. -/
def close? (nesting : Nesting) : Option Nesting :=
  match nesting.opened with
  | [] => none
  | block :: outer => some ({ nesting with opened := outer }.add block.close)

/-- Close all blocks, where `inner` belongs into the innermost one. -/
def closeAll (inner : List Token) : List OpenBlock → List Token
  | [] => inner
  | block :: outer => closeAll [(block.append inner).close] outer

/-- All tokens, after every block has been closed. -/
def finish (nesting : Nesting) : List Token :=
  nesting.roots ++ closeAll [] nesting.opened

/-- Nest tokens up to the first closing token without an open block, and return
the tokens behind it. -/
def level (nesting : Nesting) : List Token → List Token × List Token
  | [] => (nesting.finish, [])
  | .closing _ :: rest =>
      match nesting.close? with
      | some closed => level closed rest
      | none => (nesting.roots, rest)
  | .opening heading offset :: rest => level (nesting.openBlock heading offset) rest
  | token :: rest => level (nesting.add token) rest

/-- Nest all tokens, dropping closing tokens without an open block. For each one
that is dropped and not the last token, the offset of the next token is kept. -/
def forest (nesting : Nesting) : List Token → List Token × List Int
  | [] => (nesting.finish, [])
  | .closing _ :: rest =>
      match nesting.close? with
      | some closed => forest closed rest
      | none =>
          let (tokens, strays) := forest nesting rest
          (tokens, (rest.head?.map Token.offset).toList ++ strays)
  | .opening heading offset :: rest => forest (nesting.openBlock heading offset) rest
  | token :: rest => forest (nesting.add token) rest

end Nesting

namespace Token

/-- Nest the tokens from an index up to the first closing token without an open
block, and return the index behind it. A negative index counts from the end, and
there must be a token at it. -/
def nestLevel? (tokens : List Token) (start : Int) : Option (List Token × Int) :=
  if start < -(tokens.length : Int) then none
  else
    let ahead := entriesFrom tokens start
    let (nested, rest) := Nesting.level {} ahead
    some (nested, start + (ahead.length - rest.length : Nat))

/-- The tokens in tree form. -/
def nest (tokens : List Token) : List Token :=
  (Nesting.forest {} tokens).1

/-- The diagnostics for closing tokens without an open block, unless errors are
ignored. -/
def strayClosings (ignoreErrors : Bool) (source : Text) (tokens : List Token) :
    List Diagnostic :=
  if ignoreErrors then []
  else (Nesting.forest {} tokens).2.map (.ofFault .unmatchedBlockEnd source)

mutual

/-- A token and all tokens inside it, outer ones first, with their depths. -/
def preorderOf (depth : Int) : Token → List (Int × Token)
  | block heading offset children =>
      (depth, block heading offset children) :: preorder (depth + 1) children
  | token => [(depth, token)]

/-- All tokens of a list and all tokens inside them, with their depths. -/
def preorder (depth : Int) : List Token → List (Int × Token)
  | [] => []
  | token :: tokens => preorderOf depth token ++ preorder depth tokens

end

end Token
end Stylesheet
