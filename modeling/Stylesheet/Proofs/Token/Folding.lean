import Stylesheet.Proofs.Token.Matching

/-!
# Folding

Nesting folds flat tokens the way brackets are matched. No opening and no closing is left in
the tree, and its flat form is the list that it was folded from, without the closings that
close nothing, and with a closing at the end for every block that is left open.
-/

namespace Stylesheet
namespace Token

/-! ## Matched tokens -/

def isBlock : Token → Bool
  | block _ _ _ => true
  | _ => false

/-- How many blocks are open behind a token, where so many are open before it. A closing that
finds no open block closes nothing. -/
def openBehind (opened : Nat) : Token → Nat
  | opening _ _ => opened + 1
  | closing _ => opened - 1
  | _ => opened

/-- Whether a token is a closing that closes nothing. -/
def isStray (opened : Nat) (token : Token) : Bool :=
  token.isClosing && opened == 0

/-- The tokens without the closings that close nothing. -/
def matched (opened : Nat) : List Token → List Token
  | [] => []
  | token :: tokens =>
      if token.isStray opened then matched (token.openBehind opened) tokens
      else token :: matched (token.openBehind opened) tokens

/-- How many blocks are open behind all the tokens. -/
def leftOpen (opened : Nat) (tokens : List Token) : Nat :=
  tokens.foldl openBehind opened

theorem openBehind_eq (opened : Nat) (token : Token) :
    (token.openBehind opened : Int) = max 0 (opened + token.rise) := by
  cases token <;> simp only [openBehind, rise] <;> omega

theorem isStray_iff {opened : Nat} {token : Token} :
    token.isStray opened = true ↔ (opened : Int) + token.rise < 0 := by
  obtain ⟨closes, same⟩ | ⟨stays, up⟩ := rise_eq token
  · rw [isStray, closes, same, Bool.true_and, beq_iff_eq]
    omega
  · rw [isStray, stays, Bool.false_and]
    simp only [Bool.false_eq_true, false_iff]
    omega

/-- As long as a running count stays up, every closing closes a block. -/
theorem matched_of_staysUp {opened : Nat} {tokens : List Token} (up : StaysUp opened tokens) :
    matched opened tokens = tokens ∧ (leftOpen opened tokens : Int) = opened + balance tokens := by
  induction tokens generalizing opened with
  | nil => simp [matched, leftOpen]
  | cons token tokens induction =>
      have later := (staysUp_cons.mp up).2
      have nonneg := later.nonneg
      have kept : ¬token.isStray opened = true := by
        rw [isStray_iff]
        omega
      have behind : (token.openBehind opened : Int) = opened + token.rise := by
        rw [openBehind_eq]
        omega
      rw [← behind] at later
      have rest := induction later
      constructor
      · rw [matched, if_neg kept, rest.1]
      · rw [leftOpen, List.foldl_cons, ← leftOpen, rest.2, behind, balance_cons, Int.add_assoc]

theorem flattenOne_eq_self_iff {token : Token} :
    token.flattenOne = [token] ↔ token.isBlock = false := by
  cases token with
  | block heading offset children => simp [flattenOne, isBlock]
  | _ => exact ⟨fun _ => rfl, fun _ => rfl⟩

/-- Exactly the tokens without blocks are flat. -/
theorem flatten_eq_self_iff {tokens : List Token} :
    flatten tokens = tokens ↔ ∀ token ∈ tokens, token.isBlock = false := by
  induction tokens with
  | nil => simp [flatten]
  | cons token tokens induction =>
      rw [List.forall_mem_cons, ← induction, ← flattenOne_eq_self_iff]
      constructor
      · exact flatten_cons_eq_self
      · rintro ⟨alone, others⟩
        rw [flatten, alone, others, List.singleton_append]

end Token

namespace Nesting

open Token (matched leftOpen)

variable {nesting : Nesting} {token : Token}

theorem drops_eq (nesting : Nesting) (token : Token) :
    nesting.drops token = token.isStray nesting.opened.length := by
  rw [Bool.eq_iff_iff, drops_iff, Token.isStray_iff]

theorem length_opened_feed_eq (nesting : Nesting) (token : Token) :
    (nesting.feed token).opened.length = token.openBehind nesting.opened.length := by
  have behind := length_opened_feed nesting token
  rw [← Token.openBehind_eq] at behind
  exact Int.ofNat_inj.mp behind

theorem length_opened_feedAll (nesting : Nesting) (tokens : List Token) :
    (nesting.feedAll tokens).opened.length = leftOpen nesting.opened.length tokens := by
  induction tokens generalizing nesting with
  | nil => rfl
  | cons token tokens induction =>
      rw [leftOpen, List.foldl_cons, ← length_opened_feed_eq]
      exact induction (nesting.feed token)

/-! ## Flat forms -/

/-- The flat form of what has been nested so far. Only blocks that are closed end with a
closing. -/
def flat (nesting : Nesting) : List Token :=
  Token.flatten nesting.roots ++
    nesting.opened.reverse.flatMap fun block =>
      .opening block.heading block.offset :: Token.flatten block.children

theorem flat_add : (nesting.add token).flat = nesting.flat ++ token.flattenOne := by
  obtain ⟨roots, opened⟩ := nesting
  cases opened with
  | nil => simp [add, flat, Token.flatten_append, Token.flatten]
  | cons block outer =>
      simp [add, flat, OpenBlock.append, Token.flatten_append, Token.flatten]

theorem flat_close {closed : Nesting} (closes : nesting.close? = some closed) :
    closed.flat = nesting.flat ++ [.closing 0] := by
  obtain ⟨roots, opened⟩ := nesting
  cases opened with
  | nil => cases closes
  | cons block outer =>
      cases closes
      rw [flat_add]
      simp [flat, OpenBlock.close, Token.flattenOne]

theorem flat_feed (kept : nesting.drops token = false) (isFlat : token.flattenOne = [token]) :
    (nesting.feed token).flat = nesting.flat ++ [token.forgetClosing] := by
  cases token with
  | closing offset =>
      cases closes : nesting.close? with
      | none =>
          obtain ⟨roots, opened⟩ := nesting
          cases opened with
          | nil => cases kept
          | cons block outer => cases closes
      | some closed =>
          rw [feed, closes]
          exact flat_close closes
  | opening heading offset => simp [feed, openBlock, flat, Token.flatten, Token.forgetClosing]
  | _ => exact flat_add.trans (congrArg (nesting.flat ++ ·) isFlat)

/-- A closing that closes nothing is dropped. -/
theorem feed_of_drops (dropped : nesting.drops token = true) : nesting.feed token = nesting := by
  cases token with
  | closing offset =>
      obtain ⟨roots, opened⟩ := nesting
      cases opened with
      | nil => rfl
      | cons block outer => cases dropped
  | _ => cases dropped

theorem flat_feedAll (nesting : Nesting) {tokens : List Token}
    (areFlat : Token.flatten tokens = tokens) :
    (nesting.feedAll tokens).flat =
      nesting.flat ++ (matched nesting.opened.length tokens).map Token.forgetClosing := by
  induction tokens generalizing nesting with
  | nil => simp [feedAll, matched]
  | cons token tokens induction =>
      have flat := Token.flatten_cons_eq_self areFlat
      have later := induction (nesting.feed token) flat.2
      rw [length_opened_feed_eq] at later
      rw [feedAll, List.foldl_cons, ← feedAll, later, matched, ← drops_eq]
      split
      next dropped => rw [feed_of_drops dropped]
      next kept =>
        rw [flat_feed (Bool.eq_false_iff.mpr kept) flat.1, List.map_cons, List.append_assoc,
          List.singleton_append]

/-- When all blocks are closed, every open block gets a closing. -/
theorem flatten_finish (nesting : Nesting) :
    Token.flatten nesting.finish =
      nesting.flat ++ List.replicate nesting.opened.length (.closing 0) := by
  have closed (inner : List Token) (opened : List OpenBlock) :
      Token.flatten (closeAll inner opened) =
        (opened.reverse.flatMap fun block =>
            .opening block.heading block.offset :: Token.flatten block.children) ++
          (Token.flatten inner ++ List.replicate opened.length (.closing 0)) := by
    induction opened generalizing inner with
    | nil => simp [closeAll]
    | cons block outer induction =>
        rw [closeAll, induction]
        simp [OpenBlock.close, OpenBlock.append, Token.flatten, Token.flattenOne,
          Token.flatten_append, List.replicate_succ]
  rw [finish, Token.flatten_append, closed, flat, Token.flatten, List.nil_append,
    List.append_assoc]

/-! ## What holds at every level -/

/-- What is said of tokens holds of all that has been nested so far. -/
structure Holds (property : Token → Prop) (nesting : Nesting) : Prop where
  roots : ∀ token ∈ nesting.roots, property token
  contents : ∀ block ∈ nesting.opened, ∀ token ∈ block.children, property token

namespace Holds

variable {property : Token → Prop}

theorem add (holds : nesting.Holds property) (here : property token) :
    (nesting.add token).Holds property := by
  obtain ⟨roots, opened⟩ := nesting
  cases opened with
  | nil =>
      refine ⟨fun other member => ?_, holds.contents⟩
      rcases List.mem_append.mp member with before | last
      · exact holds.roots other before
      · rw [List.mem_singleton.mp last]
        exact here
  | cons block outer =>
      refine ⟨holds.roots, fun inner isOpen other member => ?_⟩
      rcases List.mem_cons.mp isOpen with rfl | isOuter
      · rcases List.mem_append.mp member with before | last
        · exact holds.contents block List.mem_cons_self other before
        · rw [List.mem_singleton.mp last]
          exact here
      · exact holds.contents inner (List.mem_cons_of_mem _ isOuter) other member

variable (ofBlock : ∀ heading offset children, (∀ child ∈ children, property child) →
  property (.block heading offset children))

include ofBlock

theorem feed (holds : nesting.Holds property)
    (here : token.isClosing = false → token.isOpening = false → property token) :
    (nesting.feed token).Holds property := by
  cases token with
  | closing offset =>
      obtain ⟨roots, opened⟩ := nesting
      cases opened with
      | nil => exact holds
      | cons block outer =>
          have around : Holds property ⟨roots, outer⟩ :=
            ⟨holds.roots, fun inner isOuter =>
              holds.contents inner (List.mem_cons_of_mem _ isOuter)⟩
          apply around.add
          apply ofBlock
          exact holds.contents block List.mem_cons_self
  | opening heading offset =>
      refine ⟨holds.roots, fun inner isOpen other member => ?_⟩
      rcases List.mem_cons.mp isOpen with rfl | isOuter
      · cases member
      · exact holds.contents inner isOuter other member
  | _ => exact holds.add (here rfl rfl)

theorem feedAll {tokens : List Token} (holds : nesting.Holds property)
    (each : ∀ token ∈ tokens, token.isClosing = false → token.isOpening = false →
      property token) :
    (nesting.feedAll tokens).Holds property := by
  induction tokens generalizing nesting with
  | nil => exact holds
  | cons token tokens induction =>
      apply induction
      · exact holds.feed ofBlock (each token List.mem_cons_self)
      · exact fun other member => each other (List.mem_cons_of_mem _ member)

theorem finish (holds : nesting.Holds property) : ∀ token ∈ nesting.finish, property token := by
  have closed {inner : List Token} {opened : List OpenBlock}
      (contents : ∀ block ∈ opened, ∀ token ∈ block.children, property token)
      (inside : ∀ token ∈ inner, property token) :
      ∀ token ∈ closeAll inner opened, property token := by
    induction opened generalizing inner with
    | nil => exact inside
    | cons block outer induction =>
        apply induction fun other isOuter => contents other (List.mem_cons_of_mem _ isOuter)
        intro token member
        rw [List.mem_singleton.mp member]
        apply ofBlock
        intro child isChild
        rcases List.mem_append.mp isChild with before | isInner
        · exact contents block List.mem_cons_self child before
        · exact inside child isInner
  intro token member
  rcases List.mem_append.mp member with isRoot | isClosed
  · exact holds.roots token isRoot
  · exact closed holds.contents (by simp) token isClosed

end Holds

end Nesting

namespace Token

theorem mem_preorder {depth : Int} {tokens : List Token} {entry : Int × Token} :
    entry ∈ preorder depth tokens ↔ ∃ token ∈ tokens, entry ∈ preorderOf depth token := by
  induction tokens with
  | nil => simp [preorder]
  | cons token tokens induction => simp [preorder, induction]

/-- Whether a token is complete: neither it nor a token inside it is an opening or a closing. -/
def IsComplete (token : Token) : Prop :=
  ∀ depth, ∀ entry ∈ preorderOf depth token,
    entry.2.isClosing = false ∧ entry.2.isOpening = false

theorem isComplete_block (heading : Heading) (offset : Int) (children : List Token)
    (each : ∀ child ∈ children, child.IsComplete) :
    (block heading offset children).IsComplete := by
  intro depth entry member
  rcases List.mem_cons.mp member with rfl | inside
  · exact ⟨rfl, rfl⟩
  · obtain ⟨child, isChild, within⟩ := mem_preorder.mp inside
    exact each child isChild _ entry within

theorem isComplete_of_mem_nest {tokens : List Token}
    (noBlock : ∀ token ∈ tokens, token.isBlock = false) :
    ∀ token ∈ nest tokens, token.IsComplete := by
  have start : Nesting.Holds IsComplete {} := ⟨by simp, by simp⟩
  rw [nest, Nesting.forest_eq_finish]
  apply Nesting.Holds.finish isComplete_block
  apply start.feedAll isComplete_block
  intro token member noClosing noOpening depth entry inside
  have alone : preorderOf depth token = [(depth, token)] := by
    cases token with
    | block heading offset children => cases noBlock _ member
    | _ => rfl
  rw [alone] at inside
  rw [List.mem_singleton.mp inside]
  exact ⟨noClosing, noOpening⟩

/-- At no level of a tree that is nested from tokens without blocks is an opening or a closing
left. -/
theorem forall_mem_preorder_nest {tokens : List Token}
    (noBlock : ∀ token ∈ tokens, token.isBlock = false) (depth : Int) :
    ∀ entry ∈ preorder depth (nest tokens),
      entry.2.isClosing = false ∧ entry.2.isOpening = false := by
  intro entry member
  obtain ⟨token, isRoot, inside⟩ := mem_preorder.mp member
  exact isComplete_of_mem_nest noBlock token isRoot depth entry inside

/-- Tokens without openings and closings are nested already. -/
theorem forest_of_isComplete {tokens : List Token} (each : ∀ token ∈ tokens, token.IsComplete) :
    Nesting.forest {} tokens = (tokens, []) := by
  have added (roots : List Token) :
      Nesting.forest ⟨roots, []⟩ tokens = (roots ++ tokens, []) := by
    induction tokens generalizing roots with
    | nil => rfl
    | cons token tokens induction =>
        have first : (0, token) ∈ preorderOf 0 token := by
          cases token <;> simp [preorderOf]
        have here := each token List.mem_cons_self 0 (0, token) first
        rw [Nesting.forest_cons_of_content _ _ here.1 (by rintro heading offset rfl; cases here.2)]
        have later := induction (fun other member => each other (List.mem_cons_of_mem _ member))
          (roots ++ [token])
        rw [List.append_assoc] at later
        exact later
  exact added []

theorem flatten_nest_of_flatten {tokens : List Token} (areFlat : flatten tokens = tokens) :
    flatten (nest tokens) =
      (matched 0 tokens).map forgetClosing ++
        List.replicate (leftOpen 0 tokens) (closing 0) := by
  rw [nest, Nesting.forest_eq_finish, Nesting.flatten_finish, Nesting.flat_feedAll {} areFlat,
    Nesting.length_opened_feedAll]
  rfl

/-- Where every closing closes a block and every block is closed, nesting drops nothing, and
the tree can be made flat again. -/
theorem IsWellNested.nest {tokens : List Token} (isWellNested : IsWellNested tokens)
    (areFlat : flatten tokens = tokens) :
    (Nesting.forest {} tokens).2 = [] ∧ flatten (nest tokens) = tokens.map forgetClosing := by
  obtain ⟨up, level⟩ := isWellNested_iff.mp isWellNested
  have allMatched : matched 0 tokens = tokens ∧ (leftOpen 0 tokens : Int) = 0 + balance tokens :=
    matched_of_staysUp up
  have allClosed : leftOpen 0 tokens = 0 := by omega
  constructor
  · exact Nesting.forest_of_no_strays (Nesting.strays_of_staysUp {} up).1
  · rw [flatten_nest_of_flatten areFlat, allMatched.1, allClosed]
    exact List.append_nil _

/-- Nesting matches brackets: the tree holds neither openings nor closings, its flat form is
the list without the closings that close nothing and with a closing for every block that is
left open, and it is nested already. -/
theorem flatten_nest {tokens : List Token} (noBlock : ∀ token ∈ tokens, token.isBlock = false) :
    (∀ entry ∈ preorder 0 (nest tokens),
        entry.2.isClosing = false ∧ entry.2.isOpening = false) ∧
      flatten (nest tokens) =
        (matched 0 tokens).map forgetClosing ++
          List.replicate (leftOpen 0 tokens) (closing 0) ∧
      nest (nest tokens) = nest tokens ∧
      ∀ source, strayClosings false source (nest tokens) = [] := by
  have areFlat := flatten_eq_self_iff.mpr noBlock
  have again := forest_of_isComplete (isComplete_of_mem_nest noBlock)
  refine ⟨forall_mem_preorder_nest noBlock 0, flatten_nest_of_flatten areFlat, ?_, ?_⟩
  · change (Nesting.forest {} (nest tokens)).1 = nest tokens
    rw [again]
  · intro source
    rw [strayClosings, again]
    rfl

theorem flatten_nest_unbalanced :
    let heading : Heading := ⟨['a'], some [['a']], none⟩
    let tokens := [closing 0, opening heading 1, opening heading 2, code ['b', ';'] 3 false,
      closing 5, closing 6, closing 7, opening heading 8, code ['c', ';'] 9 false]
    (∀ token ∈ tokens, token.isBlock = false) ∧
      flatten (nest tokens) =
        [opening heading 1, opening heading 2, code ['b', ';'] 3 false, closing 0, closing 0,
          opening heading 8, code ['c', ';'] 9 false, closing 0] ∧
      nest (nest tokens) = nest tokens := by
  intro heading tokens
  have noBlock : ∀ token ∈ tokens, token.isBlock = false := by decide
  have folded := flatten_nest noBlock
  exact ⟨noBlock, folded.2.1, folded.2.2.1⟩

end Token
end Stylesheet
