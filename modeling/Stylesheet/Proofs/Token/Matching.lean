import Stylesheet.Proofs.Token.Errors
import Stylesheet.Proofs.Token.Outline

/-!
# Matching closings with openings

Nesting matches every closing with the innermost open block. A running count of openings
without closings can be kept instead: it differs from the number of open blocks from the
first closing on that has no open block, because the count goes below zero there.
-/

namespace Stylesheet
namespace Token

/-! ## Counts -/

def isOpening : Token → Bool
  | opening _ _ => true
  | _ => false

/-- What a token adds to the number of open blocks. -/
def rise : Token → Int
  | opening _ _ => 1
  | closing _ => -1
  | _ => 0

theorem rise_eq (token : Token) : token.isClosing = true ∧ token.rise = -1 ∨
    token.isClosing = false ∧ 0 ≤ token.rise := by
  cases token <;> simp [isClosing, rise]

/-- The openings of a list less its closings. -/
def balance : List Token → Int
  | [] => 0
  | token :: tokens => token.rise + balance tokens

@[simp] theorem balance_nil : balance [] = 0 := rfl

@[simp] theorem balance_cons (token : Token) (tokens : List Token) :
    balance (token :: tokens) = token.rise + balance tokens := rfl

@[simp] theorem balance_append (front back : List Token) :
    balance (front ++ back) = balance front + balance back := by
  induction front with
  | nil => exact (Int.zero_add _).symm
  | cons token front induction =>
      rw [List.cons_append, balance_cons, induction, balance_cons, Int.add_assoc]

theorem balance_eq (tokens : List Token) :
    balance tokens = (tokens.countP isOpening : Int) - tokens.countP isClosing := by
  induction tokens with
  | nil => rfl
  | cons token tokens induction =>
      rw [balance_cons, induction, List.countP_cons, List.countP_cons]
      cases token <;> simp [rise, isOpening, isClosing] <;> omega

/-- The offsets of the closings that a running count meets at zero. -/
def closingsAtZero (count : Int) : List Token → List Int
  | [] => []
  | token :: tokens =>
      (if token.isClosing ∧ count = 0 then [token.offset] else []) ++
        closingsAtZero (count + token.rise) tokens

theorem closingsAtZero_append (count : Int) (front back : List Token) :
    closingsAtZero count (front ++ back) =
      closingsAtZero count front ++ closingsAtZero (count + balance front) back := by
  induction front generalizing count with
  | nil => simp [closingsAtZero]
  | cons token front induction =>
      rw [List.cons_append, closingsAtZero, closingsAtZero, induction, List.append_assoc,
        balance_cons, Int.add_assoc]

theorem offset_of_isClosing {token : Token} (closes : token.isClosing = true) :
    token.offset? = some token.offset := by
  obtain ⟨offset, rfl⟩ := exists_of_isClosing closes
  rfl

theorem exists_of_mem_closingsAtZero {count : Int} {tokens : List Token} {place : Int}
    (member : place ∈ closingsAtZero count tokens) :
    ∃ token ∈ tokens, token.offset? = some place := by
  induction tokens generalizing count with
  | nil => cases member
  | cons token tokens induction =>
      rcases List.mem_append.mp member with here | later
      · split at here
        next met =>
          obtain rfl := List.mem_singleton.mp here
          exact ⟨token, .head _, offset_of_isClosing met.1⟩
        next => cases here
      · obtain ⟨other, inside, begins⟩ := induction later
        exact ⟨other, .tail _ inside, begins⟩

/-- A running count that begins at some number never goes below zero. -/
def StaysUp (count : Int) (tokens : List Token) : Prop :=
  ∀ front, front <+: tokens → 0 ≤ count + balance front

theorem staysUp_nil {count : Int} : StaysUp count [] ↔ 0 ≤ count := by
  simp [StaysUp]

theorem staysUp_cons {count : Int} {token : Token} {tokens : List Token} :
    StaysUp count (token :: tokens) ↔ 0 ≤ count ∧ StaysUp (count + token.rise) tokens := by
  simp only [StaysUp, List.prefix_cons_iff]
  constructor
  · intro up
    refine ⟨by simpa using up [] (.inl rfl), fun front before => ?_⟩
    have later := up (token :: front) (.inr ⟨front, rfl, before⟩)
    rwa [balance_cons, ← Int.add_assoc] at later
  · rintro ⟨nonneg, up⟩ front (rfl | ⟨more, rfl, before⟩)
    · simpa using nonneg
    · rw [balance_cons, ← Int.add_assoc]
      exact up more before

theorem StaysUp.nonneg {count : Int} {tokens : List Token} (up : StaysUp count tokens) :
    0 ≤ count := by
  simpa using up [] (List.nil_prefix ..)

theorem closingsAtZero_eq_nil_iff {count : Int} (nonneg : 0 ≤ count) {tokens : List Token} :
    closingsAtZero count tokens = [] ↔ StaysUp count tokens := by
  induction tokens generalizing count with
  | nil => simp [closingsAtZero, staysUp_nil, nonneg]
  | cons token tokens induction =>
      rw [closingsAtZero, List.append_eq_nil_iff, staysUp_cons]
      by_cases met : token.isClosing = true ∧ count = 0
      · -- The count goes below zero here.
        obtain ⟨offset, rfl⟩ := exists_of_isClosing met.1
        constructor
        · rintro ⟨none_, -⟩
          simp [met] at none_
        · rintro ⟨-, up⟩
          have later := up.nonneg
          rw [met.2] at later
          cases later
      · have later : 0 ≤ count + token.rise := by
          cases token with
          | closing offset =>
              have positive : count ≠ 0 := fun zero => met ⟨rfl, zero⟩
              simp only [rise]
              omega
          | _ =>
              simp only [rise]
              omega
        rw [if_neg met, induction later]
        simp [nonneg]

/-- Tokens that begin one behind the other. -/
def Ascends (tokens : List Token) : Prop :=
  tokens.Pairwise fun first second =>
    ∀ place ∈ first.offset?, ∀ later ∈ second.offset?, place < later

theorem Ascends.head {token : Token} {tokens : List Token}
    (ascends : Ascends (token :: tokens)) :
    ∀ place ∈ token.offset?, ∀ other ∈ tokens, ∀ later ∈ other.offset?, place < later :=
  fun place here other inside later there =>
    (List.pairwise_cons.mp ascends).1 other inside place here later there

/-! ## Flat lists -/

/-- The token, where it does not matter at which offset a closing stands. -/
def forgetClosing : Token → Token
  | closing _ => closing 0
  | token => token

theorem flatten_append (front back : List Token) :
    flatten (front ++ back) = flatten front ++ flatten back := by
  induction front with
  | nil => rfl
  | cons token front induction =>
      rw [List.cons_append, flatten, flatten, induction, List.append_assoc]

theorem flatten_cons_eq_self {token : Token} {tokens : List Token}
    (areFlat : flatten (token :: tokens) = token :: tokens) :
    token.flattenOne = [token] ∧ flatten tokens = tokens := by
  rw [flatten] at areFlat
  cases token with
  | block heading offset children =>
      rw [flattenOne] at areFlat
      cases List.head_eq_of_cons_eq areFlat
  | _ => exact ⟨rfl, List.tail_eq_of_cons_eq areFlat⟩

/-! ## Well-nested lists -/

/-- Every closing closes a block, and every block is closed. -/
structure IsWellNested (tokens : List Token) : Prop where
  closes (front : List Token) (before : front <+: tokens) :
    front.countP isClosing ≤ front.countP isOpening
  closed : tokens.countP isOpening = tokens.countP isClosing

theorem isWellNested_iff {tokens : List Token} :
    IsWellNested tokens ↔ StaysUp 0 tokens ∧ balance tokens = 0 := by
  constructor
  · rintro ⟨closes, closed⟩
    refine ⟨fun front before => ?_, ?_⟩
    · have more := closes front before
      rw [balance_eq]
      omega
    · rw [balance_eq]
      omega
  · rintro ⟨up, level⟩
    refine ⟨fun front before => ?_, ?_⟩
    · have more := up front before
      rw [balance_eq] at more
      omega
    · rw [balance_eq] at level
      omega

end Token

namespace Nesting

open Token (balance StaysUp closingsAtZero)

variable {nesting : Nesting} {token : Token}

/-! ## Matching -/

/-- Whether a token is a closing that finds no open block. -/
def drops (nesting : Nesting) (token : Token) : Bool :=
  token.isClosing && nesting.opened.isEmpty

/-- What one more token makes of a nesting. -/
def feed (nesting : Nesting) : Token → Nesting
  | .closing _ => nesting.close?.getD nesting
  | .opening heading offset => nesting.openBlock heading offset
  | token => nesting.add token

def feedAll (nesting : Nesting) (tokens : List Token) : Nesting :=
  tokens.foldl feed nesting

/-- The offsets of the closings that find no open block. -/
def strays (nesting : Nesting) : List Token → List Int
  | [] => []
  | token :: tokens =>
      (if nesting.drops token then [token.offset] else []) ++ strays (nesting.feed token) tokens

theorem drops_iff :
    nesting.drops token = true ↔ (nesting.opened.length : Int) + token.rise < 0 := by
  obtain ⟨roots, opened⟩ := nesting
  cases token <;> cases opened <;> simp [drops, Token.isClosing, Token.rise] <;> omega

theorem length_opened_add : (nesting.add token).opened.length = nesting.opened.length := by
  obtain ⟨roots, opened⟩ := nesting
  cases opened <;> rfl

theorem length_opened_feed (nesting : Nesting) (token : Token) :
    ((nesting.feed token).opened.length : Int) = max 0 (nesting.opened.length + token.rise) := by
  cases token with
  | closing offset =>
      obtain ⟨roots, opened⟩ := nesting
      cases opened with
      | nil => rfl
      | cons block outer =>
          rw [feed, close?, Option.getD_some, length_opened_add]
          simp only [Token.rise, List.length_cons]
          omega
  | opening heading offset =>
      simp only [feed, openBlock, Token.rise, List.length_cons]
      omega
  | _ =>
      simp only [feed, length_opened_add, Token.rise]
      omega

theorem forest_cons (nesting : Nesting) (token : Token) (tokens : List Token) :
    nesting.forest (token :: tokens) =
      (((nesting.feed token).forest tokens).1,
        (if nesting.drops token then (tokens.head?.map Token.offset).toList else []) ++
          ((nesting.feed token).forest tokens).2) := by
  cases token with
  | closing offset =>
      obtain ⟨roots, opened⟩ := nesting
      cases opened <;> rfl
  | _ => rfl

theorem level_cons (nesting : Nesting) (token : Token) (tokens : List Token) :
    nesting.level (token :: tokens) =
      if nesting.drops token then (nesting.roots, tokens)
      else (nesting.feed token).level tokens := by
  cases token with
  | closing offset =>
      obtain ⟨roots, opened⟩ := nesting
      cases opened <;> rfl
  | _ => rfl

theorem forest_eq_finish (nesting : Nesting) (tokens : List Token) :
    (nesting.forest tokens).1 = (nesting.feedAll tokens).finish := by
  induction tokens generalizing nesting with
  | nil => rfl
  | cons token tokens induction =>
      rw [forest_cons]
      exact induction (nesting.feed token)

theorem forest_of_no_strays {tokens : List Token} (none_ : nesting.strays tokens = []) :
    (nesting.forest tokens).2 = [] := by
  induction tokens generalizing nesting with
  | nil => rfl
  | cons token tokens induction =>
      rw [strays, List.append_eq_nil_iff] at none_
      have kept : nesting.drops token = false := by simpa using none_.1
      rw [forest_cons, induction none_.2, kept]
      rfl

/-- As long as a running count stays up, it is the number of open blocks. -/
theorem strays_of_staysUp (nesting : Nesting) {tokens : List Token}
    (up : StaysUp nesting.opened.length tokens) :
    nesting.strays tokens = [] ∧
      ((nesting.feedAll tokens).opened.length : Int) = nesting.opened.length + balance tokens := by
  induction tokens generalizing nesting with
  | nil => simp [strays, feedAll]
  | cons token tokens induction =>
      obtain ⟨-, up⟩ := Token.staysUp_cons.mp up
      have nonneg := up.nonneg
      have kept : nesting.drops token = false :=
        Bool.eq_false_iff.mpr fun dropped => Int.not_lt.mpr nonneg (drops_iff.mp dropped)
      have opened : ((nesting.feed token).opened.length : Int) =
          nesting.opened.length + token.rise := by
        rw [length_opened_feed]
        omega
      obtain ⟨none_, finally_⟩ := induction (nesting.feed token) (opened ▸ up)
      rw [strays, kept, none_, feedAll, List.foldl_cons, ← feedAll, finally_, opened,
        Token.balance_cons]
      exact ⟨rfl, Int.add_assoc ..⟩

/-! ## Counting beside matching -/

/-- Whether a running count tells the closings that find no open block, and whether a block
is left open. -/
def Tallies (nesting : Nesting) (count : Int) (tokens : List Token) : Prop :=
  closingsAtZero count tokens = nesting.strays tokens ∧
    (0 < count + balance tokens ↔ (nesting.feedAll tokens).opened ≠ [])

theorem exists_of_mem_strays {tokens : List Token} {place : Int}
    (member : place ∈ nesting.strays tokens) : ∃ token ∈ tokens, token.offset? = some place := by
  induction tokens generalizing nesting with
  | nil => cases member
  | cons token tokens induction =>
      rcases List.mem_append.mp member with here | later
      · split at here
        next dropped =>
          obtain rfl := List.mem_singleton.mp here
          exact ⟨token, .head _, Token.offset_of_isClosing (Bool.and_eq_true_iff.mp dropped).1⟩
        next => cases here
      · obtain ⟨other, inside, begins⟩ := induction later
        exact ⟨other, .tail _ inside, begins⟩

theorem optional_append_inj {Item : Type} {first second : Prop} [Decidable first]
    [Decidable second] {item : Item} {front back : List Item} (notFront : item ∉ front)
    (notBack : item ∉ back) :
    (if first then [item] else []) ++ front = (if second then [item] else []) ++ back ↔
      (first ↔ second) ∧ front = back := by
  by_cases inFirst : first <;> by_cases inSecond : second
  · simp [inFirst, inSecond]
  · simp only [if_pos inFirst, if_neg inSecond, List.nil_append, List.singleton_append]
    exact ⟨fun same => absurd (same ▸ List.mem_cons_self) notBack,
      fun ⟨alike, _⟩ => absurd (alike.mp inFirst) inSecond⟩
  · simp only [if_neg inFirst, if_pos inSecond, List.nil_append, List.singleton_append]
    exact ⟨fun same => absurd (same ▸ List.mem_cons_self) notFront,
      fun ⟨alike, _⟩ => absurd (alike.mpr inSecond) inFirst⟩
  · simp [inFirst, inSecond]

theorem tallies_nil {count : Int} :
    nesting.Tallies count [] ↔ (0 < count ↔ 0 < (nesting.opened.length : Int)) := by
  have positive : nesting.opened ≠ [] ↔ 0 < (nesting.opened.length : Int) := by
    rw [← List.length_pos_iff]
    omega
  rw [Tallies, feedAll, List.foldl_nil, positive, closingsAtZero, strays, Token.balance_nil,
    Int.add_zero]
  exact and_iff_right rfl

theorem tallies_cons {count : Int} {tokens : List Token}
    (ascends : ∀ place ∈ token.offset?, ∀ other ∈ tokens, ∀ later ∈ other.offset?, place < later) :
    nesting.Tallies count (token :: tokens) ↔
      (token.isClosing = true ∧ count = 0 ↔ nesting.drops token = true) ∧
        (nesting.feed token).Tallies (count + token.rise) tokens := by
  have apart {places : List Int}
      (among : ∀ place ∈ places, ∃ other ∈ tokens, other.offset? = some place)
      (closes : token.isClosing = true) : token.offset ∉ places := by
    intro member
    obtain ⟨other, inside, begins⟩ := among _ member
    exact Int.lt_irrefl _ (ascends _ (Token.offset_of_isClosing closes) other inside _ begins)
  by_cases closes : token.isClosing = true
  · rw [Tallies, closingsAtZero, strays, optional_append_inj
      (apart (fun _ => Token.exists_of_mem_closingsAtZero) closes)
      (apart (fun _ => exists_of_mem_strays) closes), Tallies, Token.balance_cons,
      ← Int.add_assoc, and_assoc]
    rfl
  · have kept : nesting.drops token = false := by simp [drops, closes]
    rw [Tallies, closingsAtZero, strays, kept, Tallies, Token.balance_cons, ← Int.add_assoc]
    simp [closes, feedAll]

/-- Where so many blocks are open, the closings close inner blocks, and it is not the
outermost block alone that is left open. -/
def KeepsOutermost (opened : Int) : List Token → Prop
  | [] => opened ≠ 1
  | token :: tokens =>
      (token.isClosing = true → 2 ≤ opened) ∧ KeepsOutermost (opened + token.rise) tokens

/-- Where the count is one less than the number of open blocks, it is at zero when the
outermost block is closed. -/
theorem tallies_behind_stray (nesting : Nesting) {tokens : List Token}
    (ascends : Token.Ascends tokens) :
    nesting.Tallies (nesting.opened.length - 1) tokens ↔
      KeepsOutermost nesting.opened.length tokens := by
  induction tokens generalizing nesting with
  | nil =>
      rw [tallies_nil, KeepsOutermost]
      omega
  | cons token tokens induction =>
      have opened := nesting.length_opened_feed token
      have later := induction (nesting.feed token) ascends.of_cons
      rw [tallies_cons ascends.head, KeepsOutermost, drops_iff]
      obtain ⟨closes, falls⟩ | ⟨stays, rises⟩ := token.rise_eq
      · simp only [closes, falls, true_and, forall_const]
        by_cases inner : 2 ≤ (nesting.opened.length : Int)
        · have less : ((nesting.feed token).opened.length : Int) = nesting.opened.length + -1 := by
            omega
          rw [less] at later
          rw [show (nesting.opened.length : Int) - 1 + -1 = nesting.opened.length + -1 - 1 by omega,
            later]
          constructor
          · rintro ⟨-, keeps⟩
            exact ⟨inner, keeps⟩
          · rintro ⟨-, keeps⟩
            exact ⟨by omega, keeps⟩
        · constructor
          · rintro ⟨alike, -⟩
            omega
          · rintro ⟨deep, -⟩
            exact absurd deep inner
      · have more : ((nesting.feed token).opened.length : Int) =
            nesting.opened.length + token.rise := by
          omega
        rw [more] at later
        rw [stays, show (nesting.opened.length : Int) - 1 + token.rise =
          nesting.opened.length + token.rise - 1 by omega, later]
        have above : ¬(nesting.opened.length : Int) + token.rise < 0 := by omega
        simp [above]

theorem tallies_iff (nesting : Nesting) {tokens : List Token} (ascends : Token.Ascends tokens) :
    nesting.Tallies nesting.opened.length tokens ↔ KeepsOutermost 0 (nesting.level tokens).2 := by
  induction tokens generalizing nesting with
  | nil =>
      rw [tallies_nil, level, KeepsOutermost]
      omega
  | cons token tokens induction =>
      have opened := nesting.length_opened_feed token
      have alike : token.isClosing = true ∧ (nesting.opened.length : Int) = 0 ↔
          nesting.drops token = true := by
        rw [drops_iff]
        obtain ⟨closes, falls⟩ | ⟨stays, rises⟩ := token.rise_eq
        · simp only [closes, falls, true_and]
          omega
        · have above : ¬(nesting.opened.length : Int) + token.rise < 0 := by omega
          simp [stays, above]
      rw [tallies_cons ascends.head, level_cons, and_iff_right alike]
      split
      next dropped =>
        have behind := (nesting.feed token).tallies_behind_stray ascends.of_cons
        obtain ⟨closes, outside⟩ := alike.mpr dropped
        obtain ⟨-, falls⟩ | ⟨stays, -⟩ := token.rise_eq
        · have empty : ((nesting.feed token).opened.length : Int) = 0 := by omega
          rw [empty] at behind
          rw [outside, falls]
          exact behind
        · rw [stays] at closes
          cases closes
      next kept =>
        rw [drops_iff] at kept
        have same : ((nesting.feed token).opened.length : Int) =
            nesting.opened.length + token.rise := by
          omega
        rw [← same, induction (nesting.feed token) ascends.of_cons]

end Nesting
end Stylesheet
