import Stylesheet.Proofs.Token.Folding

/-!
# Nesting level by level

A closing without an open block ends a level, and nesting starts again behind it. Nesting
all tokens at once gives the same tree and the same diagnostics as a loop over the levels,
and the diagnostics stand at the tokens behind the closings that close nothing.
-/

namespace Stylesheet

namespace Token

/-- The tokens right behind the closings that close nothing. The last token has none
behind it. -/
def followers (opened : Nat) : List Token → List Token
  | [] => []
  | token :: tokens =>
      (if token.isStray opened then tokens.head?.toList else []) ++
        followers (token.openBehind opened) tokens

end Token

namespace Nesting

open Token (followers)

variable {nesting : Nesting}

theorem forest_strays (nesting : Nesting) (tokens : List Token) :
    (nesting.forest tokens).2 = (followers nesting.opened.length tokens).map Token.offset := by
  induction tokens generalizing nesting with
  | nil => rfl
  | cons token tokens induction =>
      rw [forest_cons, followers, induction, length_opened_feed_eq, drops_eq, List.map_append]
      split
      · cases tokens <;> rfl
      · rfl

/-! ## Tokens in front of the roots -/

/-- The nesting with more tokens in front of its roots. -/
def behind (front : List Token) (nesting : Nesting) : Nesting :=
  { nesting with roots := front ++ nesting.roots }

variable (front : List Token)

theorem add_behind (nesting : Nesting) (token : Token) :
    (nesting.behind front).add token = (nesting.add token).behind front := by
  obtain ⟨roots, opened⟩ := nesting
  cases opened with
  | nil => simp [add, behind]
  | cons block outer => rfl

theorem feed_behind (nesting : Nesting) (token : Token) :
    (nesting.behind front).feed token = (nesting.feed token).behind front := by
  cases token with
  | closing offset =>
      obtain ⟨roots, opened⟩ := nesting
      cases opened with
      | nil => rfl
      | cons block outer => exact add_behind front ⟨roots, outer⟩ block.close
  | opening heading offset => rfl
  | _ => exact add_behind front nesting _

theorem forest_behind (nesting : Nesting) (tokens : List Token) :
    (nesting.behind front).forest tokens =
      (front ++ (nesting.forest tokens).1, (nesting.forest tokens).2) := by
  induction tokens generalizing nesting with
  | nil => simp [forest, finish, behind]
  | cons token tokens induction =>
      rw [forest_cons, forest_cons, feed_behind, induction]
      rfl

/-! ## One level and the rest -/

theorem level_isSuffix (nesting : Nesting) (tokens : List Token) :
    (nesting.level tokens).2 <:+ tokens.tail := by
  induction tokens generalizing nesting with
  | nil => exact List.suffix_refl []
  | cons token tokens induction =>
      rw [level_cons, List.tail_cons]
      split
      · exact List.suffix_refl tokens
      · exact (induction (nesting.feed token)).trans (List.tail_suffix tokens)

/-- Behind the level, nesting starts anew. -/
theorem forest_eq_level (nesting : Nesting) (tokens : List Token) :
    nesting.forest tokens =
      ((nesting.level tokens).1 ++ (forest {} (nesting.level tokens).2).1,
        ((nesting.level tokens).2.head?.map Token.offset).toList ++
          (forest {} (nesting.level tokens).2).2) := by
  induction tokens generalizing nesting with
  | nil => simp [forest, level, finish, closeAll]
  | cons token tokens induction =>
      rw [forest_cons, level_cons]
      split
      next dropped =>
        have alone : nesting = behind nesting.roots {} := by
          obtain ⟨roots, opened⟩ := nesting
          have none_ : opened = [] := by
            simpa using (Bool.and_eq_true_iff.mp dropped).2
          simp [behind, none_]
        have anew := forest_behind nesting.roots {} tokens
        rw [← alone] at anew
        rw [feed_of_drops dropped, anew]
      next => exact induction (nesting.feed token)

end Nesting

namespace Token

/-- A level that begins in front of a token ends behind it. -/
theorem exists_nestLevel? {tokens : List Token} {start : Nat} (within : start ≤ tokens.length) :
    ∃ stop : Nat,
      nestLevel? tokens start = some ((Nesting.level {} (tokens.drop start)).1, (stop : Int)) ∧
        tokens.drop stop = (Nesting.level {} (tokens.drop start)).2 ∧
        stop ≤ tokens.length ∧ (start < tokens.length → start < stop) := by
  have nonneg : ¬(start : Int) < -(tokens.length : Int) := by omega
  have rest := Nesting.level_isSuffix {} (tokens.drop start)
  have shorter := rest.length_le
  rw [List.length_tail] at shorter
  refine ⟨start + ((tokens.drop start).length - (Nesting.level {} (tokens.drop start)).2.length),
    ?_, ?_, ?_, ?_⟩
  · rw [nestLevel?, if_neg nonneg, entriesFrom_natCast, Int.natCast_add]
  · rw [← List.drop_drop]
    exact (List.suffix_iff_eq_drop.mp (rest.trans (List.tail_suffix _))).symm
  · rw [List.length_drop]
    omega
  · intro before
    rw [List.length_drop] at shorter ⊢
    omega

/-- The levels from an index on, and a diagnostic for every level that ends in front of a
token. -/
def levelsFrom (ignoreErrors : Bool) (source : Text) (tokens : List Token) (start : Nat) :
    List Token × List Diagnostic :=
  if inside : start < tokens.length then
    let report := Diagnostic.ofFault .unmatchedBlockEnd source tokens[start].offset
    match found : nestLevel? tokens start with
    | some (nested, stop) =>
        let (later, reports) := levelsFrom ignoreErrors source tokens stop.toNat
        (nested ++ later, if ignoreErrors then reports else report :: reports)
    | none => ([], [])
  else ([], [])
termination_by tokens.length - start
decreasing_by
  obtain ⟨next, level, -, -, progress⟩ := exists_nestLevel? (Nat.le_of_lt inside)
  have same := Option.some.inj (found.symm.trans level)
  have further := progress inside
  rw [Prod.mk.injEq] at same
  omega

/-- The tokens in tree form, nested level by level, with the diagnostics. -/
def nestByLevels (ignoreErrors : Bool) (source : Text) (tokens : List Token) :
    List Token × List Diagnostic :=
  match nestLevel? tokens 0 with
  | some (nested, stop) =>
      let (later, reports) := levelsFrom ignoreErrors source tokens stop.toNat
      (nested ++ later, reports)
  | none => ([], [])

/-- The levels from an index on are those behind a closing that closes nothing. -/
theorem levelsFrom_eq (ignoreErrors : Bool) (source : Text) (tokens : List Token) (start : Nat) :
    levelsFrom ignoreErrors source tokens start =
      (nest (closing 0 :: tokens.drop start),
        strayClosings ignoreErrors source (closing 0 :: tokens.drop start)) := by
  have anew (rest : List Token) :
      Nesting.forest {} (closing 0 :: rest) =
        ((Nesting.forest {} rest).1,
          (rest.head?.map offset).toList ++ (Nesting.forest {} rest).2) := rfl
  rw [levelsFrom, nest, strayClosings, anew]
  split
  next inside =>
    obtain ⟨stop, level, rest, -, progress⟩ := exists_nestLevel? (Nat.le_of_lt inside)
    have further := progress inside
    have later := levelsFrom_eq ignoreErrors source tokens stop
    rw [nest, strayClosings, anew, rest] at later
    have whole := Nesting.forest_eq_level {} (tokens.drop start)
    have first : (tokens.drop start).head? = some tokens[start] := by
      rw [List.head?_drop, List.getElem?_eq_getElem inside]
    split
    next nested next_ found =>
      obtain ⟨rfl, rfl⟩ := Prod.mk.inj (Option.some.inj (level.symm.trans found))
      rw [Int.toNat_natCast, later, whole, first]
      cases ignoreErrors <;> rfl
    next none_ =>
      rw [level] at none_
      cases none_
  next outside =>
    rw [List.drop_eq_nil_of_le (Nat.le_of_not_lt outside)]
    cases ignoreErrors <;> rfl
termination_by tokens.length - start

theorem nestByLevels_eq (ignoreErrors : Bool) (source : Text) (tokens : List Token) :
    nestByLevels ignoreErrors source tokens =
      (nest tokens, strayClosings ignoreErrors source tokens) := by
  obtain ⟨stop, level, rest, -, -⟩ := exists_nestLevel? (Nat.zero_le tokens.length)
  have whole := Nesting.forest_eq_level {} tokens
  rw [List.drop_zero] at level rest
  rw [nestByLevels]
  split
  next nested next_ found =>
    obtain ⟨rfl, rfl⟩ := Prod.mk.inj (Option.some.inj (level.symm.trans found))
    rw [Int.toNat_natCast, levelsFrom_eq, rest, nest, strayClosings, nest, strayClosings, whole]
    rfl
  next none_ =>
    rw [Int.natCast_zero, none_] at level
    cases level

/-- A closing that closes nothing is reported at the token behind it, and the last token has
none behind it. A loop over the levels gives these diagnostics and the same tree, whether or
not errors are ignored, and it ends, as every level ends behind the token where it began. -/
theorem strayClosings_eq (source : Text) (tokens : List Token) :
    strayClosings false source tokens =
        (followers 0 tokens).map (fun token =>
          ⟨.unmatchedBlockEnd, "Unmatched \x7d".toList, some token.offset,
            some (lineNumber source token.offset)⟩) ∧
      strayClosings true source tokens = [] ∧
      (∀ ignoreErrors, nestByLevels ignoreErrors source tokens =
        (nest tokens, strayClosings ignoreErrors source tokens)) ∧
      ∀ start < tokens.length, ∃ nested, ∃ stop : Nat,
        nestLevel? tokens start = some (nested, (stop : Int)) ∧
          start < stop ∧ stop ≤ tokens.length := by
  refine ⟨?_, rfl, fun ignoreErrors => nestByLevels_eq ignoreErrors source tokens, ?_⟩
  · rw [strayClosings, Nesting.forest_strays]
    exact List.map_map
  · intro start before
    obtain ⟨stop, level, -, within, progress⟩ := exists_nestLevel? (Nat.le_of_lt before)
    exact ⟨_, stop, level, progress before, within⟩

/-- Closings that close nothing can stand side by side, and the last token is not reported. -/
theorem strayClosings_side_by_side :
    let heading : Heading := ⟨['a'], some [['a']], none⟩
    let tokens := [closing 0, closing 1, opening heading 2, closing 5, closing 6,
      code ['b', ';'] 7 false, closing 9]
    (strayClosings false [] tokens).map (·.offset) = [some 1, some 2, some 7] := by
  intro heading tokens
  rw [(strayClosings_eq [] tokens).1]
  rfl

end Token
end Stylesheet
