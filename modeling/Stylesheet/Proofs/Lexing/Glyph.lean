import Stylesheet.Proofs.Literal.Url
import Stylesheet.Proofs.Marker.Front

/-!
# Glyphs

In plain stylesheets without comments, every character of a source is plain text, part
of a literal that is never looked into, or a boundary of a statement or block. This is
settled from left to right, one unit at a time. A backslash takes the next character
along, whatever it is; a text that ends with such a backslash is left open.
-/

namespace Stylesheet

/-- A character together with what it is read as. -/
inductive Glyph
  | text (character : Char)
  | literal (character : Char)
  | boundary (character : Char)
  deriving DecidableEq

namespace Glyph

def character : Glyph → Char
  | text character => character
  | literal character => character
  | boundary character => character

/-- The characters that end a statement, open a block or close one. -/
def boundaries : List Char := [';', '\x7b', '\x7d']

end Glyph

/-! ## Literals -/

/-- How many characters the string or url at the head of a text has. -/
def literalReach? (text : Text) : Option Nat :=
  match Marker.front? false text with
  | some (.quote quote) => (Quoted.reach? quote.character (text.drop 1)).map (· + 1)
  | some .url => Url.reach? text
  | _ => none

/-- The characters that literals begin and end with. -/
def literalEnds : List Char := ['"', '\'', 'u', 'U', ')']

/-- The characters that a literal may end with. -/
def literalLasts : List Char := ['"', '\'', ')']

theorem eq_cons_of_front?_quote {quote : Quote} {text : Text}
    (found : Marker.front? false text = some (.quote quote)) :
    ∃ rest, text = quote.character :: rest := by
  have occurs := (Marker.front?_eq_some_iff.mp found).2
  obtain ⟨rest, split⟩ := Marker.isPrefix_of_occursHere occurs (by intro same; cases same)
  exact ⟨rest, split.symm⟩

theorem character_mem_literalEnds (quote : Quote) : quote.character ∈ literalEnds := by
  cases quote <;> decide

theorem character_mem_literalLasts (quote : Quote) : quote.character ∈ literalLasts := by
  cases quote <;> decide

theorem visible_of_mem_literalEnds {character : Char} (isEnd : character ∈ literalEnds) :
    Text.isBlank character = false := by
  revert character
  decide

theorem visible_of_mem_literalLasts {character : Char} (isLast : character ∈ literalLasts) :
    Text.isBlank character = false := by
  revert character
  decide

theorem eq_url_letter {character : Char} (folded : Marker.foldCase character = 'u') :
    character ∈ literalEnds := by
  by_cases capital : 'A' ≤ character ∧ character ≤ 'Z'
  · have bounds := Marker.bounds_of_capital capital
    have table : ∀ code < 91, 65 ≤ code → Marker.foldCase (Char.ofNat code) = 'u' →
        Char.ofNat code ∈ literalEnds := by decide
    have inTable := table character.toNat (by omega) bounds.1
    rw [Char.ofNat_toNat] at inTable
    exact inTable folded
  · rw [Marker.foldCase_eq_self capital] at folded
    rw [folded]
    decide

theorem ends_of_literalReach? {text : Text} {count : Nat}
    (reached : literalReach? text = some count) :
    (∃ first ∈ literalEnds, text.head? = some first) ∧
      ∃ last ∈ literalLasts, text.EndsAt count last := by
  unfold literalReach? at reached
  split at reached
  next quote found =>
    obtain ⟨rest, rfl⟩ := eq_cons_of_front?_quote found
    obtain ⟨inner, foundInner, rfl⟩ := Option.map_eq_some_iff.mp reached
    have ends := Quoted.endsAt_of_reach? foundInner
    exact ⟨⟨_, character_mem_literalEnds quote, rfl⟩,
      _, character_mem_literalLasts quote, ends.cons quote.character⟩
  next found =>
    obtain ⟨-, ends⟩ := Url.endsAt_of_reach? reached
    refine ⟨?_, _, by decide, ends⟩
    have occurs := (Marker.front?_eq_some_iff.mp found).2
    obtain ⟨later, split⟩ := Marker.occursHere_iff.mp occurs
    cases text with
    | nil => cases split
    | cons first rest =>
        rw [List.map_cons] at split
        exact ⟨first, eq_url_letter (List.cons.inj split).1.symm, rfl⟩
  next => cases reached

theorem pos_of_literalReach? {text : Text} {count : Nat}
    (reached : literalReach? text = some count) : 0 < count := by
  obtain ⟨-, last, -, ends⟩ := ends_of_literalReach? reached
  exact ends.1

theorem le_length_of_literalReach? {text : Text} {count : Nat}
    (reached : literalReach? text = some count) : count ≤ text.length := by
  obtain ⟨-, last, -, ends⟩ := ends_of_literalReach? reached
  exact ends.le_length

theorem getLast?_of_literal {text : Text} (isLiteral : literalReach? text = some text.length) :
    ∃ last ∈ literalLasts, text.getLast? = some last := by
  obtain ⟨-, last, isLast, ends⟩ := ends_of_literalReach? isLiteral
  exact ⟨last, isLast, ends.getLast?⟩

/-- How far a literal reaches depends on the literal alone. -/
theorem literalReach?_of_isPrefix {text other : Text} {count : Nat}
    (reached : literalReach? text = some count) (same : text.take count <+: other) :
    literalReach? other = some count := by
  have frontOf {marker : Marker} (found : Marker.front? false text = some marker)
      (fits : marker.spelling.length ≤ count) : Marker.front? false other = some marker := by
    have occurs := Marker.front?_eq_some_iff.mp found
    obtain ⟨later, rfl⟩ := same
    apply Marker.front?_append_of_eq_some
    refine Marker.front?_eq_some_iff.mpr ⟨occurs.1, ?_⟩
    have whole := occurs.2
    rw [← List.take_append_drop count text] at whole
    have inside := Marker.length_le_of_occursHere occurs.2
    exact Marker.occursHere_of_append whole (by rw [List.length_take]; omega)
  unfold literalReach? at reached ⊢
  split at reached
  next quote found =>
    obtain ⟨inner, foundInner, rfl⟩ := Option.map_eq_some_iff.mp reached
    have sameInner : (text.drop 1).take inner <+: other.drop 1 := by
      have dropped := Text.drop_isPrefix_drop same 1
      rwa [List.drop_take, Nat.add_sub_cancel] at dropped
    rw [frontOf found (by simp [Marker.spelling])]
    dsimp only
    rw [Quoted.reach?_of_isPrefix foundInner sameInner, Option.map_some]
  next found =>
    have positive := (Url.endsAt_of_reach? reached).1
    rw [frontOf found (by simp only [Marker.spelling, List.length_cons, List.length_nil]; omega)]
    exact Url.reach?_of_isPrefix reached same
  next => cases reached

/-! ## Lexing -/

/-- A text, the glyphs that it is read as, and whether its last backslash is open. -/
inductive Lexed : Text → List Glyph → Bool → Prop
  | nil : Lexed [] [] false
  | dangling : Lexed ['\\'] [.text '\\'] true
  | plain {character : Char} {rest : Text} {glyphs : List Glyph} {isOpen : Bool}
      (noMarker : Marker.front? false (character :: rest) = none)
      (behind : Lexed rest glyphs isOpen) :
      Lexed (character :: rest) (.text character :: glyphs) isOpen
  | escape (character : Char) {rest : Text} {glyphs : List Glyph} {isOpen : Bool}
      (behind : Lexed rest glyphs isOpen) :
      Lexed ('\\' :: character :: rest) (.text '\\' :: .text character :: glyphs) isOpen
  | boundary {character : Char} {rest : Text} {glyphs : List Glyph} {isOpen : Bool}
      (isBoundary : character ∈ Glyph.boundaries) (behind : Lexed rest glyphs isOpen) :
      Lexed (character :: rest) (.boundary character :: glyphs) isOpen
  | literal {text rest : Text} {glyphs : List Glyph} {isOpen : Bool}
      (isLiteral : literalReach? text = some text.length)
      (behind : Lexed rest glyphs isOpen) :
      Lexed (text ++ rest) (text.map .literal ++ glyphs) isOpen

namespace Lexed

variable {first second text : Text} {glyphs others : List Glyph} {isOpen : Bool}

theorem map_character (lexed : Lexed text glyphs isOpen) :
    glyphs.map Glyph.character = text := by
  induction lexed with
  | nil => rfl
  | dangling => rfl
  | plain noMarker behind induction => rw [List.map_cons, induction]; rfl
  | escape character behind induction => rw [List.map_cons, List.map_cons, induction]; rfl
  | boundary isBoundary behind induction => rw [List.map_cons, induction]; rfl
  | @literal text _ _ _ isLiteral behind induction =>
      have same : text.map (Glyph.character ∘ Glyph.literal) = text := List.map_id _
      rw [List.map_append, List.map_map, induction, same]

/-! ### Putting texts together -/

/-- A closed text may be followed by any text that begins inertly. -/
theorem append (before : Lexed first glyphs false) (behind : Lexed second others isOpen)
    (isInert : ∀ head ∈ second.head?, Marker.inert head = true) :
    Lexed (first ++ second) (glyphs ++ others) isOpen := by
  generalize closed : false = wasOpen at before
  induction before with
  | nil => exact behind
  | dangling => cases closed
  | plain noMarker _ induction =>
      exact .plain (Marker.front?_append_eq_none noMarker isInert) (induction closed)
  | escape character _ induction => exact .escape character (induction closed)
  | boundary isBoundary _ induction => exact .boundary isBoundary (induction closed)
  | literal isLiteral _ induction =>
      rw [List.append_assoc, List.append_assoc]
      exact .literal isLiteral (induction closed)

theorem exists_of_open (lexed : Lexed text glyphs true) :
    ∃ before known, text = before ++ ['\\'] ∧ glyphs = known ++ [.text '\\'] ∧
      Lexed before known false := by
  generalize opened : true = isOpen at lexed
  induction lexed with
  | nil => cases opened
  | dangling => exact ⟨[], [], rfl, rfl, .nil⟩
  | @plain character rest _ _ noMarker _ induction =>
      obtain ⟨before, known, rfl, rfl, lexed⟩ := induction opened
      rw [← List.cons_append] at noMarker
      exact ⟨character :: before, .text character :: known, rfl, rfl,
        .plain (Marker.front?_eq_none_of_append noMarker) lexed⟩
  | escape character _ induction =>
      obtain ⟨before, known, rfl, rfl, lexed⟩ := induction opened
      exact ⟨_, _, rfl, rfl, .escape character lexed⟩
  | boundary isBoundary _ induction =>
      obtain ⟨before, known, rfl, rfl, lexed⟩ := induction opened
      exact ⟨_, _, rfl, rfl, .boundary isBoundary lexed⟩
  | literal isLiteral _ induction =>
      obtain ⟨before, known, rfl, rfl, lexed⟩ := induction opened
      exact ⟨_, _, (List.append_assoc ..).symm, (List.append_assoc ..).symm,
        .literal isLiteral lexed⟩

theorem inert_backslash : Marker.inert '\\' = true := by decide

theorem append_open (before : Lexed first glyphs true) (character : Char)
    (behind : Lexed second others isOpen) :
    Lexed (first ++ character :: second) (glyphs ++ .text character :: others) isOpen := by
  obtain ⟨closed, known, rfl, rfl, lexed⟩ := exists_of_open before
  have whole := lexed.append (Lexed.escape character behind)
    (by rintro head ⟨⟩; exact inert_backslash)
  simpa using whole

theorem append_plain {wasOpen : Bool} (before : Lexed first glyphs wasOpen)
    {character : Char} (noMarker : Marker.front? false (character :: second) = none)
    (isInert : Marker.inert character = true) (behind : Lexed second others isOpen) :
    Lexed (first ++ character :: second) (glyphs ++ .text character :: others) isOpen := by
  cases wasOpen with
  | true => exact before.append_open character behind
  | false => exact before.append (.plain noMarker behind) (by rintro head ⟨⟩; exact isInert)

theorem inert_of_mem_boundaries {character : Char} (isBoundary : character ∈ Glyph.boundaries) :
    Marker.inert character = true := by
  revert character
  decide

theorem append_boundary (before : Lexed first glyphs false) {character : Char}
    (isBoundary : character ∈ Glyph.boundaries) (behind : Lexed second others isOpen) :
    Lexed (first ++ character :: second) (glyphs ++ .boundary character :: others) isOpen :=
  before.append (.boundary isBoundary behind)
    (by rintro head ⟨⟩; exact inert_of_mem_boundaries isBoundary)

theorem blank_append (blank : Text.Blank first) (behind : Lexed second others isOpen) :
    Lexed (first ++ second) (first.map .text ++ others) isOpen := by
  induction first with
  | nil => exact behind
  | cons character rest induction =>
      exact .plain (Marker.front?_eq_none_of_isBlank blank.head) (induction blank.tail)

/-! ### Cutting texts -/

/-- A text may be cut at a glyph that is in no literal. The glyph is left out. Unless it is
a backslash, what follows is read as before. -/
theorem cutAt {before : List Glyph} {glyph : Glyph} {behind : List Glyph}
    (noLiteral : ∀ character, glyph ≠ .literal character)
    (lexed : Lexed text (before ++ glyph :: behind) isOpen) :
    ∃ front back wasOpen, text = front ++ glyph.character :: back ∧ Lexed front before wasOpen ∧
      (glyph ≠ .text '\\' → Lexed back behind isOpen) ∧
      ∀ character, glyph = .boundary character →
        character ∈ Glyph.boundaries ∧ wasOpen = false := by
  generalize whole : before ++ glyph :: behind = glyphs at lexed
  induction lexed generalizing before with
  | nil => simp at whole
  | dangling =>
      cases before with
      | nil =>
          cases whole
          exact ⟨[], [], false, rfl, .nil, fun different => absurd rfl different, by simp⟩
      | cons first before => simp at whole
  | @plain head rest _ _ noMarker later induction =>
      cases before with
      | nil =>
          cases whole
          exact ⟨[], rest, false, rfl, .nil, fun _ => later, by simp⟩
      | cons first before =>
          obtain ⟨rfl, tail⟩ := List.cons.inj whole
          obtain ⟨front, back, wasOpen, rfl, lexed, further⟩ := induction tail
          rw [← List.cons_append] at noMarker
          exact ⟨head :: front, back, wasOpen, rfl,
            .plain (Marker.front?_eq_none_of_append noMarker) lexed, further⟩
  | @escape head rest _ _ later induction =>
      cases before with
      | nil =>
          cases whole
          exact ⟨[], head :: rest, false, rfl, .nil, fun different => absurd rfl different,
            by simp⟩
      | cons first before =>
          obtain ⟨rfl, tail⟩ := List.cons.inj whole
          cases before with
          | nil =>
              cases tail
              exact ⟨['\\'], rest, true, rfl, .dangling, fun _ => later, by simp⟩
          | cons next before =>
              obtain ⟨rfl, inner⟩ := List.cons.inj tail
              obtain ⟨front, back, wasOpen, rfl, lexed, further⟩ := induction inner
              exact ⟨_, back, wasOpen, rfl, .escape head lexed, further⟩
  | @boundary head rest _ _ isBoundary later induction =>
      cases before with
      | nil =>
          cases whole
          refine ⟨[], rest, false, rfl, .nil, fun _ => later, ?_⟩
          rintro character ⟨⟩
          exact ⟨isBoundary, rfl⟩
      | cons first before =>
          obtain ⟨rfl, tail⟩ := List.cons.inj whole
          obtain ⟨front, back, wasOpen, rfl, lexed, further⟩ := induction tail
          exact ⟨_, back, wasOpen, rfl, .boundary isBoundary lexed, further⟩
  | @literal found rest glyphs _ isLiteral later induction =>
      rcases List.append_eq_append_iff.mp whole with ⟨more, split, tail⟩ | ⟨more, rfl, tail⟩
      · cases more with
        | nil =>
            rw [List.append_nil] at split
            have here : [] ++ glyph :: behind = glyphs := tail
            obtain ⟨front, back, wasOpen, rfl, lexed, further⟩ := induction here
            have known := Lexed.literal isLiteral lexed
            rw [List.append_nil, split] at known
            exact ⟨_, back, wasOpen, (List.append_assoc ..).symm, known, further⟩
        | cons other more =>
            obtain ⟨rfl, -⟩ := List.cons.inj tail
            have member : glyph ∈ found.map Glyph.literal := by
              rw [split]
              exact List.mem_append_right _ List.mem_cons_self
            obtain ⟨character, -, same⟩ := List.mem_map.mp member
            exact absurd same.symm (noLiteral character)
      · obtain ⟨front, back, wasOpen, rfl, lexed, further⟩ := induction tail.symm
        exact ⟨_, back, wasOpen, (List.append_assoc ..).symm, .literal isLiteral lexed, further⟩

theorem cut {before : List Glyph} {character : Char} {behind : List Glyph}
    (lexed : Lexed text (before ++ .text character :: behind) isOpen) :
    ∃ front back wasOpen, text = front ++ character :: back ∧ Lexed front before wasOpen ∧
      (character ≠ '\\' → Lexed back behind isOpen) := by
  obtain ⟨front, back, wasOpen, split, earlier, later, -⟩ := cutAt (by simp) lexed
  exact ⟨front, back, wasOpen, split, earlier, fun different => later (by simpa using different)⟩

theorem cut_boundary {before : List Glyph} {character : Char} {behind : List Glyph}
    (lexed : Lexed text (before ++ .boundary character :: behind) isOpen) :
    ∃ front back, text = front ++ character :: back ∧ character ∈ Glyph.boundaries ∧
      Lexed front before false ∧ Lexed back behind isOpen := by
  obtain ⟨front, back, wasOpen, split, earlier, later, boundary⟩ := cutAt (by simp) lexed
  obtain ⟨isBoundary, rfl⟩ := boundary character rfl
  exact ⟨front, back, split, isBoundary, earlier, later (by simp)⟩

/-! ### Blanks at the ends -/

theorem of_cons_blank {character : Char} (blank : Text.isBlank character = true)
    (lexed : Lexed (character :: text) glyphs isOpen) :
    ∃ known, glyphs = .text character :: known ∧ Lexed text known isOpen := by
  generalize whole : character :: text = source at lexed
  cases lexed with
  | nil => cases whole
  | dangling =>
      obtain ⟨rfl, -⟩ := List.cons.inj whole
      cases blank
  | plain noMarker behind =>
      obtain ⟨rfl, rfl⟩ := List.cons.inj whole
      exact ⟨_, rfl, behind⟩
  | escape other behind =>
      obtain ⟨rfl, -⟩ := List.cons.inj whole
      cases blank
  | boundary isBoundary behind =>
      obtain ⟨rfl, -⟩ := List.cons.inj whole
      have visible : ∀ other ∈ Glyph.boundaries, Text.isBlank other = false := by decide
      rw [visible character isBoundary] at blank
      cases blank
  | @literal found rest _ _ isLiteral behind =>
      obtain ⟨⟨first, isEnd, head⟩, -⟩ := ends_of_literalReach? isLiteral
      cases found with
      | nil => cases head
      | cons other found =>
          obtain ⟨rfl, -⟩ := List.cons.inj whole
          cases head
          rw [visible_of_mem_literalEnds isEnd] at blank
          cases blank

theorem getLast?_cons_eq_some {Entry : Type} {head last : Entry} {tail : List Entry}
    (found : (head :: tail).getLast? = some last) :
    tail = [] ∧ last = head ∨ tail.getLast? = some last := by
  rw [List.getLast?_cons] at found
  cases tailLast : tail.getLast? with
  | none =>
      rw [tailLast] at found
      cases found
      exact Or.inl ⟨List.getLast?_eq_none_iff.mp tailLast, rfl⟩
  | some other =>
      rw [tailLast] at found
      cases found
      exact Or.inr rfl

/-- Literals and boundaries are visible, so a blank at the back is text. -/
theorem eq_text_of_getLast? (lexed : Lexed text glyphs isOpen) {glyph : Glyph}
    (last : glyphs.getLast? = some glyph) (blank : Text.isBlank glyph.character = true) :
    glyph = .text glyph.character := by
  induction lexed with
  | nil => cases last
  | dangling =>
      cases last
      rfl
  | plain noMarker behind induction =>
      rcases getLast?_cons_eq_some last with ⟨-, rfl⟩ | last
      · rfl
      · exact induction last
  | escape character behind induction =>
      rcases getLast?_cons_eq_some last with ⟨nothing, -⟩ | last
      · cases nothing
      · rcases getLast?_cons_eq_some last with ⟨-, rfl⟩ | last
        · rfl
        · exact induction last
  | boundary isBoundary behind induction =>
      rcases getLast?_cons_eq_some last with ⟨-, rfl⟩ | last
      · have visible : ∀ other ∈ Glyph.boundaries, Text.isBlank other = false := by decide
        rw [Glyph.character, visible _ isBoundary] at blank
        cases blank
      · exact induction last
  | @literal found _ glyphs _ isLiteral behind induction =>
      rw [List.getLast?_append] at last
      cases later : glyphs.getLast? with
      | some other =>
          rw [later] at last
          cases last
          exact induction later
      | none =>
          obtain ⟨final, isLast, ends⟩ := getLast?_of_literal isLiteral
          rw [later, List.getLast?_map, ends] at last
          cases last
          rw [Glyph.character, visible_of_mem_literalLasts isLast] at blank
          cases blank

/-- A blank at the back may be dropped; a backslash before it is left open. -/
theorem of_append_blank {character : Char} (blank : Text.isBlank character = true)
    (lexed : Lexed (text ++ [character]) glyphs isOpen) :
    ∃ known wasOpen, glyphs = known ++ [.text character] ∧ Lexed text known wasOpen := by
  have characters := lexed.map_character
  obtain ⟨known, glyph, rfl⟩ : ∃ known glyph, glyphs = known ++ [glyph] := by
    rcases List.eq_nil_or_concat glyphs with rfl | ⟨known, glyph, rfl⟩
    · simp at characters
    · exact ⟨known, glyph, List.concat_eq_append⟩
  rw [List.map_append] at characters
  obtain ⟨-, last⟩ := List.append_inj' characters rfl
  have same : glyph.character = character := (List.cons.inj last).1
  have isText := lexed.eq_text_of_getLast? List.getLast?_concat (same ▸ blank)
  rw [same] at isText
  subst isText
  obtain ⟨front, back, wasOpen, split, before, further⟩ := lexed.cut
  obtain rfl : back = [] := (further (by rintro rfl; cases blank)).map_character.symm
  obtain ⟨rfl, -⟩ := List.append_inj' split rfl
  exact ⟨known, wasOpen, rfl, before⟩

theorem of_blank_append {front inner : Text} (blank : Text.Blank front)
    (lexed : Lexed (front ++ inner) glyphs isOpen) :
    ∃ known, glyphs = front.map .text ++ known ∧ Lexed inner known isOpen := by
  induction front generalizing glyphs with
  | nil => exact ⟨glyphs, rfl, lexed⟩
  | cons character front induction =>
      obtain ⟨rest, rfl, later⟩ := of_cons_blank blank.head lexed
      obtain ⟨known, rfl, inside⟩ := induction blank.tail later
      exact ⟨known, rfl, inside⟩

theorem trim (lexed : Lexed text glyphs isOpen) :
    ∃ front known back wasOpen, glyphs = front.map .text ++ known ++ back.map .text ∧
      Text.Blank front ∧ Text.Blank back ∧ Lexed text.trim known wasOpen := by
  have dropBack {back inner : Text} {glyphs : List Glyph} (blank : Text.Blank back)
      {isOpen : Bool} (lexed : Lexed (inner ++ back) glyphs isOpen) :
      ∃ known wasOpen, glyphs = known ++ back.map .text ∧ Lexed inner known wasOpen := by
    induction back generalizing inner glyphs with
    | nil =>
        rw [List.append_nil] at lexed
        exact ⟨glyphs, isOpen, (List.append_nil _).symm, lexed⟩
    | cons character back induction =>
        have later : Lexed ((inner ++ [character]) ++ back) glyphs isOpen := by
          rwa [List.append_assoc]
        obtain ⟨rest, wasOpen, rfl, before⟩ := induction blank.tail later
        obtain ⟨known, earlier, rfl, inside⟩ := of_append_blank blank.head before
        exact ⟨known, earlier, by simp, inside⟩
  obtain ⟨front, back, frontBlank, backBlank, split⟩ := Text.exists_append_trim_append text
  rw [split] at lexed
  obtain ⟨rest, rfl, later⟩ := of_blank_append frontBlank lexed
  obtain ⟨known, wasOpen, rfl, inside⟩ := dropBack backBlank later
  exact ⟨front, known, back, wasOpen, (List.append_assoc ..).symm, frontBlank, backBlank, inside⟩

end Lexed

end Stylesheet
