import Stylesheet.Proofs.Literal.Quoted
import Stylesheet.Url

/-!
# Urls, read one character at a time

How far a url reaches is read off its own characters: the blanks, then either a
string and everything up to the next parenthesis, or an address. The search for
the end of a url agrees with that.
-/

namespace Stylesheet

namespace Url

/-- How many characters an unquoted address has, its closing parenthesis included. -/
def addressReach? : Text → Option Nat
  | [] => none
  | character :: rest =>
      if character = ')' then some 1
      else if isForbidden character then none
      else (addressReach? rest).map (· + 1)

/-- How many characters a url has behind a quote that opens its address. -/
def quotedReach? (quote : Quote) (text : Text) : Option Nat :=
  (Quoted.reach? quote.character text).bind fun string =>
    (Text.parenReach? (text.drop string)).map (string + ·)

/-- How many characters a url has behind its opening parenthesis. -/
def contentReach? : Text → Option Nat
  | [] => none
  | character :: rest =>
      if isBlank character then (contentReach? rest).map (· + 1)
      else match Quote.ofCharacter? character with
        | some quote => (quotedReach? quote rest).map (· + 1)
        | none => addressReach? (character :: rest)

/-- How many characters the url at the head of a text has. -/
def reach? (text : Text) : Option Nat :=
  (contentReach? (text.drop 4)).map (4 + ·)

theorem character_ne_backslash (quote : Quote) : quote.character ≠ '\\' := by
  cases quote <;> decide

theorem unquotedEnd_eq_ok_iff {offset stop : Int} {text : Text} :
    unquotedEnd offset text = .ok stop ↔
      ∃ count, addressReach? text = some count ∧ stop = offset + (count : Int) := by
  induction text generalizing offset with
  | nil => simp [unquotedEnd, addressReach?]
  | cons character rest induction =>
      rw [unquotedEnd, addressReach?]
      split
      · simp [eq_comm]
      split
      · simp
      · rw [induction]
        simp only [Option.map_eq_some_iff]
        constructor
        · rintro ⟨count, reached, rfl⟩
          exact ⟨count + 1, ⟨count, reached, rfl⟩, by push_cast; omega⟩
        · rintro ⟨_, ⟨count, reached, rfl⟩, rfl⟩
          exact ⟨count, reached, by push_cast; omega⟩

theorem addressReach?_eq_none_of_unquotedEnd {offset : Int} {text : Text} {fault : Fault}
    (fails : unquotedEnd offset text = .error fault) : addressReach? text = none := by
  cases reached : addressReach? text with
  | none => rfl
  | some count =>
      rw [unquotedEnd_eq_ok_iff.mpr ⟨count, reached, rfl⟩] at fails
      cases fails

/-- What counts is what stands behind the blanks. -/
theorem contentReach?_eq (text : Text) :
    contentReach? text =
      match text.dropWhile isBlank with
      | [] => none
      | character :: rest =>
          (match Quote.ofCharacter? character with
            | some quote => (quotedReach? quote rest).map (· + 1)
            | none => addressReach? (character :: rest)).map
              ((text.takeWhile isBlank).length + ·) := by
  induction text with
  | nil => rfl
  | cons head tail induction =>
      by_cases blank : isBlank head = true
      · rw [contentReach?, if_pos blank, induction, List.dropWhile_cons_of_pos blank,
          List.takeWhile_cons_of_pos blank, List.length_cons]
        cases tail.dropWhile isBlank with
        | nil => rfl
        | cons character rest =>
            dsimp only
            rw [Option.map_map]
            congr 1
            funext count
            simp only [Function.comp_apply]
            omega
      · rw [contentReach?, if_neg blank, List.dropWhile_cons_of_neg blank,
          List.takeWhile_cons_of_neg blank]
        simp

theorem findFrom?_paren_natCast (source : Text) (place : Nat) :
    (Text.findFrom? [')'] source place).map (· + 1) =
      (Text.parenReach? (source.drop place)).map (place + ·) := by
  rw [Text.findFrom?, place_natCast, ← Text.find?_paren, Option.map_map, Option.map_map]
  rfl

/-- What the search for the end of a url comes to, where the given text stands behind the
opening parenthesis. -/
inductive FindsEnd (start : Nat) (content : Text) : Except (Fault × Int) Int → Prop
  | nothing (blank : content.dropWhile isBlank = []) :
      FindsEnd start content (.error (.openUrl, (start : Int)))
  | badAddress {character : Char} {rest : Text} {fault : Fault}
      (begins : content.dropWhile isBlank = character :: rest)
      (noQuote : Quote.ofCharacter? character = none)
      (fails : unquotedEnd ((start + 4 + (content.takeWhile isBlank).length : Nat) : Int)
        (character :: rest) = .error fault) :
      FindsEnd start content (.error (fault, (start : Int)))
  | address {character : Char} {rest : Text} {count : Nat}
      (begins : content.dropWhile isBlank = character :: rest)
      (noQuote : Quote.ofCharacter? character = none)
      (reached : addressReach? (character :: rest) = some count) :
      FindsEnd start content
        (.ok ((start + 4 + (content.takeWhile isBlank).length + count : Nat) : Int))
  | openString {character : Char} {rest : Text} {quote : Quote}
      (begins : content.dropWhile isBlank = character :: rest)
      (isQuote : Quote.ofCharacter? character = some quote)
      (unclosed : Quoted.reach? quote.character rest = none) :
      FindsEnd start content
        (.error (.openUrlString, ((start + 4 + (content.takeWhile isBlank).length : Nat) : Int)))
  | openQuoted {character : Char} {rest : Text} {quote : Quote} {string : Nat}
      (begins : content.dropWhile isBlank = character :: rest)
      (isQuote : Quote.ofCharacter? character = some quote)
      (closed : Quoted.reach? quote.character rest = some string)
      (unclosed : Text.parenReach? (rest.drop string) = none) :
      FindsEnd start content (.error (.openUrl, (start : Int)))
  | quoted {character : Char} {rest : Text} {quote : Quote} {string more : Nat}
      (begins : content.dropWhile isBlank = character :: rest)
      (isQuote : Quote.ofCharacter? character = some quote)
      (closed : Quoted.reach? quote.character rest = some string)
      (found : Text.parenReach? (rest.drop string) = some more) :
      FindsEnd start content (.ok ((start + 4 + (content.takeWhile isBlank).length +
        (string + more + 1) : Nat) : Int))

theorem findsEnd (source : Text) (start : Nat) :
    FindsEnd start (source.drop (start + 4)) (findEnd source start) := by
  have position : ((start : Int) + 4) = ((start + 4 : Nat) : Int) := rfl
  simp only [findEnd, position, entriesFrom_natCast]
  generalize inside : source.drop (start + 4) = content
  have offset : ((start + 4 : Nat) : Int) + ((content.takeWhile isBlank).length : Int) =
      ((start + 4 + (content.takeWhile isBlank).length : Nat) : Int) := rfl
  rw [offset]
  cases begins : content.dropWhile isBlank with
  | nil => exact .nothing begins
  | cons character rest =>
      cases isQuote : Quote.ofCharacter? character with
      | none =>
          simp only [isQuote]
          cases ends : unquotedEnd _ (character :: rest) with
          | error fault => exact .badAddress begins isQuote ends
          | ok stop =>
              obtain ⟨count, reached, rfl⟩ := unquotedEnd_eq_ok_iff.mp ends
              exact .address begins isQuote reached
      | some quote =>
          have behind : source.drop (start + 4 + (content.takeWhile isBlank).length + 1) = rest := by
            rw [← List.drop_drop, ← List.drop_drop, inside, Text.drop_length_takeWhile, begins,
              List.drop_one, List.tail_cons]
          simp only [isQuote]
          rw [Quoted.end?_natCast (character_ne_backslash quote), behind]
          cases closed : Quoted.reach? quote.character rest with
          | none => exact .openString begins isQuote closed
          | some string =>
              have closes := findFrom?_paren_natCast source
                (start + 4 + (content.takeWhile isBlank).length + 1 + string)
              rw [← List.drop_drop, behind] at closes
              dsimp only [Option.map_some]
              cases found : Text.findFrom? [')'] source
                  (start + 4 + (content.takeWhile isBlank).length + 1 + string : Nat) with
              | none =>
                  rw [found, Option.map_none, eq_comm, Option.map_eq_none_iff] at closes
                  exact .openQuoted begins isQuote closed closes
              | some parenthesis =>
                  rw [found, Option.map_some, eq_comm] at closes
                  obtain ⟨more, reached, last⟩ := Option.map_eq_some_iff.mp closes
                  have place : (parenthesis : Int) + 1 = ((start + 4 +
                      (content.takeWhile isBlank).length + (string + more + 1) : Nat) : Int) := by
                    omega
                  dsimp only
                  rw [place]
                  exact .quoted begins isQuote closed reached

/-- The end of a url is found by reading on from its start. -/
theorem findEnd_eq_ok_iff {source : Text} {start : Nat} {stop : Int} :
    findEnd source start = .ok stop ↔
      ∃ count, reach? (source.drop start) = some count ∧
        stop = ((start + count : Nat) : Int) := by
  have finds := findsEnd source start
  rw [reach?, List.drop_drop, contentReach?_eq]
  generalize source.drop (start + 4) = content at finds ⊢
  generalize findEnd source start = result at finds ⊢
  cases finds with
  | nothing blank => simp [blank]
  | badAddress begins noQuote fails =>
      simp [begins, noQuote, addressReach?_eq_none_of_unquotedEnd fails]
  | address begins noQuote reached =>
      simp [begins, noQuote, reached]
      omega
  | openString begins isQuote unclosed => simp [begins, isQuote, quotedReach?, unclosed]
  | openQuoted begins isQuote closed unclosed =>
      simp [begins, isQuote, quotedReach?, closed, unclosed]
  | quoted begins isQuote closed found =>
      simp [begins, isQuote, quotedReach?, closed, found]
      omega

/-! ## The characters of a url -/

theorem endsAt_of_addressReach? {text : Text} {count : Nat}
    (reached : addressReach? text = some count) : text.EndsAt count ')' := by
  induction text generalizing count with
  | nil => simp [addressReach?] at reached
  | cons character rest induction =>
      rw [addressReach?] at reached
      split at reached
      next closes =>
        cases reached
        exact closes ▸ .here rest
      next =>
        split at reached
        next => simp at reached
        next =>
          obtain ⟨inner, found, rfl⟩ := Option.map_eq_some_iff.mp reached
          exact (induction found).cons character

theorem endsAt_of_quotedReach? {quote : Quote} {text : Text} {count : Nat}
    (reached : quotedReach? quote text = some count) : text.EndsAt count ')' := by
  obtain ⟨string, -, reached⟩ := Option.bind_eq_some_iff.mp reached
  obtain ⟨inner, found, rfl⟩ := Option.map_eq_some_iff.mp reached
  exact (Text.endsAt_of_parenReach? found).of_drop

theorem endsAt_of_contentReach? {text : Text} {count : Nat}
    (reached : contentReach? text = some count) : text.EndsAt count ')' := by
  induction text generalizing count with
  | nil => simp [contentReach?] at reached
  | cons character rest induction =>
      rw [contentReach?] at reached
      split at reached
      · obtain ⟨inner, found, rfl⟩ := Option.map_eq_some_iff.mp reached
        exact (induction found).cons character
      · split at reached
        · obtain ⟨inner, found, rfl⟩ := Option.map_eq_some_iff.mp reached
          exact (endsAt_of_quotedReach? found).cons character
        · exact endsAt_of_addressReach? reached

theorem endsAt_of_reach? {text : Text} {count : Nat} (reached : reach? text = some count) :
    4 < count ∧ text.EndsAt count ')' := by
  obtain ⟨inner, found, rfl⟩ := Option.map_eq_some_iff.mp reached
  have ends := endsAt_of_contentReach? found
  exact ⟨by have := ends.1; omega, ends.of_drop⟩

theorem addressReach?_of_isPrefix {text other : Text} {count : Nat}
    (reached : addressReach? text = some count) (same : text.take count <+: other) :
    addressReach? other = some count := by
  induction text generalizing count other with
  | nil => simp [addressReach?] at reached
  | cons character rest induction =>
      rw [addressReach?] at reached
      split at reached
      next closes =>
        cases reached
        obtain ⟨later, rfl⟩ := same
        simp [addressReach?, closes]
      next notClosing =>
        split at reached
        next => cases reached
        next allowed =>
          obtain ⟨inner, found, rfl⟩ := Option.map_eq_some_iff.mp reached
          obtain ⟨later, rfl⟩ := same
          simp only [List.take_succ_cons, List.cons_append]
          rw [addressReach?, if_neg notClosing, if_neg allowed,
            induction found (List.prefix_append ..), Option.map_some]

theorem quotedReach?_of_isPrefix {quote : Quote} {text other : Text} {count : Nat}
    (reached : quotedReach? quote text = some count) (same : text.take count <+: other) :
    quotedReach? quote other = some count := by
  obtain ⟨string, found, behind⟩ := Option.bind_eq_some_iff.mp reached
  obtain ⟨inner, foundInner, rfl⟩ := Option.map_eq_some_iff.mp behind
  have sameString : text.take string <+: other :=
    (List.take_prefix_take_left (Nat.le_add_right ..)).trans same
  have sameInner : (text.drop string).take inner <+: other.drop string := by
    have dropped := Text.drop_isPrefix_drop same string
    rwa [List.drop_take, Nat.add_sub_cancel_left] at dropped
  rw [quotedReach?, Quoted.reach?_of_isPrefix found sameString, Option.bind_some,
    Text.parenReach?_of_isPrefix foundInner sameInner, Option.map_some]

theorem contentReach?_of_isPrefix {text other : Text} {count : Nat}
    (reached : contentReach? text = some count) (same : text.take count <+: other) :
    contentReach? other = some count := by
  induction text generalizing count other with
  | nil => simp [contentReach?] at reached
  | cons character rest induction =>
      have positive := (endsAt_of_contentReach? reached).1
      obtain ⟨shorter, rfl⟩ := Nat.exists_eq_add_of_lt positive
      have sameHead := same
      rw [Nat.zero_add, List.take_succ_cons] at sameHead
      obtain ⟨later, rfl⟩ := sameHead
      rw [List.cons_append, contentReach?] at *
      split at reached
      next blank =>
        obtain ⟨inner, found, equal⟩ := Option.map_eq_some_iff.mp reached
        obtain rfl : shorter = inner := by omega
        rw [if_pos blank, induction found (List.prefix_append ..), Option.map_some,
          Nat.zero_add]
      next visible =>
        rw [if_neg visible]
        split at reached
        next quote =>
          obtain ⟨inner, found, equal⟩ := Option.map_eq_some_iff.mp reached
          obtain rfl : shorter = inner := by omega
          rw [quotedReach?_of_isPrefix found (List.prefix_append ..), Option.map_some,
            Nat.zero_add]
        next => exact addressReach?_of_isPrefix reached same

/-- The end of a url depends on the url alone. -/
theorem reach?_of_isPrefix {text other : Text} {count : Nat}
    (reached : reach? text = some count) (same : text.take count <+: other) :
    reach? other = some count := by
  obtain ⟨inner, found, rfl⟩ := Option.map_eq_some_iff.mp reached
  have sameInner : (text.drop 4).take inner <+: other.drop 4 := by
    have dropped := Text.drop_isPrefix_drop same 4
    rwa [List.drop_take, Nat.add_sub_cancel_left] at dropped
  rw [reach?, contentReach?_of_isPrefix found sameInner, Option.map_some]

end Url
end Stylesheet
