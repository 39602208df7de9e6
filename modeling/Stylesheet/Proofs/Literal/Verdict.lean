import Mathlib.Data.List.TakeWhile
import Mathlib.Tactic.Tauto
import Stylesheet.Proofs.Literal.Url

/-!
# Strings and urls by their grammar

A string is read by an automaton that looks at every character once, and a url is given
by how its text is made up. The search that jumps between quotes and backslashes finds the
end that the automaton finds, and the search for the end of a url gives exactly the
verdict of the grammar, on every source and at every offset.
-/

namespace Stylesheet

/-! ## Strings -/

namespace Quoted

/-- What is known of a string while it is read from left to right. -/
inductive Stage
  | inside
  | escaped
  | closed (stop : Nat)

namespace Stage

/-- Read one character with its offset. An escaped character counts for nothing, and
neither does anything behind the closing quote. -/
def next (quote : Char) : Stage → Char × Nat → Stage
  | inside, (character, offset) =>
      if character = '\\' then escaped
      else if character = quote then closed (offset + 1)
      else inside
  | escaped, _ => inside
  | closed stop, _ => closed stop

def stop? : Stage → Option Nat
  | inside => none
  | escaped => none
  | closed stop => some stop

theorem foldl_closed (quote : Char) (stop : Nat) (entries : List (Char × Nat)) :
    entries.foldl (next quote) (closed stop) = closed stop := by
  induction entries with
  | nil => rfl
  | cons entry entries induction => exact induction

/-- Reading on from inside a string stops where the string ends. -/
theorem stop?_foldl_inside {quote : Char} (notEscape : quote ≠ '\\') (offset : Nat)
    (text : Text) :
    ((text.zipIdx offset).foldl (next quote) inside).stop? =
      (reach? quote text).map (offset + ·) := by
  induction text using reach?.induct quote generalizing offset with
  | case1 => rfl
  | case2 => rfl
  | case3 escaped rest induction =>
      have shift : (offset + ·) ∘ (· + 2) = (offset + 2 + ·) := by
        funext number
        simp only [Function.comp_apply]
        omega
      rw [reach?, Option.map_map, shift, ← induction]
      rfl
  | case4 rest notLast notMiddle =>
      have read : next quote inside (quote, offset) = closed (offset + 1) := by
        rw [next, if_neg notEscape, if_pos rfl]
      rw [reach?_cons_of_ne notEscape, if_pos rfl, List.zipIdx_cons, List.foldl_cons, read,
        foldl_closed]
      rfl
  | case5 character rest notLast notMiddle notQuote induction =>
      have plain := ne_escape notLast notMiddle
      have read : next quote inside (character, offset) = inside := by
        rw [next, if_neg plain, if_neg notQuote]
      have shift : (offset + ·) ∘ (· + 1) = (offset + 1 + ·) := by
        funext number
        simp only [Function.comp_apply]
        omega
      rw [reach?_cons_of_ne plain, if_neg notQuote, Option.map_map, shift, ← induction,
        List.zipIdx_cons, List.foldl_cons, read]

end Stage

/-- The offset just after the string that a quote opens at `start`, found by reading every
character behind that quote. -/
def readEnd? (source : Text) (quote : Quote) (start : Nat) : Option Nat :=
  (((source.drop (start + 1)).zipIdx (start + 1)).foldl (Stage.next quote.character)
    .inside).stop?

theorem readEnd?_eq (source : Text) (quote : Quote) (start : Nat) :
    readEnd? source quote start =
      (reach? quote.character (source.drop (start + 1))).map (start + 1 + ·) :=
  Stage.stop?_foldl_inside (Url.character_ne_backslash quote) _ _

/-- Jumping between quotes and backslashes finds the end that a reader of every character
finds. -/
theorem end?_eq_readEnd? (source : Text) (quote : Quote) (start : Nat) :
    Quoted.end? source quote.character start = readEnd? source quote start := by
  rw [end?_natCast (Url.character_ne_backslash quote), readEnd?_eq]

end Quoted

/-! ## Urls -/

namespace Url

def blanks : List Char := [' ', '\t', '\r', '\n']

/-- The characters that decide how an unquoted address goes on. -/
def Decides (character : Char) : Prop :=
  character ∈ [')', '"', '\'', '('] ∨ character ∈ blanks ∨ character.toNat < 0x20
  deriving Decidable

/-- Behind `url(` at `start` stand blanks, and from `offset` on a text that does not begin
with another one. -/
structure Begins (source : Text) (start offset : Nat) (text : Text) : Prop where
  inFront : ∃ front : Text, source.drop (start + 4) = front ++ text ∧
    offset = start + 4 + front.length ∧ ∀ character ∈ front, character ∈ blanks
  visible : ∀ character ∈ text.head?, character ∉ blanks

/-- The grammar of urls: what is to be said of the url that begins at `start`. It has an
end, or a diagnostic tells what is wrong with it. -/
inductive Verdict (source : Text) (start : Nat) : Except Diagnostic Int → Prop
  /-- Nothing but blanks is left. -/
  | blank {offset : Nat} (begins : Begins source start offset []) :
      Verdict source start
        (.error (.locate .unterminatedUrl "Cannot find end of URL".toList source start))
  /-- The string of a quoted address is not closed. -/
  | openString {offset : Nat} {quote : Quote} {rest : Text}
      (begins : Begins source start offset (quote.character :: rest))
      (string : Quoted.readEnd? source quote offset = none) :
      Verdict source start
        (.error (.locate .unterminatedUrl "Incomplete string".toList source offset))
  /-- No parenthesis stands behind the string. -/
  | openQuoted {offset stop : Nat} {quote : Quote} {rest : Text}
      (begins : Begins source start offset (quote.character :: rest))
      (string : Quoted.readEnd? source quote offset = some stop)
      (unclosed : ')' ∉ source.drop stop) :
      Verdict source start
        (.error (.locate .unterminatedUrl "Cannot find end of URL".toList source start))
  /-- The first parenthesis behind the string closes the url. -/
  | quoted {offset stop : Nat} {quote : Quote} {rest between later : Text}
      (begins : Begins source start offset (quote.character :: rest))
      (string : Quoted.readEnd? source quote offset = some stop)
      (behind : source.drop stop = between ++ ')' :: later) (first : ')' ∉ between) :
      Verdict source start (.ok (stop + between.length + 1))
  /-- An unquoted address is closed by a parenthesis. -/
  | unquoted {offset : Nat} {address later : Text}
      (begins : Begins source start offset (address ++ ')' :: later))
      (plain : ∀ character ∈ address, ¬Decides character) :
      Verdict source start (.ok (offset + address.length + 1))
  /-- Another character that decides comes first. -/
  | forbidden {offset : Nat} {address later : Text} {character : Char}
      (begins : Begins source start offset (address ++ character :: later))
      (plain : ∀ character ∈ address, ¬Decides character)
      (decides : Decides character) (notClosing : character ≠ ')')
      (notQuoted : ∀ quote : Quote, address = [] → character ≠ quote.character) :
      Verdict source start (.error (.locate .invalidUrl "Invalid URL".toList source start))
  /-- An unquoted address reaches to the end of the source. -/
  | unclosed {offset : Nat} {address : Text} (begins : Begins source start offset address)
      (something : address ≠ []) (plain : ∀ character ∈ address, ¬Decides character) :
      Verdict source start
        (.error (.locate .unterminatedUrl "Cannot find end of URL".toList source start))

/-! ### Every url has a verdict -/

theorem isBlank_iff {character : Char} : isBlank character = true ↔ character ∈ blanks := by
  simp [isBlank, blanks, or_assoc]

theorem exists_begins (source : Text) (start : Nat) :
    ∃ offset text, Begins source start offset text := by
  generalize inside : source.drop (start + 4) = content
  refine ⟨_, content.dropWhile isBlank, ⟨content.takeWhile isBlank, ?_, rfl, ?_⟩, ?_⟩
  · rw [inside, List.takeWhile_append_dropWhile]
  · intro character member
    exact isBlank_iff.mp (List.mem_takeWhile_imp member)
  · intro character head isBlank
    have visible := List.head?_dropWhile_not Url.isBlank content
    rw [Option.mem_def.mp head] at visible
    simp [isBlank_iff.mpr isBlank] at visible

theorem exists_verdict (source : Text) (start : Nat) :
    ∃ verdict, Verdict source start verdict := by
  obtain ⟨offset, text, begins⟩ := exists_begins source start
  cases text with
  | nil => exact ⟨_, .blank begins⟩
  | cons head rest =>
      by_cases isQuote : ∃ quote : Quote, head = quote.character
      · obtain ⟨quote, rfl⟩ := isQuote
        cases string : Quoted.readEnd? source quote offset with
        | none => exact ⟨_, .openString begins string⟩
        | some stop =>
            by_cases closes : ')' ∈ source.drop stop
            · obtain ⟨between, later, behind, first⟩ := List.eq_append_cons_of_mem closes
              exact ⟨_, .quoted begins string behind first⟩
            · exact ⟨_, .openQuoted begins string closes⟩
      · cases found : (head :: rest).find? (Decides ·) with
        | none =>
            refine ⟨_, .unclosed begins (List.cons_ne_nil head rest) ?_⟩
            simpa using found
        | some character =>
            obtain ⟨decides, address, later, parts, plain⟩ :=
              List.find?_eq_some_iff_append.mp found
            have plain : ∀ character ∈ address, ¬Decides character := by simpa using plain
            have notQuoted (quote : Quote) (empty : address = []) :
                character ≠ quote.character := by
              rintro rfl
              subst empty
              exact isQuote ⟨quote, (List.cons.inj parts).1⟩
            rw [parts] at begins
            by_cases closes : character = ')'
            · subst closes
              exact ⟨_, .unquoted begins plain⟩
            · exact ⟨_, .forbidden begins plain (of_decide_eq_true decides) closes notQuoted⟩

/-! ### The search gives the verdict -/

theorem decides_iff {character : Char} :
    Decides character ↔ character = ')' ∨ isForbidden character = true := by
  have quoted : (Quote.ofCharacter? character).isSome = true ↔
      character = '"' ∨ character = '\'' := by
    unfold Quote.ofCharacter?
    split
    next isDouble => simp [isDouble]
    next notDouble =>
      split
      next isSingle => simp [isSingle]
      next notSingle => simp [notDouble, notSingle]
  simp only [Decides, isForbidden, Bool.or_eq_true, quoted, isBlank_iff, decide_eq_true_eq,
    beq_iff_eq, List.mem_cons, List.not_mem_nil, or_false]
  tauto

/-- A text that decides nothing is passed over. -/
theorem unquotedEnd_append {address : Text} (plain : ∀ character ∈ address, ¬Decides character)
    (offset : Int) (rest : Text) :
    unquotedEnd offset (address ++ rest) = unquotedEnd (offset + address.length) rest := by
  induction address generalizing offset with
  | nil => simp
  | cons character address induction =>
      have allowed := plain character List.mem_cons_self
      rw [decides_iff, not_or] at allowed
      rw [List.cons_append, unquotedEnd, if_neg allowed.1, if_neg allowed.2,
        induction fun _ member => plain _ (List.mem_cons_of_mem _ member)]
      congr 1
      push_cast [List.length_cons]
      omega

/-- The first parenthesis at or behind a place. -/
theorem findFrom?_paren {source between later : Text} {stop : Nat}
    (behind : source.drop stop = between ++ ')' :: later) (first : ')' ∉ between) :
    Text.findFrom? [')'] source stop = some (stop + between.length) := by
  have found : Text.find? [')'] (between ++ ')' :: later) = some between.length := by
    clear behind
    induction between with
    | nil => rfl
    | cons character between induction =>
        rw [List.mem_cons, not_or] at first
        simp [Text.find?, first.1, induction first.2]
  simp only [Text.findFrom?, place_natCast, behind, found, Option.map_some]

theorem findFrom?_paren_eq_none {source : Text} {stop : Nat} (unclosed : ')' ∉ source.drop stop) :
    Text.findFrom? [')'] source stop = none := by
  cases found : Text.findFrom? [')'] source stop with
  | none => rfl
  | some parenthesis =>
      obtain ⟨notBefore, later, here⟩ := Text.isPrefix_of_findFrom? found
      have total : stop + (parenthesis - stop) = parenthesis := by omega
      rw [← total, ← List.drop_drop] at here
      exact absurd (List.mem_of_mem_drop (here ▸ List.mem_append_left _ List.mem_cons_self))
        unclosed

section

variable {source : Text} {start offset : Nat}

theorem Begins.landing {text : Text} (begins : Begins source start offset text) :
    (source.drop (start + 4)).dropWhile isBlank = text ∧
      ((start + 4 : Nat) : Int) + ((source.drop (start + 4)).takeWhile isBlank).length =
        offset := by
  obtain ⟨⟨front, inside, rfl, blank⟩, visible⟩ := begins
  have passed (character : Char) (member : character ∈ front) : isBlank character = true :=
    isBlank_iff.mpr (blank character member)
  rw [inside, List.takeWhile_append_of_pos passed, List.dropWhile_append_of_pos passed]
  cases text with
  | nil => simp
  | cons head rest =>
      have notBlank : ¬isBlank head = true := isBlank_iff.not.mpr (visible head rfl)
      rw [List.takeWhile_cons_of_neg notBlank, List.dropWhile_cons_of_neg notBlank,
        List.append_nil]
      exact ⟨rfl, rfl⟩

theorem findEnd_of_blank (begins : Begins source start offset []) :
    findEnd source start = .error (.openUrl, (start : Int)) := by
  have position : ((start : Int) + 4) = ((start + 4 : Nat) : Int) := rfl
  simp only [findEnd, position, entriesFrom_natCast, begins.landing.1]

theorem findEnd_of_quote {quote : Quote} {rest : Text}
    (begins : Begins source start offset (quote.character :: rest)) :
    findEnd source start =
      (Quoted.readEnd? source quote offset).elim (.error (.openUrlString, (offset : Int)))
        fun stop => (Text.findFrom? [')'] source stop).elim (.error (.openUrl, (start : Int)))
          fun parenthesis => .ok ((parenthesis : Int) + 1) := by
  have isQuote : Quote.ofCharacter? quote.character = some quote := by cases quote <;> decide
  have position : ((start : Int) + 4) = ((start + 4 : Nat) : Int) := rfl
  obtain ⟨address, landing⟩ := begins.landing
  have ends : Quoted.end? source quote.character offset = Quoted.readEnd? source quote offset := by
    rw [Quoted.end?_natCast (character_ne_backslash quote), Quoted.readEnd?_eq]
  simp only [findEnd, position, entriesFrom_natCast, address, isQuote, landing, ends]
  cases Quoted.readEnd? source quote offset with
  | none => rfl
  | some stop =>
      simp only [Option.elim_some]
      cases Text.findFrom? [')'] source stop <;> rfl

theorem ne_quote_of_plain {character : Char} (plain : ¬Decides character) (quote : Quote) :
    character ≠ quote.character := by
  rintro rfl
  cases quote <;> exact plain (by decide)

theorem findEnd_of_unquoted {address rest : Text}
    (begins : Begins source start offset (address ++ rest))
    (something : address ++ rest ≠ []) (plain : ∀ character ∈ address, ¬Decides character)
    (notQuoted : ∀ quote : Quote, address = [] → rest.head? ≠ some quote.character) :
    findEnd source start =
      (unquotedEnd (offset + address.length) rest).mapError (·, (start : Int)) := by
  have position : ((start : Int) + 4) = ((start + 4 : Nat) : Int) := rfl
  obtain ⟨inside, landing⟩ := begins.landing
  obtain ⟨head, tail, text⟩ := List.exists_cons_of_ne_nil something
  have headNotQuoted (quote : Quote) : head ≠ quote.character := by
    cases address with
    | nil =>
        rw [List.nil_append] at text
        have notHead := notQuoted quote rfl
        rw [text] at notHead
        exact fun isQuote => notHead (congrArg some isQuote)
    | cons first address =>
        rw [← (List.cons.inj text).1]
        exact ne_quote_of_plain (plain first List.mem_cons_self) quote
  have noQuote : Quote.ofCharacter? head = none := by
    have notDouble : head ≠ '"' := headNotQuoted .double
    have notSingle : head ≠ '\'' := headNotQuoted .single
    rw [Quote.ofCharacter?, if_neg notDouble, if_neg notSingle]
  simp only [findEnd, position, entriesFrom_natCast, inside, landing, text, noQuote]
  rw [← text, unquotedEnd_append plain]

end

/-- The end of a url, or the diagnostic that is reported for it. -/
def diagnose (source : Text) (start : Int) : Except Diagnostic Int :=
  (findEnd source start).mapError fun (fault, place) => .ofFault fault source place

theorem diagnose_of_verdict {source : Text} {start : Nat} {verdict : Except Diagnostic Int}
    (given : Verdict source start verdict) : diagnose source start = verdict := by
  rw [diagnose]
  cases given with
  | blank begins =>
      rw [findEnd_of_blank begins]
      rfl
  | openString begins string =>
      rw [findEnd_of_quote begins, string]
      rfl
  | openQuoted begins string unclosed =>
      rw [findEnd_of_quote begins, string, Option.elim_some, findFrom?_paren_eq_none unclosed]
      rfl
  | quoted begins string behind first =>
      rw [findEnd_of_quote begins, string, Option.elim_some, findFrom?_paren behind first]
      rfl
  | unquoted begins plain =>
      have notQuoted (quote : Quote) : ')' ≠ quote.character := by cases quote <;> decide
      rw [findEnd_of_unquoted begins (by simp) plain fun quote _ isQuote =>
        notQuoted quote (Option.some.inj isQuote), unquotedEnd, if_pos rfl]
      rfl
  | forbidden begins plain decides notClosing notQuoted =>
      have isForbidden := (decides_iff.mp decides).resolve_left notClosing
      rw [findEnd_of_unquoted begins (by simp) plain fun quote empty isQuote =>
        notQuoted quote empty (Option.some.inj isQuote), unquotedEnd, if_neg notClosing,
        if_pos isForbidden]
      rfl
  | @unclosed offset address begins something plain =>
      rw [← List.append_nil address] at begins
      rw [findEnd_of_unquoted begins (by simpa using something) plain
        fun quote empty _ => something empty, unquotedEnd]
      rfl

theorem findEnd_of_diagnose {source : Text} {start stop : Int}
    (found : diagnose source start = .ok stop) : findEnd source start = .ok stop := by
  rw [diagnose] at found
  cases result : findEnd source start with
  | ok _ =>
      rw [result] at found
      exact congrArg _ (Except.ok.inj found)
  | error _ =>
      rw [result] at found
      cases found

/-- The search for the end of a url gives the verdict of the grammar and no other, and an end
that it gives lies just behind a parenthesis of the source. -/
theorem diagnose_eq_iff_verdict (source : Text) (start : Nat) :
    (∀ verdict, diagnose source start = verdict ↔ Verdict source start verdict) ∧
      ∀ stop, diagnose source start = .ok stop →
        (start : Int) + 4 < stop ∧ stop ≤ source.length ∧
          source[(stop - 1).toNat]? = some ')' := by
  constructor
  · intro verdict
    constructor
    · rintro rfl
      obtain ⟨verdict, given⟩ := exists_verdict source start
      rwa [diagnose_of_verdict given]
    · exact diagnose_of_verdict
  · intro stop found
    obtain ⟨count, reached, rfl⟩ := findEnd_eq_ok_iff.mp (findEnd_of_diagnose found)
    obtain ⟨behind, endsAt⟩ := endsAt_of_reach? reached
    obtain ⟨positive, last⟩ := endsAt.of_drop
    have inside := endsAt.of_drop.le_length
    have index : (((start + count : Nat) : Int) - 1).toNat = start + count - 1 := by omega
    rw [index]
    exact ⟨by omega, by omega, last⟩

end Url
end Stylesheet
