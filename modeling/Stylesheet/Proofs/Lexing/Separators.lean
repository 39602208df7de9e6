import Stylesheet.Proofs.Modifier.Flags
import Stylesheet.Proofs.Scan.Conservation

/-!
# Separators

Words are read one after the other, but what a statement is depends on the whole of it: on
the colons in its text words that separate, on the words in front of the first of them, and
on the text on both sides. In the extended syntax a colon does not separate if the segment
behind it, up to the next colon or the end of the word, is an `extend`.
-/

namespace Stylesheet

namespace Text

/-- Whether a colon separates, where the given text stands behind it in its word. -/
def separates (lessSyntax : Bool) (behind : Text) : Bool :=
  !(lessSyntax && isExtend (behind.takeWhile (· != ':')))

/-- What stands before and behind the separators of a text, for one separator after the
other. -/
def separations (lessSyntax : Bool) : Text → List (Text × Text)
  | [] => []
  | character :: rest =>
      let later := (separations lessSyntax rest).map fun (before, behind) =>
        (character :: before, behind)
      if character = ':' ∧ separates lessSyntax rest = true then ([], rest) :: later else later

theorem mem_separations_iff {lessSyntax : Bool} {text before behind : Text} :
    (before, behind) ∈ separations lessSyntax text ↔
      text = before ++ ':' :: behind ∧ separates lessSyntax behind = true := by
  induction text generalizing before with
  | nil => simp [separations]
  | cons character rest induction =>
      have later : (before, behind) ∈ (separations lessSyntax rest).map (fun (before, behind) =>
            (character :: before, behind)) ↔
          before ≠ [] ∧ character :: rest = before ++ ':' :: behind ∧
            separates lessSyntax behind = true := by
        rw [List.mem_map]
        constructor
        · rintro ⟨⟨front, back⟩, member, same⟩
          cases same
          obtain ⟨split, isSeparator⟩ := induction.mp member
          exact ⟨by simp, by rw [split]; rfl, isSeparator⟩
        · rintro ⟨notEmpty, split, isSeparator⟩
          cases before with
          | nil => exact absurd rfl notEmpty
          | cons first front =>
              cases split
              exact ⟨(front, behind), induction.mpr ⟨rfl, isSeparator⟩, rfl⟩
      rw [separations]
      dsimp only
      split
      next separator =>
        obtain ⟨rfl, isSeparator⟩ := separator
        rw [List.mem_cons, later]
        cases before with
        | nil =>
            simp only [Prod.mk.injEq, true_and, ne_eq, not_true_eq_false, false_and, or_false,
              List.nil_append, List.cons.injEq]
            constructor
            · rintro rfl
              exact ⟨rfl, isSeparator⟩
            · rintro ⟨rfl, -⟩
              rfl
        | cons first front => simp
      next noSeparator =>
        rw [later]
        cases before with
        | nil =>
            simp only [ne_eq, not_true_eq_false, false_and, false_iff, List.nil_append,
              List.cons.injEq]
            rintro ⟨⟨rfl, rfl⟩, isSeparator⟩
            exact noSeparator ⟨rfl, isSeparator⟩
        | cons first front => simp

end Text

namespace Word

/-- What stands before and behind the separators in the text words. -/
def separations (lessSyntax : Bool) : List Word → List (Text × Text)
  | [] => []
  | word :: words =>
      let here := if word.isText then Text.separations lessSyntax word.text else []
      here.map (fun (before, behind) => (before, behind ++ joined words)) ++
        (separations lessSyntax words).map fun (before, behind) => (word.text ++ before, behind)

/-- The text of the words is what stands before a separator, a colon and what stands behind. -/
theorem joined_of_mem_separations {lessSyntax : Bool} {words : List Word} {key value : Text}
    (member : (key, value) ∈ separations lessSyntax words) :
    joined words = key ++ ':' :: value := by
  induction words generalizing key with
  | nil => cases member
  | cons word words induction =>
      rw [separations, List.mem_append, List.mem_map, List.mem_map] at member
      rw [joined_cons]
      rcases member with ⟨⟨before, behind⟩, here, same⟩ | ⟨⟨before, behind⟩, later, same⟩
      · cases same
        split at here
        next =>
          rw [(Text.mem_separations_iff.mp here).1]
          simp
        next => cases here
      · cases same
        rw [induction later, List.append_assoc]

/-- The words in front of the first one with a separator. -/
def unseparated (lessSyntax : Bool) (words : List Word) : List Word :=
  words.takeWhile fun word => (separations lessSyntax [word]).isEmpty

end Word

/-! ## Pieces -/

/-- The separations of a text that has been cut into a piece and further pieces, where a
colon stands in front of each further piece. -/
def pieceSeparations (lessSyntax : Bool) (head : Text) : List Text → List (Text × Text)
  | [] => []
  | piece :: pieces =>
      let later := (pieceSeparations lessSyntax piece pieces).map fun (before, behind) =>
        (head ++ ':' :: before, behind)
      if lessSyntax && isExtend piece then later
      else (head, Text.join [':'] (piece :: pieces)) :: later

theorem pieceSeparations_append (lessSyntax : Bool) (front head : Text) (pieces : List Text) :
    pieceSeparations lessSyntax (front ++ head) pieces =
      (pieceSeparations lessSyntax head pieces).map fun (before, behind) =>
        (front ++ before, behind) := by
  cases pieces with
  | nil => rfl
  | cons piece pieces =>
      simp only [pieceSeparations]
      split <;> simp [Function.comp_def]

theorem Text.takeWhile_eq_split (separator : Char) (text : Text) :
    text.takeWhile (· != separator) = (split separator text).1 := by
  induction text with
  | nil => rfl
  | cons character rest induction =>
      by_cases isSeparator : character = separator
      · simp [split, isSeparator]
      · simp [split, isSeparator, induction]

theorem separations_eq_pieceSeparations (lessSyntax : Bool) (text : Text) :
    Text.separations lessSyntax text =
      pieceSeparations lessSyntax (Text.split ':' text).1 (Text.split ':' text).2 := by
  induction text with
  | nil => rfl
  | cons character rest induction =>
      have whole := Text.join_split ':' rest
      rw [Text.separations, induction]
      by_cases isColon : character = ':'
      · subst isColon
        have segment := Text.takeWhile_eq_split ':' rest
        simp only [Text.split, if_true, pieceSeparations, Text.separates, segment, whole]
        cases isEmbedded : lessSyntax && isExtend (Text.split ':' rest).1 <;> simp
      · simp only [Text.split, if_neg isColon]
        rw [if_neg (by simp [isColon])]
        exact (pieceSeparations_append lessSyntax [character] _ _).symm

theorem pieceSeparations_attachExtends (head : Text) (pieces : List Text) :
    pieceSeparations false (attachExtends head pieces).1 (attachExtends head pieces).2 =
      pieceSeparations true head pieces := by
  induction pieces generalizing head with
  | nil => rfl
  | cons piece pieces induction =>
      have longer : pieceSeparations true (head ++ ':' :: piece) pieces =
          (pieceSeparations true piece pieces).map fun (before, behind) =>
            (head ++ ':' :: before, behind) := by
        have colon : head ++ ':' :: piece = (head ++ [':']) ++ piece := by simp
        rw [colon, pieceSeparations_append]
        simp
      rw [attachExtends, pieceSeparations]
      split
      next extends_ =>
        rw [if_pos (by simpa using extends_), induction, longer]
      next noExtend =>
        rw [if_neg (by simpa using noExtend)]
        have joined := join_attachExtends piece pieces
        simp only [pieceSeparations, Bool.false_and, Bool.false_eq_true, if_false]
        rw [joined, induction]

theorem separations_eq_separated (lessSyntax : Bool) (text : Text) :
    Text.separations lessSyntax text =
      pieceSeparations false (separated lessSyntax text).1 (separated lessSyntax text).2 := by
  rw [separations_eq_pieceSeparations, separated]
  cases lessSyntax with
  | false => rfl
  | true => exact (pieceSeparations_attachExtends _ _).symm

/-! ## Words -/

theorem Word.unseparated_cons_of_not_isText {lessSyntax : Bool} {word : Word}
    (notText : word.isText = false) (words : List Word) :
    unseparated lessSyntax (word :: words) = word :: unseparated lessSyntax words := by
  have whole : separations lessSyntax [word] = [] := by simp [separations, notText]
  rw [unseparated, List.takeWhile_cons_of_pos (by rw [whole]; rfl), unseparated]

theorem Word.unseparated_cons_of_isText {lessSyntax : Bool} {word : Word}
    (isText : word.isText = true) (words : List Word) :
    unseparated lessSyntax (word :: words) =
      if Text.separations lessSyntax word.text = [] then word :: unseparated lessSyntax words
      else [] := by
  rw [unseparated, List.takeWhile_cons]
  simp [separations, isText, unseparated]

namespace Sides

variable {lessSyntax : Bool} {word : Word} {words : List Word}

/-- A text word is read as its separations say. -/
theorem addText?_eq (sides : Sides) (text : Text) :
    sides.addText? lessSyntax text =
      match Text.separations lessSyntax text, sides.value with
      | [], _ => some (sides.append text)
      | [(before, behind)], none =>
          some { sides with key := sides.key ++ before, value := some behind }
      | _, _ => none := by
  rw [addText?, separations_eq_separated]
  rcases separated lessSyntax text with ⟨head, pieces⟩
  rcases pieces with _ | ⟨piece, _ | ⟨next, pieces⟩⟩
  · rfl
  · obtain ⟨key, value, hasCall⟩ := sides
    cases value <;> rfl
  · obtain ⟨key, value, hasCall⟩ := sides
    cases value <;> rfl

/-- Behind a separator any word is read, unless it holds another separator. -/
theorem foldlM_behind (key value : Text) (hasCall : Bool) :
    words.foldlM (add? lessSyntax) ⟨key, some value, hasCall⟩ =
      if Word.separations lessSyntax words = [] then
        some ⟨key, some (value ++ Word.joined words), hasCall⟩
      else none := by
  induction words generalizing value with
  | nil => simp [Word.separations]
  | cons word words induction =>
      rw [List.foldlM_cons, add?, Word.separations]
      cases word.isText with
      | false =>
          change words.foldlM (add? lessSyntax) (.mk key (some (value ++ word.text)) hasCall) = _
          rw [induction]
          simp
      | true =>
          simp only [if_true, addText?_eq]
          rcases Text.separations lessSyntax word.text with _ | ⟨separation, others⟩
          · change words.foldlM (add? lessSyntax) (.mk key (some (value ++ word.text)) hasCall) = _
            rw [induction]
            simp
          · cases others <;> rfl

/-- What is read of words whose separations are given, if nothing opaque stands in the key. -/
def ofSeparations (key whole : Text) (hasCall : Bool) : List (Text × Text) → Option Sides
  | [] => some ⟨whole, none, hasCall⟩
  | [(before, behind)] => some ⟨key ++ before, some behind, hasCall⟩
  | _ => none

theorem ofSeparations_map (key front whole : Text) (hasCall : Bool)
    (separations : List (Text × Text)) :
    ofSeparations key whole hasCall
        (separations.map fun (before, behind) => (front ++ before, behind)) =
      ofSeparations (key ++ front) whole hasCall separations := by
  rcases separations with _ | ⟨separation, _ | ⟨next, others⟩⟩
  · rfl
  · simp [ofSeparations]
  · rfl

/-- In front of a separator, plain stylesheets allow nothing but text. A call in the key is
kept in mind as long as there is no separator. -/
theorem exists_foldlM_key (key : Text) (hasCall : Bool) :
    ∃ called, (Word.separations lessSyntax words = [] →
        called = (hasCall || words.any (·.kind == .call))) ∧
      words.foldlM (add? lessSyntax) ⟨key, none, hasCall⟩ =
        if lessSyntax = false ∧ ∃ word ∈ Word.unseparated lessSyntax words, word.isText = false then
          none
        else
          ofSeparations key (key ++ Word.joined words) called
            (Word.separations lessSyntax words) := by
  induction words generalizing key hasCall with
  | nil => exact ⟨hasCall, by simp, by simp [Word.separations, Word.unseparated, ofSeparations]⟩
  | cons word words induction =>
      rw [List.foldlM_cons, add?, Word.separations]
      cases isText : word.isText with
      | false =>
          rw [Word.unseparated_cons_of_not_isText isText]
          cases lessSyntax with
          | false =>
              refine ⟨hasCall || (word :: words).any (·.kind == .call), fun _ => rfl, ?_⟩
              simp [addOpaque?, isText]
          | true =>
              obtain ⟨called, isCalled, read⟩ :=
                induction (key ++ word.text) (hasCall || word.kind == .call)
              refine ⟨called, by simpa [Bool.or_assoc] using isCalled, ?_⟩
              change words.foldlM (add? true)
                (.mk (key ++ word.text) none (hasCall || word.kind == .call)) = _
              rw [read]
              simp [ofSeparations_map]
      | true =>
          have noCall : (word.kind == .call) = false := by
            rw [Word.isText, beq_iff_eq] at isText
            rw [isText]
            rfl
          rw [Word.unseparated_cons_of_isText isText]
          simp only [if_true, addText?_eq]
          rcases Text.separations lessSyntax word.text with _ | ⟨⟨before, behind⟩, others⟩
          · obtain ⟨called, isCalled, read⟩ := induction (key ++ word.text) hasCall
            refine ⟨called, by simpa [noCall] using isCalled, ?_⟩
            change words.foldlM (add? lessSyntax) (.mk (key ++ word.text) none hasCall) = _
            rw [read]
            simp [ofSeparations_map, isText]
          · refine ⟨hasCall, by simp, ?_⟩
            cases others with
            | nil =>
                change words.foldlM (add? lessSyntax) ⟨key ++ before, some behind, hasCall⟩ = _
                rw [foldlM_behind]
                cases Word.separations lessSyntax words <;> simp [ofSeparations]
            | cons next others => simp [ofSeparations]

end Sides

/-! ## Statements -/

theorem Text.isEmpty_trim_iff {text : Text} : (trim text).isEmpty = true ↔ Blank text := by
  rw [List.isEmpty_iff]
  exact ⟨blank_of_trim_eq_nil, trim_of_blank⟩

theorem Flagged.ofValue_of_blank (names : List Text) {value : Text} (blank : Text.Blank value) :
    ofValue names (Text.trim value) = ⟨[], .empty⟩ := by
  rw [Text.trim_of_blank blank, ofValue]
  cases names.length <;> rfl

namespace Statement

theorem ofSides_of_value (options : TokenizeOptions) (key value : Text) (hasCall : Bool) :
    let flagged := Flagged.ofValue options.ruleModifiers (Text.trim value)
    ofSides options ⟨key, some value, hasCall⟩ =
      if Text.Blank key ∨ Text.Blank value ∨ Text.Blank flagged.value then incomplete
      else declaration ⟨Text.trim key, flagged.value, flagged.modifiers⟩ := by
  intro flagged
  have trimmed : Text.trim flagged.value = flagged.value :=
    Flagged.trim_value_takeAll _ (Text.trim_trim value)
  have emptied (blank : Text.Blank value) : Text.Blank flagged.value := by
    have nothing : flagged.value = [] :=
      congrArg Flagged.value (Flagged.ofValue_of_blank options.ruleModifiers blank)
    rw [nothing]
    exact Text.blank_nil
  have isIncomplete : ((Text.trim key).isEmpty || flagged.value.isEmpty) = true ↔
      Text.Blank key ∨ Text.Blank value ∨ Text.Blank flagged.value := by
    rw [← trimmed, Bool.or_eq_true, Text.isEmpty_trim_iff, Text.isEmpty_trim_iff, trimmed]
    constructor
    · rintro (keyBlank | valueBlank)
      · exact .inl keyBlank
      · exact .inr (.inr valueBlank)
    · rintro (keyBlank | valueBlank | valueBlank)
      · exact .inl keyBlank
      · exact .inr (emptied valueBlank)
      · exact .inr valueBlank
  rw [ofSides]
  exact ite_congr (propext isIncomplete) (fun _ => rfl) fun _ => rfl

/-- What the statement with the given separations is, unless something opaque blocks it. -/
def ofSeparations (options : TokenizeOptions) (words : List Word) :
    List (Text × Text) → Statement
  | [] => ofSides options ⟨Word.joined words, none, words.any (·.kind == .call)⟩
  | [(key, value)] => ofSides options ⟨key, some value, false⟩
  | _ => malformed

theorem ofWords_eq_ofSeparations (options : TokenizeOptions) (words : List Word) :
    ofWords options words =
      if options.lessSyntax = false ∧
          ∃ word ∈ Word.unseparated options.lessSyntax words, word.isText = false then
        malformed
      else ofSeparations options words (Word.separations options.lessSyntax words) := by
  obtain ⟨called, isCalled, read⟩ := @Sides.exists_foldlM_key options.lessSyntax words [] false
  change words.foldlM (Sides.add? options.lessSyntax) Sides.empty = _ at read
  rw [ofWords, read]
  split
  next unread =>
    split at unread
    next blocked => rw [if_pos blocked]
    next free =>
      rw [if_neg free]
      rcases separations : Word.separations options.lessSyntax words with
        _ | ⟨first, _ | ⟨second, others⟩⟩
      · rw [separations] at unread
        cases unread
      · rw [separations] at unread
        cases unread
      · rfl
  next sides isRead =>
    split at isRead
    next => cases isRead
    next free =>
      rw [if_neg free]
      rcases separations : Word.separations options.lessSyntax words with
        _ | ⟨first, _ | ⟨second, others⟩⟩
      · rw [separations] at isRead
        cases isRead
        rw [isCalled separations]
        rfl
      · rw [separations] at isRead
        cases isRead
        rfl
      · rw [separations] at isRead
        cases isRead

/-- What a statement is depends on its separators alone, on the kinds of the words in front
of the first one, and on the two sides of an only one. The rule that a declaration becomes
begins where its first word does. -/
theorem ofWords_of_separations (options : TokenizeOptions) (words : List Word) :
    let separations := Word.separations options.lessSyntax words
    let isBlocked := options.lessSyntax = false ∧
      ∃ word ∈ Word.unseparated options.lessSyntax words, word.isText = false
    (2 ≤ separations.length ∨ isBlocked → ofWords options words = malformed) ∧
    (separations = [] →
      ofWords options words =
        if options.lessSyntax = true ∧
            ((∃ word ∈ words, word.kind = .call) ∨ (Word.trimmed words).head? = some '@') then
          standalone
        else malformed) ∧
    (∀ key value, separations = [(key, value)] → ¬isBlocked →
      let flagged := Flagged.ofValue options.ruleModifiers (Text.trim value)
      Word.joined words = key ++ ':' :: value ∧
      ofWords options words =
        if Text.Blank key ∨ Text.Blank value ∨ Text.Blank flagged.value then incomplete
        else declaration ⟨Text.trim key, flagged.value, flagged.modifiers⟩) ∧
    ∀ content, ofWords options words = declaration content →
      ∀ (scan : Scan) (state : Scan.State) (terminator : Text) (first : Word) (rest : List Word),
        scan.options = options → state.words = words → words = first :: rest →
        (∀ word ∈ words, word.error = false) →
        (scan.emitWords state terminator).tokens =
          [.rule content first.offset state.pendingError] := by
  intro separations isBlocked
  have isRead : ofWords options words =
      if isBlocked then malformed else ofSeparations options words separations :=
    ofWords_eq_ofSeparations options words
  refine ⟨?_, ?_, ?_, ?_⟩
  · rintro (several | blocked)
    · rw [isRead]
      split
      · rfl
      · match separations, several with
        | _ :: _ :: _, _ => rfl
    · rw [isRead, if_pos blocked]
  · intro noSeparator
    rw [isRead, noSeparator]
    by_cases blocked : isBlocked
    · simp [blocked, blocked.1]
    · rw [if_neg blocked]
      simp only [ofSeparations, ofSides, Word.trimmed]
      apply ite_congr _ (fun _ => rfl) fun _ => rfl
      simp
  · intro key value single free flagged
    refine ⟨Word.joined_of_mem_separations (single ▸ List.mem_singleton_self _), ?_⟩
    rw [isRead, if_neg free, single]
    exact ofSides_of_value options key value false
  · rintro content isDeclaration scan state terminator first rest rfl rfl split sound
    have noError : state.words.any (·.error) = false := by
      rw [List.any_eq_false]
      simpa using sound
    have isStatement : scan.statementOf state.words = .declaration content := by
      rw [Scan.statementOf, noError]
      exact isDeclaration
    rw [Scan.emitWords]
    simp only [split] at isStatement ⊢
    rw [isStatement]

/-- In the extended syntax, a declaration whose key has an `extend`, a call that stands alone,
and a statement with two separators. -/
theorem ofWords_of_separations_extended :
    let options : TokenizeOptions := { lessSyntax := true }
    let declared : List Word :=
      [⟨.text, "&:extend(.a) : b".toList, 3, false⟩, ⟨.text, " !important".toList, 19, false⟩]
    let called : List Word := [⟨.text, ".m".toList, 0, false⟩, ⟨.call, "()".toList, 2, false⟩]
    let doubled : List Word := [⟨.text, "a:b:c".toList, 0, false⟩]
    let content : Declaration :=
      ⟨"&:extend(.a)".toList, "b".toList, NameSet.ofList ["important".toList]⟩
    ofWords options declared = declaration content ∧
      (Scan.emitWords ⟨options, []⟩ { words := declared } []).tokens = [.rule content 3 false] ∧
      ofWords options called = standalone ∧ ofWords options doubled = malformed := by
  intro options declared called doubled content
  obtain ⟨-, -, single, emits⟩ := ofWords_of_separations options declared
  have isSingle : Word.separations options.lessSyntax declared =
      [("&:extend(.a) ".toList, " b !important".toList)] := by decide
  have free : ¬(options.lessSyntax = false ∧
      ∃ word ∈ Word.unseparated options.lessSyntax declared, word.isText = false) := by
    rintro ⟨isPlain, -⟩
    cases isPlain
  have isDeclaration : ofWords options declared = declaration content := by
    rw [(single _ _ isSingle free).2]
    decide +kernel
  have emitted := emits content isDeclaration ⟨options, []⟩ { words := declared } [] _ _ rfl rfl rfl
    (by decide)
  obtain ⟨-, alone, -⟩ := ofWords_of_separations options called
  have isAlone : ofWords options called = standalone := by
    rw [alone (by decide)]
    decide
  obtain ⟨several, -⟩ := ofWords_of_separations options doubled
  exact ⟨isDeclaration, emitted, isAlone, several (.inl (by decide))⟩

end Statement
end Stylesheet
