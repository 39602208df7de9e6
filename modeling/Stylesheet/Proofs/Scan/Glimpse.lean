import Mathlib.Data.List.TakeWhile
import Stylesheet.Proofs.Marker.Occurrences
import Stylesheet.Proofs.Scan.Landing

/-!
# What a reaction looks at

A reaction to a marker looks at the text from the marker on. All that it takes from
there is how many characters it consumes and what is wrong with them.
-/

namespace Stylesheet

namespace Url

/-- What is wrong with an unquoted address that is not closed properly. -/
def addressFault (text : Text) : Fault :=
  if text.any isForbidden then .invalidUrl else .openUrl

/-- What is wrong with what stands behind the opening parenthesis of a url. -/
def contentFault (text : Text) : Fault :=
  match text.dropWhile isBlank with
  | [] => .openUrl
  | character :: rest =>
      match Quote.ofCharacter? character with
      | some quote =>
          if (Quoted.reach? quote.character rest).isNone then .openUrlString else .openUrl
      | none => addressFault (character :: rest)

theorem eq_addressFault_of_unquotedEnd {offset : Int} {text : Text} {fault : Fault}
    (fails : unquotedEnd offset text = .error fault) : fault = addressFault text := by
  induction text generalizing offset with
  | nil =>
      cases fails
      rfl
  | cons character rest induction =>
      rw [unquotedEnd] at fails
      split at fails
      next => cases fails
      next =>
        split at fails
        next forbidden =>
          cases fails
          simp [addressFault, forbidden]
        next allowed =>
          rw [induction fails]
          simp [addressFault, allowed]

/-- What is wrong with a url is no fault of a statement. -/
theorem kind_contentFault_ne (text : Text) : (contentFault text).kind ≠ .invalidRule := by
  unfold contentFault addressFault
  repeat' split
  all_goals decide

/-- The fault of a url is read off the text behind its opening parenthesis. -/
theorem eq_contentFault_of_findEnd {source : Text} {start : Nat} {fault : Fault} {place : Int}
    (fails : findEnd source start = .error (fault, place)) :
    fault = contentFault (source.drop (start + 4)) := by
  have finds := findsEnd source start
  rw [fails] at finds
  cases finds with
  | nothing blank => simp [contentFault, blank]
  | badAddress begins noQuote stops =>
      simp only [contentFault, begins, noQuote]
      exact eq_addressFault_of_unquotedEnd stops
  | openString begins isQuote unclosed => simp [contentFault, begins, isQuote, unclosed]
  | openQuoted begins isQuote closed _ => simp [contentFault, begins, isQuote, closed]

end Url

namespace Scan

/-- How many characters a reaction consumes from its marker on, and what is wrong with
them. -/
structure Glimpse where
  count : Nat
  fault : Option FaultKind
  deriving DecidableEq

/-- How many characters there are up to the end of the line, the line break included. -/
def lineReach (text : Text) : Nat :=
  min ((text.takeWhile fun character => character != '\n' && character != '\r').length + 1)
    text.length

/-- What ends a line. -/
def isLineBreak (character : Char) : Bool :=
  character == '\n' || character == '\r'

theorem lineReach_eq (text : Text) : lineReach text =
    min ((text.takeWhile fun character => !isLineBreak character).length + 1) text.length := by
  simp only [isLineBreak, Bool.not_or]
  rfl

theorem lineReach_append_break {line : Text} {lineBreak : Char}
    (inner : ∀ character ∈ line, isLineBreak character = false)
    (breaks : isLineBreak lineBreak = true) (rest : Text) :
    lineReach (line ++ lineBreak :: rest) = line.length + 1 := by
  have passed : ∀ character ∈ line, (!isLineBreak character) = true := by simpa using inner
  rw [lineReach_eq, List.takeWhile_append_of_pos passed,
    List.takeWhile_cons_of_neg (by simpa using breaks), List.append_nil, List.length_append,
    List.length_cons]
  omega

/-- The rest of a line goes to the end of the text, or it ends with the first line break. -/
theorem lineReach_cases (text : Text) :
    lineReach text = text.length ∨
      ∃ line lineBreak rest, text = line ++ lineBreak :: rest ∧
        (∀ character ∈ line, isLineBreak character = false) ∧ isLineBreak lineBreak = true := by
  have whole := List.takeWhile_append_dropWhile (p := fun character => !isLineBreak character)
    (l := text)
  have head := List.head?_dropWhile_not (fun character => !isLineBreak character) text
  cases behind : text.dropWhile fun character => !isLineBreak character with
  | nil =>
      rw [behind, List.append_nil] at whole
      left
      rw [lineReach_eq, whole, Nat.min_eq_right (Nat.le_succ _)]
  | cons lineBreak rest =>
      rw [behind] at whole head
      refine .inr ⟨_, lineBreak, rest, whole.symm, fun character member => ?_, by simpa using head⟩
      simpa using List.mem_takeWhile_imp member

/-- The rest of a line ends with a line break, or it goes to the end of the text. -/
theorem endsAt_lineReach_or (text : Text) :
    (∃ lineBreak, isLineBreak lineBreak = true ∧ text.EndsAt (lineReach text) lineBreak) ∨
      lineReach text = text.length := by
  rcases lineReach_cases text with whole | ⟨line, lineBreak, rest, rfl, inner, breaks⟩
  · exact .inr whole
  · refine .inl ⟨lineBreak, breaks, ?_⟩
    rw [lineReach_append_break inner breaks]
    exact ⟨Nat.succ_pos _, by simp⟩

/-- What a reaction finds where the text from its marker on is the given one. -/
def glimpse (options : TokenizeOptions) (marker : Marker) (text : Text) : Glimpse :=
  match marker with
  | .quote quote =>
      match Quoted.reach? quote.character (text.drop 1) with
      | some count => ⟨1 + count, none⟩
      | none => ⟨if options.ignoreErrors then 1 else text.length, some .unterminatedString⟩
  | .comment =>
      match Text.find? ['*', '/'] (text.drop 2) with
      | some count => ⟨2 + count + 2, none⟩
      | none => ⟨text.length, some .unterminatedComment⟩
  | .url =>
      match Url.reach? text with
      | some count => ⟨count, none⟩
      | none => ⟨3, some (Url.contentFault (text.drop 4)).kind⟩
  | .backslash => ⟨min 2 text.length, none⟩
  | .lineComment => ⟨2 + lineReach (text.drop 2), none⟩
  | other => ⟨other.spelling.length, none⟩

/-- Nothing is consumed behind the end of the text. -/
theorem count_glimpse_le (options : TokenizeOptions) {marker : Marker} {text : Text}
    (occurs : Marker.occursHere marker.spelling text = true) :
    (glimpse options marker text).count ≤ text.length := by
  have fits := Marker.length_le_of_occursHere occurs
  cases marker with
  | quote quote =>
      simp only [glimpse]
      cases reached : Quoted.reach? quote.character (text.drop 1) with
      | some count =>
          have length := (Quoted.endsAt_of_reach? reached).le_length
          have positive := (Quoted.endsAt_of_reach? reached).1
          rw [List.length_drop] at length
          dsimp only
          omega
      | none =>
          dsimp only
          split
          · exact fits
          · exact Nat.le_refl _
  | comment =>
      simp only [glimpse]
      cases found : Text.find? ['*', '/'] (text.drop 2) with
      | some count =>
          have length := (Text.isPrefix_of_find? found).length_le
          simp only [List.length_cons, List.length_nil, List.length_drop] at length
          dsimp only
          omega
      | none => exact Nat.le_refl _
  | url =>
      simp only [glimpse]
      cases reached : Url.reach? text with
      | some count => exact (Url.endsAt_of_reach? reached).2.le_length
      | none => exact Nat.le_of_succ_le fits
  | backslash => exact Nat.min_le_right ..
  | lineComment =>
      simp only [glimpse, lineReach, List.length_drop]
      have two : 2 ≤ text.length := fits
      omega
  | _ => exact fits

/-- A construct that is left open, and what a reaction finds there. -/
inductive LeftOpen (options : TokenizeOptions) (text : Text) : Marker → Glimpse → Prop
  | string {quote : Quote} (unclosed : Quoted.reach? quote.character (text.drop 1) = none) :
      LeftOpen options text (.quote quote)
        ⟨if options.ignoreErrors then 1 else text.length, some .unterminatedString⟩
  | comment (unclosed : Text.find? ['*', '/'] (text.drop 2) = none) :
      LeftOpen options text .comment ⟨text.length, some .unterminatedComment⟩
  | url (unclosed : Url.reach? text = none) :
      LeftOpen options text .url ⟨3, some (Url.contentFault (text.drop 4)).kind⟩

/-- Nothing is wrong but with what is left open. -/
theorem exists_leftOpen {options : TokenizeOptions} {marker : Marker} {text : Text}
    (opened : (glimpse options marker text).fault.isSome = true) :
    ∃ found, glimpse options marker text = found ∧ LeftOpen options text marker found := by
  refine ⟨_, rfl, ?_⟩
  cases marker with
  | quote quote =>
      simp only [glimpse] at opened ⊢
      cases unclosed : Quoted.reach? quote.character (text.drop 1) with
      | none => exact .string unclosed
      | some count =>
          rw [unclosed] at opened
          cases opened
  | comment =>
      simp only [glimpse] at opened ⊢
      cases unclosed : Text.find? ['*', '/'] (text.drop 2) with
      | none => exact .comment unclosed
      | some count =>
          rw [unclosed] at opened
          cases opened
  | url =>
      simp only [glimpse] at opened ⊢
      cases unclosed : Url.reach? text with
      | none => exact .url unclosed
      | some count =>
          rw [unclosed] at opened
          cases opened
  | _ => cases opened

/-- The kind of the word that a construct becomes. If something is wrong with it, it is
left as text. -/
def Glimpse.wordKind (found : Glimpse) (whole : WordKind) : WordKind :=
  if found.fault.isSome then .text else whole

/-- What is reported of a fault. -/
def reported (options : TokenizeOptions) (fault : Option FaultKind) : List FaultKind :=
  if options.ignoreErrors then [] else fault.toList

@[simp] theorem reported_none (options : TokenizeOptions) : reported options none = [] := by
  simp [reported]

/-- The kinds of what is reported. -/
def Outcome.kinds (outcome : Outcome) : List FaultKind :=
  outcome.diagnostics.map (·.kind)

theorem Outcome.eq_of_quiet {outcome : Outcome} {state : State} (after : outcome.state = state)
    (noTokens : outcome.tokens = []) (noKinds : outcome.kinds = []) : outcome = { state } := by
  obtain ⟨_, tokens, diagnostics⟩ := outcome
  obtain rfl : diagnostics = [] := List.map_eq_nil_iff.mp noKinds
  obtain rfl : tokens = [] := noTokens
  rw [← after]

/-- The next statement has to be flagged, too, if something has been reported. -/
def State.afterReports (state : State) (reports : List FaultKind) : State :=
  { state with pendingError := state.pendingError || !reports.isEmpty }

@[simp] theorem State.afterReports_nil (state : State) : state.afterReports [] = state := by
  simp [afterReports]

/-! ## Reactions by what they look at -/

variable (scan : Scan) (state : State)

theorem reportPending_eq (fault : Fault) (offset : Int) :
    let reports := reported scan.options (some fault.kind)
    let outcome := scan.reportPending state fault offset
    outcome.state = state.afterReports reports ∧ outcome.tokens = [] ∧
      outcome.kinds = reports := by
  unfold reportPending report
  cases ignores : scan.options.ignoreErrors <;>
    simp [reported, ignores, State.afterReports, Outcome.kinds, Diagnostic.ofFault,
      Diagnostic.locate]

theorem readString_eq (quote : Quote) {offset : Nat} (inside : offset ≤ scan.source.length) :
    let found := glimpse scan.options (.quote quote) (scan.source.drop offset)
    let reports := reported scan.options found.fault
    let outcome := scan.readString quote state offset
    outcome.state =
        ((scan.takeText state offset).takeWord scan.source (found.wordKind .string)
          (offset + found.count : Nat) (!reports.isEmpty)).afterReports reports ∧
      outcome.tokens = [] ∧ outcome.kinds = reports := by
  simp only [readString, Quoted.end?_natCast (Url.character_ne_backslash quote), glimpse,
    List.drop_drop]
  cases reached : Quoted.reach? quote.character (scan.source.drop (offset + 1)) with
  | some count => simp [Glimpse.wordKind, Outcome.kinds, Nat.add_assoc]
  | none =>
      obtain ⟨stated, noTokens, kinds⟩ :=
        scan.reportPending_eq (scan.takeText state offset) (.openString quote) offset
      cases ignores : scan.options.ignoreErrors with
      | true => simp [reported, ignores, Glimpse.wordKind, Outcome.kinds]
      | false =>
          have length : offset + (scan.source.drop offset).length = scan.source.length := by
            rw [List.length_drop]
            omega
          simp only [Option.map_none, if_neg Bool.false_ne_true, length]
          refine ⟨?_, noTokens, kinds⟩
          rw [Outcome.mapState, stated]
          simp [reported, ignores, Fault.kind, Glimpse.wordKind, State.afterReports,
            State.takeWord]

theorem readUrl_eq (offset : Nat) :
    let found := glimpse scan.options .url (scan.source.drop offset)
    let reports := reported scan.options found.fault
    let outcome := scan.readUrl state offset
    outcome.state =
        ((scan.takeText state offset).takeWord scan.source (found.wordKind .url)
          (offset + found.count : Nat)).afterReports reports ∧
      outcome.tokens = [] ∧ outcome.kinds = reports := by
  simp only [readUrl, glimpse, List.drop_drop]
  cases ends : Url.findEnd scan.source offset with
  | ok stop =>
      obtain ⟨count, reached, rfl⟩ := Url.findEnd_eq_ok_iff.mp ends
      simp [reached, Glimpse.wordKind, Outcome.kinds]
  | error failure =>
      obtain ⟨fault, place⟩ := failure
      have unreached : Url.reach? (scan.source.drop offset) = none := by
        cases reached : Url.reach? (scan.source.drop offset) with
        | none => rfl
        | some count =>
            rw [Url.findEnd_eq_ok_iff.mpr ⟨count, reached, rfl⟩] at ends
            cases ends
      obtain rfl := Url.eq_contentFault_of_findEnd ends
      simp only [unreached]
      exact scan.reportPending_eq ..

theorem skipComment_eq {offset : Nat} (inside : offset ≤ scan.source.length) :
    let found := glimpse scan.options .comment (scan.source.drop offset)
    let reports := reported scan.options found.fault
    let outcome := scan.skipComment state offset
    outcome.state =
        ((state.addText scan.source offset).moveTo (offset + found.count : Nat)).afterReports
          reports ∧
      outcome.tokens = [] ∧ outcome.kinds = reports := by
  have position : ((offset : Int) + 2) = ((offset + 2 : Nat) : Int) := rfl
  simp only [skipComment, position, Text.findFrom?, place_natCast, glimpse, List.drop_drop]
  cases found : Text.find? ['*', '/'] (scan.source.drop (offset + 2)) with
  | some count =>
      have stop : offset + (2 + count + 2) = offset + 2 + count + 2 := by omega
      simp [Outcome.kinds, stop]
  | none =>
      have length : offset + (scan.source.drop offset).length = scan.source.length := by
        rw [List.length_drop]
        omega
      obtain ⟨stated, noTokens, kinds⟩ :=
        scan.reportPending_eq (state.addText scan.source offset) .openComment offset
      simp only [Option.map_none, length]
      refine ⟨?_, noTokens, kinds⟩
      rw [Outcome.mapState, stated]
      rfl

theorem lineEnd_eq {offset : Nat} (inside : offset ≤ scan.source.length) :
    scan.lineEnd offset = offset + lineReach (scan.source.drop offset) := by
  simp only [lineEnd, place_natCast, lineReach, List.length_drop]
  omega

theorem skipLine_eq {offset : Nat} (inside : offset + 2 ≤ scan.source.length) :
    scan.skipLine state offset =
      { state := (state.addText scan.source offset).moveTo
          (offset + (glimpse scan.options .lineComment (scan.source.drop offset)).count : Nat) } := by
  have position : ((offset : Int) + 2) = ((offset + 2 : Nat) : Int) := rfl
  rw [skipLine, position, lineEnd_eq scan inside, glimpse, List.drop_drop, Nat.add_assoc]

theorem readEscape_eq {offset : Nat} (inside : offset ≤ scan.source.length) :
    scan.readEscape state offset =
      { state := state.takeWord scan.source .text
          (offset + (glimpse scan.options .backslash (scan.source.drop offset)).count : Nat) } := by
  have stop : min ((offset : Int) + 2) scan.source.length =
      ((offset + min 2 (scan.source.drop offset).length : Nat) : Int) := by
    rw [List.length_drop]
    omega
  rw [readEscape, stop]
  rfl

end Scan
end Stylesheet
