import Stylesheet.Proofs.Literal.Hidden
import Stylesheet.Proofs.Scan.Outset
import Stylesheet.Proofs.Scan.Wordwise

/-!
# Sources that hide something

Two sources may be the same but for what stands between quotes or parentheses. If their
scans take what is hidden as one word, their tokens have the same shape.
-/

namespace Stylesheet

/-- A slice does not depend on what stands behind it. -/
theorem Text.slice_append_left {front : Text} {stop : Nat} (inside : stop ≤ front.length)
    (start : Nat) (more : Text) : (front ++ more).slice start stop = front.slice start stop := by
  rw [slice_natCast, slice_natCast, List.drop_append, List.take_append_of_le_length]
  rw [List.length_drop]
  omega

/-! ## Shapes -/

/-- What is left of a token where its texts and its offset do not count. -/
structure Token.Shape where
  typeName : Text
  error : Option Bool := none
  modifiers : Option NameSet := none
  /-- How many selectors a block has, if it has been recognised by them. -/
  selectors : Option Nat := none
  /-- How many values the at-rule has that a block has been recognised by. -/
  values : Option Nat := none
  deriving DecidableEq

namespace Heading

def selectorCount (heading : Heading) : Option Nat :=
  heading.selectors.map (·.length)

def valueCount (heading : Heading) : Option Nat :=
  heading.atRule.map (·.values.length)

end Heading

def Token.shape (token : Token) : Token.Shape :=
  match token with
  | code _ _ error => { typeName := token.typeName, error := some error }
  | rule declaration _ error =>
      { typeName := token.typeName
        error := some error
        modifiers := some declaration.modifiers }
  | opening heading _ | block heading _ _ =>
      { typeName := token.typeName
        selectors := heading.selectorCount
        values := heading.valueCount }
  | closing _ => { typeName := token.typeName }
  | bare atRule => { typeName := token.typeName, values := some atRule.values.length }

theorem Token.shape_opening (heading : Heading) (offset : Int) :
    (Token.opening heading offset).shape =
      { typeName := "BlockStart".toList
        selectors := heading.selectorCount
        values := heading.valueCount } := rfl

namespace TextLikeness

/-- Texts that are the same but for what they hide. -/
def veiled : TextLikeness defaultModifiers where
  alike := Text.Veiled
  ruleAlike first second := first.values.length = second.values.length
  refl := Text.Veiled.refl
  append := Text.Veiled.append
  trim := Text.Veiled.trim
  isEmpty_eq := Text.Veiled.isEmpty_eq
  head_eq same := by rw [same.head?_eq]
  flagged := Flagged.ofValue_of_veiled
  atRule _ others := by
    simp only [Heading.atRuleOf, List.length_cons, others.length_eq]

variable {near : Int → Int → Prop}

theorem counts_eq {first second : Heading} (alike : veiled.HeadingAlike first second) :
    first.selectorCount = second.selectorCount ∧ first.valueCount = second.valueCount := by
  cases alike with
  | unclassified => exact ⟨rfl, rfl⟩
  | selectors _ each => exact ⟨congrArg some each.length_eq, rfl⟩
  | atRule _ rules => exact ⟨rfl, congrArg some rules⟩

theorem shape_eq {first second : Token} (alike : veiled.TokenAlike near first second) :
    first.shape = second.shape := by
  cases alike with
  | code => rfl
  | rule => rfl
  | opening headings =>
      have counts := counts_eq headings
      rw [Token.shape_opening, Token.shape_opening, counts.1, counts.2]
  | closing => rfl

theorem map_shape_eq {first second : List Token}
    (alike : List.Forall₂ (veiled.TokenAlike near) first second) :
    first.map Token.shape = second.map Token.shape := by
  induction alike with
  | nil => rfl
  | cons head _ induction => rw [List.map_cons, List.map_cons, shape_eq head, induction]

end TextLikeness

namespace Scan

/-! ## Before what is hidden -/

variable {options : TokenizeOptions} {front first second rest : Text} {opening closing : Char}

/-- What is left open in front of something hidden is left open by both scans. -/
theorem Pair.sees_veiled (opens : opening ∈ Text.covers) (tame : first.Tame)
    (otherTame : second.Tame) (closes : ')' ∉ second ∨ ')' ∈ rest) {marker : Marker} {offset : Nat}
    (begins : Marker.front? options.lessSyntax (front.drop offset) = some marker)
    (inside : offset + (glimpse options marker
      (front.drop offset ++ opening :: (first ++ rest))).count ≤ front.length) :
    (beginning options front (opening :: (first ++ rest)) (opening :: (second ++ rest))).Sees
      marker offset := by
  apply sees_of_open begins inside (List.cons_ne_nil _ _)
  · rintro quote rfl unclosed
    have settled : Text.endsOpen (front.drop (offset + 1) ++ [opening]) = false :=
      Text.endsOpen_singleton (Url.of_mem_covers opens).2.2.1 _
    have exchanged := Quoted.reach?_exchange quote settled tame otherTame rest
    simp only [List.append_assoc, List.singleton_append] at exchanged
    rcases exchanged with ⟨count, -, found, -⟩ | ⟨found, foundOther⟩
    · rw [found] at unclosed
      cases unclosed
    · rw [found, Option.map_eq_none_iff] at unclosed
      rw [foundOther, unclosed, Option.map_none]
  · rintro rfl unclosed
    obtain ⟨other, sameFault⟩ := Url.contentReach?_exchange opens tame otherTame closes unclosed
    exact ⟨other, fun _ => sameFault⟩

/-! ## Behind what is hidden -/

variable (options front first second rest) in
/-- The scans of two sources that are the same behind what they hide. -/
def Pair.uncovered (opening closing : Char) : Pair :=
  .ending options (front ++ opening :: (first ++ [closing]))
    (front ++ opening :: (second ++ [closing])) rest

variable (options front first second rest) in
/-- Offsets of the same place, in front of what is hidden or behind it. -/
def Levels.veiled (opens : opening ∈ Text.covers) (closes : closing ∈ Text.uncovers) :
    Levels (.uncovered options front first second rest opening closing) .veiled
      fun _ _ => True where
  level firstOffset secondOffset :=
    (∃ offset ≤ front.length, firstOffset = (offset : Nat) ∧ secondOffset = (offset : Nat)) ∨
      ∃ offset ≤ rest.length,
        firstOffset = ((front ++ opening :: (first ++ [closing])).length + offset : Nat) ∧
          secondOffset = ((front ++ opening :: (second ++ [closing])).length + offset : Nat)
  near_base _ := trivial
  near_of_level _ := trivial
  level_of_le inside := .inr ⟨_, inside, rfl, rfl⟩
  level_lt := by
    simp only [List.length_append, List.length_cons]
    rintro _ _ _ _ (⟨start, within, rfl, rfl⟩ | ⟨start, within, rfl, rfl⟩)
      (⟨stop, inside, rfl, rfl⟩ | ⟨stop, inside, rfl, rfl⟩) <;> omega
  slice_alike := by
    have later (inner : Text) : front.length < (front ++ opening :: (inner ++ [closing])).length := by
      simp only [List.length_append, List.length_cons]
      omega
    have behind (start : Nat) {stop : Nat} (inside : stop ≤ rest.length) :
        let covered := front ++ opening :: (first ++ [closing])
        let otherCovered := front ++ opening :: (second ++ [closing])
        (covered ++ rest).slice (covered.length + start : Nat) (covered.length + stop : Nat) =
          (otherCovered ++ rest).slice (otherCovered.length + start : Nat)
            (otherCovered.length + stop : Nat) :=
      (Pair.uncovered options front first second rest opening closing).slice_eq start inside
    have covering (inner : Text) {start : Nat} (within : start ≤ front.length) (stop : Nat) :
        let covered := front ++ opening :: (inner ++ [closing])
        (covered ++ rest).slice start (covered.length + stop : Nat) =
          (front.drop start ++ opening :: (inner ++ [closing])) ++
            (covered ++ rest).slice (covered.length + 0 : Nat) (covered.length + stop : Nat) := by
      intro covered
      rw [← Text.slice_append_slice _ (Nat.le_trans within (Nat.le_of_lt (later inner)))
        (Nat.le_add_right _ stop), Text.slice_append_left (Nat.le_refl _), Text.slice_natCast,
        List.take_of_length_le (by rw [List.length_drop]), List.drop_append_of_le_length within]
      rfl
    rintro _ _ _ _ (⟨start, within, rfl, rfl⟩ | ⟨start, within, rfl, rfl⟩)
      (⟨stop, inside, rfl, rfl⟩ | ⟨stop, inside, rfl, rfl⟩)
    · change Text.Veiled ((_ ++ rest).slice _ _) ((_ ++ rest).slice _ _)
      rw [List.append_assoc, List.append_assoc, Text.slice_append_left inside,
        Text.slice_append_left inside]
      exact .refl _
    · change Text.Veiled ((_ ++ rest).slice _ _) ((_ ++ rest).slice _ _)
      have same := behind 0 inside
      rw [covering first within, covering second within, same]
      have hidden := Text.Veiled.hide opens closes first second .nil
      exact ((Text.Veiled.refl _).append hidden).append (.refl _)
    · have nothing (source : Text) (base : Nat) (later : front.length < base) :
          source.slice (base + start : Nat) stop = [] := by
        rw [Text.slice_natCast, Nat.sub_eq_zero_of_le (by omega), List.take_zero]
      rw [nothing _ _ (later first), nothing _ _ (later second)]
      exact .nil
    · change Text.Veiled ((_ ++ rest).slice _ _) ((_ ++ rest).slice _ _)
      have same := behind start inside
      rw [same]
      exact .refl _

/-- Take what is hidden as one word, and count the open parentheses anew. -/
def State.takeCovered (source : Text) (state : State) (kind : WordKind) (start stop : Nat)
    (calls : Nest) : State :=
  { ((state.addText source start).moveTo start).takeWord source kind stop with calls }

variable {kind : WordKind} {firstState secondState : State}

/-- Scans that take what is hidden as one word go on side by side. -/
theorem Abreast.veil (known : options.ruleModifiers = defaultModifiers)
    (opens : opening ∈ Text.covers) (closes : closing ∈ Text.uncovers) {place : Nat}
    {near_base : ∀ _ : Nat, True}
    (abreast : Abreast (.wordwise (.window (.beginning options front
      (opening :: (first ++ closing :: rest)) (opening :: (second ++ closing :: rest))) .veiled
        (fun _ _ => True) near_base) True known) place firstState secondState)
    (opaque_ : kind ≠ .text) (calls : Nest) :
    Abreast (.wordwise (.veiled options front first second rest opens closes) True known) 0
      (firstState.takeCovered (front ++ opening :: (first ++ closing :: rest)) kind front.length
        (front ++ opening :: (first ++ [closing])).length calls)
      (secondState.takeCovered (front ++ opening :: (second ++ closing :: rest)) kind front.length
        (front ++ opening :: (second ++ [closing])).length calls) := by
  have kindred := abreast.kindred
  have text := abreast.held_addText abreast.inside (Nat.le_refl _)
  have slice (inner : Text) :
      (front ++ opening :: (inner ++ closing :: rest)).slice front.length
        (front ++ opening :: (inner ++ [closing])).length = opening :: (inner ++ [closing]) := by
    have split : front ++ opening :: (inner ++ closing :: rest) =
        front ++ (opening :: (inner ++ [closing]) ++ rest) := by simp
    rw [split, Text.slice_natCast, List.drop_left, List.length_append, Nat.add_sub_cancel_left,
      List.take_left]
  have before {firstOffset secondOffset : Int} (levels : ∃ offset ≤ front.length,
      firstOffset = ((0 + offset : Nat) : Int) ∧ secondOffset = ((0 + offset : Nat) : Int)) :
      (Levels.veiled options front first second rest opens closes).level firstOffset
        secondOffset := by
    obtain ⟨offset, inside, rfl, rfl⟩ := levels
    exact .inl ⟨offset, inside, congrArg _ (Nat.zero_add _), congrArg _ (Nat.zero_add _)⟩
  simp only [Pair.beginning, Nat.zero_add] at text
  refine renew (Nat.zero_le _)
    ⟨rfl, kindred.interpolations, kindred.nested, kindred.pendingError, kindred.depth, ?_, ?_⟩
    rfl rfl ?_
  · exact fun whole => before (kindred.body whole)
  · exact fun whole => before (kindred.statement whole)
  · refine List.rel_append text
      (.cons ⟨rfl, rfl, trivial, ?_, fun isText => absurd (beq_iff_eq.mp isText) opaque_⟩ .nil)
    simp only [State.moveTo, slice]
    exact .hide opens closes first second .nil

/-- Scans that find the same before what is hidden, and take what is hidden as one word,
lead to the same shapes and the same reports. -/
theorem shapes_of_takeCovered (known : options.ruleModifiers = defaultModifiers)
    (opens : opening ∈ Text.covers) (closes : closing ∈ Text.uncovers)
    {entries firstEntries secondEntries : List (Marker × Nat)}
    (firstListed : Marker.listed options.lessSyntax (front ++ opening :: (first ++ closing :: rest)) =
      entries ++ firstEntries)
    (secondListed :
      Marker.listed options.lessSyntax (front ++ opening :: (second ++ closing :: rest)) =
        entries ++ secondEntries)
    {near_base : ∀ _ : Nat, True}
    (departed :
      let likeness := Likeness.wordwise (.window (.beginning options front
        (opening :: (first ++ closing :: rest)) (opening :: (second ++ closing :: rest))) .veiled
          (fun _ _ => True) near_base) True known
      let firstOutcome :=
        course ⟨options, front ++ opening :: (first ++ closing :: rest)⟩ {} entries
      let secondOutcome :=
        course ⟨options, front ++ opening :: (second ++ closing :: rest)⟩ {} entries
      (∃ place, Abreast likeness place firstOutcome.state secondOutcome.state) ∧
        likeness.Matches firstOutcome secondOutcome)
    (opaque_ : kind ≠ .text) (calls : Nest)
    (taken : ∀ inner ∈ [(first, firstEntries), (second, secondEntries)],
      let source := front ++ opening :: (inner.1 ++ closing :: rest)
      let covered := front ++ opening :: (inner.1 ++ [closing])
      let state := (course ⟨options, source⟩ {} entries).state
      course ⟨options, source⟩ state inner.2 =
        course ⟨options, source⟩ (state.takeCovered source kind front.length covered.length calls)
          ((Marker.listed options.lessSyntax rest).map (Marker.moved covered.length))) :
    let firstOutput := options.tokenize (front ++ opening :: (first ++ closing :: rest))
    let secondOutput := options.tokenize (front ++ opening :: (second ++ closing :: rest))
    firstOutput.tokens.map Token.shape = secondOutput.tokens.map Token.shape ∧
      firstOutput.diagnostics.map (·.kind) = secondOutput.diagnostics.map (·.kind) := by
  obtain ⟨⟨place, abreast⟩, before⟩ := departed
  have behind := rejoin (abreast.veil known opens closes opaque_ calls)
  have joined (inner : Text) : front ++ opening :: (inner ++ [closing]) ++ rest =
      front ++ opening :: (inner ++ closing :: rest) := by simp
  rw [joined, joined, ← taken (first, firstEntries) (by simp),
    ← taken (second, secondEntries) (by simp)] at behind
  have tokens := List.rel_append before.tokens behind.tokens
  have kinds := congrArg₂ (· ++ ·) (before.kinds trivial) (behind.kinds trivial)
  have split {source : Text} {later : List (Marker × Nat)}
      (listed : Marker.listed options.lessSyntax source = entries ++ later) :
      Scan.whole ⟨options, source⟩ = (course ⟨options, source⟩ {} entries).andThen fun state =>
        (course ⟨options, source⟩ state later).andThen (endSource ⟨options, source⟩) := by
    rw [Scan.whole, markers_eq, listed, course_append, Outcome.andThen_assoc]
  rw [tokenize_eq_whole, tokenize_eq_whole, split firstListed, split secondListed]
  refine ⟨TextLikeness.map_shape_eq tokens, ?_⟩
  simpa only [Outcome.kinds, Outcome.andThen, List.map_append] using kinds

/-! ## Around what is hidden -/

theorem fits_of_mem_listed {lessSyntax : Bool} {text : Text} {entry : Marker × Nat}
    (member : entry ∈ Marker.listed lessSyntax text) :
    entry.2 + entry.1.spelling.length ≤ text.length := by
  have fits := Marker.length_le_of_occursHere
    (Marker.front?_eq_some_iff.mp (Pair.mem_listed member)).2
  have positive := Marker.length_spelling_pos entry.1
  rw [List.length_drop] at fits
  omega

/-- The markers of what is hidden, and those behind it, are found apart. -/
theorem listed_covered {lessSyntax : Bool} (opens : Marker.ends lessSyntax opening = true)
    (closes : Marker.ends lessSyntax closing = true) (front inner rest : Text) :
    Marker.listed lessSyntax (front ++ opening :: (inner ++ closing :: rest)) =
      Marker.listed lessSyntax (front ++ [opening]) ++
        ((Marker.listed lessSyntax (inner ++ [closing])).map (Marker.moved (front.length + 1)) ++
          (Marker.listed lessSyntax rest).map
            (Marker.moved (front ++ opening :: (inner ++ [closing])).length)) := by
  have outside : front ++ opening :: (inner ++ closing :: rest) =
      (front ++ [opening]) ++ ((inner ++ [closing]) ++ rest) := by simp
  have total (entry : Marker × Nat) :
      Marker.moved (front.length + 1) (Marker.moved (inner ++ [closing]).length entry) =
        Marker.moved (front ++ opening :: (inner ++ [closing])).length entry := by
    simp only [Marker.moved, List.length_append, List.length_cons, List.length_nil]
    congr 1
    omega
  rw [outside, Marker.listed_append (Marker.seam_of_ends opens),
    Marker.listed_append (Marker.seam_of_ends closes), List.map_append, List.map_map,
    List.length_append, List.length_singleton]
  congr 2
  exact List.map_congr_left fun entry _ => total entry

/-- The markers before a step are those before its offset. -/
theorem reached_of_step {source : Text} {before after : List Step} {step : Step} {marker : Marker}
    (split : steps ⟨options, source⟩ = before ++ step :: after)
    (isMarker : step.marker = some marker) {entries later : List (Marker × Nat)}
    (listed : Marker.listed options.lessSyntax source = entries ++ (marker, step.offset) :: later) :
    (course ⟨options, source⟩ {} entries).state = stateAfter {} before ∧
      (stateAfter {} before).cursor ≤ step.offset := by
  obtain ⟨front, back, found, reached, -, cursor, -, -⟩ := exists_of_step_marker split isMarker
  have ascending := pairwise_markers ⟨options, source⟩
  have same : front ++ (marker, step.offset) :: back = entries ++ (marker, step.offset) :: later :=
    found.symm.trans listed
  have around {front back : List (Marker × Nat)}
      (found : markers ⟨options, source⟩ = front ++ (marker, step.offset) :: back) :
      (∀ entry ∈ front, entry.2 < step.offset) ∧
        ∀ entry ∈ (marker, step.offset) :: back, step.offset ≤ entry.2 := by
    rw [found, List.pairwise_append, List.pairwise_cons] at ascending
    refine ⟨fun entry member => ascending.2.2 entry member _ List.mem_cons_self, ?_⟩
    intro entry member
    rcases List.mem_cons.mp member with rfl | member
    · exact Nat.le_refl _
    · exact Nat.le_of_lt (ascending.2.1.1 entry member)
  obtain ⟨rfl, -⟩ := eq_of_append_eq_append same (around found).1 (around found).2
    (around listed).1 (around listed).2
  exact ⟨reached, cursor⟩

end Scan
end Stylesheet
