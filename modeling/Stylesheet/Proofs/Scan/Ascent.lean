import Stylesheet.Proofs.Scan.Reports

/-!
# The offsets of tokens

Every token begins at an offset of the source, and behind the tokens before it. A statement
begins where its first word does, or behind the brace in front of it if rules are not split.
It is emitted only if it holds some text, so the boundary that ends it lies further on.
-/

namespace Stylesheet

/-! ## Lists in order -/

/-- Items whose places are in order, from a low one on and before a high one. -/
structure Climbs {Item : Type} (place? : Item → Option Int) (before : Int → Int → Prop)
    (low high : Int) (items : List Item) : Prop where
  within : ∀ item ∈ items, ∃ place, place? item = some place ∧ low ≤ place ∧ before place high
  ordered : items.Pairwise fun first second =>
    ∀ place ∈ place? first, ∀ later ∈ place? second, before place later

namespace Climbs

variable {Item : Type} {place? : Item → Option Int} {before : Int → Int → Prop}
  {low middle high : Int} {front back : List Item}

theorem nil : Climbs place? before low high [] :=
  ⟨by simp, .nil⟩

theorem one {item : Item} {place : Int} (here : place? item = some place) (behind : low ≤ place)
    (ahead : before place high) : Climbs place? before low high [item] :=
  ⟨by simpa using ⟨place, here, behind, ahead⟩, List.pairwise_singleton ..⟩

theorem filter (climbs : Climbs place? before low high front) (test : Item → Bool) :
    Climbs place? before low high (front.filter test) :=
  ⟨fun item member => climbs.within item (List.mem_filter.mp member).1, climbs.ordered.filter test⟩

variable [Trans before (· ≤ ·) before]

/-- What climbs up to a place climbs up to a later one. -/
theorem widen (climbs : Climbs place? before low middle front) (higher : middle ≤ high) :
    Climbs place? before low high front where
  within item member := by
    obtain ⟨place, here, behind, ahead⟩ := climbs.within item member
    exact ⟨place, here, behind, Trans.trans ahead higher⟩
  ordered := climbs.ordered

/-- What climbs up to a place is followed by what climbs from there. -/
theorem append (first : Climbs place? before low middle front)
    (second : Climbs place? before middle high back) (lower : low ≤ middle)
    (higher : middle ≤ high) : Climbs place? before low high (front ++ back) where
  within item member := by
    rcases List.mem_append.mp member with inFront | inBack
    · exact (first.widen higher).within item inFront
    · obtain ⟨place, here, behind, ahead⟩ := second.within item inBack
      exact ⟨place, here, Int.le_trans lower behind, ahead⟩
  ordered := by
    refine List.pairwise_append.mpr ⟨first.ordered, second.ordered, ?_⟩
    intro item inFront other inBack place isPlace later isLater
    obtain ⟨_, here, -, ahead⟩ := first.within item inFront
    obtain ⟨_, there, behind, -⟩ := second.within other inBack
    cases here.symm.trans isPlace
    cases there.symm.trans isLater
    exact Trans.trans ahead behind

end Climbs

/-! ## Texts of words -/

theorem Text.length_slice_le (source : Text) {start stop : Int} (nonneg : 0 ≤ start)
    (ordered : start ≤ stop) : ((source.slice start stop).length : Int) ≤ stop - start := by
  obtain ⟨first, rfl⟩ := Int.eq_ofNat_of_zero_le nonneg
  obtain ⟨last, rfl⟩ := Int.eq_ofNat_of_zero_le (Int.le_trans nonneg ordered)
  rw [Text.slice_natCast, List.length_take]
  omega

/-- A declaration holds at least its separator. -/
theorem joined_ne_nil_of_declaration {options : TokenizeOptions} {words : List Word}
    {declaration : Declaration}
    (isDeclaration : Statement.ofWords options words = .declaration declaration) :
    Word.joined words ≠ [] := by
  obtain ⟨key, value, whole, -⟩ := Statement.exists_of_declaration isDeclaration
  rw [← whole]
  simp

namespace Scan

variable {scan : Scan} {state : State}

/-! ## The ground of a state -/

/-- Where the next token begins at the earliest. -/
def ground (scan : Scan) (state : State) : Int :=
  if scan.options.splitRules then state.statementStart else state.bodyStart

/-- The statement that is being read begins in the body that is being read, and its words
stand between its beginning and the cursor. -/
structure State.Grounded (source : Text) (state : State) : Prop extends state.Anchored where
  nonneg : 0 ≤ state.bodyStart
  inBody : state.bodyStart ≤ state.statementStart
  fits : ((Word.joined state.words).length : Int) ≤ state.cursor - state.statementStart
  inside : state.cursor ≤ source.length

namespace State.Grounded

theorem start (source : Text) : State.Grounded source {} where
  toAnchored := .start
  nonneg := Int.le_refl 0
  inBody := Int.le_refl 0
  fits := Int.le_refl 0
  inside := Int.natCast_nonneg _

theorem ground_bounds (grounded : state.Grounded scan.source) :
    0 ≤ scan.ground state ∧ state.bodyStart ≤ scan.ground state ∧
      scan.ground state ≤ state.statementStart := by
  have nonneg := grounded.nonneg
  have inBody := grounded.inBody
  unfold ground
  split <;> omega

theorem cursor_nonneg (grounded : state.Grounded scan.source) : 0 ≤ state.cursor := by
  have nonneg := grounded.nonneg
  have inBody := grounded.inBody
  have reached := grounded.reached
  omega

/-- With the text up to an offset, the words still stand between the beginning of the
statement and that offset. -/
theorem fits_addText (grounded : state.Grounded scan.source) {stop : Int}
    (reached : state.cursor ≤ stop) :
    ((Word.joined (state.addText scan.source stop).words).length : Int) ≤
      stop - state.statementStart := by
  have fits := grounded.fits
  have text := Text.length_slice_le scan.source grounded.cursor_nonneg reached
  rw [joined_addText, List.length_append]
  omega

end State.Grounded

/-- A reaction adds no more to the words of a statement than it consumes, or it forgets
them. -/
theorem length_joined_react {marker : Marker} {offset : Nat} (begins : scan.markerAt? offset = some marker)
    (nonneg : 0 ≤ state.cursor) (reached : state.cursor ≤ offset) :
    let after := (scan.react marker state offset).state
    ((Word.joined after.words).length : Int) ≤
        (Word.joined state.words).length + (after.cursor - state.cursor) ∨ after.words = [] := by
  by_cases breaks : state.Breaks marker
  · exact .inr (fresh_react begins breaks).1
  obtain ⟨cursor, place⟩ := Int.eq_ofNat_of_zero_le nonneg
  have ahead : cursor ≤ offset := Int.ofNat_le.mp (place ▸ reached)
  obtain ⟨stop, landing, further, -, forward, -⟩ :=
    @exists_stop scan state marker cursor offset [] place ahead begins (by simp)
  have kept : cursor ≤ keptUpTo marker offset stop ∧ keptUpTo marker offset stop ≤ stop := by
    unfold keptUpTo
    split
    next isComment => exact ⟨ahead, forward isComment⟩
    next => exact ⟨further, Nat.le_refl _⟩
  have short := Text.length_slice_le scan.source (Int.natCast_nonneg cursor)
    (Int.ofNat_le.mpr kept.1)
  left
  rw [joined_react begins place ahead landing breaks, List.length_append]
  omega

/-- A reaction goes on in the body and with the statement, or it begins another statement and
maybe another body behind the marker. -/
theorem starts_react {marker : Marker} {offset : Nat}
    (begins : scan.markerAt? offset = some marker) :
    let after := (scan.react marker state offset).state
    after.bodyStart = state.bodyStart ∧ after.statementStart = state.statementStart ∨
      after.words = [] ∧ after.statementStart = offset + 1 ∧
        (after.bodyStart = state.bodyStart ∨ after.bodyStart = offset + 1) := by
  by_cases breaks : state.Breaks marker
  · obtain ⟨noWords, -, statement, body⟩ := fresh_react begins breaks
    exact .inr ⟨noWords, statement, body⟩
  · have goesOn := goesOn_react begins breaks
    exact .inl ⟨goesOn.body, goesOn.statement⟩

theorem State.Grounded.react (grounded : state.Grounded scan.source) {marker : Marker}
    {offset : Nat} (begins : scan.markerAt? offset = some marker)
    (reached : state.cursor ≤ offset) :
    (scan.react marker state offset).state.Grounded scan.source := by
  have anchored := grounded.toAnchored.react begins reached
  have started := grounded.reached
  have inBody := grounded.inBody
  have nonneg := grounded.nonneg
  have forgotten (words : (scan.react marker state offset).state.words = []) :
      ((Word.joined (scan.react marker state offset).state.words).length : Int) ≤
        (scan.react marker state offset).state.cursor -
          (scan.react marker state offset).state.statementStart := by
    have startedThere := anchored.reached
    rw [words, Word.joined_nil, List.length_nil]
    omega
  have starts := @starts_react scan state _ _ begins
  refine { toAnchored := anchored, nonneg := ?_, inBody := ?_, fits := ?_,
           inside := landed_le_length (scan.landed_react state marker offset) begins reached }
  · omega
  · omega
  · rcases starts with ⟨-, same⟩ | ⟨words, -⟩
    · rcases length_joined_react begins grounded.cursor_nonneg reached with grown | words
      · have fits := grounded.fits
        omega
      · exact forgotten words
    · exact forgotten words

/-- No token begins before the ground, and what is emitted raises it. -/
theorem ground_le_react (grounded : state.Grounded scan.source) {marker : Marker} {offset : Nat}
    (begins : scan.markerAt? offset = some marker) (reached : state.cursor ≤ offset) :
    scan.ground state ≤ scan.ground (scan.react marker state offset).state := by
  have before := grounded.reached
  have inBody := grounded.inBody
  have starts := @starts_react scan state _ _ begins
  unfold ground
  split <;> omega

/-! ## Emission -/

theorem climbs_wordTokens {words : List Word} {terminator : Text} {low high : Int}
    (starts : wordsOffset words = low)
    (fits : ((Word.joined words).length : Int) ≤ high - low) (pendingError : Bool) :
    Climbs Token.offset? (· < ·) low high
      (wordTokens (scan.statementOf words) words pendingError terminator) := by
  have emitted {token : Token} (here : token.offset? = some (wordsOffset words))
      (some_ : Word.joined words ≠ []) : Climbs Token.offset? (· < ·) low high [token] := by
    have positive := List.length_pos_iff.mpr some_
    exact .one here (Int.le_of_eq starts.symm) (by omega)
  unfold wordTokens
  split
  next content isDeclaration =>
    refine emitted rfl ?_
    unfold statementOf at isDeclaration
    split at isDeclaration
    · cases isDeclaration
    · exact joined_ne_nil_of_declaration isDeclaration
  next =>
    split
    next => exact .nil
    next visible =>
      refine emitted rfl fun nothing => visible ?_
      rw [Word.trimmed, nothing]
      rfl

theorem climbs_emitWords (grounded : state.Grounded scan.source) {stop : Int}
    (reached : state.cursor ≤ stop) (terminator : Text) :
    Climbs Token.offset? (· < ·) state.statementStart stop
      (scan.emitWords (state.addText scan.source stop) terminator).tokens := by
  rw [emitWords_eq_emitted]
  exact climbs_wordTokens ((State.wordsOffset_addText ..).trans grounded.starts)
    (grounded.fits_addText reached) _

theorem climbs_emitSource {start stop : Int} (nonneg : 0 ≤ start) (ordered : start ≤ stop) :
    Climbs Token.offset? (· < ·) start stop (scan.emitSource state start stop).tokens := by
  rw [emitSource_eq_emitted]
  dsimp only
  unfold stretchTokens
  split
  next => exact .nil
  next visible =>
    refine .one rfl (Int.le_refl _) ?_
    have short := Text.length_slice_le scan.source nonneg ordered
    have some_ : scan.source.slice start stop ≠ [] := by
      intro nothing
      rw [nothing] at visible
      exact visible rfl
    have positive := List.length_pos_iff.mpr some_
    omega

theorem climbs_emitUpTo (grounded : state.Grounded scan.source) {stop : Int}
    (reached : state.cursor ≤ stop) :
    Climbs Token.offset? (· < ·) (scan.ground state) stop (scan.emitUpTo state stop).tokens := by
  have before := grounded.reached
  have inBody := grounded.inBody
  cases splits : scan.options.splitRules with
  | true =>
      rw [emitUpTo_of_splits _ _ splits, ground, if_pos splits]
      exact climbs_emitWords grounded reached []
  | false =>
      rw [emitUpTo_of_whole _ _ splits, ground, if_neg (by simp [splits])]
      exact climbs_emitSource grounded.nonneg (by omega)

theorem climbs_endStatement (grounded : state.Grounded scan.source) {offset : Nat}
    (reached : state.cursor ≤ offset) :
    Climbs Token.offset? (· < ·) (scan.ground state) offset
      (scan.endStatement state offset).tokens := by
  by_cases nested : 0 < state.calls.depth
  · rw [endStatement_inside _ _ _ nested]
    exact .nil
  · rw [endStatement_outside _ _ _ nested]
    cases splits : scan.options.splitRules with
    | true =>
        rw [emitEnded_of_splits _ _ splits, ground, if_pos splits]
        exact climbs_emitWords grounded reached [';']
    | false =>
        rw [emitEnded_of_whole _ _ splits]
        exact .nil

theorem climbs_openBlock (grounded : state.Grounded scan.source) {offset : Nat}
    (reached : state.cursor ≤ offset) :
    Climbs Token.offset? (· < ·) (scan.ground state) (offset + 1)
      (scan.openBlock state offset).tokens := by
  have before := grounded.reached
  have inBody := grounded.inBody
  have heading : Climbs Token.offset? (· < ·) state.statementStart (offset + 1)
      [.openingOf (state.addText scan.source offset).words] := by
    have starts : wordsOffset (state.addText scan.source offset).words = state.statementStart :=
      (State.wordsOffset_addText ..).trans grounded.starts
    exact .one rfl (Int.le_of_eq starts.symm) (by change wordsOffset _ < _; omega)
  rw [tokens_openBlock]
  cases splits : scan.options.splitRules with
  | true =>
      rw [emitAhead_of_splits _ _ splits, ground, if_pos splits]
      exact heading
  | false =>
      rw [emitAhead_of_whole _ _ splits, ground, if_neg (by simp [splits]), Outcome.onlyIf]
      split
      next =>
        exact (climbs_emitSource grounded.nonneg inBody).append heading inBody (by omega)
      next => exact Climbs.append .nil heading inBody (by omega)

theorem climbs_closeBlock (grounded : state.Grounded scan.source) {offset : Nat}
    (reached : state.cursor ≤ offset) :
    Climbs Token.offset? (· < ·) (scan.ground state) (offset + 1)
      (scan.closeBlock state offset).tokens := by
  have before := grounded.reached
  have bounds := grounded.ground_bounds
  have closing : Climbs Token.offset? (· < ·) offset (offset + 1) [.closing offset] :=
    .one rfl (Int.le_refl _) (by omega)
  rw [tokens_closeBlock]
  exact (climbs_emitUpTo grounded reached).append closing (by omega) (by omega)

theorem climbs_endSource (grounded : state.Grounded scan.source) :
    Climbs Token.offset? (· < ·) (scan.ground state) scan.source.length
      (scan.endSource state).tokens := by
  rw [tokens_endSource]
  exact climbs_emitUpTo grounded grounded.inside

/-! ## Runs -/

/-- What a reaction emits lies between the grounds before it and after it. -/
theorem climbs_react (grounded : state.Grounded scan.source) {marker : Marker} {offset : Nat}
    (begins : scan.markerAt? offset = some marker) (reached : state.cursor ≤ offset) :
    Climbs Token.offset? (· < ·) (scan.ground state)
      (scan.ground (scan.react marker state offset).state)
      (scan.react marker state offset).tokens := by
  have risen {after : State} (statement : after.statementStart = offset + 1)
      (body : scan.options.splitRules = false → after.bodyStart = offset + 1) :
      scan.ground after = offset + 1 := by
    unfold ground
    cases splits : scan.options.splitRules with
    | true => exact statement
    | false => exact body splits
  rcases react_cases state begins with goesOn | rfl | ⟨rfl, outside⟩ | ⟨rfl, outside⟩
  · rw [goesOn.tokens]
    exact .nil
  · have ground : scan.ground (scan.openBlock state offset).state = offset + 1 :=
      risen rfl fun _ => rfl
    simp only [react, ground]
    exact climbs_openBlock grounded reached
  · cases splits : scan.options.splitRules with
    | true =>
        have ground : scan.ground (scan.endStatement state offset).state = offset + 1 :=
          risen (by rw [endStatement_state _ _ _ outside]; rfl) (by simp [splits])
        simp only [react, ground]
        exact (climbs_endStatement grounded reached).widen (by omega)
    | false =>
        rw [react, endStatement_outside _ _ _ outside, emitEnded_of_whole _ _ splits]
        exact .nil
  · have ground : scan.ground (scan.closeBlock state offset).state = offset + 1 :=
      risen (by rw [closeBlock_state]) fun _ => by rw [closeBlock_state]
    simp only [react, closeBrace, if_neg outside, ground]
    exact climbs_closeBlock grounded reached

/-- What a run emits lies between the ground it begins on and the end of the source. -/
theorem climbs_course (grounded : state.Grounded scan.source) {entries : List (Marker × Nat)}
    (begin_ : ∀ entry ∈ entries, scan.markerAt? entry.2 = some entry.1) :
    Climbs Token.offset? (· < ·) (scan.ground state) scan.source.length
      ((scan.course state entries).andThen scan.endSource).tokens := by
  induction entries generalizing state with
  | nil => exact climbs_endSource grounded
  | cons entry entries induction =>
      obtain ⟨marker, offset⟩ := entry
      have begins := begin_ _ List.mem_cons_self
      have later := fun entry member => begin_ entry (List.mem_cons_of_mem _ member)
      rw [course]
      split
      · exact induction grounded later
      next notConsumed =>
        have reached := Int.not_lt.mp notConsumed
        have after := grounded.react begins reached
        have bounds := after.ground_bounds
        have reached_ := after.reached
        have inside := after.inside
        rw [Outcome.andThen_assoc]
        exact (climbs_react grounded begins reached).append (induction after later)
          (ground_le_react grounded begins reached) (by omega)

theorem climbs_whole (scan : Scan) :
    Climbs Token.offset? (· < ·) 0 scan.source.length scan.whole.tokens := by
  have climbs := climbs_course (State.Grounded.start scan.source)
    fun _ member => markerAt?_of_mem_markers member
  have ground : scan.ground {} = 0 := by
    unfold ground
    split <;> rfl
  rwa [ground] at climbs

end Scan

namespace TokenizeOptions

/-- Every token begins at an offset of the source, and behind the one before it. -/
theorem tokenize_ascends (options : TokenizeOptions) (source : Text) :
    let tokens := (options.tokenize source).tokens
    (∀ token ∈ tokens, ∃ place, token.offset? = some place ∧ 0 ≤ place ∧ place < source.length) ∧
      tokens.Pairwise fun first second =>
        ∀ place ∈ first.offset?, ∀ later ∈ second.offset?, place < later := by
  have climbs := Scan.climbs_whole ⟨options, source⟩
  rw [Scan.tokenize_eq_whole]
  exact ⟨climbs.within, climbs.ordered⟩

end TokenizeOptions
end Stylesheet
