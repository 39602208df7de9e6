import Stylesheet.Proofs.Scan.Regrouping
import Stylesheet.Proofs.Scan.Settled

/-!
# Comments between words

In plain stylesheets that are split into rules, a comment that stands where a scan has
nothing open changes no token but for the offsets. Errors are ignored: a construct that is
left open before the comment then reaches no further than its first characters.
-/

namespace Stylesheet

namespace Text

/-- A comment with the given text. -/
def comment (body : Text) : Text :=
  '/' :: '*' :: (body ++ ['*', '/'])

/-- Text that ends no comment, and neither closes nor escapes anything in front of it. -/
def IsRemark (body : Text) : Prop :=
  body.Tame ∧ ∀ character ∈ body, character ≠ '*' ∧ character ≠ ')'
  deriving Decidable

variable {body : Text}

theorem length_comment (body : Text) : (comment body).length = body.length + 4 := by
  simp [comment]

theorem IsRemark.tame_comment (isRemark : body.IsRemark) : (comment body).Tame := by
  simp only [comment, Tame, List.mem_cons, List.mem_append, List.not_mem_nil, or_false]
  rintro character (rfl | rfl | member | rfl | rfl)
  · decide
  · decide
  · exact isRemark.1 character member
  · decide
  · decide

theorem IsRemark.no_paren (isRemark : body.IsRemark) : ')' ∉ comment body := by
  simp only [comment, List.mem_cons, List.mem_append, List.not_mem_nil, or_false, not_or]
  exact ⟨by decide, by decide, fun member => (isRemark.2 _ member).2 rfl, by decide, by decide⟩

theorem IsRemark.find? (isRemark : body.IsRemark) (rest : Text) :
    Text.find? ['*', '/'] (body ++ '*' :: '/' :: rest) = some body.length := by
  have noStar : ∀ character ∈ body, character ≠ '*' := fun _ member => (isRemark.2 _ member).1
  clear isRemark
  induction body with
  | nil => rfl
  | cons character body induction =>
      have differs := noStar character List.mem_cons_self
      rw [List.cons_append, Text.find?, if_neg (by simp [Ne.symm differs]),
        induction fun _ member => noStar _ (List.mem_cons_of_mem _ member)]
      rfl

end Text

namespace Scan

variable {options : TokenizeOptions} {front body rest : Text} {marker : Marker} {offset : Nat}

/-! ## In front of the comment -/

/-- What is left open in front of a comment is still left open with the comment. -/
theorem glimpse_comment (ignores : options.ignoreErrors = true) (isRemark : body.IsRemark)
    {text : Text} (here : Marker.front? false text = some marker) (noComment : marker ≠ .comment)
    (opened : (glimpse options marker (text ++ rest)).fault.isSome = true)
    (settled : Text.endsOpen (text.drop (glimpse options marker (text ++ rest)).count) = false) :
    (glimpse options marker (text ++ (Text.comment body ++ rest))).count =
        (glimpse options marker (text ++ rest)).count ∧
      (glimpse options marker (text ++ (Text.comment body ++ rest))).fault.isSome = true := by
  have occurs := (Marker.front?_eq_some_iff.mp here).2
  have fits := Marker.length_le_of_occursHere occurs
  have dropped (width : Nat) (within : width ≤ text.length) (more : Text) :
      (text ++ more).drop width = text.drop width ++ more :=
    List.drop_append_of_le_length within
  obtain ⟨_, found, leftOpen⟩ := exists_leftOpen opened
  rw [found] at settled ⊢
  cases leftOpen with
  | @string quote unclosed =>
      rw [dropped 1 fits] at unclosed
      simp only [ignores, if_true] at settled
      have exchanged := @Quoted.reach?_exchange quote _ [] _ settled (List.forall_mem_nil _)
        isRemark.tame_comment rest
      rw [List.nil_append, unclosed] at exchanged
      rcases exchanged with ⟨count, -, reached, -⟩ | ⟨unclosedToo, other⟩
      · cases reached
      · simp only [glimpse, dropped 1 fits, other, Option.map_eq_none_iff.mp unclosedToo.symm,
          ignores, if_true]
        exact ⟨rfl, rfl⟩
  | comment _ => exact absurd rfl noComment
  | url unclosed =>
      rw [Url.reach?, dropped 4 fits, Option.map_eq_none_iff] at unclosed
      have same : Text.endsOpen (text.drop 4) = Text.endsOpen (text.drop 3) :=
        (Marker.endsOpen_drop occurs (by decide) (by decide) (by decide)).trans
          (Marker.endsOpen_drop occurs (by decide) (by decide) (by decide)).symm
      simp only [glimpse, Url.reach?, dropped 4 fits]
      rw [Text.comment, Url.contentReach?_insert isRemark.tame_comment isRemark.no_paren
        (same.trans settled) unclosed]
      exact ⟨rfl, rfl⟩

theorem Pair.sees_comment (noLess : options.lessSyntax = false)
    (ignores : options.ignoreErrors = true) (isRemark : body.IsRemark)
    (here : Marker.front? false (front.drop offset) = some marker)
    (inside : offset + (glimpse options marker (front.drop offset ++ rest)).count ≤ front.length)
    {state : State} (closes : Step.Closes (front ++ rest) front.length
      ⟨some marker, offset, react ⟨options, front ++ rest⟩ marker state offset⟩)
    (settled : (glimpse options marker (front.drop offset ++ rest)).fault.isSome = true →
      Text.endsOpen (front.drop
        (offset + (glimpse options marker (front.drop offset ++ rest)).count)) = false) :
    (beginning options front rest (Text.comment body ++ rest)).Sees marker offset := by
  have length : (front.drop offset).length = front.length - offset := List.length_drop ..
  have fits := Marker.length_le_of_occursHere (Marker.front?_eq_some_iff.mp here).2
  have positive := Marker.length_spelling_pos marker
  have begins : Marker.front? options.lessSyntax (front.drop offset) = some marker := by
    rwa [noLess]
  cases closed : (glimpse options marker (front.drop offset ++ rest)).fault with
  | none =>
      refine sees_of_closed begins inside closed (fun isEscape => ?_) fun isLine => ?_
      · have notLast : offset + 1 ≠ front.length := closes.escape (congrArg some isEscape)
        rw [List.length_append]
        omega
      · subst isLine
        exact absurd (Marker.front?_eq_some_iff.mp here).1 (by decide)
  | some fault =>
      have opened : (glimpse options marker (front.drop offset ++ rest)).fault.isSome = true := by
        rw [closed]
        rfl
      have noComment : marker ≠ .comment := by
        rintro rfl
        refine closes.comment rfl (show offset < front.length by omega) ?_
        rw [findFrom?_behind, List.drop_append_of_le_length (by dsimp only; omega)]
        obtain ⟨_, -, leftOpen⟩ := exists_leftOpen opened
        cases leftOpen with
        | comment unclosed => rw [unclosed, Option.map_none]
      have closedBehind := settled opened
      rw [← List.drop_drop] at closedBehind
      obtain ⟨sameCount, stillOpen⟩ :=
        glimpse_comment ignores isRemark here noComment opened closedBehind
      have noReports (found : Option FaultKind) : reported options found = [] := if_pos ignores
      exact sees_beginning begins inside sameCount.symm (opened.trans stillOpen.symm)
        (by rw [noReports, noReports])

/-- Behind what is left open in front of a place, nothing is left to escape. -/
theorem endsOpen_of_opened (noLess : options.lessSyntax = false)
    (ignores : options.ignoreErrors = true) {before after : List (Marker × Nat)}
    (split : Marker.listed false front = before ++ (marker, offset) :: after)
    (closes : ∀ step ∈ stepsFrom ⟨options, front ++ rest⟩ {} (Marker.listed false front),
      step.Closes (front ++ rest) front.length)
    (reached : (course ⟨options, front ++ rest⟩ {} before).state.cursor ≤ offset)
    (bounded : (course ⟨options, front ++ rest⟩ {} (Marker.listed false front)).state.cursor ≤
      front.length)
    (opened : (glimpse options marker (front.drop offset ++ rest)).fault.isSome = true) :
    Text.endsOpen (front.drop
      (offset + (glimpse options marker (front.drop offset ++ rest)).count)) = false := by
  have rises := Marker.pairwise_occurrences_active false front
  rw [show Marker.occurrences _ _ _ = _ from split, List.pairwise_append, List.pairwise_cons]
    at rises
  have listed : ∀ entry ∈ after, entry ∈ Marker.listed false front := fun entry member => by
    rw [split]
    simp [member]
  have here := @Pair.mem_listed _ _ (marker, offset) (by rw [split]; simp :
    _ ∈ Marker.listed false front)
  obtain ⟨begins, fits⟩ := Pair.markerAt?_of_front? rest (noLess ▸ here)
  have positive := Marker.length_spelling_pos marker
  have dropped : (front ++ rest).drop offset = front.drop offset ++ rest :=
    List.drop_append_of_le_length (by dsimp only at fits; omega)
  have notConsumed := Int.not_lt.mpr reached
  rw [split, stepsFrom_append, stepsFrom, if_neg notConsumed] at closes
  rw [split, course_append, Outcome.andThen, course, if_neg notConsumed] at bounded
  generalize (course ⟨options, front ++ rest⟩ {} before).state = state at *
  have noCall : marker ≠ .openParen := by
    rintro rfl
    cases opened
  have moved : (react ⟨options, front ++ rest⟩ marker state offset).state.cursor =
      (offset + (glimpse options marker (front.drop offset ++ rest)).count : Nat) := by
    rcases cursor_react begins noCall with ⟨-, isNested⟩ | moved
    · rcases isNested with rfl | rfl | rfl <;> cases opened
    · dsimp only at moved
      rwa [dropped] at moved
  refine endsOpen_of_course noLess ignores moved listed rises.2.1.2 (fun place inside isEscape => ?_)
    (fun step member => closes step (by simp [member])) bounded
  obtain ⟨within, isHead⟩ := List.getElem?_eq_some_iff.mp isEscape
  have member : (.backslash, place) ∈ Marker.listed false front := by
    rw [Marker.mem_listed_false_iff, List.drop_eq_getElem_cons within, isHead, front?_backslash]
  rw [split] at member
  rcases List.mem_append.mp member with earlier | later
  · have := rises.2.2 _ earlier _ List.mem_cons_self
    dsimp only at this
    omega
  · refine (List.mem_cons.mp later).resolve_left fun same => ?_
    cases same
    cases opened

/-- The scans with and without the comment stay abreast in front of it. -/
theorem abreast_front (noLess : options.lessSyntax = false) (splits : options.splitRules = true)
    (ignores : options.ignoreErrors = true) (isRemark : body.IsRemark)
    (closes : ∀ step ∈ stepsFrom ⟨options, front ++ rest⟩ {} (Marker.listed false front),
      step.Closes (front ++ rest) front.length)
    (bounded : (course ⟨options, front ++ rest⟩ {} (Marker.listed false front)).state.cursor ≤
      front.length) :
    let likeness := Likeness.regrouped (.beginning options front rest (Text.comment body ++ rest))
      noLess splits
    let firstOutcome := course ⟨options, front ++ rest⟩ {} (Marker.listed false front)
    let secondOutcome :=
      course ⟨options, front ++ (Text.comment body ++ rest)⟩ {} (Marker.listed false front)
    (∃ later, Abreast likeness later firstOutcome.state secondOutcome.state) ∧
      likeness.Matches firstOutcome secondOutcome := by
  intro likeness firstOutcome secondOutcome
  have begins {entry : Marker × Nat} (member : entry ∈ Marker.listed false front) :
      Marker.front? options.lessSyntax (front.drop entry.2) = some entry.1 := by
    rw [noLess]
    exact Pair.mem_listed member
  refine depart likeness (fun entry member => (Pair.markerAt?_of_front? rest (begins member)).1)
    (fun before marker offset after split reached _ landed => ?_) bounded
  have member : (marker, offset) ∈ Marker.listed false front := by
    rw [split]
    simp
  have closesHere := closes
  rw [split, stepsFrom_append, stepsFrom, if_neg (Int.not_lt.mpr reached)] at closesHere
  exact Pair.sees_comment noLess ignores isRemark (Pair.mem_listed member)
    (Pair.count_le_of_landed (begins member) (Pair.markerAt?_of_front? rest (begins member)).2 landed)
    (closesHere _ (List.mem_append_right _ List.mem_cons_self))
    (endsOpen_of_opened noLess ignores split closes reached bounded)

/-! ## At the comment -/

/-- At some point of the scan the cursor is not behind a place, and the next step is not in
front of it. -/
def Passes (scan : Scan) (place : Nat) : Prop :=
  ∃ before step after, scan.steps = before ++ step :: after ∧
    (stateAfter {} before).cursor ≤ place ∧ place ≤ step.offset

instance (scan : Scan) (place : Nat) : Decidable (scan.Passes place) :=
  decidable_of_iff' _ exists_append_cons_iff

theorem cursor_le_of_passes {scan : Scan} {place : Nat} (passes : scan.Passes place)
    {ahead behind : List (Marker × Nat)} (split : scan.markers = ahead ++ behind)
    (earlier : ∀ entry ∈ ahead, entry.2 < place) :
    (scan.course {} ahead).state.cursor ≤ place := by
  obtain ⟨before, step, after, isStep, notBehind, notInFront⟩ := passes
  obtain ⟨front, back, markers, reached, -, notPassed, next⟩ := exists_of_stepsFrom_eq isStep
  have behindPlace : ∀ entry ∈ back.head?, place ≤ entry.2 := by
    intro entry isHead
    obtain ⟨later, rfl⟩ := List.head?_eq_some_iff.mp isHead
    rw [stepsFrom, if_neg (Int.not_lt.mpr (notPassed entry isHead))] at next
    obtain ⟨rfl, -⟩ := List.cons.inj next
    exact notInFront
  rw [← reached] at notBehind
  rw [split] at markers
  rcases List.append_eq_append_iff.mp markers with ⟨more, isFront, -⟩ | ⟨more, isAhead, isBack⟩
  · rw [isFront, course_append, Outcome.andThen] at notBehind
    refine Int.le_trans (cursor_le_course fun entry member => ?_) notBehind
    refine markerAt?_of_mem_markers ?_
    rw [split, markers, isFront]
    simp [member]
  · cases more with
    | nil => rwa [isAhead, List.append_nil]
    | cons entry more =>
        have inFront := earlier entry (by simp [isAhead])
        have notInFront := behindPlace entry (by simp [isBack])
        omega

/-- Only a url that is at fault is passed before its spelling ends. -/
theorem eq_url_of_count_lt {text : Text}
    (occurs : Marker.occursHere marker.spelling text = true)
    (short : (glimpse options marker text).count < marker.spelling.length) :
    marker = .url ∧ (glimpse options marker text).count = 3 ∧
      (glimpse options marker text).fault.isSome = true := by
  have fits := Marker.length_le_of_occursHere occurs
  cases marker with
  | url =>
      refine ⟨rfl, ?_⟩
      simp only [glimpse] at short ⊢
      cases reached : Url.reach? text with
      | none => exact ⟨rfl, rfl⟩
      | some count =>
          have long := (Url.endsAt_of_reach? reached).1
          rw [reached] at short
          exact absurd short (Nat.not_lt.mpr (Nat.le_of_lt long))
  | quote quote =>
      simp only [glimpse, Marker.spelling, List.length_singleton] at short fits
      split at short
      · dsimp only at short
        omega
      · dsimp only at short
        split at short <;> omega
  | comment =>
      simp only [glimpse, Marker.spelling, List.length_cons, List.length_nil] at short fits
      split at short <;> · dsimp only at short; omega
  | backslash =>
      simp only [glimpse, Marker.spelling, List.length_singleton] at short fits
      omega
  | lineComment =>
      simp only [glimpse, Marker.spelling, List.length_cons, List.length_nil] at short
      omega
  | _ => exact absurd short (Nat.lt_irrefl _)

/-- The letters of a url that is at fault become a word. -/
theorem react_url_of_fault (ignores : options.ignoreErrors = true) {source : Text} (state : State)
    (letters : (glimpse options .url (source.drop offset)).count = 3)
    (fault : (glimpse options .url (source.drop offset)).fault.isSome = true) :
    react ⟨options, source⟩ .url state offset =
      { state := { state with
          words := state.words ++
            [⟨.text, source.slice state.cursor offset, state.cursor, false⟩,
              ⟨.text, source.slice offset (offset + 3 : Nat), offset, false⟩]
          cursor := (offset + 3 : Nat) } } := by
  obtain ⟨after, noTokens, noKinds⟩ := readUrl_eq ⟨options, source⟩ state offset
  have noReports (found : Option FaultKind) : reported options found = [] := if_pos ignores
  simp only [noReports, letters, Glimpse.wordKind, if_pos fault, State.afterReports_nil] at after
  refine Outcome.eq_of_quiet (after.trans ?_) noTokens (noKinds.trans (noReports _))
  simp [takeText, State.addText, State.moveTo, State.takeWord]

/-- Of the markers astride the place of a comment, only a url that is at fault is handled:
its letters stand in front of the comment. -/
theorem course_astride (noLess : options.lessSyntax = false)
    (ignores : options.ignoreErrors = true) {state : State} (nonneg : 0 ≤ state.cursor)
    (bounded : (course ⟨options, front ++ rest⟩ state (Marker.astride front rest)).state.cursor ≤
      front.length) :
    ∃ words cursor, course ⟨options, front ++ rest⟩ state (Marker.astride front rest) =
        { state := { state with words, cursor } } ∧ 0 ≤ cursor ∧
      Word.ReadAlike
        (State.addText (front ++ rest) { state with words, cursor } front.length).words
        (state.addText (front ++ rest) front.length).words := by
  rcases Marker.astride_eq front rest with none_ | ⟨⟨marker, offset⟩, one⟩
  · rw [none_]
    exact ⟨state.words, state.cursor, rfl, nonneg, .refl _⟩
  obtain ⟨here, before, past⟩ := Marker.mem_astride_iff.mp (one ▸ List.mem_singleton_self _)
  obtain ⟨isActive, occurs⟩ := Marker.front?_eq_some_iff.mp here
  rw [one, course] at bounded ⊢
  by_cases consumed : (offset : Int) < state.cursor
  · rw [if_pos consumed]
    exact ⟨state.words, state.cursor, rfl, nonneg, .refl _⟩
  rw [if_neg consumed] at bounded ⊢
  have begins : markerAt? ⟨options, front ++ rest⟩ offset = some marker := by
    rw [markerAt?, noLess]
    exact here
  have landed : (react ⟨options, front ++ rest⟩ marker state offset).state.cursor ≤
      front.length := bounded
  have short : offset + (glimpse options marker ((front ++ rest).drop offset)).count ≤
      front.length := by
    rcases cursor_react begins (by
        rintro rfl
        exact absurd isActive (by decide)) with ⟨-, nested⟩ | moved
    · rcases nested with rfl | rfl | rfl <;> exact absurd past (Nat.not_lt.mpr before)
    · rw [moved] at landed
      exact Int.ofNat_le.mp landed
  obtain ⟨rfl, three, fault⟩ :=
    @eq_url_of_count_lt options _ _ occurs (by omega)
  have stop : offset + 3 = front.length := by
    simp only [Marker.spelling, List.length_cons, List.length_nil] at past
    omega
  rw [react_url_of_fault ignores state three fault, Outcome.silent_andThen, course, stop]
  refine ⟨_, _, rfl, Int.natCast_nonneg _, ?_⟩
  obtain ⟨start, reached⟩ := Int.eq_ofNat_of_zero_le nonneg
  have split := Text.slice_append_slice (front ++ rest) (by omega : start ≤ offset)
    (Nat.le_of_lt before)
  have nothing : (front ++ rest).slice front.length front.length = [] := by
    rw [Text.slice_natCast, Nat.sub_self, List.take_zero]
  simp only [State.addText, nothing, List.append_assoc]
  refine (Word.ReadAlike.refl _).append ?_
  rw [reached, ← split]
  have last := Word.ReadAlike.cut ((front ++ rest).slice offset front.length) [] offset offset
    front.length
  rw [List.append_nil] at last
  exact ((Word.ReadAlike.refl [_]).append last.symm).trans (Word.ReadAlike.cut _ _ _ _ _).symm

/-- The markers from the beginning of a comment on: those behind its first characters that
begin in it do not matter. -/
theorem exists_listed_comment (body rest : Text) :
    ∃ inner : List (Marker × Nat), (∀ entry ∈ inner, entry.2 < (Text.comment body).length) ∧
      Marker.listed false (Text.comment body ++ rest) = (.comment, 0) ::
        (inner ++ (Marker.listed false rest).map (Marker.moved (Text.comment body).length)) := by
  have begins : (.comment, 0) ∈ Marker.listed false (Text.comment body ++ rest) := by
    rw [Marker.mem_listed_false_iff, Marker.front?_eq_some_iff]
    exact ⟨by decide, by simp [Text.comment, Marker.occursHere, Marker.ignoresCase,
      Marker.spelling]⟩
  have head := filter_le_eq_cons (Marker.pairwise_occurrences_active false _) begins
  rw [List.filter_eq_self.mpr (by simp)] at head
  have behind (entry : Marker × Nat) (member : entry ∈
      (Marker.listed false rest).map (Marker.moved (Text.comment body).length)) :
      0 + 1 ≤ entry.2 := by
    obtain ⟨inner, -, rfl⟩ := List.mem_map.mp member
    simp only [Marker.moved, Text.length_comment]
    omega
  rw [show Marker.occurrences _ _ _ = _ from Marker.listed_false_append (Text.comment body) rest,
    ← List.append_assoc, List.filter_append,
    List.filter_eq_self.mpr fun entry member => decide_eq_true (behind entry member)] at head
  refine ⟨_, fun entry member => ?_, (Marker.listed_false_append ..).trans
    ((List.append_assoc ..).symm.trans head)⟩
  rcases List.mem_append.mp (List.mem_of_mem_filter member) with isInner | isAstride
  · exact (Marker.occursHere_of_mem_occurrences (show (entry.1, entry.2) ∈ _ from isInner)).2.1
  · exact (Marker.mem_astride_iff.mp (show (entry.1, entry.2) ∈ _ from isAstride)).2.1

theorem glimpse_comment_count (isRemark : body.IsRemark) :
    glimpse options .comment (Text.comment body ++ rest) = ⟨(Text.comment body).length, none⟩ := by
  have inner : (Text.comment body ++ rest).drop 2 = body ++ '*' :: '/' :: rest := by
    simp [Text.comment]
  simp only [glimpse, inner, isRemark.find? rest, Text.length_comment]
  congr 1
  omega

/-- The comment is passed over. -/
theorem course_comment (isRemark : body.IsRemark) {state : State} (reached : state.cursor ≤ front.length) :
    let source := front ++ (Text.comment body ++ rest)
    let place := (front ++ Text.comment body).length
    course ⟨options, source⟩ state ((Marker.listed false (Text.comment body ++ rest)).map
        (Marker.moved front.length)) =
      course ⟨options, source⟩ ((state.addText source front.length).moveTo place)
        ((Marker.listed false rest).map (Marker.moved place)) := by
  intro source place
  obtain ⟨inner, inside, listed⟩ := exists_listed_comment body rest
  have stop : front.length + (Text.comment body).length = place := List.length_append.symm
  obtain ⟨after, noTokens, noKinds⟩ := skipComment_eq ⟨options, source⟩ state
    (by simp [source] : front.length ≤ source.length)
  simp only [source, List.drop_left, glimpse_comment_count isRemark, reported_none,
    State.afterReports_nil, stop] at after noKinds
  have passed : react ⟨options, source⟩ .comment state front.length =
      { state := (state.addText source front.length).moveTo place } :=
    Outcome.eq_of_quiet after noTokens noKinds
  rw [listed, List.map_cons, Marker.moved, course, Nat.add_zero, if_neg (Int.not_lt.mpr reached),
    passed, Outcome.silent_andThen, List.map_append, course_append, course_of_consumed,
    Outcome.silent_andThen, List.map_map]
  · refine congrArg _ (List.map_congr_left fun entry _ => ?_)
    simp only [Function.comp_apply, Marker.moved, ← stop, Nat.add_assoc]
  · intro entry member
    obtain ⟨earlier, isInner, rfl⟩ := List.mem_map.mp member
    have before := inside earlier isInner
    simp only [Marker.moved, State.moveTo]
    omega

/-! ## Behind the comment -/

theorem closes_front (noLess : options.lessSyntax = false)
    (closes : ∀ step ∈ steps ⟨options, front ++ rest⟩, step.Closes (front ++ rest) front.length) :
    ∀ step ∈ stepsFrom ⟨options, front ++ rest⟩ {} (Marker.listed false front),
      step.Closes (front ++ rest) front.length := by
  intro step member
  have split := stepsFrom_append ⟨options, front ++ rest⟩ {} (Marker.listed false front) []
  rw [List.append_nil, stepsFrom] at split
  rw [split] at member
  rcases List.mem_append.mp member with early | last
  · refine closes step ?_
    rw [steps, markers_eq, noLess, Marker.listed_false_append, stepsFrom_append]
    exact List.mem_append_left _ early
  · obtain rfl := List.mem_singleton.mp last
    constructor <;>
    · intro isMarker
      cases isMarker

/-- Behind the comment, both scans have read the same. -/
theorem abreast_behind {noLess : options.lessSyntax = false} {splits : options.splitRules = true}
    {later : Nat} {first second : State}
    (abreast : Abreast (.regrouped (.beginning options front rest (Text.comment body ++ rest))
      noLess splits) later first second)
    {words : List Word} {cursor : Int} (nonneg : 0 ≤ cursor) (reached : cursor ≤ front.length)
    (alike : Word.ReadAlike
      (State.addText (front ++ rest) { first with words, cursor } front.length).words
      (first.addText (front ++ rest) front.length).words) :
    Abreast (.regrouped (.ending options front (front ++ Text.comment body) rest) noLess splits) 0
      { first with words, cursor }
      ((second.addText (front ++ (Text.comment body ++ rest)) front.length).moveTo
        (front ++ Text.comment body).length) := by
  have kindred := abreast.kindred
  have mixed (whole : options.splitRules = false) : False := by
    rw [splits] at whole
    cases whole
  refine ⟨⟨kindred.calls, kindred.interpolations, kindred.nested, kindred.pendingError,
    False.elim, fun whole => (mixed whole).elim, fun whole => (mixed whole).elim⟩, Nat.zero_le _,
    nonneg, Int.natCast_nonneg _, fun offset => ?_, fun offset => ?_, ?_⟩
  · simp only [Pair.ending]
    omega
  · simp only [Pair.ending, State.moveTo]
    omega
  · have held := abreast.held_addText abreast.inside (Nat.le_refl _)
    simp only [Pair.beginning, Nat.zero_add] at held
    have nothing := Text.slice_natCast (front ++ Text.comment body ++ rest)
      (front ++ Text.comment body).length (front ++ Text.comment body).length
    rw [Nat.sub_self, List.take_zero] at nothing
    refine alike.trans (Word.ReadAlike.trans held ?_)
    simp only [Pair.ending, State.addText, State.moveTo, Nat.add_zero, nothing]
    have cut := Word.ReadAlike.cut ((front ++ (Text.comment body ++ rest)).slice second.cursor
      front.length) [] second.cursor second.cursor (front ++ Text.comment body).length
    rw [List.append_nil] at cut
    rw [List.append_assoc]
    exact (Word.ReadAlike.refl _).append cut

/-- Both scans emit the same tokens, up to their offsets. -/
theorem tokens_whole_comment (noLess : options.lessSyntax = false)
    (splits : options.splitRules = true) (ignores : options.ignoreErrors = true)
    (isRemark : body.IsRemark)
    (closes : ∀ step ∈ steps ⟨options, front ++ rest⟩, step.Closes (front ++ rest) front.length)
    (passes : Passes ⟨options, front ++ rest⟩ front.length) :
    (whole ⟨options, front ++ rest⟩).tokens.map Token.clearOffsets =
      (whole ⟨options, front ++ (Text.comment body ++ rest)⟩).tokens.map Token.clearOffsets := by
  have firstMarkers : markers ⟨options, front ++ rest⟩ =
      Marker.listed false front ++ Marker.astride front rest ++
        (Marker.listed false rest).map (Marker.moved front.length) := by
    rw [markers_eq, noLess, Marker.listed_false_append, List.append_assoc]
  have seam : Marker.Seam false front (Text.comment body ++ rest) :=
    Marker.seam_of_opens fun first isFirst => by
      cases isFirst
      decide
  have secondMarkers : markers ⟨options, front ++ (Text.comment body ++ rest)⟩ =
      Marker.listed false front ++
        (Marker.listed false (Text.comment body ++ rest)).map (Marker.moved front.length) := by
    rw [markers_eq, noLess, Marker.listed_append seam]
  have bounded := cursor_le_of_passes passes firstMarkers fun entry member => by
    rcases List.mem_append.mp member with isFront | isAstride
    · exact (Marker.occursHere_of_mem_occurrences (show (entry.1, entry.2) ∈ _ from isFront)).2.1
    · exact (Marker.mem_astride_iff.mp (show (entry.1, entry.2) ∈ _ from isAstride)).2.1
  rw [course_append, Outcome.andThen] at bounded
  have begins : ∀ entry ∈ Marker.astride front rest,
      markerAt? ⟨options, front ++ rest⟩ entry.2 = some entry.1 := fun entry member =>
    markerAt?_of_mem_markers (by
      rw [firstMarkers]
      simp [member])
  obtain ⟨⟨later, abreast⟩, before⟩ := abreast_front noLess splits ignores isRemark
    (closes_front noLess closes) (Int.le_trans (cursor_le_course begins) bounded)
  obtain ⟨words, cursor, astride, nonneg, alike⟩ :=
    course_astride noLess ignores abreast.firstNonneg bounded
  rw [astride] at bounded
  have behind := (rejoin (abreast_behind abreast nonneg bounded alike)).tokens
  have notPassed := (abreast.secondPace front.length).not.mpr (Nat.not_lt.mpr abreast.inside)
  have passed := @course_comment options front body rest isRemark _
    (by simpa [Pair.beginning] using notPassed)
  rw [noLess, List.append_assoc, ← passed] at behind
  have tokens := List.rel_append before.tokens behind
  rw [← List.forall₂_eq_eq_eq, List.forall₂_map_left_iff, List.forall₂_map_right_iff, whole, whole,
    firstMarkers, secondMarkers, course_append, course_append, course_append,
    Outcome.andThen_assoc, Outcome.andThen_assoc, Outcome.andThen_assoc]
  simp only [Outcome.andThen, astride, List.nil_append]
  exact tokens

end Scan

/-- A comment between words changes no token but for its offsets. -/
theorem clearOffsets_tokenize_comment (options : TokenizeOptions)
    (noLess : options.lessSyntax = false) (splits : options.splitRules = true)
    (ignores : options.ignoreErrors = true) (front body rest : Text) (isRemark : body.IsRemark)
    (passes : Scan.Passes ⟨options, front ++ rest⟩ front.length)
    (noEscape : ∀ step ∈ Scan.steps ⟨options, front ++ rest⟩,
      step.marker = some .backslash → step.offset + 1 ≠ front.length)
    (closed : ∀ step ∈ Scan.steps ⟨options, front ++ rest⟩,
      step.marker = some .comment → step.offset < front.length →
        Text.findFrom? ['*', '/'] (front ++ rest) (step.offset + 2) ≠ none) :
    (options.tokenize (front ++ (Text.comment body ++ rest))).tokens.map Token.clearOffsets =
      (options.tokenize (front ++ rest)).tokens.map Token.clearOffsets := by
  rw [Scan.tokenize_eq_whole, Scan.tokenize_eq_whole]
  exact (Scan.tokens_whole_comment noLess splits ignores isRemark
    (fun step member => ⟨noEscape step member, closed step member⟩) passes).symm

/-- Neither a string that is left open nor the letters of a url that is at fault take in a
comment, or what it holds. -/
theorem clearOffsets_tokenize_comment_url :
    let front := "a\x7bb:'c url".toList
    let body := "\x7b;:,\x7d".toList
    let rest := "(d e);f:g\x7d".toList
    let tokens (source : Text) :=
      (TokenizeOptions.tokenize {} source).tokens.map Token.clearOffsets
    tokens (front ++ (Text.comment body ++ rest)) = tokens (front ++ rest) ∧
      tokens (front ++ rest) =
        [.opening ⟨['a'], some [['a']], none⟩ 0, .rule ⟨['b'], "'c url(d e)".toList, .empty⟩ 0 false,
          .rule ⟨['f'], ['g'], .empty⟩ 0 false, .closing 0] := by
  intro front body rest tokens
  have same := clearOffsets_tokenize_comment {} rfl rfl rfl front body rest (by decide)
    (by decide +kernel) (by decide +kernel) (by decide +kernel)
  exact ⟨same, by decide +kernel⟩

/-- A comment that is left open at the end of a source may be closed by the beginning of
another one. -/
theorem not_forall_clearOffsets_tokenize_comment :
    ¬∀ (options : TokenizeOptions) (front body rest : Text),
      options.lessSyntax = false → options.splitRules = true → options.ignoreErrors = true →
      body.IsRemark → Scan.Passes ⟨options, front ++ rest⟩ front.length →
      (∀ step ∈ Scan.steps ⟨options, front ++ rest⟩,
        step.marker = some .backslash → step.offset + 1 ≠ front.length) →
      (options.tokenize (front ++ (Text.comment body ++ rest))).tokens.map Token.clearOffsets =
        (options.tokenize (front ++ rest)).tokens.map Token.clearOffsets := by
  intro claimed
  have same := claimed {} "/*a*".toList ['b'] [] rfl rfl rfl (by decide) (by decide +kernel)
    (by decide +kernel)
  exact absurd same (by decide +kernel)

end Stylesheet
