import Stylesheet.Proofs.Rendering.Heading
import Stylesheet.Proofs.Token.Spread

/-!
# Writing tokens

Every token whose texts can be read by themselves is written as glyphs of its own. These
are assembled to the token again, unless a backslash at the end of its text takes along the
semicolon behind it.
-/

namespace Stylesheet

/-! ## Statements without a key or value -/

/-- A statement with the given text, kept as it is because its key or its value is empty. -/
structure IsIncomplete (text : Text) (glyphs : List Glyph) (isOpen : Bool) : Prop where
  lexed : Lexed text glyphs isOpen
  inner : IsContent glyphs
  trimmed : text.trim = text
  notEmpty : text ≠ []
  incomplete : Statement.ofGlyphs .strict glyphs = .incomplete

/-- A statement that is kept as it is, with its semicolon. If it takes along the semicolon,
it is kept as it is all the same. -/
def Text.IsTerminated (text : Text) : Prop :=
  ∃ statement glyphs isOpen, text = statement ++ [';'] ∧
    IsIncomplete statement glyphs isOpen ∧
      (isOpen = true → Statement.ofGlyphs .strict (glyphs ++ [.text ';']) = .incomplete)

/-- A statement that is kept as it is and ends without a semicolon. There must be room
behind it. -/
def Text.IsUnterminated (roomy : Prop) (text : Text) : Prop :=
  roomy ∧ ∃ glyphs isOpen, IsIncomplete text glyphs isOpen

namespace IsIncomplete

variable {text : Text} {glyphs : List Glyph} {isOpen : Bool}

theorem isWellFormed (kept : IsIncomplete text glyphs isOpen) : isWellFormed glyphs = true := by
  apply isWellFormed_of_ne_malformed
  rw [kept.incomplete]
  simp

theorem emitGlyphs_eq (kept : IsIncomplete text glyphs isOpen) (terminator : Text) :
    emitGlyphs glyphs terminator = [.code (text ++ terminator) 0 false] := by
  have characters := kept.lexed.map_character
  rw [emitGlyphs_of_not_declaration terminator (by rw [kept.incomplete]; simp), characters,
    kept.trimmed, List.isEmpty_eq_false_iff.mpr kept.notEmpty]
  rfl

theorem visible (kept : IsIncomplete text glyphs isOpen) :
    ¬Text.Blank (glyphs.map Glyph.character) := by
  intro blank
  rw [kept.lexed.map_character] at blank
  apply kept.notEmpty
  rw [← kept.trimmed, Text.trim_of_blank blank]

end IsIncomplete

namespace Token

/-! ## Legible tokens -/

mutual

/-- A token whose texts can be read by themselves, wherever it stands in a list. -/
def IsLegible (roomy : Prop) : Token → Prop
  | code text _ error => error = false ∧ text.IsTerminated
  | rule declaration _ error => error = false ∧ declaration.IsLegible
  | block heading _ children => heading.IsLegible roomy ∧ AreLegible roomy children
  | _ => False

/-- Tokens whose texts can be read by themselves. A statement without a semicolon is the
last of its list. -/
def AreLegible (roomy : Prop) : List Token → Prop
  | [] => True
  | token :: tokens =>
      (IsLegible roomy token ∨
        tokens = [] ∧ ∃ text offset, token = code text offset false ∧
          text.IsUnterminated roomy) ∧
        AreLegible roomy tokens

end

mutual

/-- Whether the text of a token, or of one inside it, takes along the semicolon behind it, so
that its statement does not end there. A statement that is kept as it is and ends a list
ends at the closing brace as well. -/
def leavesOpen (isLast : Bool) : Token → Bool
  | code text _ _ => !isLast && text.getLast? == some ';' && Text.endsOpen text.dropLast
  | rule declaration _ _ => declaration.leavesOpen
  | block _ _ children => anyLeavesOpen children
  | _ => false

def anyLeavesOpen : List Token → Bool
  | [] => false
  | token :: tokens => leavesOpen tokens.isEmpty token || anyLeavesOpen tokens

end

mutual

theorem isTree_of_isLegible {roomy : Prop} :
    {token : Token} → token.IsLegible roomy → token.IsTree
  | .code .., _ => trivial
  | .rule .., _ => trivial
  | .block .., legible => areTrees_of_areLegible legible.2

theorem areTrees_of_areLegible {roomy : Prop} :
    {tokens : List Token} → AreLegible roomy tokens → AreTrees tokens
  | [], _ => trivial
  | token :: tokens, legible => by
      refine ⟨?_, areTrees_of_areLegible legible.2⟩
      rcases legible.1 with isLegible | ⟨-, text, offset, rfl, -⟩
      · exact isTree_of_isLegible isLegible
      · trivial

end

/-! ## Transcripts -/

/-- A token is written as these glyphs, and they are assembled to the token again unless its
statement does not end with its semicolon. -/
structure IsTranscript (options : LayoutOptions) (isLast : Bool) (space : Text) (token : Token)
    (glyphs : List Glyph) : Prop where
  leads : Leads (options.renderToken space false token) glyphs
  speaks : Speaks glyphs
  reads : token.leavesOpen isLast = false → ∃ flat, outline flat = outline token.flattenOne ∧
    ∀ rest, (isLast = true → Ends rest) → Reads glyphs flat rest
  departs : token.leavesOpen isLast = true → ∀ depth rest, 0 ≤ depth →
    (isLast = false → Speaks rest) → Departs (assemble depth [] (glyphs ++ rest)).tokens [token]

/-- The same of the tokens of a list. -/
structure AreTranscript (options : LayoutOptions) (space : Text) (tokens : List Token)
    (glyphs : List Glyph) : Prop where
  leads : Leads (options.renderTokens space false tokens) glyphs
  speaks : tokens ≠ [] → Speaks glyphs
  reads : anyLeavesOpen tokens = false → ∃ flat, outline flat = outline (flatten tokens) ∧
    ∀ rest, Ends rest → Reads glyphs flat rest
  departs : anyLeavesOpen tokens = true → ∀ depth rest, 0 ≤ depth →
    Departs (assemble depth [] (glyphs ++ rest)).tokens tokens

section Statements

variable {options : LayoutOptions} {roomy : Prop} {text space : Text} {content : List Glyph}
  {isOpen : Bool}

/-- The semicolon behind a statement, which an open statement takes along. -/
def semicolon (isOpen : Bool) : Glyph :=
  if isOpen then .text ';' else .boundary ';'

theorem leads_semicolon (lexed : Lexed text content isOpen) :
    Leads (text ++ [';']) (content ++ [semicolon isOpen]) := by
  cases isOpen with
  | false => exact Leads.boundary lexed (by decide)
  | true => exact Leads.taken lexed ';'

theorem leads_line (plain : options.IsPlain) (isBlank : Text.Blank space)
    (leads : Leads text content) :
    Leads (space ++ text ++ options.lineBreak)
      (space.map .text ++ content ++ options.lineBreak.map .text) :=
  ((Leads.blank isBlank).append leads).append (Leads.blank plain.blank_lineBreak)

theorem reads_line {flat : List Token} {rest : List Glyph} (plain : options.IsPlain)
    (isBlank : Text.Blank space)
    (reads : Reads content flat (options.lineBreak.map .text ++ rest)) :
    Reads (space.map .text ++ content ++ options.lineBreak.map .text) flat rest := by
  have whole := ((Reads.blank isBlank _).append reads).append
    (Reads.blank plain.blank_lineBreak rest)
  rwa [List.nil_append, List.append_nil] at whole

theorem speaks_line (inner : IsContent content)
    (visible : ¬Text.Blank (content.map Glyph.character)) (more rest : List Glyph) :
    Speaks (space.map .text ++ (content ++ more) ++ rest) := by
  rw [List.append_assoc, List.append_assoc]
  exact (Speaks.of_visible inner visible _).content_append (isContent_map_text space)

/-- The first token behind a statement that takes along its semicolon is made of it. -/
theorem exists_head_taken (isBlank : Text.Blank space) (inner : IsContent content)
    (visible : ¬Text.Blank (content.map Glyph.character)) (depth : Int) (rest : List Glyph) :
    ∃ head tail, (assemble depth []
          (space.map .text ++ (content ++ [semicolon true]) ++ rest)).tokens = head :: tail ∧
      ((∃ heading, head = .opening heading 0) ∨
        ∃ more terminator,
          emitGlyphs (content ++ .text ';' :: more) terminator = [head]) ∧
      (Speaks rest → ∀ offset error, head ≠
        .code (Text.trim (content.map Glyph.character ++ [';'])) offset error) := by
  have taken : IsContent (content ++ [.text ';']) :=
    isContent_append inner (isContent_map_text [';'])
  have stillVisible : ¬Text.Blank ((content ++ [Glyph.text ';']).map Glyph.character) := by
    rw [List.map_append, Text.blank_append]
    exact fun both => visible both.1
  have whole : assemble depth []
      (space.map .text ++ (content ++ [semicolon true]) ++ rest) =
        assemble depth (content ++ [.text ';']) rest := by
    rw [List.append_assoc, Reads.assemble_blank isBlank]
    exact assemble_append depth [] taken
  obtain ⟨head, tail, tokens, kind⟩ := exists_head_assemble depth stillVisible rest
  refine ⟨head, tail, by rw [whole, tokens], ?_, ?_⟩
  · refine kind.imp_right ?_
    rintro ⟨more, terminator, emitted⟩
    rw [List.append_assoc, List.singleton_append] at emitted
    exact ⟨more, terminator, emitted⟩
  · intro speaks
    obtain ⟨other, others, same, differs⟩ := exists_head_ne_of_speaks depth stillVisible speaks
    rw [tokens] at same
    obtain ⟨rfl, -⟩ := List.cons.inj same
    rwa [List.map_append] at differs

theorem rule_transcript {declaration : Declaration} (legible : declaration.IsLegible)
    (plain : options.IsPlain) (isLast : Bool) (isBlank : Text.Blank space) (offset : Int) :
    ∃ glyphs, IsTranscript options isLast space (.rule declaration offset false) glyphs := by
  obtain ⟨before, behind, blank, lexed, allKey, inner, noColon, key, blankBehind, value⟩ :=
    Declaration.exists_lexed_written options legible
  have isDeclaration :=
    Declaration.ofGlyphs_written legible allKey noColon key blankBehind value
  have content := Declaration.isContent_of_key allKey inner
  have visible : ¬Text.Blank ((before ++ .text ':' :: behind).map Glyph.character) := by
    rw [List.map_append, Text.blank_append]
    rintro ⟨-, behindBlank⟩
    cases behindBlank ':' List.mem_cons_self
  have leads := leads_line plain isBlank (leads_semicolon lexed)
  rw [← Declaration.renderDeclaration_eq plain] at leads
  refine ⟨_, leads, ?_, ?_, ?_⟩
  · exact speaks_line content visible _ _
  · intro closed
    have isOpen : declaration.leavesOpen = false := closed
    refine ⟨[.rule declaration 0 false], rfl, fun rest _ => ?_⟩
    have formed : isWellFormed (before ++ .text ':' :: behind) = true := by
      apply isWellFormed_of_ne_malformed
      rw [isDeclaration]
      simp
    have reads := Reads.statement content formed (options.lineBreak.map .text ++ rest)
    rw [emitGlyphs_of_declaration _ isDeclaration] at reads
    rw [isOpen]
    exact reads_line plain isBlank reads
  · intro opened depth rest _ _
    have isOpen : declaration.leavesOpen = true := opened
    obtain ⟨head, tail, tokens, kind, -⟩ := exists_head_taken isBlank content visible depth
      (options.lineBreak.map .text ++ rest)
    rw [isOpen, List.append_assoc, tokens]
    rcases kind with ⟨heading, rfl⟩ | ⟨more, terminator, emitted⟩
    · exact departs_of_head tail rfl rfl (by simp [adjust])
    · rw [List.append_assoc, List.cons_append] at emitted
      rcases emitGlyphs_cases emitted with ⟨other, isOther, rfl⟩ | rfl
      · refine departs_of_head tail rfl rfl ?_
        have different := Declaration.ofGlyphs_taken_ne allKey value more
        rw [isOther] at different
        simpa [adjust] using different
      · exact departs_of_head tail rfl rfl (by simp [adjust])

theorem isTerminated_transcript {text : Text} (isTerminated : text.IsTerminated)
    (plain : options.IsPlain) (isLast : Bool) (isBlank : Text.Blank space) (offset : Int) :
    ∃ glyphs, IsTranscript options isLast space (.code text offset false) glyphs := by
  obtain ⟨statement, content, isOpen, rfl, kept, stillKept⟩ := isTerminated
  have characters := kept.lexed.map_character
  have opens : (code (statement ++ [';']) offset false).leavesOpen isLast =
      (!isLast && isOpen) := by
    rw [leavesOpen, List.getLast?_concat, List.dropLast_concat, kept.lexed.isOpen_eq]
    simp
  refine ⟨_, leads_line plain isBlank (leads_semicolon kept.lexed), ?_, ?_, ?_⟩
  · exact speaks_line kept.inner kept.visible _ _
  · intro closed
    refine ⟨[.code (statement ++ [';']) 0 false], rfl, fun rest follows => ?_⟩
    apply reads_line plain isBlank
    cases isOpen with
    | false =>
        have reads := Reads.statement kept.inner kept.isWellFormed
          (options.lineBreak.map .text ++ rest)
        rw [kept.emitGlyphs_eq] at reads
        exact reads
    | true =>
        rw [opens, Bool.and_true, Bool.not_eq_false'] at closed
        have taken : IsIncomplete (statement ++ [';']) (content ++ [.text ';']) false :=
          { lexed := (Leads.taken kept.lexed ';').lexed
            inner := isContent_append kept.inner (isContent_map_text [';'])
            trimmed := Text.trim_append_eq_self kept.trimmed kept.notEmpty (by rintro last ⟨⟩; rfl)
            notEmpty := by simp
            incomplete := stillKept rfl }
        have reads := Reads.unterminated taken.inner taken.isWellFormed
          ((follows closed).blank_append plain.blank_lineBreak)
        rw [taken.emitGlyphs_eq, List.append_nil] at reads
        exact reads
  · intro opened depth rest _ follows
    rw [opens, Bool.and_eq_true, Bool.not_eq_true'] at opened
    obtain ⟨notLast, rfl⟩ := opened
    have speaks : Speaks (options.lineBreak.map .text ++ rest) :=
      (follows notLast).content_append (isContent_map_text _)
    obtain ⟨head, tail, tokens, kind, differs⟩ := exists_head_taken isBlank kept.inner
      kept.visible depth (options.lineBreak.map .text ++ rest)
    have trimmed : Text.trim (statement ++ [';']) = statement ++ [';'] :=
      Text.trim_append_eq_self kept.trimmed kept.notEmpty (by rintro last ⟨⟩; rfl)
    rw [characters, trimmed] at differs
    rw [List.append_assoc, tokens]
    rcases kind with ⟨heading, rfl⟩ | ⟨more, terminator, emitted⟩
    · exact departs_of_head tail rfl rfl (by simp [adjust])
    · rcases emitGlyphs_cases emitted with ⟨other, -, rfl⟩ | rfl
      · exact departs_of_head tail rfl rfl (by simp [adjust])
      · refine departs_of_head tail rfl rfl ?_
        have different := differs speaks 0 false
        simpa [adjust] using different

theorem isUnterminated_transcript {text : Text} (isUnterminated : text.IsUnterminated roomy)
    (plain : options.IsPlain) (room : roomy → options.IsRoomy) (isBlank : Text.Blank space)
    (offset : Int) :
    ∃ glyphs, IsTranscript options true space (.code text offset false) glyphs := by
  obtain ⟨hasRoom, content, isOpen, kept⟩ := isUnterminated
  have leads := (Leads.blank isBlank).append
    (Leads.white kept.lexed plain.blank_lineBreak (room hasRoom).lineBreak)
  rw [← List.append_assoc] at leads
  refine ⟨_, leads, ?_, ?_, ?_⟩
  · have speaks := Speaks.of_visible kept.inner kept.visible (options.lineBreak.map .text)
    exact speaks.content_append (isContent_map_text space)
  · intro _
    refine ⟨[.code text 0 false], rfl, fun rest follows => ?_⟩
    have ends := (follows rfl).blank_append plain.blank_lineBreak
    have reads := Reads.unterminated kept.inner kept.isWellFormed ends
    rw [kept.emitGlyphs_eq, List.append_nil] at reads
    have line := reads_line plain isBlank reads
    rwa [List.append_assoc] at line
  · intro opened
    rw [leavesOpen] at opened
    cases opened

end Statements

section Blocks

variable {options : LayoutOptions} {roomy : Prop} {space : Text}

theorem leads_brace {text back : Text} {content : List Glyph} {isOpen : Bool}
    (lexed : Lexed text content isOpen) (isBlank : Text.Blank back)
    (room : isOpen = true → back ≠ []) :
    Leads (text ++ back ++ ['\x7b']) (content ++ back.map .text ++ [.boundary '\x7b']) := by
  cases back with
  | nil =>
      cases isOpen with
      | true => exact absurd rfl (room rfl)
      | false =>
          rw [List.append_nil, List.map_nil, List.append_nil]
          exact Leads.boundary lexed (by decide)
  | cons character back =>
      exact (Leads.white lexed isBlank (by simp)).append (Leads.boundary Lexed.nil (by decide))

/-- The glyphs of a block with the given heading and contents. -/
def blockGlyphs (options : LayoutOptions) (space : Text) (content inner : List Glyph) :
    List Glyph :=
  space.map .text ++
    (content ++ .boundary '\x7b' ::
      (options.lineBreak.map .text ++ inner ++ (space.map .text ++ [.boundary '\x7d']))) ++
    options.lineBreak.map .text

variable {heading : Heading} {offset : Int} {children : List Token} {content inner : List Glyph}

theorem leads_block (plain : options.IsPlain) (isBlank : Text.Blank space)
    (opens : Leads (options.renderHeading heading ++ options.beforeBrace space ++ ['\x7b'])
      (content ++ [.boundary '\x7b']))
    (leads : Leads (options.renderTokens (space ++ options.indent) false children) inner) :
    Leads (options.renderToken space false (.block heading offset children))
      (blockGlyphs options space content inner) := by
  have closes : Leads ['\x7d'] [.boundary '\x7d'] := Leads.boundary Lexed.nil (by decide)
  have contents := ((Leads.blank plain.blank_lineBreak).append leads).append
    ((Leads.blank isBlank).append closes)
  have whole := leads_line plain isBlank (opens.append contents)
  rw [LayoutOptions.renderToken, LayoutOptions.renderOpening, LayoutOptions.renderClosing,
    if_neg Bool.false_ne_true, blockGlyphs]
  simpa only [List.append_assoc, List.cons_append, List.nil_append] using whole

theorem speaks_block (isContent : IsContent content) :
    Speaks (blockGlyphs options space content inner) := by
  have speaks : Speaks (.boundary '\x7b' :: (options.lineBreak.map .text ++ inner ++
      (space.map .text ++ [.boundary '\x7d']))) :=
    .boundary _ (by decide)
  exact ((speaks.content_append isContent).content_append (isContent_map_text space)).append _

/-- A block opens with its heading, and what its contents are assembled to comes next. -/
theorem tokens_block (isBlank : Text.Blank space) (blankLine : Text.Blank options.lineBreak)
    (isContent : IsContent content) (depth : Int) (rest : List Glyph) :
    (assemble depth [] (blockGlyphs options space content inner ++ rest)).tokens =
      .opening (.ofGlyphs content) 0 ::
        (assemble (depth + 1) [] (inner ++ (space.map .text ++ .boundary '\x7d' ::
          (options.lineBreak.map .text ++ rest)))).tokens := by
  have whole : blockGlyphs options space content inner ++ rest =
      space.map .text ++ (content ++ .boundary '\x7b' :: (options.lineBreak.map .text ++
        (inner ++ (space.map .text ++ .boundary '\x7d' ::
          (options.lineBreak.map .text ++ rest))))) := by
    simp only [blockGlyphs, List.append_assoc, List.cons_append, List.nil_append]
  have noSemicolon : '\x7b' ≠ ';' := by decide
  rw [whole, Reads.assemble_blank isBlank, assemble_append depth [] isContent, List.nil_append,
    assemble, if_neg noSemicolon, if_pos rfl, Reads.assemble_blank blankLine]
  rfl

theorem block_transcript (legible : heading.IsLegible roomy) (plain : options.IsPlain)
    (room : roomy → options.IsRoomy) (isLast : Bool) (isBlank : Text.Blank space)
    (transcript : AreTranscript options (space ++ options.indent) children inner) :
    ∃ glyphs, IsTranscript options isLast space (.block heading offset children) glyphs := by
  obtain ⟨known, isOpen, lexed, knownInner, roomBehind, same⟩ :=
    Heading.exists_lexed_renderHeading options legible
  have blankBrace := plain.blank_beforeBrace isBlank
  have opens := leads_brace lexed blankBrace
    fun opened => (room (roomBehind opened)).beforeBrace space
  have isContent : IsContent (known ++ (options.beforeBrace space).map .text) :=
    isContent_append knownInner (isContent_map_text _)
  rw [← ofGlyphs_append_blank blankBrace] at same
  generalize known ++ (options.beforeBrace space).map .text = content at opens isContent same
  refine ⟨_, leads_block plain isBlank opens transcript.leads, speaks_block isContent, ?_, ?_⟩
  · intro closed
    obtain ⟨flat, flatSame, reads⟩ := transcript.reads closed
    refine ⟨.opening (.ofGlyphs content) 0 :: (flat ++ [.closing 0]), ?_, fun rest _ => ?_⟩
    · rw [flattenOne, outline, adjustAll, adjust, same, ← outline, outline_append, flatSame,
        ← outline_append]
      rfl
    · apply reads_line plain isBlank
      apply Reads.block isContent isBlank
      have ends := Ends.blank_append isBlank
        (.closing (options.lineBreak.map .text ++ rest))
      exact (Reads.blank plain.blank_lineBreak _).append (reads _ ends)
  · intro opened depth rest inside _
    rw [tokens_block isBlank plain.blank_lineBreak isContent]
    exact Departs.block same (transcript.departs opened _ _ (by omega))

end Blocks

section Lists

variable {options : LayoutOptions} {roomy : Prop} {space : Text}

theorem nil_transcript : AreTranscript options space [] [] where
  leads := Leads.nil
  speaks := fun notEmpty => absurd rfl notEmpty
  reads := fun _ => ⟨[], rfl, fun rest _ => Reads.nil rest⟩
  departs := fun opened => by cases opened

theorem cons_transcript {token : Token} {tokens : List Token} {glyphs others : List Glyph}
    (isTree : token.IsTree)
    (first : IsTranscript options tokens.isEmpty space token glyphs)
    (later : AreTranscript options space tokens others) :
    AreTranscript options space (token :: tokens) (glyphs ++ others) where
  leads := by
    have space_ : options.spaceAfter space token = space := by cases token <;> trivial
    have noClosing : token.isClosing = false := by cases token <;> trivial
    rw [LayoutOptions.renderTokens, space_, noClosing]
    exact first.leads.append later.leads
  speaks := fun _ => first.speaks.append others
  reads := by
    intro closed
    rw [anyLeavesOpen, Bool.or_eq_false_iff] at closed
    obtain ⟨flat, same, reads⟩ := first.reads closed.1
    obtain ⟨more, moreSame, moreReads⟩ := later.reads closed.2
    refine ⟨flat ++ more, ?_, fun rest ends => ?_⟩
    · rw [flatten, outline_append, outline_append, same, moreSame]
    · refine (reads _ ?_).append (moreReads rest ends)
      intro isLast
      obtain rfl := List.isEmpty_iff.mp isLast
      obtain rfl : others = [] := List.map_eq_nil_iff.mp later.leads.lexed.map_character
      exact ends
  departs := by
    intro opened depth rest inside
    have notLast (nonempty : tokens.isEmpty = false) : Speaks (others ++ rest) :=
      (later.speaks (List.isEmpty_eq_false_iff.mp nonempty)).append rest
    rw [List.append_assoc]
    cases here : token.leavesOpen tokens.isEmpty with
    | true => exact (first.departs here depth _ inside notLast).append_right tokens
    | false =>
        rw [anyLeavesOpen, here, Bool.false_or] at opened
        obtain ⟨flat, same, reads⟩ := first.reads here
        have isLast (isLast : tokens.isEmpty = true) : Ends (others ++ rest) := by
          obtain rfl := List.isEmpty_iff.mp isLast
          cases opened
        have spreads : spread (outline flat) = spread (outline [token]) := by
          rw [same, outline, outline, spread_adjustAll, spread_flattenOne, spread_adjustAll,
            spread, spread, List.append_nil]
        rw [reads _ isLast depth inside]
        exact (later.departs opened depth rest inside).append_left spreads

end Lists

mutual

/-- Every legible token is written as glyphs of its own. -/
theorem exists_transcript {options : LayoutOptions} {roomy : Prop} (plain : options.IsPlain)
    (room : roomy → options.IsRoomy) : (token : Token) → token.IsLegible roomy →
      (isLast : Bool) → (space : Text) → Text.Blank space →
        ∃ glyphs, IsTranscript options isLast space token glyphs
  | .code text offset error, legible, isLast, space, isBlank => by
      obtain ⟨rfl, isTerminated⟩ := legible
      exact isTerminated_transcript isTerminated plain isLast isBlank offset
  | .rule declaration offset error, legible, isLast, space, isBlank => by
      obtain ⟨rfl, isDeclaration⟩ := legible
      exact rule_transcript isDeclaration plain isLast isBlank offset
  | .block heading offset children, legible, isLast, space, isBlank => by
      obtain ⟨inner, transcript⟩ := exists_transcripts plain room children legible.2
        (space ++ options.indent) (Text.blank_append.mpr ⟨isBlank, plain.blank_indent⟩)
      exact block_transcript legible.1 plain room isLast isBlank transcript

theorem exists_transcripts {options : LayoutOptions} {roomy : Prop} (plain : options.IsPlain)
    (room : roomy → options.IsRoomy) : (tokens : List Token) → AreLegible roomy tokens →
      (space : Text) → Text.Blank space →
        ∃ glyphs, AreTranscript options space tokens glyphs
  | [], _, _, _ => ⟨[], nil_transcript⟩
  | token :: tokens, legible, space, isBlank => by
      obtain ⟨others, later⟩ := exists_transcripts plain room tokens legible.2 space isBlank
      rcases legible.1 with isLegible | ⟨rfl, text, offset, rfl, isUnterminated⟩
      · obtain ⟨glyphs, first⟩ :=
          exists_transcript plain room token isLegible tokens.isEmpty space isBlank
        exact ⟨glyphs ++ others, cons_transcript (isTree_of_isLegible isLegible) first later⟩
      · obtain ⟨glyphs, first⟩ :=
          isUnterminated_transcript isUnterminated plain room isBlank offset
        exact ⟨glyphs ++ others, cons_transcript trivial first later⟩

end

end Token

end Stylesheet
