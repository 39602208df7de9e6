import Stylesheet.Proofs.Lexing.Leading

/-!
# Assembling one after the other

What a piece of glyphs is assembled to, in front of other glyphs. A statement with its
semicolon stands for itself; one without ends at a closing brace or with the glyphs.
-/

namespace Stylesheet

/-! ## What follows -/

/-- Glyphs behind which a statement without a semicolon ends: only blanks stand before a
closing brace or before the end. -/
inductive Ends : List Glyph → Prop
  | nil : Ends []
  | closing (behind : List Glyph) : Ends (.boundary '\x7d' :: behind)
  | blank {character : Char} {rest : List Glyph} (isBlank : Text.isBlank character = true)
      (behind : Ends rest) : Ends (.text character :: rest)

/-- Glyphs behind which a statement without a semicolon goes on. -/
inductive Speaks : List Glyph → Prop
  | boundary {character : Char} (rest : List Glyph) (goesOn : character ∈ [';', '\x7b']) :
      Speaks (.boundary character :: rest)
  | visible {glyph : Glyph} (rest : List Glyph) (inner : IsContent [glyph])
      (isVisible : Text.isBlank glyph.character = false) : Speaks (glyph :: rest)
  | blank {glyph : Glyph} {rest : List Glyph} (inner : IsContent [glyph])
      (isBlank : Text.isBlank glyph.character = true) (behind : Speaks rest) :
      Speaks (glyph :: rest)

theorem Ends.blank_append {blank : Text} (isBlank : Text.Blank blank) {rest : List Glyph}
    (ends : Ends rest) : Ends (blank.map .text ++ rest) := by
  induction blank with
  | nil => exact ends
  | cons character blank induction =>
      exact .blank isBlank.head (induction isBlank.tail)

theorem Speaks.append {glyphs : List Glyph} (speaks : Speaks glyphs) (more : List Glyph) :
    Speaks (glyphs ++ more) := by
  induction speaks with
  | boundary rest goesOn => exact .boundary _ goesOn
  | visible rest inner isVisible => exact .visible _ inner isVisible
  | blank inner isBlank _ induction => exact .blank inner isBlank induction

theorem Speaks.content_append {content glyphs : List Glyph} (inner : IsContent content)
    (speaks : Speaks glyphs) : Speaks (content ++ glyphs) := by
  induction content with
  | nil => exact speaks
  | cons glyph content induction =>
      cases blank : Text.isBlank glyph.character with
      | false => exact .visible _ inner.head blank
      | true => exact .blank inner.head blank (induction inner.tail)

theorem Speaks.of_visible {content : List Glyph} (inner : IsContent content)
    (visible : ¬Text.Blank (content.map Glyph.character)) (rest : List Glyph) :
    Speaks (content ++ rest) := by
  induction content with
  | nil => exact absurd Text.blank_nil visible
  | cons glyph content induction =>
      cases blank : Text.isBlank glyph.character with
      | false => exact .visible _ inner.head blank
      | true =>
          refine .blank inner.head blank (induction inner.tail fun rest => visible ?_)
          intro character member
          rcases List.mem_cons.mp member with rfl | member
          · exact blank
          · exact rest character member

/-! ## Reading -/

/-- Whether glyphs are assembled to tokens of their own in front of others. -/
def Reads (glyphs : List Glyph) (flat : List Token) (rest : List Glyph) : Prop :=
  ∀ depth : Int, 0 ≤ depth →
    assemble depth [] (glyphs ++ rest) = (assemble depth [] rest).prepend flat true

namespace Reads

variable {glyphs others content rest : List Glyph} {flat more : List Token} {white : Text}

theorem nil (rest : List Glyph) : Reads [] [] rest := fun _ _ => rfl

theorem append (before : Reads glyphs flat (others ++ rest)) (behind : Reads others more rest) :
    Reads (glyphs ++ others) (flat ++ more) rest := by
  intro depth inside
  rw [List.append_assoc, before depth inside, behind depth inside]
  simp [Draft.prepend]

theorem assemble_blank (isBlank : Text.Blank white) (depth : Int) (rest : List Glyph) :
    assemble depth [] (white.map .text ++ rest) = assemble depth [] rest := by
  rw [assemble_append depth [] (isContent_map_text white), List.nil_append]
  have dropped := assemble_blank_append isBlank [] depth rest
  rwa [List.append_nil] at dropped

theorem blank (isBlank : Text.Blank white) (rest : List Glyph) :
    Reads (white.map .text) [] rest := by
  intro depth _
  rw [assemble_blank isBlank]
  rfl

theorem statement (inner : IsContent content) (formed : isWellFormed content = true)
    (rest : List Glyph) :
    Reads (content ++ [.boundary ';']) (emitGlyphs content [';']) rest := by
  intro depth _
  rw [List.append_assoc, assemble_append depth [] inner, List.nil_append, List.singleton_append,
    assemble, if_pos rfl, formed]

/-- A statement that ends at a closing brace or with the glyphs. -/
theorem unterminated (inner : IsContent content) (formed : isWellFormed content = true)
    (ends : Ends rest) : Reads content (emitGlyphs content []) rest := by
  intro depth _
  have emitNil : emitGlyphs [] [] = [] := rfl
  have formedNil : isWellFormed [] = true := rfl
  rw [assemble_append depth [] inner, List.nil_append]
  clear inner
  induction ends generalizing content with
  | nil =>
      rw [assemble, assemble, emitNil, formedNil, formed]
      simp [Draft.prepend]
  | closing behind =>
      have noSemicolon : '\x7d' ≠ ';' := by decide
      have noOpening : '\x7d' ≠ '\x7b' := by decide
      rw [assemble, assemble, if_neg noSemicolon, if_neg noSemicolon, if_neg noOpening,
        if_neg noOpening, emitNil, formedNil, formed]
      simp [Draft.prepend]
  | @blank character rest isBlank _ induction =>
      have isWhite := Text.blank_singleton.mpr isBlank
      have emitted := emitGlyphs_append_blank isWhite content []
      have stillFormed := isWellFormed_append_blank isWhite content
      rw [List.map_singleton] at emitted stillFormed
      have dropped := assemble_blank isWhite depth rest
      rw [List.map_singleton, List.singleton_append] at dropped
      rw [dropped, ← emitted, ← induction (stillFormed.trans formed), assemble]
      simp

theorem block {flat : List Token} (inner : IsContent content) (isBlank : Text.Blank white)
    (contents : Reads glyphs flat (white.map .text ++ .boundary '\x7d' :: rest)) :
    Reads (content ++ .boundary '\x7b' :: (glyphs ++ (white.map .text ++ [.boundary '\x7d'])))
      (.opening (.ofGlyphs content) 0 :: (flat ++ [.closing 0])) rest := by
  intro depth inside
  have whole : content ++ .boundary '\x7b' ::
      (glyphs ++ (white.map .text ++ [.boundary '\x7d'])) ++ rest =
        content ++ (.boundary '\x7b' ::
          (glyphs ++ (white.map .text ++ .boundary '\x7d' :: rest))) := by simp
  have noSemicolon : '\x7b' ≠ ';' := by decide
  have noOpening : '\x7d' ≠ '\x7b' := by decide
  have closed : assemble (depth + 1) [] (.boundary '\x7d' :: rest) =
      (assemble depth [] rest).prepend [.closing 0] true := by
    have emitNil : emitGlyphs [] [] = [] := rfl
    have formedNil : isWellFormed [] = true := rfl
    have open_ : depth + 1 ≠ 0 := by omega
    have back : depth + 1 - 1 = depth := by omega
    rw [assemble, if_neg (by decide), if_neg noOpening, emitNil, formedNil, back,
      bne_iff_ne.mpr open_]
    rfl
  rw [whole, assemble_append depth [] inner, List.nil_append, assemble, if_neg noSemicolon,
    if_pos rfl, contents (depth + 1) (by omega), assemble_blank isBlank, closed]
  simp [Draft.prepend]

end Reads

/-! ## The first token -/

theorem emitGlyphs_of_visible {content : List Glyph}
    (visible : ¬Text.Blank (content.map Glyph.character)) (terminator : Text) :
    ∃ token, emitGlyphs content terminator = [token] := by
  rw [emitGlyphs]
  split
  · exact ⟨_, rfl⟩
  · have notEmpty : (Text.trim (content.map Glyph.character)).isEmpty = false := by
      rw [List.isEmpty_eq_false_iff]
      exact fun empty => visible (Text.blank_of_trim_eq_nil empty)
    rw [notEmpty]
    exact ⟨_, rfl⟩

/-- Where the content of an unfinished statement is visible, the next token is the opening of
a block or begins with this content. -/
theorem exists_head_assemble (depth : Int) {content : List Glyph}
    (visible : ¬Text.Blank (content.map Glyph.character)) (rest : List Glyph) :
    ∃ head tail, (assemble depth content rest).tokens = head :: tail ∧
      ((∃ heading, head = .opening heading 0) ∨
        ∃ more terminator, emitGlyphs (content ++ more) terminator = [head]) := by
  induction rest generalizing content with
  | nil =>
      obtain ⟨token, emitted⟩ := emitGlyphs_of_visible visible []
      refine ⟨token, [], ?_, Or.inr ⟨[], [], by rwa [List.append_nil]⟩⟩
      rw [assemble, emitted]
  | cons glyph rest induction =>
      have longer : ¬Text.Blank ((content ++ [glyph]).map Glyph.character) := by
        rw [List.map_append, Text.blank_append]
        exact fun both => visible both.1
      rcases boundary_or_isContent glyph with ⟨character, rfl⟩ | isContent
      · rw [assemble]
        split
        · obtain ⟨token, emitted⟩ := emitGlyphs_of_visible visible [';']
          refine ⟨token, _, by rw [Draft.prepend, emitted]; rfl, Or.inr ⟨[], [';'], ?_⟩⟩
          rwa [List.append_nil]
        · split
          · exact ⟨_, _, rfl, Or.inl ⟨_, rfl⟩⟩
          · obtain ⟨token, emitted⟩ := emitGlyphs_of_visible visible []
            refine ⟨token, _, by rw [Draft.prepend, emitted]; rfl, Or.inr ⟨[], [], ?_⟩⟩
            rwa [List.append_nil]
      · obtain ⟨head, tail, tokens, kind⟩ := induction longer
        refine ⟨head, tail, by rw [assemble_cons isContent, tokens], kind.imp_right ?_⟩
        rintro ⟨more, terminator, emitted⟩
        exact ⟨glyph :: more, terminator, by rwa [List.append_assoc] at emitted⟩

theorem emitGlyphs_cases {content : List Glyph} {terminator : Text} {head : Token}
    (emitted : emitGlyphs content terminator = [head]) :
    (∃ declaration, Statement.ofGlyphs .strict content = .declaration declaration ∧
        head = .rule declaration 0 false) ∨
      head = .code (Text.trim (content.map Glyph.character) ++ terminator) 0 false := by
  rw [emitGlyphs] at emitted
  split at emitted
  next declaration isDeclaration =>
    exact Or.inl ⟨declaration, isDeclaration, (List.cons.inj emitted).1.symm⟩
  · split at emitted
    · cases emitted
    · exact Or.inr (List.cons.inj emitted).1.symm

theorem eq_of_emitGlyphs_code {content : List Glyph} {terminator text : Text} {offset : Int}
    {error : Bool} (emitted : emitGlyphs content terminator = [.code text offset error]) :
    text = Text.trim (content.map Glyph.character) ++ terminator := by
  rcases emitGlyphs_cases emitted with ⟨declaration, -, differs⟩ | same
  · cases differs
  · cases same
    rfl

/-- Behind the content of an unfinished statement that goes on, the next token is not the
statement as far as it has been read. -/
theorem exists_head_ne_of_speaks (depth : Int) {content rest : List Glyph}
    (visible : ¬Text.Blank (content.map Glyph.character)) (speaks : Speaks rest) :
    ∃ head tail, (assemble depth content rest).tokens = head :: tail ∧
      ∀ offset error, head ≠ .code (Text.trim (content.map Glyph.character)) offset error := by
  induction speaks generalizing content with
  | @boundary character rest goesOn =>
      rw [assemble]
      split
      · obtain ⟨head, emitted⟩ := emitGlyphs_of_visible visible [';']
        refine ⟨head, _, by rw [Draft.prepend, emitted]; rfl, ?_⟩
        rintro offset error rfl
        have same := congrArg List.length (eq_of_emitGlyphs_code emitted)
        simp at same
      next noSemicolon =>
        have isOpening : character = '\x7b' := by simpa [noSemicolon] using goesOn
        rw [if_pos isOpening]
        exact ⟨_, _, rfl, by simp⟩
  | @visible glyph rest inner isVisible =>
      have stillVisible : ¬Text.Blank ((content ++ [glyph]).map Glyph.character) := by
        rw [List.map_append, Text.blank_append]
        exact fun both => visible both.1
      obtain ⟨head, tail, tokens, kind⟩ := exists_head_assemble depth stillVisible rest
      refine ⟨head, tail, by rw [assemble_cons inner, tokens], ?_⟩
      rintro offset error rfl
      rcases kind with ⟨heading, same⟩ | ⟨more, terminator, emitted⟩
      · cases same
      · have same := congrArg List.length (eq_of_emitGlyphs_code emitted)
        have longer := Text.length_trim_lt visible isVisible (more.map Glyph.character)
        rw [List.append_assoc, List.singleton_append, List.map_append, List.map_cons,
          List.length_append] at same
        omega
  | @blank glyph rest inner isBlank behind induction =>
      have stillVisible : ¬Text.Blank ((content ++ [glyph]).map Glyph.character) := by
        rw [List.map_append, Text.blank_append]
        exact fun both => visible both.1
      obtain ⟨head, tail, tokens, differs⟩ := induction stillVisible
      rw [List.map_append, List.map_singleton,
        Text.trim_append_blank (Text.blank_singleton.mpr isBlank)] at differs
      exact ⟨head, tail, by rw [assemble_cons inner, tokens], differs⟩

end Stylesheet
