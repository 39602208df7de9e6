import Stylesheet.Proofs.Lexing.Sequence
import Stylesheet.Rendering

/-!
# Writing declarations and headings

Declarations and headings whose texts can be read by themselves are written so that they
are read again.
-/

namespace Stylesheet

/-! ## Layouts -/

/-- A layout that puts nothing but blanks between tokens, and writes all flags that are
taken from a value by default. -/
structure LayoutOptions.IsPlain (options : LayoutOptions) : Prop where
  tab : Text.Blank options.tab
  newline : Text.Blank options.newline
  modifiers : options.ruleModifiers = defaultModifiers

/-- A layout that puts something before every brace and behind every line. -/
structure LayoutOptions.IsRoomy (options : LayoutOptions) : Prop where
  lineBreak : options.lineBreak ≠ []
  beforeBrace : ∀ space, options.beforeBrace space ≠ []

namespace LayoutOptions

variable {options : LayoutOptions}

theorem IsPlain.blank_indent (plain : options.IsPlain) : Text.Blank options.indent := by
  rw [indent]
  split
  · exact Text.blank_nil
  · exact plain.tab

theorem IsPlain.blank_lineBreak (plain : options.IsPlain) : Text.Blank options.lineBreak := by
  rw [lineBreak]
  split
  · exact Text.blank_nil
  · exact plain.newline

theorem IsPlain.blank_beforeBrace (plain : options.IsPlain) {space : Text}
    (isBlank : Text.Blank space) : Text.Blank (options.beforeBrace space) := by
  rw [beforeBrace]
  split
  · exact Text.blank_append.mpr ⟨plain.blank_lineBreak, isBlank⟩
  · split
    · exact Text.blank_nil
    · exact Text.blank_singleton.mpr Text.isBlank_space

theorem exists_ruleSeparator (options : LayoutOptions) :
    ∃ blank, Text.Blank blank ∧ options.ruleSeparator = ':' :: blank := by
  rw [ruleSeparator]
  split
  · exact ⟨[], Text.blank_nil, rfl⟩
  · exact ⟨[' '], Text.blank_singleton.mpr Text.isBlank_space, rfl⟩

theorem exists_selectorSeparator (options : LayoutOptions) :
    ∃ blank, Text.Blank blank ∧ options.selectorSeparator = ',' :: blank := by
  rw [selectorSeparator]
  split
  · exact ⟨[], Text.blank_nil, rfl⟩
  · exact ⟨[' '], Text.blank_singleton.mpr Text.isBlank_space, rfl⟩

end LayoutOptions

/-! ## Declarations -/

/-- A declaration whose key and value can be read by themselves, where the value has no
flag that could be taken from it. -/
structure Declaration.IsLegible (declaration : Declaration) : Prop where
  key : ∃ glyphs isOpen, Lexed declaration.key glyphs isOpen ∧
    ∀ glyph ∈ glyphs, Sides.IsKeyGlyph glyph
  value : ∃ glyphs isOpen, Lexed declaration.value glyphs isOpen ∧ IsContent glyphs ∧
    .text ':' ∉ glyphs
  keyTrimmed : declaration.key.trim = declaration.key
  keyNotEmpty : declaration.key ≠ []
  valueTrimmed : declaration.value.trim = declaration.value
  valueNotEmpty : declaration.value ≠ []
  known : ∀ name, declaration.modifiers.contains name = true → name ∈ defaultModifiers
  noFlag : ∀ name ∈ defaultModifiers, declaration.modifiers.contains name = false →
    (Flagged.flag name).isSuffixOf (Text.lowercase declaration.value) = false

namespace Declaration

/-- The flags of a declaration as they are written. -/
def writtenFlags (declaration : Declaration) : Text :=
  (defaultModifiers.filter declaration.modifiers.contains).flatMap LayoutOptions.renderModifier

/-- Whether the value takes along the semicolon behind it. -/
def leavesOpen (declaration : Declaration) : Bool :=
  declaration.modifiers.names.isEmpty && declaration.value.endsOpen

end Declaration

theorem leads_renderModifier {name : Text} (isName : name ∈ defaultModifiers) :
    Leads (LayoutOptions.renderModifier name)
      ((LayoutOptions.renderModifier name).map .text) := by
  rcases List.mem_cons.mp isName with rfl | isName
  · repeat apply Leads.cons fun _ => rfl
    exact Leads.nil
  · obtain rfl := List.mem_singleton.mp isName
    repeat apply Leads.cons fun _ => rfl
    exact Leads.nil

theorem leads_renderModifiers {names : List Text}
    (each : ∀ name ∈ names, name ∈ defaultModifiers) :
    Leads (names.flatMap LayoutOptions.renderModifier)
      ((names.flatMap LayoutOptions.renderModifier).map .text) := by
  induction names with
  | nil => exact Leads.nil
  | cons name names induction =>
      rw [List.flatMap_cons, List.map_append]
      exact Leads.append (leads_renderModifier (each name List.mem_cons_self))
        (induction fun other member => each other (List.mem_cons_of_mem _ member))

namespace Declaration

variable {declaration : Declaration} {options : LayoutOptions}

theorem mem_of_mem_written {name : Text}
    (member : name ∈ defaultModifiers.filter declaration.modifiers.contains) :
    name ∈ defaultModifiers :=
  (List.mem_filter.mp member).1

theorem writtenFlags_cases (legible : declaration.IsLegible) :
    declaration.modifiers.names.isEmpty = true ∧ declaration.writtenFlags = [] ∨
      declaration.modifiers.names.isEmpty = false ∧
        ∃ flags, declaration.writtenFlags = ' ' :: flags := by
  cases names : declaration.modifiers.names with
  | nil =>
      refine Or.inl ⟨rfl, ?_⟩
      have noName : defaultModifiers.filter declaration.modifiers.contains = [] := by
        apply List.filter_eq_nil_iff.mpr
        intro name _
        rw [NameSet.contains, names]
        simp
      rw [writtenFlags, noName, List.flatMap_nil]
  | cons name others =>
      refine Or.inr ⟨rfl, ?_⟩
      have contained : declaration.modifiers.contains name = true := by
        rw [NameSet.contains, names]
        simp
      have isWritten := List.mem_filter.mpr ⟨legible.known name contained, contained⟩
      rw [writtenFlags]
      cases written : defaultModifiers.filter declaration.modifiers.contains with
      | nil =>
          rw [written] at isWritten
          cases isWritten
      | cons first rest => exact ⟨_, rfl⟩

/-- A value is read with its flags, and left open only if no flags are written. -/
theorem exists_lexed_value (legible : declaration.IsLegible) :
    ∃ glyphs, Lexed (declaration.value ++ declaration.writtenFlags) glyphs
        declaration.leavesOpen ∧ IsContent glyphs ∧ .text ':' ∉ glyphs := by
  obtain ⟨glyphs, isOpen, lexed, inner, noColon⟩ := legible.value
  have flagsLead : Leads declaration.writtenFlags (declaration.writtenFlags.map .text) :=
    leads_renderModifiers fun name => mem_of_mem_written
  rcases writtenFlags_cases legible with ⟨noName, noFlags⟩ | ⟨hasName, flags, written⟩
  · refine ⟨glyphs, ?_, inner, noColon⟩
    rw [noFlags, List.append_nil, leavesOpen, noName, Bool.true_and, ← lexed.isOpen_eq]
    exact lexed
  · have separated := Leads.separator lexed (by decide : ' ' ∈ Leads.separators)
    have flagsLexed := flagsLead.lexed
    rw [written] at flagsLexed
    obtain ⟨known, same, behind⟩ := flagsLexed.of_cons_blank Text.isBlank_space
    obtain rfl : known = flags.map .text := (List.cons.inj same).2.symm
    have whole := separated.lexed_append behind
    rw [List.append_assoc, List.append_assoc, List.singleton_append, ← written] at whole
    refine ⟨_, by rwa [leavesOpen, hasName, Bool.false_and], ?_, ?_⟩
    · exact isContent_append inner (isContent_map_text (' ' :: flags))
    · rw [List.mem_append, not_or]
      refine ⟨noColon, ?_⟩
      have plain : ':' ∉ declaration.writtenFlags := by
        intro member
        obtain ⟨name, isWritten, inName⟩ := List.mem_flatMap.mp member
        have table : ∀ name ∈ defaultModifiers, ':' ∉ LayoutOptions.renderModifier name := by decide
        exact table name (mem_of_mem_written isWritten) inName
      rw [written] at plain
      simpa using plain

/-- What is written of a declaration in front of its semicolon. -/
def written (options : LayoutOptions) (declaration : Declaration) : Text :=
  declaration.key ++ options.ruleSeparator ++ (declaration.value ++ declaration.writtenFlags)

theorem renderDeclaration_eq (plain : options.IsPlain) :
    options.renderDeclaration declaration = written options declaration ++ [';'] := by
  rw [LayoutOptions.renderDeclaration, plain.modifiers, written, writtenFlags]
  simp only [List.append_assoc]

theorem exists_lexed_written (options : LayoutOptions) (legible : declaration.IsLegible) :
    ∃ before behind blank, Lexed (written options declaration) (before ++ .text ':' :: behind)
        declaration.leavesOpen ∧
      (∀ glyph ∈ before, Sides.IsKeyGlyph glyph) ∧ IsContent behind ∧ .text ':' ∉ behind ∧
        before.map Glyph.character = declaration.key ∧ Text.Blank blank ∧
          behind.map Glyph.character =
            blank ++ (declaration.value ++ declaration.writtenFlags) := by
  obtain ⟨before, isOpen, keyLexed, allKey⟩ := legible.key
  obtain ⟨behind, valueLexed, inner, noColon⟩ := exists_lexed_value legible
  obtain ⟨blank, isBlank, separator⟩ := options.exists_ruleSeparator
  have whole := (Leads.separator keyLexed (by decide : ':' ∈ Leads.separators)).lexed_append
    ((Leads.blank isBlank).lexed_append valueLexed)
  refine ⟨before, blank.map .text ++ behind, blank, ?_, allKey, ?_, ?_,
    keyLexed.map_character, isBlank, ?_⟩
  · rw [written, separator]
    simpa only [List.append_assoc, List.cons_append, List.nil_append] using whole
  · exact isContent_append (isContent_map_text blank) inner
  · rw [List.mem_append, not_or]
    refine ⟨?_, noColon⟩
    have noColon := Sides.colon_not_mem_of_blank isBlank
    simpa using noColon
  · rw [List.map_append, Heading.map_character_text, valueLexed.map_character]

theorem isContent_of_key {before behind : List Glyph}
    (allKey : ∀ glyph ∈ before, Sides.IsKeyGlyph glyph) (inner : IsContent behind) :
    IsContent (before ++ .text ':' :: behind) := by
  intro character member
  rcases List.mem_append.mp member with member | member
  · obtain ⟨other, same, -⟩ := allKey _ member
    cases same
  · rcases List.mem_cons.mp member with same | member
    · cases same
    · exact inner character member

theorem trim_written (legible : declaration.IsLegible) {blank : Text}
    (isBlank : Text.Blank blank) :
    Text.trim (blank ++ (declaration.value ++ declaration.writtenFlags)) =
      declaration.value ++ declaration.writtenFlags := by
  rw [Text.trim_blank_append isBlank]
  exact Text.trim_append_eq_self legible.valueTrimmed legible.valueNotEmpty
    (Flagged.isBlank_getLast?_written fun name => mem_of_mem_written)

/-- What is written of a declaration is the declaration. -/
theorem ofGlyphs_written (legible : declaration.IsLegible) {before behind : List Glyph}
    {blank : Text} (allKey : ∀ glyph ∈ before, Sides.IsKeyGlyph glyph)
    (noColon : .text ':' ∉ behind) (key : before.map Glyph.character = declaration.key)
    (isBlank : Text.Blank blank)
    (value : behind.map Glyph.character =
      blank ++ (declaration.value ++ declaration.writtenFlags)) :
    Statement.ofGlyphs .strict (before ++ .text ':' :: behind) = .declaration declaration := by
  have taken := Flagged.ofValue_written legible.valueTrimmed legible.valueNotEmpty legible.known
    legible.noFlag
  have keyKept : declaration.key.isEmpty = false :=
    List.isEmpty_eq_false_iff.mpr legible.keyNotEmpty
  have valueKept : declaration.value.isEmpty = false :=
    List.isEmpty_eq_false_iff.mpr legible.valueNotEmpty
  have names : TokenizeOptions.strict.ruleModifiers = defaultModifiers := rfl
  rw [Statement.ofGlyphs, Sides.foldlM_sides allKey noColon, key, value]
  dsimp only
  rw [Statement.ofSides]
  dsimp only
  rw [legible.keyTrimmed, trim_written legible isBlank, names, writtenFlags, taken, keyKept,
    valueKept]
  rfl

/-- A declaration that has taken along its semicolon is another one, or none. -/
theorem ofGlyphs_taken_ne {before behind : List Glyph} {blank : Text}
    (allKey : ∀ glyph ∈ before, Sides.IsKeyGlyph glyph)
    (value : behind.map Glyph.character =
      blank ++ (declaration.value ++ declaration.writtenFlags)) (more : List Glyph) :
    Statement.ofGlyphs .strict (before ++ .text ':' :: (behind ++ .text ';' :: more)) ≠
      .declaration declaration := by
  have colon (key : Text) : Sides.addGlyph? ⟨key, none, false⟩ (.text ':') =
      some ⟨key, some [], false⟩ := rfl
  have names : TokenizeOptions.strict.ruleModifiers = defaultModifiers := rfl
  intro same
  rw [Statement.ofGlyphs, List.foldlM_append, Sides.foldlM_of_key rfl allKey] at same
  simp only [Option.bind_eq_bind, Option.bind_some, List.foldlM_cons, Sides.empty, colon] at same
  cases read : (behind ++ .text ';' :: more).foldlM Sides.addGlyph?
      ⟨[] ++ before.map Glyph.character, some [], false⟩ with
  | none =>
      rw [read] at same
      cases same
  | some sides =>
      obtain ⟨-, rfl⟩ := Sides.foldlM_eq_some_of_value.mp read
      rw [read] at same
      dsimp only at same
      rw [Statement.ofSides, names] at same
      dsimp only at same
      split at same
      · cases same
      · have values := congrArg (·.value.count ';') (Statement.declaration.inj same)
        dsimp only at values
        rw [Flagged.count_value_ofValue, Text.count_trim, List.map_append, value] at values
        simp only [List.nil_append, List.count_append, List.map_cons, List.count_cons,
          Glyph.character, beq_self_eq_true, if_true] at values
        omega

end Declaration

end Stylesheet
