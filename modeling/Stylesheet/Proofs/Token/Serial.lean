import Stylesheet.Proofs.Json.Values
import Stylesheet.Proofs.Modifier.Flags
import Stylesheet.Token.Decoding
import Stylesheet.Token.Encoding

/-!
# The serial form of tokens

Tokens are read from the JSON text that they are written as. If the text leaves the offsets
out, they are read as zero, and all else is read as it was.
-/

namespace Stylesheet

theorem NameSet.contains_ofList (names : List Text) (name : Text) :
    (ofList names).contains name = names.contains name := by
  have inserted (set : NameSet) :
      (names.foldl insert set).contains name = (set.contains name || names.contains name) := by
    induction names generalizing set with
    | nil => simp
    | cons head names induction =>
        rw [List.foldl_cons, induction, contains_insert, List.contains_cons, Bool.or_assoc,
          Bool.or_left_comm]
  rw [ofList, inserted, contains_empty, Bool.false_or]

/-- A set is made again from its names. -/
theorem NameSet.ofList_names (set : NameSet) : ofList set.names = set :=
  ext_contains fun name => contains_ofList set.names name

namespace Token

/-- What is read of a token from its serial form. -/
def kept (withOffsets : Bool) (token : Token) : Token :=
  if withOffsets then token else token.clearOffsets

def keptAll (withOffsets : Bool) (tokens : List Token) : List Token :=
  if withOffsets then tokens else clearAllOffsets tokens

theorem keptAll_cons (withOffsets : Bool) (token : Token) (tokens : List Token) :
    keptAll withOffsets (token :: tokens) =
      token.kept withOffsets :: keptAll withOffsets tokens := by
  cases withOffsets <;> rfl

theorem isBare_kept (withOffsets : Bool) (token : Token) :
    (token.kept withOffsets).isBare = token.isBare := by
  cases withOffsets with
  | true => rfl
  | false => cases token <;> rfl

/-! ## Values of fields -/

/-- Some JSON that is read as some content. -/
def Says {Content : Type} (content? : FieldValue → Option Content) (written : Json)
    (content : Content) : Prop :=
  ∃ value, decodeValue written = .ok value ∧ content? value = some content

theorem says_text (text : Text) : Says FieldValue.text? (.string text) text :=
  ⟨_, rfl, rfl⟩

theorem says_sequence {Member : Type} {member? : FieldValue → Option Member}
    {write : Member → Json} {members : List Member}
    (each : ∀ member ∈ members, Says member? (write member) member) :
    Says (FieldValue.sequence? member?) (.array (members.map write)) members := by
  have all : ∃ values, decodeItems (members.map write) = .ok values ∧
      values.mapM member? = some members := by
    induction members with
    | nil => exact ⟨[], rfl, rfl⟩
    | cons member members induction =>
        obtain ⟨value, decoded, content⟩ := each member List.mem_cons_self
        obtain ⟨values, decodedAll, contents⟩ :=
          induction fun other isMember => each other (List.mem_cons_of_mem _ isMember)
        refine ⟨value :: values, ?_, ?_⟩
        · rw [List.map_cons, decodeItems, decoded, decodedAll]
          rfl
        · simp [content, contents]
  obtain ⟨values, decoded, contents⟩ := all
  refine ⟨.sequence values, ?_, contents⟩
  rw [decodeValue, decoded]
  rfl

theorem says_texts (texts : List Text) :
    Says (FieldValue.sequence? FieldValue.text?) (.texts texts) texts :=
  says_sequence fun text _ => says_text text

/-- What may be missing is written as null. -/
theorem says_nullable {Content : Type} {content? : FieldValue → Option Content}
    {write : Content → Json} {content : Option Content}
    (noNull : content? (.scalar .null) = none)
    (each : ∀ some_ ∈ content, Says content? (write some_) some_) :
    Says (FieldValue.nullable? content?) ((content.map write).getD .null) content := by
  cases content with
  | none => exact ⟨.scalar .null, rfl, rfl⟩
  | some content =>
      obtain ⟨value, decoded, found⟩ := each content rfl
      refine ⟨value, decoded, ?_⟩
      unfold FieldValue.nullable?
      split
      · rw [noNull] at found
        cases found
      · rw [found]
        rfl

/-! ## Objects -/

theorem Fields.value?_of_find? {fields : Fields} {name : Text} {written : Json}
    {value : FieldValue} (found : fields.find? name = some (written, decodeValue written))
    (decoded : decodeValue written = .ok value) : fields.value? name = .ok (some value) := by
  rw [Fields.value?, found, decoded]

theorem typed_of_some {Content : Type} {content? : FieldValue → Option Content}
    {value : FieldValue} {content : Content} (name : Text) (found : content? value = some content) :
    typed name content? value = .ok content := by
  rw [typed, found]

theorem decodeValue_atRule (atRule : AtRule) :
    decodeValue atRule.encode = .ok (.described (.token (bare atRule))) := by
  obtain ⟨values, decoded, contents⟩ := says_texts atRule.values
  let fields := decodeFields
    [("_type".toList, .string "AtRule".toList), ("name".toList, .string atRule.name),
      ("values".toList, .texts atRule.values)]
  have name : fields.value? "name".toList = .ok (some (.scalar (.string atRule.name))) := rfl
  have found : fields.value? "values".toList = .ok (some values) :=
    Fields.value?_of_find? rfl decoded
  have made : makeBare (.scalar (.string atRule.name)) (some values) = .ok (bare atRule) := by
    simp only [makeBare, typedOr, typed_of_some _ contents, bind, Except.bind]
    rfl
  have read : readBare fields = .ok (.token (bare atRule)) := by
    simp only [readBare, name, found, made, bind, Except.bind]
    rfl
  exact congrArg (Except.map FieldValue.described) read

/-- The object of a heading is read as an opening, or as a block if it has contents. -/
theorem decodeValue_encodeHeading (withOffsets : Bool) (heading : Heading) (offset : Int)
    {written : Json} {children : Option (List Token)}
    (within : Says (FieldValue.nullable? (FieldValue.sequence? FieldValue.token?)) written
      children) :
    let place := if withOffsets then offset else 0
    decodeValue (encodeHeading withOffsets heading offset written) =
      .ok (.described (.token (children.elim (opening heading place) (block heading place)))) := by
  intro place
  obtain ⟨atRule, decodedAtRule, isAtRule⟩ :
      Says (FieldValue.nullable? FieldValue.atRule?)
        ((heading.atRule.map AtRule.encode).getD .null) heading.atRule :=
    says_nullable rfl fun atRule _ => ⟨_, decodeValue_atRule atRule, rfl⟩
  obtain ⟨selectors, decodedSelectors, areSelectors⟩ :
      Says (FieldValue.nullable? (FieldValue.sequence? FieldValue.text?))
        ((heading.selectors.map Json.texts).getD .null) heading.selectors :=
    says_nullable rfl fun selectors _ => says_texts selectors
  obtain ⟨inner, decodedInner, isInner⟩ := within
  let fields := decodeFields
    ([("_type".toList, .string "BlockStart".toList),
      ("at_rule".toList, (heading.atRule.map AtRule.encode).getD .null),
      ("children".toList, written),
      ("header".toList, .string heading.text)] ++
     offsetField withOffsets offset ++
     [("selectors".toList, (heading.selectors.map Json.texts).getD .null)])
  have foundText : fields.value? "header".toList = .ok (some (.scalar (.string heading.text))) := by
    cases withOffsets <;> rfl
  have foundSelectors : fields.value? "selectors".toList = .ok (some selectors) :=
    Fields.value?_of_find? (by cases withOffsets <;> rfl) decodedSelectors
  have foundAtRule : fields.value? "at_rule".toList = .ok (some atRule) :=
    Fields.value?_of_find? (by cases withOffsets <;> rfl) decodedAtRule
  have foundInner : fields.value? "children".toList = .ok (some inner) :=
    Fields.value?_of_find? (by cases withOffsets <;> rfl) decodedInner
  have foundOffset : fields.value? "offset".toList =
      .ok (if withOffsets then some (.scalar (.integer offset)) else none) := by
    cases withOffsets <;> rfl
  have made : makeBlock (some (.scalar (.string heading.text))) (some selectors) (some atRule)
      (some inner) (if withOffsets then some (.scalar (.integer offset)) else none) =
      .ok (children.elim (opening heading place) (block heading place)) := by
    simp only [makeBlock, typedOr, typed_of_some _ isAtRule, typed_of_some _ areSelectors,
      typed_of_some _ isInner, bind, Except.bind]
    cases withOffsets <;> cases children <;> rfl
  have read : readTyped fields =
      .ok (.token (children.elim (opening heading place) (block heading place))) := by
    have isBlock : readTyped fields = readBlock fields := by cases withOffsets <;> rfl
    rw [isBlock]
    simp only [readBlock, foundText, foundSelectors, foundAtRule, foundInner, foundOffset, made,
      bind, Except.bind]
    rfl
  exact congrArg (Except.map FieldValue.described) read

theorem namesOf_strings (names : List Text) : Json.namesOf (names.map .string) = .ok names := by
  have each : (names.map Json.string).mapM Json.text? = some names := by
    induction names with
    | nil => rfl
    | cons name names induction => simp [Json.text?, induction]
  rw [Json.namesOf, each]

/-- The modifiers are read as the set of the names that are written. -/
theorem modifiers_of_find? {fields : Fields} {names : List Text}
    {value : Except DecodeFault FieldValue}
    (found : fields.find? "modifiers".toList = some (.texts names, value)) :
    fields.modifiers = .ok (names.map .string) := by
  have plain : (names.map Json.string).find? (·.isStructured) = none := by
    simp [Json.isStructured]
  have members : (Json.texts names).members = .ok (names.map .string) := rfl
  simp only [Fields.modifiers, found, members, plain]

theorem decodeValue_rule (withOffsets : Bool) (declaration : Declaration) (offset : Int)
    (error : Bool) :
    decodeValue (encode withOffsets (rule declaration offset error)) =
      .ok (.described (.token (rule declaration (if withOffsets then offset else 0) error))) := by
  let fields := decodeFields
    ([("_type".toList, .string "Rule".toList), ("error".toList, .boolean error),
      ("key".toList, .string declaration.key),
      ("modifiers".toList, .texts declaration.modifiers.names)] ++
     offsetField withOffsets offset ++ [("value".toList, .string declaration.value)])
  have foundKey : fields.value? "key".toList = .ok (some (.scalar (.string declaration.key))) := by
    cases withOffsets <;> rfl
  have foundValue :
      fields.value? "value".toList = .ok (some (.scalar (.string declaration.value))) := by
    cases withOffsets <;> rfl
  have foundModifiers : fields.modifiers = .ok (declaration.modifiers.names.map .string) :=
    @modifiers_of_find? fields _ (decodeValue (.texts declaration.modifiers.names))
      (by cases withOffsets <;> rfl)
  have foundOffset : fields.value? "offset".toList =
      .ok (if withOffsets then some (.scalar (.integer offset)) else none) := by
    cases withOffsets <;> rfl
  have foundError : fields.value? "error".toList = .ok (some (.scalar (.boolean error))) := by
    cases withOffsets <;> rfl
  have made : makeRule (.scalar (.string declaration.key)) (.scalar (.string declaration.value))
      (declaration.modifiers.names.map .string)
      (if withOffsets then some (.scalar (.integer offset)) else none)
      (some (.scalar (.boolean error))) =
      .ok (rule declaration (if withOffsets then offset else 0) error) := by
    simp only [makeRule, typedNames, namesOf_strings, NameSet.ofList_names, bind, Except.bind]
    cases withOffsets <;> rfl
  have read : readTyped fields =
      .ok (.token (rule declaration (if withOffsets then offset else 0) error)) := by
    have isRule : readTyped fields = readRule fields := by cases withOffsets <;> rfl
    rw [isRule]
    simp only [readRule, foundKey, foundValue, foundModifiers, foundOffset, foundError, made, bind,
      Except.bind]
    rfl
  exact congrArg (Except.map FieldValue.described) read

/-! ## Tokens -/

mutual

/-- A token is read from its object. -/
theorem decodeValue_encode (withOffsets : Bool) : (token : Token) →
    decodeValue (encode withOffsets token) = .ok (.described (.token (token.kept withOffsets)))
  | code text offset error => by cases withOffsets <;> rfl
  | rule declaration offset error => by
      rw [decodeValue_rule]
      cases withOffsets <;> rfl
  | opening heading offset => by
      have nothing : Says (FieldValue.nullable? (FieldValue.sequence? FieldValue.token?))
          .null none := ⟨_, rfl, rfl⟩
      rw [encode, decodeValue_encodeHeading withOffsets heading offset nothing]
      cases withOffsets <;> rfl
  | block heading offset children => by
      obtain ⟨values, decoded, tokens⟩ := decodeItems_encodeAll withOffsets children
      have inner : Says (FieldValue.nullable? (FieldValue.sequence? FieldValue.token?))
          (.array (encodeAll withOffsets children)) (some (keptAll withOffsets children)) := by
        refine ⟨.sequence values, ?_, ?_⟩
        · rw [decodeValue, decoded]
          rfl
        · rw [FieldValue.nullable?, FieldValue.sequence?, tokens]
          · rfl
          · simp
      rw [encode, decodeValue_encodeHeading withOffsets heading offset inner]
      cases withOffsets <;> rfl
  | closing offset => by cases withOffsets <;> rfl
  | bare atRule => by
      rw [encode, decodeValue_atRule]
      cases withOffsets <;> rfl

theorem decodeItems_encodeAll (withOffsets : Bool) : (tokens : List Token) →
    ∃ values, decodeItems (encodeAll withOffsets tokens) = .ok values ∧
      values.mapM FieldValue.token? = some (keptAll withOffsets tokens)
  | [] => ⟨[], rfl, by cases withOffsets <;> rfl⟩
  | token :: tokens => by
      obtain ⟨values, decoded, content⟩ := decodeItems_encodeAll withOffsets tokens
      refine ⟨.described (.token (token.kept withOffsets)) :: values, ?_, ?_⟩
      · rw [encodeAll, decodeItems, decodeValue_encode, decoded]
        rfl
      · rw [keptAll_cons]
        simp [FieldValue.token?, content]

end

/-! ## Texts -/

theorem areWhole_texts (texts : List Text) : (Json.texts texts).IsWhole := by
  rw [Json.texts, Json.IsWhole]
  induction texts with
  | nil => trivial
  | cons text texts induction => exact ⟨trivial, induction⟩

theorem isWhole_encode_atRule (atRule : AtRule) : atRule.encode.IsWhole := by
  simp [AtRule.encode, Json.IsWhole, Json.FieldsAreWhole, areWhole_texts]

theorem isWhole_encodeHeading (withOffsets : Bool) (heading : Heading) (offset : Int)
    {children : Json} (whole : children.IsWhole) :
    (encodeHeading withOffsets heading offset children).IsWhole := by
  have atRule : ((heading.atRule.map AtRule.encode).getD .null).IsWhole := by
    cases heading.atRule with
    | none => trivial
    | some atRule => exact isWhole_encode_atRule atRule
  have selectors : ((heading.selectors.map Json.texts).getD .null).IsWhole := by
    cases heading.selectors with
    | none => trivial
    | some selectors => exact areWhole_texts selectors
  cases withOffsets <;>
    simp [encodeHeading, offsetField, Json.IsWhole, Json.FieldsAreWhole, atRule, selectors, whole]

mutual

/-- Every number in the serial form is an offset. -/
theorem isWhole_encode (withOffsets : Bool) : (token : Token) →
    (encode withOffsets token).IsWhole
  | code text offset error => by
      cases withOffsets <;> simp [encode, offsetField, Json.IsWhole, Json.FieldsAreWhole]
  | rule declaration offset error => by
      cases withOffsets <;>
        simp [encode, offsetField, Json.IsWhole, Json.FieldsAreWhole, areWhole_texts]
  | opening heading offset => isWhole_encodeHeading withOffsets heading offset trivial
  | block heading offset children =>
      isWhole_encodeHeading withOffsets heading offset (areWhole_encodeAll withOffsets children)
  | closing offset => by
      cases withOffsets <;> simp [encode, offsetField, Json.IsWhole, Json.FieldsAreWhole]
  | bare atRule => isWhole_encode_atRule atRule

theorem areWhole_encodeAll (withOffsets : Bool) : (tokens : List Token) →
    Json.AreWhole (encodeAll withOffsets tokens)
  | [] => trivial
  | token :: tokens => ⟨isWhole_encode withOffsets token, areWhole_encodeAll withOffsets tokens⟩

end

theorem typeName_ne_of_not_isBare {token : Token} (isToken : token.isBare = false) :
    token.typeName ≠ "AtRule".toList := by
  have isCode : "Code".toList ≠ "AtRule".toList := by decide
  have isRule : "Rule".toList ≠ "AtRule".toList := by decide
  have isBlock : "BlockStart".toList ≠ "AtRule".toList := by decide
  have isClosing : "BlockEnd".toList ≠ "AtRule".toList := by decide
  cases token with
  | code text offset error => exact isCode
  | rule declaration offset error => exact isRule
  | opening heading offset => exact isBlock
  | block heading offset children => exact isBlock
  | closing offset => exact isClosing
  | bare atRule => cases isToken

theorem loadItem_of_decodeValue {value : Json} {token : Token} (isToken : token.isBare = false)
    (decoded : decodeValue value = .ok (.described (.token token))) :
    loadItem value = .ok (.token token) := by
  have named : (Described.token token).typeName ≠ "AtRule".toList :=
    typeName_ne_of_not_isBare isToken
  cases value with
  | object fields =>
      rw [decodeValue] at decoded
      cases read : readTyped (decodeFields fields) with
      | error fault =>
          rw [read] at decoded
          cases decoded
      | ok result =>
          rw [read] at decoded
          cases decoded
          simp only [loadItem, read, Except.mapError, bind, Except.bind, if_neg named]
          rfl
  | array items =>
      rw [decodeValue] at decoded
      cases read : decodeItems items <;>
        · rw [read] at decoded
          cases decoded
  | null | boolean _ | integer _ | decimal _ | string _ => cases decoded

theorem mapM_loadItem_encodeAll (withOffsets : Bool) {tokens : List Token}
    (noBare : ∀ token ∈ tokens, token.isBare = false) :
    (encodeAll withOffsets tokens).mapM loadItem =
      .ok ((keptAll withOffsets tokens).map Described.token) := by
  induction tokens with
  | nil => cases withOffsets <;> rfl
  | cons token tokens induction =>
      have isToken := isBare_kept withOffsets token
      rw [noBare token List.mem_cons_self] at isToken
      have first := loadItem_of_decodeValue isToken (decodeValue_encode withOffsets token)
      have others := induction fun other member => noBare other (List.mem_cons_of_mem _ member)
      rw [encodeAll, List.mapM_cons, first, others, keptAll_cons]
      rfl

theorem mapM_toToken_token (tokens : List Token) :
    (tokens.map Described.token).mapM Described.toToken = .ok tokens := by
  induction tokens with
  | nil => rfl
  | cons token tokens induction =>
      rw [List.map_cons, List.mapM_cons, induction]
      rfl

/-- Tokens are read from the text that they are written as, with or without offsets. -/
theorem read_write_kept (layout : Json.Layout) (withOffsets : Bool) {tokens : List Token}
    (noBare : ∀ token ∈ tokens, token.isBare = false) :
    read (write layout withOffsets tokens) = .ok (keptAll withOffsets tokens) := by
  have whole : (Json.array (encodeAll withOffsets tokens)).IsWhole :=
    areWhole_encodeAll withOffsets tokens
  have loaded : load (write layout withOffsets tokens) =
      .ok ((keptAll withOffsets tokens).map Described.token) := by
    rw [load, write, Json.read?_print layout whole]
    exact mapM_loadItem_encodeAll withOffsets noBare
  simp only [read, loaded, bind, Except.bind, mapM_toToken_token]
  rfl

/-- Every list of tokens, in flat form, as trees or mixed, is read from the text that it is
written as, whatever the indentation. -/
theorem read_write_indent (indent : Option Int) {tokens : List Token}
    (noBare : ∀ token ∈ tokens, token.isBare = false) :
    read (write (.ofIndent indent) true tokens) = .ok tokens :=
  read_write_kept (.ofIndent indent) true noBare

/-- A block with an at-rule and without values in a list of its own, an opening and a closing,
a rule with two modifiers and characters that are written as escapes and as pairs. -/
theorem read_write_mixed :
    let tokens : List Token :=
      [.block ⟨"@m a".toList, none, some ⟨"m".toList, [[], "a".toList]⟩⟩ (-7)
        [.block ⟨"b".toList, some [], none⟩ 5 [],
          .rule ⟨['\x00', '"', '\\', '\x7f'], ['é', '😀'],
            .ofList ["important".toList, "default".toList]⟩ 10000000000000000000000 true],
        .opening ⟨['\uffff'], none, none⟩ 0, .code "\n\t/".toList (-0) false, .closing 3]
    (∀ token ∈ tokens, token.isBare = false) ∧
      read (write (.ofIndent (some 2)) true tokens) = .ok tokens := by
  refine ⟨by decide, read_write_indent (some 2) (by decide)⟩

end Token
end Stylesheet
