import Stylesheet.Proofs.Fallible
import Stylesheet.Token.Decoding

/-!
# The flaws of a serial form

All that is wrong with a JSON text of tokens is listed here without reading it, in the order of
the items, of the fields that their types have, and of what is nested in them. Reading fails with
the first flaw of the list, and succeeds if there is none.

The reader looks for some flaws and rejects a text that has them. Others it only meets with when
it uses a value as something that the value is not: an item that is no object, an array or object
as the name of a type or among modifiers, modifiers that are no list, an object that lacks a field.
Reading ends with a rejection, or not in a fault at all, if and only if the first flaw is none of
these.
-/

namespace Stylesheet
namespace Token

/-! ## Rejections -/

/-- Whether a fault is one that the reader looks for. -/
def DecodeFault.isRejection : DecodeFault → Bool
  | missingType | unknownType _ => true
  | structured _ | modifiers _ | missingField _ _ | missingFields _ _ _ | illTyped _ => false

def ReadFault.isRejection : ReadFault → Bool
  | notJson | notArray _ | notToken _ => true
  | notObject _ => false
  | decode fault => fault.isRejection

/-! ## Flaws -/

/-- The fields of a type in order, and whether a field has to be given. -/
abbrev Outline := List (Text × Bool)

def codeOutline : Outline :=
  [("text".toList, true), ("offset".toList, false), ("error".toList, false)]

def blockOutline : Outline :=
  [("header".toList, false), ("selectors".toList, false), ("at_rule".toList, false),
    ("children".toList, false), ("offset".toList, false)]

def closingOutline : Outline := [("offset".toList, false)]

def ruleOutline : Outline :=
  [("key".toList, true), ("value".toList, true), ("modifiers".toList, false),
    ("offset".toList, false), ("error".toList, false)]

def atRuleOutline : Outline := [("name".toList, true), ("values".toList, false)]

def outlines : List (Text × Outline) :=
  [("Code".toList, codeOutline), ("BlockStart".toList, blockOutline),
    ("BlockEnd".toList, closingOutline), ("Rule".toList, ruleOutline),
    ("AtRule".toList, atRuleOutline)]

/-- What is wrong with a value that stands for a set of modifiers. -/
def modifierFlaws (written : Json) : List DecodeFault :=
  match written.members with
  | .error fault => [.modifiers fault]
  | .ok members => (members.filter (·.isStructured)).map fun member => .structured member.kind

/-- The flaw of an object that lacks fields. No type has more than two that have to be given. -/
def lackFlaws (type : Text) : List Text → List DecodeFault
  | [] => []
  | [field] => [.missingField type field]
  | first :: second :: _ => [.missingFields type first second]

/-- A value beside what is wrong inside of it. -/
abbrev Inspected := Json × List DecodeFault

def fieldFlaws (fields : List (Text × Inspected)) (name : Text) : List DecodeFault :=
  match fields.reverse.lookup name with
  | none => []
  | some (written, inner) =>
      if name = "modifiers".toList then modifierFlaws written else inner

/-- The fields that have to be given and are not. -/
def lacking (fields : List (Text × Inspected)) : Outline → List Text
  | [] => []
  | (name, required) :: outline =>
      if required && (fields.reverse.lookup name).isNone then name :: lacking fields outline
      else lacking fields outline

/-- What is wrong with an object of a known type. -/
def typeFlaws (fields : List (Text × Inspected)) (type : Text) (outline : Outline) :
    List DecodeFault :=
  outline.flatMap (fun field => fieldFlaws fields field.1) ++
    lackFlaws type (lacking fields outline)

/-- What is wrong with an object. -/
def objectFlaws (fields : List (Text × Inspected)) : List DecodeFault :=
  match fields.reverse.lookup "_type".toList with
  | none => [.missingType]
  | some (.null, _) => [.missingType]
  | some (.array _, _) => [.structured .array]
  | some (.object _, _) => [.structured .object]
  | some (type, _) =>
      match type.text? with
      | none => [.unknownType type]
      | some name =>
          match outlines.lookup name with
          | none => [.unknownType type]
          | some outline => typeFlaws fields name outline

mutual

/-- What is wrong inside of a value. -/
def flaws : Json → List DecodeFault
  | .object fields => objectFlaws (inspect fields)
  | .array items => flawsOfAll items
  | _ => []

def flawsOfAll : List Json → List DecodeFault
  | [] => []
  | item :: items => flaws item ++ flawsOfAll items

def inspect : List (Text × Json) → List (Text × Inspected)
  | [] => []
  | (name, value) :: fields => (name, value, flaws value) :: inspect fields

end

/-- What is wrong with an item of a token list. -/
def itemFlaws : Json → List ReadFault
  | .object fields =>
      (flaws (.object fields)).map .decode ++
        if (Json.lookup? fields "_type".toList).bind Json.text? = some "AtRule".toList then
          [.notToken "AtRule".toList]
        else []
  | value => [.notObject value.kind]

/-- What is wrong with a text of a token list. -/
def textFlaws (text : Text) : List ReadFault :=
  match Json.read? text with
  | none => [.notJson]
  | some (.array items) => items.flatMap itemFlaws
  | some value => [.notArray value.kind]

/-! ## Fields -/

theorem lookup_map_snd {Value Other : Type} (change : Value → Other)
    (entries : List (Text × Value)) (name : Text) :
    (entries.map fun entry => (entry.1, change entry.2)).lookup name =
      (entries.lookup name).map change := by
  induction entries with
  | nil => rfl
  | cons entry entries induction =>
      rw [List.map_cons, List.lookup_cons, List.lookup_cons, induction]
      split <;> rfl

theorem decodeFields_eq_map (fields : List (Text × Json)) :
    decodeFields fields = fields.map fun field => (field.1, field.2, decodeValue field.2) := by
  induction fields with
  | nil => rfl
  | cons field fields induction => rw [decodeFields, induction, List.map_cons]

theorem inspect_eq_map (fields : List (Text × Json)) :
    inspect fields = fields.map fun field => (field.1, field.2, flaws field.2) := by
  induction fields with
  | nil => rfl
  | cons field fields induction => rw [inspect, induction, List.map_cons]

theorem find?_decodeFields (fields : List (Text × Json)) (name : Text) :
    Fields.find? (decodeFields fields) name =
      (Json.lookup? fields name).map fun value => (value, decodeValue value) := by
  rw [Fields.find?, Json.lookup?, decodeFields_eq_map, ← List.map_reverse]
  exact lookup_map_snd (fun value => (value, decodeValue value)) _ _

theorem lookup_inspect (fields : List (Text × Json)) (name : Text) :
    (inspect fields).reverse.lookup name =
      (Json.lookup? fields name).map fun value => (value, flaws value) := by
  rw [Json.lookup?, inspect_eq_map, ← List.map_reverse]
  exact lookup_map_snd (fun value => (value, flaws value)) _ _

section Readers

variable {fields : List (Text × Json)}
  (each : ∀ field ∈ fields, StopsAt (flaws field.2) (decodeValue field.2))

include each

theorem stopsAt_of_lookup {name : Text} {value : Json}
    (found : Json.lookup? fields name = some value) : StopsAt (flaws value) (decodeValue value) := by
  obtain ⟨before, behind, split, -⟩ := List.lookup_eq_some_iff.mp found
  refine each (name, value) (List.mem_reverse.mp ?_)
  rw [split]
  exact List.mem_append_right _ List.mem_cons_self

theorem stopsAt_value? {name : Text} (noModifiers : name ≠ "modifiers".toList) :
    StopsAt (fieldFlaws (inspect fields) name) (Fields.value? (decodeFields fields) name) := by
  rw [fieldFlaws, lookup_inspect, Fields.value?, find?_decodeFields]
  cases found : Json.lookup? fields name with
  | none => exact ⟨none, rfl⟩
  | some value =>
      have stops := (stopsAt_of_lookup each found).map some
      simp only [Option.map_some, if_neg noModifiers]
      cases read : decodeValue value <;>
        · rw [read] at stops
          exact stops

omit each in
theorem stopsAt_modifiers :
    StopsAt (fieldFlaws (inspect fields) "modifiers".toList)
      (Fields.modifiers (decodeFields fields)) := by
  rw [fieldFlaws, lookup_inspect, Fields.modifiers, find?_decodeFields]
  cases found : Json.lookup? fields "modifiers".toList with
  | none => exact ⟨[], rfl⟩
  | some written =>
      simp only [Option.map_some, if_true, modifierFlaws]
      cases written.members with
      | error fault => exact rfl
      | ok members =>
          simp only [← List.head?_filter]
          cases members.filter (·.isStructured) with
          | nil => exact ⟨members, rfl⟩
          | cons member others => exact rfl

omit each in
theorem isNone_of_value? {name : Text} {result : Option FieldValue}
    (got : Fields.value? (decodeFields fields) name = .ok result) :
    ((inspect fields).reverse.lookup name).isNone = result.isNone := by
  rw [Fields.value?, find?_decodeFields] at got
  rw [lookup_inspect]
  cases found : Json.lookup? fields name with
  | none =>
      rw [found] at got
      cases got
      rfl
  | some value =>
      rw [found] at got
      simp only [Option.map_some] at got ⊢
      cases read : decodeValue value with
      | error fault =>
          rw [read] at got
          cases got
      | ok content =>
          rw [read] at got
          cases got
          rfl

/-- Reading the next field of a type meets with the flaws of that field first. -/
theorem stopsAt_field {name : Text} {required : Bool} {outline : Outline}
    {lack : List DecodeFault} {next : Option FieldValue → Except DecodeFault Described}
    (noModifiers : name ≠ "modifiers".toList)
    (behind : ∀ content, Fields.value? (decodeFields fields) name = .ok content →
      StopsAt (outline.flatMap (fun field => fieldFlaws (inspect fields) field.1) ++ lack)
        (next content)) :
    StopsAt (((name, required) :: outline).flatMap
        (fun field => fieldFlaws (inspect fields) field.1) ++ lack)
      (Fields.value? (decodeFields fields) name >>= next) := by
  rw [List.flatMap_cons, List.append_assoc]
  exact (stopsAt_value? each noModifiers).bind behind

omit each in
/-- The modifiers are read in their place among the fields. -/
theorem stopsAt_modifiersField {required : Bool} {outline : Outline}
    {lack : List DecodeFault} {next : List Json → Except DecodeFault Described}
    (behind : ∀ members,
      StopsAt (outline.flatMap (fun field => fieldFlaws (inspect fields) field.1) ++ lack)
        (next members)) :
    StopsAt ((("modifiers".toList, required) :: outline).flatMap
        (fun field => fieldFlaws (inspect fields) field.1) ++ lack)
      (Fields.modifiers (decodeFields fields) >>= next) := by
  rw [List.flatMap_cons, List.append_assoc]
  exact stopsAt_modifiers.bind fun members _ => behind members

theorem stopsAt_readCode :
    StopsAt (typeFlaws (inspect fields) "Code".toList codeOutline)
      (readCode (decodeFields fields)) := by
  unfold typeFlaws codeOutline
  refine stopsAt_field each (by decide) fun text gotText => ?_
  refine stopsAt_field each (by decide) fun offset _ => ?_
  refine stopsAt_field each (by decide) fun error _ => ?_
  rw [lacking, isNone_of_value? gotText]
  cases text with
  | none => exact rfl
  | some text => exact ⟨_, rfl⟩

theorem stopsAt_readBlock :
    StopsAt (typeFlaws (inspect fields) "BlockStart".toList blockOutline)
      (readBlock (decodeFields fields)) := by
  unfold typeFlaws blockOutline
  refine stopsAt_field each (by decide) fun text _ => ?_
  refine stopsAt_field each (by decide) fun selectors _ => ?_
  refine stopsAt_field each (by decide) fun atRule _ => ?_
  refine stopsAt_field each (by decide) fun children _ => ?_
  refine stopsAt_field each (by decide) fun offset _ => ?_
  exact ⟨_, rfl⟩

theorem stopsAt_readClosing :
    StopsAt (typeFlaws (inspect fields) "BlockEnd".toList closingOutline)
      (readClosing (decodeFields fields)) := by
  unfold typeFlaws closingOutline
  refine stopsAt_field each (by decide) fun offset _ => ?_
  exact ⟨_, rfl⟩

theorem stopsAt_readRule :
    StopsAt (typeFlaws (inspect fields) "Rule".toList ruleOutline)
      (readRule (decodeFields fields)) := by
  unfold typeFlaws ruleOutline
  refine stopsAt_field each (by decide) fun key gotKey => ?_
  refine stopsAt_field each (by decide) fun value gotValue => ?_
  refine stopsAt_modifiersField fun modifiers => ?_
  refine stopsAt_field each (by decide) fun offset _ => ?_
  refine stopsAt_field each (by decide) fun error _ => ?_
  rw [lacking, lacking, isNone_of_value? gotKey, isNone_of_value? gotValue]
  cases key with
  | none => cases value <;> exact rfl
  | some key =>
      cases value with
      | none => exact rfl
      | some value => exact ⟨_, rfl⟩

theorem stopsAt_readBare :
    StopsAt (typeFlaws (inspect fields) "AtRule".toList atRuleOutline)
      (readBare (decodeFields fields)) := by
  unfold typeFlaws atRuleOutline
  refine stopsAt_field each (by decide) fun name gotName => ?_
  refine stopsAt_field each (by decide) fun values _ => ?_
  rw [lacking, isNone_of_value? gotName]
  cases name with
  | none => exact rfl
  | some name => exact ⟨_, rfl⟩

theorem stopsAt_readTyped :
    StopsAt (objectFlaws (inspect fields)) (readTyped (decodeFields fields)) := by
  rw [objectFlaws, lookup_inspect, readTyped, find?_decodeFields]
  cases found : Json.lookup? fields "_type".toList with
  | none => exact rfl
  | some type =>
      cases type with
      | string name =>
          simp only [Option.map_some, Json.text?]
          by_cases isCode : name = "Code".toList
          · subst isCode
            exact stopsAt_readCode each
          by_cases isBlock : name = "BlockStart".toList
          · subst isBlock
            exact stopsAt_readBlock each
          by_cases isClosing : name = "BlockEnd".toList
          · subst isClosing
            exact stopsAt_readClosing each
          by_cases isRule : name = "Rule".toList
          · subst isRule
            exact stopsAt_readRule each
          by_cases isAtRule : name = "AtRule".toList
          · subst isAtRule
            exact stopsAt_readBare each
          have unknown : outlines.lookup name = none := by
            simp only [outlines, List.lookup_cons, List.lookup_nil, beq_eq_false_iff_ne.mpr isCode,
              beq_eq_false_iff_ne.mpr isBlock, beq_eq_false_iff_ne.mpr isClosing,
              beq_eq_false_iff_ne.mpr isRule, beq_eq_false_iff_ne.mpr isAtRule]
          rw [unknown]
          simp only [isCode, isBlock, isClosing, isRule, isAtRule, if_false]
          exact rfl
      | _ => exact rfl

end Readers

/-! ## Whole values -/

mutual

theorem stopsAt_decodeValue : (value : Json) → StopsAt (flaws value) (decodeValue value)
  | .object fields => (stopsAt_readTyped (stopsAt_each fields)).map FieldValue.described
  | .array items => (stopsAt_decodeItems items).map FieldValue.sequence
  | .null => ⟨_, rfl⟩
  | .boolean _ => ⟨_, rfl⟩
  | .integer _ => ⟨_, rfl⟩
  | .decimal _ => ⟨_, rfl⟩
  | .string _ => ⟨_, rfl⟩

theorem stopsAt_decodeItems : (items : List Json) → StopsAt (flawsOfAll items) (decodeItems items)
  | [] => ⟨_, rfl⟩
  | item :: items => by
      refine (stopsAt_decodeValue item).bind fun value _ => ?_
      exact (stopsAt_decodeItems items).map (value :: ·)

theorem stopsAt_each : (fields : List (Text × Json)) → ∀ field ∈ fields,
    StopsAt (flaws field.2) (decodeValue field.2)
  | [], _, member => absurd member List.not_mem_nil
  | (_, value) :: fields, field, member => by
      rcases List.mem_cons.mp member with rfl | later
      · exact stopsAt_decodeValue value
      · exact stopsAt_each fields field later

end

/-! ## Items -/

/-- What is made of an object of a type has that type. -/
theorem gives_ofMade {type : Text} {made : Except Text Token}
    (named : Gives (·.typeName = type) made) :
    Gives (·.typeName = type) (Except.ok (.ofMade type made) : Except DecodeFault Described) := by
  apply gives_ok
  cases made with
  | ok token => exact named token rfl
  | error field => rfl

theorem gives_makeCode (text : FieldValue) (offset error : Option FieldValue) :
    Gives (·.typeName = "Code".toList) (makeCode text offset error) :=
  .bind _ fun _ => .bind _ fun _ => .bind _ fun _ => gives_ok rfl

theorem gives_makeBlock (text selectors atRule children offset : Option FieldValue) :
    Gives (·.typeName = "BlockStart".toList)
      (makeBlock text selectors atRule children offset) := by
  refine .bind _ fun _ => .bind _ fun _ => .bind _ fun _ => .bind _ fun children =>
    .bind _ fun _ => ?_
  cases children with
  | none => exact gives_ok rfl
  | some children => exact gives_ok rfl

theorem gives_makeClosing (offset : Option FieldValue) :
    Gives (·.typeName = "BlockEnd".toList) (makeClosing offset) :=
  .bind _ fun _ => gives_ok rfl

theorem gives_makeRule (key value : FieldValue) (modifiers : List Json)
    (offset error : Option FieldValue) :
    Gives (·.typeName = "Rule".toList) (makeRule key value modifiers offset error) :=
  .bind _ fun _ => .bind _ fun _ => .bind _ fun _ => .bind _ fun _ => .bind _ fun _ =>
    gives_ok rfl

theorem gives_makeBare (name : FieldValue) (values : Option FieldValue) :
    Gives (·.typeName = "AtRule".toList) (makeBare name values) :=
  .bind _ fun _ => .bind _ fun _ => gives_ok rfl

theorem gives_readCode (fields : Fields) :
    Gives (·.typeName = "Code".toList) (readCode fields) := by
  refine .bind _ fun text => .bind _ fun _ => .bind _ fun _ => ?_
  cases text with
  | none => exact nofun
  | some text => exact gives_ofMade (gives_makeCode _ _ _)

theorem gives_readBlock (fields : Fields) :
    Gives (·.typeName = "BlockStart".toList) (readBlock fields) :=
  .bind _ fun _ => .bind _ fun _ => .bind _ fun _ => .bind _ fun _ => .bind _ fun _ =>
    gives_ofMade (gives_makeBlock _ _ _ _ _)

theorem gives_readClosing (fields : Fields) :
    Gives (·.typeName = "BlockEnd".toList) (readClosing fields) :=
  .bind _ fun _ => gives_ofMade (gives_makeClosing _)

theorem gives_readRule (fields : Fields) :
    Gives (·.typeName = "Rule".toList) (readRule fields) := by
  refine .bind _ fun key => .bind _ fun value => .bind _ fun _ => .bind _ fun _ =>
    .bind _ fun _ => ?_
  cases key with
  | none => cases value <;> exact nofun
  | some key =>
      cases value with
      | none => exact nofun
      | some value => exact gives_ofMade (gives_makeRule _ _ _ _ _)

theorem gives_readBare (fields : Fields) :
    Gives (·.typeName = "AtRule".toList) (readBare fields) := by
  refine .bind _ fun name => .bind _ fun _ => ?_
  cases name with
  | none => exact nofun
  | some name => exact gives_ofMade (gives_makeBare _ _)

/-- What an object describes has the type that the object names. -/
theorem typeName_of_readTyped {fields : List (Text × Json)} {content : Described}
    (read : readTyped (decodeFields fields) = .ok content) :
    (Json.lookup? fields "_type".toList).bind Json.text? = some content.typeName := by
  rw [readTyped, find?_decodeFields] at read
  cases found : Json.lookup? fields "_type".toList with
  | none =>
      rw [found] at read
      cases read
  | some type =>
      rw [found] at read
      cases type with
      | string name =>
          simp only [Option.map_some, Json.text?] at read
          refine congrArg some (Eq.symm ?_)
          split at read
          next isCode => exact isCode ▸ gives_readCode _ content read
          split at read
          next isBlock => exact isBlock ▸ gives_readBlock _ content read
          split at read
          next isClosing => exact isClosing ▸ gives_readClosing _ content read
          split at read
          next isRule => exact isRule ▸ gives_readRule _ content read
          split at read
          next isAtRule => exact isAtRule ▸ gives_readBare _ content read
          cases read
      | _ => cases read

theorem stopsAt_loadItem (value : Json) : StopsAt (itemFlaws value) (loadItem value) := by
  cases value with
  | object fields =>
      have stops := (stopsAt_readTyped (stopsAt_each fields)).mapError ReadFault.decode
      refine stops.bind fun content got => ?_
      have read : readTyped (decodeFields fields) = .ok content := by
        cases read : readTyped (decodeFields fields) with
        | error fault =>
            rw [read] at got
            cases got
        | ok result =>
            rw [read] at got
            injection got with equal
            rw [equal]
      rw [typeName_of_readTyped read]
      by_cases isAtRule : content.typeName = "AtRule".toList
      · rw [if_pos isAtRule, if_pos (congrArg some isAtRule), isAtRule]
        exact rfl
      · rw [if_neg isAtRule, if_neg fun equal => isAtRule (Option.some.inj equal)]
        exact ⟨content, rfl⟩
  | _ => exact rfl

/-- Reading fails with the first flaw of the text. -/
theorem stopsAt_load (text : Text) : StopsAt (textFlaws text) (load text) := by
  unfold textFlaws load
  cases Json.read? text with
  | none => exact rfl
  | some value =>
      cases value with
      | array items => exact StopsAt.mapM fun item _ => stopsAt_loadItem item
      | _ => exact rfl

/-! ## Rejections and other faults -/

/-- Reading a text gives contents or rejects the text if and only if the first flaw of the text,
where there is one, is of those that the reader looks for. -/
theorem load_rejects_iff (text : Text) :
    ((∃ contents, load text = .ok contents) ∨
      ∃ fault, load text = .error fault ∧ fault.isRejection = true) ↔
    ∀ flaw ∈ (textFlaws text).head?, flaw.isRejection = true := by
  have stops := stopsAt_load text
  cases found : textFlaws text with
  | nil =>
      rw [found] at stops
      exact ⟨fun _ => nofun, fun _ => Or.inl stops⟩
  | cons flaw flaws =>
      rw [found] at stops
      have failed : load text = .error flaw := stops
      constructor
      · rintro (⟨contents, loaded⟩ | ⟨fault, loaded, rejects⟩) first ⟨⟩
        · rw [failed] at loaded
          cases loaded
        · rw [failed] at loaded
          cases loaded
          exact rejects
      · intro rejects
        exact Or.inr ⟨flaw, failed, rejects flaw rfl⟩

/-- An item that is a number is not rejected: its type is asked for as if it were an object. -/
theorem not_forall_load_rejects :
    ¬∀ text, (∃ contents, load text = .ok contents) ∨
      ∃ fault, load text = .error fault ∧ fault.isRejection = true := by
  intro rejects
  have failed : load "[1]".toList = .error (.notObject .integer) := rfl
  rcases rejects "[1]".toList with ⟨contents, loaded⟩ | ⟨fault, loaded, isRejection⟩
  · rw [failed] at loaded
    cases loaded
  · rw [failed] at loaded
    cases loaded
    cases isRejection

end Token
end Stylesheet
