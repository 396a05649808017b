import Groundlane.Json.Number
import Groundlane.Sequential.Checks
import Groundlane.Text.Width

/-!
# Bounded extraction schemas

`parseBoundedSchema` of `core/schema-extraction-runtime.ts` with the limits and the contract checks
of `core/schema-extraction-contract.ts`. What is accepted comes with limits that are in force and
with fields whose names are identifiers (`parseBoundedSchema_ok`).
-/

namespace Groundlane.Extraction

open Sequential Utf16

/-! ## Values -/

/-- What `JSON.parse` gives. The keys of an object are listed in the order of `Object.entries`. -/
inductive Data where
  | null
  | bool (value : Bool)
  | num (value : Number)
  | str (value : Text)
  | arr (items : List Data)
  | obj (members : List (Text × Data))

/-- An own property. -/
def ownProperty (members : List (Text × Data)) (name : Text) : Option Data :=
  (members.find? fun member => member.1 = name).map Prod.snd

/-- A property with one of the names that the code reads. -/
def property (members : List (Text × Data)) (name : String) : Option Data :=
  ownProperty members (ascii name)

/-! ## Errors -/

inductive ErrorCode where
  | invalidInput
  | urlBlocked
  | upstreamError
  | outputLimit
deriving DecidableEq, Repr

/-- An error with its message and the code of its hint. -/
structure GroundlaneError where
  code : ErrorCode
  stage : String
  message : Text
  hint : String
deriving DecidableEq

abbrev Checked := Except GroundlaneError

def invalidInput (message : Text) (hint : String) : GroundlaneError :=
  ⟨.invalidInput, "schema-extract", message, hint⟩

/-! ## Limits -/

structure SchemaExtractionLimits where
  maxFields : Nat
  maxDepth : Nat
  maxProperties : Nat
  maxArrayItems : Nat
  maxStringChars : Nat
  maxOutputChars : Nat
  maxWarnings : Nat
  maxWarningChars : Nat
deriving DecidableEq, Repr

def defaultSchemaExtractionLimits : SchemaExtractionLimits where
  maxFields := 50
  maxDepth := 5
  maxProperties := 100
  maxArrayItems := 100
  maxStringChars := 10000
  maxOutputChars := 100000
  maxWarnings := 10
  maxWarningChars := 500

/-- Absolute ceilings so deployment overrides stay bounded. -/
def hardLimitCeilings : SchemaExtractionLimits where
  maxFields := 200
  maxDepth := 20
  maxProperties := 5000
  maxArrayItems := 10000
  maxStringChars := 200000
  maxOutputChars := 1000000
  maxWarnings := 50
  maxWarningChars := 2000

/-- Overrides of some of the limits. -/
structure LimitOverrides where
  maxFields : Option Number
  maxDepth : Option Number
  maxProperties : Option Number
  maxArrayItems : Option Number
  maxStringChars : Option Number
  maxOutputChars : Option Number
  maxWarnings : Option Number
  maxWarningChars : Option Number

def LimitOverrides.none : LimitOverrides :=
  ⟨.none, .none, .none, .none, .none, .none, .none, .none⟩

/-- The natural number that a number is. -/
def wholeNumber : Number → Option Nat
  | .finite value => value.natural
  | _ => none

/-- A limit, which is an integer above zero and at most the ceiling. -/
def resolveLimit (key : String) (limit ceiling : SchemaExtractionLimits → Nat)
    (override : Option Number) : Checked Nat :=
  let refused := invalidInput
    (ascii ("Schema extraction limit " ++ key ++ " is outside the allowed range"))
    "schema_extract.invalid_limit"
  match override.elim (some (limit defaultSchemaExtractionLimits)) wholeNumber with
  | none => .error refused
  | some value => do
    throwIf (value = 0 ∨ ceiling hardLimitCeilings < value) refused
    pure value

def resolveSchemaExtractionLimits (overrides : LimitOverrides) :
    Checked SchemaExtractionLimits := do
  let maxFields ← resolveLimit "maxFields" (·.maxFields) (·.maxFields) overrides.maxFields
  let maxDepth ← resolveLimit "maxDepth" (·.maxDepth) (·.maxDepth) overrides.maxDepth
  let maxProperties ← resolveLimit "maxProperties" (·.maxProperties) (·.maxProperties)
    overrides.maxProperties
  let maxArrayItems ← resolveLimit "maxArrayItems" (·.maxArrayItems) (·.maxArrayItems)
    overrides.maxArrayItems
  let maxStringChars ← resolveLimit "maxStringChars" (·.maxStringChars) (·.maxStringChars)
    overrides.maxStringChars
  let maxOutputChars ← resolveLimit "maxOutputChars" (·.maxOutputChars) (·.maxOutputChars)
    overrides.maxOutputChars
  let maxWarnings ← resolveLimit "maxWarnings" (·.maxWarnings) (·.maxWarnings) overrides.maxWarnings
  let maxWarningChars ← resolveLimit "maxWarningChars" (·.maxWarningChars) (·.maxWarningChars)
    overrides.maxWarningChars
  pure ⟨maxFields, maxDepth, maxProperties, maxArrayItems, maxStringChars, maxOutputChars,
    maxWarnings, maxWarningChars⟩

/-! ## Fields -/

inductive ScalarFieldType where
  | string
  | number
  | boolean
  | url
  | date
deriving DecidableEq, Repr

def ScalarFieldType.text : ScalarFieldType → String
  | string => "string"
  | number => "number"
  | boolean => "boolean"
  | url => "url"
  | date => "date"

inductive SchemaFieldType where
  | scalar (type : ScalarFieldType)
  | array
deriving DecidableEq, Repr

def scalarFieldTypes : List ScalarFieldType := [.string, .number, .boolean, .url, .date]

def scalarFieldType (text : Text) : Option ScalarFieldType :=
  scalarFieldTypes.find? fun type => text = ascii type.text

def schemaFieldType (text : Text) : Option SchemaFieldType :=
  if text = ascii "array" then some .array else (scalarFieldType text).map .scalar

structure ParsedSchemaField where
  name : Text
  type : SchemaFieldType
  required : Bool
  items : Option ScalarFieldType
deriving DecidableEq

structure ParsedExtractionSchema where
  fields : List ParsedSchemaField
  maxDepth : Nat
  maxProperties : Nat
  rawSchema : Data

def isLetter (unit : UInt16) : Bool :=
  (0x41 ≤ unit && unit ≤ 0x5a) || (0x61 ≤ unit && unit ≤ 0x7a)

/-- `/^[A-Za-z][A-Za-z0-9_]\x7b0,63\x7d$/u`. -/
def isFieldName : Text → Bool
  | [] => false
  | first :: rest =>
    isLetter first && rest.length ≤ 63 &&
      rest.all fun unit => isLetter unit || Parse.isDigit unit || unit = 0x5f

/-! ## The scan for references -/

def maxSchemaScanNodes : Nat := 5000

/-- The loop of `rejectRefKeys` over its stack, with the number of nodes that may still be seen. -/
def rejectRefKeys : Nat → List Data → Checked Unit
  | _, [] => pure ()
  | 0, _ :: _ => .error (invalidInput (ascii "Extraction schema exceeds the scannable node bound")
    "schema_extract.schema_too_large")
  | remaining + 1, current :: stack =>
    match current with
    | .arr items => rejectRefKeys remaining (items.reverse ++ stack)
    | .obj members =>
      if members.any fun member => member.1 = ascii "$ref" then
        .error (invalidInput (ascii
          "\"$ref\" is not allowed in extraction schemas; inline the referenced shape")
          "schema_extract.ref_rejected")
      else rejectRefKeys remaining ((members.map Prod.snd).reverse ++ stack)
    | _ => rejectRefKeys remaining stack

/-! ## The contract -/

/-- `/^https?:\/\//u`. -/
def isRemoteRef (text : Text) : Bool :=
  (ascii "http://").isPrefixOf text || (ascii "https://").isPrefixOf text

mutual

/-- `containsRemoteRef`, with the depth that is left. -/
def containsRemoteRef (depth : Nat) : Data → Option Text
  | .arr items => remoteRefInItems depth items
  | .obj members => remoteRefInMembers depth members
  | _ => none

/-- The items are looked at unless the depth is used up. -/
def remoteRefInItems (depth : Nat) : List Data → Option Text
  | [] => none
  | item :: rest =>
    (if depth = 0 then none else containsRemoteRef (depth - 1) item).or
      (remoteRefInItems depth rest)

/-- A member is a remote reference itself, or contains one. -/
def remoteRefInMembers (depth : Nat) : List (Text × Data) → Option Text
  | [] => none
  | (key, .str value) :: rest =>
    if key = ascii "$ref" ∧ isRemoteRef value = true then some value
    else remoteRefInMembers depth rest
  | (_, value) :: rest =>
    (if depth = 0 then none else containsRemoteRef (depth - 1) value).or
      (remoteRefInMembers depth rest)

end

mutual

/-- `measureDepth`, from zero. -/
def measureDepth : Data → Nat
  | .arr items => depthOfItems items
  | .obj members => depthOfMembers members
  | _ => 0

/-- One more than the depth of the deepest item. -/
def depthOfItems : List Data → Nat
  | [] => 0
  | item :: rest => max (measureDepth item + 1) (depthOfItems rest)

/-- One more than the depth of the deepest member. -/
def depthOfMembers : List (Text × Data) → Nat
  | [] => 0
  | (_, value) :: rest => max (measureDepth value + 1) (depthOfMembers rest)

end

mutual

/-- Arrays are not looked into. -/
def countProperties : Data → Nat
  | .obj members => members.length + countInMembers members
  | _ => 0

def countInMembers : List (Text × Data) → Nat
  | [] => 0
  | (_, value) :: rest => countProperties value + countInMembers rest

end

/-- A text in decimal. -/
def decimalText (n : Nat) : Text := ascii (toString n)

/-- The message of the contract is wrapped by the caller. -/
def validateExtractionSchema (schema : ParsedExtractionSchema) : Except Text Unit := do
  throwIf (schema.fields = []) (ascii "Extraction schema must define at least one field")
  throwIf (schema.maxDepth = 0) (ascii "maxDepth must be a positive integer")
  throwIf (schema.maxProperties = 0) (ascii "maxProperties must be a positive integer")
  match containsRemoteRef 100 schema.rawSchema with
  | some remoteRef =>
    .error (ascii "Remote $ref is not allowed in extraction schemas: \"" ++ remoteRef ++ ascii "\"")
  | none => pure ()
  let depth := measureDepth schema.rawSchema
  throwIf (schema.maxDepth < depth)
    (ascii "Schema depth " ++ decimalText depth ++ ascii " exceeds maxDepth " ++
      decimalText schema.maxDepth)
  let propCount := countProperties schema.rawSchema
  throwIf (schema.maxProperties < propCount)
    (ascii "Schema has " ++ decimalText propCount ++
      ascii " properties, exceeding maxProperties " ++ decimalText schema.maxProperties)

/-! ## The parser -/

/-- An error about a field. -/
def fieldError (name : Text) (problem hint : String) : GroundlaneError :=
  invalidInput (ascii "Extraction field \"" ++ name ++ ascii ("\"" ++ problem)) hint

/-- The flag of a field; fields are optional by default. -/
def parseRequired (name : Text) (definition : List (Text × Data)) : Checked Bool :=
  match property definition "required" with
  | none => .ok false
  | some (.bool required) => .ok required
  | some _ => .error (fieldError name " has a non-boolean required flag"
    "schema_extract.invalid_required_flag")

/-- The type of the items of an array field. -/
def parseItems (name : Text) (definition : List (Text × Data)) : Checked ScalarFieldType :=
  match property definition "items" with
  | some (.obj items) =>
    match property items "type" with
    | some (.str type) =>
      match scalarFieldType type with
      | some itemType => .ok itemType
      | none => .error (fieldError name " has an unsupported array item type"
        "schema_extract.unsupported_item_type")
    | _ => .error (fieldError name " has an unsupported array item type"
      "schema_extract.unsupported_item_type")
  | _ => .error (fieldError name " of type array must declare items"
    "schema_extract.array_missing_items")

/-- The type of a field. -/
def parseType (name : Text) (definition : List (Text × Data)) : Checked SchemaFieldType :=
  let refused := fieldError name " has an unsupported type"
    "schema_extract.unsupported_field_type"
  match property definition "type" with
  | some (.str type) =>
    match schemaFieldType type with
    | some type => .ok type
    | none => .error refused
  | _ => .error refused

/-- One round of the loop over the properties. -/
def parseField : Text × Data → Checked ParsedSchemaField
  | (name, definition) => do
    throwIf (isFieldName name = false)
      (invalidInput (ascii "Extraction field name \"" ++ name ++ ascii "\" is invalid")
        "schema_extract.invalid_field_name")
    match definition with
    | .obj members => do
      let type ← parseType name members
      let required ← parseRequired name members
      match type with
      | .array => do
        let items ← parseItems name members
        pure ⟨name, type, required, some items⟩
      | .scalar _ => pure ⟨name, type, required, none⟩
    | _ => .error (fieldError name " must be an object" "schema_extract.invalid_field_definition")

/-- The root declares the type of an object. -/
def checkRootType (members : List (Text × Data)) : Checked Unit :=
  let refused := invalidInput (ascii "Extraction schema must declare type \"object\"")
    "schema_extract.schema_root_type"
  match property members "type" with
  | some (.str type) => throwIf (type ≠ ascii "object") refused
  | _ => .error refused

/-- The fields of the properties, and the checks of the contract. -/
def parseProperties (limits : SchemaExtractionLimits) (rawSchema : Data) :
    Option Data → Checked ParsedExtractionSchema
  | some (.obj entries) => do
    throwIf (entries = [])
      (invalidInput (ascii "Extraction schema must define at least one field")
        "schema_extract.schema_no_fields")
    throwIf (limits.maxFields < entries.length)
      (invalidInput (ascii "Extraction schema defines " ++ decimalText entries.length ++
        ascii " fields, exceeding maxFields " ++ decimalText limits.maxFields)
        "schema_extract.too_many_fields")
    let fields ← entries.mapM parseField
    let schema := ⟨fields, limits.maxDepth, limits.maxProperties, rawSchema⟩
    match validateExtractionSchema schema with
    | .error message => .error (invalidInput message "schema_extract.schema_rejected")
    | .ok () => pure schema
  | _ => .error (invalidInput (ascii "Extraction schema must define a properties object")
    "schema_extract.schema_no_properties")

def parseBoundedSchema (rawSchema : Data) (limitOverrides : LimitOverrides) :
    Checked ParsedExtractionSchema := do
  let limits ← resolveSchemaExtractionLimits limitOverrides
  match rawSchema with
  | .obj members => do
    rejectRefKeys maxSchemaScanNodes [rawSchema]
    checkRootType members
    parseProperties limits rawSchema (property members "properties")
  | _ => .error (invalidInput (ascii "Extraction schema must be an object")
    "schema_extract.schema_not_object")

/-! ## What an accepted schema is -/

/-- A field of an accepted schema has the name of an identifier, and a type of items exactly if it
is an array. -/
structure ParsedSchemaField.Valid (field : ParsedSchemaField) : Prop where
  name : isFieldName field.name = true
  items : field.type = .array ↔ field.items.isSome

theorem parseField_ok {entry : Text × Data} {field : ParsedSchemaField}
    (h : parseField entry = .ok field) : field.Valid := by
  obtain ⟨_, definition⟩ := entry
  unfold parseField at h
  obtain ⟨hname, h⟩ := check_bind_eq_ok.1 h
  rw [throwIf_eq_ok, Bool.not_eq_false] at hname
  cases definition with
  | obj members =>
    obtain ⟨type, -, h⟩ := bind_eq_ok.1 h
    obtain ⟨_, -, h⟩ := bind_eq_ok.1 h
    cases type with
    | array =>
      obtain ⟨_, -, h⟩ := bind_eq_ok.1 h
      obtain rfl := Except.ok.inj h
      exact ⟨hname, fun _ => rfl, fun _ => rfl⟩
    | scalar type =>
      obtain rfl := Except.ok.inj h
      exact ⟨hname, nofun, nofun⟩
  | null => cases h
  | bool _ => cases h
  | num _ => cases h
  | str _ => cases h
  | arr _ => cases h

variable {schema : ParsedExtractionSchema} {rawSchema : Data}

theorem parseProperties_ok {limits : SchemaExtractionLimits} {properties : Option Data}
    (h : parseProperties limits rawSchema properties = .ok schema) :
    ∀ field ∈ schema.fields, field.Valid := by
  unfold parseProperties at h
  split at h
  · obtain ⟨-, h⟩ := check_bind_eq_ok.1 h
    obtain ⟨-, h⟩ := check_bind_eq_ok.1 h
    obtain ⟨_, hfields, h⟩ := bind_eq_ok.1 h
    dsimp only at h
    split at h
    · cases h
    · obtain rfl := Except.ok.inj h
      exact forall_of_mapM hfields fun _ _ => parseField_ok
  · cases h

/-- Accepted schemas come with limits in force and have valid fields. -/
theorem parseBoundedSchema_ok {limitOverrides : LimitOverrides}
    (h : parseBoundedSchema rawSchema limitOverrides = .ok schema) :
    (∃ limits, resolveSchemaExtractionLimits limitOverrides = .ok limits) ∧
      ∀ field ∈ schema.fields, field.Valid := by
  obtain ⟨limits, hlimits, h⟩ := bind_eq_ok.1 h
  refine ⟨⟨limits, hlimits⟩, ?_⟩
  split at h
  · obtain ⟨-, h⟩ := check_bind_eq_ok.1 h
    obtain ⟨-, h⟩ := check_bind_eq_ok.1 h
    exact parseProperties_ok h
  · cases h

end Groundlane.Extraction
