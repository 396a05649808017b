import Groundlane.Extraction.Fingerprint
import Groundlane.Extraction.Schema

/-!
# Validation of provider output

`validateProviderOutput` of `core/schema-extraction-runtime.ts`. A field is looked up with
`data[field.name]`, which also finds what objects inherit. So the results are faithful exactly if no
field that is absent from the output has the name of an inherited property
(`validation_faithful_iff`).
-/

namespace Groundlane.Extraction

open Sequential Utf16

/-! ## What the code is given -/

structure Url where
  protocol : Text
  username : Text
  password : Text
  port : Option Nat

/-- The URL parser and `Date.parse`, which is not a number for a text that is no date. -/
structure Runtime where
  newUrl : Text → Option Url
  dateParse : Text → Option Int

def parsePublicUrl (runtime : Runtime) (value : Text) : Checked Url :=
  match runtime.newUrl value with
  | none => .error ⟨.invalidInput, "url", ascii "URL must be valid", "url.invalid"⟩
  | some url => do
    throwIf (url.protocol ≠ ascii "http:" ∧ url.protocol ≠ ascii "https:")
      ⟨.urlBlocked, "url", ascii "Only HTTP and HTTPS URLs are allowed",
        "url.blocked.invalid_protocol"⟩
    throwIf (url.username ≠ [] ∨ url.password ≠ [])
      ⟨.urlBlocked, "url", ascii "URLs containing credentials are not allowed",
        "url.blocked.credentials"⟩
    let port := url.port.getD (if url.protocol = ascii "https:" then 443 else 80)
    throwIf (port ≠ 80 ∧ port ≠ 443)
      ⟨.urlBlocked, "url", ascii "Destination port is not allowed", "url.blocked.invalid_port"⟩
    pure url

/-! ## Checks of values -/

/-- The first code points of a text. -/
def firstPoints (maxChars : Nat) (text : Text) : Text :=
  ((codePoints text).take maxChars).flatten

/-- The value and whether it was truncated. -/
def truncateUnicode (value : Text) (maxChars : Nat) : Text × Bool :=
  (firstPoints maxChars value, decide (maxChars < (codePoints value).length))

/-- Truncate without materializing giant char arrays for huge inputs. -/
def truncateBoundedString (value : Text) (maxChars : Nat) : Text × Bool :=
  if value.length ≤ maxChars then (value, false)
  else
    let window := value.take (maxChars * 2 + 16)
    ((truncateUnicode window maxChars).1, true)

def maxUrlValueUnits : Nat := 8192

def maxDateValueUnits : Nat := 120

/-- The value of a property: data, or what every object inherits. -/
inductive Raw where
  | data (value : Data)
  | inherited

inductive FieldCheck where
  | ok (value : Data)
  | failed (reason : Text) (value : Option Data)

section

variable (runtime : Runtime) (limits : SchemaExtractionLimits)

/-- A string that is kept, as far as the limit goes. -/
def bounded (raw : Text) : Data := .str (truncateBoundedString raw limits.maxStringChars).1

def checkScalar : ScalarFieldType → Raw → FieldCheck
  | .string, .data (.str raw) => .ok (bounded limits raw)
  | .string, _ => .failed (ascii "Expected string") none
  | .number, .data (.num raw) =>
    if raw.isFinite then .ok (.num raw) else .failed (ascii "Expected finite number") none
  | .number, _ => .failed (ascii "Expected finite number") none
  | .boolean, .data (.bool raw) => .ok (.bool raw)
  | .boolean, _ => .failed (ascii "Expected boolean") none
  | .url, .data (.str raw) =>
    if maxUrlValueUnits < raw.length then .failed (ascii "Expected public HTTP(S) URL") none
    else
      match parsePublicUrl runtime raw with
      | .error _ => .failed (ascii "Expected public HTTP(S) URL") (some (bounded limits raw))
      | .ok _ => .ok (bounded limits raw)
  | .url, _ => .failed (ascii "Expected public HTTP(S) URL") none
  | .date, .data (.str raw) =>
    if maxDateValueUnits < raw.length ∨ runtime.dateParse raw = none then
      .failed (ascii "Expected date string") (some (bounded limits raw))
    else .ok (bounded limits raw)
  | .date, _ => .failed (ascii "Expected date string") none

/-- The loop over the items of an array; the error is the first invalid index. -/
def checkItems (itemType : ScalarFieldType) (index : Nat) : List Data → Except Nat (List Data)
  | [] => .ok []
  | item :: rest =>
    match checkScalar runtime limits itemType (.data item) with
    | .failed _ _ => .error index
    | .ok value => do
      let values ← checkItems itemType (index + 1) rest
      .ok (value :: values)

def checkFieldValue (field : ParsedSchemaField) (raw : Raw) : FieldCheck :=
  match field.type with
  | .scalar type => checkScalar runtime limits type raw
  | .array =>
    match raw with
    | .data (.arr items) =>
      if limits.maxArrayItems < items.length then
        .failed (ascii "Array exceeds maxArrayItems of " ++ decimalText limits.maxArrayItems) none
      else
        let itemType := field.items.getD .string
        match checkItems runtime limits itemType 0 items with
        | .error index =>
          .failed (ascii ("Expected array of " ++ itemType.text ++
            " (first invalid index ") ++ decimalText index ++ ascii ")") none
        | .ok values => .ok (.arr values)
    | _ => .failed (ascii "Expected array") none

/-! ## The output -/

/-- What every object inherits: functions, and under `__proto__` an object. -/
def inheritedNames : List String :=
  ["constructor", "__defineGetter__", "__defineSetter__", "hasOwnProperty", "__lookupGetter__",
    "__lookupSetter__", "isPrototypeOf", "propertyIsEnumerable", "toString", "valueOf", "__proto__",
    "toLocaleString"]

def Inherited (name : Text) : Prop := ∃ inherited ∈ inheritedNames, name = ascii inherited

instance (name : Text) : Decidable (Inherited name) :=
  inferInstanceAs (Decidable (∃ inherited ∈ inheritedNames, name = ascii inherited))

/-- `data[field.name]`. -/
def readProperty (members : List (Text × Data)) (name : Text) : Option Raw :=
  match ownProperty members name with
  | some value => some (.data value)
  | none => if Inherited name then some .inherited else none

/-- An item of the value that is a string and not the item that was given. -/
def itemDiffers : Data → Data → Bool
  | .str value, .str raw => value ≠ raw
  | .str _, _ => true
  | _, _ => false

/-- The comparison that measures truncation again. -/
def wasTruncated : Data → Raw → Bool
  | .str value, .data (.str raw) => value ≠ raw
  | .arr values, .data (.arr items) => (values.zip items).any fun (value, raw) =>
    itemDiffers value raw
  | _, _ => false

/-- The property unless it is undefined or null. -/
def defined : Option Raw → Option Raw
  | some (.data .null) => none
  | raw => raw

/-- One round of the loop over the fields, with the change of the flag. -/
def validateField (members : List (Text × Data)) (field : ParsedSchemaField) :
    ExtractionFieldResult Data × Bool :=
  match defined (readProperty members field.name) with
  | none => (⟨field.name, .missing, none, some (ascii "Field not found in provider output")⟩, false)
  | some raw =>
    match checkFieldValue runtime limits field raw with
    | .failed reason value => (⟨field.name, .invalid, value, some reason⟩, false)
    | .ok value => (⟨field.name, .present, some value, none⟩, wasTruncated value raw)

end

mutual

def Data.toTree : Data → Tree
  | .null => .null
  | .bool value => .bool value
  | .num (.finite value) => .num value.numeral
  | .num _ => .null
  | .str value => .str value
  | .arr items => .arr (toTrees items)
  | .obj members => .obj (toMembers members)

def toTrees : List Data → List Tree
  | [] => []
  | item :: rest => item.toTree :: toTrees rest

def toMembers : List (Text × Data) → List (Text × Tree)
  | [] => []
  | (key, value) :: rest => (key, value.toTree) :: toMembers rest

end

/-- What `JSON.stringify` writes of a result. The members of a result that is present or missing
are those that its literal has. -/
def resultTree (result : ExtractionFieldResult Data) : Tree :=
  .obj ([(ascii "name", .str result.name), (ascii "status", .str (ascii result.status.text))] ++
    (result.reason.map fun reason => (ascii "reason", Tree.str reason)).toList ++
    (result.value.map fun value => (ascii "value", value.toTree)).toList)

structure ProviderOutputValidation where
  fields : List (ExtractionFieldResult Data)
  truncated : Bool

def validateProviderOutput (runtime : Runtime) (data : Data) (schema : ParsedExtractionSchema)
    (limitOverrides : LimitOverrides) : Checked ProviderOutputValidation := do
  let limits ← resolveSchemaExtractionLimits limitOverrides
  match data with
  | .obj members => do
    throwIf (limits.maxProperties + schema.fields.length < members.length)
      ⟨.outputLimit, "schema-extract",
        ascii "Provider returned more fields than the configured bound",
        "schema_extract.output_too_many_keys"⟩
    let results := schema.fields.map (validateField runtime limits members)
    let fields := results.map Prod.fst
    let serialized := (Tree.arr (fields.map resultTree)).text
    throwIf (limits.maxOutputChars < (codePoints serialized).length)
      ⟨.outputLimit, "schema-extract",
        ascii "Validated extraction output exceeds the configured limit",
        "schema_extract.output_too_large"⟩
    pure ⟨fields, results.any Prod.snd⟩
  | _ => .error ⟨.upstreamError, "schema-extract",
    ascii "Provider returned malformed extraction output", "schema_extract.malformed_output"⟩

/-! ## Truncation -/

/-- A part of a text with twice as many units has the same first code points. -/
theorem take_codePoints_take (text : Text) {units points : Nat} (h : 2 * points ≤ units) :
    (codePoints (text.take units)).take points = (codePoints text).take points := by
  induction points generalizing text units with
  | zero => rfl
  | succ points ih =>
    obtain ⟨units, rfl⟩ := Nat.exists_eq_add_of_le' (show 2 ≤ units by omega)
    cases text with
    | nil => rw [List.take_nil]
    | cons first rest =>
      cases rest with
      | nil => rw [List.take_of_length_le (show [first].length ≤ units + 2 by simp)]
      | cons second rest =>
        rw [List.take_succ_cons, List.take_succ_cons, codePoints, codePoints]
        by_cases hpair : (isHigh first && isLow second) = true
        · rw [if_pos hpair, if_pos hpair, List.take_succ_cons, List.take_succ_cons,
            ih rest (by omega)]
        · rw [if_neg hpair, if_neg hpair, List.take_succ_cons, List.take_succ_cons]
          have hrest : (codePoints ((second :: rest).take (units + 1))).take points = _ :=
            ih (second :: rest) (by omega)
          rw [List.take_succ_cons] at hrest
          rw [hrest]

theorem length_codePoints_le (text : Text) : (codePoints text).length ≤ text.length := by
  fun_induction codePoints text with
  | case1 => exact Nat.le_refl 0
  | case2 unit => exact Nat.le_refl 1
  | case3 first second rest hpair ih =>
    simp only [List.length_cons]
    omega
  | case4 first second rest hpair ih =>
    simp only [List.length_cons] at ih ⊢
    omega

/-- What is kept of a string are its first code points. -/
theorem truncateBoundedString_fst (value : Text) (maxChars : Nat) :
    (truncateBoundedString value maxChars).1 = firstPoints maxChars value := by
  unfold truncateBoundedString
  by_cases h : value.length ≤ maxChars
  · rw [if_pos h, firstPoints, List.take_of_length_le ((length_codePoints_le value).trans h),
      flatten_codePoints]
  · rw [if_neg h]
    show ((codePoints _).take maxChars).flatten = _
    rw [take_codePoints_take value (by omega), firstPoints]

example : truncateBoundedString (ascii "abc") 2 = (ascii "ab", true) := by decide +kernel

/-- A text is kept as it is exactly if it has no more code points than are kept. -/
theorem firstPoints_eq_iff {maxChars : Nat} {text : Text} :
    firstPoints maxChars text = text ↔ (codePoints text).length ≤ maxChars := by
  constructor
  · intro h
    have hpoints := codePoints_slice text 0 maxChars
    rw [List.drop_zero, show ((codePoints text).take maxChars).flatten = text from h] at hpoints
    rw [hpoints, List.length_take]
    exact Nat.min_le_left _ _
  · intro h
    rw [firstPoints, List.take_of_length_le h, flatten_codePoints]

/-! ## What is promised -/

section

variable (runtime : Runtime) (limits : SchemaExtractionLimits)

/-- The value is of the type. -/
def Conforms : ScalarFieldType → Data → Prop
  | .string, .str _ => True
  | .number, .num value => value.isFinite = true
  | .boolean, .bool _ => True
  | .url, .str value =>
    value.length ≤ maxUrlValueUnits ∧ ∃ url, parsePublicUrl runtime value = .ok url
  | .date, .str value => value.length ≤ maxDateValueUnits ∧ runtime.dateParse value ≠ none
  | _, _ => False

/-- The value is of the type that the field declares, and within its bounds. -/
def FieldConforms (field : ParsedSchemaField) (value : Data) : Prop :=
  match field.type with
  | .scalar type => Conforms runtime type value
  | .array => ∃ items, value = .arr items ∧ items.length ≤ limits.maxArrayItems ∧
    ∀ item ∈ items, Conforms runtime (field.items.getD .string) item

/-- A string up to truncation. -/
def shorten : Data → Data
  | .str value => .str (firstPoints limits.maxStringChars value)
  | value => value

/-- The value with its strings truncated. -/
def shortenValue : Data → Data
  | .arr items => .arr (items.map (shorten limits))
  | value => shorten limits value

/-- A string that has to be shortened. -/
def IsLong : Data → Prop
  | .str value => limits.maxStringChars < (codePoints value).length
  | _ => False

/-- The value has a string that has to be shortened. -/
def HasLong : Data → Prop
  | .arr items => ∃ item ∈ items, IsLong limits item
  | value => IsLong limits value

/-- The own property of the name, unless it is null. -/
def ownValue (members : List (Text × Data)) (name : Text) : Option Data :=
  match ownProperty members name with
  | some .null => none
  | value => value

/-- The result says of the field what is the case. -/
structure Judged (members : List (Text × Data)) (field : ParsedSchemaField)
    (result : ExtractionFieldResult Data) : Prop where
  name : result.name = field.name
  missing : result.status = .missing ↔ ownValue members field.name = none
  present : result.status = .present ↔
    ∃ value, ownValue members field.name = some value ∧ FieldConforms runtime limits field value
  value : result.status = .present → ∃ value, ownValue members field.name = some value ∧
    result.value = some (shortenValue limits value)

/-- One result for each field in their order, and a flag that says whether a string that is present
was shortened. -/
structure Faithful (members : List (Text × Data)) (schema : ParsedExtractionSchema)
    (validation : ProviderOutputValidation) : Prop where
  fields : List.Forall₂ (Judged runtime limits members) schema.fields validation.fields
  truncated : validation.truncated = true ↔ ∃ field ∈ schema.fields, ∃ value,
    ownValue members field.name = some value ∧ FieldConforms runtime limits field value ∧
      HasLong limits value

end

/-! ## What the checks find -/

variable {runtime : Runtime} {limits : SchemaExtractionLimits}

theorem bounded_eq (raw : Text) : bounded limits raw = shorten limits (.str raw) := by
  rw [bounded, truncateBoundedString_fst, shorten]

/-- A scalar passes exactly if it conforms, and then its shortened value is kept. -/
theorem checkScalar_data (type : ScalarFieldType) (raw : Data) :
    (Conforms runtime type raw ∧
      checkScalar runtime limits type (.data raw) = .ok (shorten limits raw)) ∨
    (¬ Conforms runtime type raw ∧
      ∃ reason value, checkScalar runtime limits type (.data raw) = .failed reason value) := by
  cases type with
  | string =>
    cases raw with
    | str raw => exact .inl ⟨trivial, by rw [checkScalar, bounded_eq]⟩
    | null | bool _ | num _ | arr _ | obj _ => exact .inr ⟨nofun, _, _, rfl⟩
  | number =>
    cases raw with
    | num raw =>
      by_cases hfinite : raw.isFinite = true
      · exact .inl ⟨hfinite, by rw [checkScalar, if_pos hfinite, shorten]; nofun⟩
      · exact .inr ⟨hfinite, _, _, by rw [checkScalar, if_neg hfinite]⟩
    | null | bool _ | str _ | arr _ | obj _ => exact .inr ⟨nofun, _, _, rfl⟩
  | boolean =>
    cases raw with
    | bool raw => exact .inl ⟨trivial, rfl⟩
    | null | num _ | str _ | arr _ | obj _ => exact .inr ⟨nofun, _, _, rfl⟩
  | url =>
    cases raw with
    | str raw =>
      rw [checkScalar]
      by_cases hlength : maxUrlValueUnits < raw.length
      · exact .inr ⟨fun h => absurd h.1 (Nat.not_le.2 hlength), _, _, if_pos hlength⟩
      · rw [if_neg hlength]
        cases hurl : parsePublicUrl runtime raw with
        | error error =>
          refine .inr ⟨fun ⟨_, url, hok⟩ => ?_, _, _, rfl⟩
          exact absurd (hurl.symm.trans hok) nofun
        | ok url => exact .inl ⟨⟨Nat.not_lt.1 hlength, url, hurl⟩, by rw [bounded_eq]⟩
    | null | bool _ | num _ | arr _ | obj _ => exact .inr ⟨nofun, _, _, rfl⟩
  | date =>
    cases raw with
    | str raw =>
      rw [checkScalar]
      by_cases hrefused : maxDateValueUnits < raw.length ∨ runtime.dateParse raw = none
      · refine .inr ⟨fun ⟨hlength, hdate⟩ => ?_, _, _, if_pos hrefused⟩
        rcases hrefused with hlong | hnone
        · exact absurd hlength (Nat.not_le.2 hlong)
        · exact hdate hnone
      · obtain ⟨hlength, hdate⟩ := not_or.1 hrefused
        exact .inl ⟨⟨Nat.not_lt.1 hlength, hdate⟩, by rw [if_neg hrefused, bounded_eq]⟩
    | null | bool _ | num _ | arr _ | obj _ => exact .inr ⟨nofun, _, _, rfl⟩

/-- The items of an array pass exactly if all of them conform. -/
theorem checkItems_spec (itemType : ScalarFieldType) (index : Nat) (items : List Data) :
    ((∀ item ∈ items, Conforms runtime itemType item) ∧
      checkItems runtime limits itemType index items = .ok (items.map (shorten limits))) ∨
    ((¬ ∀ item ∈ items, Conforms runtime itemType item) ∧
      ∃ invalid, checkItems runtime limits itemType index items = .error invalid) := by
  induction items generalizing index with
  | nil => exact .inl ⟨fun _ hmem => absurd hmem List.not_mem_nil, rfl⟩
  | cons item rest ih =>
    rw [List.forall_mem_cons, checkItems]
    rcases checkScalar_data itemType item with ⟨hitem, hcheck⟩ | ⟨hitem, _, _, hcheck⟩
    · rw [hcheck]
      dsimp only
      rcases ih (index + 1) with ⟨hrest, hitems⟩ | ⟨hrest, invalid, hitems⟩
      · exact .inl ⟨⟨hitem, hrest⟩, by rw [hitems]; rfl⟩
      · exact .inr ⟨fun h => hrest h.2, invalid, by rw [hitems]; rfl⟩
    · exact .inr ⟨fun h => hitem h.1, index, by rw [hcheck]⟩

/-- A scalar that conforms is no array. -/
theorem shortenValue_of_conforms {type : ScalarFieldType} {raw : Data}
    (h : Conforms runtime type raw) : shortenValue limits raw = shorten limits raw := by
  cases raw with
  | arr items => cases type <;> exact absurd h nofun
  | null | bool _ | num _ | str _ | obj _ => rfl

variable {members : List (Text × Data)} (field : ParsedSchemaField)

/-- A field passes exactly if its value conforms, and then its shortened value is kept. -/
theorem checkFieldValue_data (raw : Data) : (FieldConforms runtime limits field raw ∧
      checkFieldValue runtime limits field (.data raw) = .ok (shortenValue limits raw)) ∨
    (¬ FieldConforms runtime limits field raw ∧
      ∃ reason value, checkFieldValue runtime limits field (.data raw) =
        .failed reason value) := by
  unfold FieldConforms checkFieldValue
  cases field.type with
  | scalar type =>
    rcases checkScalar_data type raw with ⟨hconforms, hcheck⟩ | hfailed
    · exact .inl ⟨hconforms, by rw [shortenValue_of_conforms hconforms]; exact hcheck⟩
    · exact .inr hfailed
  | array =>
    cases raw with
    | arr items =>
      dsimp only
      by_cases hlong : limits.maxArrayItems < items.length
      · refine .inr ⟨fun ⟨_, heq, hlength, _⟩ => ?_, _, _, if_pos hlong⟩
        obtain rfl := Data.arr.inj heq
        exact absurd hlength (Nat.not_le.2 hlong)
      · rw [if_neg hlong]
        rcases checkItems_spec (field.items.getD .string) 0 items with
          ⟨hitems, hcheck⟩ | ⟨hitems, invalid, hcheck⟩
        · exact .inl ⟨⟨items, rfl, Nat.not_lt.1 hlong, hitems⟩, by rw [hcheck]; rfl⟩
        · refine .inr ⟨fun ⟨_, heq, _, hall⟩ => ?_, _, _, by rw [hcheck]⟩
          obtain rfl := Data.arr.inj heq
          exact hitems hall
    | null | bool _ | num _ | str _ | obj _ =>
      exact .inr ⟨fun ⟨_, heq, _⟩ => absurd heq nofun, _, _, rfl⟩

/-- What is inherited conforms to nothing. -/
theorem checkFieldValue_inherited :
    ∃ reason value, checkFieldValue runtime limits field .inherited = .failed reason value := by
  unfold checkFieldValue
  cases field.type with
  | scalar type => cases type <;> exact ⟨_, _, rfl⟩
  | array => exact ⟨_, _, rfl⟩

theorem itemDiffers_iff (item : Data) :
    itemDiffers (shorten limits item) item = true ↔ IsLong limits item := by
  cases item with
  | str value =>
    rw [shorten, itemDiffers, IsLong, decide_eq_true_eq, Ne, firstPoints_eq_iff, Nat.not_le]
  | null | bool _ | num _ | arr _ | obj _ => exact ⟨nofun, nofun⟩

/-- The comparison finds exactly the values with a string that was shortened. -/
theorem wasTruncated_iff (raw : Data) :
    wasTruncated (shortenValue limits raw) (.data raw) = true ↔ HasLong limits raw := by
  cases raw with
  | arr items =>
    rw [shortenValue, wasTruncated, HasLong, ← List.map_prod_right_eq_zip, List.any_map,
      List.any_eq_true]
    exact exists_congr fun item => and_congr_right fun _ => itemDiffers_iff item
  | str value =>
    rw [shortenValue, shorten, wasTruncated, HasLong, IsLong, decide_eq_true_eq, Ne,
      firstPoints_eq_iff, Nat.not_le]
    · nofun
    · nofun
  | null | bool _ | num _ | obj _ => exact ⟨nofun, nofun⟩

/-! ## One field -/

/-- The field is read from the output itself, and not from what it inherits. -/
def ReadsOwn (members : List (Text × Data)) (field : ParsedSchemaField) : Prop :=
  Inherited field.name → (ownProperty members field.name).isSome = true

instance (members : List (Text × Data)) (field : ParsedSchemaField) :
    Decidable (ReadsOwn members field) :=
  inferInstanceAs (Decidable (_ → _))

theorem defined_of_own {name : Text} {value : Data} (h : ownValue members name = some value) :
    defined (readProperty members name) = some (.data value) := by
  unfold ownValue at h
  unfold readProperty
  cases hown : ownProperty members name with
  | none =>
    rw [hown] at h
    cases h
  | some own =>
    rw [hown] at h
    cases own with
    | null => cases h
    | bool _ | num _ | str _ | arr _ | obj _ =>
      obtain rfl := Option.some.inj h
      rfl

theorem defined_of_none {field : ParsedSchemaField} (h : ownValue members field.name = none) :
    defined (readProperty members field.name) =
      if ReadsOwn members field then none else some .inherited := by
  by_cases hreads : ReadsOwn members field
  · rw [if_pos hreads]
    unfold readProperty
    cases hown : ownProperty members field.name with
    | none =>
      have hnot : ¬ Inherited field.name := fun hinherited => by
        have hsome := hreads hinherited
        rw [hown] at hsome
        cases hsome
      dsimp only
      rw [if_neg hnot]
      rfl
    | some own =>
      rw [ownValue, hown] at h
      cases own with
      | null => rfl
      | bool _ | num _ | str _ | arr _ | obj _ => cases h
  · obtain ⟨hinherited, hnone⟩ := Classical.not_imp.1 hreads
    have hown : ownProperty members field.name = none := by simpa using hnone
    rw [if_neg hreads, readProperty, hown]
    dsimp only
    rw [if_pos hinherited]
    rfl

variable (runtime limits) in
/-- A field with a value of its own is judged by it. -/
theorem validateField_own {field : ParsedSchemaField} {value : Data}
    (h : ownValue members field.name = some value) : (FieldConforms runtime limits field value ∧
      validateField runtime limits members field =
        (⟨field.name, .present, some (shortenValue limits value), none⟩,
          wasTruncated (shortenValue limits value) (.data value))) ∨
    (¬ FieldConforms runtime limits field value ∧ ∃ kept reason,
      validateField runtime limits members field =
        (⟨field.name, .invalid, kept, reason⟩, false)) := by
  unfold validateField
  rw [defined_of_own h]
  dsimp only
  rcases checkFieldValue_data field value with
    ⟨hconforms, hcheck⟩ | ⟨hconforms, reason, kept, hcheck⟩
  · exact .inl ⟨hconforms, by rw [hcheck]⟩
  · exact .inr ⟨hconforms, kept, some reason, by rw [hcheck]⟩

variable (runtime limits) in
/-- A field without one is missing if it is read from the output, and invalid otherwise. -/
theorem validateField_none {field : ParsedSchemaField} (h : ownValue members field.name = none) :
    ∃ kept reason, validateField runtime limits members field =
      (⟨field.name, if ReadsOwn members field then .missing else .invalid, kept, reason⟩,
        false) := by
  unfold validateField
  rw [defined_of_none h]
  by_cases hreads : ReadsOwn members field
  · rw [if_pos hreads, if_pos hreads]
    exact ⟨_, _, rfl⟩
  · obtain ⟨reason, kept, hcheck⟩ := checkFieldValue_inherited field
    rw [if_neg hreads, if_neg hreads]
    dsimp only
    rw [hcheck]
    exact ⟨kept, some reason, rfl⟩

/-- The result for a field is right exactly if the field is read from the output. -/
theorem judged_iff (members : List (Text × Data)) (field : ParsedSchemaField) :
    Judged runtime limits members field (validateField runtime limits members field).1 ↔
      ReadsOwn members field := by
  cases hvalue : ownValue members field.name with
  | none =>
    obtain ⟨kept, reason, hfield⟩ := validateField_none runtime limits hvalue
    rw [hfield]
    constructor
    · intro hjudged
      have hmissing := hjudged.missing.2 hvalue
      by_contra hreads
      rw [if_neg hreads] at hmissing
      cases hmissing
    · intro hreads
      rw [if_pos hreads]
      exact ⟨rfl, ⟨fun _ => hvalue, fun _ => rfl⟩,
        ⟨nofun, fun ⟨_, hsome, _⟩ => absurd (hvalue.symm.trans hsome) nofun⟩, nofun⟩
  | some value =>
    have hreads : ReadsOwn members field := by
      intro _
      cases hown : ownProperty members field.name with
      | none =>
        rw [ownValue, hown] at hvalue
        cases hvalue
      | some own => rfl
    refine ⟨fun _ => hreads, fun _ => ?_⟩
    have hsame : ∀ other, ownValue members field.name = some other → other = value :=
      fun other hother => Option.some.inj (hother.symm.trans hvalue)
    rcases validateField_own runtime limits hvalue with
      ⟨hconforms, hfield⟩ | ⟨hconforms, _, _, hfield⟩
    · rw [hfield]
      exact ⟨rfl, ⟨nofun, fun hnone => absurd (hvalue.symm.trans hnone) nofun⟩,
        ⟨fun _ => ⟨value, hvalue, hconforms⟩, fun _ => rfl⟩, fun _ => ⟨value, hvalue, rfl⟩⟩
    · rw [hfield]
      refine ⟨rfl, ⟨nofun, fun hnone => absurd (hvalue.symm.trans hnone) nofun⟩,
        ⟨nofun, fun ⟨other, hother, hother'⟩ => ?_⟩, nofun⟩
      exact absurd (hsame other hother ▸ hother') hconforms

/-- The flag changes exactly for a value that is present and shortened. -/
theorem truncated_iff (members : List (Text × Data)) (field : ParsedSchemaField) :
    (validateField runtime limits members field).2 = true ↔
      ∃ value, ownValue members field.name = some value ∧ FieldConforms runtime limits field value ∧
        HasLong limits value := by
  cases hvalue : ownValue members field.name with
  | none =>
    obtain ⟨kept, reason, hfield⟩ := validateField_none runtime limits hvalue
    rw [hfield]
    exact ⟨nofun, fun ⟨_, hsome, _⟩ => absurd hsome nofun⟩
  | some value =>
    rcases validateField_own runtime limits hvalue with
      ⟨hconforms, hfield⟩ | ⟨hconforms, _, _, hfield⟩
    · rw [hfield, wasTruncated_iff]
      constructor
      · exact fun hlong => ⟨value, rfl, hconforms, hlong⟩
      · rintro ⟨other, hother, -, hlong⟩
        exact Option.some.inj hother ▸ hlong
    · rw [hfield]
      refine ⟨nofun, ?_⟩
      rintro ⟨_, hother, hother', -⟩
      exact absurd (Option.some.inj hother ▸ hother') hconforms

/-! ## The whole output -/

/-- The results that are returned are faithful exactly if every field is read from the output. -/
theorem faithful_iff {limitOverrides : LimitOverrides}
    (hlimits : resolveSchemaExtractionLimits limitOverrides = .ok limits)
    {schema : ParsedExtractionSchema} {validation : ProviderOutputValidation}
    (h : validateProviderOutput runtime (.obj members) schema limitOverrides = .ok validation) :
    Faithful runtime limits members schema validation ↔
      ∀ field ∈ schema.fields, ReadsOwn members field := by
  unfold validateProviderOutput at h
  rw [hlimits] at h
  obtain ⟨-, h⟩ := check_bind_eq_ok.1 (show (throwIf _ _ >>= _) = _ from h)
  obtain ⟨-, h⟩ := check_bind_eq_ok.1 h
  obtain rfl := Except.ok.inj h
  have hjudged : List.Forall₂ (Judged runtime limits members) schema.fields
      ((schema.fields.map (validateField runtime limits members)).map Prod.fst) ↔
        ∀ field ∈ schema.fields, ReadsOwn members field := by
    rw [List.map_map, List.forall₂_map_right_iff, List.forall₂_same]
    exact forall₂_congr fun field _ => judged_iff members field
  refine ⟨fun hfaithful => hjudged.1 hfaithful.fields, fun hreads => ⟨hjudged.2 hreads, ?_⟩⟩
  rw [List.any_map, List.any_eq_true]
  exact exists_congr fun field => and_congr_right fun _ => truncated_iff members field

/-- For an accepted schema every error is that of an exceeded limit, and the results that are
returned are faithful exactly if every field that has no own value in the output is read from it. -/
theorem validation_faithful_iff (runtime : Runtime) {rawSchema : Data}
    {limitOverrides : LimitOverrides} {schema : ParsedExtractionSchema}
    (h : parseBoundedSchema rawSchema limitOverrides = .ok schema)
    (members : List (Text × Data)) :
    ∃ limits, resolveSchemaExtractionLimits limitOverrides = .ok limits ∧
      (∀ error, validateProviderOutput runtime (.obj members) schema limitOverrides =
        .error error → error.code = .outputLimit) ∧
      ∀ validation, validateProviderOutput runtime (.obj members) schema limitOverrides =
        .ok validation →
        (Faithful runtime limits members schema validation ↔
          ∀ field ∈ schema.fields, ReadsOwn members field) := by
  obtain ⟨⟨limits, hlimits⟩, -⟩ := parseBoundedSchema_ok h
  refine ⟨limits, hlimits, fun error herror => ?_, fun _ => faithful_iff hlimits⟩
  unfold validateProviderOutput at herror
  rw [hlimits] at herror
  rcases throwIf_bind_eq_error.1 (show (throwIf _ _ >>= _) = _ from herror) with
    ⟨-, rfl⟩ | ⟨-, herror⟩
  · rfl
  · rcases throwIf_bind_eq_error.1 herror with ⟨-, rfl⟩ | ⟨-, herror⟩
    · rfl
    · cases herror

/-! ## A field that every object inherits -/

/-- A runtime without URLs and dates. -/
def sampleRuntime : Runtime := ⟨fun _ => none, fun _ => none⟩

/-- A schema with one string. -/
def sampleSchema (name : String) : Data :=
  .obj [(ascii "type", .str (ascii "object")), (ascii "properties",
    .obj [(ascii name, .obj [(ascii "type", .str (ascii "string"))])])]

/-- A schema is accepted if its fields can be computed. -/
theorem accepted_of_fields (rawSchema : Data) (fields : List ParsedSchemaField)
    (h : (parseBoundedSchema rawSchema .none).toOption.map (·.fields) = some fields) :
    ∃ schema, parseBoundedSchema rawSchema .none = .ok schema ∧ schema.fields = fields := by
  cases hparse : parseBoundedSchema rawSchema .none with
  | error error =>
    rw [hparse] at h
    cases h
  | ok schema =>
    rw [hparse] at h
    exact ⟨schema, rfl, Option.some.inj h⟩

/-- A title that is returned is judged as it is. -/
theorem validation_sample : ∃ schema limits,
    parseBoundedSchema (sampleSchema "title") .none = .ok schema ∧
      ∀ validation, validateProviderOutput sampleRuntime
          (.obj [(ascii "title", .str (ascii "x"))]) schema .none = .ok validation →
        Faithful sampleRuntime limits [(ascii "title", .str (ascii "x"))] schema validation := by
  obtain ⟨schema, hschema, hfields⟩ := accepted_of_fields (sampleSchema "title")
    [⟨ascii "title", .scalar .string, false, none⟩] (by decide +kernel)
  obtain ⟨limits, -, -, hiff⟩ := validation_faithful_iff sampleRuntime hschema
    [(ascii "title", .str (ascii "x"))]
  refine ⟨schema, limits, hschema, fun validation hvalidation => (hiff validation hvalidation).2 ?_⟩
  rw [hfields]
  decide +kernel

/-- A field with the name of the constructor is invalid in an empty output, and not missing. -/
theorem inherited_field_invalid : ∃ schema limits validation,
    parseBoundedSchema (sampleSchema "constructor") .none = .ok schema ∧
      resolveSchemaExtractionLimits .none = .ok limits ∧
      validateProviderOutput sampleRuntime (.obj []) schema .none = .ok validation ∧
      ¬ Faithful sampleRuntime limits [] schema validation := by
  obtain ⟨schema, hschema, hfields⟩ := accepted_of_fields (sampleSchema "constructor")
    [⟨ascii "constructor", .scalar .string, false, none⟩] (by decide +kernel)
  obtain ⟨⟨limits, hlimits⟩, -⟩ := parseBoundedSchema_ok hschema
  have hreturned : (parseBoundedSchema (sampleSchema "constructor") .none).toOption.bind
      (fun schema => (validateProviderOutput sampleRuntime (.obj []) schema .none).toOption.map
        fun validation => validation.fields.map (·.status)) = some [.invalid] := by
    decide +kernel
  rw [hschema] at hreturned
  obtain ⟨validation, hvalidation, -⟩ := Option.map_eq_some_iff.1 hreturned
  cases hresult : validateProviderOutput sampleRuntime (.obj []) schema .none with
  | error error =>
      rw [hresult] at hvalidation
      cases hvalidation
  | ok result =>
      refine ⟨schema, limits, result, hschema, hlimits, hresult, fun hfaithful => ?_⟩
      have hreads := (faithful_iff hlimits hresult).1 hfaithful
      rw [hfields] at hreads
      exact absurd hreads (by decide +kernel)

end Groundlane.Extraction
