import RateLimiter.Console.Rpc

/-!
# The Struct codec

`struct.ts`: the encoder, and that the decoder takes back what it built once
the transport has named the field that is set in every `Value`. The decoder is
next to the views of the audit that use it.
-/

namespace RateLimiter.Console

open JavaScript

/-- What `jsToValue` builds: one field of a `Value` is set, and nothing names it yet. -/
inductive EncodedValue where
  | nullValue
  | numberValue (value : Number)
  | stringValue (value : String)
  | boolValue (value : Bool)
  | structValue (fields : List (String × EncodedValue))
  | listValue (values : List EncodedValue)

mutual

def jsToValue : Value → EncodedValue
  | .undefined => .nullValue
  | .null => .nullValue
  | .number value => .numberValue value
  | .boolean value => .boolValue value
  | .string value => .stringValue value
  | .array items => .listValue (itemsToValues items)
  | .object fields => .structValue (objectOf (fieldsToValues fields))

def fieldsToValues : Fields → List (String × EncodedValue)
  | [] => []
  | (name, value) :: rest => (name, jsToValue value) :: fieldsToValues rest

def itemsToValues : List Value → List EncodedValue
  | [] => []
  | value :: rest => jsToValue value :: itemsToValues rest

end

def objectToStruct (fields : Fields) : List (String × EncodedValue) :=
  objectOf (fieldsToValues fields)

mutual

/-- A `Value` as the transport decodes it: `kind` names the field that is set. -/
def wireValue : EncodedValue → StructValue
  | .nullValue => .nullValue
  | .numberValue value => .numberValue value
  | .stringValue value => .stringValue value
  | .boolValue value => .boolValue value
  | .structValue fields => .structValue (wireFields fields)
  | .listValue values => .listValue (wireValues values)

def wireFields : List (String × EncodedValue) → List (String × StructValue)
  | [] => []
  | (name, value) :: rest => (name, wireValue value) :: wireFields rest

def wireValues : List EncodedValue → List StructValue
  | [] => []
  | value :: rest => wireValue value :: wireValues rest

end

/-- The values of `JSON.parse`, except those with a key `__proto__` somewhere. -/
inductive IsJson : Value → Prop where
  | null : IsJson .null
  | boolean (value : Bool) : IsJson (.boolean value)
  | number {value : Number} (finite : value.isFinite = true) : IsJson (.number value)
  | string (value : String) : IsJson (.string value)
  | array {items : List Value} (each : ∀ item ∈ items, IsJson item) : IsJson (.array items)
  | object {fields : Fields} (ordinary : ∀ field ∈ fields, field.1 ≠ "__proto__")
      (distinct : (fields.map Prod.fst).Nodup) (each : ∀ field ∈ fields, IsJson field.2) :
      IsJson (.object fields)

structure JsonObject where
  fields : Fields
  isJson : IsJson (.object fields)

section Members

theorem itemsToValues_eq_map (items : List Value) :
    itemsToValues items = items.map jsToValue := by
  induction items with
  | nil => rfl
  | cons item rest ih => rw [itemsToValues, ih, List.map_cons]

theorem wireValues_eq_map (values : List EncodedValue) :
    wireValues values = values.map wireValue := by
  induction values with
  | nil => rfl
  | cons value rest ih => rw [wireValues, ih, List.map_cons]

theorem valuesToJs_eq_map (values : List StructValue) :
    valuesToJs values = values.map valueToJs := by
  induction values with
  | nil => rfl
  | cons value rest ih => rw [valuesToJs, ih, List.map_cons]

theorem fieldsToValues_eq_map (fields : Fields) :
    fieldsToValues fields = fields.map (Prod.map id jsToValue) := by
  induction fields with
  | nil => rfl
  | cons field rest ih => rw [fieldsToValues, ih, List.map_cons, Prod.map, id]

theorem wireFields_eq_map (fields : List (String × EncodedValue)) :
    wireFields fields = fields.map (Prod.map id wireValue) := by
  induction fields with
  | nil => rfl
  | cons field rest ih => rw [wireFields, ih, List.map_cons, Prod.map, id]

theorem fieldsToJs_eq_map (fields : List (String × StructValue)) :
    fieldsToJs fields = fields.map (Prod.map id valueToJs) := by
  induction fields with
  | nil => rfl
  | cons field rest ih => rw [fieldsToJs, ih, List.map_cons, Prod.map, id]

end Members

/-- An encoder that keeps the names keeps the object. -/
theorem objectOf_map {Item Image : Type} (encode : Item → Image) {fields : List (String × Item)}
    (ordinary : ∀ field ∈ fields, field.1 ≠ "__proto__")
    (distinct : (fields.map Prod.fst).Nodup) :
    objectOf (fields.map (Prod.map id encode)) = fields.map (Prod.map id encode) := by
  apply objectOf_eq_self
  · intro field mem
    rcases List.mem_map.mp mem with ⟨source, sourceMem, rfl⟩
    exact ordinary source sourceMem
  · have names : (fields.map (Prod.map id encode)).map Prod.fst = fields.map Prod.fst := by
      rw [List.map_map]
      rfl
    rw [names]
    exact distinct

/-- Fields whose values are taken back are taken back. -/
theorem objectOf_fieldsToJs {fields : Fields}
    (ordinary : ∀ field ∈ fields, field.1 ≠ "__proto__")
    (distinct : (fields.map Prod.fst).Nodup)
    (each : ∀ field ∈ fields, valueToJs (wireValue (jsToValue field.2)) = field.2) :
    objectOf (fieldsToJs (wireFields (objectOf (fieldsToValues fields)))) = fields := by
  have taken : fields.map (Prod.map id ((valueToJs ∘ wireValue) ∘ jsToValue)) = fields := by
    apply (List.map_congr_left fun field mem => ?_).trans (List.map_id fields)
    exact Prod.ext rfl (each field mem)
  rw [fieldsToValues_eq_map, objectOf_map jsToValue ordinary distinct, wireFields_eq_map,
    fieldsToJs_eq_map, List.map_map, List.map_map, Prod.map_comp_map, Prod.map_comp_map,
    Function.comp_id, Function.comp_id, taken]
  exact objectOf_eq_self ordinary distinct

/-- Every JSON value is taken back, at any depth. -/
theorem valueToJs_wireValue {value : Value} (isJson : IsJson value) :
    valueToJs (wireValue (jsToValue value)) = value := by
  induction isJson with
  | null => rfl
  | boolean value => rfl
  | number finite => rfl
  | string value => rfl
  | @array items each ih =>
      rw [jsToValue, wireValue, valueToJs, itemsToValues_eq_map, wireValues_eq_map,
        valuesToJs_eq_map, List.map_map, List.map_map]
      congr 1
      exact (List.map_congr_left ih).trans (List.map_id items)
  | @object fields ordinary distinct each ih =>
      rw [jsToValue, wireValue, valueToJs, objectOf_fieldsToJs ordinary distinct ih]

/-- Decoding the wire form of an encoded object gives the object. -/
theorem struct_roundTrip (object : JsonObject) :
    structToObject (some (wireFields (objectToStruct object.fields))) = .object object.fields :=
  valueToJs_wireValue object.isJson

/-- An object with every kind of value: empty and nested containers and all that is falsy. -/
def nestedObject : JsonObject where
  fields := [("limit_value", .number (.finite 0)), ("rows", .array [.null, .array [],
      .object [("created", .boolean false), ("note", .string ""), ("next", .object [])]]),
    ("time_unit", .string "MINUTE")]
  isJson := by
    refine .object (by decide) (by decide) ?_
    simp only [List.forall_mem_cons, List.not_mem_nil, false_implies, implies_true, and_true]
    refine ⟨.number rfl, .array ?_, .string _⟩
    simp only [List.forall_mem_cons, List.not_mem_nil, false_implies, implies_true, and_true]
    refine ⟨.null, .array (by simp), .object (by decide) (by decide) ?_⟩
    simp only [List.forall_mem_cons, List.not_mem_nil, false_implies, implies_true, and_true]
    exact ⟨.boolean _, .string _, .object (by decide) (by decide) (by simp)⟩

theorem struct_roundTrip_nested :
    structToObject (some (wireFields (objectToStruct nestedObject.fields))) =
      .object nestedObject.fields :=
  struct_roundTrip nestedObject

end RateLimiter.Console
