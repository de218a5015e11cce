import NodeWe.Text

/-!
# JSON values

The values that `serde_json` parses, and the helper functions through which the control plane and
the agent read them. The parser itself is a third-party crate, so it is a parameter (`Serde`); its
`Map` keeps one value for each key, and the model reads the first one that its list holds.
-/

namespace NodeWe

open Text

/-- `serde_json::Number`: an unsigned, a negative, or a floating-point number. -/
inductive Number
  | posInt (n : ℕ)
  | negInt (n : ℕ)
  | float (literal : String)
  deriving DecidableEq

/-- `serde_json::Value`. -/
inductive Value
  | null
  | bool (b : Bool)
  | number (n : Number)
  | string (s : String)
  | array (items : List Value)
  | object (members : List (String × Value))

/-- The third-party JSON parser. -/
class Serde where
  /-- `serde_json::from_str::<Value>(text).ok()`. -/
  fromStr : String → Option Value

namespace Value

/-- `Value::get` with a key: `None` on everything but an object. -/
def get (v : Value) (key : String) : Option Value :=
  match v with
  | object members => (members.find? fun m => m.1 == key).map Prod.snd
  | _ => none

/-- `Value::as_str`. -/
def asStr : Value → Option String
  | string s => some s
  | _ => none

/-- `Value::as_u64`. -/
def asU64 : Value → Option ℕ
  | number (.posInt n) => some n
  | _ => none

/-- `Value::as_bool`. -/
def asBool : Value → Option Bool
  | bool b => some b
  | _ => none

/-- `Value::as_array`. -/
def asArray : Value → Option (List Value)
  | array items => some items
  | _ => none

/-- `Value::is_string`. -/
def isString (v : Value) : Bool := v.asStr.isSome

/-- `Value::is_u64`. -/
def isU64 (v : Value) : Bool := v.asU64.isSome

/-- `Value::is_boolean`. -/
def isBoolean (v : Value) : Bool := v.asBool.isSome

end Value

variable [Serde]

/-- `parse_json_object`: the body when it is a JSON object. -/
def parseJsonObject (body : String) : Option Value :=
  match Serde.fromStr body with
  | some (.object members) => some (.object members)
  | _ => none

/-- `json_field`: a member of the body that is a string. -/
def jsonField (body key : String) : Option String :=
  (parseJsonObject body).bind fun object => (object.get key).bind Value.asStr

/-- `json_types_valid`: the body is an object whose listed members, where present, have the
listed types. -/
def jsonTypesValid (body : String) (strings numbers booleans : List String) : Bool :=
  match parseJsonObject body with
  | none => false
  | some object =>
    strings.all (fun key => (object.get key).all Value.isString) &&
      numbers.all (fun key => (object.get key).all Value.isU64) &&
      booleans.all (fun key => (object.get key).all Value.isBoolean)

/-- `json_true`: a member of the body that is the Boolean `true`. -/
def jsonTrue (body key : String) : Bool :=
  ((parseJsonObject body).bind fun object => (object.get key).bind Value.asBool).getD false

/-- `json_number`: a member of the body that is an unsigned integer. -/
def jsonNumber (body key : String) : Option ℕ :=
  (parseJsonObject body).bind fun object => (object.get key).bind Value.asU64

/-- `json_key_present`: the body is an object with the member. -/
def jsonKeyPresent (body key : String) : Bool :=
  ((parseJsonObject body).map fun object => (object.get key).isSome).getD false

/-- `json_string_array`: the strings of a member of the body that is an array. -/
def jsonStringArray (body key : String) : List String :=
  (((parseJsonObject body).bind fun object => (object.get key).bind Value.asArray).getD
    []).filterMap Value.asStr

end NodeWe
