import Mathlib.Data.List.Basic

/-!
# Records in JSON

Codecs for records as a serializer derives them: a field is looked up by its name, and it depends on
how an optional field is declared what its absence means.
-/

namespace CoreCrypto.Library

inductive Json where
  | null
  | num (value : Int)
  | str (value : String)
  | arr (elements : List Json)
  | obj (fields : List (String × Json))

abbrev Json.Fields := List (String × Json)

def Json.fields : Json → Except String Json.Fields
  | .obj fields => .ok fields
  | _ => .error "invalid type, expected struct"

structure JsonCodec (α : Type) where
  encode : α → Json
  decode : Json → Except String α

namespace JsonCodec

variable {α β : Type}

/-- What was encoded is decoded again, and is told from `null`. -/
structure Lawful (codec : JsonCodec α) : Prop where
  decode_encode : ∀ a, codec.decode (codec.encode a) = .ok a
  encode_ne_null : ∀ a, codec.encode a ≠ .null

/-! ### Fields -/

/-- A field that is not optional. -/
def required (codec : JsonCodec α) (name : String) (fields : Json.Fields) : Except String α :=
  match fields.lookup name with
  | none => .error ("missing field " ++ name)
  | some value => codec.decode value

/-- An optional value, where `null` is none. -/
def nullable (codec : JsonCodec α) : Json → Except String (Option α)
  | .null => .ok none
  | value => (codec.decode value).map some

/-- An optional field that may be absent. -/
def optional (codec : JsonCodec α) (name : String) (fields : Json.Fields) :
    Except String (Option α) :=
  match fields.lookup name with
  | none => .ok none
  | some value => codec.nullable value

/-- An optional field with a deserializer of its own, which has to be present. -/
def optionalWith (codec : JsonCodec α) (name : String) (fields : Json.Fields) :
    Except String (Option α) :=
  match fields.lookup name with
  | none => .error ("missing field " ++ name)
  | some value => codec.nullable value

/-- A field that is left out if there is no value. -/
def skipNone (codec : JsonCodec α) (name : String) (value : Option α) : Json.Fields :=
  (value.map fun a => (name, codec.encode a)).toList

theorem nullable_null (codec : JsonCodec α) : codec.nullable .null = .ok none := rfl

theorem lookup_skipNone (codec : JsonCodec α) (name other : String) (value : Option α) :
    (codec.skipNone name value).lookup other =
      if other = name then value.map codec.encode else none := by
  cases value with
  | none => simp [skipNone]
  | some a =>
    by_cases same : other = name
    · simp [skipNone, same]
    · simp [skipNone, List.lookup_cons, same, beq_false_of_ne same]

namespace Lawful

variable {codec : JsonCodec α} (lawful : codec.Lawful) {name : String} {fields : Json.Fields}

include lawful

theorem nullable_encode (a : α) : codec.nullable (codec.encode a) = .ok (some a) := by
  have decoded := lawful.decode_encode a
  have notNull := lawful.encode_ne_null a
  cases encoded : codec.encode a with
  | null => exact absurd encoded notNull
  | num | str | arr | obj => simp [nullable, ← encoded, decoded, Except.map]

end Lawful

/-! ### Values -/

def string : JsonCodec String where
  encode := .str
  decode
    | .str value => .ok value
    | _ => .error "invalid type, expected a string"

theorem string_lawful : string.Lawful := ⟨fun _ => rfl, by rintro _ ⟨⟩⟩

def nat : JsonCodec Nat where
  encode n := .num n
  decode
    | .num (.ofNat n) => .ok n
    | _ => .error "invalid type, expected an integer"

/-- An enumeration with the names of its values. -/
def enumeration (name : α → String) (values : List α) : JsonCodec α where
  encode a := .str (name a)
  decode
    | .str text =>
      match values.find? (name · = text) with
      | some a => .ok a
      | none => .error "unknown variant"
    | _ => .error "invalid type, expected a variant"

theorem enumeration_lawful {name : α → String} {values : List α}
    (all : ∀ a, values.find? (name · = name a) = some a) : (enumeration name values).Lawful := by
  refine ⟨fun a => ?_, by rintro _ ⟨⟩⟩
  simp [enumeration, all a]

/-- An array of two. -/
def pair (codec : JsonCodec α) : JsonCodec (α × α) where
  encode p := .arr [codec.encode p.1, codec.encode p.2]
  decode
    | .arr [first, second] => do return (← codec.decode first, ← codec.decode second)
    | _ => .error "invalid length, expected an array of length 2"

theorem Lawful.pair {codec : JsonCodec α} (lawful : codec.Lawful) : (pair codec).Lawful := by
  refine ⟨fun p => ?_, by rintro _ ⟨⟩⟩
  simp only [JsonCodec.pair, lawful.decode_encode]
  rfl

end JsonCodec

end CoreCrypto.Library
