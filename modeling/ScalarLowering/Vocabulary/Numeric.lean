import ScalarLowering.NumType
import ScalarLowering.Vocabulary.Entry

set_option autoImplicit false

/- Spellings of the scalar types and the registry keys of the casts to them. -/

namespace ScalarLowering

namespace NumType

def entry : NumType → Entry
  | .bool => { canonical := "bool", description := "Boolean." }
  | .int .signed .w8 =>
    { canonical := "int8", aliases := ["i8"], description := "8-bit signed integer." }
  | .int .signed .w16 =>
    { canonical := "int16", aliases := ["i16"], description := "16-bit signed integer." }
  | .int .signed .w32 =>
    { canonical := "int32", aliases := ["i32"], description := "32-bit signed integer." }
  | .int .signed .w64 =>
    { canonical := "int64", aliases := ["i64"], description := "64-bit signed integer." }
  | .int .unsigned .w8 =>
    { canonical := "uint8", aliases := ["u8"], description := "8-bit unsigned integer." }
  | .int .unsigned .w16 =>
    { canonical := "uint16", aliases := ["u16"], description := "16-bit unsigned integer." }
  | .int .unsigned .w32 =>
    { canonical := "uint32", aliases := ["u32"], description := "32-bit unsigned integer." }
  | .int .unsigned .w64 =>
    { canonical := "uint64", aliases := ["u64"], description := "64-bit unsigned integer." }
  | .float .single =>
    { canonical := "float32", aliases := ["f32"], description := "IEEE-754 single precision." }
  | .float .double =>
    { canonical := "float64", aliases := ["f64"], description := "IEEE-754 double precision." }
  | .complex .single =>
    { canonical := "complex64", aliases := ["c64"],
      description := "Complex number with float32 components." }
  | .complex .double =>
    { canonical := "complex128", aliases := ["c128"],
      description := "Complex number with float64 components." }

/-- The canonical spelling. -/
def name (t : NumType) : String := t.entry.canonical

/-- Equality of texts up to the case of ASCII letters. -/
def sameUpToCase (s t : String) : Bool :=
  s.toList.map Char.toLower == t.toList.map Char.toLower

/-- The type that a canonical or short spelling names, in any ASCII letter case. -/
def ofName? (spelling : String) : Option NumType :=
  Entry.lookup? sameUpToCase all entry spelling

def castLead : String := "$number."

/-- The registry key of the explicit cast to a type. -/
def castKey (t : NumType) : String := castLead ++ t.name

/-- The target of an explicit cast; only canonical spellings make a key. -/
def ofCastKey? (key : String) : Option NumType := do
  let spelling ← afterLead? castLead key
  all.find? (·.name == spelling)

end NumType

end ScalarLowering
