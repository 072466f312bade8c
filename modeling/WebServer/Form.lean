import WebServer.Bytes

/-! # Forms

The fields that a request submits, in the order of its body. -/

namespace WebServer

/-- Where the value of a field stands. -/
inductive FieldValue where
  | decoded (bytes : Bytes)
  /-- The value is the range from `start` up to `stop` of the request. -/
  | slice (start stop : Nat)
deriving DecidableEq, Repr

/-- The bytes of a value, given the request it was read from. -/
def FieldValue.resolve (raw : Bytes) : FieldValue → Bytes
  | .decoded bytes => bytes
  | .slice start stop => Bytes.slice raw start stop

/-- A named field. -/
structure FormField where
  name : String
  /-- The name of an uploaded file. -/
  filename : Option String := none
  contentType : Option String := none
  value : FieldValue
deriving DecidableEq, Repr

/-- The fields of a form. -/
structure Form where
  fields : List FormField := []
deriving DecidableEq, Repr

namespace Form

def get? (f : Form) (name : String) : Option FormField :=
  f.fields.find? (·.name == name)

def getAll (f : Form) (name : String) : List FormField :=
  f.fields.filter (·.name == name)

end Form
end WebServer
