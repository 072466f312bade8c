import WebServer.Form
import WebServer.Text.Split
import WebServer.Text.Percent

/-! # URL-encoded forms -/

namespace WebServer.Form

/-- The field of one pair; without an equals sign the value is empty. -/
def ofPair (pair : Bytes) : FormField :=
  let (name, value) := (Text.cut? (· == 61) pair).getD (pair, [])
  { name := String.ofList (Text.decodeLossy (Text.decodeComponent name)),
    value := .decoded (Text.decodeComponent value) }

/-- The fields of pairs with ampersands between them. -/
def ofUrlencoded (body : Bytes) : Form :=
  ⟨((Text.splitWhere (· == 38) body).filter (!·.isEmpty)).map ofPair⟩

end WebServer.Form
