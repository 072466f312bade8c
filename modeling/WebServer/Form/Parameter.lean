import WebServer.Text.Split

/-! # Header parameters

Lists such as `name=value; name="quoted \"value\""`. Separators inside quotes are literal, and a backslash
inside quotes keeps the character after it. -/

namespace WebServer.Form

/-- The rest of a quoted value behind the characters already found in reverse, and what follows it. -/
def quotedLoop : List Char → List Char → List Char × List Char
  | [], found => (found.reverse, [])
  | '\\' :: c :: rest, found => quotedLoop rest (c :: found)
  | ['\\'], found => (found.reverse, [])
  | '"' :: rest, found => (found.reverse, rest)
  | c :: rest, found => quotedLoop rest (c :: found)

/-- The value of a parameter, after its equals sign, and what follows it. -/
def parameterValue (cs : List Char) : List Char × List Char :=
  match Text.trimStart cs with
  | '"' :: rest => quotedLoop rest []
  | cs =>
    let (value, rest) := cs.span (· != ';')
    (Text.trimEnd value, rest)

/-- The first parameter of a non-empty text, and what follows it. -/
def nextParameter (cs : List Char) : (List Char × List Char) × List Char :=
  let (key, rest) := cs.span fun c => c != '=' && c != ';'
  match rest with
  | '=' :: rest =>
    let (value, rest) := parameterValue rest
    ((Text.trim key, value), rest)
  | rest => ((Text.trim key, []), rest)

/-- The next parameters, at most `fuel` of them. -/
def parameterLoop : (fuel : Nat) → List Char → List (String × String)
  | 0, _ => []
  | fuel + 1, cs =>
    match cs.dropWhile fun c => c == ';' || Text.isBlank c with
    | [] => []
    | c :: rest =>
      let ((key, value), rest) := nextParameter (c :: rest)
      (String.ofList key, String.ofList value) :: parameterLoop fuel rest

/-- The names and values of a parameter list. -/
def parameters (cs : List Char) : List (String × String) :=
  parameterLoop cs.length cs

/-- The media type of a content type, without its parameters. -/
def mediaType (contentType : String) : String :=
  String.ofList (Text.trim (contentType.toList.takeWhile (· != ';')))

/-- The boundary that a content type of multipart form data gives. -/
def boundary? (contentType : String) : Option String :=
  if !Text.sameName (mediaType contentType) "multipart/form-data" then none
  else do
    let (_, params) ← Text.cut? (· == ';') contentType.toList
    let (_, value) ← (parameters params).find? fun (name, _) => Text.sameName name "boundary"
    if value.isEmpty then none else some value

end WebServer.Form
