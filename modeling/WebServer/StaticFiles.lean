import WebServer.Engine.Output
import WebServer.Http.Response

/-! # Static files -/

namespace WebServer

/-- A file that the server holds. -/
structure StaticFile where
  name : String
  contentType : String
  body : Bytes
deriving DecidableEq, Repr

/-- The files of a server, one for each name. -/
structure StaticFiles where
  files : List StaticFile := []
deriving DecidableEq, Repr

namespace StaticFiles

/-- Add a file of a given content type, in the place of an earlier one of its name. -/
def addTyped (f : StaticFiles) (name contentType : String) (body : Bytes) : StaticFiles :=
  ⟨⟨name, contentType, body⟩ :: f.files.filter (·.name != name)⟩

/-- The part of a name after its last dot; a name without a dot counts as a page. -/
def extension (name : String) : String :=
  match name.toList.reverse.span (· != '.') with
  | (_, []) => "html"
  | (extension, _ :: _) => String.ofList extension.reverse

/-- Add a file whose name tells its content type. -/
def add (f : StaticFiles) (name : String) (body : Bytes) : StaticFiles :=
  f.addTyped name (Http.Response.contentType (extension name)) body

/-- The file of a path; the root is the index page. -/
def get? (f : StaticFiles) (path : String) : Option StaticFile :=
  let name := path.toList.dropWhile (· == '/')
  let name := if name.isEmpty then "index.html" else String.ofList name
  f.files.find? (·.name == name)

end StaticFiles

/-- Send the file that a request asks for, and tell whether there is one. -/
def Engine.serve {τ κ σ : Type} [DecidableEq κ] [Transport τ κ] (e : Engine τ κ σ)
    (files : StaticFiles) (h : Handle) (r : Http.Request) : Except ServerError Bool × Engine τ κ σ :=
  match files.get? r.path with
  | none => (.ok false, e)
  | some file =>
    let head := Http.Response.headText "200 OK" file.contentType file.body.length
    match e.send h (Text.utf8 head) with
    | (.error err, e) => (.error err, e)
    | (.ok _, e) =>
      if file.body.isEmpty then (.ok true, e)
      else
        match e.send h file.body with
        | (.error err, e) => (.error err, e)
        | (.ok _, e) => (.ok true, e)

end WebServer
