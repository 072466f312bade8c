import WebServer.Config
import WebServer.Json.Reader

/-! # Reading a configuration

A configuration is a JSON object, whose missing members keep their defaults and whose unknown members are
passed over, or a JSON list of the settings in order, which may be cut short. -/

namespace WebServer

/-- Why a configuration cannot be used. -/
inductive ConfigError where
  /-- The file cannot be read. -/
  | unreadable (reason : String)
  /-- The text is no configuration. -/
  | unparsable (fault : Json.Fault)
  /-- The settings cannot be used. -/
  | invalid (problems : List ConfigProblem)
deriving DecidableEq, Repr

namespace Config

/-- The members of an object, after its opening brace or after a member of it, in at most `fuel` steps. -/
def readMembers : (fuel : Nat) → (seen : List String) → Config → Json.Reader Config
  | 0, _, _, _ => .error .ending
  | fuel + 1, seen, c, bs => do
    let (name, rest) ← Json.string bs
    match fields.find? fun f => Text.utf8 f.name == name with
    | some f =>
      if seen.contains f.name then .error .shape
      else do
        let (_, rest) ← Json.colon rest
        let (n, rest) ← Json.number f.limit rest
        next fuel (f.name :: seen) (f.set n c) rest
    | none => do
      let (_, rest) ← Json.colon rest
      let (_, rest) ← Json.skipValue rest
      next fuel seen c rest
where
  /-- What may follow a member. -/
  next (fuel : Nat) (seen : List String) (c : Config) (bs : Bytes) :
      Except Json.Fault (Config × Bytes) :=
    match Json.skipSpace bs with
    | [] => .error .ending
    | b :: rest =>
      if b == 125 then .ok (c, rest)
      else if b == 44 then
        match Json.skipSpace rest with
        | [] => .error .ending
        | q :: rest => if q == 34 then readMembers fuel seen c rest else .error .grammar
      else .error .grammar

/-- An object of settings, after its opening brace. -/
def readObject : Json.Reader Config := fun bs =>
  match Json.skipSpace bs with
  | [] => .error .ending
  | b :: rest =>
    if b == 125 then .ok ({}, rest)
    else if b == 34 then readMembers bs.length [] {} rest
    else .error .grammar

/-- The remaining items of a list of settings; `started` tells whether an item stands before them. -/
def readItems : List Field → (started : Bool) → Config → Json.Reader Config
  | [], _, c, bs =>
    match Json.skipSpace bs with
    | [] => .error .ending
    | b :: rest => if b == 93 then .ok (c, rest) else .error .grammar
  | f :: fs, started, c, bs =>
    match Json.skipSpace bs with
    | [] => .error .ending
    | b :: rest =>
      if b == 93 then .ok (c, rest)
      else if started then
        if b != 44 then .error .grammar
        else match Json.skipSpace rest with
          | [] => .error .ending
          | d :: more =>
            if d == 93 then .error .grammar
            else do
              let (n, rest) ← Json.number f.limit (d :: more)
              readItems fs true (f.set n c) rest
      else do
        let (n, rest) ← Json.number f.limit (b :: rest)
        readItems fs true (f.set n c) rest

/-- The settings at the start of a text. -/
def reader : Json.Reader Config := fun bs =>
  match Json.skipSpace bs with
  | [] => .error .ending
  | b :: rest =>
    if b == 91 then readItems fields false {} rest
    else if b == 123 then readObject rest
    else .error (Json.unwanted (b :: rest))

/-- The settings of a JSON text, whether they can be used or not. -/
def ofJsonUnchecked (text : Bytes) : Except ConfigError Config :=
  match Json.document reader text with
  | .ok c => .ok c
  | .error fault => .error (.unparsable fault)

/-- The usable settings of a JSON text. -/
def ofJson (text : Bytes) : Except ConfigError Config := do
  let c ← ofJsonUnchecked text
  if c.problems.isEmpty then .ok c else .error (.invalid c.problems)

/-- The usable settings of a file with the given content; `none` when there is no such file. -/
def ofFile (content : Option Bytes) : Except ConfigError Config :=
  match content with
  | none => .error (.unreadable "No such file or directory (os error 2)")
  | some bytes =>
    if (Text.decode? bytes).isNone then
      .error (.unreadable "stream did not contain valid UTF-8")
    else ofJson bytes

end Config

def ConfigError.message : ConfigError → String
  | .unreadable reason => "Failed to read configuration: " ++ reason
  | .unparsable .grammar => "Failed to parse configuration: malformed text"
  | .unparsable .ending => "Failed to parse configuration: the text ends too early"
  | .unparsable .shape => "Failed to parse configuration: unexpected value"
  | .invalid problems =>
    "Invalid configuration: " ++ ", ".intercalate (problems.map ConfigProblem.message)

end WebServer
