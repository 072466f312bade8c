import WebServer.Text.Utf8
import WebServer.Text.Size

/-! # Reading JSON text

Readers that walk over the bytes of a JSON text once and stop at its first fault. A reader of a typed value
looks at every detail of the value; the readers named `skip…` pass over a value that nobody asked for and
check its grammar only. -/

namespace WebServer.Json

/-- Why a JSON text cannot be read. -/
inductive Fault where
  /-- The text breaks the grammar. -/
  | grammar
  | ending
  /-- The text is well-formed so far but is not of the wanted shape. -/
  | shape
deriving DecidableEq, Repr

/-- A reader takes a value off the start of a text and leaves the rest. -/
abbrev Reader (α : Type) := Bytes → Except Fault (α × Bytes)

/-- Drop the blanks that JSON allows between tokens. -/
def skipSpace (bs : Bytes) : Bytes :=
  bs.dropWhile fun b => b == 32 || b == 10 || b == 9 || b == 13

def isDigit (b : UInt8) : Bool :=
  48 ≤ b && b ≤ 57

/-- Pass over the remaining letters of a keyword. -/
def keyword : Bytes → Reader Unit
  | [], bs => .ok ((), bs)
  | _ :: _, [] => .error .ending
  | k :: ks, b :: rest => if k == b then keyword ks rest else .error .grammar

/-- The value of a hexadecimal digit of either case. -/
def nibble? (b : UInt8) : Option Nat :=
  if isDigit b then some (b.toNat - 48)
  else if 65 ≤ b && b ≤ 70 then some (b.toNat - 55)
  else if 97 ≤ b && b ≤ 102 then some (b.toNat - 87)
  else none

/-- The 16-bit unit of four hexadecimal digits. -/
def hexUnit : Reader Nat
  | a :: b :: c :: d :: rest =>
    match nibble? a, nibble? b, nibble? c, nibble? d with
    | some a, some b, some c, some d => .ok (((a * 16 + b) * 16 + c) * 16 + d, rest)
    | _, _, _, _ => .error .grammar
  | _ => .error .ending

/-- The second unit of a surrogate pair, which has to be an escape of its own. -/
def lowSurrogate : Reader Nat
  | [] => .error .ending
  | b :: rest =>
    if b != 92 then .error .grammar
    else match rest with
      | [] => .error .ending
      | u :: rest =>
        if u != 117 then .error .grammar
        else do
          let (unit, rest) ← hexUnit rest
          if 0xDC00 ≤ unit ∧ unit ≤ 0xDFFF then .ok (unit, rest) else .error .grammar

/-- The character of an escape whose letter is `u`. -/
def unicodeEscape : Reader Char := fun bs => do
  let (unit, rest) ← hexUnit bs
  if 0xDC00 ≤ unit ∧ unit ≤ 0xDFFF then .error .grammar
  else if 0xD800 ≤ unit ∧ unit ≤ 0xDBFF then do
    let (low, rest) ← lowSurrogate rest
    .ok (Char.ofNat (0x10000 + (unit - 0xD800) * 1024 + (low - 0xDC00)), rest)
  else .ok (Char.ofNat unit, rest)

/-- The character that a letter after a backslash stands for. -/
def simpleEscape? (b : UInt8) : Option Char :=
  if b == 34 then some '"'
  else if b == 92 then some '\\'
  else if b == 47 then some '/'
  else if b == 98 then some '\x08'
  else if b == 102 then some '\x0c'
  else if b == 110 then some '\n'
  else if b == 114 then some '\r'
  else if b == 116 then some '\t'
  else none

/-- The character of an escape, after its backslash. -/
def escape : Reader Char
  | [] => .error .ending
  | b :: rest =>
    if b == 117 then unicodeEscape rest
    else match simpleEscape? b with
      | some c => .ok (c, rest)
      | none => .error .grammar

/-- Read the rest of a string behind the bytes already found in reverse, in at most `fuel` steps. -/
def stringLoop : (fuel : Nat) → Bytes → Reader Bytes
  | 0, _, _ => .error .ending
  | _ + 1, _, [] => .error .ending
  | fuel + 1, found, b :: rest =>
    if b == 34 then .ok (found.reverse, rest)
    else if b == 92 then do
      let (c, rest) ← escape rest
      stringLoop fuel ((Text.encode [c]).reverse ++ found) rest
    else if b < 32 then .error .grammar
    else stringLoop fuel (b :: found) rest

/-- The text of a string, after its opening quote. -/
def string : Reader Bytes := fun bs =>
  stringLoop (bs.length + 1) [] bs

/-- Pass over the rest of a string in at most `fuel` steps; surrogates need not be paired. -/
def skipStringLoop : (fuel : Nat) → Reader Unit
  | 0, _ => .error .ending
  | _ + 1, [] => .error .ending
  | fuel + 1, b :: rest =>
    if b == 34 then .ok ((), rest)
    else if b == 92 then
      match rest with
      | [] => .error .ending
      | e :: rest =>
        if e == 117 then do
          let (_, rest) ← hexUnit rest
          skipStringLoop fuel rest
        else if (simpleEscape? e).isSome then skipStringLoop fuel rest
        else .error .grammar
    else if b < 32 then .error .grammar
    else skipStringLoop fuel rest

/-- Pass over a string, after its opening quote. -/
def skipString : Reader Unit := fun bs =>
  skipStringLoop (bs.length + 1) bs

/-- A number as a typed value sees it. -/
inductive Number where
  /-- A plain number that is a size. -/
  | size (n : Nat)
  /-- A number that is negative, has a fraction or an exponent, or is too large for a size. -/
  | other
deriving DecidableEq, Repr

/-- Digits gathered while the number stays a size, and how many were left out after that. -/
def gather (n : Nat × Nat) (digits : Bytes) : Nat × Nat :=
  digits.foldl
    (fun (value, left) d =>
      let next := value * 10 + (d.toNat - 48)
      if left == 0 && next < sizeLimit then (next, 0) else (value, left + 1))
    n

/-- The nearest number with at most 53 binary digits before its zeros; a tie goes to the even neighbour. -/
def nearestDouble (n : Nat) : Nat :=
  let shift := n.log2 + 1 - 53
  let unit := Nat.pow 2 shift
  let quotient := n / unit
  let rest := n % unit
  let up := unit < 2 * rest || (2 * rest == unit && quotient % 2 == 1)
  (if up then quotient + 1 else quotient) * unit

/-- Whether a number lies beyond the largest double-precision number when its digits and its power of ten
are rounded to double precision before they are multiplied. -/
def beyondDouble (digits : Nat) (exponent : Int) : Bool :=
  digits != 0 && (exponent > 308 || (exponent ≥ 0 &&
    nearestDouble digits * nearestDouble (Nat.pow 10 exponent.toNat) ≥ Nat.pow 2 1024 - Nat.pow 2 970))

/-- The end of a number that is no plain size. -/
def finishReal (digits : Nat) (exponent : Int) : Reader Number := fun bs =>
  if beyondDouble digits exponent then .error .grammar else .ok (.other, bs)

/-- The exponent of a number, after its letter. -/
def exponentPart (digits : Nat) (exponent : Int) : Reader Number := fun bs =>
  let (negative, bs) :=
    match bs with
    | b :: rest => if b == 43 then (false, rest) else if b == 45 then (true, rest) else (false, bs)
    | [] => (false, bs)
  match bs with
  | [] => .error .ending
  | b :: _ =>
    if isDigit b then
      let (ds, rest) := bs.span isDigit
      let e : Int := ds.foldl (fun n d => n * 10 + (d.toNat - 48)) 0
      finishReal digits (if negative then exponent - e else exponent + e) rest
    else .error .grammar

/-- What may follow the fraction of a number. -/
def afterFraction (digits : Nat) (exponent : Int) : Reader Number
  | [] => finishReal digits exponent []
  | b :: rest =>
    if b == 101 || b == 69 then exponentPart digits exponent rest
    else finishReal digits exponent (b :: rest)

/-- The fraction of a number, after its point. -/
def fractionPart (digits : Nat) (exponent : Int) : Reader Number := fun bs =>
  match bs.span isDigit with
  | ([], []) => .error .ending
  | ([], _ :: _) => .error .grammar
  | (ds, rest) =>
    let (value, left) := gather (digits, 0) ds
    afterFraction value (exponent - (ds.length - left : Nat)) rest

/-- What may follow the whole part of a number, of which `left` digits were left out. -/
def afterWhole (negative : Bool) (digits left : Nat) : Reader Number
  | [] =>
    if left == 0 then .ok (if negative then .other else .size digits, [])
    else finishReal digits left []
  | b :: rest =>
    if b == 46 then fractionPart digits left rest
    else if b == 101 || b == 69 then exponentPart digits left rest
    else if left == 0 then .ok (if negative then .other else .size digits, b :: rest)
    else finishReal digits left (b :: rest)

/-- A number, after its sign. -/
def unsignedNumber (negative : Bool) : Reader Number
  | [] => .error .ending
  | b :: rest =>
    if b == 48 then
      match rest with
      | d :: _ => if isDigit d then .error .grammar else afterWhole negative 0 0 rest
      | [] => afterWhole negative 0 0 rest
    else if isDigit b then
      let (ds, rest) := (b :: rest).span isDigit
      let (value, left) := gather (0, 0) ds
      afterWhole negative value left rest
    else .error .grammar

/-- Pass over the exponent of a number, after its letter. -/
def skipExponent : Reader Unit := fun bs =>
  let bs :=
    match bs with
    | b :: rest => if b == 43 || b == 45 then rest else bs
    | [] => bs
  match bs.span isDigit with
  | ([], _) => .error .grammar
  | (_, rest) => .ok ((), rest)

/-- Pass over what may follow the whole part of a number. -/
def skipAfterWhole : Reader Unit
  | [] => .ok ((), [])
  | b :: rest =>
    if b == 46 then
      match rest.span isDigit with
      | ([], _) => .error .grammar
      | (_, e :: more) => if e == 101 || e == 69 then skipExponent more else .ok ((), e :: more)
      | (_, []) => .ok ((), [])
    else if b == 101 || b == 69 then skipExponent rest
    else .ok ((), b :: rest)

/-- Pass over a number, after its sign. -/
def skipNumber : Reader Unit
  | [] => .error .grammar
  | b :: rest =>
    if b == 48 then
      match rest with
      | d :: _ => if isDigit d then .error .grammar else skipAfterWhole rest
      | [] => skipAfterWhole rest
    else if isDigit b then skipAfterWhole (rest.dropWhile isDigit)
    else .error .grammar

/-- The fault of a value that is not of the wanted kind: a fault of its own spelling comes first. -/
def unwanted : Bytes → Fault
  | [] => .grammar
  | b :: rest =>
    let outcome : Except Fault Unit :=
      if b == 110 then (keyword [117, 108, 108] rest).map fun _ => ()
      else if b == 116 then (keyword [114, 117, 101] rest).map fun _ => ()
      else if b == 102 then (keyword [97, 108, 115, 101] rest).map fun _ => ()
      else if b == 45 then (unsignedNumber true rest).map fun _ => ()
      else if isDigit b then (unsignedNumber false (b :: rest)).map fun _ => ()
      else if b == 34 then (string rest).map fun _ => ()
      else if b == 91 || b == 123 then .ok ()
      else .error .grammar
    match outcome with
    | .ok _ => .shape
    | .error fault => fault

/-- A number from zero up to a limit. -/
def number (limit : Nat) : Reader Nat := fun bs =>
  let bs := skipSpace bs
  match bs with
  | [] => .error .ending
  | b :: rest => do
    if b == 45 || isDigit b then
      let (n, rest) ← if b == 45 then unsignedNumber true rest else unsignedNumber false bs
      match n with
      | .size n => if n < limit then .ok (n, rest) else .error .shape
      | .other => .error .shape
    else .error (unwanted bs)

/-- A pair of brackets that is still open. -/
inductive Bracket where
  | list
  | object
deriving DecidableEq, Repr

/-- Where a reader that passes over a value stands. -/
inductive Place where
  | value
  | name
  | after
deriving DecidableEq, Repr

/-- Pass over the name of a member and its colon. -/
def skipName : Reader Unit := fun bs =>
  match skipSpace bs with
  | [] => .error .ending
  | b :: rest =>
    if b != 34 then .error .grammar
    else do
      let (_, rest) ← skipString rest
      match skipSpace rest with
      | [] => .error .ending
      | c :: rest => if c == 58 then .ok ((), rest) else .error .grammar

/-- Pass over a value that is no list and no object. -/
def skipScalar (b : UInt8) (rest : Bytes) : Except Fault (Unit × Bytes) :=
  if b == 110 then keyword [117, 108, 108] rest
  else if b == 116 then keyword [114, 117, 101] rest
  else if b == 102 then keyword [97, 108, 115, 101] rest
  else if b == 45 then skipNumber rest
  else if isDigit b then skipNumber (b :: rest)
  else if b == 34 then skipString rest
  else .error .grammar

/-- Pass over the rest of a value inside the open brackets, in at most `fuel` steps. -/
def skipLoop : (fuel : Nat) → List Bracket → Place → Reader Unit
  | 0, _, _, _ => .error .ending
  | fuel + 1, opened, .value, bs =>
    match skipSpace bs with
    | [] => .error .ending
    | b :: rest =>
      if b == 91 then
        match skipSpace rest with
        | [] => .error .ending
        | c :: more =>
          if c == 93 then skipLoop fuel opened .after more
          else skipLoop fuel (.list :: opened) .value rest
      else if b == 123 then
        match skipSpace rest with
        | [] => .error .ending
        | c :: more =>
          if c == 125 then skipLoop fuel opened .after more
          else skipLoop fuel (.object :: opened) .name rest
      else do
        let (_, rest) ← skipScalar b rest
        skipLoop fuel opened .after rest
  | fuel + 1, opened, .name, bs => do
    let (_, rest) ← skipName bs
    skipLoop fuel opened .value rest
  | _ + 1, [], .after, bs => .ok ((), bs)
  | fuel + 1, bracket :: opened, .after, bs =>
    match skipSpace bs with
    | [] => .error .ending
    | b :: rest =>
      if b == 44 then
        skipLoop fuel (bracket :: opened) (if bracket == .list then .value else .name) rest
      else if b == (if bracket == .list then 93 else 125) then skipLoop fuel opened .after rest
      else .error .grammar

/-- Pass over a value of any kind. -/
def skipValue : Reader Unit := fun bs =>
  skipLoop (bs.length + 2) [] .value bs

/-- The colon between a name and its value. -/
def colon : Reader Unit := fun bs =>
  match skipSpace bs with
  | [] => .error .ending
  | b :: rest => if b == 58 then .ok ((), rest) else .error .grammar

/-- The name of one of the given variants, as a string or as an object with one member that is null. -/
def variant (names : List String) : Reader String := fun bs =>
  let known (name : Bytes) : Except Fault String :=
    match names.find? fun n => Text.utf8 n == name with
    | some n => .ok n
    | none => .error .shape
  match skipSpace bs with
  | [] => .error .ending
  | b :: rest =>
    if b == 34 then do
      let (name, rest) ← string rest
      let name ← known name
      .ok (name, rest)
    else if b == 123 then
      match skipSpace rest with
      | [] => .error .ending
      | q :: after =>
        if q != 34 then .error (unwanted (q :: after))
        else do
          let (name, rest) ← string after
          let name ← known name
          let (_, rest) ← colon rest
          match skipSpace rest with
          | [] => .error .ending
          | v :: more =>
            if v != 110 then .error (unwanted (v :: more))
            else do
              let (_, rest) ← keyword [117, 108, 108] more
              match skipSpace rest with
              | [] => .error .ending
              | e :: rest => if e == 125 then .ok (name, rest) else .error .grammar
    else .error .grammar

/-- The value of a whole text, which nothing but blanks may follow. -/
def document {α : Type} (reader : Reader α) (text : Bytes) : Except Fault α := do
  let (value, rest) ← reader text
  if (skipSpace rest).isEmpty then .ok value else .error .grammar

end WebServer.Json
