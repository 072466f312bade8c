import WebServer.Text.Blank

/-! # Cutting text at separators -/

namespace WebServer.Text

variable {α : Type}

/-- The pieces between the items that satisfy `separates`, empty ones included. -/
def splitWhere (separates : α → Bool) (xs : List α) : List (List α) :=
  xs.foldr
    (fun x pieces =>
      if separates x then [] :: pieces
      else match pieces with
        | [] => [[x]]
        | piece :: more => (x :: piece) :: more)
    [[]]

/-- The parts before and after the first item that satisfies `separates`. -/
def cut? (separates : α → Bool) (xs : List α) : Option (List α × List α) :=
  match xs.span (fun x => !separates x) with
  | (_, []) => none
  | (before, _ :: after) => some (before, after)

/-- The words between blanks. -/
def words (cs : List Char) : List (List Char) :=
  (splitWhere isBlank cs).filter (!·.isEmpty)

/-- The lines of a text whose lines are separated by carriage return and line feed. -/
def lines (cs : List Char) : List (List Char) :=
  cs.foldr
    (fun c pieces =>
      match c, pieces with
      | '\r', ('\n' :: line) :: more => [] :: line :: more
      | _, [] => [[c]]
      | _, line :: more => (c :: line) :: more)
    [[]]

/-- Lines put together with carriage return and line feed between them. -/
def joinLines (ls : List (List Char)) : List Char :=
  ['\r', '\n'].intercalate ls

/-- Equality of names up to the case of ASCII letters. -/
def sameName (a b : String) : Bool :=
  a.toList.map Char.toLower == b.toList.map Char.toLower

end WebServer.Text
