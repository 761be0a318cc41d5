/-!
# Paths

A path is a text whose pieces are divided by slashes. `Path.join` and `Path.parent?`
work on the text alone: a slash at the end and a `.` after a slash do not count as
pieces, and what is left of a path keeps its text.
-/

namespace Ripple.Path

/-- Whether a path begins at the root. -/
def isAbsolute (path : String) : Bool := path.toList.head? == some '/'

/-- A path below another. -/
def join (left right : String) : String :=
  match left.toList.getLast? with
  | none => right
  | some c => if c = '/' then left ++ right else left ++ "/" ++ right

/-- The pieces of some characters between slashes. -/
def pieces : List Char → List (List Char)
  | [] => [[]]
  | c :: rest =>
    if c = '/' then [] :: pieces rest
    else match pieces rest with
      | [] => [[c]]
      | piece :: more => (c :: piece) :: more

/-- Some pieces with slashes between them. -/
def joined : List (List Char) → List Char
  | [] => []
  | [piece] => piece
  | piece :: more => piece ++ '/' :: joined more

/-- Whether a piece names nothing: it is empty or a dot. -/
def isIdle (piece : List Char) : Bool := piece.isEmpty || piece == ['.']

/-- Splits a path into its beginning, a slash or a dot that stands for a directory, and
    the rest. -/
def splitRoot (path : List Char) : List Char × List Char :=
  match path with
  | '/' :: rest => (['/'], rest)
  | ['.'] => (['.'], [])
  | '.' :: '/' :: rest => (['.'], '/' :: rest)
  | rest => ([], rest)

/-- The path of the directory in which a path lies, if the path names anything. -/
def parent? (path : String) : Option String :=
  let (root, rest) := splitRoot path.toList
  match (pieces rest).reverse.dropWhile isIdle with
  | _ :: before => some (String.ofList (root ++ joined (before.dropWhile isIdle).reverse))
  | [] => if root = ['.'] then some "" else none

end Ripple.Path
