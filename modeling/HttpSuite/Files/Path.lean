/-!
# Path names

A path is a text whose parts are separated by slashes.  Empty parts and parts of one dot name
nothing of their own.
-/

namespace HttpSuite.Path

/-- The texts before, between and after the places of a character, with what was read of the first
one in reverse. -/
def piecesFrom (separator : Char) (read : List Char) : List Char → List String
  | [] => [String.ofList read.reverse]
  | c :: rest =>
    if c = separator then String.ofList read.reverse :: piecesFrom separator [] rest
    else piecesFrom separator (c :: read) rest

/-- The texts before, between and after the places of a character. -/
def pieces (separator : Char) (text : String) : List String := piecesFrom separator [] text.toList

/-- The parts of a path in order, those that name nothing left out. -/
def parts (path : String) : List String :=
  (pieces '/' path).filter fun part => part != "" && part != "."

def isAbsolute (path : String) : Bool := path.startsWith "/"

/-- A path seen from a directory; an absolute path stands for itself. -/
def join (directory path : String) : String :=
  if isAbsolute path ∨ directory = "" then path
  else if directory.endsWith "/" then directory ++ path
  else directory ++ "/" ++ path

/-- What follows the last dot of the last part.  A dot that begins the part does not count. -/
def extension? (path : String) : Option String :=
  match (parts path).getLast? with
  | none => none
  | some ".." => none
  | some name =>
    match (pieces '.' name).reverse with
    | last :: before => if before.all (· == "") && before.length ≤ 1 then none else some last
    | [] => none

/-- The directory of a path of at least two parts. -/
def parent (path : String) : String :=
  "/".intercalate (pieces '/' path).dropLast

end HttpSuite.Path
