import AppTopology.Text.Cut

namespace AppTopology.Location

def dropIdle : List String → List String
  | [] => []
  | [first] => if first = "" then [] else [first]
  | name :: rest => if name = "" ∨ name = "." then dropIdle rest else name :: rest

def isAbsolute (path : String) : Bool := path.toList.head? = some '/'

def directory? (path : String) : Option String :=
  match dropIdle (Text.cut '/' path).reverse with
  | [] => none
  | _ :: rest =>
    match dropIdle rest with
    | [] => some (if isAbsolute path then "/" else "")
    | names => some ("/".intercalate names.reverse)

def beside (path file : String) : String :=
  match directory? path with
  | none => file
  | some directory =>
    if isAbsolute file then file
    else if directory = "" ∨ directory = "/" then directory ++ file
    else directory ++ "/" ++ file

end AppTopology.Location
