namespace AppTopology.Text

def cutChars (separator : Char) : List Char → List (List Char)
  | [] => [[]]
  | c :: rest =>
    if c = separator then [] :: cutChars separator rest
    else match cutChars separator rest with
      | [] => [[c]]
      | part :: parts => (c :: part) :: parts

def cut (separator : Char) (s : String) : List String :=
  (cutChars separator s.toList).map String.ofList

end AppTopology.Text
