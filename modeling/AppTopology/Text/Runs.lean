namespace AppTopology.Text

def isIn (n : Nat) : List (Nat × Nat) → Bool
  | [] => false
  | (first, last) :: rest => if n ≤ last then first ≤ n else isIn n rest

end AppTopology.Text
