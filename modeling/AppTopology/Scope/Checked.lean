import AppTopology.Error

namespace AppTopology.Scope

def checkName (name : String) : Except TopologyError Unit :=
  if isName name then .ok () else .error (.badName name)

def check (scope : String) : Except TopologyError Unit :=
  if isScope scope then .ok () else .error (.badScope scope)

def checkRequest (scope : String) : Except TopologyError Unit :=
  if isScope scope then .ok () else .error (.malformedScope scope)

def append (a b : String) : Except TopologyError String := do
  check a
  check b
  return if b = "" then a else child a b

def splitLast (s : String) : Except TopologyError (String × String) := do
  check s
  return (parent s, leaf s)

def locate? (path : String) : Option (List String × String) :=
  if isScope path then some (names (parent path), leaf path) else none

end AppTopology.Scope
