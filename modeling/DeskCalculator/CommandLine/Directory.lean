import DeskCalculator.CommandLine.Usage

set_option autoImplicit false

namespace DeskCalculator.CommandLine

inductive Item
  | file (bytes : List UInt8)
  | directory
  deriving DecidableEq

/-- The items below the working directory, each under the names that lead to it. -/
structure Directory where
  items : List (List (List Char) × Item) := []

namespace Directory

def nameLimit : Nat := 255

def pathLimit : Nat := 4096

def byteLength (s : List Char) : Nat := s.foldl (fun n c => n + c.utf8Size) 0

def names : List Char → List (List Char)
  | [] => [[]]
  | c :: cs =>
    if c = '/' then [] :: names cs
    else match names cs with
      | [] => [[c]]
      | n :: ns => (c :: n) :: ns

/-- A place on a walk: the names that lead to it, the last of them first, or none for a place outside of
the working directory, where nothing is known to be. -/
abbrev Place := Option (List (List Char))

def find? (d : Directory) : Place → List Char → Option Item
  | none, _ => none
  | some walked, n => (d.items.find? fun i => i.1 = (n :: walked).reverse).map Prod.snd

def above : Place → Place
  | some (_ :: walked) => some walked
  | _ => none

/-- Walks along the names of a path from the item at a place. An empty name and a single dot stay in a
directory, two dots leave it. -/
def walk (d : Directory) : Place → Item → List (List Char) → Except FileFault Item
  | _, item, [] => .ok item
  | _, .file _, _ :: _ => .error .throughFile
  | place, .directory, n :: rest =>
    if n = [] || n = ['.'] then walk d place .directory rest
    else if n = ['.', '.'] then walk d (above place) .directory rest
    else if nameLimit < byteLength n then .error .nameTooLong
    else match d.find? place n with
      | none => .error .missing
      | some item => walk d (place.map (n :: ·)) item rest

def start (path : List Char) : Place := if path.head? = some '/' then none else some []

def read (d : Directory) (path : List Char) : Except FileFault (List UInt8) :=
  if path = [] then .error .missing
  else if pathLimit ≤ byteLength path then .error .nameTooLong
  else match d.walk (start path) .directory (names path) with
    | .error e => .error e
    | .ok .directory => .error .directory
    | .ok (.file bytes) => .ok bytes

end Directory

end DeskCalculator.CommandLine
