/-!
# Paths

The names of templates as paths. `Path.normal` gives every template one spelling: the path from the
place that the name is relative to, with single slashes and without steps that lead nowhere.
-/

namespace Stencil.Path

def isSeparator (c : Char) : Bool := c == '/' || c == '\\'

def isAbsolute : List Char → Bool
  | c :: _ => c == '/'
  | [] => false

/-- The path of a name. An absolute name stands for itself, any other goes on from the base. -/
def resolve (base name : List Char) : List Char := if isAbsolute name then name else base ++ name

def parts : List Char → List (List Char)
  | [] => [[]]
  | c :: cs =>
    if isSeparator c then [] :: parts cs
    else match parts cs with
      | [] => [[c]]
      | p :: rest => (c :: p) :: rest

def up : List Char := ['.', '.']

/-- Goes one step on from a place, given by its parts with the last one first. A step up undoes the
last one. At the top of an absolute path it leads nowhere, at the start of a relative one it stays. -/
def step (absolute : Bool) (place : List (List Char)) (part : List Char) : List (List Char) :=
  if part = [] ∨ part = ['.'] then place
  else if part ≠ up then part :: place
  else
    match place with
    | last :: rest => if last ≠ up then rest else if absolute then place else up :: place
    | [] => if absolute then [] else [up]

def joined : List (List Char) → List Char
  | [] => []
  | [p] => p
  | p :: rest => p ++ '/' :: joined rest

def normalChars (path : List Char) : List Char :=
  let place := (parts path).foldl (step (isAbsolute path)) []
  let text := joined place.reverse
  if isAbsolute path then '/' :: text else text

def normal (base name : String) : String :=
  String.ofList (normalChars (resolve base.toList name.toList))

/-- A path up to its last separator, which is the base of the names in it. -/
def directory (path : String) : String :=
  String.ofList (path.toList.reverse.dropWhile (!isSeparator ·)).reverse

end Stencil.Path
