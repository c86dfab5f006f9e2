import Stencil.Dict
import Stencil.Loader
import Stencil.Markup
import Stencil.Path
/-!
# Disks

A working directory with files in it. Nothing is known of what lies around it. `Disk.loader` reads
templates from there.
-/

namespace Stencil

structure File where
  path : List String
  content : ByteArray

/-- The files, the newest first. -/
abbrev Disk := List File

namespace Disk

/-- The names on a path, without steps on the spot. -/
def nameChars (path : List Char) : List (List Char) :=
  (PathStyle.parts '/' path).filter fun name => name ≠ [] ∧ name ≠ ['.']

def names (path : String) : List String := (nameChars path.toList).map String.ofList

def write (d : Disk) (path : String) (content : ByteArray) : Disk :=
  ⟨names path, content⟩ :: d.filter fun f => f.path ≠ names path

def file? (d : Disk) (path : List String) : Option File := d.find? (·.path == path)

/-- Whether there is a directory. The working directory always is. -/
def isDirectory (d : Disk) (path : List String) : Bool :=
  path.isEmpty || d.any fun f => path.isPrefixOf f.path && f.path ≠ path

inductive Place where
  | inside (path : List String)
  | above (steps : Nat)

def enter (d : Disk) : Place → String → Except FileTrouble Place
  | .above n, ".." => .ok (.above (n + 1))
  | .above _, _ => .error .missing
  | .inside [], ".." => .ok (.above 1)
  | .inside path, name =>
    if (d.file? path).isSome then .error .notDirectory
    else if name = ".." then .ok (.inside path.dropLast)
    else
      let path := path ++ [name]
      if (d.file? path).isSome || d.isDirectory path then .ok (.inside path) else .error .missing

def content (d : Disk) (place : Place) (endsInSlash : Bool) : Except FileTrouble ByteArray :=
  match place with
  | .above _ => .error .directory
  | .inside path =>
    match d.file? path with
    | some f => if endsInSlash then .error .notDirectory else .ok f.content
    | none => .error .directory

def read (d : Disk) (path : String) : Except FileTrouble String := do
  if path.toList.contains '\x00' then throw .badName
  if path.isEmpty then throw .missing
  let names := names path
  if Path.isAbsolute path.toList then throw (if names.isEmpty then .directory else .missing)
  let place ← names.foldlM d.enter (.inside [])
  let bytes ← d.content place (path.toList.getLast? == some '/')
  match String.fromUTF8? bytes with
  | some text => return text
  | none => throw .badText

/-- A path below a root. An absolute path leaves the root aside. -/
def join (root path : String) : String :=
  if Path.isAbsolute path.toList || root.isEmpty then path
  else if root.toList.getLast? == some '/' then root ++ path
  else root ++ "/" ++ path

/-- Reads templates from below a root. The path of a file may begin with steps up, but with no more
than lead down to the root. -/
def loader (d : Disk) (root : String) : Loader where
  answer path :=
    match d.read (join root path) with
    | .ok text => .ok text
    | .error why => .error (.ofFault (.file (join root path) why))
  reach := ((names root).length + 1) * d.length

end Disk

end Stencil
