/-!
# Dictionaries

A dictionary is a list of entries in ascending order of their keys. `insert` keeps the order and
replaces the entry of a key that is there already.
-/

namespace Stencil

abbrev Dict (α : Type u) := List (String × α)

namespace Dict

/-- The keys ascend, so no key occurs twice. -/
def Sorted (d : Dict α) : Prop := d.Pairwise fun x y => compare x.1 y.1 = .lt

def keys (d : Dict α) : List String := d.map (·.1)

def find? (d : Dict α) (key : String) : Option α := List.lookup key d

def has (d : Dict α) (key : String) : Bool := (d.find? key).isSome

def insert (d : Dict α) (key : String) (x : α) : Dict α :=
  match d with
  | [] => [(key, x)]
  | (k, y) :: rest =>
    match compare key k with
    | .lt => (key, x) :: (k, y) :: rest
    | .eq => (key, x) :: rest
    | .gt => (k, y) :: insert rest key x

/-- The entries of `e` join `d` where `d` has no entry of that key. -/
def mergeNew (d e : Dict α) : Dict α :=
  e.foldl (fun d (key, x) => if d.has key then d else d.insert key x) d

end Dict

end Stencil
