import Arabize.Text.Basic

/-! # Ordered mappings

A mapping from texts to values is a list of pairs in the order in which the keys were
first written.  Writing a key again replaces its value in place, so a key never occurs
twice in a mapping that was built by `insert`.
-/

namespace Arabize

/-- Pairs of a key and its value, in the order of first writing. -/
abbrev Mapping (β : Type) := List (Text × β)

namespace Mapping

variable {β : Type}

def find? (key : Text) : Mapping β → Option β
  | [] => none
  | (k, v) :: rest => if k = key then some v else find? key rest

def has (m : Mapping β) (key : Text) : Bool := (m.find? key).isSome

/-- Writes a key: in place when it is there, at the end when it is new. -/
def insert (key : Text) (value : β) : Mapping β → Mapping β
  | [] => [(key, value)]
  | (k, v) :: rest => if k = key then (k, value) :: rest else (k, v) :: insert key value rest

/-- Writes every pair of the second mapping into the first, in order. -/
def update (m new : Mapping β) : Mapping β := new.foldl (fun m kv => insert kv.1 kv.2 m) m

/-- The mapping that a list of pairs writes into the empty one. -/
def ofPairs (pairs : List (Text × β)) : Mapping β := update [] pairs

/-- The keys in the order of first writing. -/
def keys (m : Mapping β) : List Text := m.map Prod.fst

/-- The pairs in increasing order of their keys. -/
def sorted (m : Mapping β) : Mapping β := m.mergeSort fun a b => Text.le a.1 b.1

end Mapping

end Arabize
