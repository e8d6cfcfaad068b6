/-!
# A cache of limited size

The cache keeps its entries in the order in which they were last used, the least recent first.
Using an entry moves it to the end, and an insertion beyond the capacity drops entries from the
front.  A cache of capacity zero never holds anything.
-/

set_option autoImplicit false

namespace Stencil

/-- Values by key, the least recently used first. -/
structure Cache (κ ν : Type) where
  /-- The keys with their values. -/
  entries : List (κ × ν)

namespace Cache

variable {κ ν : Type}

/-- A cache that holds nothing. -/
def empty : Cache κ ν := ⟨[]⟩

/-- The keys, the least recently used first. -/
def keys (c : Cache κ ν) : List κ :=
  c.entries.map (·.1)

/-- The value of a key. -/
def get? [DecidableEq κ] (c : Cache κ ν) (key : κ) : Option ν :=
  (c.entries.find? fun (k, _) => k = key).map (·.2)

/-- The cache without a key. -/
def erase [DecidableEq κ] (c : Cache κ ν) (key : κ) : Cache κ ν :=
  ⟨c.entries.filter fun (k, _) => k ≠ key⟩

/-- Makes a key with its value the most recently used one. -/
def use [DecidableEq κ] (c : Cache κ ν) (key : κ) (value : ν) : Cache κ ν :=
  ⟨(c.erase key).entries ++ [(key, value)]⟩

/-- The keys that have to leave for the cache to keep within its capacity. -/
def overflow (c : Cache κ ν) (capacity : Nat) : List κ :=
  c.keys.take (c.entries.length - capacity)

/-- The most recently used entries up to the capacity. -/
def trim (c : Cache κ ν) (capacity : Nat) : Cache κ ν :=
  ⟨c.entries.drop (c.entries.length - capacity)⟩

end Cache

end Stencil
