import Std.Data.ExtTreeMap
import StreamControl.Bytes
import StreamControl.Store.Path

/-!
# The coordination store

Clients learn the outcome of their messages from nodes that they find by path.  A node holds data, a
version that counts how often it was written, and the times of the first and the last write.  The
nodes are kept in the order of their paths.
-/

namespace StreamControl

/-- What the store itself records about a node. -/
structure Metadata where
  version : UInt32
  created : Int64
  updated : Int64
deriving DecidableEq, Repr

namespace Metadata

/-- Nothing was written yet. -/
def zero : Metadata := ⟨0, 0, 0⟩

/-- A node is written for the first time. -/
def new (now : Int64) : Metadata := ⟨1, now, now⟩

/-- A node is written once more.  The version stays at its greatest value. -/
def update (m : Metadata) (now : Int64) : Metadata :=
  { m with version := if m.version = 0xFFFFFFFF then m.version else m.version + 1, updated := now }

/-- The version counts a write unless it is at its greatest value. -/
theorem toNat_version_update (m : Metadata) (now : Int64) :
    (m.update now).version.toNat = min (m.version.toNat + 1) 0xFFFFFFFF := by
  have hbound : m.version.toNat < UInt32.size := m.version.toNat_lt_size
  unfold update
  dsimp only
  -- the sum cannot wrap around, as it is not taken at the greatest value
  by_cases hgreatest : m.version = 0xFFFFFFFF
  · rw [if_pos hgreatest, hgreatest]
    rfl
  · have hbelow : m.version.toNat ≠ 0xFFFFFFFF := fun h => hgreatest (UInt32.toNat_inj.1 h)
    rw [if_neg hgreatest, UInt32.toNat_add, UInt32.toNat_one]
    rw [UInt32.size] at hbound
    omega

end Metadata

/-- A node of the store. -/
structure Node where
  data : Bytes
  metadata : Metadata
deriving DecidableEq, Repr

/-- Nodes by path. -/
structure Store where
  nodes : Std.ExtTreeMap String Node

namespace Store

/-- A store without nodes. -/
def empty : Store := ⟨∅⟩

/-- The node at a path. -/
def get? (s : Store) (path : String) : Option Node := s.nodes[path]?

/-- Whether there is a node at a path. -/
def contains (s : Store) (path : String) : Bool := (s.get? path).isSome

/-- The node that a write makes of the one before it. -/
def written (previous : Option Node) (data : Bytes) (now : Int64) : Node :=
  match previous with
  | none => ⟨data, Metadata.new now⟩
  | some node => ⟨data, node.metadata.update now⟩

/-- Writes a node at the time `now`, and gives the node that was there before. -/
def put (s : Store) (path : String) (data : Bytes) (now : Int64) : Option Node × Store :=
  (s.get? path, ⟨s.nodes.insert path (written (s.get? path) data now)⟩)

/-- Removes the node at a path, and gives the node that was there before. -/
def remove (s : Store) (path : String) : Option Node × Store :=
  (s.get? path, ⟨s.nodes.erase path⟩)

/-- Every path with its node, in the order of the paths. -/
def toList (s : Store) : List (String × Node) := s.nodes.toList

/-- How many nodes there are. -/
def size (s : Store) : Nat := s.nodes.size

/-- Whether there are no nodes. -/
def isEmpty (s : Store) : Bool := s.nodes.isEmpty

/-- The paths of the node at `start` and of those on the levels below it, in order.  Slashes at the
end of `start` do not count. -/
def list (s : Store) (start : String) : List String :=
  s.nodes.keys.filter (Path.covers (Path.trimSlashes start))

/-! ## The nodes after each operation -/

/-- Two stores with the same nodes are the same. -/
theorem ext_get? {s t : Store} (h : ∀ path, s.get? path = t.get? path) : s = t := by
  have nodes : s.nodes = t.nodes := Std.ExtTreeMap.ext_getElem? fun path => h path
  cases s
  cases t
  cases nodes
  rfl

@[simp] theorem get?_empty (path : String) : empty.get? path = none :=
  Std.ExtTreeMap.getElem?_empty

@[simp] theorem put_fst (s : Store) (path : String) (data : Bytes) (now : Int64) :
    (s.put path data now).1 = s.get? path := rfl

/-- A write changes the node at its path and no other. -/
theorem get?_put (s : Store) (path other : String) (data : Bytes) (now : Int64) :
    (s.put path data now).2.get? other =
      if path = other then some (written (s.get? path) data now) else s.get? other := by
  simp [put, get?, Std.ExtTreeMap.getElem?_insert]

@[simp] theorem remove_fst (s : Store) (path : String) : (s.remove path).1 = s.get? path := rfl

/-- A removal takes the node at its path and no other. -/
theorem get?_remove (s : Store) (path other : String) :
    (s.remove path).2.get? other = if path = other then none else s.get? other := by
  simp [remove, get?, Std.ExtTreeMap.getElem?_erase]

theorem contains_iff (s : Store) (path : String) :
    s.contains path = true ↔ ∃ node, s.get? path = some node := Option.isSome_iff_exists

/-- A listing holds the paths with a node on the levels asked for. -/
theorem mem_list (s : Store) (start path : String) :
    path ∈ s.list start ↔
      s.contains path = true ∧ Path.covers (Path.trimSlashes start) path = true := by
  simp only [list, List.mem_filter, Std.ExtTreeMap.mem_keys, contains, get?,
    ← Std.ExtTreeMap.isSome_getElem?_iff_mem]

/-- A listing is in the order of the paths and names none twice. -/
theorem list_sorted (s : Store) (start : String) :
    (s.list start).Pairwise fun p q => compare p q = .lt :=
  Std.ExtTreeMap.ordered_keys.filter _

end Store

end StreamControl
