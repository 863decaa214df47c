import DataTree.Key

namespace DataTree

class KeySpace (κ : Type) where
  key : κ → Key

instance : KeySpace String := ⟨.name⟩

instance : KeySpace Nat := ⟨.index⟩

instance : KeySpace Key := ⟨id⟩

def KeySpace.path {κ : Type} [KeySpace κ] (keys : List κ) : Path := keys.map key

class ClosedKeySpace (κ : Type) where
  all : List κ
  storedName : κ → String

instance {κ : Type} [ClosedKeySpace κ] : KeySpace κ :=
  ⟨fun k => .name (ClosedKeySpace.storedName k)⟩

end DataTree
