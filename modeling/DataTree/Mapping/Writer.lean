import DataTree.KeySpace
import DataTree.Navigation
import DataTree.RawEnum

namespace DataTree

namespace Mapper

variable {S κ : Type} [Backend S] [KeySpace κ]

/-- A write that the destination refuses is told apart from a value that cannot be written. -/
def refused (e : Error) : Error := ⟨.cannotSet e.fault [], e.path⟩

/-- Writes to a path of the destination what was made of a value. -/
def write (keys : List κ) (made : Except Error S) : EStateM Error S Unit := fun destination =>
  let path := KeySpace.path keys
  match made with
  | .error e => .error (e.within path) destination
  | .ok node =>
    match Backend.setAt node true path destination with
    | .ok () destination => .ok () destination
    | .error e destination => .error (refused e) destination

end Mapper

structure Writer (S α : Type) where
  write : α → Except Error S

namespace Writer

variable {S α κ : Type} [Backend S] [KeySpace κ]

def prim (p : Primitive) : Writer S p.Carrier := ⟨fun x => (writeLeaf p x).mapError Error.root⟩

def text : Writer S String := ⟨fun s => .ok (Backend.string s)⟩

def value : Writer S Value := ⟨ofValue⟩

def raw [RawEnum α] : Writer S α := ⟨fun c => (RawEnum.write c).mapError Error.root⟩

def destination (stores : EStateM Error S Unit) (start : S) : Except Error S :=
  match stores start with
  | .ok () node => .ok node
  | .error e _ => .error e

def record (fields : α → EStateM Error S Unit) : Writer S α :=
  ⟨fun x => destination (fields x) Backend.object⟩

def list (item : Writer S α) : Writer S (List α) :=
  ⟨fun xs => (eachItem item.write 0 xs).map Backend.array⟩

def option (content : Writer S α) : Writer S (Option α) :=
  ⟨fun x => match x with
    | some x => content.write x
    | none => .ok Backend.null⟩

def store (w : Writer S α) (keys : List κ) (x : α) : EStateM Error S Unit :=
  Mapper.write keys (w.write x)

def storeOptional (w : Writer S α) (keys : List κ) (x : Option α) : EStateM Error S Unit :=
  match x with
  | some x => w.store keys x
  | none => pure ()

end Writer

end DataTree
