import DataTree.KeySpace
import DataTree.Navigation
import DataTree.RawEnum

namespace DataTree

namespace Mapper

variable {S κ : Type} [Backend S] [KeySpace κ]

def optional (absent : S → Bool) (keys : List κ) (source : S) : Except Error (Option S) := do
  return (← Backend.get source (KeySpace.path keys)).filter fun node => !absent node

def required (absent : S → Bool) (keys : List κ) (source : S) : Except Error S := do
  match ← optional absent keys source with
  | some node => return node
  | none => .error ⟨.valueNotFound, KeySpace.path keys⟩

end Mapper

structure Reader (S α : Type) where
  absent : S → Bool
  read : S → Except Error α

namespace Reader

variable {S α κ : Type} [Backend S] [KeySpace κ]

def prim (p : Primitive) : Reader S p.Carrier where
  absent := Backend.isNull
  read node := (readLeaf p node).mapError Error.root

def value : Reader S Value := ⟨Backend.isNull, toValue⟩

def raw [RawEnum α] : Reader S α where
  absent := Backend.isNull
  read node := (RawEnum.read node).mapError Error.root

def record (fields : S → Except Error α) : Reader S α := ⟨Backend.isNull, fields⟩

/-- A null that has items is an empty list, and not absent. -/
def listAbsent (node : S) : Bool := Backend.isNull node && (Backend.items node).isNone

/-- Reads the items in order; an item that is absent for its reader is an error. -/
def readItems (item : Reader S α) (node : S) : Except Error (List α) :=
  match Backend.items node with
  | none => .error (.root (.expectedArray (Backend.kind node)))
  | some items =>
    eachItem (fun x => if item.absent x then .error (.root .valueNotFound) else item.read x) 0 items

def list (item : Reader S α) : Reader S (List α) := ⟨listAbsent, item.readItems⟩

/-- Nothing is absent for an option: what is absent for its content reads as none. -/
def option (content : Reader S α) : Reader S (Option α) where
  absent _ := false
  read node := if content.absent node then .ok none else (content.read node).map some

section Parts

variable (item content : Reader S α) (node : S)

@[simp] theorem prim_absent (p : Primitive) :
    (prim p : Reader S p.Carrier).absent node = Backend.isNull node := rfl

@[simp] theorem prim_read (p : Primitive) :
    (prim p).read node = (readLeaf p node).mapError Error.root := rfl

@[simp] theorem raw_absent [RawEnum α] :
    (raw : Reader S α).absent node = Backend.isNull node := rfl

@[simp] theorem raw_read [RawEnum α] :
    (raw : Reader S α).read node = (RawEnum.read node).mapError Error.root := rfl

@[simp] theorem record_absent (fields : S → Except Error α) :
    (record fields).absent node = Backend.isNull node := rfl

@[simp] theorem list_absent : item.list.absent node = listAbsent node := rfl

@[simp] theorem list_read : item.list.read node = item.readItems node := rfl

omit [Backend S] in
@[simp] theorem option_absent : content.option.absent node = false := rfl

omit [Backend S] in
@[simp] theorem option_read : content.option.read node =
    if content.absent node then .ok none else (content.read node).map some := rfl

theorem listAbsent_of_items {node : S} {items : List S} (h : Backend.items node = some items) :
    listAbsent node = false := by
  simp [listAbsent, h]

end Parts

def require (r : Reader S α) (keys : List κ) (source : S) : Except Error α := do
  let node ← Mapper.required r.absent keys source
  (r.read node).mapError (Error.within (KeySpace.path keys))

def optional (r : Reader S α) (keys : List κ) (source : S) : Except Error (Option α) := do
  match ← Mapper.optional r.absent keys source with
  | none => return none
  | some node => ((r.read node).mapError (Error.within (KeySpace.path keys))).map some

end Reader

end DataTree
