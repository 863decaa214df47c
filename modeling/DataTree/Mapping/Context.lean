import DataTree.Mapping.Reader
import DataTree.Mapping.Writer

namespace DataTree

/-- A tree, and the context in which its values are read and written. -/
structure Contextual (S C : Type) where
  tree : S
  context : C

namespace Contextual

variable {S C : Type}

def onTree (stores : EStateM Error S Unit) : EStateM Error (Contextual S C) Unit := fun mapper =>
  match stores mapper.tree with
  | .ok () tree => .ok () { mapper with tree }
  | .error e tree => .error e { mapper with tree }

def within (context : C) (stores : EStateM Error (Contextual S C) Unit) : EStateM Error S Unit :=
  fun tree =>
    match stores ⟨tree, context⟩ with
    | .ok () mapper => .ok () mapper.tree
    | .error e mapper => .error e mapper.tree

end Contextual

structure ContextReader (S C α : Type) where
  absent : S → Bool
  read : C → S → Except Error α

namespace ContextReader

variable {S C α κ : Type} [Backend S] [KeySpace κ]

/-- A type that reads its own fields, in the context of the mapper. -/
def record (fields : Contextual S C → Except Error α) : ContextReader S C α :=
  ⟨Backend.isNull, fun context node => fields ⟨node, context⟩⟩

def readItems (item : ContextReader S C α) (context : C) (node : S) : Except Error (List α) :=
  match Backend.items node with
  | none => .error (.root (.expectedArray (Backend.kind node)))
  | some items =>
    eachItem (fun x =>
      if item.absent x then .error (.root .valueNotFound) else item.read context x) 0 items

def list (item : ContextReader S C α) : ContextReader S C (List α) :=
  ⟨Reader.listAbsent, item.readItems⟩

def option (content : ContextReader S C α) : ContextReader S C (Option α) where
  absent _ := false
  read context node :=
    if content.absent node then .ok none else (content.read context node).map some

def require (r : ContextReader S C α) (keys : List κ) (context : C) (source : S) :
    Except Error α := do
  let node ← Mapper.required r.absent keys source
  (r.read context node).mapError (Error.within (KeySpace.path keys))

def optional (r : ContextReader S C α) (keys : List κ) (context : C) (source : S) :
    Except Error (Option α) := do
  match ← Mapper.optional r.absent keys source with
  | none => return none
  | some node => ((r.read context node).mapError (Error.within (KeySpace.path keys))).map some

def requireIn (r : ContextReader S C α) (keys : List κ) (mapper : Contextual S C) :
    Except Error α :=
  r.require keys mapper.context mapper.tree

def optionalIn (r : ContextReader S C α) (keys : List κ) (mapper : Contextual S C) :
    Except Error (Option α) :=
  r.optional keys mapper.context mapper.tree

omit [Backend S] in
def under (context : C) (r : ContextReader S C α) : Reader S α := ⟨r.absent, r.read context⟩

end ContextReader

structure ContextWriter (S C α : Type) where
  write : C → α → Except Error S

namespace ContextWriter

variable {S C α κ : Type} [Backend S] [KeySpace κ]

/-- A type that stores its own fields, in the context of the mapper. -/
def record (fields : α → EStateM Error (Contextual S C) Unit) : ContextWriter S C α :=
  ⟨fun context x => Writer.destination (Contextual.within context (fields x)) Backend.object⟩

def list (item : ContextWriter S C α) : ContextWriter S C (List α) :=
  ⟨fun context xs => (eachItem (item.write context) 0 xs).map Backend.array⟩

def option (content : ContextWriter S C α) : ContextWriter S C (Option α) :=
  ⟨fun context x => match x with
    | some x => content.write context x
    | none => .ok Backend.null⟩

def store (w : ContextWriter S C α) (keys : List κ) (context : C) (x : α) : EStateM Error S Unit :=
  Mapper.write keys (w.write context x)

def storeIn (w : ContextWriter S C α) (keys : List κ) (x : α) :
    EStateM Error (Contextual S C) Unit := fun mapper =>
  Contextual.onTree (w.store keys mapper.context x) mapper

omit [Backend S] in
def under (context : C) (w : ContextWriter S C α) : Writer S α := ⟨w.write context⟩

end ContextWriter

end DataTree
