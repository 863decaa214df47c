import DataTree.Mapping.Context

namespace DataTree

class Mappable (α : Type) where
  read {S : Type} [Backend S] : S → Except Error α
  store {S : Type} [Backend S] : α → EStateM Error S Unit

/-- Mapped field by field, in a context of the caller's choice. -/
class ContextMappable (C α : Type) where
  read {S : Type} [Backend S] : Contextual S C → Except Error α
  store {S : Type} [Backend S] : α → EStateM Error (Contextual S C) Unit

namespace Mappable

variable {S α : Type} [Backend S] [Mappable α]

def reader : Reader S α := .record read

def writer : Writer S α := .record store

def ontoTree (x : α) (tree : S) : Except Error S := Writer.destination (store x) tree

end Mappable

namespace ContextMappable

variable {S C α : Type} [Backend S] [ContextMappable C α]

def reader : ContextReader S C α := .record read

def writer : ContextWriter S C α := .record store

abbrev under (context : C) : Mappable α where
  read source := read ⟨source, context⟩
  store x := Contextual.within context (store x)

end ContextMappable

end DataTree
