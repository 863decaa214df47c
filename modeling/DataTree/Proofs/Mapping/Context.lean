import DataTree.Mapping.Record
import DataTree.Proofs.Outcome

namespace DataTree

/-- The codes of the types that are built over one element type. -/
inductive Nesting
  | element
  | list (item : Nesting)
  | option (content : Nesting)

namespace Nesting

abbrev Carrier (α : Type) : Nesting → Type
  | element => α
  | list item => List (item.Carrier α)
  | option content => Option (content.Carrier α)

section Families

variable {S C : Type} (α : Type) [Backend S]

def reader [Mappable α] : (t : Nesting) → Reader S (t.Carrier α)
  | element => Mappable.reader
  | list item => item.reader.list
  | option content => content.reader.option

def writer [Mappable α] : (t : Nesting) → Writer S (t.Carrier α)
  | element => Mappable.writer
  | list item => item.writer.list
  | option content => content.writer.option

def contextReader [ContextMappable C α] : (t : Nesting) → ContextReader S C (t.Carrier α)
  | element => ContextMappable.reader
  | list item => item.contextReader.list
  | option content => content.contextReader.option

def contextWriter [ContextMappable C α] : (t : Nesting) → ContextWriter S C (t.Carrier α)
  | element => ContextMappable.writer
  | list item => item.contextWriter.list
  | option content => content.contextWriter.option

end Families

end Nesting

section Fixing

variable {S C α κ : Type} [Backend S] [KeySpace κ] {context : C}

omit [Backend S] in
theorem Contextual.within_onTree (stores : EStateM Error S Unit) :
    within context (onTree stores) = stores := by
  funext tree
  rw [within, onTree]
  cases stores tree <;> rfl

namespace ContextReader

variable {r : ContextReader S C α} {keys : List κ} {source : S}

theorem under_list : r.list.under context = (r.under context).list := rfl

omit [Backend S] in
theorem under_option : r.option.under context = (r.under context).option := rfl

theorem require_eq_under :
    r.require keys context source = (r.under context).require keys source := rfl

theorem optional_eq_under :
    r.optional keys context source = (r.under context).optional keys source := rfl

end ContextReader

namespace ContextWriter

variable {w : ContextWriter S C α} {keys : List κ} {x : α}

theorem under_list : w.list.under context = (w.under context).list := rfl

theorem under_option : w.option.under context = (w.under context).option := rfl

theorem store_eq_under : w.store keys context x = (w.under context).store keys x := rfl

theorem within_storeIn :
    Contextual.within context (w.storeIn keys x) = (w.under context).store keys x := by
  funext destination
  exact congrFun (Contextual.within_onTree (w.store keys context x)) destination

theorem within_storeIn_bind (rest : EStateM Error (Contextual S C) Unit) :
    Contextual.within context (do w.storeIn keys x; rest) = (do
      (w.under context).store keys x
      Contextual.within context rest) := by
  funext destination
  cases hstore : (w.under context).store keys x destination with
  | ok _ tree =>
      have hin : w.storeIn keys x ⟨destination, context⟩ = .ok () ⟨tree, context⟩ := by
        simp only [storeIn, Contextual.onTree, store_eq_under, hstore]
      simp only [Contextual.within, run_bind, hin, hstore]
  | error e tree =>
      have hin : w.storeIn keys x ⟨destination, context⟩ = .error e ⟨tree, context⟩ := by
        simp only [storeIn, Contextual.onTree, store_eq_under, hstore]
      simp only [Contextual.within, run_bind, hin, hstore]

end ContextWriter

namespace Nesting

variable [ContextMappable C α]

theorem under_contextReader (t : Nesting) (context : C) :
    letI : Mappable α := ContextMappable.under context
    (t.contextReader α).under context = (t.reader α : Reader S _) := by
  induction t with
  | element => rfl
  | list item ih => exact ContextReader.under_list.trans (congrArg Reader.list ih)
  | option content ih => exact ContextReader.under_option.trans (congrArg Reader.option ih)

theorem under_contextWriter (t : Nesting) (context : C) :
    letI : Mappable α := ContextMappable.under context
    (t.contextWriter α).under context = (t.writer α : Writer S _) := by
  induction t with
  | element => rfl
  | list item ih => exact ContextWriter.under_list.trans (congrArg Writer.list ih)
  | option content ih => exact ContextWriter.under_option.trans (congrArg Writer.option ih)

/-- What is built over a type that is mapped in a context is read and written as what is built over
the type with that context given, be the context handed over or the mapper's own. -/
theorem mapped_in_context (t : Nesting) (context : C) (keys : List κ) :
    letI : Mappable α := ContextMappable.under context
    (∀ source : S,
      (t.contextReader α).require keys context source = (t.reader α).require keys source ∧
        (t.contextReader α).optional keys context source = (t.reader α).optional keys source ∧
        (t.contextReader α).requireIn keys ⟨source, context⟩ = (t.reader α).require keys source ∧
        (t.contextReader α).optionalIn keys ⟨source, context⟩ =
          (t.reader α).optional keys source) ∧
      ∀ (x : t.Carrier α) (destination : S),
        (t.contextWriter α).store keys context x destination =
            (t.writer α).store keys x destination ∧
          Contextual.within context ((t.contextWriter α).storeIn keys x) destination =
            (t.writer α).store keys x destination := by
  refine ⟨fun source => ?_, fun x destination => ?_⟩
  · have hreader := under_contextReader (S := S) (α := α) t context
    have hrequire := ContextReader.require_eq_under.trans
      (congrArg (fun r => r.require keys source) hreader)
    have hoptional := ContextReader.optional_eq_under.trans
      (congrArg (fun r => r.optional keys source) hreader)
    exact ⟨hrequire, hoptional, hrequire, hoptional⟩
  · have hwriter := under_contextWriter (S := S) (α := α) t context
    have hstore := congrArg (fun w => w.store keys x destination) hwriter
    exact ⟨(congrFun ContextWriter.store_eq_under destination).trans hstore,
      (congrFun ContextWriter.within_storeIn destination).trans hstore⟩

end Nesting

end Fixing

end DataTree
