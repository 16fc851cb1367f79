import HandlerDocs.Project

namespace HandlerDocs

inductive Event (α : Type) where
  | found (item : α)
  | entered (f : FuncRef)
  | left (f : FuncRef)
deriving DecidableEq

abbrev Trace (α : Type) := List (Event α)

namespace Trace

variable {α : Type}

def item? : Event α → Option α
  | .found item => some item
  | _ => none

def items (trace : Trace α) : List α :=
  trace.filterMap item?

def ofItems (items : List α) : Trace α :=
  items.map .found

def inside (f : FuncRef) (body : Trace α) : Trace α :=
  .entered f :: body ++ [.left f]

end Trace

end HandlerDocs
