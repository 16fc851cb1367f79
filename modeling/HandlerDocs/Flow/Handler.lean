import HandlerDocs.Flow.Run

namespace HandlerDocs.Flow

open Code

def defaultDepth : Nat := 32

/-- Follows a call into a function for a reader. Functions that are active are not entered again,
and no more than `limit` functions are entered one inside the other. -/
def follow (project : Project) (reader : String) :
    (limit : Nat) → (active : List FuncRef) → FuncRef → Scope → Trace Fact
  | 0, _, _, _ => []
  | limit + 1, active, f, scope =>
    if f ∈ active then []
    else
      let site := { Site.ofUnit project f.unit with reader := reader }
      let body := ((project.function? f).map (·.body)).getD []
      .inside f (evalBlock site (follow project reader limit (f :: active)) scope body)

def handlerTrace (project : Project) (limit : Nat) (f : FuncRef) : Trace Fact :=
  follow project (project.packageOf f.unit) (limit + 1) [] f (Site.entryScope project f)

def handlerFacts (project : Project) (limit : Nat) (f : FuncRef) : List Fact :=
  (handlerTrace project limit f).items

end HandlerDocs.Flow
