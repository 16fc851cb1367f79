import HandlerDocs.Flow.Resolve

namespace HandlerDocs.Flow

open Code

variable (site : Site) (scope : Scope)

def bindFacts (media : String) (args : List Expr) : List Fact :=
  match args.head?.map (·.peel) with
  | none => []
  | some target =>
    match resolve site scope target with
    | none => []
    | some shape =>
      [.param .body (target.ident?.getD "body") shape true none, .accept media]

def bindQueryFacts (args : List Expr) : List Fact :=
  let found := (args.head?.bind fun arg ↦ resolve site scope arg.peel).bind fun shape ↦
    site.struct? shape.name
  match found with
  | none => []
  | some (package, decl) =>
    decl.fields.flatMap fun field ↦ field.names.map fun name ↦
      .param .query (field.formName name) (.named (site.relative field.type package))
        field.isRequired none

def defaultText (arg : Expr) : String :=
  arg.stringLit?.getD arg.render

/-- One parameter is read by its name, which must be a literal. -/
def readFacts (kind : ParamKind) (hasDefault file : Bool) (args : List Expr) : List Fact :=
  match args.head?.bind (·.stringLit?) with
  | none => []
  | some name =>
    let default := if hasDefault && 1 < args.length then args.getLast?.map defaultText else none
    let shape := Shape.named (if file then "file" else "string")
    let required := decide (kind = .form) && default.isNone
    .param kind name shape required default ::
      if kind = .form then [.accept Vocabulary.formMedia] else []

/-- A response is written; without a known status only its media type is a fact. -/
def produceFacts (media method : String) (args : List Expr) : List Fact :=
  match args with
  | status :: value :: _ =>
    .produce media :: match status? site scope status with
      | none => []
      | some status =>
        let shape := if Vocabulary.rendersText method then .named "string"
          else (resolve site scope value).getD (.named "object")
        [.response status shape]
  | _ => []

def contextFacts (call : Vocabulary.ContextCall) (method : String) (args : List Expr) : List Fact :=
  match call with
  | .bind media => bindFacts site scope media args
  | .bindQuery => bindQueryFacts site scope args
  | .query hasDefault => readFacts .query hasDefault false args
  | .form hasDefault file => readFacts .form hasDefault file args
  | .produce media => produceFacts site scope media method args

def conversionFacts (type : String) (args : List Expr) : List Fact :=
  match (args.head?.bind (·.ident?)).bind scope.source? with
  | some source =>
    [.param source.kind source.name (.named type) (decide (source.kind = .form)) none]
  | none => []

end HandlerDocs.Flow
