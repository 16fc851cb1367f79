import HandlerDocs.Shape

namespace HandlerDocs

inductive ParamKind where
  | path | query | body | form
deriving DecidableEq

namespace ParamKind

def text : ParamKind → String
  | .path => "path"
  | .query => "query"
  | .body => "body"
  | .form => "formData"

def ofText? (text : String) : Option ParamKind :=
  match Text.lower text with
  | "path" => some .path
  | "query" => some .query
  | "body" => some .body
  | "form" => some .form
  | "formdata" => some .form
  | _ => none

def rank : ParamKind → Nat
  | .path => 0
  | .query => 1
  | .body => 2
  | .form => 3

end ParamKind

inductive Fact where
  | param (kind : ParamKind) (name : String) (shape : Shape) (required : Bool)
      (default : Option String)
  | accept (media : String)
  | produce (media : String)
  | response (status : Nat) (shape : Shape)
deriving DecidableEq

def Fact.qualify (package : String) : Fact → Fact
  | .param kind name shape required default =>
    .param kind name (shape.qualify package) required default
  | .response status shape => .response status (shape.qualify package)
  | .accept media => .accept media
  | .produce media => .produce media

end HandlerDocs
