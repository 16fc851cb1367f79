import HandlerDocs.Text.Blank
import HandlerDocs.Text.CharClass

namespace HandlerDocs.Routing.Path

open Text

def isQuote (c : Char) : Bool :=
  c = '\x22' || c = '\x60'

def opensName (c : Char) (cs : List Char) : Bool :=
  (c = ':' || c = '*') && cs.head?.any isWord

/-- Puts braces around parameter names in place of the mark before them; `inside` tells whether a
name is being read. -/
def bracedFrom : Bool → List Char → List Char
  | false, [] => []
  | true, [] => ['\x7d']
  | inside, c :: cs =>
    if inside && isWord c then c :: bracedFrom true cs
    else
      let rest := if opensName c cs then '\x7b' :: bracedFrom true cs else c :: bracedFrom false cs
      if inside then '\x7d' :: rest else rest

/-- The documented form of a route: no quotes around it, `:id` and `*path` in braces. -/
def normalize (raw : String) : String :=
  let cs := dropWhileEnd isQuote ((trim raw).toList.dropWhile isQuote)
  String.ofList (bracedFrom false cs)

def collapse : List Char → List Char
  | '/' :: '/' :: cs => collapse ('/' :: cs)
  | c :: cs => c :: collapse cs
  | [] => []

def join (base path : String) : String :=
  if path.isEmpty then
    if base.isEmpty then "/" else base
  else String.ofList (collapse (base.toList ++ '/' :: path.toList))

/-- The names in braces. `name` holds what follows an open brace, last character first. -/
def paramsFrom : Option (List Char) → List Char → List String
  | _, [] => []
  | name, c :: cs =>
    if c = '\x7b' then paramsFrom (some []) cs
    else match name with
      | none => paramsFrom none cs
      | some name =>
        if isWord c then paramsFrom (some (c :: name)) cs
        else if c = '\x7d' && !name.isEmpty then
          String.ofList name.reverse :: paramsFrom none cs
        else paramsFrom none cs

def params (path : String) : List String :=
  paramsFrom none path.toList

/-- The tag that a group's path gives: `/api/v1` is tagged `api/v1`. -/
def tag (group : String) : String :=
  String.ofList (group.toList.dropWhile (· = '/'))

end HandlerDocs.Routing.Path
