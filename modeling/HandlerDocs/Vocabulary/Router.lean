namespace HandlerDocs.Vocabulary

/-- What a method of a router does: open a group, register a route for a verb, or register one for
the verb given as its first argument. -/
inductive RouterCall where
  | group
  | verb (method : String)
  | handle
deriving DecidableEq

def routerMethods : List (String × RouterCall) :=
  [("Group", .group), ("GET", .verb "get"), ("POST", .verb "post"), ("PUT", .verb "put"),
   ("PATCH", .verb "patch"), ("DELETE", .verb "delete"), ("OPTIONS", .verb "options"),
   ("HEAD", .verb "head"), ("Any", .verb "any"), ("Handle", .handle)]

def routerCall? (method : String) : Option RouterCall :=
  routerMethods.lookup method

def rootConstructors : List String :=
  ["New", "Default"]

def isRootConstructor (name : String) : Bool :=
  rootConstructors.contains name

end HandlerDocs.Vocabulary
