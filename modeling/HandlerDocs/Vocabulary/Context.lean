namespace HandlerDocs.Vocabulary

inductive ContextCall where
  | bind (media : String)
  | bindQuery
  | query (hasDefault : Bool)
  | form (hasDefault file : Bool)
  | produce (media : String)
deriving DecidableEq

def contextMethods : List (String × ContextCall × List String) :=
  [("BindJSON", .bind "json", ["error"]),
   ("ShouldBindJSON", .bind "json", ["error"]),
   ("BindXML", .bind "xml", ["error"]),
   ("ShouldBindXML", .bind "xml", ["error"]),
   ("BindYAML", .bind "yaml", ["error"]),
   ("ShouldBindYAML", .bind "yaml", ["error"]),
   ("BindQuery", .bindQuery, ["error"]),
   ("ShouldBindQuery", .bindQuery, ["error"]),
   ("Query", .query false, ["string"]),
   ("DefaultQuery", .query true, ["string"]),
   ("GetQuery", .query false, ["string", "bool"]),
   ("QueryArray", .query false, ["[]string"]),
   ("GetQueryArray", .query false, ["[]string", "bool"]),
   ("QueryMap", .query false, ["map[string]string"]),
   ("GetQueryMap", .query false, ["map[string]string", "bool"]),
   ("PostForm", .form false false, ["string"]),
   ("DefaultPostForm", .form true false, ["string"]),
   ("GetPostForm", .form false false, ["string", "bool"]),
   ("PostFormArray", .form false false, ["[]string"]),
   ("GetPostFormArray", .form false false, ["[]string", "bool"]),
   ("PostFormMap", .form false false, ["map[string]string"]),
   ("GetPostFormMap", .form false false, ["map[string]string", "bool"]),
   ("FormFile", .form false true, ["*multipart.FileHeader", "error"]),
   ("HTML", .produce "html", []),
   ("IndentedJSON", .produce "json", []),
   ("SecureJSON", .produce "json", []),
   ("JSONP", .produce "json", []),
   ("JSON", .produce "json", []),
   ("AsciiJSON", .produce "json", []),
   ("PureJSON", .produce "json", []),
   ("AbortWithStatusJSON", .produce "json", []),
   ("XML", .produce "xml", []),
   ("YAML", .produce "yaml", []),
   ("ProtoBuf", .produce "protobuf", []),
   ("String", .produce "plain", [])]

def contextCall? (method : String) : Option ContextCall :=
  (contextMethods.lookup method).map (·.1)

def contextResults (method : String) : List String :=
  ((contextMethods.lookup method).map (·.2)).getD []

/-- Responses of these methods are text, whatever they are given. -/
def rendersText (method : String) : Bool :=
  method = "HTML" || method = "String"

def formMedia : String := "multipart/form-data"

def conversionPackage : String := "strconv"

/-- Conversions, each with the documented type of its input and the type of its result. -/
def conversions : List (String × String × String) :=
  [("Atoi", "integer", "int"), ("ParseInt", "integer", "int64"),
   ("ParseUint", "integer", "uint64"), ("ParseFloat", "number", "float64"),
   ("ParseBool", "boolean", "bool")]

def conversion? (name : String) : Option (String × String) :=
  conversions.lookup name

end HandlerDocs.Vocabulary
