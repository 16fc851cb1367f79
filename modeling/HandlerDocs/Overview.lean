import HandlerDocs.EndpointDoc.Reader
import HandlerDocs.Assoc

namespace HandlerDocs

structure OverviewOptions where
  base : Bool := false
  license : Bool := false
  tag : Bool := false
  security : Bool := false
  values : List (String × String) := []
deriving DecidableEq

namespace Overview

structure Key where
  key : String
  spelling : String
  value : Option String

def baseKeys : List Key :=
  [⟨"title", "title", some "Swagger Example API"⟩,
   ⟨"version", "version", some "1.0"⟩,
   ⟨"description", "description", some "This is a sample server Petstore server."⟩,
   ⟨"contact.name", "contact.name", some "API Support"⟩,
   ⟨"contact.email", "contact.email", some "support@swagger.io"⟩,
   ⟨"contact.url", "contact.url", some "http://www.swagger.io/support"⟩,
   ⟨"host", "host", some "petstore.swagger.io"⟩,
   ⟨"basepath", "BasePath", some "/v2"⟩]

def licenseKeys : List Key :=
  [⟨"license.name", "license.name", none⟩, ⟨"license.url", "license.url", none⟩]

def tagKeys : List Key :=
  [⟨"tag.name", "tag.name", none⟩,
   ⟨"tag.description", "tag.description", none⟩,
   ⟨"tag.description.markdown", "tag.description.markdown", none⟩,
   ⟨"tag.docs.url", "tag.docs.url", none⟩,
   ⟨"tag.docs.description", "tag.docs.description", none⟩]

def securityKeys : List Key :=
  [⟨"securitydefinitions.basic", "securityDefinitions.basic", none⟩,
   ⟨"securitydefinitions.apikey", "securityDefinitions.apikey", none⟩,
   ⟨"securitydefinitions.oauth2.application", "securityDefinitions.oauth2.application", none⟩,
   ⟨"securitydefinitions.oauth2.implicit", "securityDefinitions.oauth2.implicit", none⟩,
   ⟨"securitydefinitions.oauth2.password", "securityDefinitions.oauth2.password", none⟩,
   ⟨"securitydefinitions.oauth2.accesscode", "securityDefinitions.oauth2.accessCode", none⟩]

def allKeys : List Key :=
  baseKeys ++ licenseKeys ++ tagKeys ++ securityKeys

end Overview

namespace OverviewOptions

def isEnabled (o : OverviewOptions) : Bool :=
  o.base || o.license || o.tag || o.security

def keys (o : OverviewOptions) : List Overview.Key :=
  (if o.base then Overview.baseKeys else []) ++ (if o.license then Overview.licenseKeys else []) ++
  (if o.tag then Overview.tagKeys else []) ++ (if o.security then Overview.securityKeys else [])

def enables (o : OverviewOptions) (key : String) : Bool :=
  o.keys.any (·.key = key)

end OverviewOptions

namespace Overview

def lineKey? (line : String) : Option String :=
  match (EndpointDoc.bare line).toList with
  | '@' :: cs => (Text.wordsOf cs).head?.map fun word ↦ Text.lower (String.ofList word)
  | _ => none

def written (k : Key) : Option String → String
  | some value => "// @" ++ k.spelling ++ " " ++ value
  | none => "// @" ++ k.spelling

/-- The line for a key: a configured value wins, then the first existing line, then the default. -/
def lineFor (options : OverviewOptions) (existing : List String) (k : Key) : String :=
  match Assoc.get? k.key options.values with
  | some value => written k (some value)
  | none => (existing.find? fun line ↦ lineKey? line = some k.key).getD (written k k.value)

/-- The lines that set no enabled key, as they stand, then one line for each enabled key. -/
def update (options : OverviewOptions) (existing : List String) : List String :=
  existing.filter (fun line ↦ !(lineKey? line).any options.enables) ++
    options.keys.map (lineFor options existing)

end Overview

end HandlerDocs
