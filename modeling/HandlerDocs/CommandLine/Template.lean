namespace HandlerDocs.CommandLine

def templateLines : List String :=
  ["# swaggen configuration",
   "#",
   "# Every key is optional. Command-line flags override the values here.",
   "version: \"1\"",
   "",
   "# Import path of the router package.",
   "router_path: github.com/gin-gonic/gin",
   "",
   "# Load _test.go files as well.",
   "include_test_files: false",
   "",
   "# Paths to skip, relative to the project root.",
   "excluded_paths:",
   "  - \"**/mocks/**\"",
   "  - \"**/*_gen.go\"",
   "",
   "# Parse workers.",
   "workers: 20",
   "",
   "# Deepest chain of helper calls followed from a handler.",
   "max_depth: 32",
   "",
   "# General API information written above func main.",
   "info:",
   "  base: false",
   "  license: false",
   "  tag: false",
   "  security: false",
   "  values:",
   "    title: Swagger Example API",
   "    version: \"1.0\"",
   "    host: localhost:8080",
   "    basepath: /"]

def configTemplate : String :=
  String.join (templateLines.map (· ++ "\n"))

end HandlerDocs.CommandLine
