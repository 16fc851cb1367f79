import HandlerDocs.CommandLine.Arguments
import HandlerDocs.Config.Basic

namespace HandlerDocs.CommandLine

structure GenArgs where
  path : String := "."
  config : Option String := none
  handler : Option String := none
  print : Bool := false
  format : String := "pretty"
  workers : Option Nat := none
  maxDepth : Option Nat := none
  routerPath : Option String := none
  includeTests : Bool := false

inductive Command where
  | gen (args : GenArgs)
  | init (output : String)

structure Invocation where
  verbose : Nat
  command : Command

def verboseOption : OptionSpec := ⟨"verbose", some 'v', .count⟩

def helpOption : OptionSpec := ⟨"help", some 'h', .help⟩

def grammar : Grammar where
  options := [verboseOption, helpOption, ⟨"version", some 'V', .version⟩]
  subcommands := ["gen", "generate", "init", "help"]

def genGrammar : Grammar where
  options := [verboseOption, helpOption, ⟨"config", some 'c', .value .path⟩,
    ⟨"handler", none, .value .text⟩, ⟨"print", some 'p', .flag⟩,
    ⟨"format", some 'f', .value .text⟩, ⟨"workers", some 'w', .value .number⟩,
    ⟨"max-depth", none, .value .number⟩, ⟨"router-path", none, .value .text⟩,
    ⟨"include-tests", none, .flag⟩]
  positional := some ⟨"PATH", none, .value .path⟩

def initGrammar : Grammar where
  options := [verboseOption, helpOption, ⟨"output", some 'o', .value .path⟩]

def GenArgs.ofGiven (given : Given) : GenArgs where
  path := (given.value? "PATH").getD "."
  config := given.value? "config"
  handler := given.value? "handler"
  print := given.has "print"
  format := (given.value? "format").getD "pretty"
  workers := (given.value? "workers").bind numberOf?
  maxDepth := (given.value? "max-depth").bind numberOf?
  routerPath := given.value? "router-path"
  includeTests := given.has "include-tests"

/-- Flags win over the configuration file. -/
def GenArgs.overlay (args : GenArgs) (config : Config) : Config :=
  { config with
    handler := args.handler.orElse fun _ ↦ config.handler
    workers := args.workers.orElse fun _ ↦ config.workers
    maxDepth := args.maxDepth.orElse fun _ ↦ config.maxDepth
    routerPath := args.routerPath.orElse fun _ ↦ config.routerPath
    includeTestFiles := if args.includeTests then some true else config.includeTestFiles }

def helpUsage : List String → Usage
  | [] => .help
  | [name] => if grammar.subcommands.contains name then .help else .invalidSubcommand
  | _ => .invalidSubcommand

/-- Reads the arguments of the program. What is said about verbosity after the subcommand counts
more than what is said before it. -/
def Invocation.ofArgs (args : List String) : Except Usage Invocation := do
  let (before, found) ← grammar.read args
  match found with
  | none => throw (if before.isEmpty then .nothingGiven else .missingSubcommand)
  | some ("help", more) => throw (helpUsage more)
  | some (name, more) =>
    let isInit := name = "init"
    let (given, _) ← (if isInit then initGrammar else genGrammar).read more
    let verbose := (given.count? "verbose").getD ((before.count? "verbose").getD 0)
    let command := if isInit then Command.init ((given.value? "output").getD "swaggen.yaml")
      else .gen (.ofGiven given)
    return ⟨verbose, command⟩

end HandlerDocs.CommandLine
