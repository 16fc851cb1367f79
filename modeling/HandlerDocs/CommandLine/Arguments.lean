import HandlerDocs.Text.Cut
import HandlerDocs.Text.Decimal

namespace HandlerDocs.CommandLine

inductive Usage where
  | help
  | version
  | nothingGiven
  | missingSubcommand
  | invalidSubcommand
  | unknownArgument
  | missingValue
  | invalidValue
  | unneededValue
  | repeated
deriving DecidableEq

def Usage.exit : Usage → Nat
  | .help => 0
  | .version => 0
  | _ => 2

inductive ValueKind where
  | text | path | number
deriving DecidableEq

inductive OptionKind where
  | help
  | version
  | count
  | flag
  | value (kind : ValueKind)
deriving DecidableEq

structure OptionSpec where
  long : String
  short : Option Char := none
  kind : OptionKind
deriving DecidableEq

structure Grammar where
  options : List OptionSpec
  positional : Option OptionSpec := none
  subcommands : List String := []

/-- Arguments that were read: values by option, and how often counted options were given. -/
structure Given where
  values : List (String × String) := []
  counts : List (String × Nat) := []

namespace Given

def value? (given : Given) (name : String) : Option String :=
  given.values.lookup name

def has (given : Given) (name : String) : Bool :=
  (given.value? name).isSome

def count? (given : Given) (name : String) : Option Nat :=
  given.counts.lookup name

def isEmpty (given : Given) : Bool :=
  given.values.isEmpty && given.counts.isEmpty

end Given

def numberOf? (text : String) : Option Nat :=
  Text.decimalBelow? UInt64.size ((Text.dropStart? "+" text).getD text)

def checkValue (kind : ValueKind) (value : String) : Option Usage :=
  match kind with
  | .text => none
  | .path => if value.isEmpty then some .missingValue else none
  | .number => if (numberOf? value).isNone then some .invalidValue else none

/-- Takes an option without a value. Only counted options may come again. -/
def Given.takeFlag (given : Given) (option : OptionSpec) : Except Usage Given :=
  match option.kind with
  | .help => .error .help
  | .version => .error .version
  | .count =>
    let n := (given.count? option.long).getD 0
    .ok { given with counts := (option.long, min (n + 1) 255) ::
      given.counts.filter (·.1 ≠ option.long) }
  | _ =>
    if given.has option.long then .error .repeated
    else .ok { given with values := (option.long, "") :: given.values }

def Given.takeValue (given : Given) (option : OptionSpec) (value : String) : Except Usage Given :=
  if given.has option.long then .error .repeated
  else match option.kind with
    | .value kind =>
      match checkValue kind value with
      | some usage => .error usage
      | none => .ok { given with values := (option.long, value) :: given.values }
    | _ => .error .unneededValue

structure Pending where
  option : OptionSpec
  value : Option String

/-- What was read of the arguments. After two dashes everything is a plain argument. -/
structure State where
  given : Given := {}
  pending : Option Pending := none
  plainOnly : Bool := false

namespace State

def settle (s : State) : Except Usage State :=
  match s.pending with
  | none => .ok s
  | some ⟨_, none⟩ => .error .missingValue
  | some ⟨option, some value⟩ =>
    (s.given.takeValue option value).map fun given ↦ { s with given := given, pending := none }

def takeFlag (s : State) (option : OptionSpec) : Except Usage State := do
  let s ← s.settle
  return { s with given := ← s.given.takeFlag option }

def takeOption (s : State) (option : OptionSpec) (attached : Option String) :
    Except Usage State := do
  let s ← s.settle
  match attached with
  | some value => return { s with given := ← s.given.takeValue option value }
  | none => return { s with pending := some ⟨option, none⟩ }

def isWaiting (s : State) : Bool :=
  s.pending.any (·.value.isNone)

end State

namespace Grammar

def readLong (g : Grammar) (s : State) (arg : String) : Except Usage State :=
  let (name, attached) := match Text.cutAt? '=' arg with
    | some (name, value) => (name, some value)
    | none => (arg, none)
  match g.options.find? (·.long = name) with
  | none => .error .unknownArgument
  | some option =>
    match option.kind, attached with
    | .value _, _ => s.takeOption option attached
    | _, some _ => .error .unneededValue
    | _, none => s.takeFlag option

/-- Reads letters after one dash; the rest after an option with a value is that value. -/
def readShort (g : Grammar) : State → List Char → Except Usage State
  | s, [] => .ok s
  | s, c :: cs =>
    match g.options.find? (·.short = some c) with
    | none => .error .unknownArgument
    | some option =>
      match option.kind with
      | .value _ =>
        let attached := match cs with
          | [] => none
          | '=' :: value => some (String.ofList value)
          | value => some (String.ofList value)
        s.takeOption option attached
      | _ => do readShort g (← s.takeFlag option) cs

def readPlain (g : Grammar) (s : State) (arg : String) : Except Usage State :=
  let taken := g.positional.bind fun option ↦
    if s.given.has option.long || s.pending.any (·.option = option) then none else some option
  match taken with
  | some option => s.settle.map fun s ↦ { s with pending := some ⟨option, some arg⟩ }
  | none =>
    if g.subcommands.isEmpty || (s.plainOnly && g.subcommands.contains arg) then
      .error .unknownArgument
    else .error .invalidSubcommand

/-- Reads arguments up to a subcommand, which is given with the arguments after it. -/
def readFrom (g : Grammar) :
    State → List String → Except Usage (Given × Option (String × List String))
  | s, [] => s.settle.map fun s ↦ (s.given, none)
  | s, arg :: more =>
    if s.plainOnly then do readFrom g (← g.readPlain s arg) more
    else if !s.isWaiting && g.subcommands.contains arg then
      s.settle.map fun s ↦ (s.given, some (arg, more))
    else if arg = "--" then readFrom g { s with plainOnly := true } more
    else match arg.toList with
      | '-' :: '-' :: name => do readFrom g (← g.readLong s (String.ofList name)) more
      | '-' :: c :: cs => do readFrom g (← g.readShort s (c :: cs)) more
      | _ =>
        match s.pending with
        | some ⟨option, none⟩ => readFrom g { s with pending := some ⟨option, some arg⟩ } more
        | _ => do readFrom g (← g.readPlain s arg) more

def read (g : Grammar) (args : List String) :
    Except Usage (Given × Option (String × List String)) :=
  g.readFrom {} args

end Grammar

end HandlerDocs.CommandLine
