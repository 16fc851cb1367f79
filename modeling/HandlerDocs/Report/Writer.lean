import HandlerDocs.Generation
import HandlerDocs.Report.Json

namespace HandlerDocs.Report

open Generation

def toolName : String := "swaggen"

def toolVersion : String := "0.1.0"

/-- What a report is about: the path and the configuration file as the user knows them, and whether
files were left as they are. -/
structure Subject where
  path : String
  config : Option String
  dryRun : Bool

def routeJson (r : RouterDoc) : Json :=
  .object [("path", .text r.path), ("method", .text r.method)]

def handlerJson (h : HandlerReport) : Json :=
  .object [("handler", .text h.handler), ("file", .text h.file),
    ("routes", .array (h.routes.map routeJson)), ("lines", .array (h.lines.map .text)),
    ("changed", .bool h.changed)]

def fieldsOf (r : Generation.Report) : List (String × Json) :=
  [("files_loaded", .number r.filesLoaded),
   ("failed", .array (r.failed.map fun e ↦ .object [("error", .text e)])),
   ("handlers", .array (r.handlers.map handlerJson))] ++
  (r.overviewChanged.map fun changed ↦ ("info_changed", Json.bool changed)).toList ++
  [("units_written", .number r.unitsWritten)]

def json (subject : Subject) (r : Generation.Report) : String :=
  let head := [("version", Json.text toolVersion), ("path", .text subject.path),
    ("config", (subject.config.map Json.text).getD .null), ("dry_run", .bool subject.dryRun)]
  (Json.object (head ++ fieldsOf r)).pretty 0 ++ "\n"

inductive Ink where
  | bold | dim | green | yellow | blue | boldCyan
deriving DecidableEq

def Ink.code : Ink → String
  | .bold => "1"
  | .dim => "2"
  | .green => "32"
  | .yellow => "33"
  | .blue => "34"
  | .boldCyan => "1;36"

def resetMark : List Char :=
  ['\x1b', '[', '0', 'm']

def remark (mark : List Char) : List Char → List Char
  | '\x1b' :: '[' :: '0' :: 'm' :: cs => resetMark ++ mark ++ remark mark cs
  | [] => []
  | c :: cs => c :: remark mark cs

def paint (color : Bool) (ink : Ink) (text : String) : String :=
  if color then
    let mark := ['\x1b', '['] ++ ink.code.toList ++ ['m']
    String.ofList (mark ++ remark mark text.toList ++ resetMark)
  else text

def padTo (width : Nat) (text : String) : String :=
  text ++ String.ofList (List.replicate (width - text.toList.length) ' ')

variable (color : Bool)

def line (text : String) : String := text ++ "\n"

def failedText (failed : List String) : String :=
  if failed.isEmpty then ""
  else
    line ("  " ++ paint color .bold "Skipped units" ++ " (" ++ Nat.repr failed.length ++ "):") ++
    String.join (failed.map fun e ↦ line ("    " ++ paint color .yellow "WARN " ++ " " ++ e)) ++
    line ""

def handlerText (blocks : Bool) (h : HandlerReport) : String :=
  let status := if h.changed then paint color .green "UPDATED" else paint color .dim "OK     "
  line ("    " ++ status ++ " " ++ padTo 32 h.handler ++ paint color .blue h.file) ++
  String.join (h.routes.map fun r ↦
    line ("            " ++ paint color .dim ("[" ++ r.method ++ "]") ++ " " ++ r.path)) ++
  (if blocks then
    String.join (h.lines.map fun l ↦ line ("            " ++ paint color .dim l))
  else "") ++
  line ""

def handlersText (blocks : Bool) (handlers : List HandlerReport) : String :=
  if handlers.isEmpty then line ("  " ++ paint color .dim "No gin handlers found")
  else
    line ("  " ++ paint color .bold "Handlers" ++ " (" ++ Nat.repr handlers.length ++ "):") ++
    line "" ++ String.join (handlers.map (handlerText color blocks))

def overviewText : Option Bool → String
  | none => ""
  | some changed =>
    let status := if changed then paint color .green "updated" else paint color .dim "unchanged"
    line ("  " ++ paint color .bold "General info:" ++ " " ++ status) ++ line ""

def statusText (r : Generation.Report) : String :=
  line ("  " ++ paint color .dim ("Files: " ++ Nat.repr r.filesLoaded) ++
    "  Changed: " ++ paint color .bold (Nat.repr r.changedHandlers) ++
    "  Written: " ++ paint color .bold (Nat.repr r.unitsWritten) ++ "  " ++
    if r.failed.isEmpty then paint color .green "DONE" else paint color .yellow "DONE WITH ERRORS")

/-- The report for the terminal; comment blocks are shown when files were left as they are. -/
def pretty (subject : Subject) (r : Generation.Report) : String :=
  line "" ++ line ("  " ++ paint color .boldCyan toolName ++ " v" ++ toolVersion) ++ line "" ++
  line ("  " ++ paint color .dim "Scanning: " ++ subject.path) ++
  line ("  " ++ paint color .dim "Config:   " ++ subject.config.getD "(defaults)") ++ line "" ++
  failedText color r.failed ++ handlersText color subject.dryRun r.handlers ++
  overviewText color r.overviewChanged ++ statusText color r ++ line ""

end HandlerDocs.Report
