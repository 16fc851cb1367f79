import HandlerDocs.SourceFile.Basic

namespace HandlerDocs

structure Edit where
  start : Nat
  stop : Nat
  text : List Char
deriving DecidableEq

namespace Edit

def takeBytes : Nat → List Char → List Char
  | _, [] => []
  | n, c :: cs => if c.utf8Size ≤ n then c :: takeBytes (n - c.utf8Size) cs else []

def dropBytes : Nat → List Char → List Char
  | _, [] => []
  | n, c :: cs => if c.utf8Size ≤ n then dropBytes (n - c.utf8Size) cs else c :: cs

def bytes : List Char → Nat
  | [] => 0
  | c :: cs => c.utf8Size + bytes cs

def apply (source : List Char) (e : Edit) : List Char :=
  takeBytes e.start source ++ e.text ++ dropBytes e.stop source

end Edit

namespace SourceFile

def joinLines (lines : List String) : List Char :=
  List.intercalate ['\n'] (lines.map String.toList)

/-- Where the line that holds a byte offset ends, its line feed included. -/
def lineEnd (source : List Char) (offset : Nat) : Nat :=
  let rest := Edit.dropBytes offset source
  let line := rest.takeWhile (· ≠ '\n')
  offset + Edit.bytes line + if line.length < rest.length then 1 else 0

/-- What a pending comment block changes in the text: the old block is replaced, or taken out with
the rest of its last line; without an old block the lines go in front of the function. -/
def editOf? (source : List Char) (f : FuncDecl) : Option Edit :=
  match f.pending, f.doc.span with
  | none, _ => none
  | some [], some span => some ⟨span.start, lineEnd source span.stop, []⟩
  | some lines, some span => some ⟨span.start, span.stop, joinLines lines⟩
  | some [], none => none
  | some lines, none => some ⟨f.span.start, f.span.start, joinLines lines ++ ['\n']⟩

def edits (file : SourceFile) : List Edit :=
  file.functions.filterMap (editOf? file.source.toList)

/-- The text with all pending comment blocks in place. Edits go in from the end of the text, so
that the offsets of the others stay valid. -/
def render (file : SourceFile) : String :=
  let ordered := file.edits.mergeSort fun a b ↦ decide (b.start ≤ a.start)
  String.ofList (ordered.foldl Edit.apply file.source.toList)

/-- The file after its rendered text was stored: it is read again, and if the text can no longer
be read it is only marked as stored. -/
def stored (file : SourceFile) : SourceFile :=
  match parse file.path file.render with
  | .ok fresh => fresh
  | .error _ => { file with dirty := false }

end SourceFile

end HandlerDocs
