import HandlerDocs.Text.Cut

namespace HandlerDocs

inductive Glob.Piece where
  | char (c : Char)
  | anyByte
  | anyBytes
  | anyDirs
  | someDirs
  | anyBelow
  | oneOf (negated : Bool) (ranges : List (Char × Char))
  | choice (branches : List (List Glob.Piece))

/-- A path pattern: its pieces in order. Patterns are matched against the bytes of a path. -/
abbrev Glob := List Glob.Piece

namespace Glob

inductive Error where
  | unclosedClass
  | invalidRange (low high : Char)
  | unopenedChoice
  | unclosedChoice
  | danglingEscape
deriving DecidableEq

def Error.message : Error → String
  | .unclosedClass => "unclosed character class; missing ']'"
  | .invalidRange low high =>
    "invalid range; '" ++ low.toString ++ "' > '" ++ high.toString ++ "'"
  | .unopenedChoice =>
    "unopened alternate group; missing '\x7b' (maybe escape '\x7d' with '[\x7d]'?)"
  | .unclosedChoice =>
    "unclosed alternate group; missing '\x7d' (maybe escape '\x7b' with '[\x7b]'?)"
  | .danglingEscape => "dangling '\\'"

abbrev Branch := List Piece

/-- A choice that is still open: the pieces before it, and its finished branches, last first. -/
structure Open where
  before : Branch
  branches : List Glob

/-- What was read of a pattern: the branch being read, the choices around it from the inside out,
and the last character. -/
structure State where
  branch : Branch := []
  choices : List Open := []
  last : Option Char := none

def State.push (s : State) (p : Piece) : State :=
  { s with branch := p :: s.branch }

def State.seen (s : State) (c : Char) : State :=
  { s with last := some c }

/-- Ends the upper bound of the last range of a class; ranges are kept last first. -/
def closeRange (high : Char) : List (Char × Char) → Except Error (List (Char × Char))
  | [] => .ok [(high, high)]
  | (low, _) :: more =>
    if high < low then .error (.invalidRange low high) else .ok ((low, high) :: more)

/-- The ranges of a class up to its bracket, and the rest. `first` holds at the start, where a
bracket is an ordinary character, and `inRange` after a dash that may make a range. -/
def classRanges (first inRange : Bool) (ranges : List (Char × Char)) :
    List Char → Except Error (List (Char × Char) × List Char)
  | [] => .error .unclosedClass
  | c :: cs =>
    if c = ']' && !first then
      .ok ((if inRange then ('-', '-') :: ranges else ranges).reverse, cs)
    else if c = '-' && !first && !inRange then classRanges false true ranges cs
    else if inRange then
      match closeRange c ranges with
      | .ok ranges => classRanges false false ranges cs
      | .error e => .error e
    else classRanges false false ((c, c) :: ranges) cs

def readClass (cs : List Char) : Except Error (Piece × List Char) :=
  let (negated, cs) := match cs with
    | '!' :: more => (true, more)
    | '^' :: more => (true, more)
    | _ => (false, cs)
  (classRanges true false [] cs).map fun r ↦ (.oneOf negated r.1, r.2)

def State.plainStars (s : State) : State :=
  (s.push .anyBytes).push .anyBytes

def State.replaceLast (s : State) (p : Piece) : State :=
  match s.branch with
  | .anyDirs :: _ => s
  | .anyBelow :: _ => s
  | _ :: more => { s with branch := p :: more }
  | [] => s.push p

/-- Reads two stars; `cs` is what follows them. They stand for whole directories when slashes, the
ends of the pattern or the ends of a branch surround them. -/
def State.doubleStar (s : State) (cs : List Char) : State × List Char :=
  let after := s.seen '*'
  if s.branch.isEmpty then
    match cs with
    | [] => (after.push .anyDirs, [])
    | '/' :: more => ((after.push .anyDirs).seen '/', more)
    | _ => (after.plainStars, cs)
  else
    let nested := !s.choices.isEmpty
    let opens := s.last = some '/' ||
      (nested && (s.last = some ',' || s.last = some '\x7b'))
    if !opens then (after.plainStars, cs)
    else match cs with
      | [] => (after.replaceLast .anyBelow, [])
      | '/' :: more => ((after.replaceLast .someDirs).seen '/', more)
      | c :: _ =>
        if nested && (c = ',' || c = '\x7d') then (after.replaceLast .anyBelow, cs)
        else (after.plainStars, cs)

/-- Reads a pattern from a state on. `fuel` bounds the number of pieces. -/
def readFrom : Nat → State → List Char → Except Error Glob
  | 0, s, _ => .ok s.branch.reverse
  | _ + 1, s, [] => if s.choices.isEmpty then .ok s.branch.reverse else .error .unclosedChoice
  | fuel + 1, s, c :: cs =>
    match c, cs with
    | '?', _ => readFrom fuel ((s.push .anyByte).seen c) cs
    | '*', '*' :: more =>
      let (s, rest) := s.doubleStar more
      readFrom fuel s rest
    | '*', _ => readFrom fuel ((s.push .anyBytes).seen c) cs
    | '[', _ => do
      let (p, rest) ← readClass cs
      readFrom fuel ((s.push p).seen ']') rest
    | '\x7b', _ => readFrom fuel ⟨[], ⟨s.branch, []⟩ :: s.choices, some c⟩ cs
    | '\x7d', _ =>
      match s.choices with
      | [] => .error .unopenedChoice
      | o :: outer =>
        let branches := (s.branch.reverse :: o.branches).reverse
        readFrom fuel ⟨.choice branches :: o.before, outer, some c⟩ cs
    | ',', _ =>
      match s.choices with
      | [] => readFrom fuel ((s.push (.char c)).seen c) cs
      | o :: outer =>
        readFrom fuel ⟨[], ⟨o.before, s.branch.reverse :: o.branches⟩ :: outer, some c⟩ cs
    | '\\', [] => .error .danglingEscape
    | '\\', d :: more => readFrom fuel ((s.push (.char d)).seen d) more
    | _, _ => readFrom fuel ((s.push (.char c)).seen c) cs

def parse (pattern : String) : Except Error Glob :=
  readFrom (pattern.toList.length + 1) {} pattern.toList

def bytesOf (c : Char) : List UInt8 :=
  c.toString.toUTF8.toList

/-- The byte ranges of a class: a character stands for each of its bytes, and a range reaches from
the last byte of its lower end to the first byte of its upper end. -/
def byteRanges (low high : Char) : List (UInt8 × UInt8) :=
  if low = high then (bytesOf low).map fun b ↦ (b, b)
  else
    let lows := bytesOf low
    let highs := bytesOf high
    lows.dropLast.map (fun b ↦ (b, b)) ++
      (lows.getLast?.bind fun a ↦ highs.head?.map fun b ↦ (a, b)).toList ++
      highs.tail.map fun b ↦ (b, b)

def inClass (negated : Bool) (ranges : List (Char × Char)) (b : UInt8) : Bool :=
  let found := (ranges.flatMap fun r ↦ byteRanges r.1 r.2).any fun r ↦ r.1 ≤ b && b ≤ r.2
  found != negated

def ends : List UInt8 → List (List UInt8)
  | [] => [[]]
  | b :: bs => (b :: bs) :: ends bs

def endsAfterSlash (bs : List UInt8) : List (List UInt8) :=
  (ends bs).filterMap fun rest ↦
    match rest with
    | b :: more => if b = 0x2F then some more else none
    | [] => none

def afterBytes : List UInt8 → List UInt8 → List (List UInt8)
  | [], rest => [rest]
  | _ :: _, [] => []
  | a :: as, b :: bs => if a = b then afterBytes as bs else []

def afterOne (test : UInt8 → Bool) : List UInt8 → List (List UInt8)
  | b :: bs => if test b then [bs] else []
  | [] => []

def isSlash (b : UInt8) : Bool :=
  b = 0x2F

def each (step : List UInt8 → List (List UInt8)) (texts : List (List UInt8)) : List (List UInt8) :=
  (texts.flatMap step).eraseDups

mutual

/-- Whether a pattern stands for the empty text only because it says nothing. -/
def isVoid : List Piece → Bool
  | [] => true
  | .choice branches :: more => areVoid branches && isVoid more
  | _ :: _ => false

def areVoid : List (List Piece) → Bool
  | [] => true
  | branch :: more => isVoid branch && areVoid more

end

mutual

def Piece.after (texts : List (List UInt8)) : Piece → List (List UInt8)
  | .char c => each (afterBytes (bytesOf c)) texts
  | .anyByte => each (afterOne fun _ ↦ true) texts
  | .anyBytes => each ends texts
  | .anyDirs => each (fun bs ↦ bs :: endsAfterSlash bs) texts
  | .someDirs => each (fun bs ↦ (afterOne isSlash bs).flatMap fun rest ↦
      rest :: endsAfterSlash rest) texts
  | .anyBelow => each (fun bs ↦ (afterOne isSlash bs).flatMap ends) texts
  | .oneOf negated ranges => each (afterOne (inClass negated ranges)) texts
  | .choice branches =>
    if areVoid branches then texts else (afterBranches texts branches).eraseDups

def afterAll (texts : List (List UInt8)) : List Piece → List (List UInt8)
  | [] => texts
  | p :: more => afterAll (p.after texts) more

/-- Branches that say nothing are no choice. -/
def afterBranches (texts : List (List UInt8)) : List (List Piece) → List (List UInt8)
  | [] => []
  | branch :: more =>
    (if isVoid branch then [] else afterAll texts branch) ++ afterBranches texts more

end

/-- Whether a pattern matches a whole path. Two stars alone match every path. -/
def accepts (glob : Glob) (path : String) : Bool :=
  match glob with
  | [.anyDirs] => true
  | _ => (afterAll [path.toUTF8.toList] glob).contains []

end Glob

end HandlerDocs
