import HandlerDocs.Proofs.Prelude
import HandlerDocs.SourceFile.Basic

namespace HandlerDocs

theorem Text.Utf8Fault.head?_message (f : Utf8Fault) : f.message.toList.head? = some 'i' := by
  rw [message]
  cases f.length with
  | none =>
    dsimp only
    rw [String.toList_append, List.head?_append]
    rfl
  | some n =>
    dsimp only
    rw [String.append_assoc, String.append_assoc, String.toList_append, List.head?_append]
    rfl

theorem Text.Utf8Fault.colon_notMem_message (f : Utf8Fault) : ':' ∉ f.message.toList := by
  rw [message]
  cases f.length with
  | none =>
    dsimp only
    rw [String.toList_append, List.mem_append, not_or]
    exact ⟨by decide, notMem_repr rfl f.start⟩
  | some n =>
    dsimp only
    simp only [String.toList_append, List.mem_append, not_or]
    exact ⟨⟨⟨by decide, notMem_repr rfl n⟩, by decide⟩, notMem_repr rfl f.start⟩

theorem Code.ParseError.message_missingPackage (fault : Option (ℕ × ℕ)) :
    message .missingPackage fault = "missing package clause" :=
  rfl

theorem Code.ParseError.message_invalid_some (line column : ℕ) :
    message .invalid (some (line, column)) =
      "syntax error at " ++ Nat.repr line ++ ":" ++ Nat.repr column :=
  rfl

/-- No colon in a message about a text has a blank behind it. -/
theorem Code.ParseError.pair_not_infix_message (e : ParseError) (fault : Option (ℕ × ℕ)) :
    ¬[':', ' '] <:+: (e.message fault).toList := by
  rcases fault with _ | ⟨line, column⟩
  · cases e <;> decide
  cases e with
  | missingPackage =>
    rw [message_missingPackage]
    decide
  | invalid =>
    have hlist : (message .invalid (some (line, column))).toList =
        ("syntax error at ".toList ++ (Nat.repr line).toList) ++
          ':' :: (Nat.repr column).toList := by
      rw [message_invalid_some, String.toList_append, String.toList_append, String.toList_append,
        List.append_assoc]
      rfl
    have hline : ':' ∉ "syntax error at ".toList ++ (Nat.repr line).toList := by
      rw [List.mem_append, not_or]
      exact ⟨by decide, notMem_repr rfl line⟩
    rintro ⟨before, after, heq⟩
    rw [hlist, List.append_assoc, List.cons_append, List.cons_append, List.nil_append] at heq
    rcases List.append_eq_append_iff.1 heq with ⟨more, hmore, htail⟩ | ⟨more, rfl, htail⟩
    · cases more with
      | nil =>
        have hblank : ' ' ∈ (Nat.repr column).toList := (List.cons.inj htail).2 ▸ List.mem_cons_self
        exact notMem_repr rfl column hblank
      | cons c more =>
        obtain rfl := (List.cons.inj htail).1
        exact hline (hmore ▸ List.mem_append_right _ List.mem_cons_self)
    · cases more with
      | nil =>
        have hblank : ' ' ∈ (Nat.repr column).toList := (List.cons.inj htail).2 ▸ List.mem_cons_self
        exact notMem_repr rfl column hblank
      | cons c more =>
        have hcolon : ':' ∈ (Nat.repr column).toList :=
          (List.cons.inj htail).2 ▸ List.mem_append_right _ List.mem_cons_self
        exact notMem_repr rfl column hcolon

namespace SourceFile.LoadError

variable (wording : Wording)

/-- What a message says in front of its last colon with a blank behind it. -/
def subject : LoadError → String
  | .unreadable path _ => "failed to read " ++ wording.path path
  | .notText path _ => wording.path path ++ ": not valid UTF-8"
  | .notParsed path _ _ => wording.path path

def reason : LoadError → String
  | .unreadable _ cause => cause.message
  | .notText _ fault => fault.message
  | .notParsed _ source cause => cause.message (wording.fault source)

theorem message_eq (e : LoadError) :
    e.message wording = e.subject wording ++ ": " ++ e.reason wording := by
  have htext : ": not valid UTF-8: " = ": not valid UTF-8" ++ ": " := by decide
  cases e with
  | unreadable path cause => rfl
  | notText path fault =>
    change wording.path path ++ ": not valid UTF-8: " ++ fault.message = _
    rw [htext, ← String.append_assoc]
    rfl
  | notParsed path source cause => rfl

theorem pair_not_infix_reason (e : LoadError) :
    ¬[':', ' '] <:+: (e.reason wording).toList := by
  have hcolon {cs : List Char} (h : ':' ∉ cs) : ¬[':', ' '] <:+: cs :=
    fun hpair ↦ h (hpair.subset List.mem_cons_self)
  cases e with
  | unreadable path cause =>
    rw [reason]
    cases cause <;> exact hcolon (by decide)
  | notText path fault => exact hcolon fault.colon_notMem_message
  | notParsed path source cause => exact cause.pair_not_infix_message _

def kind : LoadError → ℕ
  | .unreadable .. => 0
  | .notText .. => 1
  | .notParsed .. => 2

/-- The first letter of a reason tells the kind of failure. -/
theorem head?_reason (e : LoadError) : ((e.reason wording).toList.head?.map fun c ↦
    if c.isUpper then 0 else if c = 'i' then 1 else 2) = some e.kind := by
  cases e with
  | unreadable path cause =>
    rw [reason]
    cases cause <;> rfl
  | notText path fault =>
    rw [reason, Text.Utf8Fault.head?_message]
    rfl
  | notParsed path source cause =>
    rw [reason]
    cases cause with
    | missingPackage =>
      rw [Code.ParseError.message_missingPackage]
      rfl
    | invalid =>
      cases wording.fault source with
      | none => rfl
      | some fault =>
        rw [Code.ParseError.message_invalid_some, String.append_assoc, String.append_assoc,
          String.toList_append, List.head?_append]
        rfl

variable {wording}

/-- A message tells which path it shows, whatever characters are in there. -/
theorem shown_eq_of_message_eq {a b : LoadError} (h : a.message wording = b.message wording) :
    wording.path a.path = wording.path b.path := by
  have hcut (e : LoadError) : (e.message wording).toList =
      (e.subject wording).toList ++ ':' :: ' ' :: (e.reason wording).toList := by
    rw [message_eq, String.toList_append, String.toList_append, List.append_assoc]
    rfl
  have hlist := congrArg String.toList h
  rw [hcut, hcut] at hlist
  obtain ⟨hsubject, hreason⟩ := append_pair_inj (by decide) hlist (pair_not_infix_reason wording a)
    (pair_not_infix_reason wording b)
  have hsubject : a.subject wording = b.subject wording := String.toList_inj.1 hsubject
  have hkind : a.kind = b.kind := by
    rw [← Option.some.injEq, ← head?_reason wording, ← head?_reason wording, hreason]
  cases a with
  | unreadable p cause =>
    cases b with
    | unreadable q cause' => exact (String.append_right_inj _).1 hsubject
    | _ => cases hkind
  | notText p fault =>
    cases b with
    | notText q fault' => exact (String.append_left_inj _).1 hsubject
    | _ => cases hkind
  | notParsed p source cause =>
    cases b with
    | notParsed q source' cause' => exact hsubject
    | _ => cases hkind

end SourceFile.LoadError

end HandlerDocs
