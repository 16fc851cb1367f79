import HandlerDocs.Proofs.EndpointDoc.Media

namespace HandlerDocs.EndpointDoc

open Text

inductive Item where
  | summary (text : String)
  | id (text : String)
  | tags (text : String)
  | description (text : String)
  | accept (media : List String)
  | produce (media : List String)
  | param (p : ParamDoc)
  | response (r : ResponseDoc)
  | router (r : RouterDoc)
  | extra (line : String)
  | nothing

namespace Item

def ofKeyword (key rest line : String) : Item :=
  match key with
  | "@summary" => .summary rest
  | "@id" => .id rest
  | "@tags" => .tags rest
  | "@description" => .description rest
  | "@accept" => .accept (readMedia rest)
  | "@produce" => .produce (readMedia rest)
  | "@param" => ((readParam? rest).map .param).getD (.extra line)
  | "@success" => ((readResponse? rest).map .response).getD (.extra line)
  | "@failure" => ((readResponse? rest).map .response).getD (.extra line)
  | "@router" => ((readRouter? rest).map .router).getD .nothing
  | _ => if startsWith line "@" then .extra line else .description line

@[simp] theorem ofKeyword_param (rest line : String) :
    ofKeyword "@param" rest line = ((readParam? rest).map .param).getD (.extra line) := rfl

@[simp] theorem ofKeyword_success (rest line : String) :
    ofKeyword "@success" rest line = ((readResponse? rest).map .response).getD (.extra line) := rfl

@[simp] theorem ofKeyword_failure (rest line : String) :
    ofKeyword "@failure" rest line = ((readResponse? rest).map .response).getD (.extra line) := rfl

def ofLine (line : String) : Item :=
  ofKeyword (lower (keyword line)) (remainder line) line

def addTo (doc : EndpointDoc) : Item → EndpointDoc
  | .summary text => if doc.summary.isEmpty then { doc with summary := text } else doc
  | .id text => { doc with id := some (doc.id.getD text) }
  | .tags text => { doc with tags := some (doc.tags.getD text) }
  | .description text => doc.addDescription text
  | .accept media => { doc with accept := doc.accept ++ media }
  | .produce media => { doc with produce := doc.produce ++ media }
  | .param p => doc.addParam p
  | .response r => doc.addResponse r
  | .router r => doc.addRouter r
  | .extra line => doc.addExtra line
  | .nothing => doc

end Item

/-- Reading a line depends on the block so far only in how its item is added. -/
theorem readLine_eq (doc : EndpointDoc) (line : String) :
    readLine doc line = (Item.ofLine line).addTo doc := by
  unfold readLine Item.ofLine Item.ofKeyword
  generalize lower (keyword line) = key
  dsimp only
  split
  · rfl
  · rfl
  · rfl
  · rfl
  · rfl
  · rfl
  · cases readParam? (remainder line) <;> rfl
  · cases readResponse? (remainder line) <;> rfl
  · cases readResponse? (remainder line) <;> rfl
  · cases readRouter? (remainder line) <;> rfl
  · split <;> simp only [Item.addTo]

def addAll (doc : EndpointDoc) (items : List Item) : EndpointDoc :=
  items.foldl Item.addTo doc

@[simp] theorem addAll_nil (doc : EndpointDoc) : addAll doc [] = doc := rfl

@[simp] theorem addAll_cons (doc : EndpointDoc) (i : Item) (items : List Item) :
    addAll doc (i :: items) = addAll (i.addTo doc) items := rfl

@[simp] theorem addAll_append (doc : EndpointDoc) (as bs : List Item) :
    addAll doc (as ++ bs) = addAll (addAll doc as) bs :=
  List.foldl_append

def item? (raw : String) : Option Item :=
  if (bare raw).isEmpty then none else some (Item.ofLine (bare raw))

def items (lines : List String) : List Item :=
  lines.filterMap item?

@[simp] theorem items_nil : items [] = [] := rfl

@[simp] theorem items_append (as bs : List String) : items (as ++ bs) = items as ++ items bs :=
  List.filterMap_append

theorem items_map {α : Type} {line : α → String} {item : α → Item} {xs : List α}
    (h : ∀ x ∈ xs, item? (line x) = some (item x)) : items (xs.map line) = xs.map item := by
  induction xs with
  | nil => rfl
  | cons x xs ih =>
    have hx := h x List.mem_cons_self
    have hxs := ih fun y hy ↦ h y (List.mem_cons_of_mem _ hy)
    rw [items] at hxs ⊢
    rw [List.map_cons, List.filterMap_cons_some hx, hxs, List.map_cons]

theorem read_eq (lines : List String) : read lines = addAll empty (items lines) := by
  have hfold (doc : EndpointDoc) : ((lines.map bare).filter fun line ↦ !line.isEmpty).foldl
      readLine doc = addAll doc (items lines) := by
    induction lines generalizing doc with
    | nil => rfl
    | cons line lines ih =>
      by_cases hline : (bare line).isEmpty
      · simpa [items, item?, hline] using ih doc
      · simpa [items, item?, hline, readLine_eq] using ih _
  exact hfold empty

/-- The marker and the blanks around a comment go. -/
theorem bare_comment (text : String) : bare ("// " ++ text) = trim text := by
  have hslash : isBlank '/' = false := by decide
  have hspace : isBlank ' ' = true := rfl
  have htrim : (trim ("// " ++ text)).toList =
      if dropWhileEnd isBlank text.toList = [] then ['/', '/']
      else '/' :: '/' :: ' ' :: dropWhileEnd isBlank text.toList := by
    rw [toList_trim, String.toList_append]
    simp only [show "// ".toList = ['/', '/', ' '] from rfl, List.cons_append, List.nil_append]
    rw [List.dropWhile_cons_of_neg (by simp [hslash])]
    split
    · rename_i h
      simp [dropWhileEnd_cons, h, hslash, hspace]
    · rename_i h
      simp [dropWhileEnd_cons, h]
  rw [← String.toList_inj, bare, toList_trim, dropLeading, String.toList_ofList, htrim, toList_trim,
    ← dropWhile_dropWhileEnd isBlank text.toList]
  split
  · rename_i h
    rw [h]
    rfl
  · rw [List.dropWhile_cons_of_pos (by simp), List.dropWhile_cons_of_pos (by simp),
      List.dropWhile_cons_of_neg (by simp), List.dropWhile_cons_of_pos hspace,
      ← dropWhile_dropWhileEnd, dropWhileEnd_idem]

/-- The two ways in which a line with a keyword is trimmed. -/
theorem toList_trim_keyword {key : String} (hkey : Solid key) (text : String) :
    (trim (key ++ " " ++ text)).toList =
      if dropWhileEnd isBlank text.toList = [] then key.toList
      else key.toList ++ ' ' :: dropWhileEnd isBlank text.toList := by
  have hstart : (key.toList ++ (' ' :: text.toList)).dropWhile isBlank =
      key.toList ++ (' ' :: text.toList) :=
    dropWhile_eq_self.2 (startsInked_append hkey _)
  have htext : (key ++ " " ++ text).toList = key.toList ++ (' ' :: text.toList) := by simp
  have hspace : isBlank ' ' = true := rfl
  rw [toList_trim, htext, hstart]
  split
  · rename_i h
    rw [dropWhileEnd_append_of_nil _ (by simp [dropWhileEnd_cons, h, hspace])]
    exact (dropWhileEnd_eq_self _).2 (trimmed_iff.1 hkey.trimmed).2
  · rename_i h
    have hcons : dropWhileEnd isBlank (' ' :: text.toList) =
        ' ' :: dropWhileEnd isBlank text.toList := by simp [dropWhileEnd_cons, h]
    rw [dropWhileEnd_append _ (by simp [hcons]), hcons]

theorem keyword_trim {key : String} (hkey : Solid key) (text : String) :
    keyword (trim (key ++ " " ++ text)) = key := by
  have hink : ∀ c ∈ key.toList, isInk c := (solid_iff_ink.1 hkey).2
  rw [keyword, toList_trim_keyword hkey, ← String.toList_inj, String.toList_ofList]
  split
  · rw [List.takeWhile_eq_self_iff.2 hink]
  · rw [List.takeWhile_append_of_pos hink,
      List.takeWhile_cons_of_neg (by decide), List.append_nil]

theorem remainder_trim {key : String} (hkey : Solid key) (text : String) :
    remainder (trim (key ++ " " ++ text)) = trim text := by
  have hink : ∀ c ∈ key.toList, isInk c := (solid_iff_ink.1 hkey).2
  have hspace : isBlank ' ' = true := rfl
  rw [remainder, dropLeading, toList_trim_keyword hkey, ← String.toList_inj, toList_trim,
    toList_trim, String.toList_ofList, ← dropWhile_dropWhileEnd isBlank text.toList]
  split
  · rename_i h
    rw [List.dropWhile_eq_nil_iff.2 hink, h]
    rfl
  · rw [List.dropWhile_append_of_pos hink, List.dropWhile_cons_of_neg (by decide),
      List.dropWhile_cons_of_pos hspace, ← dropWhile_dropWhileEnd, dropWhileEnd_idem]

/-- The item of a comment line that starts with a keyword. -/
theorem item?_keyword {key : String} (hkey : Solid key) (text : String) :
    item? ("// " ++ (key ++ " " ++ text)) =
      some (Item.ofKeyword (lower key) (trim text) (trim (key ++ " " ++ text))) := by
  have hne : trim (key ++ " " ++ text) ≠ "" := by
    intro h
    have hk := keyword_trim hkey text
    rw [h] at hk
    exact hkey.1 hk.symm
  rw [item?, bare_comment, if_neg (by simpa using hne), Item.ofLine, keyword_trim hkey,
    remainder_trim hkey]

end HandlerDocs.EndpointDoc
