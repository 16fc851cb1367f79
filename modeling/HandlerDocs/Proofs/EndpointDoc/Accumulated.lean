import HandlerDocs.Proofs.EndpointDoc.Distinct
import HandlerDocs.Proofs.EndpointDoc.Interleaving

namespace HandlerDocs

structure Mention where
  kind : ParamKind
  name : String
  shape : Shape
  required : Bool
  default : Option String

namespace Mention

def key (m : Mention) : ParamKind × String :=
  (m.kind, m.name)

def text (m : Mention) : String :=
  match m.default with
  | some value => "default " ++ value
  | none => m.name

def hasDefault (m : Mention) : Bool :=
  m.default.any fun value ↦ "default " ++ value ≠ m.name

def doc (m : Mention) : ParamDoc :=
  ⟨m.name, m.kind, m.shape.documented, m.required, m.text⟩

theorem key_doc (m : Mention) : m.doc.key = m.key := rfl

theorem text_of_not_hasDefault {m : Mention} (h : m.hasDefault = false) : m.text = m.name := by
  rw [hasDefault] at h
  rw [text]
  cases hdefault : m.default with
  | none => rfl
  | some value => simpa [hdefault] using h

theorem text_of_hasDefault {m : Mention} (h : m.hasDefault) : m.text ≠ "" ∧ m.text ≠ m.name := by
  rw [hasDefault] at h
  rw [text]
  cases hdefault : m.default with
  | none => simp [hdefault] at h
  | some value =>
    refine ⟨?_, by simpa [hdefault] using h⟩
    intro hempty
    have hlist := congrArg String.toList hempty
    simp at hlist

theorem isPlain_doc (m : Mention) : m.doc.isPlain = !m.hasDefault := by
  cases h : m.hasDefault with
  | false => simp [ParamDoc.isPlain, doc, text_of_not_hasDefault h]
  | true => simp [ParamDoc.isPlain, doc, text_of_hasDefault h]

end Mention

namespace Fact

def mention? : Fact → Option Mention
  | .param kind name shape required default => some ⟨kind, name, shape, required, default⟩
  | _ => none

def answer? : Fact → Option (ℕ × Shape)
  | .response status shape => some (status, shape)
  | _ => none

end Fact

def describing? (ms : List Mention) : Option Mention :=
  (ms.find? Mention.hasDefault).or ms.head?

def ParamDoc.ofMentions (key : ParamKind × String) (ms : List Mention) : ParamDoc where
  kind := key.1
  name := key.2
  type := ((ms.map (·.shape.documented)).find? (· ≠ "string")).getD "string"
  required := ((describing? ms).map (·.required)).getD false
  description := ((describing? ms).map (·.text)).getD key.2

namespace EndpointDoc

def paramsOf (ms : List Mention) : List ParamDoc :=
  (ms.map Mention.key).eraseDups.map fun key ↦ .ofMentions key (ms.filter (·.key = key))

def responsesOf (answers : List (ℕ × Shape)) : List ResponseDoc :=
  (answers.map Prod.fst).eraseDups.filterMap fun status ↦
    (answers.lookup status).map (ResponseDoc.ofShape status)

/-- The document of some facts, read off the list as a whole. -/
def accumulated (facts : List Fact) : EndpointDoc :=
  { empty with
    accept := facts.filterMap Fact.accepted?
    produce := facts.filterMap Fact.produced?
    params := paramsOf (facts.filterMap Fact.mention?)
    responses := responsesOf (facts.filterMap Fact.answer?) }

theorem putParam_map_of_mem {p : ParamDoc} {keys : List (ParamKind × String)} (hkeys : keys.Nodup)
    {doc : ParamKind × String → ParamDoc} (hdoc : ∀ k, (doc k).key = k) (hp : p.key ∈ keys) :
    putParam p (keys.map doc) =
      keys.map fun k ↦ if k = p.key then refine (doc k) p else doc k := by
  induction keys with
  | nil => cases hp
  | cons k keys ih =>
    rw [List.nodup_cons] at hkeys
    have hsame : (doc k).sameKey p ↔ k = p.key := by rw [ParamDoc.sameKey_iff, hdoc]
    rw [List.map_cons, putParam, List.map_cons]
    by_cases hk : k = p.key
    · rw [if_pos (hsame.2 hk), if_pos hk]
      congr 1
      apply List.map_congr_left
      intro other hother
      have hne : other ≠ p.key := fun heq ↦ hkeys.1 (hk.trans heq.symm ▸ hother)
      rw [if_neg hne]
    · rw [if_neg (hk ∘ hsame.1), if_neg hk]
      rw [ih hkeys.2 ((List.mem_cons.1 hp).resolve_left (Ne.symm hk))]

theorem refine_eq (known seen : ParamDoc) : refine known seen =
    { known with
      type := if known.type = "string" && seen.type ≠ "string" then seen.type else known.type
      required := if known.isPlain && !seen.isPlain then seen.required else known.required
      description :=
        if known.isPlain && !seen.isPlain then seen.description else known.description } := by
  rw [refine]
  by_cases hplain : known.isPlain && !seen.isPlain
  · simp only [if_pos hplain]
    split <;> rfl
  · simp only [if_neg hplain]
    split <;> rfl

section OfMentions

variable {key : ParamKind × String} {ms : List Mention}

theorem mem_of_describing? {m : Mention} (h : describing? ms = some m) : m ∈ ms := by
  rw [describing?, Option.or_eq_some_iff] at h
  rcases h with h | ⟨-, h⟩
  · exact List.mem_of_find?_eq_some h
  · exact List.mem_of_head? h

theorem description_ofMentions (hms : ∀ m ∈ ms, m.key = key)
    (h : ms.find? Mention.hasDefault = none) :
    (ParamDoc.ofMentions key ms).description = key.2 := by
  rw [ParamDoc.ofMentions]
  cases htold : describing? ms with
  | none => rfl
  | some m =>
    have hm := mem_of_describing? htold
    have hdefault : m.hasDefault = false := by simpa using List.find?_eq_none.1 h m hm
    exact (Mention.text_of_not_hasDefault hdefault).trans (congrArg Prod.snd (hms m hm))

theorem isPlain_ofMentions (hms : ∀ m ∈ ms, m.key = key) :
    (ParamDoc.ofMentions key ms).isPlain = (ms.find? Mention.hasDefault).isNone := by
  rw [ParamDoc.isPlain]
  cases hfind : ms.find? Mention.hasDefault with
  | none =>
    rw [description_ofMentions hms hfind]
    simp [ParamDoc.ofMentions]
  | some m =>
    have htext := Mention.text_of_hasDefault (List.find?_some hfind)
    have hname : m.name = key.2 := congrArg Prod.snd (hms m (List.mem_of_find?_eq_some hfind))
    simp [ParamDoc.ofMentions, describing?, hfind, htext, ← hname]

theorem describing?_concat (hne : ms ≠ []) (m : Mention) :
    describing? (ms ++ [m]) =
      if (ms.find? Mention.hasDefault).isNone && m.hasDefault then some m else describing? ms := by
  obtain ⟨first, hfirst⟩ := Option.isSome_iff_exists.1 (List.isSome_head?.2 hne)
  rw [describing?, describing?, List.find?_append, List.head?_append, hfirst]
  cases ms.find? Mention.hasDefault with
  | none => cases h : m.hasDefault <;> simp [h]
  | some told => simp

theorem find?_type_concat (types : List String) (type : String) :
    ((types ++ [type]).find? (· ≠ "string")).getD "string" =
      if (types.find? (· ≠ "string")).getD "string" = "string" && type ≠ "string" then type
      else (types.find? (· ≠ "string")).getD "string" := by
  rw [List.find?_append]
  cases hfind : types.find? (· ≠ "string") with
  | none => by_cases h : type = "string" <;> simp [h]
  | some other =>
    have hother : other ≠ "string" := by simpa using List.find?_some hfind
    simp [hother]

/-- One more mention refines what the mentions before it say. -/
theorem refine_ofMentions (hne : ms ≠ []) (hms : ∀ m ∈ ms, m.key = key) (m : Mention) :
    refine (.ofMentions key ms) m.doc = .ofMentions key (ms ++ [m]) := by
  have htype : (ParamDoc.ofMentions key (ms ++ [m])).type =
      if (ParamDoc.ofMentions key ms).type = "string" && m.doc.type ≠ "string" then m.doc.type
      else (ParamDoc.ofMentions key ms).type := by
    simp only [ParamDoc.ofMentions, List.map_append, List.map_cons, List.map_nil]
    exact find?_type_concat _ _
  have htold := describing?_concat hne m
  rw [refine_eq, isPlain_ofMentions hms, m.isPlain_doc, Bool.not_not, ← htype]
  by_cases hdefault : (ms.find? Mention.hasDefault).isNone && m.hasDefault
  · rw [if_pos hdefault] at htold
    simp only [if_pos hdefault, ParamDoc.ofMentions, htold]
    rfl
  · rw [if_neg hdefault] at htold
    simp only [if_neg hdefault, ParamDoc.ofMentions, htold]

theorem ofMentions_singleton (m : Mention) : ParamDoc.ofMentions m.key [m] = m.doc := by
  have htold : describing? [m] = some m := by
    rw [describing?]
    cases h : m.hasDefault <;> simp [h]
  rw [ParamDoc.ofMentions, htold, Mention.doc]
  by_cases h : m.shape.documented = "string" <;> simp [h, Mention.key]

end OfMentions

section Params

variable (ms : List Mention) (m : Mention)

theorem filter_key_concat_self :
    (ms ++ [m]).filter (·.key = m.key) = ms.filter (·.key = m.key) ++ [m] := by
  simp

theorem filter_key_concat_ne {key : ParamKind × String} (h : key ≠ m.key) :
    (ms ++ [m]).filter (·.key = key) = ms.filter (·.key = key) := by
  simp [Ne.symm h]

theorem map_key_paramsOf : (paramsOf ms).map ParamDoc.key = (ms.map Mention.key).eraseDups := by
  rw [paramsOf, List.map_map]
  exact List.map_id _

/-- Every mention is either the first of its parameter or refines what is there. -/
theorem putParam_paramsOf : putParam m.doc (paramsOf ms) = paramsOf (ms ++ [m]) := by
  have hkeys : ((ms ++ [m]).map Mention.key).eraseDups =
      if m.key ∈ ms.map Mention.key then (ms.map Mention.key).eraseDups
      else (ms.map Mention.key).eraseDups ++ [m.key] := by
    rw [List.map_append, List.map_singleton, eraseDups_concat]
  by_cases hm : m.key ∈ ms.map Mention.key
  · have hmem : m.doc.key ∈ (ms.map Mention.key).eraseDups := List.mem_eraseDups.2 hm
    rw [paramsOf, putParam_map_of_mem (nodup_eraseDups _) (fun _ ↦ rfl) hmem, paramsOf, hkeys,
      if_pos hm]
    apply List.map_congr_left
    intro key _
    by_cases hkey : key = m.key
    · subst hkey
      obtain ⟨first, hfirst, hsame⟩ := List.mem_map.1 hm
      have hne : ms.filter (·.key = m.key) ≠ [] :=
        List.ne_nil_of_mem (List.mem_filter.2 ⟨hfirst, decide_eq_true hsame⟩)
      rw [m.key_doc, if_pos rfl, filter_key_concat_self]
      apply refine_ofMentions hne
      intro other hother
      simpa using (List.mem_filter.1 hother).2
    · rw [m.key_doc, if_neg hkey, filter_key_concat_ne ms m hkey]
  · have hnew : m.doc.key ∉ (paramsOf ms).map ParamDoc.key := by
      rwa [map_key_paramsOf, List.mem_eraseDups]
    have hnone : ms.filter (·.key = m.key) = [] := by
      apply List.filter_eq_nil_iff.2
      intro other hother hsame
      exact hm (List.mem_map.2 ⟨other, hother, by simpa using hsame⟩)
    rw [putParam_of_new hnew, paramsOf, paramsOf, hkeys, if_neg hm, List.map_append,
      List.map_singleton, filter_key_concat_self, hnone, List.nil_append, ofMentions_singleton]
    congr 1
    apply List.map_congr_left
    intro key hkey
    have hne : key ≠ m.key := fun heq ↦ hm (List.mem_eraseDups.1 (heq ▸ hkey))
    rw [filter_key_concat_ne ms m hne]

end Params

section Responses

variable (answers : List (ℕ × Shape)) (status : ℕ) (shape : Shape)

theorem isSome_lookup {answers : List (ℕ × Shape)} {status : ℕ}
    (h : status ∈ (answers.map Prod.fst).eraseDups) : (answers.lookup status).isSome := by
  obtain ⟨answer, hanswer, rfl⟩ := List.mem_map.1 (List.mem_eraseDups.1 h)
  exact List.lookup_isSome_iff.2 ⟨answer, hanswer, beq_self_eq_true _⟩

theorem map_status_responsesOf :
    (responsesOf answers).map ResponseDoc.status = (answers.map Prod.fst).eraseDups := by
  rw [responsesOf, List.map_filterMap]
  refine (List.filterMap_congr fun status hstatus ↦ ?_).trans List.filterMap_some
  obtain ⟨shape, hshape⟩ := Option.isSome_iff_exists.1 (isSome_lookup hstatus)
  rw [hshape]
  exact congrArg some (status_ofShape status shape)

theorem responsesOf_concat : responsesOf (answers ++ [(status, shape)]) =
    if status ∈ answers.map Prod.fst then responsesOf answers
    else responsesOf answers ++ [.ofShape status shape] := by
  have hkept : (answers.map Prod.fst).eraseDups.filterMap (fun other ↦
      ((answers ++ [(status, shape)]).lookup other).map (ResponseDoc.ofShape other)) =
      responsesOf answers := by
    apply List.filterMap_congr
    intro other hother
    rw [List.lookup_append, Option.or_of_isSome (isSome_lookup hother)]
  rw [responsesOf, List.map_append, List.map_singleton, eraseDups_concat]
  split
  · exact hkept
  · rename_i hnew
    have hlookup : answers.lookup status = none := by
      apply List.lookup_eq_none_iff.2
      intro answer hanswer
      have hne : status ≠ answer.1 := fun heq ↦ hnew (List.mem_map.2 ⟨answer, hanswer, heq.symm⟩)
      simpa using hne
    rw [List.filterMap_append, hkept, List.filterMap_cons_some (b := .ofShape status shape)]
    · rfl
    · rw [List.lookup_append, hlookup]
      simp

theorem responses_addResponse {d : EndpointDoc} (h : d.responses = responsesOf answers) :
    (d.addResponse (.ofShape status shape)).responses =
      responsesOf (answers ++ [(status, shape)]) := by
  have hstatus : (ResponseDoc.ofShape status shape).status ∈ d.responses.map ResponseDoc.status ↔
      status ∈ answers.map Prod.fst := by
    rw [h, map_status_responsesOf, status_ofShape, List.mem_eraseDups]
  rw [responsesOf_concat]
  split
  · rename_i hmem
    rw [addResponse_of_mem (hstatus.2 hmem), h]
  · rename_i hnew
    rw [addResponse_of_new (hnew ∘ hstatus.1), h]

end Responses

theorem params_foldl_emit (facts : List Fact) :
    (facts.foldl emit empty).params = paramsOf (facts.filterMap Fact.mention?) := by
  induction facts using List.reverseRecOn with
  | nil => rfl
  | append_singleton facts fact ih =>
    rw [List.foldl_concat, List.filterMap_append]
    cases fact with
    | param kind name shape required default =>
      have hput := putParam_paramsOf (facts.filterMap Fact.mention?)
        ⟨kind, name, shape, required, default⟩
      rw [← ih] at hput
      exact hput
    | accept | produce => exact ih.trans (congrArg paramsOf (List.append_nil _).symm)
    | response =>
      rw [emit, addResponse_eq]
      exact ih.trans (congrArg paramsOf (List.append_nil _).symm)

theorem responses_foldl_emit (facts : List Fact) :
    (facts.foldl emit empty).responses = responsesOf (facts.filterMap Fact.answer?) := by
  induction facts using List.reverseRecOn with
  | nil => rfl
  | append_singleton facts fact ih =>
    rw [List.foldl_concat, List.filterMap_append]
    cases fact with
    | response status shape => exact responses_addResponse _ status shape ih
    | param | accept | produce => exact ih.trans (congrArg responsesOf (List.append_nil _).symm)

/-- Emitting facts one after the other gives what can be read off their list as a whole, with every
parameter and every status once. -/
theorem facts_accumulate (facts : List Fact) :
    let doc := facts.foldl emit empty
    doc = accumulated facts ∧ (doc.params.map ParamDoc.key).Nodup ∧
      (doc.responses.map ResponseDoc.status).Nodup := by
  intro doc
  refine ⟨?_, ?_, ?_⟩
  · calc
      doc = { doc.frame with
              accept := doc.accept, produce := doc.produce
              params := doc.params, responses := doc.responses } := rfl
      _ = accumulated facts := by
        rw [frame_foldl_emit, accept_foldl_emit, produce_foldl_emit, params_foldl_emit,
          responses_foldl_emit]
        rfl
  · rw [params_foldl_emit, map_key_paramsOf]
    exact nodup_eraseDups _
  · rw [responses_foldl_emit, map_status_responsesOf]
    exact nodup_eraseDups _

end EndpointDoc

end HandlerDocs
