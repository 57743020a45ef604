import PeerBridge.Lib.Blind
import PeerBridge.Imports.Export
import PeerBridge.Scenario

namespace PeerBridge.ConversationImport
open Checked Rows

variable (T : Toolkit)

section Masks

-- what the parsers compare a type or a role with
def markerWords : List String :=
  hiddenKinds ++ ["session_meta", "user_message", "agent_message", "assistant_message",
    "response_item", "message"] ++ roleAliases.map Prod.fst

/-- str() of a list or a dict is none of the words the parsers look for. -/
structure Toolkit.Plain : Prop where
  blank : T.lower "" = ""
  user : T.lower "user" = "user"
  items : ∀ items, T.lower (strip (T.repr (.arr items))) ∉ markerWords
  fields : ∀ fields, T.lower (strip (T.repr (.obj fields))) ∉ markerWords

def Toolkit.word (v : Json) : String := T.lower (strip (T.textOf v))

def Hidden (v : Json) : Prop := T.kindOf v ∈ hiddenKinds

instance (v : Json) : Decidable (Hidden T v) := inferInstanceAs (Decidable (_ ∈ _))

mutual
def masked : Json → Json
  | .arr items => .arr (maskedItems items)
  | .obj fields =>
    .obj (if Hidden T (.obj fields) then (maskedFields fields).filter (fun f => f.1 ∉ textKeys)
      else maskedFields fields)
  | .null => .null
  | .bool b => .bool b
  | .int n => .int n
  | .real q => .real q
  | .str t => .str t
  | .sha d => .sha d
  | .utc t => .utc t
def maskedItems : List Json → List Json
  | [] => []
  | v :: vs => masked v :: maskedItems vs
def maskedFields : List (String × Json) → List (String × Json)
  | [] => []
  | (k, v) :: fs => (k, masked v) :: maskedFields fs
end

def contentKeys : List String := "payload" :: textKeys

/-- A message row without the texts of its hidden objects. -/
def maskRow : Json → Json
  | .obj fields =>
    let inner := fields.map (fun f => (f.1, if f.1 ∈ contentKeys then masked T f.2 else f.2))
    .obj (if Hidden T (.obj fields) then inner.filter (fun f => f.1 ∉ textKeys) else inner)
  | v => v

def maskNode : Json → Json
  | .obj fields => .obj (fields.map (fun f => (f.1, if f.1 = "message" then maskRow T f.2 else f.2)))
  | v => v

def maskMapping : Json → Json
  | .obj nodes => .obj (nodes.map (fun n => (n.1, maskNode T n.2)))
  | v => v

def maskMessages : Json → Json
  | .arr rows => .arr (rows.map (maskRow T))
  | v => v

def maskConversation : Json → Json
  | .obj fields =>
    .obj (fields.map (fun f => (f.1, if f.1 = "mapping" then maskMapping T f.2
      else if f.1 = "messages" then maskMessages T f.2 else f.2)))
  | v => v

end Masks

section Members
variable {T}
variable {v : Json} {key : String} {fields : List (String × Json)}

theorem maskedFields_eq (fs : List (String × Json)) :
    maskedFields T fs = fs.map (fun f => (f.1, masked T f.2)) := by
  induction fs with
  | nil => rfl
  | cons f fs ih =>
    change (f.1, masked T f.2) :: maskedFields T fs = _
    rw [ih, List.map_cons]

theorem maskedItems_eq (vs : List Json) : maskedItems T vs = vs.map (masked T) := by
  induction vs with
  | nil => rfl
  | cons v vs ih =>
    change masked T v :: maskedItems T vs = _
    rw [ih, List.map_cons]

theorem item_obj (key : String) (fields : List (String × Json)) :
    (Json.obj fields).item key = ((lookup Prod.fst key fields).map Prod.snd).getD .null := rfl

theorem item_of_not_obj (h : v.isObj = false) (key : String) : v.item key = .null := by
  cases v with
  | obj fields => cases h
  | _ => rfl

theorem lookup_members (g : String → Json → Json) (key : String) (fs : List (String × Json)) :
    lookup Prod.fst key (fs.map (fun f => (f.1, g f.1 f.2))) =
      (lookup Prod.fst key fs).map (fun f => (f.1, g f.1 f.2)) :=
  lookup_map (f := fun f : String × Json => (f.1, g f.1 f.2)) (fun _ => rfl) key fs

theorem item_map (g : String → Json → Json) (hg : g key .null = .null) :
    (Json.obj (fields.map (fun f => (f.1, g f.1 f.2)))).item key =
      g key ((Json.obj fields).item key) := by
  rw [item_obj, item_obj, lookup_members]
  cases hf : lookup Prod.fst key fields with
  | none => exact hg.symm
  | some f => rw [← lookup_key hf]; rfl

theorem lookup_filter (p : String → Bool) (key : String) (fs : List (String × Json)) :
    lookup Prod.fst key (fs.filter (fun f => p f.1)) =
      if p key then lookup Prod.fst key fs else none := by
  induction fs with
  | nil => simp [lookup]
  | cons f fs ih =>
    by_cases hf : f.1 = key
    · by_cases hp : p key = true
      · rw [if_pos hp] at ih ⊢
        rw [List.filter_cons_of_pos (by rw [hf]; exact hp)]
        simp [lookup, hf]
      · rw [if_neg hp] at ih ⊢
        rw [List.filter_cons_of_neg (by rw [hf]; exact hp)]
        exact ih
    · have hcons : lookup Prod.fst key (f :: fs) = lookup Prod.fst key fs := by simp [lookup, hf]
      rw [hcons, ← ih]
      by_cases hp : p f.1 = true
      · simp [lookup, hf, hp]
      · simp [hp]

theorem item_filter (key : String) (fs : List (String × Json)) :
    (Json.obj (fs.filter (fun f => f.1 ∉ textKeys))).item key =
      if key ∈ textKeys then .null else (Json.obj fs).item key := by
  rw [item_obj, item_obj, lookup_filter (fun k => decide (k ∉ textKeys))]
  by_cases hk : key ∈ textKeys <;> simp [hk]

theorem masked_isObj (v : Json) : (masked T v).isObj = v.isObj := by
  cases v <;> rfl

theorem maskRow_isObj (v : Json) : (maskRow T v).isObj = v.isObj := by
  cases v <;> rfl

theorem masked_null : masked T .null = .null := rfl

theorem masked_item (v : Json) (key : String) :
    (masked T v).item key =
      if Hidden T v ∧ key ∈ textKeys then .null else masked T (v.item key) := by
  cases hv : v.isObj with
  | false =>
    rw [item_of_not_obj ((masked_isObj v).trans hv), item_of_not_obj hv, masked_null, ite_self]
  | true =>
    cases v with
    | obj fields =>
      have hmap : (Json.obj (maskedFields T fields)).item key =
          masked T ((Json.obj fields).item key) := by
        rw [maskedFields_eq]
        exact item_map (fun _ => masked T) masked_null
      change (Json.obj (if Hidden T (.obj fields) then
        (maskedFields T fields).filter (fun f => f.1 ∉ textKeys) else _)).item key = _
      by_cases hh : Hidden T (.obj fields)
      · rw [if_pos hh, item_filter, hmap]
        simp only [hh, true_and]
      · rw [if_neg hh, hmap]
        simp only [hh, false_and, if_false]
    | _ => cases hv

theorem maskRow_item (v : Json) (key : String) :
    (maskRow T v).item key =
      if Hidden T v ∧ key ∈ textKeys then .null
      else if key ∈ contentKeys then masked T (v.item key) else v.item key := by
  cases hv : v.isObj with
  | false =>
    rw [item_of_not_obj ((maskRow_isObj v).trans hv), item_of_not_obj hv, masked_null, ite_self,
      ite_self]
  | true =>
    cases v with
    | obj fields =>
      have hmap : (Json.obj (fields.map
          (fun f => (f.1, if f.1 ∈ contentKeys then masked T f.2 else f.2)))).item key =
            if key ∈ contentKeys then masked T ((Json.obj fields).item key)
            else (Json.obj fields).item key :=
        item_map (fun k x => if k ∈ contentKeys then masked T x else x)
          (by rw [masked_null, ite_self])
      change (Json.obj (if Hidden T (.obj fields) then List.filter _ _ else _)).item key = _
      by_cases hh : Hidden T (.obj fields)
      · rw [if_pos hh, item_filter, hmap]
        simp only [hh, true_and]
      · rw [if_neg hh, hmap]
        simp only [hh, false_and, if_false]
    | _ => cases hv

theorem field_textOf (key : String) (v : Json) : T.field key v = T.textOf (v.item key) := by
  rw [JsonReader.field, Toolkit.textOf, Json.item]
  cases v.get? key <;> simp [Json.truthy]

theorem kindOf_word (v : Json) : T.kindOf v = T.word (v.item "type") := by
  rw [Toolkit.kindOf, field_textOf, Toolkit.word]

theorem kindOf_maskRow (v : Json) : T.kindOf (maskRow T v) = T.kindOf v := by
  rw [kindOf_word, kindOf_word, maskRow_item, if_neg (by simp [textKeys]), if_neg (by decide)]

theorem visibleText_hidden (h : Hidden T (.obj fields)) : visibleText T (.obj fields) = "" := by
  rw [visibleText]
  exact if_pos h

theorem visibleText_shown (h : ¬ Hidden T (.obj fields)) : visibleText T (.obj fields) =
    ((textKeys.filterMap (fun key =>
      (lookup Prod.fst key (fieldTexts T fields)).map Prod.snd)).find? (· ≠ "")).getD "" := by
  rw [visibleText]
  exact if_neg h

end Members

section Texts
variable {T} (hT : T.Plain)
include hT

theorem hidden_type {v : Json} (h : Hidden T v) : (v.item "type").truthy = true := by
  by_contra ht
  rw [Hidden, kindOf_word, Toolkit.word, Toolkit.textOf, if_neg ht,
    show strip "" = "" by decide, hT.blank] at h
  exact absurd h (by decide)

theorem masked_truthy : ∀ v : Json, (masked T v).truthy = v.truthy
  | .arr items => by
    rw [masked, maskedItems_eq]
    cases items <;> rfl
  | .obj fields => by
    by_cases hh : Hidden T (.obj fields)
    · have ht := hidden_type hT hh
      have hne : ((maskedFields T fields).filter (fun f => f.1 ∉ textKeys)) ≠ [] := by
        intro hnil
        have hitem := masked_item (T := T) (.obj fields) "type"
        rw [if_neg (by simp [textKeys]), masked, if_pos hh, hnil] at hitem
        cases hf : (Json.obj fields).item "type" with
        | null => rw [hf] at ht; cases ht
        | _ => rw [hf] at hitem; simp [masked, item_obj, lookup] at hitem
      have hfields : fields ≠ [] := by
        rintro rfl
        exact hne rfl
      rw [masked, if_pos hh, Json.truthy, Json.truthy, List.isEmpty_eq_false_iff.mpr hne,
        List.isEmpty_eq_false_iff.mpr hfields]
    · rw [masked, if_neg hh, maskedFields_eq]
      cases fields <;> rfl
  | .null => rfl
  | .bool b => rfl
  | .int n => rfl
  | .real q => rfl
  | .str t => rfl
  | .sha d => rfl
  | .utc t => rfl

/-- A masked value is the same word, or neither is a word the parsers look for. -/
theorem word_masked (v : Json) :
    T.word (masked T v) = T.word v ∨
      T.word (masked T v) ∉ markerWords ∧ T.word v ∉ markerWords := by
  cases ht : v.truthy with
  | false =>
    left
    rw [Toolkit.word, Toolkit.word, Toolkit.textOf, Toolkit.textOf, masked_truthy hT, ht]
    rfl
  | true =>
    have ht' := (masked_truthy hT v).trans ht
    cases v with
    | arr items =>
      right
      rw [masked] at ht' ⊢
      rw [Toolkit.word, Toolkit.word, Toolkit.textOf, Toolkit.textOf, if_pos ht, if_pos ht']
      exact ⟨hT.items _, hT.items _⟩
    | obj fields =>
      right
      rw [masked] at ht' ⊢
      rw [Toolkit.word, Toolkit.word, Toolkit.textOf, Toolkit.textOf, if_pos ht, if_pos ht']
      exact ⟨hT.fields _, hT.fields _⟩
    | _ => exact .inl (by rw [masked])

theorem word_masked_iff (v : Json) {w : String} (hw : w ∈ markerWords) :
    T.word (masked T v) = w ↔ T.word v = w := by
  rcases word_masked hT v with h | ⟨h1, h2⟩
  · rw [h]
  · exact iff_of_false (fun h => h1 (h ▸ hw)) (fun h => h2 (h ▸ hw))

theorem kindOf_masked (v : Json) {w : String} (hw : w ∈ markerWords) :
    T.kindOf (masked T v) = w ↔ T.kindOf v = w := by
  rw [kindOf_word, kindOf_word, masked_item, if_neg (by simp [textKeys])]
  exact word_masked_iff hT _ hw

theorem hidden_masked (v : Json) : Hidden T (masked T v) ↔ Hidden T v := by
  have hmem : ∀ w ∈ hiddenKinds, w ∈ markerWords := fun w hw =>
    List.mem_append_left _ (List.mem_append_left _ hw)
  constructor
  · intro h
    have := (kindOf_masked hT v (hmem _ h)).mp rfl
    rw [Hidden, this]
    exact h
  · intro h
    have := (kindOf_masked hT v (hmem _ h)).mpr rfl
    rw [Hidden, this]
    exact h

theorem roleOf_masked (v : Json) : roleOf T (masked T v) = roleOf T v := by
  change (lookup Prod.fst (T.word (masked T v)) roleAliases).map Prod.snd =
    (lookup Prod.fst (T.word v) roleAliases).map Prod.snd
  rcases word_masked hT v with h | ⟨h1, h2⟩
  · rw [h]
  · have hnone : ∀ w, w ∉ markerWords → lookup Prod.fst w roleAliases = none := by
      intro w hw
      rw [lookup_eq_none]
      rintro a ha rfl
      exact hw (List.mem_append_right _ (List.mem_map.mpr ⟨a, ha, rfl⟩))
    rw [hnone _ h1, hnone _ h2]

end Texts

section Visible
variable {T}

mutual
theorem visibleText_masked (hT : T.Plain) : ∀ v, visibleText T (masked T v) = visibleText T v
  | .arr items => by rw [masked, visibleText, visibleText, visibleTexts_masked hT items]
  | .obj fields => by
    by_cases hh : Hidden T (.obj fields)
    · have hh' := (hidden_masked hT (.obj fields)).mpr hh
      rw [masked] at hh' ⊢
      rw [visibleText_hidden hh', visibleText_hidden hh]
    · have hh' := mt (hidden_masked hT (.obj fields)).mp hh
      rw [masked] at hh' ⊢
      rw [visibleText_shown hh', visibleText_shown hh, if_neg hh, fieldTexts_masked hT fields]
  | .null => by rw [masked]
  | .bool b => by rw [masked]
  | .int n => by rw [masked]
  | .real q => by rw [masked]
  | .str t => by rw [masked]
  | .sha d => by rw [masked]
  | .utc t => by rw [masked]
theorem visibleTexts_masked (hT : T.Plain) :
    ∀ vs, visibleTexts T (maskedItems T vs) = visibleTexts T vs
  | [] => rfl
  | v :: vs => by
    rw [maskedItems, visibleTexts, visibleTexts, visibleText_masked hT v,
      visibleTexts_masked hT vs]
theorem fieldTexts_masked (hT : T.Plain) : ∀ fs, fieldTexts T (maskedFields T fs) = fieldTexts T fs
  | [] => rfl
  | (k, v) :: fs => by
    rw [maskedFields, fieldTexts, fieldTexts, visibleText_masked hT v, fieldTexts_masked hT fs]
end

theorem plainText_masked (hT : T.Plain) (v : Json) :
    plainText T (masked T v) = plainText T v := by
  rw [plainText, plainText, visibleText_masked hT]

theorem plainText_null : plainText T .null = "" := by
  have hnull : visibleText T .null = "" := by simp [visibleText]
  rw [plainText, hnull]
  decide

end Visible

section Transcripts

def heard (m : VisibleMessage) : Role × String := (m.role, m.text)

def said (role : Option Role) (text : String) : Option (Role × String) :=
  match role with
  | some r =>
    if (r = .user ∨ r = .assistant) ∧ text ≠ "" then
      some (r, T.redactSecrets (clip maxTextChars text))
    else none
  | none => none

def saidBy (spoken : Option (Json × Json)) : Option (Role × String) :=
  spoken.bind (fun s => said T (roleOf T s.1) (plainText T s.2))

def transcript (conversations : List RawConversation) : List (Role × String) :=
  conversations.flatMap (fun c => c.messages.map heard)

-- role and content of a row, as its parser picks them
def codexSpoken (raw : Json) : Option (Json × Json) :=
  if raw.isObj = false then none
  else
    let payload := raw.innerOr "payload" raw
    let outerType := T.kindOf raw
    let innerType := T.kindOf payload
    if outerType = "session_meta" ∨ innerType = "session_meta" then none
    else if innerType = "user_message" then some (.str "user", payload.item "message")
    else if innerType = "agent_message" ∨ innerType = "assistant_message" then
      some (.str "assistant", payload.item "message")
    else if outerType = "response_item" ∧ innerType ≠ "message" then none
    else some (payload.item "role", payload.item "content")

def skippedKinds : List String := ["summary", "file-history-snapshot", "progress"]

def claudeSpoken (raw : Json) : Option (Json × Json) :=
  if raw.isObj = false ∨ T.kindOf raw ∈ skippedKinds then none
  else
    let inner := raw.innerOr "message" raw
    some ((inner.item "role").orElse (.str (T.kindOf raw)),
      (inner.item "content").orElse (raw.item "content"))

def chatgptSpoken (node : Json) : Option (Json × Json) :=
  let raw := node.item "message"
  if raw.isObj then some ((raw.innerOr "author" (.obj [])).item "role", raw.item "content")
  else none

def genericSpoken (raw : Json) : Option (Json × Json) :=
  if raw.isObj = false then none
  else
    let author := raw.innerOr "author" (.obj [])
    let nested := raw.innerOr "message" (.obj [])
    some ((((raw.item "role").orElse (author.item "role")).orElse (nested.item "role")).orElse
        (raw.item "type"),
      (((raw.item "content").orElse (nested.item "content")).orElse (raw.item "message")).orElse
        (raw.item "text"))

variable {T}

theorem message_heard (role content messageId createdUtc : Json) :
    (message T role content messageId createdUtc).map heard =
      said T (roleOf T role) (plainText T content) := by
  unfold message said
  cases roleOf T role with
  | none => rfl
  | some r =>
    dsimp only
    by_cases hr : r = .user ∨ r = .assistant
    · have hr' : ¬ (r ≠ .user ∧ r ≠ .assistant) := by tauto
      by_cases ht : plainText T content = ""
      · simp [ht]
      · simp only [hr', ht, or_self, if_false, hr, ne_eq, not_false_iff, and_self, if_true]
        rfl
    · have hr' : r ≠ .user ∧ r ≠ .assistant := by tauto
      rw [if_pos (.inl hr'), if_neg (fun h => hr h.1)]
      rfl

theorem heard_append (ms : List VisibleMessage) (role content messageId createdUtc : Json) :
    (ms ++ (message T role content messageId createdUtc).toList).map heard =
      ms.map heard ++ (saidBy T (some (role, content))).toList := by
  rw [List.map_append, saidBy, Option.bind_some, ← message_heard _ _ messageId createdUtc]
  cases message T role content messageId createdUtc <;> rfl

theorem codexStep_heard (k : CodexScan) (raw : Json) :
    (CodexScan.step T k raw).messages.map heard =
      k.messages.map heard ++ (saidBy T (codexSpoken T raw)).toList := by
  unfold CodexScan.step codexSpoken
  by_cases hobj : raw.isObj = false
  · simp [hobj, saidBy]
  · simp only [if_neg hobj]
    generalize (if T.kindOf (raw.innerOr "payload" raw) = "user_message" then _ else _) = spoken
    by_cases hmeta : T.kindOf raw = "session_meta" ∨
        T.kindOf (raw.innerOr "payload" raw) = "session_meta"
    · rw [if_pos hmeta, if_pos hmeta]
      simp [saidBy]
    · rw [if_neg hmeta, if_neg hmeta]
      cases spoken with
      | none => simp [saidBy]
      | some s => exact heard_append _ _ _ _ _

theorem codexRows_transcript (rows : List Json) :
    transcript (codexRows T rows) = rows.filterMap (fun raw => saidBy T (codexSpoken T raw)) := by
  have hfold : ∀ (rows : List Json) (k : CodexScan),
      (rows.foldl (CodexScan.step T) k).messages.map heard =
        k.messages.map heard ++ rows.filterMap (fun raw => saidBy T (codexSpoken T raw)) := by
    intro rows
    induction rows with
    | nil => intro k; simp
    | cons raw rows ih =>
      intro k
      rw [List.foldl_cons, ih, codexStep_heard, List.append_assoc, List.filterMap_cons]
      cases saidBy T (codexSpoken T raw) <;> rfl
  have hall := hfold rows {}
  rw [codexRows]
  by_cases hm : (rows.foldl (CodexScan.step T) {}).messages = []
  · rw [if_pos hm]
    rw [hm] at hall
    simpa [transcript] using hall
  · rw [if_neg hm]
    simpa [transcript] using hall

theorem chatgptNode_heard (node : Json) :
    (chatgptNode T node).map heard = saidBy T (chatgptSpoken node) := by
  unfold chatgptNode chatgptSpoken
  by_cases hobj : (node.item "message").isObj = true
  · simp only [if_pos hobj, message_heard]
    rfl
  · simp only [if_neg hobj]
    rfl

theorem genericMessage_heard (raw : Json) :
    (genericMessage T raw).map heard = saidBy T (genericSpoken raw) := by
  unfold genericMessage genericSpoken
  by_cases hobj : raw.isObj = false
  · simp only [if_pos hobj]
    rfl
  · simp only [if_neg hobj, message_heard]
    rfl

theorem filterMap_heard {f : Json → Option VisibleMessage} {g : Json → Option (Json × Json)}
    (h : ∀ v, (f v).map heard = saidBy T (g v)) (vs : List Json) :
    (vs.filterMap f).map heard = vs.filterMap (fun v => saidBy T (g v)) := by
  rw [List.map_filterMap]
  exact List.filterMap_congr fun v _ => h v

def chatgptSaid (T : Toolkit) (value : Json) : List (Role × String) :=
  (value.item "mapping").values.filterMap (fun node => saidBy T (chatgptSpoken node))

def messagesSaid (T : Toolkit) (value : Json) : List (Role × String) :=
  ((value.item "messages").items?.getD []).filterMap (fun raw => saidBy T (genericSpoken raw))

theorem chatgptMapping_transcript (value : Json) (p : Provider) :
    transcript (chatgptMapping T value p).toList = chatgptSaid T value := by
  rw [chatgptSaid, ← filterMap_heard chatgptNode_heard]
  unfold chatgptMapping
  by_cases hobj : (value.item "mapping").isObj = false
  · rw [if_pos hobj]
    cases hm : value.item "mapping" with
    | obj fields =>
      rw [hm] at hobj
      cases hobj
    | _ => rfl
  · rw [if_neg hobj]
    dsimp only
    by_cases hm : (value.item "mapping").values.filterMap (chatgptNode T) = []
    · rw [if_pos hm, hm]
      rfl
    · rw [if_neg hm]
      simp [transcript]

theorem chatgptMapping_none (value : Json) (p : Provider) :
    chatgptMapping T value p = none ↔ chatgptSaid T value = [] := by
  rw [← chatgptMapping_transcript value p]
  unfold chatgptMapping
  by_cases hobj : (value.item "mapping").isObj = false
  · simp [hobj, transcript]
  · rw [if_neg hobj]
    dsimp only
    by_cases hm : (value.item "mapping").values.filterMap (chatgptNode T) = []
    · rw [if_pos hm]
      simp [transcript]
    · rw [if_neg hm]
      simp [transcript, hm]

theorem genericConversation_transcript (value : Json) (p : Provider) :
    transcript (genericConversation T value p).toList =
      if chatgptSaid T value = [] then messagesSaid T value else chatgptSaid T value := by
  unfold genericConversation
  by_cases hc : chatgptSaid T value = []
  · rw [if_pos hc, (chatgptMapping_none value p).mpr hc, messagesSaid,
      ← filterMap_heard genericMessage_heard]
    dsimp only
    cases (value.item "messages").items? with
    | none => rfl
    | some raws =>
      dsimp only [Option.getD_some]
      by_cases hm : raws.filterMap (genericMessage T) = []
      · rw [if_pos hm, hm]
        rfl
      · rw [if_neg hm]
        simp [transcript]
  · rw [if_neg hc, ← chatgptMapping_transcript value p]
    cases hm : chatgptMapping T value p with
    | none => exact absurd ((chatgptMapping_none value p).mp hm) hc
    | some raw => rfl

end Transcripts

section Groups
variable {α β : Type} {T}

theorem addTo_cons (identifier : String) (x : α) (g : String × List α)
    (groups : List (String × List α)) : addTo identifier x (g :: groups) =
      if g.1 = identifier then (identifier, g.2 ++ [x]) :: groups
      else g :: addTo identifier x groups := by
  by_cases h : g.1 = identifier <;> simp [addTo, upsert, lookup, h]

def groupOf (said : List (String × α)) (groups : List (String × List α)) :
    List (String × List α) :=
  said.foldl (fun groups s => addTo s.1 s.2 groups) groups

theorem addTo_map (f : α → β) (identifier : String) (x : α) (groups : List (String × List α)) :
    (addTo identifier x groups).map (fun g => (g.1, g.2.map f)) =
      addTo identifier (f x) (groups.map (fun g => (g.1, g.2.map f))) := by
  induction groups with
  | nil => simp [addTo, upsert, lookup]
  | cons g groups ih =>
    rw [addTo_cons, List.map_cons, addTo_cons]
    by_cases h : g.1 = identifier <;> simp [h, ih]

theorem addTo_length (identifier : String) (x : α) (groups : List (String × List α)) :
    ((addTo identifier x groups).flatMap Prod.snd).length =
      (groups.flatMap Prod.snd).length + 1 := by
  induction groups with
  | nil => simp [addTo, upsert, lookup]
  | cons g groups ih =>
    rw [addTo_cons]
    by_cases h : g.1 = identifier
    · simp [h]
      omega
    · rw [if_neg h, List.flatMap_cons, List.flatMap_cons, List.length_append, List.length_append,
        ih]
      omega

theorem groupOf_length (said : List (String × α)) (groups : List (String × List α)) :
    ((groupOf said groups).flatMap Prod.snd).length =
      (groups.flatMap Prod.snd).length + said.length := by
  induction said generalizing groups with
  | nil => rfl
  | cons s said ih =>
    rw [groupOf, List.foldl_cons, ← groupOf, ih, addTo_length, List.length_cons]
    omega

-- a row's entry with the conversation it goes to
def claudeSaid (T : Toolkit) (raw : Json) : Option (String × Role × String) :=
  (saidBy T (claudeSpoken T raw)).map (fun e => (conversationId T raw .claude, e))

theorem claudeStep_heard (k : ClaudeScan) (raw : Json) :
    (ClaudeScan.step T k raw).grouped.map (fun g => (g.1, g.2.map heard)) =
      groupOf (claudeSaid T raw).toList (k.grouped.map (fun g => (g.1, g.2.map heard))) := by
  unfold ClaudeScan.step claudeSaid claudeSpoken
  by_cases hobj : raw.isObj = false
  · simp [hobj, saidBy, groupOf]
  · by_cases hskip : T.kindOf raw ∈ skippedKinds
    · have hskip' := hskip
      rw [skippedKinds] at hskip'
      simp only [if_neg hobj, if_pos hskip', if_pos (Or.inr hskip : _ ∨ _), saidBy, groupOf,
        Option.bind_none, Option.map_none, Option.toList_none, List.foldl_nil]
    · have hskip' := hskip
      rw [skippedKinds] at hskip'
      simp only [if_neg hobj, if_neg hskip', if_neg (not_or.mpr ⟨hobj, hskip⟩), saidBy,
        Option.bind_some]
      rw [← message_heard _ _
        ((raw.item "uuid").orElse ((raw.innerOr "message" raw).item "id"))
        ((raw.item "timestamp").orElse ((raw.innerOr "message" raw).item "timestamp"))]
      cases message T (((raw.innerOr "message" raw).item "role").orElse (.str (T.kindOf raw)))
          (((raw.innerOr "message" raw).item "content").orElse (raw.item "content"))
          ((raw.item "uuid").orElse ((raw.innerOr "message" raw).item "id"))
          ((raw.item "timestamp").orElse ((raw.innerOr "message" raw).item "timestamp")) with
      | none => rfl
      | some m => exact addTo_map heard _ m k.grouped

theorem claudeRows_transcript (rows : List Json) :
    transcript (claudeRows T rows) =
      (groupOf (rows.filterMap (claudeSaid T)) []).flatMap Prod.snd := by
  have hfold : ∀ (rows : List Json) (k : ClaudeScan),
      (rows.foldl (ClaudeScan.step T) k).grouped.map (fun g => (g.1, g.2.map heard)) =
        groupOf (rows.filterMap (claudeSaid T))
          (k.grouped.map (fun g => (g.1, g.2.map heard))) := by
    intro rows
    induction rows with
    | nil => intro k; rfl
    | cons raw rows ih =>
      intro k
      rw [List.foldl_cons, ih, claudeStep_heard, List.filterMap_cons]
      cases claudeSaid T raw <;> rfl
  have hall := hfold rows {}
  rw [List.map_nil] at hall
  rw [← hall, claudeRows, transcript]
  simp [List.flatMap_map]

theorem claudeRows_length (rows : List Json) :
    (transcript (claudeRows T rows)).length =
      (rows.filterMap (fun raw => saidBy T (claudeSpoken T raw))).length := by
  rw [claudeRows_transcript, groupOf_length]
  have hmap : ∀ rows : List Json, (rows.filterMap (claudeSaid T)).length =
      (rows.filterMap (fun raw => saidBy T (claudeSpoken T raw))).length := by
    intro rows
    induction rows with
    | nil => rfl
    | cons raw rows ih =>
      rw [List.filterMap_cons, List.filterMap_cons, claudeSaid]
      cases saidBy T (claudeSpoken T raw) with
      | none => exact ih
      | some e => exact congrArg (· + 1) ih
  rw [hmap]
  exact Nat.zero_add _

end Groups

section Exposure

def Speaks (role : Json) : Prop :=
  roleOf T role = some .user ∨ roleOf T role = some .assistant

instance (role : Json) : Decidable (Speaks T role) := inferInstanceAs (Decidable (_ ∨ _))

-- hidden payloads whose content the parser reads all the same
def CodexExposed (raw : Json) : Prop :=
  raw.isObj = true ∧ T.kindOf raw ≠ "session_meta" ∧ T.kindOf raw ≠ "response_item" ∧
    Hidden T (raw.innerOr "payload" raw) ∧ Speaks T ((raw.innerOr "payload" raw).item "role")

-- a hidden row can gain any message member
def ClaudeExposed (raw : Json) : Prop :=
  raw.isObj = true ∧ T.kindOf raw ∉ skippedKinds ∧
    (Hidden T raw ∨ (raw.item "message").isObj = true ∧ Hidden T (raw.item "message") ∧
      Speaks T (((raw.item "message").item "role").orElse (.str (T.kindOf raw))))

def ChatgptExposed (node : Json) : Prop :=
  (node.item "message").isObj = true ∧ Hidden T (node.item "message") ∧
    Speaks T (((node.item "message").innerOr "author" (.obj [])).item "role")

def givenRole (raw : Json) : Json :=
  (raw.item "role").orElse ((raw.innerOr "author" (.obj [])).item "role")

def MessageExposed (raw : Json) : Prop :=
  raw.isObj = true ∧
    if Hidden T raw then (givenRole raw).truthy = true → Speaks T (givenRole raw)
    else (raw.item "message").isObj = true ∧ Hidden T (raw.item "message") ∧
      (raw.item "content").truthy = false ∧
      Speaks T (((givenRole raw).orElse ((raw.item "message").item "role")).orElse
        (raw.item "type"))

def GenericExposed (value : Json) : Prop :=
  (∃ node ∈ (value.item "mapping").values, ChatgptExposed T node) ∨
    chatgptSaid T value = [] ∧
      ∃ raw ∈ (value.item "messages").items?.getD [], MessageExposed T raw

def explicitConversation (raw : Json) : Option String :=
  [raw, raw.innerOr "payload" raw].findSome? (explicitId conversationKeys)

/-- The conversation of the row does not depend on what is hidden in it. -/
def Identified (raw : Json) : Prop :=
  (explicitConversation raw).isSome = true ∨ ∀ w, maskRow T w = maskRow T raw → w = raw

end Exposure

section Veils
variable {T} {v w raw : Json}

/-- `w` is `v` without its hidden texts. -/
structure Veiled (T : Toolkit) (v w : Json) : Prop where
  isObj : w.isObj = v.isObj
  kind : ∀ x ∈ markerWords, T.kindOf w = x ↔ T.kindOf v = x
  role : roleOf T (w.item "role") = roleOf T (v.item "role")
  given : (w.item "role").truthy = (v.item "role").truthy
  text : ∀ key ∈ textKeys, w.item key = if Hidden T v then .null else masked T (v.item key)

theorem veiled_masked (hT : T.Plain) (v : Json) : Veiled T v (masked T v) where
  isObj := masked_isObj v
  kind x hx := kindOf_masked hT v hx
  role := by rw [masked_item, if_neg (by simp [textKeys]), roleOf_masked hT]
  given := by rw [masked_item, if_neg (by simp [textKeys]), masked_truthy hT]
  text key hk := by
    rw [masked_item]
    by_cases hh : Hidden T v <;> simp [hh, hk]

theorem veiled_row (v : Json) : Veiled T v (maskRow T v) where
  isObj := maskRow_isObj v
  kind x _ := by rw [kindOf_maskRow]
  role := by rw [maskRow_item, if_neg (by simp [textKeys]), if_neg (by decide)]
  given := by rw [maskRow_item, if_neg (by simp [textKeys]), if_neg (by decide)]
  text key hk := by
    have hk' : key ∈ contentKeys := List.mem_cons_of_mem _ hk
    rw [maskRow_item]
    by_cases hh : Hidden T v <;> simp [hh, hk, hk']

theorem maskRow_other (v : Json) {key : String} (hk : key ∉ contentKeys) :
    (maskRow T v).item key = v.item key := by
  have hk' : key ∉ textKeys := fun h => hk (List.mem_cons_of_mem _ h)
  rw [maskRow_item, if_neg (fun h => hk' h.2), if_neg hk]

theorem maskRow_payload (v : Json) : (maskRow T v).item "payload" = masked T (v.item "payload") := by
  rw [maskRow_item, if_neg (by simp [textKeys]), if_pos (by decide)]

theorem veiled_payload (hT : T.Plain) (v : Json) :
    Veiled T (v.innerOr "payload" v) ((maskRow T v).innerOr "payload" (maskRow T v)) := by
  rw [Json.innerOr, Json.innerOr, maskRow_payload, masked_isObj]
  by_cases ho : (v.item "payload").isObj = true
  · rw [if_pos ho, if_pos ho]
    exact veiled_masked hT _
  · rw [if_neg ho, if_neg ho]
    exact veiled_row v

theorem hidden_kind {x : String} (h : Hidden T v) (hx : x ∉ hiddenKinds) : T.kindOf v ≠ x :=
  fun he => hx (he ▸ h)

theorem Veiled.hidden (h : Veiled T v w) : Hidden T w ↔ Hidden T v := by
  have hmem : ∀ x ∈ hiddenKinds, x ∈ markerWords := fun x hx =>
    List.mem_append_left _ (List.mem_append_left _ hx)
  constructor
  · intro hw
    have he := (h.kind _ (hmem _ hw)).mp rfl
    rw [Hidden, he]
    exact hw
  · intro hv
    have he := (h.kind _ (hmem _ hv)).mpr rfl
    rw [Hidden, he]
    exact hv

theorem Veiled.plainText (hT : T.Plain) (h : Veiled T v w) (hv : ¬ Hidden T v) {key : String}
    (hk : key ∈ textKeys) : plainText T (w.item key) = plainText T (v.item key) := by
  rw [h.text key hk, if_neg hv, plainText_masked hT]

theorem said_unspoken {role : Json} (h : ¬ Speaks T role) (text : String) :
    said T (roleOf T role) text = none := by
  unfold said
  cases hr : roleOf T role with
  | none => rfl
  | some r =>
    dsimp only
    refine if_neg fun hs => h ?_
    rw [Speaks, hr]
    exact hs.1.imp (congrArg some) (congrArg some)

theorem said_empty (role : Option Role) : said T role "" = none := by
  cases role <;> simp [said]

theorem codexSaid_masked (hT : T.Plain) (h : ¬ CodexExposed T raw) :
    saidBy T (codexSpoken T (maskRow T raw)) = saidBy T (codexSpoken T raw) := by
  unfold codexSpoken
  rw [maskRow_isObj]
  by_cases hobj : raw.isObj = false
  · rw [if_pos hobj, if_pos hobj]
  · rw [if_neg hobj, if_neg hobj, kindOf_maskRow]
    have hp := veiled_payload hT raw
    have hexposed : T.kindOf raw ≠ "session_meta" → T.kindOf raw ≠ "response_item" →
        Hidden T (raw.innerOr "payload" raw) →
          ¬ Speaks T ((raw.innerOr "payload" raw).item "role") :=
      fun h1 h2 h3 h4 => h ⟨by simpa using hobj, h1, h2, h3, h4⟩
    generalize raw.innerOr "payload" raw = p at hp hexposed ⊢
    generalize (maskRow T raw).innerOr "payload" (maskRow T raw) = q at hp ⊢
    simp only [hp.kind "session_meta" (by decide), hp.kind "user_message" (by decide),
      hp.kind "agent_message" (by decide), hp.kind "assistant_message" (by decide), ne_eq,
      hp.kind "message" (by decide)]
    by_cases hmeta : T.kindOf raw = "session_meta" ∨ T.kindOf p = "session_meta"
    · rw [if_pos hmeta, if_pos hmeta]
    · rw [if_neg hmeta, if_neg hmeta]
      by_cases hh : Hidden T p
      · have hne {x : String} (hx : x ∉ hiddenKinds) := hidden_kind hh hx
        have hu := hne (x := "user_message") (by decide)
        have ha : ¬ (T.kindOf p = "agent_message" ∨ T.kindOf p = "assistant_message") :=
          not_or.mpr ⟨hne (by decide), hne (by decide)⟩
        have hm := hne (x := "message") (by decide)
        rw [if_neg hu, if_neg ha, if_neg hu, if_neg ha]
        by_cases hr : T.kindOf raw = "response_item" ∧ ¬ T.kindOf p = "message"
        · rw [if_pos hr, if_pos hr]
        · rw [if_neg hr, if_neg hr]
          have hs := hexposed (not_or.mp hmeta).1 (fun he => hr ⟨he, hm⟩) hh
          simp only [saidBy, Option.bind_some, hp.role, said_unspoken hs]
      · have hmessage := @Veiled.plainText _ _ _ hT hp hh "message" (by decide)
        have hcontent := @Veiled.plainText _ _ _ hT hp hh "content" (by decide)
        split
        · simp only [saidBy, Option.bind_some, hmessage]
        · split
          · simp only [saidBy, Option.bind_some, hmessage]
          · split
            · rfl
            · simp only [saidBy, Option.bind_some, hcontent, hp.role]

theorem codexExposed_masked (hT : T.Plain) (raw : Json) :
    CodexExposed T (maskRow T raw) ↔ CodexExposed T raw := by
  have hp := veiled_payload hT raw
  rw [CodexExposed, CodexExposed, maskRow_isObj, kindOf_maskRow, hp.hidden, Speaks, Speaks, hp.role]

-- values that are read alike, in a role or in a content
structure Alike (T : Toolkit) (v w : Json) : Prop where
  truthy : w.truthy = v.truthy
  role : roleOf T w = roleOf T v
  text : plainText T w = plainText T v

theorem Alike.refl (v : Json) : Alike T v v := ⟨rfl, rfl, rfl⟩

theorem alike_masked (hT : T.Plain) (v : Json) : Alike T v (masked T v) :=
  ⟨masked_truthy hT v, roleOf_masked hT v, plainText_masked hT v⟩

theorem Alike.orElse {a b c d : Json} (h₁ : Alike T a b) (h₂ : Alike T c d) :
    Alike T (a.orElse c) (b.orElse d) := by
  rw [Json.orElse, Json.orElse, h₁.truthy]
  by_cases ha : a.truthy = true
  · rw [if_pos ha, if_pos ha]
    exact h₁
  · rw [if_neg ha, if_neg ha]
    exact h₂

theorem Alike.saidBy {a b c d : Json} (h₁ : Alike T a b) (h₂ : Alike T c d) :
    saidBy T (some (b, d)) = saidBy T (some (a, c)) := by
  rw [ConversationImport.saidBy, ConversationImport.saidBy, Option.bind_some, Option.bind_some,
    h₁.role, h₂.text]

theorem maskRow_shown (hT : T.Plain) (h : ¬ Hidden T raw) (key : String) :
    Alike T (raw.item key) ((maskRow T raw).item key) := by
  rw [maskRow_item, if_neg (fun hk => h hk.1)]
  split
  · exact alike_masked hT _
  · exact .refl _

theorem masked_shown (hT : T.Plain) (h : ¬ Hidden T v) (key : String) :
    Alike T (v.item key) ((masked T v).item key) := by
  rw [masked_item, if_neg (fun hk => h hk.1)]
  exact alike_masked hT _

theorem masked_role (hT : T.Plain) (v : Json) :
    Alike T (v.item "role") ((masked T v).item "role") := by
  rw [masked_item, if_neg (by simp [textKeys])]
  exact alike_masked hT _

theorem maskRow_message (h : ¬ Hidden T raw) :
    (maskRow T raw).item "message" = masked T (raw.item "message") := by
  rw [maskRow_item, if_neg (fun hk => h hk.1), if_pos (by decide)]

theorem saidBy_unspoken {role content : Json} (h : ¬ Speaks T role) :
    saidBy T (some (role, content)) = none := by
  rw [saidBy, Option.bind_some, said_unspoken h]

theorem Alike.speaks (h : Alike T v w) : Speaks T w ↔ Speaks T v := by
  rw [Speaks, Speaks, h.role]

theorem claudeSaid_masked (hT : T.Plain) (h : ¬ ClaudeExposed T raw) :
    saidBy T (claudeSpoken T (maskRow T raw)) = saidBy T (claudeSpoken T raw) := by
  unfold claudeSpoken
  rw [maskRow_isObj, kindOf_maskRow]
  by_cases hskip : raw.isObj = false ∨ T.kindOf raw ∈ skippedKinds
  · rw [if_pos hskip, if_pos hskip]
  · rw [if_neg hskip, if_neg hskip]
    obtain ⟨hobj, hkind⟩ := not_or.mp hskip
    have hexposed := fun hc => h ⟨by simpa using hobj, hkind, hc⟩
    have hraw : ¬ Hidden T raw := fun hh => hexposed (.inl hh)
    have hcontent := maskRow_shown hT hraw "content"
    dsimp only
    rw [Json.innerOr, Json.innerOr, maskRow_message hraw, masked_isObj]
    by_cases ho : (raw.item "message").isObj = true
    · rw [if_pos ho, if_pos ho]
      have hrole := (masked_role hT (raw.item "message")).orElse (.refl (.str (T.kindOf raw)))
      by_cases hm : Hidden T (raw.item "message")
      · have hs := fun hs => hexposed (.inr ⟨ho, hm, hs⟩)
        rw [saidBy_unspoken hs, saidBy_unspoken (fun h' => hs (hrole.speaks.mp h'))]
      · exact hrole.saidBy ((masked_shown hT hm "content").orElse hcontent)
    · rw [if_neg ho, if_neg ho]
      exact ((maskRow_shown hT hraw "role").orElse (.refl _)).saidBy (hcontent.orElse hcontent)

theorem claudeExposed_masked (hT : T.Plain) (raw : Json) :
    ClaudeExposed T (maskRow T raw) ↔ ClaudeExposed T raw := by
  rw [ClaudeExposed, ClaudeExposed, maskRow_isObj, kindOf_maskRow, (veiled_row raw).hidden]
  by_cases hraw : Hidden T raw
  · simp only [hraw, true_or]
  · have hrole := (masked_role hT (raw.item "message")).orElse (.refl (.str (T.kindOf raw)))
    rw [maskRow_message hraw, masked_isObj, hidden_masked hT, hrole.speaks]

theorem maskNode_message (node : Json) :
    (maskNode T node).item "message" = maskRow T (node.item "message") := by
  cases node with
  | obj fields =>
    exact (item_map (fun k x => if k = "message" then maskRow T x else x) (by simp [maskRow])).trans
      (if_pos rfl)
  | _ => rfl

theorem maskRow_author (v other : Json) :
    (maskRow T v).innerOr "author" other = v.innerOr "author" other := by
  rw [Json.innerOr, Json.innerOr, maskRow_other v (by decide)]

theorem chatgptSaid_masked (hT : T.Plain) {node : Json} (h : ¬ ChatgptExposed T node) :
    saidBy T (chatgptSpoken (maskNode T node)) = saidBy T (chatgptSpoken node) := by
  unfold chatgptSpoken
  dsimp only
  rw [maskNode_message, maskRow_isObj, maskRow_author]
  by_cases ho : (node.item "message").isObj = true
  · rw [if_pos ho, if_pos ho]
    by_cases hh : Hidden T (node.item "message")
    · have hs := fun hs => h ⟨ho, hh, hs⟩
      rw [saidBy_unspoken hs, saidBy_unspoken hs]
    · exact (Alike.refl _).saidBy (maskRow_shown hT hh "content")
  · rw [if_neg ho, if_neg ho]

theorem chatgptExposed_masked (node : Json) :
    ChatgptExposed T (maskNode T node) ↔ ChatgptExposed T node := by
  rw [ChatgptExposed, ChatgptExposed, maskNode_message, maskRow_isObj, maskRow_author,
    (veiled_row _).hidden]

theorem givenRole_masked (raw : Json) : givenRole (maskRow T raw) = givenRole raw := by
  rw [givenRole, givenRole, maskRow_other raw (by decide), maskRow_author]

theorem messageExposed_masked (hT : T.Plain) (raw : Json) :
    MessageExposed T (maskRow T raw) ↔ MessageExposed T raw := by
  rw [MessageExposed, MessageExposed, maskRow_isObj, givenRole_masked]
  have hh := (veiled_row (T := T) raw).hidden
  by_cases hraw : Hidden T raw
  · rw [if_pos hraw, if_pos (hh.mpr hraw)]
  · have hrole := ((Alike.refl (givenRole raw)).orElse (masked_role hT (raw.item "message"))).orElse
      (.refl (raw.item "type"))
    rw [if_neg hraw, if_neg (mt hh.mp hraw), maskRow_message hraw, masked_isObj, hidden_masked hT,
      (maskRow_shown hT hraw "content").truthy, maskRow_other raw (by decide), hrole.speaks]

theorem genericSpoken_eq (hobj : raw.isObj = true) : genericSpoken raw =
    some (((givenRole raw).orElse ((raw.innerOr "message" (.obj [])).item "role")).orElse
      (raw.item "type"),
        (((raw.item "content").orElse ((raw.innerOr "message" (.obj [])).item "content")).orElse
          (raw.item "message")).orElse (raw.item "text")) := by
  rw [genericSpoken, if_neg (by simp [hobj])]
  rfl

theorem hidden_row_texts (h : Hidden T raw) {key : String} (hk : key ∈ textKeys) :
    (maskRow T raw).item key = .null := by
  rw [maskRow_item, if_pos ⟨h, hk⟩]

theorem genericSaid_masked (hT : T.Plain) (h : ¬ MessageExposed T raw) :
    saidBy T (genericSpoken (maskRow T raw)) = saidBy T (genericSpoken raw) := by
  by_cases hobj : raw.isObj = true
  · have hexposed := not_and.mp h hobj
    rw [genericSpoken_eq hobj, genericSpoken_eq ((maskRow_isObj raw).trans hobj), givenRole_masked,
      @maskRow_other _ raw "type" (by decide)]
    by_cases hraw : Hidden T raw
    · rw [if_pos hraw] at hexposed
      obtain ⟨ht, hs⟩ := Classical.not_imp.mp hexposed
      have hgiven : ∀ other, (givenRole raw).orElse other = givenRole raw := fun other => by
        rw [Json.orElse, if_pos ht]
      rw [hgiven, hgiven, hgiven, hgiven, saidBy_unspoken hs, saidBy_unspoken hs]
    · rw [if_neg hraw] at hexposed
      have hcontent := maskRow_shown hT hraw "content"
      have hmessage := maskRow_shown hT hraw "message"
      have htext := maskRow_shown hT hraw "text"
      rw [Json.innerOr, Json.innerOr, maskRow_message hraw, masked_isObj]
      rw [maskRow_message hraw] at hmessage
      by_cases ho : (raw.item "message").isObj = true
      · rw [if_pos ho, if_pos ho]
        have hrole := ((Alike.refl (givenRole raw)).orElse
          (masked_role hT (raw.item "message"))).orElse (.refl (raw.item "type"))
        by_cases hm : Hidden T (raw.item "message")
        · by_cases hc : (raw.item "content").truthy = true
          · have hfirst : ∀ {c d : Json}, c.truthy = true → ∀ x y,
                ((c.orElse d).orElse x).orElse y = c := fun hc x y => by
              simp [Json.orElse, hc]
            rw [hfirst hc, hfirst (hcontent.truthy.trans hc)]
            exact hrole.saidBy hcontent
          · have hs := fun hs => hexposed ⟨ho, hm, by simpa using hc, hs⟩
            rw [saidBy_unspoken hs, saidBy_unspoken (fun h' => hs (hrole.speaks.mp h'))]
        · exact hrole.saidBy (((hcontent.orElse (masked_shown hT hm "content")).orElse
            hmessage).orElse htext)
      · rw [if_neg ho, if_neg ho]
        exact (Alike.refl _).saidBy (((hcontent.orElse (.refl _)).orElse hmessage).orElse htext)
  · have hobj' : raw.isObj = false := by simpa using hobj
    rw [genericSpoken, genericSpoken, maskRow_isObj, if_pos hobj', if_pos hobj']

end Veils

section Variants
variable {T} {v raw : Json} {key : String} {new : List (String × Json)}

-- another text in a hidden object
def withTexts (new : List (String × Json)) : Json → Json
  | .obj fields => .obj (fields.filter (fun f => f.1 ∉ textKeys) ++ new)
  | v => v

def setMember (key : String) (new : Json) : Json → Json
  | .obj fields => .obj (upsert Prod.fst (key, new) fields)
  | v => v

theorem withTexts_isObj (new : List (String × Json)) (v : Json) :
    (withTexts new v).isObj = v.isObj := by
  cases v <;> rfl

theorem setMember_isObj (key : String) (new v : Json) : (setMember key new v).isObj = v.isObj := by
  cases v <;> rfl

theorem lookup_none_of_texts (hnew : ∀ f ∈ new, f.1 ∈ textKeys) (hk : key ∉ textKeys) :
    lookup Prod.fst key new = none :=
  lookup_eq_none.mpr fun f hf he => hk (he ▸ hnew f hf)

theorem withTexts_item (hnew : ∀ f ∈ new, f.1 ∈ textKeys) (hk : key ∉ textKeys) (v : Json) :
    (withTexts new v).item key = v.item key := by
  cases v with
  | obj fields =>
    rw [withTexts, item_obj, item_obj, lookup_append, lookup_none_of_texts hnew hk, Option.or_none,
      lookup_filter (fun k => decide (k ∉ textKeys)), if_pos (by simpa using hk)]
  | _ => rfl

theorem withTexts_text (hv : v.isObj = true) (hk : key ∈ textKeys) :
    (withTexts new v).item key = (Json.obj new).item key := by
  cases v with
  | obj fields =>
    rw [withTexts, item_obj, item_obj, lookup_append,
      lookup_filter (fun k => decide (k ∉ textKeys)), if_neg (by simpa using hk), Option.none_or]
  | _ => cases hv

theorem withTexts_kind (hnew : ∀ f ∈ new, f.1 ∈ textKeys) (v : Json) :
    T.kindOf (withTexts new v) = T.kindOf v := by
  rw [kindOf_word, kindOf_word, withTexts_item hnew (by simp [textKeys])]

theorem withTexts_fields (hnew : ∀ f ∈ new, f.1 ∈ textKeys) (g : String → Json → Json)
    (fields : List (String × Json)) :
    (((fields.filter (fun f => f.1 ∉ textKeys)) ++ new).map (fun f => (f.1, g f.1 f.2))).filter
        (fun f => f.1 ∉ textKeys) =
      (fields.map (fun f => (f.1, g f.1 f.2))).filter (fun f => f.1 ∉ textKeys) := by
  have hnone : new.filter (fun f => f.1 ∉ textKeys) = [] := by
    rw [List.filter_eq_nil_iff]
    intro f hf
    simpa using hnew f hf
  rw [List.filter_map, List.filter_map]
  have hcomp : (fun f : String × Json => decide (f.1 ∉ textKeys)) ∘
      (fun f : String × Json => (f.1, g f.1 f.2)) = fun f => decide (f.1 ∉ textKeys) := rfl
  rw [hcomp, List.filter_append, hnone, List.append_nil, List.filter_filter]
  simp only [Bool.and_self]

theorem withTexts_masked (hnew : ∀ f ∈ new, f.1 ∈ textKeys) (h : Hidden T v) :
    masked T (withTexts new v) = masked T v := by
  cases v with
  | obj fields =>
    have h' : Hidden T (withTexts new (.obj fields)) := by
      rw [Hidden, withTexts_kind hnew]
      exact h
    rw [withTexts] at h' ⊢
    rw [masked, masked, if_pos h', if_pos h, maskedFields_eq, maskedFields_eq,
      withTexts_fields hnew (fun _ => masked T)]
  | _ => rfl

theorem withTexts_maskRow (hnew : ∀ f ∈ new, f.1 ∈ textKeys) (h : Hidden T v) :
    maskRow T (withTexts new v) = maskRow T v := by
  cases v with
  | obj fields =>
    have h' : Hidden T (withTexts new (.obj fields)) := by
      rw [Hidden, withTexts_kind hnew]
      exact h
    rw [withTexts] at h' ⊢
    rw [maskRow, maskRow, if_pos h', if_pos h,
      withTexts_fields hnew (fun k x => if k ∈ contentKeys then masked T x else x)]
  | _ => rfl

theorem upsert_map {δ : Type} {fields : List (String × Json)} {f : String × Json} {x : Json}
    (g : String × Json → δ) (hf : lookup Prod.fst key fields = some f) (hg : g (key, x) = g f) :
    (upsert Prod.fst (key, x) fields).map g = fields.map g := by
  induction fields with
  | nil => cases hf
  | cons e fields ih =>
    by_cases he : e.1 = key
    · have hef : e = f := by simpa [lookup, he] using hf
      rw [upsert, if_pos he, List.map_cons, List.map_cons, hg, hef]
    · have hrest : lookup Prod.fst key fields = some f := by simpa [lookup, he] using hf
      rw [upsert, if_neg he, List.map_cons, List.map_cons, ih hrest]

theorem lookup_of_obj {fields : List (String × Json)} (h : (Json.obj fields).item key ≠ .null) :
    lookup Prod.fst key fields = some (key, (Json.obj fields).item key) := by
  rw [item_obj] at h ⊢
  cases hf : lookup Prod.fst key fields with
  | none => exact absurd (by rw [hf]; rfl) h
  | some f => rw [← lookup_key hf]; rfl

theorem setMember_item (hv : v.isObj = true) (x : Json) : (setMember key x v).item key = x := by
  cases v with
  | obj fields => rw [setMember, item_obj, lookup_upsert, if_pos rfl]; rfl
  | _ => cases hv

theorem setMember_other {k : String} (hk : key ≠ k) (x v : Json) :
    (setMember key x v).item k = v.item k := by
  cases v with
  | obj fields => rw [setMember, item_obj, item_obj, lookup_upsert, if_neg hk]
  | _ => rfl

theorem setMember_kind (hk : key ≠ "type") (x v : Json) :
    T.kindOf (setMember key x v) = T.kindOf v := by
  rw [kindOf_word, kindOf_word, setMember_other hk]

theorem setMember_maskRow {x : Json} (hk : key ∈ contentKeys) (h : v.item key ≠ .null)
    (hx : masked T x = masked T (v.item key)) : maskRow T (setMember key x v) = maskRow T v := by
  cases v with
  | obj fields =>
    have htype : key ≠ "type" := fun he => absurd (he ▸ hk) (by decide)
    have hh : Hidden T (setMember key x (.obj fields)) ↔ Hidden T (.obj fields) := by
      rw [Hidden, Hidden, setMember_kind htype]
    have hmap := upsert_map (x := x)
      (fun f => (f.1, if f.1 ∈ contentKeys then masked T f.2 else f.2)) (lookup_of_obj h)
      (by simp only [if_pos hk, hx])
    rw [setMember] at hh ⊢
    rw [maskRow, maskRow, hmap]
    simp only [hh]
  | _ => rfl

theorem setMember_maskNode {x : Json} (h : v.item "message" ≠ .null)
    (hx : maskRow T x = maskRow T (v.item "message")) :
    maskNode T (setMember "message" x v) = maskNode T v := by
  cases v with
  | obj fields =>
    rw [setMember, maskNode, maskNode, upsert_map _ (lookup_of_obj h) (by simp only [if_true, hx])]
  | _ => rfl

theorem ne_null_of_isObj (h : v.isObj = true) : v ≠ .null := by
  rintro rfl
  cases h

-- a content that is there, and visible only when its text is not empty
def filler (text : String) : Json := .arr [.str text]

/-- Some row with the same mask says any text, in one and the same visible role. -/
def Free (T : Toolkit) (spoken : Json → Option (Json × Json)) (mask : Json → Json) (raw : Json) :
    Prop :=
  ∃ role, Speaks T role ∧ ∀ text, ∃ w, mask w = mask raw ∧
    saidBy T (spoken w) = saidBy T (some (role, filler text))

theorem content_text (text : String) :
    ∀ f ∈ [("content", filler text)], f.1 ∈ textKeys := by
  intro f hf
  rw [List.mem_singleton.mp hf]
  simp [textKeys]

theorem withContent_item (text : String) (hv : v.isObj = true) :
    (withTexts [("content", filler text)] v).item "content" = filler text := by
  rw [withTexts_text hv (by decide)]
  rfl

theorem filler_first (text : String) (other : Json) :
    (filler text).orElse other = filler text := rfl

theorem codexSpoken_hidden (hobj : raw.isObj = true) (h1 : T.kindOf raw ≠ "session_meta")
    (h2 : T.kindOf raw ≠ "response_item") (hh : Hidden T (raw.innerOr "payload" raw)) :
    codexSpoken T raw = some ((raw.innerOr "payload" raw).item "role",
      (raw.innerOr "payload" raw).item "content") := by
  have hne {x : String} (hx : x ∉ hiddenKinds) := hidden_kind hh hx
  have hm : ¬ (T.kindOf raw = "session_meta" ∨
      T.kindOf (raw.innerOr "payload" raw) = "session_meta") := not_or.mpr ⟨h1, hne (by decide)⟩
  have ha : ¬ (T.kindOf (raw.innerOr "payload" raw) = "agent_message" ∨
      T.kindOf (raw.innerOr "payload" raw) = "assistant_message") :=
    not_or.mpr ⟨hne (by decide), hne (by decide)⟩
  unfold codexSpoken
  dsimp only
  rw [if_neg (by simp [hobj]), if_neg hm, if_neg (hne (by decide)), if_neg ha,
    if_neg (fun h => h2 h.1)]

theorem codex_free (h : CodexExposed T raw) : Free T (codexSpoken T) (maskRow T) raw := by
  obtain ⟨hobj, h1, h2, hh, hs⟩ := h
  refine ⟨_, hs, fun text => ?_⟩
  have hnew := content_text text
  by_cases ho : (raw.item "payload").isObj = true
  · rw [Json.innerOr, if_pos ho] at hh ⊢
    have hmask := withTexts_masked hnew hh
    have hp : (setMember "payload" (withTexts [("content", filler text)] (raw.item "payload"))
        raw).innerOr "payload" (setMember "payload" (withTexts [("content", filler text)]
          (raw.item "payload")) raw) = withTexts [("content", filler text)] (raw.item "payload") := by
      rw [Json.innerOr, setMember_item hobj, withTexts_isObj, if_pos ho]
    refine ⟨setMember "payload" (withTexts [("content", filler text)] (raw.item "payload")) raw,
      setMember_maskRow (by decide) (ne_null_of_isObj ho) hmask, ?_⟩
    rw [codexSpoken_hidden ((setMember_isObj _ _ _).trans hobj)
      (by rwa [setMember_kind (by decide)]) (by rwa [setMember_kind (by decide)])
      (by rw [hp, Hidden, withTexts_kind hnew]; exact hh), hp, withContent_item text ho,
      withTexts_item hnew (by decide)]
  · rw [Json.innerOr, if_neg ho] at hh ⊢
    have hp : (withTexts [("content", filler text)] raw).innerOr "payload"
        (withTexts [("content", filler text)] raw) = withTexts [("content", filler text)] raw := by
      rw [Json.innerOr, withTexts_item hnew (by decide), if_neg ho]
    refine ⟨withTexts [("content", filler text)] raw, withTexts_maskRow hnew hh, ?_⟩
    rw [codexSpoken_hidden ((withTexts_isObj _ _).trans hobj)
      (by rwa [withTexts_kind hnew]) (by rwa [withTexts_kind hnew])
      (by rw [hp, Hidden, withTexts_kind hnew]; exact hh), hp, withContent_item text hobj,
      withTexts_item hnew (by decide)]

-- a whole message, as a member of a hidden row
def spokenTexts (text : String) : List (String × Json) :=
  [("content", filler text),
    ("message", .obj [("role", .str "user"), ("content", filler text)])]

theorem spokenTexts_text (text : String) : ∀ f ∈ spokenTexts text, f.1 ∈ textKeys := by
  intro f hf
  simp only [spokenTexts, List.mem_cons, List.not_mem_nil, or_false] at hf
  rcases hf with rfl | rfl <;> simp [textKeys]

theorem spokenTexts_message (text : String) (hv : v.isObj = true) :
    (withTexts (spokenTexts text) v).item "message" =
      .obj [("role", .str "user"), ("content", filler text)] := by
  rw [withTexts_text hv (by decide)]
  rfl

theorem spokenTexts_content (text : String) (hv : v.isObj = true) :
    (withTexts (spokenTexts text) v).item "content" = filler text := by
  rw [withTexts_text hv (by decide)]
  rfl

theorem speaks_user (hT : T.Plain) : Speaks T (.str "user") := by
  left
  change (lookup Prod.fst (T.lower (strip (if (Json.str "user").truthy then "user" else "")))
    roleAliases).map Prod.snd = _
  rw [show strip (if (Json.str "user").truthy then "user" else "") = "user" by decide, hT.user]
  decide

theorem claude_free (hu : Speaks T (.str "user")) (h : ClaudeExposed T raw) :
    Free T (claudeSpoken T) (maskRow T) raw := by
  obtain ⟨hobj, hkind, hc⟩ := h
  by_cases hraw : Hidden T raw
  · refine ⟨.str "user", hu, fun text => ?_⟩
    have hnew := spokenTexts_text text
    refine ⟨withTexts (spokenTexts text) raw, withTexts_maskRow hnew hraw, ?_⟩
    have hskip : ¬ ((withTexts (spokenTexts text) raw).isObj = false ∨
        T.kindOf (withTexts (spokenTexts text) raw) ∈ skippedKinds) := by
      rw [withTexts_isObj, withTexts_kind hnew]
      simp [hobj, hkind]
    have hmessage := spokenTexts_message text hobj
    unfold claudeSpoken
    rw [if_neg hskip]
    dsimp only
    rw [Json.innerOr, hmessage]
    rfl
  · rcases hc with hc | ⟨ho, hm, hs⟩
    · exact absurd hc hraw
    refine ⟨_, hs, fun text => ?_⟩
    have hnew := content_text text
    refine ⟨setMember "message" (withTexts [("content", filler text)] (raw.item "message")) raw,
      setMember_maskRow (by decide) (ne_null_of_isObj ho) (withTexts_masked hnew hm), ?_⟩
    have hskip : ¬ ((setMember "message" (withTexts [("content", filler text)]
        (raw.item "message")) raw).isObj = false ∨ T.kindOf (setMember "message" (withTexts
          [("content", filler text)] (raw.item "message")) raw) ∈ skippedKinds) := by
      rw [setMember_isObj, setMember_kind (by decide)]
      simp [hobj, hkind]
    unfold claudeSpoken
    rw [if_neg hskip]
    dsimp only
    rw [Json.innerOr, setMember_item hobj, withTexts_isObj, if_pos ho, withContent_item text ho,
      withTexts_item hnew (by decide), setMember_kind (by decide), filler_first]

theorem chatgpt_free {node : Json} (h : ChatgptExposed T node) :
    Free T chatgptSpoken (maskNode T) node := by
  obtain ⟨ho, hm, hs⟩ := h
  refine ⟨_, hs, fun text => ?_⟩
  have hnew := content_text text
  have hnode : node.isObj = true := by
    cases hn : node.isObj with
    | true => rfl
    | false =>
      rw [item_of_not_obj hn] at ho
      cases ho
  refine ⟨setMember "message" (withTexts [("content", filler text)] (node.item "message")) node,
    setMember_maskNode (ne_null_of_isObj ho) (withTexts_maskRow hnew hm), ?_⟩
  unfold chatgptSpoken
  dsimp only
  rw [setMember_item hnode, withTexts_isObj, if_pos ho, withContent_item text ho, Json.innerOr,
    withTexts_item hnew (by decide), ← Json.innerOr]

theorem generic_free (hu : Speaks T (.str "user")) (h : MessageExposed T raw) :
    Free T genericSpoken (maskRow T) raw := by
  obtain ⟨hobj, hc⟩ := h
  by_cases hraw : Hidden T raw
  · rw [if_pos hraw] at hc
    have hrole : Speaks T ((givenRole raw).orElse (.str "user")) := by
      rw [Json.orElse]
      split
      · exact hc ‹_›
      · exact hu
    refine ⟨_, hrole, fun text => ?_⟩
    have hnew := spokenTexts_text text
    refine ⟨withTexts (spokenTexts text) raw, withTexts_maskRow hnew hraw, ?_⟩
    have hgiven : givenRole (withTexts (spokenTexts text) raw) = givenRole raw := by
      rw [givenRole, givenRole, Json.innerOr, Json.innerOr, withTexts_item hnew (by decide),
        withTexts_item hnew (by decide)]
    have huser : ∀ a b : Json, (a.orElse (.str "user")).orElse b = a.orElse (.str "user") := by
      intro a b
      cases ha : a.truthy with
      | false =>
        have hfirst : a.orElse (.str "user") = .str "user" := by
          rw [Json.orElse, if_neg (by simp [ha])]
        rw [hfirst]
        rfl
      | true => simp [Json.orElse, ha]
    have hmessage := spokenTexts_message text hobj
    rw [genericSpoken_eq ((withTexts_isObj _ _).trans hobj), hgiven, Json.innerOr, hmessage,
      spokenTexts_content text hobj, filler_first, filler_first, filler_first]
    exact congrArg (fun r => saidBy T (some (r, filler text))) (huser _ _)
  · rw [if_neg hraw] at hc
    obtain ⟨ho, hm, hfalse, hs⟩ := hc
    refine ⟨_, hs, fun text => ?_⟩
    have hnew := content_text text
    refine ⟨setMember "message" (withTexts [("content", filler text)] (raw.item "message")) raw,
      setMember_maskRow (by decide) (ne_null_of_isObj ho) (withTexts_masked hnew hm), ?_⟩
    have hgiven : givenRole (setMember "message" (withTexts [("content", filler text)]
        (raw.item "message")) raw) = givenRole raw := by
      rw [givenRole, givenRole, Json.innerOr, Json.innerOr, setMember_other (by decide),
        setMember_other (by decide)]
    have hcontent : ∀ other, (raw.item "content").orElse other = other := fun other => by
      rw [Json.orElse, if_neg (by simp [hfalse])]
    rw [genericSpoken_eq ((setMember_isObj _ _ _).trans hobj), hgiven, Json.innerOr,
      setMember_item hobj, withTexts_isObj, if_pos ho, withContent_item text ho,
      withTexts_item hnew (by decide), setMember_other (by decide), setMember_other (by decide),
      hcontent, filler_first, filler_first]

end Variants

section Blindness
variable {T} {rows : List Json} {value : Json} {p : Provider}

theorem free_variants {spoken : Json → Option (Json × Json)} {mask : Json → Json} {raw : Json}
    (h : Free T spoken mask raw) (hraw : raw ∈ rows) : ∃ r pre post, ∀ text, ∃ m : List Json,
      m.map mask = rows.map mask ∧ m.filterMap (fun v => saidBy T (spoken v)) =
        pre ++ (if plainText T (filler text) = "" then [] else
          [(r, T.redactSecrets (clip maxTextChars (plainText T (filler text))))]) ++ post := by
  obtain ⟨role, hs, hfree⟩ := h
  obtain ⟨pre, post, hall⟩ := exists_variants hraw hfree
  have hrole : ∃ r, roleOf T role = some r ∧ (r = .user ∨ r = .assistant) := by
    rcases hs with hs | hs
    · exact ⟨_, hs, .inl rfl⟩
    · exact ⟨_, hs, .inr rfl⟩
  obtain ⟨r, hr, hru⟩ := hrole
  refine ⟨r, pre, post, fun text => ?_⟩
  obtain ⟨m, hm, hsaid⟩ := hall text
  refine ⟨m, hm, ?_⟩
  rw [hsaid, saidBy, Option.bind_some, hr]
  by_cases ht : plainText T (filler text) = "" <;> simp [said, hru, ht]

theorem filler_empty : plainText T (filler "") = "" := by
  have h : visibleText T (filler "") = "" := by
    rw [filler, visibleText, visibleTexts, visibleText, visibleTexts]
    decide
  rw [plainText, h]
  decide

theorem filler_letter {t : String} (h : t = "a" ∨ t = "b") : plainText T (filler t) = t := by
  have hv : visibleText T (filler t) = t := by
    rw [filler, visibleText, visibleTexts, visibleText, visibleTexts]
    rcases h with rfl | rfl <;> decide
  rw [plainText, hv]
  rcases h with rfl | rfl <;> decide

-- the count of the messages tells a free row from an empty one
theorem free_seen {spoken : Json → Option (Json × Json)} {mask : Json → Json} {raw : Json}
    (h : Free T spoken mask raw) (hraw : raw ∈ rows) : ∃ m n : List Json,
      m.map mask = rows.map mask ∧ n.map mask = rows.map mask ∧
        (m.filterMap (fun v => saidBy T (spoken v))).length ≠
          (n.filterMap (fun v => saidBy T (spoken v))).length := by
  obtain ⟨r, pre, post, hall⟩ := free_variants h hraw
  obtain ⟨m, hm, hsaid⟩ := hall ""
  obtain ⟨n, hn, hsaid'⟩ := hall "a"
  refine ⟨m, n, hm, hn, ?_⟩
  rw [hsaid, hsaid', if_pos filler_empty, filler_letter (.inl rfl), if_neg (by decide)]
  simp

theorem codex_blind (hT : T.Plain) : Blind (fun rows => transcript (codexRows T rows))
    (List.map (maskRow T)) rows ↔ ∀ raw ∈ rows, ¬ CodexExposed T raw := by
  simp only [codexRows_transcript]
  constructor
  · intro hb raw hraw he
    obtain ⟨m, n, hm, hn, hne⟩ := free_seen (codex_free he) hraw
    exact hne (congrArg List.length (hb.eq_of_masks hm hn))
  · intro h
    refine Blind.filterMap fun raw hraw => ?_
    refine Blind.of_factor (g := fun v => saidBy T (codexSpoken T v))
      (p := fun v => ¬ CodexExposed T v) (fun b hb => ?_) (h raw hraw) (fun b hb => ?_)
    · rw [← codexExposed_masked hT b, hb, codexExposed_masked hT]
    · exact (codexSaid_masked hT hb).symm

theorem values_masked (v : Json) : (maskMapping T v).values = v.values.map (maskNode T) := by
  cases v with
  | obj nodes => simp [maskMapping, Json.values]
  | _ => rfl

theorem items_masked (v : Json) :
    (maskMessages T v).items?.getD [] = (v.items?.getD []).map (maskRow T) := by
  cases v <;> rfl

theorem maskConversation_mapping (v : Json) :
    (maskConversation T v).item "mapping" = maskMapping T (v.item "mapping") := by
  cases v with
  | obj fields =>
    exact (item_map (fun k x => if k = "mapping" then maskMapping T x
      else if k = "messages" then maskMessages T x else x) (by simp [maskMapping])).trans (if_pos rfl)
  | _ => rfl

theorem maskConversation_messages (v : Json) :
    (maskConversation T v).item "messages" = maskMessages T (v.item "messages") := by
  cases v with
  | obj fields =>
    exact (item_map (fun k x => if k = "mapping" then maskMapping T x
      else if k = "messages" then maskMessages T x else x) (by simp [maskMessages])).trans (by simp)
  | _ => rfl

theorem nodes_masked {v : Json} (h : maskConversation T v = maskConversation T value) :
    ((v.item "mapping").values).map (maskNode T) =
      ((value.item "mapping").values).map (maskNode T) := by
  rw [← values_masked, ← values_masked, ← maskConversation_mapping, ← maskConversation_mapping, h]

theorem rows_masked {v : Json} (h : maskConversation T v = maskConversation T value) :
    ((v.item "messages").items?.getD []).map (maskRow T) =
      ((value.item "messages").items?.getD []).map (maskRow T) := by
  rw [← items_masked, ← items_masked, ← maskConversation_messages, ← maskConversation_messages, h]

-- other nodes under the same keys
theorem exists_nodes {nodes : List (String × Json)} {ns : List Json}
    (h : ns.map (maskNode T) = (nodes.map Prod.snd).map (maskNode T)) :
    ∃ others : List (String × Json), others.map Prod.snd = ns ∧
      others.map (fun n => (n.1, maskNode T n.2)) = nodes.map (fun n => (n.1, maskNode T n.2)) := by
  induction nodes generalizing ns with
  | nil =>
    rw [List.map_nil, List.map_nil, List.map_eq_nil_iff] at h
    exact ⟨[], h.symm, rfl⟩
  | cons n nodes ih =>
    rw [List.map_cons, List.map_cons] at h
    obtain ⟨m, ms, rfl, hm, hms⟩ := List.map_eq_cons_iff.mp h
    obtain ⟨others, rfl, hmask⟩ := ih hms
    exact ⟨(n.1, m) :: others, rfl, by rw [List.map_cons, List.map_cons, hm, hmask]⟩

theorem exists_mapping {ns : List Json} (hne : (value.item "mapping").isObj = true)
    (h : ns.map (maskNode T) = (value.item "mapping").values.map (maskNode T)) :
    ∃ v, maskConversation T v = maskConversation T value ∧ (v.item "mapping").values = ns := by
  cases hm : value.item "mapping" with
  | obj nodes =>
    rw [hm] at h
    obtain ⟨others, hsnd, hmask⟩ := exists_nodes h
    refine ⟨setMember "mapping" (.obj others) value, ?_, ?_⟩
    · cases value with
      | obj fields =>
        rw [setMember, maskConversation, maskConversation, upsert_map _
          (lookup_of_obj (by rw [hm]; simp))]
        simp only [if_true, hm, maskMapping, hmask]
      | _ => cases hm
    · have hobj : value.isObj = true := by
        cases value with
        | obj fields => rfl
        | _ => cases hm
      rw [setMember_item hobj]
      exact hsnd
  | _ => rw [hm] at hne; cases hne

theorem exists_messages {ns items : List Json} (hm : value.item "messages" = .arr items)
    (h : ns.map (maskRow T) = items.map (maskRow T)) :
    ∃ v, maskConversation T v = maskConversation T value ∧ v.item "messages" = .arr ns ∧
      v.item "mapping" = value.item "mapping" := by
  cases value with
  | obj fields =>
    refine ⟨setMember "messages" (.arr ns) (.obj fields), ?_, setMember_item rfl _,
      setMember_other (by decide) _ _⟩
    rw [setMember, maskConversation, maskConversation, upsert_map _
      (lookup_of_obj (by rw [hm]; simp))]
    simp [hm, maskMessages, h]
  | _ => cases hm

theorem isObj_of_values {v node : Json} (h : node ∈ v.values) : v.isObj = true := by
  cases v with
  | obj fields => rfl
  | _ => cases h

theorem chatgptSaid_blind (hT : T.Plain)
    (h : ∀ node ∈ (value.item "mapping").values, ¬ ChatgptExposed T node) :
    Blind (chatgptSaid T) (maskConversation T) value := by
  intro v hv
  have hnodes : Blind (List.filterMap (fun node => saidBy T (chatgptSpoken node)))
      (List.map (maskNode T)) (value.item "mapping").values := by
    refine Blind.filterMap fun node hnode => ?_
    refine Blind.of_factor (g := fun n => saidBy T (chatgptSpoken n))
      (p := fun n => ¬ ChatgptExposed T n) (fun b hb => ?_) (h node hnode) (fun b hb => ?_)
    · rw [← chatgptExposed_masked b, hb, chatgptExposed_masked]
    · exact (chatgptSaid_masked hT hb).symm
  exact hnodes _ (nodes_masked hv)

theorem chatgpt_blind (hT : T.Plain) :
    Blind (fun v => transcript (chatgptMapping T v p).toList) (maskConversation T) value ↔
      ∀ node ∈ (value.item "mapping").values, ¬ ChatgptExposed T node := by
  simp only [chatgptMapping_transcript]
  constructor
  · intro hb node hnode he
    obtain ⟨m, n, hm, hn, hne⟩ := free_seen (chatgpt_free he) hnode
    have hobj := isObj_of_values hnode
    obtain ⟨v, hv, hvm⟩ := exists_mapping hobj hm
    obtain ⟨w, hw, hwn⟩ := exists_mapping hobj hn
    have heq := hb.eq_of_masks hv hw
    rw [chatgptSaid, chatgptSaid, hvm, hwn] at heq
    exact hne (congrArg List.length heq)
  · exact chatgptSaid_blind hT

theorem messagesSaid_blind (hT : T.Plain)
    (h : ∀ raw ∈ (value.item "messages").items?.getD [], ¬ MessageExposed T raw) :
    Blind (messagesSaid T) (maskConversation T) value := by
  intro v hv
  have hrows : Blind (List.filterMap (fun raw => saidBy T (genericSpoken raw)))
      (List.map (maskRow T)) ((value.item "messages").items?.getD []) := by
    refine Blind.filterMap fun raw hraw => ?_
    refine Blind.of_factor (g := fun n => saidBy T (genericSpoken n))
      (p := fun n => ¬ MessageExposed T n) (fun b hb => ?_) (h raw hraw) (fun b hb => ?_)
    · rw [← messageExposed_masked hT b, hb, messageExposed_masked hT]
    · exact (genericSaid_masked hT hb).symm
  exact hrows _ (rows_masked hv)

theorem generic_blind (hT : T.Plain) (hr : T.redactSecrets "a" ≠ T.redactSecrets "b") :
    Blind (fun v => transcript (genericConversation T v p).toList) (maskConversation T) value ↔
      ¬ GenericExposed T value := by
  simp only [genericConversation_transcript]
  constructor
  · rintro hb (⟨node, hnode, he⟩ | ⟨hnone, raw, hraw, he⟩)
    · obtain ⟨r, pre, post, hall⟩ := free_variants (chatgpt_free he) hnode
      have hobj := isObj_of_values hnode
      have hsaid : ∀ t, t = "a" ∨ t = "b" → ∃ v, maskConversation T v = maskConversation T value ∧
          chatgptSaid T v = pre ++ [(r, T.redactSecrets t)] ++ post := by
        intro t ht
        obtain ⟨m, hm, hsaid⟩ := hall t
        obtain ⟨v, hv, hvm⟩ := exists_mapping hobj hm
        refine ⟨v, hv, ?_⟩
        have hne : t ≠ "" := by rcases ht with rfl | rfl <;> decide
        have hshort : t.toList.length ≤ maxTextChars := by rcases ht with rfl | rfl <;> decide
        rw [chatgptSaid, hvm, hsaid, filler_letter ht, if_neg hne, clip_short hshort]
      obtain ⟨v, hv, hva⟩ := hsaid "a" (.inl rfl)
      obtain ⟨w, hw, hwb⟩ := hsaid "b" (.inr rfl)
      have heq := hb.eq_of_masks hv hw
      rw [if_neg (by rw [hva]; simp), if_neg (by rw [hwb]; simp), hva, hwb] at heq
      exact hr (by simpa using heq)
    · cases hm : value.item "messages" with
      | arr items =>
        rw [hm] at hraw
        obtain ⟨m, n, hmm, hnm, hne⟩ :=
          free_seen (generic_free (speaks_user hT) he) (show raw ∈ items from hraw)
        obtain ⟨v, hv, hvm, hvo⟩ := exists_messages hm hmm
        obtain ⟨w, hw, hwm, hwo⟩ := exists_messages hm hnm
        have heq := hb.eq_of_masks hv hw
        have hv0 : chatgptSaid T v = [] := by rw [chatgptSaid, hvo]; exact hnone
        have hw0 : chatgptSaid T w = [] := by rw [chatgptSaid, hwo]; exact hnone
        rw [if_pos hv0, if_pos hw0, messagesSaid, messagesSaid, hvm, hwm] at heq
        exact hne (congrArg List.length heq)
      | _ => rw [hm] at hraw; cases hraw
  · intro h v hv
    obtain ⟨hnodes, hrows⟩ := not_or.mp h
    have hchat := chatgptSaid_blind hT (fun node hn he => hnodes ⟨node, hn, he⟩) v hv
    dsimp only
    by_cases hc : chatgptSaid T value = []
    · rw [if_pos hc, if_pos (hchat.trans hc)]
      exact messagesSaid_blind hT (fun raw hraw he => hrows ⟨hc, raw, hraw, he⟩) v hv
    · rw [if_neg hc, if_neg (by rwa [hchat]), hchat]

theorem identifierText_masked (v : Json) :
    identifierText (masked T v) = identifierText v := by
  cases v <;> simp [masked, identifierText]

theorem findSome_congr {f g : String → Option String} {keys : List String}
    (h : ∀ key ∈ keys, f key = g key) : keys.findSome? f = keys.findSome? g := by
  induction keys with
  | nil => rfl
  | cons key keys ih =>
    rw [List.findSome?_cons, List.findSome?_cons, h key List.mem_cons_self,
      ih fun k hk => h k (List.mem_cons_of_mem _ hk)]

theorem explicitId_masked (v : Json) :
    explicitId conversationKeys (masked T v) = explicitId conversationKeys v := by
  have hkeys : ∀ key ∈ conversationKeys, key ∉ textKeys := by
    simp [conversationKeys, explicitKeys, textKeys]
  have hitem : ∀ key ∈ conversationKeys,
      identifierText ((masked T v).item key) = identifierText (v.item key) := fun key hk => by
    rw [masked_item, if_neg (fun h => hkeys key hk h.2), identifierText_masked]
  unfold explicitId
  exact findSome_congr hitem

theorem explicitId_maskRow (v : Json) :
    explicitId conversationKeys (maskRow T v) = explicitId conversationKeys v := by
  have hkeys : ∀ key ∈ conversationKeys, key ∉ contentKeys := by
    simp [conversationKeys, explicitKeys, contentKeys, textKeys]
  unfold explicitId
  exact findSome_congr fun key hk => by rw [maskRow_other v (hkeys key hk)]

theorem explicitConversation_masked (raw : Json) :
    explicitConversation (maskRow T raw) = explicitConversation raw := by
  have hpayload : explicitId conversationKeys ((maskRow T raw).innerOr "payload" (maskRow T raw)) =
      explicitId conversationKeys (raw.innerOr "payload" raw) := by
    rw [Json.innerOr, Json.innerOr, maskRow_payload, masked_isObj]
    by_cases ho : (raw.item "payload").isObj = true
    · rw [if_pos ho, if_pos ho, explicitId_masked]
    · rw [if_neg ho, if_neg ho, explicitId_maskRow]
  simp only [explicitConversation, List.findSome?_cons, explicitId_maskRow, hpayload]

theorem conversationId_identified {raw w : Json} (h : Identified T raw)
    (hw : maskRow T w = maskRow T raw) : conversationId T w p = conversationId T raw p := by
  rcases h with h | h
  · have hsame : explicitConversation w = explicitConversation raw := by
      rw [← explicitConversation_masked (T := T) w, hw, explicitConversation_masked]
    obtain ⟨x, hx⟩ := Option.isSome_iff_exists.mp h
    have hx' := hsame.trans hx
    rw [explicitConversation] at hx hx'
    rw [conversationId, conversationId, hx, hx']
  · rw [h w hw]

theorem claudeRows_blind (hT : T.Plain)
    (h : ∀ raw ∈ rows, ¬ ClaudeExposed T raw ∧
      (saidBy T (claudeSpoken T raw) ≠ none → Identified T raw)) :
    Blind (fun rows => transcript (claudeRows T rows)) (List.map (maskRow T)) rows := by
  simp only [claudeRows_transcript]
  have hrows : Blind (List.filterMap (claudeSaid T)) (List.map (maskRow T)) rows := by
    refine Blind.filterMap fun raw hraw w hw => ?_
    obtain ⟨hexposed, hid⟩ := h raw hraw
    have hexposed' : ¬ ClaudeExposed T w := by
      rwa [← claudeExposed_masked hT w, hw, claudeExposed_masked hT]
    have hsaid : saidBy T (claudeSpoken T w) = saidBy T (claudeSpoken T raw) := by
      rw [← claudeSaid_masked hT hexposed', hw, claudeSaid_masked hT hexposed]
    rw [claudeSaid, claudeSaid, hsaid]
    cases hs : saidBy T (claudeSpoken T raw) with
    | none => rw [Option.map_none, Option.map_none]
    | some e =>
      rw [Option.map_some, Option.map_some, conversationId_identified (hid (by simp [hs])) hw]
  exact hrows.comp (fun said => (groupOf said []).flatMap Prod.snd)

theorem claude_seen (hT : T.Plain)
    (hb : Blind (fun rows => transcript (claudeRows T rows)) (List.map (maskRow T)) rows) :
    ∀ raw ∈ rows, ¬ ClaudeExposed T raw := by
  intro raw hraw he
  obtain ⟨m, n, hm, hn, hne⟩ := free_seen (claude_free (speaks_user hT) he) hraw
  have heq := congrArg List.length (hb.eq_of_masks hm hn)
  rw [claudeRows_length, claudeRows_length] at heq
  exact hne heq

/-- What is hidden stays out of the transcript, exactly when no exposed row is read. -/
theorem hidden_payloads_unread (hT : T.Plain) (hr : T.redactSecrets "a" ≠ T.redactSecrets "b")
    (p : Provider) (rows : List Json) (value : Json) :
    (Blind (fun rows => transcript (codexRows T rows)) (List.map (maskRow T)) rows ↔
      ∀ raw ∈ rows, ¬ CodexExposed T raw) ∧
    ((∀ raw ∈ rows, ¬ ClaudeExposed T raw ∧
        (saidBy T (claudeSpoken T raw) ≠ none → Identified T raw)) →
      Blind (fun rows => transcript (claudeRows T rows)) (List.map (maskRow T)) rows) ∧
    (Blind (fun rows => transcript (claudeRows T rows)) (List.map (maskRow T)) rows →
      ∀ raw ∈ rows, ¬ ClaudeExposed T raw) ∧
    (Blind (fun v => transcript (chatgptMapping T v p).toList) (maskConversation T) value ↔
      ∀ node ∈ (value.item "mapping").values, ¬ ChatgptExposed T node) ∧
    (Blind (fun v => transcript (genericConversation T v p).toList) (maskConversation T) value ↔
      ¬ GenericExposed T value) :=
  ⟨codex_blind hT, claudeRows_blind hT, claude_seen hT, chatgpt_blind hT, generic_blind hT hr⟩

def plainTools : Toolkit where
  loads _ := none
  repr _ := "{}"
  platform := samplePlatform
  forms := plainForms
  chokes _ := false
  lower := lower
  redactSecrets t := t
  fromTimestamp _ := none
  fromIsoFormat _ := none
  pathName t := t
  b64decode _ := none
  decodeUtf8 _ := none
  sha256 _ := sampleSha 5

theorem plainTools_plain : plainTools.Plain where
  blank := by decide
  user := by decide
  items _ := by
    change lower (strip "{}") ∉ markerWords
    decide
  fields _ := by
    change lower (strip "{}") ∉ markerWords
    decide

def reasoningRow (text : String) : Json :=
  .obj [("type", .str "reasoning"), ("role", .str "assistant"), ("content", .str text)]

def responseRow (text : String) : Json :=
  .obj [("type", .str "response_item"), ("payload", reasoningRow text)]

theorem kindOf_responseRow (text : String) :
    plainTools.kindOf (responseRow text) = "response_item" := by
  change lower (strip (if (Json.str "response_item").truthy then "response_item" else "")) = _
  decide

theorem hidden_payloads_unread_response :
    Blind (fun rows => transcript (codexRows plainTools rows)) (List.map (maskRow plainTools))
      [responseRow "step one"] := by
  refine (hidden_payloads_unread plainTools_plain (by decide) .codex [responseRow "step one"]
    .null).1.mpr fun raw hraw => ?_
  rw [List.mem_singleton.mp hraw]
  rintro ⟨-, -, h, -⟩
  exact h (kindOf_responseRow _)

theorem reasoningRow_masked (text : String) : maskRow plainTools (reasoningRow text) =
    .obj [("type", .str "reasoning"), ("role", .str "assistant")] := by
  have hh : Hidden plainTools (reasoningRow text) := by
    change lower (strip (if (Json.str "reasoning").truthy then "reasoning" else "")) ∈ hiddenKinds
    decide
  rw [reasoningRow] at hh ⊢
  rw [maskRow, if_pos hh]
  simp [textKeys, contentKeys]

/-- A reasoning row outside a response item is imported as a message. -/
theorem reasoning_row_read :
    [reasoningRow "a"].map (maskRow plainTools) = [reasoningRow "b"].map (maskRow plainTools) ∧
    transcript (codexRows plainTools [reasoningRow "a"]) = [(.assistant, "a")] ∧
    transcript (codexRows plainTools [reasoningRow "b"]) = [(.assistant, "b")] := by
  refine ⟨by simp only [List.map_cons, List.map_nil, reasoningRow_masked], ?_, ?_⟩
  · rw [codexRows_transcript]
    decide
  · rw [codexRows_transcript]
    decide

end Blindness

end PeerBridge.ConversationImport
