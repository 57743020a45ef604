import PeerBridge.AuditChain
import PeerBridge.CanonicalCode
import PeerBridge.Memories.Runs
import PeerBridge.Provenance

namespace PeerBridge.Memories
open Checked Rows

section Texts
variable {F : TextForms}

theorem jsonChars_str_inj {t u : String} (h : jsonChars F (.str t) = jsonChars F (.str u)) :
    t = u := by
  rw [jsonChars, jsonChars] at h
  have hq : JsonText.quote t.toList ++ [] = JsonText.quote u.toList ++ [] := by rw [h]
  exact String.toList_inj.mp (JsonText.quote_cancel hq).1

theorem jsonChars_opt_inj {o p : Option String} (h : jsonChars F (.opt o) = jsonChars F (.opt p)) :
    o = p := by
  have ho : jsonChars F (.opt o) ++ [] = jsonChars F (.opt p) ++ [] := by rw [h]
  exact (jsonChars_opt_cancel F ho).1

def boundTexts (F : TextForms) (v : Vault) (m : MemoryRow) : List String :=
  [dumps F (currentText m.scope v m), dumps F (legacyText m.scope v m)]

def Vault.texts (F : TextForms) (v : Vault) : List String :=
  v.memories.flatMap (boundTexts F v)

-- what the digest of a record fixes
structure Agrees (F : TextForms) (v w : Vault) (m n : MemoryRow) : Prop where
  scope : m.scope = n.scope
  memoryId : m.memoryId = n.memoryId
  visibility : m.visibility = n.visibility
  roomId : m.roomId = n.roomId
  ownerAgentId : m.ownerAgentId = n.ownerAgentId
  recordType : m.recordType = n.recordType
  authorityId : m.authorityId = n.authorityId
  title : m.title = n.title
  body : m.body = n.body
  sourceMessageId : m.sourceMessageId = n.sourceMessageId
  sourceMessageSha256 : m.sourceMessageSha256 = n.sourceMessageSha256
  binding : bindingOf m.scope v m = bindingOf n.scope w n
  artifactBindings : m.artifactBindings.map (dumps F) = n.artifactBindings.map (dumps F)
  parentMemoryId : m.parentMemoryId = n.parentMemoryId
  supersedesMemoryId : m.supersedesMemoryId = n.supersedesMemoryId
  applicability : m.applicability.map (dumps F) = n.applicability.map (dumps F)
  createdUtc : m.createdUtc = n.createdUtc

end Texts

section Fields
variable {F : TextForms} {m n : MemoryRow} {x y x' y' : Json} {b d : Binding}
  {fs gs : List (String × Json)}

-- the fields that both encodings of a record have
structure Shared (F : TextForms) (m n : MemoryRow) (x y : Json) (b d : Binding) : Prop where
  scope : m.scope = n.scope
  memoryId : m.memoryId = n.memoryId
  visibility : m.visibility = n.visibility
  roomId : m.roomId = n.roomId
  ownerAgentId : m.ownerAgentId = n.ownerAgentId
  title : m.title = n.title
  body : m.body = n.body
  sourceMessageId : m.sourceMessageId = n.sourceMessageId
  sourceMessageSha256 : b.sourceMessageSha256 = d.sourceMessageSha256
  sourceRoomId : b.sourceRoomId = d.sourceRoomId
  artifactBindings : jsonChars F x = jsonChars F y
  parentMemoryId : m.parentMemoryId = n.parentMemoryId
  parentMemorySha256 : b.parentMemorySha256 = d.parentMemorySha256
  createdUtc : m.createdUtc = n.createdUtc

theorem legacyFields_shared
    (h : ∀ key, ((Json.obj (legacyFields m x b ++ fs)).field? key).map (jsonChars F) =
      ((Json.obj (legacyFields n y d ++ gs)).field? key).map (jsonChars F)) :
    Shared F m n x y b d where
  scope := jsonChars_str_inj (F := F) (by simpa [legacyFields, Json.field?] using h "scope")
  memoryId := jsonChars_str_inj (F := F) (by simpa [legacyFields, Json.field?] using h "memory_id")
  visibility := jsonChars_str_inj (F := F) (by simpa [legacyFields, Json.field?] using h "visibility")
  roomId := jsonChars_opt_inj (F := F) (by simpa [legacyFields, Json.field?] using h "room_id")
  ownerAgentId :=
    jsonChars_str_inj (F := F) (by simpa [legacyFields, Json.field?] using h "owner_agent_id")
  title := jsonChars_str_inj (F := F) (by simpa [legacyFields, Json.field?] using h "title")
  body := jsonChars_str_inj (F := F) (by simpa [legacyFields, Json.field?] using h "body")
  sourceMessageId :=
    jsonChars_opt_inj (F := F) (by simpa [legacyFields, Json.field?] using h "source_message_id")
  sourceMessageSha256 :=
    jsonChars_opt_inj (F := F) (by simpa [legacyFields, Json.field?] using h "source_message_sha256")
  sourceRoomId :=
    jsonChars_opt_inj (F := F) (by simpa [legacyFields, Json.field?] using h "source_room_id")
  artifactBindings := by simpa [legacyFields, Json.field?] using h "artifact_bindings"
  parentMemoryId :=
    jsonChars_opt_inj (F := F) (by simpa [legacyFields, Json.field?] using h "parent_memory_id")
  parentMemorySha256 :=
    jsonChars_opt_inj (F := F) (by simpa [legacyFields, Json.field?] using h "parent_memory_sha256")
  createdUtc := jsonChars_str_inj (F := F) (by simpa [legacyFields, Json.field?] using h "created_utc")

theorem memoryFields_extra
    (h : ∀ key, ((Json.obj (memoryFields m x x' b)).field? key).map (jsonChars F) =
      ((Json.obj (memoryFields n y y' d)).field? key).map (jsonChars F)) :
    m.recordType = n.recordType ∧ m.authorityId = n.authorityId ∧
      m.supersedesMemoryId = n.supersedesMemoryId ∧
      b.supersedesMemorySha256 = d.supersedesMemorySha256 ∧ jsonChars F x' = jsonChars F y' := by
  refine ⟨jsonChars_str_inj (F := F) ?_, jsonChars_opt_inj (F := F) ?_,
    jsonChars_opt_inj (F := F) ?_, jsonChars_opt_inj (F := F) ?_, ?_⟩
  · simpa [memoryFields, legacyFields, Json.field?] using h "record_type"
  · simpa [memoryFields, legacyFields, Json.field?] using h "authority_id"
  · simpa [memoryFields, legacyFields, Json.field?] using h "supersedes_memory_id"
  · simpa [memoryFields, legacyFields, Json.field?] using h "supersedes_memory_sha256"
  · simpa [memoryFields, legacyFields, Json.field?] using h "applicability"

-- the legacy encoding has no record type
theorem encodings_apart (hF : F.Plain) :
    dumps F (.obj (memoryFields m x x' b)) ≠ dumps F (.obj (legacyFields n y d)) := by
  intro h
  have hkey := dumps_field? hF h "record_type"
  simp [memoryFields, legacyFields, Json.field?] at hkey

end Fields

section Binding
variable {P : Platform} {F : TextForms} {v w : Vault} {m n p : MemoryRow}

theorem Verified.sourceMessageSha256 {scope : String} (h : Verified P scope v m) :
    m.sourceMessageSha256 = (bindingOf scope v m).sourceMessageSha256 := by
  cases hid : m.sourceMessageId with
  | none => simp [bindingOf, hid, h.sourceless hid]
  | some id =>
    obtain ⟨s, hs, hsha⟩ := h.source id hid
    simp [bindingOf, hid, hs, hsha]

theorem MemoryRow.Legacy.same_kind (hm : m.Legacy) (hn : n.Legacy) : m.recordType = n.recordType ∧
    m.authorityId = n.authorityId ∧ m.supersedesMemoryId = n.supersedesMemoryId ∧
      m.applicability = n.applicability :=
  ⟨hm.fact.trans hn.fact.symm, hm.unauthorized.trans hn.unauthorized.symm,
    hm.first.trans hn.first.symm, hm.anywhere.trans hn.anywhere.symm⟩

theorem agrees_of_shared (hm : Verified P m.scope v m) (hn : Verified P n.scope w n)
    (hs : Shared F m n (m.artifactBindings.getD .null) (n.artifactBindings.getD .null)
      (bindingOf m.scope v m) (bindingOf n.scope w n))
    (hkind : m.recordType = n.recordType ∧ m.authorityId = n.authorityId ∧
      m.supersedesMemoryId = n.supersedesMemoryId)
    (hsha : (bindingOf m.scope v m).supersedesMemorySha256 =
      (bindingOf n.scope w n).supersedesMemorySha256)
    (happ : jsonChars F (m.applicability.getD .null) = jsonChars F (n.applicability.getD .null)) :
    Agrees F v w m n where
  scope := hs.scope
  memoryId := hs.memoryId
  visibility := hs.visibility
  roomId := hs.roomId
  ownerAgentId := hs.ownerAgentId
  recordType := hkind.1
  authorityId := hkind.2.1
  title := hs.title
  body := hs.body
  sourceMessageId := hs.sourceMessageId
  sourceMessageSha256 := by
    rw [hm.sourceMessageSha256, hn.sourceMessageSha256, hs.sourceMessageSha256]
  binding := by
    have hparts : ∀ b d : Binding, b.sourceMessageSha256 = d.sourceMessageSha256 →
        b.sourceRoomId = d.sourceRoomId → b.parentMemorySha256 = d.parentMemorySha256 →
        b.supersedesMemorySha256 = d.supersedesMemorySha256 → b = d := by
      rintro ⟨⟩ ⟨⟩ rfl rfl rfl rfl
      rfl
    exact hparts _ _ hs.sourceMessageSha256 hs.sourceRoomId hs.parentMemorySha256 hsha
  artifactBindings := by
    obtain ⟨xs, hxs⟩ := hm.artifacts
    obtain ⟨ys, hys⟩ := hn.artifacts
    have hsame := hs.artifactBindings
    rw [hxs, hys] at hsame ⊢
    exact congrArg (fun cs => some (String.ofList cs)) hsame
  parentMemoryId := hs.parentMemoryId
  supersedesMemoryId := hkind.2.2
  applicability := by
    obtain ⟨xs, hxs⟩ := hm.applicability
    obtain ⟨ys, hys⟩ := hn.applicability
    rw [hxs, hys] at happ ⊢
    exact congrArg (fun cs => some (String.ofList cs)) happ
  createdUtc := hs.createdUtc

theorem current_mem : dumps F (currentText m.scope v m) ∈ boundTexts F v m := List.mem_cons_self

theorem legacy_mem : dumps F (legacyText m.scope v m) ∈ boundTexts F v m :=
  List.mem_cons_of_mem _ List.mem_cons_self

/-- Records of one digest agree, whichever encoding each was verified through. -/
theorem verified_agree (hF : F.Plain) (hm : Verified (P.canonical F) m.scope v m)
    (hn : Verified (P.canonical F) n.scope w n)
    (hfree : CollisionFree P (boundTexts F v m ++ boundTexts F w n))
    (h : m.memorySha256 = n.memorySha256) : Agrees F v w m n := by
  have htext {x y : Json} (hx : dumps F x ∈ boundTexts F v m) (hy : dumps F y ∈ boundTexts F w n)
      (hs : m.memorySha256 = ((P.canonical F).stableSha256 x).hex)
      (hs' : n.memorySha256 = ((P.canonical F).stableSha256 y).hex) : dumps F x = dumps F y := by
    refine hfree _ (List.mem_append_left _ hx) _ (List.mem_append_right _ hy) (sha256_hex_inj ?_)
    rw [← P.canonical_stableSha256, ← P.canonical_stableSha256, ← hs, ← hs', h]
  rcases hm.bound with hcurrent | ⟨hlegacy, hdigest⟩ <;>
    rcases hn.bound with hcurrent' | ⟨hlegacy', hdigest'⟩
  · have hkey := dumps_field? hF (htext current_mem current_mem hcurrent hcurrent')
    obtain ⟨htype, hauthority, hsupersedes, hsha, happ⟩ := memoryFields_extra hkey
    exact agrees_of_shared hm hn (legacyFields_shared hkey) ⟨htype, hauthority, hsupersedes⟩ hsha happ
  · exact absurd (htext current_mem legacy_mem hcurrent hdigest') (encodings_apart hF)
  · exact absurd (htext legacy_mem current_mem hdigest hcurrent').symm (encodings_apart hF)
  · have hkey := dumps_field? hF (htext legacy_mem legacy_mem hdigest hdigest')
    obtain ⟨htype, hauthority, hsupersedes, happ⟩ := hlegacy.same_kind hlegacy'
    refine agrees_of_shared hm hn (@legacyFields_shared _ _ _ _ _ _ _ [] [] ?_)
      ⟨htype, hauthority, hsupersedes⟩ ?_ (by rw [happ])
    · simpa only [List.append_nil] using hkey
    · simp [bindingOf, hlegacy.first, hlegacy'.first]

inductive Link where
  | parent
  | supersedes

def linked (v : Vault) (m : MemoryRow) : Link → Option MemoryRow
  | .parent => m.parentMemoryId.bind (v.memory? m.scope)
  | .supersedes => m.supersedesMemoryId.bind (v.memory? m.scope)

def ancestor (v : Vault) (m : MemoryRow) (path : List Link) : Option MemoryRow :=
  path.foldlM (linked v) m

theorem linked_mem {l : Link} (h : linked v m l = some p) : p ∈ v.memories := by
  cases l <;> obtain ⟨id, -, hp⟩ := Option.bind_eq_some_iff.mp h <;> exact lookup_mem hp

theorem linked_agree (h : Agrees F v w m n) {l : Link} (hp : linked v m l = some p) :
    ∃ q, linked w n l = some q ∧ p.memorySha256 = q.memorySha256 := by
  have hsha : (linked v m l).map MemoryRow.memorySha256 =
      (linked w n l).map MemoryRow.memorySha256 := by
    cases l with
    | parent => exact congrArg Binding.parentMemorySha256 h.binding
    | supersedes => exact congrArg Binding.supersedesMemorySha256 h.binding
  rw [hp, Option.map_some] at hsha
  obtain ⟨q, hq, he⟩ := Option.map_eq_some_iff.mp hsha.symm
  exact ⟨q, hq, he.symm⟩

theorem mem_texts {t : String} (hm : m ∈ v.memories) (ht : t ∈ boundTexts F v m) :
    t ∈ v.texts F := List.mem_flatMap.mpr ⟨m, hm, ht⟩

theorem stored_agree (hF : F.Plain)
    (hv : ∀ m ∈ v.memories, Verified (P.canonical F) m.scope v m)
    (hw : ∀ n ∈ w.memories, Verified (P.canonical F) n.scope w n)
    (hfree : CollisionFree P (v.texts F ++ w.texts F)) (hm : m ∈ v.memories) (hn : n ∈ w.memories)
    (h : m.memorySha256 = n.memorySha256) : Agrees F v w m n := by
  have hmem {t : String} (ht : t ∈ boundTexts F v m ++ boundTexts F w n) :
      t ∈ v.texts F ++ w.texts F :=
    (List.mem_append.mp ht).elim (fun ht => List.mem_append_left _ (mem_texts hm ht))
      (fun ht => List.mem_append_right _ (mem_texts hn ht))
  exact verified_agree hF (hv m hm) (hw n hn) (fun t ht u hu => hfree t (hmem ht) u (hmem hu)) h

/-- One digest fixes every ancestor of a record. -/
theorem ancestors_agree (hF : F.Plain)
    (hv : ∀ m ∈ v.memories, Verified (P.canonical F) m.scope v m)
    (hw : ∀ n ∈ w.memories, Verified (P.canonical F) n.scope w n)
    (hfree : CollisionFree P (v.texts F ++ w.texts F)) (path : List Link) (hm : m ∈ v.memories)
    (hn : n ∈ w.memories) (h : m.memorySha256 = n.memorySha256)
    (hp : ancestor v m path = some p) :
    ∃ q, ancestor w n path = some q ∧ Agrees F v w p q := by
  have hagree := stored_agree hF hv hw hfree hm hn h
  induction path generalizing m n with
  | nil =>
    obtain rfl := Option.some.inj hp
    exact ⟨n, rfl, hagree⟩
  | cons l path ih =>
    rw [ancestor, List.foldlM_cons] at hp
    obtain ⟨m', hm', hp⟩ := Option.bind_eq_some_iff.mp hp
    obtain ⟨n', hn', hsha⟩ := linked_agree hagree hm'
    have hmem := linked_mem hm'
    have hmem' := linked_mem hn'
    obtain ⟨q, hq, hpq⟩ :=
      ih hmem hmem' hsha hp (stored_agree hF hv hw hfree hmem hmem' hsha)
    refine ⟨q, ?_, hpq⟩
    rw [ancestor, List.foldlM_cons, hn']
    exact hq

def Verifies (P : Platform) (v : Vault) (m : MemoryRow) : Prop :=
  verifyMemoryRow P m.scope v m = .ok ()

def Vault.Acyclic (v : Vault) : Prop :=
  ∀ m, ¬ Relation.TransGen (Acyclic.Within Refers v.memories) m m

theorem memories_tamper_evident (hF : F.Plain) :
    (∀ a b tr, (archive (P.canonical F) F).Reachable a → (archive (P.canonical F) F).Run a tr b →
      b.vault.Acyclic ∧ (∀ m ∈ b.memories, Verifies (P.canonical F) b.vault m) ∧
      ∀ m ∈ a.memories, Verifies (P.canonical F) b.vault m ∧
        ∃ m' ∈ b.memories, m'.key = m.key ∧ m'.memorySha256 = m.memorySha256) ∧
    (∀ v w m n, Verifies (P.canonical F) v m → Verifies (P.canonical F) w n →
      CollisionFree P (boundTexts F v m ++ boundTexts F w n) → m.memorySha256 = n.memorySha256 →
      Agrees F v w m n) ∧
    (∀ v w, (∀ m ∈ v.memories, Verifies (P.canonical F) v m) →
      (∀ n ∈ w.memories, Verifies (P.canonical F) w n) →
      CollisionFree P (v.texts F ++ w.texts F) → ∀ m ∈ v.memories, ∀ n ∈ w.memories,
      m.memorySha256 = n.memorySha256 → ∀ path p, ancestor v m path = some p →
      ∃ q, ancestor w n path = some q ∧ Agrees F v w p q) := by
  refine ⟨fun a b tr ha hr => ?_, fun v w m n hm hn hfree h => ?_,
    fun v w hv hw hfree m hm n hn h path p hp => ?_⟩
  · have hsound := reachable_sound (ha.run hr)
    have hkeep := run_keeps hr
    refine ⟨hsound.acyclic, fun m hm => verifyMemoryRow_iff.mpr (hsound.verified m hm),
      fun m hm => ⟨verifyMemoryRow_iff.mpr (((reachable_sound ha).verified m hm).keeps hkeep), ?_⟩⟩
    obtain ⟨q, hq, hsha, -⟩ := hkeep.memories (memory?_of_mem (reachable_sound ha).keys hm)
    exact ⟨q, lookup_mem hq, lookup_key hq, hsha⟩
  · exact verified_agree hF (verifyMemoryRow_iff.mp hm) (verifyMemoryRow_iff.mp hn) hfree h
  · exact ancestors_agree hF (fun m hm => verifyMemoryRow_iff.mp (hv m hm))
      (fun n hn => verifyMemoryRow_iff.mp (hw n hn)) hfree path hm hn h hp

end Binding

theorem memories_tamper_evident_sample : plainForms.Plain ∧
    ∀ a, (archive (headPlatform.canonical plainForms) plainForms).Reachable a →
      a.vault.Acyclic :=
  ⟨plainForms_plain, fun a ha =>
    ((memories_tamper_evident plainForms_plain).1 a a [] ha (.nil a)).1⟩

def reword (scope id body : String) (x : MessageRow) : MessageRow :=
  if x.key = (scope, id) then { x with body := body } else x

def Vault.reword (v : Vault) (scope id body : String) : Vault :=
  v.withStore { v.store with
    mail := { v.store.mail with
      messages := v.store.mail.messages.map (Memories.reword scope id body) } }

theorem reword_kept (scope id body : String) (x : MessageRow) :
    (reword scope id body x).key = x.key ∧
      (reword scope id body x).contentSha256 = x.contentSha256 ∧
      (reword scope id body x).roomId = x.roomId := by
  unfold reword
  split <;> exact ⟨rfl, rfl, rfl⟩

theorem reword_message? (v : Vault) (scope id body s i : String) :
    (v.reword scope id body).store.mail.message? s i =
      (v.store.mail.message? s i).map (reword scope id body) :=
  lookup_map (fun x => (reword_kept scope id body x).1) _ _

theorem Keeps.reword (v : Vault) (scope id body : String) : Keeps v (v.reword scope id body) where
  messages hx := ⟨_, (reword_message? ..).trans (congrArg (Option.map _) hx),
    (reword_kept scope id body _).2⟩
  memories hp := ⟨_, hp, rfl, rfl⟩

def noteCalls : List (ArchiveCall × Ctx) :=
  [(.mail .openScope, sampleCtx sampleHuman 1),
    (.mail (.createRoom { roomId := "r", name := "Room" }), sampleCtx sampleHuman 2),
    (.mail (.sendMessage { roomId := "r", recipient := "*", taskId := "t", subject := "s",
                           body := "hello" }), sampleCtx sampleHuman 3),
    (.record { visibility := "room", roomId := "r", title := "note", body := "hello",
               sourceMessageId := sampleMessage 1 }, sampleCtx sampleHuman 4)]

def noteArchive : Archive :=
  ((archive headPlatform plainForms).play
    { world := sampleWorld, memories := [] } noteCalls).1

theorem noteArchive_reachable :
    (archive headPlatform plainForms).Reachable noteArchive :=
  ⟨_, _, ⟨⟨[], 0, rfl⟩, rfl⟩, Machine.run_play _ _ (by decide +kernel)⟩

theorem noteArchive_record : (∃ m ∈ noteArchive.memories, m.scope = "demo" ∧
      m.sourceMessageId = some (sampleMessage 1)) ∧
    (noteArchive.vault.store.mail.message? "demo" (sampleMessage 1)).map MessageRow.body =
      some "hello" := by decide +kernel

-- the message a record cites is rewritten, and the record still verifies
theorem reworded_source_verifies : ¬ ∀ a,
    (archive headPlatform plainForms).Reachable a →
    ∀ w : Vault, w.memories = a.memories → ∀ m ∈ a.memories,
      Verifies headPlatform w m →
      m.sourceMessageId.bind (w.store.mail.message? m.scope) =
        m.sourceMessageId.bind (a.vault.store.mail.message? m.scope) := by
  intro h
  obtain ⟨⟨m, hm, hscope, hsource⟩, hbody⟩ := noteArchive_record
  have hv := (reachable_sound noteArchive_reachable).verified m hm
  have hsame := h noteArchive noteArchive_reachable
    (noteArchive.vault.reword "demo" (sampleMessage 1) "edited") rfl m hm
    (verifyMemoryRow_iff.mpr (hv.keeps (.reword ..)))
  obtain ⟨x, hx, hhello⟩ := Option.map_eq_some_iff.mp hbody
  have hk : x.key = ("demo", sampleMessage 1) := lookup_key hx
  rw [hsource, hscope, Option.bind_some, Option.bind_some, reword_message?, hx, Option.map_some,
    reword, if_pos hk] at hsame
  have hedited : "edited" = x.body := congrArg MessageRow.body (Option.some.inj hsame)
  rw [hhello] at hedited
  exact absurd hedited (by decide)

end PeerBridge.Memories
