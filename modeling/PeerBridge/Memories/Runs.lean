import PeerBridge.Lib.Acyclic
import PeerBridge.Lib.Upsert
import PeerBridge.Memories.Records
import PeerBridge.Writes

namespace PeerBridge.Memories
open Checked Rows

def bindingOf (scope : String) (v : Vault) (m : MemoryRow) : Binding :=
  let source := m.sourceMessageId.bind (v.store.mail.message? scope)
  { sourceMessageSha256 := source.map (fun s => s.contentSha256.hex),
    sourceRoomId := source.map MessageRow.roomId,
    parentMemorySha256 := (m.parentMemoryId.bind (v.memory? scope)).map MemoryRow.memorySha256,
    supersedesMemorySha256 :=
      (m.supersedesMemoryId.bind (v.memory? scope)).map MemoryRow.memorySha256 }

def currentText (scope : String) (v : Vault) (m : MemoryRow) : Json :=
  .obj (memoryFields m (m.artifactBindings.getD .null) (m.applicability.getD .null)
    (bindingOf scope v m))

def legacyText (scope : String) (v : Vault) (m : MemoryRow) : Json :=
  .obj (legacyFields m (m.artifactBindings.getD .null) (bindingOf scope v m))

structure MemoryRow.Legacy (m : MemoryRow) : Prop where
  fact : m.recordType = "FACT"
  unauthorized : m.authorityId = none
  first : m.supersedesMemoryId = none
  anywhere : m.applicability = some (.arr [])

-- what a row that passes verification is
structure Verified (P : Platform) (scope : String) (v : Vault) (m : MemoryRow) : Prop where
  digest : isSha256 m.memorySha256 = true
  source : ∀ id ∈ m.sourceMessageId, ∃ s, v.store.mail.message? scope id = some s ∧
    m.sourceMessageSha256 = some s.contentSha256.hex
  sourceless : m.sourceMessageId = none → m.sourceMessageSha256 = none
  parent : ∀ id ∈ m.parentMemoryId, ∃ p, v.memory? scope id = some p
  superseded : ∀ id ∈ m.supersedesMemoryId, ∃ p, v.memory? scope id = some p
  artifacts : ∃ xs, m.artifactBindings = some (.arr xs)
  applicability : ∃ xs, m.applicability = some (.arr xs)
  bound : m.memorySha256 = (P.stableSha256 (currentText scope v m)).hex ∨
    m.Legacy ∧ m.memorySha256 = (P.stableSha256 (legacyText scope v m)).hex

section Verification
variable {P : Platform} {scope : String} {v v' : Vault} {m : MemoryRow}

theorem sourceOf_eq_ok {x : Option MessageRow} : sourceOf scope v m = .ok x ↔
    x = m.sourceMessageId.bind (v.store.mail.message? scope) ∧
      (∀ id ∈ m.sourceMessageId, ∃ s, v.store.mail.message? scope id = some s ∧
        m.sourceMessageSha256 = some s.contentSha256.hex) ∧
      (m.sourceMessageId = none → m.sourceMessageSha256 = none) := by
  unfold sourceOf
  cases m.sourceMessageId with
  | none =>
    simp only [bind_eq_ok, require_eq_ok, pure_eq_ok]
    constructor
    · rintro ⟨-, hnone, rfl⟩
      exact ⟨rfl, by simp, fun _ => hnone⟩
    · rintro ⟨rfl, -, hnone⟩
      exact ⟨(), hnone trivial, rfl⟩
  | some id =>
    simp only [bind_eq_ok, require_eq_ok, demand_eq_ok, pure_eq_ok]
    constructor
    · rintro ⟨s, hs, -, hsha, rfl⟩
      refine ⟨hs.symm, fun i hi => ?_, fun h => by cases h⟩
      obtain rfl := Option.some.inj hi
      exact ⟨s, hs, hsha⟩
    · rintro ⟨rfl, hsource, -⟩
      obtain ⟨s, hs, hsha⟩ := hsource id rfl
      exact ⟨s, hs, (), hsha, hs.symm⟩

theorem linkedMemory_eq_ok {id : Option String} {absent : String} {x : Option MemoryRow} :
    linkedMemory scope v id absent = .ok x ↔
      x = id.bind (v.memory? scope) ∧ ∀ i ∈ id, ∃ p, v.memory? scope i = some p := by
  unfold linkedMemory
  cases id with
  | none =>
    simp only [pure_eq_ok]
    exact ⟨fun h => ⟨h.symm, by simp⟩, fun h => h.1.symm⟩
  | some id =>
    cases hp : v.memory? scope id with
    | none => simp [demand, hp, Functor.map, Except.map]
    | some p => simp [demand, hp, Functor.map, Except.map, eq_comm]

theorem jsonList_eq_ok {column : Option Json} {x : Json} : jsonList column = .ok x ↔
    column = some x ∧ ∃ xs, column = some (.arr xs) := by
  unfold jsonList
  split
  · simp only [pure_eq_ok, Option.some.injEq]
    exact ⟨fun h => ⟨h, _, rfl⟩, fun h => h.1⟩
  · rename_i hno
    simp only [throw_ne_ok, false_iff]
    rintro ⟨-, xs, hxs⟩
    exact hno xs hxs

theorem isEmptyList_iff {x : Json} : isEmptyList x = true ↔ x = .arr [] := by
  unfold isEmptyList
  split <;> simp_all

theorem verifyMemoryRow_iff : verifyMemoryRow P scope v m = .ok () ↔ Verified P scope v m := by
  simp only [verifyMemoryRow, bind_eq_ok, require_eq_ok, sourceOf_eq_ok, linkedMemory_eq_ok,
    jsonList_eq_ok, isEmptyList_iff]
  constructor
  · rintro ⟨-, hdigest, _, ⟨rfl, hsource, hnone⟩, _, ⟨rfl, hparent⟩, _, ⟨rfl, hsuperseded⟩,
      artifacts, ⟨ha, hartifacts⟩, applicability, ⟨hb, happlicability⟩, hbound⟩
    refine ⟨hdigest, hsource, hnone, hparent, hsuperseded, hartifacts, happlicability, ?_⟩
    rw [currentText, legacyText, ha, hb]
    refine hbound.imp id (fun h => ⟨⟨h.1.1, h.1.2.1, h.1.2.2.1, ?_⟩, h.2⟩)
    rw [hb, h.1.2.2.2]
  · intro h
    obtain ⟨xs, hxs⟩ := h.artifacts
    obtain ⟨ys, hys⟩ := h.applicability
    refine ⟨(), h.digest, _, ⟨rfl, h.source, h.sourceless⟩, _, ⟨rfl, h.parent⟩, _,
      ⟨rfl, h.superseded⟩, .arr xs, ⟨hxs, xs, hxs⟩, .arr ys, ⟨hys, ys, hys⟩, ?_⟩
    have hbound := h.bound
    rw [currentText, legacyText, hxs, hys] at hbound
    refine hbound.imp id (fun h => ⟨⟨h.1.fact, h.1.unauthorized, h.1.first, ?_⟩, h.2⟩)
    exact Option.some.inj (hys.symm.trans h.1.anywhere)

-- whom a record is for
def MemoryRow.audience (m : MemoryRow) : String × Option String × Option String :=
  (m.visibility, m.roomId, if m.visibility = "private" then some m.ownerAgentId else none)

-- messages keep their digest and room, records their digest and audience
structure Keeps (v w : Vault) : Prop where
  messages : ∀ {scope id : String} {x : MessageRow}, v.store.mail.message? scope id = some x →
    ∃ y, w.store.mail.message? scope id = some y ∧ y.contentSha256 = x.contentSha256 ∧
      y.roomId = x.roomId
  memories : ∀ {scope id : String} {p : MemoryRow}, v.memory? scope id = some p →
    ∃ q, w.memory? scope id = some q ∧ q.memorySha256 = p.memorySha256 ∧ q.audience = p.audience

theorem Keeps.refl (v : Vault) : Keeps v v :=
  ⟨fun h => ⟨_, h, rfl, rfl⟩, fun h => ⟨_, h, rfl, rfl⟩⟩

theorem Keeps.trans {u : Vault} (h : Keeps u v) (k : Keeps v v') : Keeps u v' where
  messages hx := by
    obtain ⟨y, hy, hsha, hroom⟩ := h.messages hx
    obtain ⟨z, hz, hsha', hroom'⟩ := k.messages hy
    exact ⟨z, hz, hsha'.trans hsha, hroom'.trans hroom⟩
  memories hp := by
    obtain ⟨q, hq, hsha, haudience⟩ := h.memories hp
    obtain ⟨r, hr, hsha', haudience'⟩ := k.memories hq
    exact ⟨r, hr, hsha'.trans hsha, haudience'.trans haudience⟩

theorem map_bind_keeps {α β : Type} {f g : String → Option α} {k : α → β} {o : Option String}
    (hf : ∀ i ∈ o, ∃ p, f i = some p) (hk : ∀ i p, f i = some p → (g i).map k = some (k p)) :
    (o.bind g).map k = (o.bind f).map k := by
  cases o with
  | none => rfl
  | some i =>
    obtain ⟨p, hp⟩ := hf i rfl
    rw [Option.bind_some, Option.bind_some, hk i p hp, hp]
    rfl

theorem Verified.bindingOf_eq (h : Verified P scope v m) (hk : Keeps v v') :
    bindingOf scope v' m = bindingOf scope v m := by
  have hsource {β : Type} (k : MessageRow → β)
      (he : ∀ x y : MessageRow, y.contentSha256 = x.contentSha256 → y.roomId = x.roomId → k y = k x) :
      (m.sourceMessageId.bind (v'.store.mail.message? scope)).map k =
        (m.sourceMessageId.bind (v.store.mail.message? scope)).map k := by
    refine map_bind_keeps (fun i hi => ?_) (fun i x hx => ?_)
    · obtain ⟨s, hs, -⟩ := h.source i hi
      exact ⟨s, hs⟩
    · obtain ⟨y, hy, hsha, hroom⟩ := hk.messages hx
      rw [hy, Option.map_some, he x y hsha hroom]
  have hmemory {o : Option String} (ho : ∀ i ∈ o, ∃ p, v.memory? scope i = some p) :
      (o.bind (v'.memory? scope)).map MemoryRow.memorySha256 =
        (o.bind (v.memory? scope)).map MemoryRow.memorySha256 := by
    refine map_bind_keeps ho (fun i p hp => ?_)
    obtain ⟨q, hq, hsha, -⟩ := hk.memories hp
    rw [hq, Option.map_some, hsha]
  rw [bindingOf, bindingOf, hsource _ (fun _ _ hsha _ => by rw [hsha]),
    hsource _ (fun _ _ _ hroom => hroom), hmemory h.parent, hmemory h.superseded]

theorem Verified.keeps (h : Verified P scope v m) (hk : Keeps v v') : Verified P scope v' m where
  digest := h.digest
  source id hid := by
    obtain ⟨s, hs, hsha⟩ := h.source id hid
    obtain ⟨t, ht, hsame, -⟩ := hk.messages hs
    exact ⟨t, ht, by rw [hsame, hsha]⟩
  sourceless := h.sourceless
  parent id hid := by
    obtain ⟨p, hp⟩ := h.parent id hid
    obtain ⟨q, hq, -, -⟩ := hk.memories hp
    exact ⟨q, hq⟩
  superseded id hid := by
    obtain ⟨p, hp⟩ := h.superseded id hid
    obtain ⟨q, hq, -, -⟩ := hk.memories hp
    exact ⟨q, hq⟩
  artifacts := h.artifacts
  applicability := h.applicability
  bound := by
    rw [currentText, legacyText, h.bindingOf_eq hk]
    exact h.bound

end Verification

theorem isSha256_hex (d : Sha256) : isSha256 d.hex = true := by
  have h := Sha256.parse?_hex d
  rw [Sha256.parse?] at h
  split at h
  · assumption
  · cases h

section Calls
variable {P : Platform} {F : TextForms} {c : Ctx} {v v' : Vault} {m : MemoryRow}

theorem memoryRow_eq_ok {scope id : String} : memoryRow P scope id v = .ok m ↔
    v.memory? scope id = some m ∧ Verified P scope v m := by
  simp only [memoryRow, bind_eq_ok, demand_eq_ok, pure_eq_ok]
  constructor
  · rintro ⟨r, hr, _, hv, rfl⟩
    exact ⟨hr, verifyMemoryRow_iff.mp hv⟩
  · rintro ⟨hr, hv⟩
    exact ⟨m, hr, (), verifyMemoryRow_iff.mpr hv, rfl⟩

theorem Vault.event_eq_ok {ty : String} {payload : List (String × Json)} {w : Vault}
    (h : v.event P c ty payload = .ok w) :
    w.memories = v.memories ∧ w.store.mail = v.store.mail := by
  simp only [Vault.event, bind_eq_ok, pure_eq_ok, Prod.exists] at h
  obtain ⟨s, _, he, rfl⟩ := h
  exact ⟨rfl, (Store.event_frame he).1⟩

theorem requireRecord_artifacts {b : Bridge} {a : RecordArgs} {q : RecordRequest}
    (h : requireRecord P b a = .ok q) : ∃ xs, q.artifacts = .arr xs := by
  simp only [requireRecord, bind_eq_ok, pure_eq_ok, require_eq_ok] at h
  obtain ⟨-, -, _, -, -, -, -, -, -, -, -, -, _, -, -, -, _, -, _, -, _, -, _, -, _, -, _, -,
    -, -, artifacts, ha, rfl⟩ := h
  simp only [requireArtifacts, bind_eq_ok, pure_eq_ok] at ha
  obtain ⟨-, -, -, -, rfl⟩ := ha
  exact ⟨_, rfl⟩

theorem bindSource_eq_ok {q : RecordRequest} {x : Option MessageRow}
    (h : bindSource c q v = .ok x) : x = q.sourceMessageId.bind (v.store.mail.message? c.self.scope) ∧
      ∀ id ∈ q.sourceMessageId, ∃ s, v.store.mail.message? c.self.scope id = some s := by
  unfold bindSource at h
  cases hq : q.sourceMessageId with
  | none =>
    rw [hq] at h
    obtain rfl := pure_eq_ok.mp h
    exact ⟨rfl, by simp⟩
  | some id =>
    simp only [hq, sourceMessageBinding, bind_eq_ok, demand_eq_ok, pure_eq_ok] at h
    obtain ⟨_, ⟨s, hs, _, -, _, -, rfl⟩, _, -, rfl⟩ := h
    exact ⟨hs.symm, fun i hi => ⟨s, Option.some.inj hi ▸ hs⟩⟩

theorem bindParent_eq_ok {q : RecordRequest} {x : Option MemoryRow}
    (h : bindParent P c q v = .ok x) : x = q.parentMemoryId.bind (v.memory? c.self.scope) ∧
      ∀ id ∈ q.parentMemoryId, ∃ p, v.memory? c.self.scope id = some p := by
  unfold bindParent at h
  cases hq : q.parentMemoryId with
  | none =>
    rw [hq] at h
    obtain rfl := pure_eq_ok.mp h
    exact ⟨rfl, by simp⟩
  | some id =>
    simp only [hq, bind_eq_ok, memoryRow_eq_ok, pure_eq_ok] at h
    obtain ⟨p, ⟨hp, -⟩, _, -, _, -, _, -, rfl⟩ := h
    exact ⟨hp.symm, fun i hi => ⟨p, Option.some.inj hi ▸ hp⟩⟩

theorem bindSuperseded_eq_ok {q : RecordRequest} {x : Option MemoryRow}
    (h : bindSuperseded P c q v = .ok x) :
    x = q.supersedesMemoryId.bind (v.memory? c.self.scope) ∧
      ∀ id ∈ q.supersedesMemoryId, ∃ p, v.memory? c.self.scope id = some p := by
  unfold bindSuperseded at h
  cases hq : q.supersedesMemoryId with
  | none =>
    rw [hq] at h
    obtain rfl := pure_eq_ok.mp h
    exact ⟨rfl, by simp⟩
  | some id =>
    simp only [hq, bind_eq_ok, memoryRow_eq_ok, pure_eq_ok] at h
    obtain ⟨p, ⟨hp, -⟩, _, -, _, -, _, -, _, -, rfl⟩ := h
    exact ⟨hp.symm, fun i hi => ⟨p, Option.some.inj hi ▸ hp⟩⟩

theorem recordMemory_eq_ok {a : RecordArgs} (h : recordMemory P F c a v = .ok (v', m)) :
    ∃ q source parent superseded, requireRecord P c.self a = .ok q ∧
      bindSource c q v = .ok source ∧ bindParent P c q v = .ok parent ∧
      bindSuperseded P c q v = .ok superseded ∧
      m = recordedRow P F c q source parent superseded ∧
      v.memory? c.self.scope m.memoryId = none ∧ v'.memories = v.memories ++ [m] ∧
      v'.store.mail = v.store.mail := by
  simp only [recordMemory, bind_eq_ok, pure_eq_ok, require_eq_ok, Prod.mk.injEq] at h
  obtain ⟨q, hq, _, -, source, hs, parent, hp, superseded, hsu, _, -, _, hnone, w, he, rfl, rfl⟩ := h
  have hnone := Option.isNone_iff_eq_none.mp hnone
  obtain ⟨hrows, hmail⟩ := Vault.event_eq_ok he
  refine ⟨q, source, parent, superseded, hq, hs, hp, hsu, rfl, hnone, ?_, hmail⟩
  rw [hrows]
  exact upsert_of_absent hnone

theorem revokeMemory_eq_ok {a : RevokeArgs} (h : revokeMemory P F c a v = .ok (v', m)) :
    ∃ row, v.memory? m.scope m.memoryId = some row ∧ row.status = "active" ∧
      (∃ revoked reason sha, m = { row with status := "revoked", revokedUtc := some revoked,
                                            revocationReason := some reason,
                                            revocationSha256 := some sha }) ∧
      v'.memories = upsert MemoryRow.key m v.memories ∧ v'.store.mail = v.store.mail := by
  simp only [revokeMemory, bind_eq_ok, pure_eq_ok, require_eq_ok, memoryRow_eq_ok,
    Prod.mk.injEq] at h
  obtain ⟨id, -, reason, -, row, ⟨hrow, -⟩, _, hactive, _, -, w, he, rfl, rfl⟩ := h
  obtain ⟨hrows, hmail⟩ := Vault.event_eq_ok he
  have hkey : row.key = (c.self.scope, id) := lookup_key hrow
  refine ⟨row, ?_, hactive, ⟨_, _, _, rfl⟩, hrows, hmail⟩
  rw [Vault.memory?, ← hkey] at hrow
  exact hrow

end Calls

def Refers (m p : MemoryRow) : Prop :=
  m.scope = p.scope ∧ (m.parentMemoryId = some p.memoryId ∨ m.supersedesMemoryId = some p.memoryId)

-- records verify and refer to records made before them
structure Vault.Sound (P : Platform) (v : Vault) : Prop where
  keys : (v.memories.map MemoryRow.key).Nodup
  verified : ∀ m ∈ v.memories, Verified P m.scope v m
  selfless : ∀ m ∈ v.memories, ¬ Refers m m
  ordered : v.memories.Pairwise (fun m n => ¬ Refers m n)

section Soundness
variable {P : Platform} {F : TextForms} {c : Ctx} {v v' : Vault} {m p : MemoryRow}

theorem memory?_of_mem (h : (v.memories.map MemoryRow.key).Nodup) (hm : m ∈ v.memories) :
    v.memory? m.scope m.memoryId = some m := lookup_of_mem h hm

theorem Verified.refers (h : Verified P m.scope v m) (hr : Refers m p) :
    ∃ x, v.memory? p.scope p.memoryId = some x := by
  obtain ⟨hscope, hid | hid⟩ := hr
  · exact hscope ▸ h.parent _ hid
  · exact hscope ▸ h.superseded _ hid

theorem Keeps.of_append (h : v'.memories = v.memories ++ [m]) (hmail : v'.store.mail = v.store.mail) :
    Keeps v v' where
  messages hx := ⟨_, by rwa [hmail], rfl, rfl⟩
  memories hp := by
    refine ⟨_, ?_, rfl, rfl⟩
    rw [Vault.memory?] at hp ⊢
    rw [h, lookup_append, hp, Option.some_or]

theorem Keeps.of_upsert (hold : v.memory? m.scope m.memoryId = some p)
    (hsha : m.memorySha256 = p.memorySha256) (haudience : m.audience = p.audience)
    (h : v'.memories = upsert MemoryRow.key m v.memories)
    (hmail : v'.store.mail = v.store.mail) : Keeps v v' where
  messages hx := ⟨_, by rwa [hmail], rfl, rfl⟩
  memories {scope id x} hx := by
    rw [Vault.memory?, h, lookup_upsert]
    by_cases hk : m.key = (scope, id)
    · rw [if_pos hk]
      have hxp : some x = some p := by
        rw [← hx, ← hold, Vault.memory?, Vault.memory?, ← hk]
        rfl
      obtain rfl := Option.some.inj hxp
      exact ⟨m, rfl, hsha, haudience⟩
    · rw [if_neg hk]
      exact ⟨x, hx, rfl, rfl⟩

theorem recordedRow_verified {q : RecordRequest} {source : Option MessageRow}
    {parent superseded : Option MemoryRow} (hq : ∃ xs, q.artifacts = .arr xs)
    (hs : bindSource c q v = .ok source) (hp : bindParent P c q v = .ok parent)
    (hsu : bindSuperseded P c q v = .ok superseded) :
    Verified P c.self.scope v (recordedRow P F c q source parent superseded) := by
  obtain ⟨rfl, hsource⟩ := bindSource_eq_ok hs
  obtain ⟨rfl, hparent⟩ := bindParent_eq_ok hp
  obtain ⟨rfl, hsuperseded⟩ := bindSuperseded_eq_ok hsu
  obtain ⟨xs, hxs⟩ := hq
  refine ⟨isSha256_hex _, fun id hid => ?_, fun hnone => ?_, hparent, hsuperseded, ⟨xs, ?_⟩,
    ⟨_, rfl⟩, .inl rfl⟩
  · obtain ⟨s, hs⟩ := hsource id hid
    have hid : q.sourceMessageId = some id := hid
    refine ⟨s, hs, ?_⟩
    simp [recordedRow, sealMemory, hid, hs]
  · have hnone : q.sourceMessageId = none := hnone
    simp [recordedRow, sealMemory, hnone]
  · exact congrArg some hxs

theorem recordMemory_keeps {a : RecordArgs} (h : recordMemory P F c a v = .ok (v', m)) :
    Keeps v v' := by
  obtain ⟨-, -, -, -, -, -, -, -, -, -, hrows, hmail⟩ := recordMemory_eq_ok h
  exact .of_append hrows hmail

theorem revokeMemory_keeps {a : RevokeArgs} (h : revokeMemory P F c a v = .ok (v', m)) :
    Keeps v v' := by
  obtain ⟨row, hold, -, ⟨_, _, _, hm⟩, hrows, hmail⟩ := revokeMemory_eq_ok h
  exact .of_upsert hold (by rw [hm]) (by rw [hm]; rfl) hrows hmail

theorem Keeps.withStore {s : Store}
    (h : ∃ rows, s.mail.messages = v.store.mail.messages ++ rows) : Keeps v (v.withStore s) := by
  obtain ⟨rows, hrows⟩ := h
  exact ⟨fun hx => ⟨_, message?_grow hrows hx, rfl, rfl⟩, fun hp => ⟨_, hp, rfl, rfl⟩⟩

theorem Vault.Sound.record {a : RecordArgs} (hv : v.Sound P)
    (h : recordMemory P F c a v = .ok (v', m)) : v'.Sound P := by
  obtain ⟨q, source, parent, superseded, hq, hs, hp, hsu, hm, hnone, hrows, -⟩ :=
    recordMemory_eq_ok h
  have hscope : m.scope = c.self.scope := by rw [hm]; rfl
  have hkeep : Keeps v v' := recordMemory_keeps h
  have hverified : Verified P m.scope v m := by
    rw [hscope, hm]
    exact recordedRow_verified (requireRecord_artifacts hq) hs hp hsu
  have hnew {x : MemoryRow} (hx : Verified P x.scope v x) : ¬ Refers x m := by
    intro hr
    obtain ⟨y, hy⟩ := hx.refers hr
    rw [hscope, hnone] at hy
    cases hy
  have hfresh : ∀ x ∈ v.memories, x.key ≠ m.key := by
    rw [← hscope] at hnone
    exact lookup_eq_none.mp hnone
  constructor
  · rw [hrows, List.map_append, List.nodup_append]
    refine ⟨hv.keys, List.nodup_singleton _, fun k hk l hl => ?_⟩
    obtain ⟨x, hx, rfl⟩ := List.mem_map.mp hk
    obtain rfl := List.mem_singleton.mp hl
    exact hfresh x hx
  · rw [hrows]
    intro x hx
    rcases List.mem_append.mp hx with hx | hx
    · exact (hv.verified x hx).keeps hkeep
    · obtain rfl := List.mem_singleton.mp hx
      exact hverified.keeps hkeep
  · rw [hrows]
    intro x hx
    rcases List.mem_append.mp hx with hx | hx
    · exact hv.selfless x hx
    · obtain rfl := List.mem_singleton.mp hx
      exact hnew hverified
  · rw [hrows, List.pairwise_append]
    refine ⟨hv.ordered, List.pairwise_singleton _ _, fun x hx y hy => ?_⟩
    obtain rfl := List.mem_singleton.mp hy
    exact hnew (hv.verified x hx)

theorem Vault.Sound.revoke {a : RevokeArgs} (hv : v.Sound P)
    (h : revokeMemory P F c a v = .ok (v', m)) : v'.Sound P := by
  obtain ⟨row, hold, -, ⟨revoked, reason, sha, hm⟩, hrows, -⟩ := revokeMemory_eq_ok h
  have hmem : row ∈ v.memories := lookup_mem hold
  have hkeep : Keeps v v' := revokeMemory_keeps h
  have hverified : Verified P m.scope v m := by
    rw [hm]
    obtain ⟨h1, h2, h3, h4, h5, h6, h7, h8⟩ := hv.verified row hmem
    refine ⟨h1, h2, h3, h4, h5, h6, h7, h8.imp_right (And.imp_left ?_)⟩
    rintro ⟨hfact, hauthority, hfirst, hanywhere⟩
    exact ⟨hfact, hauthority, hfirst, hanywhere⟩
  have hleft : ∀ x, Refers x m ↔ Refers x row := fun x => by rw [hm]; exact Iff.rfl
  have hright : ∀ x, Refers m x ↔ Refers row x := fun x => by rw [hm]; exact Iff.rfl
  constructor
  · rw [hrows]
    exact nodup_upsert m hv.keys
  · rw [hrows]
    intro x hx
    rcases mem_upsert hx with rfl | hx
    · exact hverified.keeps hkeep
    · exact (hv.verified x hx).keeps hkeep
  · rw [hrows]
    intro x hx
    rcases mem_upsert hx with rfl | hx
    · rw [hleft, hright]
      exact hv.selfless row hmem
    · exact hv.selfless x hx
  · rw [hrows]
    refine pairwise_upsert hold (fun x hx => ?_) (fun x hx => ?_) hv.ordered
    · rwa [hleft]
    · rwa [hright]

theorem Vault.Sound.mail {s : Store} (hv : v.Sound P)
    (hmessages : ∃ rows, s.mail.messages = v.store.mail.messages ++ rows) :
    (v.withStore s).Sound P := by
  have hkeep : Keeps v (v.withStore s) := .withStore hmessages
  exact ⟨hv.keys, fun m hm => (hv.verified m hm).keeps hkeep, hv.selfless, hv.ordered⟩

end Soundness

section Runs
variable {P : Platform} {F : TextForms} {a : Archive}

theorem attempt_messages (w : World) (i : Call × Ctx) :
    ∃ rows, (attempt P w i).1.store.mail.messages = w.store.mail.messages ++ rows := by
  unfold attempt
  split
  · rename_i s r hp
    rcases perform_writes hp with ⟨-, rfl⟩ | hw
    · exact ⟨[], (List.append_nil _).symm⟩
    · exact hw.messages
  · exact ⟨[], (List.append_nil _).symm⟩

theorem finish_cases {inv : Vault → Prop} {x : Except BridgeError (Vault × MemoryRow)}
    (h : inv a.vault) (hx : ∀ v m, x = .ok (v, m) → inv v) : inv (a.finish x).1.vault := by
  cases x with
  | error e => exact h
  | ok r => exact hx r.1 r.2 rfl

theorem attemptArchive_sound (i : ArchiveCall × Ctx) (h : a.vault.Sound P) :
    (attemptArchive P F a i).1.vault.Sound P := by
  unfold attemptArchive
  split
  · exact h.mail (attempt_messages a.world _)
  · exact finish_cases h (fun v m hr => h.record hr)
  · exact finish_cases h (fun v m hr => h.revoke hr)

theorem attemptArchive_keeps (a : Archive) (i : ArchiveCall × Ctx) :
    Keeps a.vault (attemptArchive P F a i).1.vault := by
  unfold attemptArchive
  split
  · exact .withStore (attempt_messages a.world _)
  · exact finish_cases (.refl _) (fun v m hr => recordMemory_keeps hr)
  · exact finish_cases (.refl _) (fun v m hr => revokeMemory_keeps hr)

theorem run_keeps {a' : Archive} {tr : List ((ArchiveCall × Ctx) × ArchiveReply)}
    (h : (archive P F).Run a tr a') : Keeps a.vault a'.vault :=
  h.preserves (fun x => Keeps a.vault x.vault) (fun x i hx _ => hx.trans (attemptArchive_keeps x i))
    (.refl _)

theorem reachable_sound (h : (archive P F).Reachable a) : a.vault.Sound P := by
  refine h.invariant (fun a => a.vault.Sound P) (fun a ha => ?_)
    (fun a i hi _ => attemptArchive_sound i hi)
  have hnil : a.vault.memories = [] := ha.2
  constructor <;> simp [hnil]

theorem Vault.Sound.acyclic {v : Vault} (h : v.Sound P) (m : MemoryRow) :
    ¬ Relation.TransGen (Acyclic.Within Refers v.memories) m m :=
  Acyclic.no_cycle h.selfless h.ordered m

end Runs

end PeerBridge.Memories
