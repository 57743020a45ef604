import PeerBridge.Memories.Supersession

namespace PeerBridge.Memories
open Checked Rows

-- ORDER BY created_utc, memory_id
def earlier (m n : MemoryRow) : Prop := later n m

instance : DecidableRel earlier := fun m n => inferInstanceAs (Decidable (later n m))

structure BriefArgs where
  taskId : String
  roomId : String := ""
  applicability : List String := []

structure MemoryBinding where
  memoryId : String
  memorySha256 : String
  recordType : String
  authorityId : String
  deriving DecidableEq

structure TaskBriefing where
  scope : String
  briefingId : String
  taskId : String
  agentId : String
  roomId : Option String
  applicability : List String
  memoryBindings : List MemoryBinding
  createdUtc : String
  briefingSha256 : Sha256

def TaskBriefing.key (t : TaskBriefing) : String × String := (t.scope, t.briefingId)

def briefable (scope : String) (roomId : Option String) (m : MemoryRow) : Prop :=
  m.scope = scope ∧ m.status = "active" ∧
    (m.visibility = "project" ∨ ∃ id ∈ roomId, m.roomId = some id)

instance (scope : String) (roomId : Option String) (m : MemoryRow) :
    Decidable (briefable scope roomId m) := inferInstanceAs (Decidable (_ ∧ _ ∧ _))

def briefableRows (scope : String) (roomId : Option String) (v : Vault) : List MemoryRow :=
  (v.memories.filter (fun m => briefable scope roomId m)).insertionSort earlier

def historicalSuperseders (scope : String) (v : Vault) : List MemoryRow :=
  (v.memories.filter
    (fun m => m.scope = scope ∧ m.supersedesMemoryId.isSome = true)).insertionSort earlier

-- the rows the agent may read, each verified
def visibleRows (P : Platform) (b : Bridge) (v : Vault) :
    List MemoryRow → Except BridgeError (List MemoryRow)
  | [] => pure []
  | row :: rows =>
    if readable b v row = true then do
      verifyMemoryRow P b.scope v row
      let rest ← visibleRows P b v rows
      pure (row :: rest)
    else visibleRows P b v rows

def supersededIds (P : Platform) (b : Bridge) (v : Vault) : Except BridgeError (List String) := do
  let rows ← visibleRows P b v (historicalSuperseders b.scope v)
  pure (rows.map (fun m => m.supersedesMemoryId.getD "None"))

def jsonItems : Option Json → List Json
  | some (.arr items) => items
  | _ => []

def isRequested (requested : List String) : Json → Bool
  | .str t => t ∈ requested
  | _ => false

def MemoryRow.appliesTo (requested : List String) (m : MemoryRow) : Bool :=
  (jsonItems m.applicability).isEmpty || (jsonItems m.applicability).any (isRequested requested)

def bound (superseded requested : List String) (m : MemoryRow) : Prop :=
  m.memoryId ∉ superseded ∧ m.recordType ≠ "DEPRECATED" ∧ m.appliesTo requested = true

instance (superseded requested : List String) (m : MemoryRow) :
    Decidable (bound superseded requested m) := inferInstanceAs (Decidable (_ ∧ _ ∧ _))

def MemoryRow.binding (m : MemoryRow) : MemoryBinding :=
  { memoryId := m.memoryId, memorySha256 := m.memorySha256, recordType := m.recordType,
    authorityId := m.authorityId.getD "" }

def MemoryBinding.json (x : MemoryBinding) : Json :=
  .obj [("memory_id", .str x.memoryId), ("memory_sha256", .str x.memorySha256),
    ("record_type", .str x.recordType), ("authority_id", .str x.authorityId)]

def briefingPayload (t : TaskBriefing) : Json :=
  .obj [("scope", .str t.scope), ("briefing_id", .str t.briefingId), ("task_id", .str t.taskId),
    ("agent_id", .str t.agentId), ("room_id", .opt t.roomId),
    ("applicability", .arr (t.applicability.map Json.str)),
    ("memory_bindings", .arr (t.memoryBindings.map MemoryBinding.json)),
    ("created_utc", .str t.createdUtc)]

structure BriefRequest where
  taskId : String
  roomId : Option String
  applicability : List String

def requireBrief (P : Platform) (a : BriefArgs) : Except BridgeError BriefRequest := do
  let taskId ← requireIdentifier a.taskId "task_id"
  let roomId ← optionalIdentifier a.roomId "room_id"
  let applicability ← requireApplicability P a.applicability
  pure { taskId, roomId, applicability }

def briefingOf (P : Platform) (F : TextForms) (c : Ctx) (q : BriefRequest)
    (records : List MemoryRow) : TaskBriefing :=
  let t : TaskBriefing :=
    { scope := c.self.scope, briefingId := c.uuid.text, taskId := q.taskId,
      agentId := c.self.agentId, roomId := q.roomId, applicability := q.applicability,
      memoryBindings := records.map MemoryRow.binding,
      createdUtc := F.utc (utcNow c.clock.entry), briefingSha256 := zeroSha256 }
  { t with briefingSha256 := P.stableSha256 (briefingPayload t) }

structure Briefed where
  vault : Vault
  briefings : List TaskBriefing
  briefing : TaskBriefing
  records : List MemoryRow

def briefTask (P : Platform) (F : TextForms) (c : Ctx) (a : BriefArgs) (v : Vault)
    (briefings : List TaskBriefing) : Except BridgeError Briefed := do
  let q ← requireBrief P a
  requireListedRoom c.self q.roomId v
  let visible ← visibleRows P c.self v (briefableRows c.self.scope q.roomId v)
  let superseded ← supersededIds P c.self v
  let records := visible.filter (fun m => bound superseded q.applicability m)
  let briefing := briefingOf P F c q records
  require ((lookup TaskBriefing.key briefing.key briefings).isNone = true)
    (.integrity "task_briefings")
  let (s, _) ← v.store.event P c "memory.task_briefed"
    [("briefing_id", .str briefing.briefingId), ("task_id", .str q.taskId),
      ("record_count", .int briefing.memoryBindings.length),
      ("briefing_sha256", .sha briefing.briefingSha256)] (some q.taskId)
  pure { vault := v.withStore s, briefings := briefings ++ [briefing], briefing, records }

section Exclusion
variable {P : Platform} {F : TextForms} {b : Bridge} {v : Vault} {m : MemoryRow}

theorem visibleRows_eq {rows : List MemoryRow}
    (h : ∀ m ∈ rows, verifyMemoryRow P b.scope v m = .ok ()) :
    visibleRows P b v rows = .ok (rows.filter (readable b v)) := by
  induction rows with
  | nil => rfl
  | cons row rows ih =>
    obtain ⟨hrow, hrows⟩ := List.forall_mem_cons.mp h
    rw [visibleRows, ih hrows]
    by_cases hr : readable b v row = true
    · rw [if_pos hr, hrow, List.filter_cons_of_pos hr]
      rfl
    · rw [if_neg hr, List.filter_cons_of_neg hr]

theorem mem_briefableRows {scope : String} {roomId : Option String} :
    m ∈ briefableRows scope roomId v ↔ m ∈ v.memories ∧ briefable scope roomId m := by
  rw [briefableRows, List.mem_insertionSort, List.mem_filter, decide_eq_true_eq]

theorem mem_historicalSuperseders {scope : String} :
    m ∈ historicalSuperseders scope v ↔
      m ∈ v.memories ∧ m.scope = scope ∧ m.supersedesMemoryId.isSome = true := by
  rw [historicalSuperseders, List.mem_insertionSort, List.mem_filter, decide_eq_true_eq]

theorem mem_superseders {scope id : String} :
    m ∈ superseders scope v id ↔
      m ∈ v.memories ∧ m.scope = scope ∧ m.supersedesMemoryId = some id := by
  rw [superseders, List.mem_filter, decide_eq_true_eq]

theorem supersededIds_eq (hs : v.Sound P) : supersededIds P b v =
    .ok (((historicalSuperseders b.scope v).filter (readable b v)).map
      (fun m => m.supersedesMemoryId.getD "None")) := by
  rw [supersededIds, visibleRows_eq]
  · rfl
  · intro m hm
    obtain ⟨hm, hscope, -⟩ := mem_historicalSuperseders.mp hm
    exact hs.verifies hm hscope

/-- Whoever can read a record finds it superseded exactly when some record supersedes it. -/
theorem mem_supersededIds (hs : v.Sound P) (hk : v.Kindred) {ids : List String}
    (h : supersededIds P b v = .ok ids) (hm : m ∈ v.memories) (hscope : m.scope = b.scope)
    (hr : readable b v m = true) :
    m.memoryId ∈ ids ↔ superseders b.scope v m.memoryId ≠ [] := by
  rw [supersededIds_eq hs] at h
  obtain rfl := Except.ok.inj h
  rw [List.mem_map]
  constructor
  · rintro ⟨x, hx, hid⟩
    obtain ⟨hx, -⟩ := List.mem_filter.mp hx
    obtain ⟨hx, hxscope, hsome⟩ := mem_historicalSuperseders.mp hx
    obtain ⟨k, hk⟩ := Option.isSome_iff_exists.mp hsome
    rw [hk, Option.getD_some] at hid
    exact List.ne_nil_of_mem (mem_superseders.mpr ⟨hx, hxscope, hid ▸ hk⟩)
  · intro hne
    obtain ⟨x, hx⟩ := List.exists_mem_of_ne_nil _ hne
    obtain ⟨hx, hxscope, hid⟩ := mem_superseders.mp hx
    have hxr := superseder_readable hk hs.keys hm hr hx (hxscope.trans hscope.symm) hid
    refine ⟨x, List.mem_filter.mpr ⟨mem_historicalSuperseders.mpr ⟨hx, hxscope, ?_⟩, hxr⟩, ?_⟩
    · rw [hid, Option.isSome_some]
    · rw [hid, Option.getD_some]

-- what a briefing is to bind
structure Selected (b : Bridge) (v : Vault) (t : TaskBriefing) (m : MemoryRow) : Prop where
  stored : m ∈ v.memories
  selected : briefable b.scope t.roomId m
  readable : readable b v m = true
  applicable : m.appliesTo t.applicability = true
  current : m.recordType ≠ "DEPRECATED"

theorem briefTask_bindings {c : Ctx} {a : BriefArgs} {briefings : List TaskBriefing} {r : Briefed}
    (hs : v.Sound P) (hk : v.Kindred) (h : briefTask P F c a v briefings = .ok r) (id : String) :
    id ∈ r.briefing.memoryBindings.map MemoryBinding.memoryId ↔
      ∃ m, m.memoryId = id ∧ Selected c.self v r.briefing m ∧ superseders c.self.scope v id = [] := by
  simp only [briefTask, bind_eq_ok, pure_eq_ok, Prod.exists] at h
  obtain ⟨q, -, _, -, visible, hvisible, superseded, hsuperseded, _, -, _, _, -, rfl⟩ := h
  rw [visibleRows_eq (fun m hm => by
    obtain ⟨hm, hb⟩ := mem_briefableRows.mp hm
    exact hs.verifies hm hb.1)] at hvisible
  obtain rfl := Except.ok.inj hvisible
  change id ∈ ((_ : List MemoryRow).map MemoryRow.binding).map MemoryBinding.memoryId ↔ _
  rw [List.map_map, List.mem_map]
  constructor
  · rintro ⟨m, hm, rfl⟩
    obtain ⟨hm, hbound⟩ := List.mem_filter.mp hm
    obtain ⟨hm, hr⟩ := List.mem_filter.mp hm
    obtain ⟨hm, hb⟩ := mem_briefableRows.mp hm
    obtain ⟨hfree, hcurrent, happlies⟩ := of_decide_eq_true hbound
    refine ⟨m, rfl, ⟨hm, hb, hr, happlies, hcurrent⟩, ?_⟩
    by_contra hne
    exact hfree ((mem_supersededIds hs hk hsuperseded hm hb.1 hr).mpr hne)
  · rintro ⟨m, rfl, hm, hnone⟩
    refine ⟨m, List.mem_filter.mpr ⟨List.mem_filter.mpr ⟨mem_briefableRows.mpr
      ⟨hm.stored, hm.selected⟩, hm.readable⟩, decide_eq_true ⟨?_, hm.current, hm.applicable⟩⟩, rfl⟩
    intro hmem
    exact (mem_supersededIds hs hk hsuperseded hm.stored hm.selected.1 hm.readable).mp hmem hnone

end Exclusion

/-- Reading a record carries over to what supersedes it, so that its exclusion does not depend on
the agent. -/
theorem supersession_uniform {P : Platform} {F : TextForms} {a : Archive}
    (ha : (archive P F).Reachable a) :
    (∀ b m x, m ∈ a.vault.memories → x ∈ superseders m.scope a.vault m.memoryId →
      readable b a.vault m = true → readable b a.vault x = true) ∧
    (∀ b m ids, m ∈ a.vault.memories → m.scope = b.scope → readable b a.vault m = true →
      supersededIds P b a.vault = .ok ids →
      (m.memoryId ∈ ids ↔ superseders m.scope a.vault m.memoryId ≠ [])) ∧
    (∀ c x briefings r, briefTask P F c x a.vault briefings = .ok r → ∀ id,
      (id ∈ r.briefing.memoryBindings.map MemoryBinding.memoryId ↔
        ∃ m, m.memoryId = id ∧ Selected c.self a.vault r.briefing m ∧
          superseders c.self.scope a.vault id = [])) := by
  have hs := reachable_sound ha
  have hk := reachable_kindred ha
  refine ⟨fun b m x hm hx hr => ?_, fun b m ids hm hscope hr h => ?_,
    fun c x briefings r h id => briefTask_bindings hs hk h id⟩
  · obtain ⟨hx, hscope, hid⟩ := mem_superseders.mp hx
    exact superseder_readable hk hs.keys hm hr hx hscope hid
  · rw [hscope]
    exact mem_supersededIds hs hk h hm hscope hr

theorem supersession_uniform_twice : ∃ m ∈ twiceArchive.vault.memories,
    ∃ x ∈ superseders m.scope twiceArchive.vault m.memoryId,
      readable sampleHuman twiceArchive.vault x = true := by
  have hsome : ∃ m ∈ twiceArchive.vault.memories,
      readable sampleHuman twiceArchive.vault m = true ∧
        (superseders m.scope twiceArchive.vault m.memoryId).isEmpty = false := by decide +kernel
  obtain ⟨m, hm, hr, hempty⟩ := hsome
  obtain ⟨x, hx⟩ := List.exists_mem_of_ne_nil _ (List.isEmpty_eq_false_iff.mp hempty)
  exact ⟨m, hm, x, hx, (supersession_uniform twiceArchive_reachable).1 sampleHuman m x hm hx hr⟩

end PeerBridge.Memories
