import PeerBridge.Tasks.Board

namespace PeerBridge
open Checked Rows

def Conflicting (P : Platform) (p q : TaskPathRow) : Prop :=
  (p.access = .write ∨ q.access = .write) ∧ pathOverlaps P p.pathPrefix q.pathPrefix = true

structure TaskStore.Exclusive (P : Platform) (s : TaskStore) (now : ℚ) : Prop where
  keys : (s.tasks.map TaskRow.key).Nodup
  apart : ∀ k₁ k₂ : String × String, k₁ ≠ k₂ → ∀ t₁ t₂, s.task? k₁.1 k₁.2 = some t₁ →
    s.task? k₂.1 k₂.2 = some t₂ → t₁.workspaceRootKey = t₂.workspaceRootKey →
    t₁.live now → t₂.live now → ∀ p ∈ s.pathsOf k₁, ∀ q ∈ s.pathsOf k₂, ¬Conflicting P p q

section Leases
variable {P : Platform} {c : TaskCtx} {files : Files} {s s' s₁ : TaskStore} {now later : ℚ}
  {t t' : TaskRow} {p q : TaskPathRow}

theorem Conflicting.symm (h : Conflicting P p q) : Conflicting P q p :=
  ⟨h.1.symm, pathOverlaps_comm.trans h.2⟩

theorem TaskRow.live.mono (h : t.live later) (hle : now ≤ later) : t.live now := by
  obtain ⟨hs, e, he, hlt⟩ := h
  exact ⟨hs, e, he, lt_of_le_of_lt hle hlt⟩

theorem not_live_unleased {status : TaskStatus} {u : Utc} : ¬(t.unleased status u).live now := by
  rintro ⟨-, e, he, -⟩
  cases he

theorem TaskStore.Exclusive.mono (h : s.Exclusive P now) (hle : now ≤ later) :
    s.Exclusive P later :=
  ⟨h.keys, fun k₁ k₂ hk t₁ t₂ h₁ h₂ hr hl₁ hl₂ =>
    h.apart k₁ k₂ hk t₁ t₂ h₁ h₂ hr (hl₁.mono hle) (hl₂.mono hle)⟩

/-- A step that grants no lease keeps the live leases apart. -/
theorem TaskStore.Exclusive.shrink (h : s.Exclusive P now)
    (hk : s'.tasks.map TaskRow.key = s.tasks.map TaskRow.key) (hp : s'.paths = s.paths)
    (hl : ∀ k : String × String, ∀ t', s'.task? k.1 k.2 = some t' → t'.live now →
      ∃ t, s.task? k.1 k.2 = some t ∧ t.live now ∧ t.workspaceRootKey = t'.workspaceRootKey) :
    s'.Exclusive P now := by
  refine ⟨hk ▸ h.keys, fun k₁ k₂ hne t₁ t₂ h₁ h₂ hr hl₁ hl₂ => ?_⟩
  obtain ⟨u₁, hu₁, hul₁, hur₁⟩ := hl k₁ t₁ h₁ hl₁
  obtain ⟨u₂, hu₂, hul₂, hur₂⟩ := hl k₂ t₂ h₂ hl₂
  unfold TaskStore.pathsOf
  rw [hp]
  exact h.apart k₁ k₂ hne u₁ u₂ hu₁ hu₂ (by rw [hur₁, hur₂, hr]) hul₁ hul₂

theorem Lapsed.exclusive {c : Ctx} (h : Lapsed c s s') (hs : s.Exclusive P now) :
    s'.Exclusive P now := by
  refine hs.shrink h.keys (by rw [h.rest]) fun k t' ht' hl => ?_
  rcases h.row k with he | ⟨t, -, -, he⟩
  · exact ⟨t', he ▸ ht', hl, rfl⟩
  · obtain rfl := Option.some.inj (he.symm.trans ht')
    exact absurd hl not_live_unleased

theorem Retask.same (h : Retask c t t') :
    t'.key = t.key ∧ t'.workspaceRootKey = t.workspaceRootKey := by
  cases h <;> exact ⟨rfl, rfl⟩

theorem retask_exclusive (ht : s.task? c.self.scope t.taskId = some t)
    (hlive : t.live now) (hstep : Retask c t t') (hs : s.Exclusive P now)
    (he : ∃ updates a, s' = { s.putTask t' with updates := updates, audit := a }) :
    s'.Exclusive P now := by
  obtain ⟨updates, a, rfl⟩ := he
  obtain ⟨hkey, hroot⟩ := hstep.same
  have htk : t.key = (c.self.scope, t.taskId) := lookup_key ht
  have hmem : t'.key ∈ s.tasks.map TaskRow.key := hkey ▸ List.mem_map_of_mem (lookup_mem ht)
  refine hs.shrink (TaskStore.putTask_keys hmem) rfl fun k u hu hl => ?_
  have hlook := TaskStore.task?_putTask (s := s) (t := t') k
  by_cases hk : t'.key = k
  · rw [if_pos hk] at hlook
    obtain rfl := Option.some.inj (hlook.symm.trans hu)
    refine ⟨t, ?_, hlive, hroot.symm⟩
    rw [← hk, hkey, htk]
    exact ht
  · rw [if_neg hk] at hlook
    exact ⟨u, hlook ▸ hu, hl, rfl⟩

theorem mem_activePaths (ht : s.task? p.key.1 p.key.2 = some t) (hl : t.live now)
    (hp : p ∈ s.paths) : (t, p) ∈ s.activePaths t.workspaceRootKey now := by
  obtain ⟨hs, e, he, hlt⟩ := hl
  have hk : t.key = p.key := lookup_key ht
  refine List.mem_flatMap.mpr ⟨t, List.mem_filter.mpr ⟨lookup_mem ht, ?_⟩,
    List.mem_map.mpr ⟨p, List.mem_filter.mpr ⟨hp, ?_⟩, rfl⟩⟩
  · simp [hs, he, hlt]
  · simp [hk]

theorem not_conflicting_of_conflicts {key : String × String} {plan : TaskPlan}
    {active : List (TaskRow × TaskPathRow)} (h : pathConflicts P key plan active = [])
    {new : Access × String} (hn : new ∈ plan.requested) (ha : (t, q) ∈ active) (hk : t.key ≠ key)
    (hp : p.access = new.1 ∧ p.pathPrefix = new.2) : ¬Conflicting P p q := by
  have hnone : pathConflict P key new (t, q) = none :=
    List.filterMap_eq_nil_iff.mp (List.flatMap_eq_nil_iff.mp h new hn) (t, q) ha
  rintro ⟨hw, ho⟩
  simp only [pathConflict, ite_eq_left_iff, not_or, reduceCtorEq, imp_false, not_and,
    not_not] at hnone
  have hover := hnone hk (fun hread => fun hqr => by
    rw [hp.1, hread, hqr] at hw
    simp at hw)
  rw [← hp.2, ho] at hover
  cases hover

theorem mem_paths_putClaim {plan : TaskPlan} {u : Utc} (h : q ∈ (s.putClaim t plan u).paths) :
    (q ∈ s.paths ∧ q.key ≠ t.key) ∨
      (q.key = t.key ∧ ∃ new ∈ plan.requested, q.access = new.1 ∧ q.pathPrefix = new.2) := by
  rcases List.mem_append.mp h with h | h
  · obtain ⟨hm, hk⟩ := List.mem_filter.mp h
    exact .inl ⟨hm, by simpa using hk⟩
  · obtain ⟨new, hn, rfl⟩ := List.mem_map.mp h
    exact .inr ⟨rfl, new, hn, rfl, rfl⟩

theorem mem_pathsOf {k : String × String} : p ∈ s.pathsOf k ↔ p ∈ s.paths ∧ p.key = k := by
  simp [TaskStore.pathsOf]

-- the new lease against one that was live before
theorem Claims.apart_from {plan : TaskPlan} {T : TaskRow} (h : Claims P c s s₁ s' plan)
    (hle : c.clock.entry ≤ now) (hroot : T.workspaceRootKey = c.site.workspaceRootKey)
    (ht : s₁.task? q.key.1 q.key.2 = some T) (hl : T.live now) (hq : q ∈ s₁.paths)
    (hne : q.key ≠ (c.self.scope, plan.taskId)) {new : Access × String}
    (hn : new ∈ plan.requested) (hp : p.access = new.1 ∧ p.pathPrefix = new.2) :
    ¬Conflicting P p q := by
  have hactive := mem_activePaths ht (hl.mono hle) hq
  rw [hroot] at hactive
  have hk : T.key = q.key := lookup_key ht
  exact not_conflicting_of_conflicts h.apart hn hactive (hk ▸ hne) hp

theorem claim_exclusive {plan : TaskPlan} (h : Claims P c s s₁ s' plan)
    (hs : s.Exclusive P now) (hentry : c.clock.entry ≤ now) : s'.Exclusive P now := by
  have hs₁ := h.lapsed.exclusive hs
  obtain ⟨a, rfl⟩ := h.store_eq
  generalize hT : claimedTask P c plan (s₁.task? c.self.scope plan.taskId) = T
  have hkey : T.key = (c.self.scope, plan.taskId) := by rw [← hT]; rfl
  have hroot : T.workspaceRootKey = c.site.workspaceRootKey := by rw [← hT]; rfl
  have hkeys : ((s₁.putTask T).tasks.map TaskRow.key).Nodup := nodup_upsert T hs₁.keys
  refine ⟨hkeys, fun k₁ k₂ hne t₁ t₂ h₁ h₂ hr hl₁ hl₂ p hp q hq => ?_⟩
  obtain ⟨hpm, hpk⟩ := mem_pathsOf.mp hp
  obtain ⟨hqm, hqk⟩ := mem_pathsOf.mp hq
  change (s₁.putTask T).task? k₁.1 k₁.2 = some t₁ at h₁
  change (s₁.putTask T).task? k₂.1 k₂.2 = some t₂ at h₂
  rw [TaskStore.task?_putTask] at h₁ h₂
  by_cases hk₁ : T.key = k₁
  · rw [if_pos hk₁] at h₁
    have hk₂ : T.key ≠ k₂ := fun h => hne (hk₁ ▸ h)
    rw [if_neg hk₂] at h₂
    obtain rfl := Option.some.inj h₁
    rcases mem_paths_putClaim hpm with ⟨-, hp'⟩ | ⟨-, new, hn, hnew⟩
    · exact absurd (hpk.trans hk₁.symm) hp'
    rcases mem_paths_putClaim hqm with ⟨hq', -⟩ | ⟨hq', -⟩
    · exact h.apart_from hentry (hr ▸ hroot) (hqk ▸ h₂) hl₂ hq' (by rw [hqk, ← hkey]; exact hk₂.symm)
        hn hnew
    · exact absurd (hq'.symm.trans hqk) hk₂
  · rw [if_neg hk₁] at h₁
    rcases mem_paths_putClaim hpm with ⟨hp', -⟩ | ⟨hp', -⟩
    swap
    · exact absurd (hp'.symm.trans hpk) hk₁
    by_cases hk₂ : T.key = k₂
    · rw [if_pos hk₂] at h₂
      obtain rfl := Option.some.inj h₂
      rcases mem_paths_putClaim hqm with ⟨-, hq'⟩ | ⟨-, new, hn, hnew⟩
      · exact absurd (hqk.trans hk₂.symm) hq'
      · exact fun hc => h.apart_from hentry (hr.trans hroot) (hpk ▸ h₁) hl₁ hp'
          (by rw [hpk, ← hkey]; exact Ne.symm hk₁) hn hnew hc.symm
    · rw [if_neg hk₂] at h₂
      rcases mem_paths_putClaim hqm with ⟨hq', -⟩ | ⟨hq', -⟩
      · exact hs₁.apart k₁ k₂ hne t₁ t₂ h₁ h₂ hr hl₁ hl₂ p (mem_pathsOf.mpr ⟨hp', hpk⟩) q
          (mem_pathsOf.mpr ⟨hq', hqk⟩)
      · exact absurd (hq'.symm.trans hqk) hk₂

theorem BoardStep.exclusive (h : BoardStep P c files s s') (hs : s.Exclusive P now)
    (hnow : now ≤ c.clock.locked) (hentry : c.clock.entry ≤ c.clock.locked) :
    s'.Exclusive P c.clock.locked := by
  have hs := hs.mono hnow
  cases h with
  | lapse hl => exact hl.exclusive hs
  | claim s₁ plan hc => exact claim_exclusive hc hs hentry
  | retask h =>
    obtain ⟨t, t', token, ht, held, hstep, he⟩ := h
    exact retask_exclusive ht held.live hstep hs he
  | presence rows he =>
    subst he
    exact ⟨hs.keys, hs.apart⟩
  | request h =>
    obtain ⟨-, -, -, -, -, -, n, a, rfl⟩ := h
    exact ⟨hs.keys, hs.apart⟩
  | review t row _ _ he =>
    obtain ⟨response, paths, a, rfl⟩ := he
    exact ⟨hs.keys, hs.apart⟩
  | prove t token row _ _ _ he =>
    obtain ⟨a, rfl⟩ := he
    exact ⟨hs.keys, hs.apart⟩

end Leases

section Runs
variable {P : Platform} {d : Desk}

theorem exec_exclusive (i : TaskCall × TaskCtx) (h : d.store.Exclusive P d.now)
    (ha : (taskBoard P).admits d i) :
    ((taskBoard P).exec d i).1.store.Exclusive P ((taskBoard P).exec d i).1.now := by
  obtain ⟨hnow, hentry, hlater⟩ := ha
  rw [exec_now]
  rcases exec_store i h.keys with he | hstep
  · rw [he]
    exact (h.mono hnow).mono hlater
  · exact (hstep.exclusive h hnow hentry).mono hlater

theorem writers_excluded (h : (taskBoard P).Reachable d) :
    ∀ t ∈ d.store.tasks, ∀ u ∈ d.store.tasks, t.key ≠ u.key →
      t.workspaceRootKey = u.workspaceRootKey → t.live d.now → u.live d.now →
      ∀ p ∈ d.store.paths, ∀ q ∈ d.store.paths, p.key = t.key → q.key = u.key →
        (p.access = .write ∨ q.access = .write) →
          ¬PathAbove P p.pathPrefix q.pathPrefix ∧ ¬PathAbove P q.pathPrefix p.pathPrefix := by
  have hinv : d.store.Exclusive P d.now := by
    refine h.invariant (fun d => d.store.Exclusive P d.now) ?_ fun d i hd ha =>
      exec_exclusive i hd ha
    intro d hd
    rw [hd]
    exact ⟨List.nodup_nil, fun k₁ k₂ _ t₁ t₂ h₁ => by cases h₁⟩
  intro t ht u hu hne hroot hlt hlu p hp q hq hpk hqk hw
  have hconf := hinv.apart t.key u.key hne t u (lookup_of_mem hinv.keys ht)
    (lookup_of_mem hinv.keys hu) hroot hlt hlu p (mem_pathsOf.mpr ⟨hp, hpk⟩) q
    (mem_pathsOf.mpr ⟨hq, hqk⟩)
  rw [← not_or, ← pathOverlaps_iff]
  exact fun ho => hconf ⟨hw, ho⟩

end Runs

def twoWriters : List (TaskCall × TaskCtx) :=
  [(.claim { taskId := "one", summary := "s", writePaths := ["src/a"] },
      sampleTaskCtx (sampleAgent "a") 1),
    (.claim { taskId := "two", summary := "s", writePaths := ["src/b"] },
      sampleTaskCtx (sampleAgent "b") 2),
    (.claim { taskId := "three", summary := "s", readPaths := ["src"] },
      sampleTaskCtx (sampleAgent "c") 3)]

set_option maxRecDepth 100000 in
theorem writers_excluded_two :
    let M := taskBoard samplePlatform
    let d := (M.play sampleDesk twoWriters).1
    d.store.tasks.map (fun t => (t.taskId, t.claimedBy)) =
        [("one", some "a"), ("two", some "b")] ∧
      ∀ t ∈ d.store.tasks, ∀ u ∈ d.store.tasks, t.key ≠ u.key →
        t.workspaceRootKey = u.workspaceRootKey → t.live d.now → u.live d.now →
        ∀ p ∈ d.store.paths, ∀ q ∈ d.store.paths, p.key = t.key → q.key = u.key →
          (p.access = .write ∨ q.access = .write) →
            ¬PathAbove samplePlatform p.pathPrefix q.pathPrefix ∧
              ¬PathAbove samplePlatform q.pathPrefix p.pathPrefix := by
  intro M d
  have hcheck : M.AdmitsAll sampleDesk twoWriters ∧
      d.store.tasks.map (fun t => (t.taskId, t.claimedBy)) =
        [("one", some "a"), ("two", some "b")] := by
    decide +kernel
  have hreach : M.Reachable d := ⟨sampleDesk, _, rfl, Machine.run_play _ _ hcheck.1⟩
  exact ⟨hcheck.2, writers_excluded hreach⟩

end PeerBridge
