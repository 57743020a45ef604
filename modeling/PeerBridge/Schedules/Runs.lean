import PeerBridge.Lib.Machine
import PeerBridge.Schedules.Materialization
import PeerBridge.Scenario

namespace PeerBridge.Schedules
open Checked Rows

section Epochs
variable {q now : ℚ} {k : Int}

theorem whole?_advances {e : Epoch} {n : Int} (he : e.whole? = some n) (hr : e.reached now = true)
    (hk : minScheduleIntervalSeconds ≤ k) :
    ∃ m, (Epoch.finite (now + k)).whole? = some m ∧ n < m := by
  cases e with
  | finite q =>
    simp only [Epoch.reached, decide_eq_true_eq] at hr
    obtain rfl := Option.some.inj he
    have hgap : q + 60 ≤ now + k := by
      have hk : (60 : ℚ) ≤ k := by exact_mod_cast hk
      linarith
    refine ⟨_, rfl, ?_⟩
    have hlow : ∀ x : ℚ, ⌊x⌋ ≤ if 0 ≤ x then ⌊x⌋ else ⌈x⌉ := by
      intro x
      split
      · exact le_rfl
      · exact Int.floor_le_ceil x
    have hhigh : ∀ x : ℚ, (if 0 ≤ x then ⌊x⌋ else ⌈x⌉) ≤ ⌊x⌋ + 1 := by
      intro x
      split
      · omega
      · exact Int.ceil_le_floor_add_one x
    have hfloor : ⌊q⌋ + 60 ≤ ⌊now + k⌋ := by
      have := Int.floor_le_floor hgap
      rwa [show q + 60 = q + ((60 : ℤ) : ℚ) by norm_num, Int.floor_add_intCast] at this
    have h1 := hhigh q
    have h2 := hlow (now + k)
    omega
  | posInf => cases he
  | negInf => cases he
  | nan => cases he

end Epochs

section Saved
variable {P : Platform} {c : Ctx} {t t' : Timetable} {s : ScheduleRow}

theorem safeText_again {value label text : String} {limit : Nat}
    (h : safeText P value label limit = .ok text) : safeText P text label limit = .ok text := by
  simp only [safeText, bind_eq_ok, require_eq_ok, pure_eq_ok] at h
  obtain ⟨-, hlen, -, hsecret, rfl⟩ := h
  simp only [safeText, bind_eq_ok, require_eq_ok, pure_eq_ok, strip_strip]
  exact ⟨(), hlen, (), hsecret, trivial⟩

theorem requireId_ok {value label text : String} (h : requireId value label = .ok text) :
    strip text = text ∧ isSafeId text = true := by
  simp only [requireId, bind_eq_ok, require_eq_ok, pure_eq_ok] at h
  obtain ⟨-, hsafe, rfl⟩ := h
  exact ⟨strip_strip value, hsafe⟩

theorem permissionDecision_again {value decision : Option String}
    (h : permissionDecision value = .ok decision) : permissionDecision decision = .ok decision := by
  unfold permissionDecision at h
  split at h
  · obtain rfl := pure_eq_ok.mp h
    rfl
  · cases hid : requireId (value.getD "") "permission decision id" with
    | error e => simp [hid, Functor.map, Except.map] at h
    | ok text =>
      obtain rfl : some text = decision := by simpa [hid, Functor.map, Except.map] using h
      have hne : text ≠ "" := by
        rintro rfl
        exact absurd (requireId_ok hid).2 (by decide)
      rw [permissionDecision, Option.getD_some, if_neg hne, requireId_of (requireId_ok hid)]
      rfl

theorem sealSchedule_sealed (s : ScheduleRow) : (sealSchedule P s).Sealed P := rfl

theorem saveSchedule_ok {a : SaveScheduleArgs} (h : saveSchedule P c a t = .ok (t', s)) :
    s.Saved P ∧ t.schedule? s.scope s.scheduleId = none ∧
      t'.schedules = upsert ScheduleRow.key s t.schedules := by
  simp only [saveSchedule, bind_eq_ok, require_eq_ok, queued_eq_ok, pure_eq_ok, Prod.mk.injEq] at h
  obtain ⟨-, ⟨-, hby⟩, -, ⟨hlow, -⟩, _, -, _, htask, _, hdirectory, _, hresource, _, hdecision,
    id, hid, -, ⟨-, hnew⟩, q, -, rfl, rfl⟩ := h
  exact ⟨⟨sealSchedule_sealed _, (requireId_ok hid).2, safeText_again htask,
    safeText_again hdirectory, requireId_of (requireId_ok hresource), hby,
    permissionDecision_again hdecision, hlow⟩, Option.isNone_iff_eq_none.mp hnew, rfl⟩

theorem setScheduleEnabled_ok {a : SetScheduleArgs}
    (h : setScheduleEnabled P c a t = .ok (t', s)) :
    ∃ row, t.schedule? c.self.scope row.scheduleId = some row ∧ row.scope = c.self.scope ∧
      s = sealSchedule P { row with enabled := a.enabled, updatedUtc := utcNow c.clock.locked } ∧
      t'.schedules = upsert ScheduleRow.key s t.schedules := by
  simp only [setScheduleEnabled, bind_eq_ok, require_eq_ok, demand_eq_ok, queued_eq_ok, pure_eq_ok,
    Prod.mk.injEq] at h
  obtain ⟨-, -, id, -, row, hrow, -, -, q, -, rfl, rfl⟩ := h
  have hkey := lookup_key hrow
  simp only [ScheduleRow.key, Prod.mk.injEq] at hkey
  obtain ⟨hscope, rfl⟩ := hkey
  exact ⟨row, hrow, hscope, rfl, rfl⟩

theorem ScheduleRow.Saved.set (h : s.Saved P) (enabled : Bool) (utc : Utc) :
    (sealSchedule P { s with enabled := enabled, updatedUtc := utc }).Saved P :=
  ⟨rfl, h.safe, h.task, h.directory, h.resource, h.requester, h.decision, h.interval⟩

theorem ScheduleRow.Saved.advance (h : s.Saved P) (now : ℚ) :
    (advancedSchedule P c now s).Saved P :=
  ⟨rfl, h.safe, h.task, h.directory, h.resource, h.requester, h.decision, h.interval⟩

theorem Kept.put {schedules : List ScheduleRow} (h : Kept P schedules) (hs : s.Saved P) :
    Kept P (upsert ScheduleRow.key s schedules) := by
  refine ⟨fun x hx => ?_, nodup_upsert s h.keys⟩
  rcases mem_upsert hx with rfl | hx
  · exact hs
  · exact h.saved x hx

end Saved

section Due
variable {P : Platform} {c : Ctx} {a : MaterializeArgs} {t t' : Timetable} {s : ScheduleRow}
  {rows : List OperationRow}

theorem mem_due (h : s ∈ t.due c a) :
    s ∈ t.schedules ∧ s.scope = c.self.scope ∧ s.nextRunEpoch.reached (a.now c) = true := by
  have h := (List.perm_insertionSort dueBefore _).mem_iff.mp (List.mem_of_mem_take h)
  simp only [List.mem_filter, decide_eq_true_eq] at h
  exact ⟨h.1, h.2.1, h.2.2.2⟩

theorem due_keys (h : (t.schedules.map ScheduleRow.key).Nodup) :
    ((t.due c a).map ScheduleRow.key).Nodup := by
  refine List.Nodup.sublist ((List.take_sublist _ _).map _) ?_
  refine (List.Perm.nodup_iff ((List.perm_insertionSort dueBefore _).map _)).mpr ?_
  exact List.Nodup.sublist (List.filter_sublist.map _) h

theorem due_ids (h : (t.schedules.map ScheduleRow.key).Nodup) :
    ((t.due c a).map ScheduleRow.scheduleId).Nodup := by
  have hkeys := due_keys (c := c) (a := a) h
  have hdue : (t.due c a).Nodup := List.Nodup.of_map _ hkeys
  rw [List.nodup_map_iff_inj_on hdue] at hkeys ⊢
  intro x hx y hy hid
  refine hkeys x hx y hy ?_
  rw [ScheduleRow.key, ScheduleRow.key, (mem_due hx).2.1, (mem_due hy).2.1, hid]

def advancedTo (P : Platform) (c : Ctx) (a : MaterializeArgs) (t : Timetable) :
    List ScheduleRow :=
  (t.due c a).foldl (fun all s => upsert ScheduleRow.key (advancedSchedule P c (a.now c) s) all)
    t.schedules

theorem materialize_eq_ok (ht : Kept P t.schedules) :
    materializeDueSchedules P c a t = .ok (t', rows) ↔
      servesWorkflows c ∧ (∀ s ∈ t.due c a, ∃ epoch, Runnable c t.database s epoch) ∧
      List.Forall₂ (RunOf P c (a.now c)) (t.due c a) rows ∧
      ∃ store, rows.foldlM (logQueued P c) t.database.store = .ok store ∧
        t' = { database := { store, operations := t.database.operations ++ rows },
               schedules := advancedTo P c a t } := by
  simp only [materializeDueSchedules, bind_eq_ok, require_eq_ok, exists_const,
    materializeAll_eq_ok (fun s hs => ht.saved s (mem_due hs).1) (due_ids ht.keys)]
  rfl

theorem mem_advancedTo (ht : Kept P t.schedules) (hs : s ∈ t.schedules) :
    (s ∈ t.due c a → advancedSchedule P c (a.now c) s ∈ advancedTo P c a t) ∧
      (s ∉ t.due c a → s ∈ advancedTo P c a t) := by
  have hlook := @lookup_foldl_upsert _ _ _ _ t.schedules (advancedSchedule P c (a.now c)) (t.due c a)
    (fun _ => rfl) (due_keys ht.keys) s.key
  have hrow := lookup_of_mem ht.keys hs
  refine ⟨fun hdue => ?_, fun hdue => ?_⟩
  · rw [lookup_of_mem (due_keys ht.keys) hdue] at hlook
    exact lookup_mem hlook
  · have hnone : lookup ScheduleRow.key s.key (t.due c a) = none := by
      refine lookup_eq_none.mpr (fun x hx hk => hdue ?_)
      rwa [← eq_of_key_eq ht.keys (mem_due hx).1 hs hk]
    rw [hnone, hrow] at hlook
    exact lookup_mem hlook

theorem Kept.advance (ht : Kept P t.schedules) : Kept P (advancedTo P c a t) := by
  refine ⟨fun x hx => ?_, nodup_foldl_upsert ht.keys⟩
  rcases mem_foldl_upsert hx with hx | ⟨s, hs, rfl⟩
  · exact ht.saved x hx
  · exact (ht.saved s (mem_due hs).1).advance _

end Due

section Made
variable {P : Platform} {c : Ctx} {now : ℚ} {due : List ScheduleRow} {rows : List OperationRow}

theorem made_of (h : List.Forall₂ (RunOf P c now) due rows) {x : String × String}
    (hx : x ∈ rows.map OperationRow.key) : ∃ s ∈ due, ∃ n, s.nextRunEpoch.whole? = some n ∧
      x = (c.self.scope, operationId s.scheduleId n) := by
  induction h with
  | nil => cases hx
  | @cons s o due rows hrun _ ih =>
    rcases List.mem_cons.mp hx with rfl | hx
    · obtain ⟨n, hn, rfl⟩ := hrun
      exact ⟨s, List.mem_cons_self, n, hn, rfl⟩
    · obtain ⟨d, hd, hmade⟩ := ih hx
      exact ⟨d, List.mem_cons_of_mem _ hd, hmade⟩

theorem made_once (h : List.Forall₂ (RunOf P c now) due rows)
    (hids : (due.map ScheduleRow.scheduleId).Nodup) : (rows.map OperationRow.key).Nodup := by
  induction h with
  | nil => exact List.nodup_nil
  | cons hrun hrows ih =>
    obtain ⟨hnew, hids⟩ := List.nodup_cons.mp hids
    refine List.nodup_cons.mpr ⟨fun hx => ?_, ih hids⟩
    obtain ⟨d, hd, n, -, hk⟩ := made_of hrows hx
    obtain ⟨m, -, rfl⟩ := hrun
    have hid := (operationId_inj (congrArg Prod.snd hk)).1
    exact hnew (List.mem_map.mpr ⟨d, hd, hid.symm⟩)

end Made

section Steps
variable {P : Platform} {J : JsonReader} {p : Planner} {i : PlannerCall × Ctx}

theorem attemptPlanner_kept (h : Kept P p.schedules) : Kept P (attemptPlanner P J p i).1.schedules := by
  obtain ⟨call, c⟩ := i
  cases call with
  | office call => exact h
  | save a =>
    cases hx : saveSchedule P c a p.timetable with
    | error e => simpa only [attemptPlanner, Planner.finish, hx] using h
    | ok x =>
      obtain ⟨hs, -, hrows⟩ := saveSchedule_ok hx
      simp only [attemptPlanner, Planner.finish, hx, Planner.commit, hrows]
      exact h.put hs
  | setEnabled a =>
    cases hx : setScheduleEnabled P c a p.timetable with
    | error e => simpa only [attemptPlanner, Planner.finish, hx] using h
    | ok x =>
      obtain ⟨row, hrow, -, hs, hrows⟩ := setScheduleEnabled_ok hx
      simp only [attemptPlanner, Planner.finish, hx, Planner.commit, hrows, hs]
      exact h.put ((h.saved row (lookup_mem hrow)).set _ _)
  | materialize a =>
    cases hx : materializeDueSchedules P c a p.timetable with
    | error e => simpa only [attemptPlanner, Planner.finish, hx] using h
    | ok x =>
      obtain ⟨-, -, -, store, -, ht⟩ := (materialize_eq_ok h).mp hx
      simp only [attemptPlanner, Planner.finish, hx, Planner.commit, ht]
      exact h.advance

def PlannerReply.minted : PlannerReply → List (String × String)
  | .materialized (.ok rows) => rows.map OperationRow.key
  | .materialized (.error _) | .office _ | .schedule _ => []

-- the operations that the schedules of a run were given
def minted (tr : List ((PlannerCall × Ctx) × PlannerReply)) : List (String × String) :=
  tr.flatMap (fun e => e.2.minted)

-- the next epoch of a schedule lies behind every epoch it was run for
def Behind (schedules : List ScheduleRow) (x : String × String) : Prop :=
  ∃ s ∈ schedules, ∃ n, x = (s.scope, operationId s.scheduleId n) ∧
    ∃ m, s.nextRunEpoch.whole? = some m ∧ n < m

theorem Behind.mono {schedules schedules' : List ScheduleRow} {x : String × String}
    (h : Behind schedules x)
    (hrows : ∀ s ∈ schedules, ∃ s' ∈ schedules', s'.key = s.key ∧
      ∀ n, s.nextRunEpoch.whole? = some n → ∃ m, s'.nextRunEpoch.whole? = some m ∧ n ≤ m) :
    Behind schedules' x := by
  obtain ⟨s, hs, n, rfl, m, hm, hlt⟩ := h
  obtain ⟨s', hs', hk, hnext⟩ := hrows s hs
  obtain ⟨m', hm', hle⟩ := hnext m hm
  simp only [ScheduleRow.key, Prod.mk.injEq] at hk
  exact ⟨s', hs', n, by rw [hk.1, hk.2], m', hm', hlt.trans_le hle⟩

theorem behind_put {schedules : List ScheduleRow} {s : ScheduleRow} {x : String × String}
    (hkeys : (schedules.map ScheduleRow.key).Nodup) (h : Behind schedules x)
    (hnext : ∀ r ∈ schedules, r.key = s.key → s.nextRunEpoch = r.nextRunEpoch) :
    Behind (upsert ScheduleRow.key s schedules) x := by
  refine h.mono (fun r hr => ?_)
  by_cases hk : r.key = s.key
  · exact ⟨s, mem_upsert_self, hk.symm, fun n hn => ⟨n, by rw [hnext r hr hk, hn], le_rfl⟩⟩
  · exact ⟨r, mem_upsert_of_ne hkeys hr hk, rfl, fun n hn => ⟨n, hn, le_rfl⟩⟩

theorem advance_next {c : Ctx} {a : MaterializeArgs} {t : Timetable} {s : ScheduleRow} {n : Int}
    (hs : s.Saved P) (hdue : s ∈ t.due c a) (hn : s.nextRunEpoch.whole? = some n) :
    ∃ m, (advancedSchedule P c (a.now c) s).nextRunEpoch.whole? = some m ∧ n < m :=
  whole?_advances hn (mem_due hdue).2.2 hs.interval

theorem materialized_behind {c : Ctx} {a : MaterializeArgs} {t : Timetable}
    {rows : List OperationRow} {made : List (String × String)} (hk : Kept P t.schedules)
    (honce : made.Nodup) (hpast : ∀ x ∈ made, Behind t.schedules x)
    (hruns : List.Forall₂ (RunOf P c (a.now c)) (t.due c a) rows) :
    (made ++ rows.map OperationRow.key).Nodup ∧
      ∀ x ∈ made ++ rows.map OperationRow.key, Behind (advancedTo P c a t) x := by
  refine ⟨honce.append (made_once hruns (due_ids hk.keys)) (fun x hx hy => ?_), fun x hx => ?_⟩
  · obtain ⟨s, hs, n, rfl, m, hm, hlt⟩ := hpast x hx
    obtain ⟨d, hd, k, hn, hxd⟩ := made_of hruns hy
    obtain ⟨hscope, hid⟩ := Prod.mk.inj hxd
    obtain ⟨hsame, rfl⟩ := operationId_inj hid
    obtain ⟨hmem, hdscope, -⟩ := mem_due hd
    obtain rfl : s = d := eq_of_key_eq hk.keys hs hmem
      (by rw [ScheduleRow.key, ScheduleRow.key, hscope, hdscope, hsame])
    obtain rfl := Option.some.inj (hm.symm.trans hn)
    omega
  · rcases List.mem_append.mp hx with hx | hx
    · refine (hpast x hx).mono (fun s hs => ?_)
      by_cases hdue : s ∈ t.due c a
      · refine ⟨_, (mem_advancedTo hk hs).1 hdue, rfl, fun n hn => ?_⟩
        obtain ⟨m, hm, hlt⟩ := advance_next (hk.saved s hs) hdue hn
        exact ⟨m, hm, hlt.le⟩
      · exact ⟨s, (mem_advancedTo hk hs).2 hdue, rfl, fun n hn => ⟨n, hn, le_rfl⟩⟩
    · obtain ⟨s, hdue, n, hn, rfl⟩ := made_of hruns hx
      obtain ⟨hs, hscope, -⟩ := mem_due hdue
      exact ⟨_, (mem_advancedTo hk hs).1 hdue, n, by rw [← hscope]; rfl,
        advance_next (hk.saved s hs) hdue hn⟩

theorem attemptPlanner_behind (hk : Kept P p.schedules) {made : List (String × String)}
    (honce : made.Nodup) (hpast : ∀ x ∈ made, Behind p.schedules x) :
    (made ++ (attemptPlanner P J p i).2.minted).Nodup ∧
      ∀ x ∈ made ++ (attemptPlanner P J p i).2.minted,
        Behind (attemptPlanner P J p i).1.schedules x := by
  obtain ⟨call, c⟩ := i
  cases call with
  | office call =>
    simp only [attemptPlanner, PlannerReply.minted, List.append_nil]
    exact ⟨honce, hpast⟩
  | save a =>
    cases hx : saveSchedule P c a p.timetable with
    | error e =>
      simp only [attemptPlanner, Planner.finish, hx, PlannerReply.minted, List.append_nil]
      exact ⟨honce, hpast⟩
    | ok x =>
      obtain ⟨-, hnew, hrows⟩ := saveSchedule_ok hx
      simp only [attemptPlanner, Planner.finish, hx, PlannerReply.minted, List.append_nil,
        Planner.commit, hrows]
      exact ⟨honce, fun y hy => behind_put hk.keys (hpast y hy)
        (fun r hr hkey => absurd hkey (lookup_eq_none.mp hnew r hr))⟩
  | setEnabled a =>
    cases hx : setScheduleEnabled P c a p.timetable with
    | error e =>
      simp only [attemptPlanner, Planner.finish, hx, PlannerReply.minted, List.append_nil]
      exact ⟨honce, hpast⟩
    | ok x =>
      obtain ⟨row, hrow, -, hs, hrows⟩ := setScheduleEnabled_ok hx
      simp only [attemptPlanner, Planner.finish, hx, PlannerReply.minted, List.append_nil,
        Planner.commit, hrows]
      refine ⟨honce, fun y hy => behind_put hk.keys (hpast y hy) (fun r hr hkey => ?_)⟩
      have hsame : r = row := eq_of_key_eq hk.keys hr (lookup_mem hrow) (by rw [hkey, hs]; rfl)
      rw [hsame, hs]
      rfl
  | materialize a =>
    cases hx : materializeDueSchedules P c a p.timetable with
    | error e =>
      simp only [attemptPlanner, Planner.finish, hx, PlannerReply.minted, List.append_nil]
      exact ⟨honce, hpast⟩
    | ok x =>
      obtain ⟨-, -, hruns, store, -, ht⟩ := (materialize_eq_ok hk).mp hx
      simp only [attemptPlanner, Planner.finish, hx, PlannerReply.minted, Planner.commit, ht]
      exact materialized_behind hk honce hpast hruns

end Steps

end PeerBridge.Schedules
