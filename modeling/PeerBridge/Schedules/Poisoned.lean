import PeerBridge.QueueSafety
import PeerBridge.Schedules.Runs

namespace PeerBridge.Schedules
open Checked Rows

-- the operations that the due schedules ask for
def Timetable.wanted (P : Platform) (c : Ctx) (a : MaterializeArgs) (t : Timetable) :
    List OperationRow :=
  (t.due c a).filterMap
    (fun s => s.nextRunEpoch.whole?.map (scheduledOperation P c (a.now c) s))

structure Materializable (P : Platform) (c : Ctx) (a : MaterializeArgs) (p : Planner) : Prop where
  caller : servesWorkflows c
  runnable : ∀ s ∈ p.timetable.due c a, ∃ epoch, Runnable c p.office.database s epoch
  logged : ∃ store, (p.timetable.wanted P c a).foldlM (logQueued P c) p.office.world.store =
    .ok store

-- one operation for each due schedule, which is then moved on; all else stays
structure Materialized (P : Platform) (c : Ctx) (a : MaterializeArgs) (p p' : Planner)
    (rows : List OperationRow) : Prop where
  each : List.Forall₂ (RunOf P c (a.now c)) (p.timetable.due c a) rows
  operations : p'.office.operations = p.office.operations ++ rows
  moved : ∀ s ∈ p.timetable.due c a, advancedSchedule P c (a.now c) s ∈ p'.schedules
  others : ∀ s ∈ p.schedules, s ∉ p.timetable.due c a → s ∈ p'.schedules

section Calls
variable {P : Platform} {p : Planner} {c : Ctx} {a : MaterializeArgs}

theorem wanted_eq {t : Timetable} {rows : List OperationRow}
    (h : List.Forall₂ (RunOf P c (a.now c)) (t.due c a) rows) : rows = t.wanted P c a := by
  unfold Timetable.wanted
  revert h
  generalize t.due c a = due
  intro h
  induction h with
  | nil => rfl
  | cons hrun _ ih =>
    obtain ⟨n, hn, rfl⟩ := hrun
    rw [List.filterMap_cons, hn, Option.map_some, ← ih]

theorem wanted_runs {t : Timetable} (h : ∀ s ∈ t.due c a, ∃ n, s.nextRunEpoch.whole? = some n) :
    List.Forall₂ (RunOf P c (a.now c)) (t.due c a) (t.wanted P c a) := by
  unfold Timetable.wanted
  revert h
  induction t.due c a with
  | nil => exact fun _ => .nil
  | cons s due ih =>
    intro h
    obtain ⟨⟨n, hn⟩, hrest⟩ := List.forall_mem_cons.mp h
    rw [List.filterMap_cons, hn, Option.map_some]
    exact .cons ⟨n, hn, rfl⟩ (ih hrest)

theorem materialize_iff (hp : Kept P p.schedules) :
    (∃ t rows, materializeDueSchedules P c a p.timetable = .ok (t, rows)) ↔
      Materializable P c a p := by
  constructor
  · rintro ⟨t, rows, h⟩
    obtain ⟨hcaller, hruns, hrows, store, hstore, -⟩ := (materialize_eq_ok hp).mp h
    rw [wanted_eq hrows] at hstore
    exact ⟨hcaller, hruns, store, hstore⟩
  · rintro ⟨hcaller, hruns, store, hstore⟩
    have hrows := wanted_runs (P := P) (t := p.timetable) (c := c) (a := a) (fun s hs => by
      obtain ⟨n, hn⟩ := hruns s hs
      exact ⟨n, hn.finite⟩)
    exact ⟨_, _, (materialize_eq_ok hp).mpr ⟨hcaller, hruns, hrows, store, hstore, rfl⟩⟩

theorem materialized_of (hp : Kept P p.schedules) {t : Timetable} {rows : List OperationRow}
    (h : materializeDueSchedules P c a p.timetable = .ok (t, rows)) :
    Materialized P c a p (p.commit P t) rows := by
  obtain ⟨-, -, hrows, store, -, rfl⟩ := (materialize_eq_ok hp).mp h
  exact ⟨hrows, rfl, fun s hs => (mem_advancedTo hp (mem_due hs).1).1 hs,
    fun s hs => (mem_advancedTo hp hs).2⟩

end Calls

theorem run_kept {P : Platform} {J : JsonReader} {p₀ p : Planner}
    {tr : List ((PlannerCall × Ctx) × PlannerReply)} (h : (planner P J).Run p₀ tr p)
    (hstart : (planner P J).start p₀) :
    Kept P p.schedules ∧ (minted tr).Nodup ∧ ∀ x ∈ minted tr, Behind p.schedules x := by
  have hstart : p₀.schedules = [] := hstart
  refine h.preserves_trace (fun tr p => Kept P p.schedules ∧ (minted tr).Nodup ∧
    ∀ x ∈ minted tr, Behind p.schedules x) (fun tr p i ⟨hk, honce, hpast⟩ _ => ?_) ?_
  · rw [hstart]
    exact ⟨⟨by simp, List.nodup_nil⟩, List.nodup_nil, by simp [minted]⟩
  · rw [minted, List.flatMap_append, List.flatMap_singleton]
    exact ⟨attemptPlanner_kept hk, attemptPlanner_behind hk honce hpast⟩

-- a call materializes every due schedule or none of them
theorem schedules_materialize {P : Platform} {J : JsonReader} {p₀ p : Planner}
    {tr : List ((PlannerCall × Ctx) × PlannerReply)} (hstart : (planner P J).start p₀)
    (h : (planner P J).Run p₀ tr p) :
    (minted tr).Nodup ∧ ∀ (c : Ctx) (a : MaterializeArgs),
      let step := (planner P J).exec p (.materialize a, c)
      ((∃ rows, step.2 = .materialized (.ok rows) ∧ Materialized P c a p step.1 rows) ↔
        Materializable P c a p) ∧
      (¬ Materializable P c a p → step.1 = p) := by
  obtain ⟨hk, honce, -⟩ := run_kept h hstart
  refine ⟨honce, fun c a => ?_⟩
  have hiff := materialize_iff (c := c) (a := a) hk
  cases hx : materializeDueSchedules P c a p.timetable with
  | error e =>
    have hnot : ¬ Materializable P c a p := by
      rw [← hiff, hx]
      rintro ⟨t, rows, h⟩
      cases h
    have hstep : (planner P J).exec p (.materialize a, c) = (p, .materialized (.error e)) := by
      simp only [planner, attemptPlanner, Planner.finish, hx]
    rw [hstep]
    refine ⟨⟨?_, fun hm => absurd hm hnot⟩, fun _ => rfl⟩
    rintro ⟨rows, hr, -⟩
    cases hr
  | ok x =>
    have hm : Materializable P c a p := hiff.mp ⟨x.1, x.2, hx⟩
    have hstep : (planner P J).exec p (.materialize a, c) =
        (p.commit P x.1, .materialized (.ok x.2)) := by
      simp only [planner, attemptPlanner, Planner.finish, hx]
    rw [hstep]
    exact ⟨⟨fun _ => hm, fun _ => ⟨x.2, rfl, materialized_of hk hx⟩⟩, fun hnot => absurd hm hnot⟩

section Sample

def sampleSchedule (scheduleId : String) (next : ℚ) : PlannerCall :=
  .save { workflowId := "read-only-audit", taskText := "audit", workingDirectory := "/work",
          resourceKey := "tree", intervalSeconds := 3600, nextRunEpoch := .finite next,
          enabled := true, scheduleId := some scheduleId }

def samplePlanner : Planner := { office := .initial [] 0, schedules := [] }

-- one operation is enqueued by hand under the id that the first run of a schedule will ask for
def clashing : List (PlannerCall × Ctx) :=
  [(.office (.queue (.enqueue
      { workflowId := "read-only-audit", taskText := "audit", workingDirectory := "/work",
        resourceKey := "tree", operationId := some "schedule:weekly:5" })), sampleCtx sampleHuman 1),
    (sampleSchedule "nightly" 0, sampleCtx sampleHuman 2),
    (sampleSchedule "weekly" 5, sampleCtx sampleHuman 3)]

def PlannerReply.saved : PlannerReply → Bool
  | .schedule (.ok _) => true
  | .schedule (.error _) | .office _ | .materialized _ => false

def PlannerReply.refusal : PlannerReply → Option String
  | .materialized (.error (.queue (.queue text))) => some text
  | .materialized (.error _) | .materialized (.ok _) | .office _ | .schedule _ => none

end Sample

theorem schedules_materialize_saved :
    let M := planner samplePlatform sampleReader
    let p := (M.play samplePlanner (clashing.drop 1)).1
    let c := sampleCtx sampleHuman 10
    (p.timetable.due c {}).length = 2 ∧
      ∃ rows, (M.exec p (.materialize {}, c)).2 = .materialized (.ok rows) ∧
        Materialized samplePlatform c {} p (M.exec p (.materialize {}, c)).1 rows := by
  intro M p c
  have hcheck : M.AdmitsAll samplePlanner (clashing.drop 1) ∧
      (p.timetable.due c {}).length = 2 ∧
      isOk (materializeDueSchedules samplePlatform c {} p.timetable) = true := by decide +kernel
  obtain ⟨hadm, hdue, hok⟩ := hcheck
  have hstart : M.start samplePlanner := rfl
  have hrun : M.Run samplePlanner _ p := Machine.run_play _ _ hadm
  obtain ⟨x, hx⟩ := isOk_iff.mp hok
  have hm : Materializable samplePlatform c {} p :=
    (materialize_iff (run_kept hrun hstart).1).mp ⟨x.1, x.2, hx⟩
  exact ⟨hdue, ((schedules_materialize hstart hrun).2 c {}).1.mpr hm⟩

-- the due schedule "nightly" is not run because of the id that "weekly" asks for
theorem clashing_schedule_blocks_others :
    let M := planner samplePlatform sampleReader
    let p := (M.play samplePlanner clashing).1
    let step := M.exec p (.materialize {}, sampleCtx sampleHuman 10)
    M.start samplePlanner ∧ M.Run samplePlanner (M.play samplePlanner clashing).2 p ∧
      (M.play samplePlanner clashing).2.map (fun e => e.2.saved) = [false, true, true] ∧
      (p.timetable.due (sampleCtx sampleHuman 10) {}).map ScheduleRow.scheduleId =
        ["nightly", "weekly"] ∧
      step.2.refusal = some "operation id already exists" ∧
      step.1.office.operations.map OperationRow.operationId = ["schedule:weekly:5"] := by
  intro M p step
  have hcheck : M.AdmitsAll samplePlanner clashing ∧
      (M.play samplePlanner clashing).2.map (fun e => e.2.saved) = [false, true, true] ∧
      (p.timetable.due (sampleCtx sampleHuman 10) {}).map ScheduleRow.scheduleId =
        ["nightly", "weekly"] ∧
      step.2.refusal = some "operation id already exists" ∧
      step.1.office.operations.map OperationRow.operationId = ["schedule:weekly:5"] := by
    decide +kernel
  exact ⟨rfl, Machine.run_play _ _ hcheck.1, hcheck.2⟩

end PeerBridge.Schedules
