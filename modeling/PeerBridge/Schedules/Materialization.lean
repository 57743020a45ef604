import PeerBridge.Lib.Upsert
import PeerBridge.Schedules.Timetable
import PeerBridge.Routing
import PeerBridge.Transitions

namespace PeerBridge.Schedules
open Checked Rows

-- the checks of the queue, passed once when the schedule is saved
structure ScheduleRow.Saved (P : Platform) (s : ScheduleRow) : Prop where
  intact : s.Sealed P
  safe : isSafeId s.scheduleId = true
  task : safeText P s.taskText "task text" maxTaskChars = .ok s.taskText
  directory : safeText P s.workingDirectory "working directory" 2000 = .ok s.workingDirectory
  resource : requireId s.resourceKey "resource key" = .ok s.resourceKey
  requester : s.requestedBy = humanOperatorId
  decision : permissionDecision s.permissionDecisionId = .ok s.permissionDecisionId
  interval : minScheduleIntervalSeconds ≤ s.intervalSeconds

structure Kept (P : Platform) (schedules : List ScheduleRow) : Prop where
  saved : ∀ s ∈ schedules, s.Saved P
  keys : (schedules.map ScheduleRow.key).Nodup

def scheduledOperation (P : Platform) (c : Ctx) (now : ℚ) (s : ScheduleRow) (epoch : Int) :
    OperationRow :=
  sealOperation P
    { scope := c.self.scope, operationId := operationId s.scheduleId epoch,
      workflowId := s.workflowId, requestedBy := s.requestedBy, taskText := s.taskText,
      workingDirectory := s.workingDirectory, resourceKey := s.resourceKey,
      permissionDecisionId := s.permissionDecisionId, boundDiscussionId := none,
      status := .queued, attemptCount := 0,
      maxAttempts := if s.workflowId.automaticRetry then 3 else 1, timeoutSeconds := 1800,
      notBeforeEpoch := now, leaseOwner := none, leaseTokenSha256 := none,
      leaseExpiresEpoch := none, attemptDeadlineEpoch := none, cancellationRequested := false,
      terminalOutcome := none, terminalDetail := none, createdUtc := utcNow c.clock.locked,
      updatedUtc := utcNow c.clock.locked, operationSha256 := zeroSha256 }

def logQueued (P : Platform) (c : Ctx) (s : Store) (row : OperationRow) :
    Except BridgeError Store :=
  Prod.fst <$> s.event P c "workflow.operation.queued"
    [("operation_id", .str row.operationId), ("workflow_id", .str row.workflowId.text),
      ("resource_key", .str row.resourceKey), ("operation_sha256", .sha row.operationSha256)] none

section Ids
variable {a b : String} {m n : Int}

theorem cut_at {α : Type} {x : α} {ds es xs ys : List α} (hd : x ∉ ds) (he : x ∉ es)
    (h : ds ++ x :: xs = es ++ x :: ys) : ds = es ∧ xs = ys := by
  induction ds generalizing es with
  | nil =>
    cases es with
    | nil => exact ⟨rfl, List.tail_eq_of_cons_eq h⟩
    | cons e es =>
      obtain rfl := List.head_eq_of_cons_eq h
      exact absurd List.mem_cons_self he
  | cons d ds ih =>
    cases es with
    | nil =>
      obtain rfl := List.head_eq_of_cons_eq h
      exact absurd List.mem_cons_self hd
    | cons e es =>
      obtain rfl := List.head_eq_of_cons_eq h
      obtain ⟨rfl, rfl⟩ := ih (fun hx => hd (List.mem_cons_of_mem _ hx))
        (fun hx => he (List.mem_cons_of_mem _ hx)) (List.tail_eq_of_cons_eq h)
      exact ⟨rfl, rfl⟩

theorem digit_safe {c : Char} (h : c.isDigit = true) : isSafeIdChar c = true ∧ c ≠ ':' := by
  have hsafe : c.isAlphanum = true := by
    change (c.isAlpha || c.isDigit) = true
    rw [h, Bool.or_true]
  refine ⟨by simp only [isSafeIdChar, hsafe, Bool.true_or], ?_⟩
  rintro rfl
  simp at h

theorem epoch_chars (n : Int) :
    ∀ c ∈ (toString n).toList, isSafeIdChar c = true ∧ c ≠ ':' := by
  have hnat : ∀ k : Nat, ∀ c ∈ k.repr.toList, isSafeIdChar c = true ∧ c ≠ ':' := by
    intro k c hc
    rw [Nat.toList_repr] at hc
    exact digit_safe (Nat.isDigit_of_mem_toDigits (by decide) (by decide) hc)
  rw [Int.toString_eq_repr, Int.repr_eq_if]
  split
  · exact hnat _
  · intro c hc
    rw [String.toList_append] at hc
    rcases List.mem_append.mp hc with hc | hc
    · obtain rfl : c = '-' := by simpa using hc
      exact ⟨rfl, by decide⟩
    · exact hnat _ c hc

theorem natText_inj {j k : Nat} (h : j.repr = k.repr) : j = k := by
  have hdigits := congrArg (fun t => Nat.ofDigitChars 10 t.toList 0) h
  simpa only [Nat.toList_repr, Nat.ofDigitChars_ten_toDigits] using hdigits

theorem natText_ne_minus {j : Nat} {t : String} : j.repr ≠ "-" ++ t := by
  intro h
  have hdash : '-' ∈ j.repr.toList := by
    rw [h, String.toList_append]
    exact List.mem_append_left _ (by decide)
  rw [Nat.toList_repr] at hdash
  exact absurd (Nat.isDigit_of_mem_toDigits (by decide) (by decide) hdash) (by decide)

theorem intText_inj (h : toString m = toString n) : m = n := by
  rw [Int.toString_eq_repr, Int.toString_eq_repr, Int.repr_eq_if, Int.repr_eq_if] at h
  split at h <;> split at h
  · have := natText_inj h
    omega
  · exact absurd h natText_ne_minus
  · exact absurd h.symm natText_ne_minus
  · have hchars := congrArg String.toList h
    rw [String.toList_append, String.toList_append, List.append_right_inj] at hchars
    have := natText_inj (String.toList_injective hchars)
    omega

theorem operationId_chars (a : String) (n : Int) : (operationId a n).toList =
    "schedule:".toList ++ (a.toList ++ ':' :: (toString n).toList) := by
  simp [operationId, String.toList_append]

-- the epoch is what follows the last colon
theorem operationId_inj (h : operationId a m = operationId b n) : a = b ∧ m = n := by
  have hchars := congrArg String.toList h
  rw [operationId_chars, operationId_chars, List.append_right_inj] at hchars
  have hfree : ∀ k : Int, ':' ∉ (toString k).toList.reverse := fun k hk =>
    (epoch_chars k _ (List.mem_reverse.mp hk)).2 rfl
  have hback := congrArg List.reverse hchars
  simp only [List.reverse_append, List.reverse_cons, List.append_assoc, List.singleton_append]
    at hback
  obtain ⟨hepoch, hid⟩ := cut_at (hfree m) (hfree n) hback
  refine ⟨String.toList_injective (List.reverse_injective hid), ?_⟩
  exact intText_inj (String.toList_injective (List.reverse_injective hepoch))

theorem operationId_plain (h : isSafeId a = true) (n : Int) :
    ∀ c ∈ (operationId a n).toList, isSafeIdChar c = true := by
  simp only [isSafeId, Bool.and_eq_true, List.all_eq_true] at h
  intro c hc
  rw [operationId_chars] at hc
  simp only [List.mem_append, List.mem_cons] at hc
  rcases hc with hc | hc | rfl | hc
  · exact List.all_eq_true.mp (show "schedule:".toList.all isSafeIdChar = true by decide) c hc
  · exact h.1.1 c hc
  · rfl
  · exact (epoch_chars n c hc).1

theorem operationId_ne (a : String) (n : Int) : operationId a n ≠ "" := by
  intro h
  have := congrArg String.toList h
  rw [operationId_chars] at this
  simp at this

theorem requireId_operationId (h : isSafeId a = true) {label t : String} :
    requireId (operationId a n) label = .ok t ↔
      (operationId a n).length ≤ 200 ∧ t = operationId a n := by
  have hplain := operationId_plain h n
  have hstrip : strip (operationId a n) = operationId a n := by
    rw [strip, stripChars_plain (fun c hc => isSafeIdChar_not_space (hplain c hc)),
      String.ofList_toList]
  have hlength : 1 ≤ (operationId a n).length :=
    Nat.one_le_iff_ne_zero.mpr (fun h0 => operationId_ne a n (String.length_eq_zero_iff.mp h0))
  have hall : (operationId a n).toList.all isSafeIdChar = true := List.all_eq_true.mpr hplain
  simp only [requireId, bind_eq_ok, require_eq_ok, pure_eq_ok, hstrip, isSafeId, hall, hlength,
    Bool.true_and, decide_true, decide_eq_true_eq]
  constructor
  · rintro ⟨-, hl, rfl⟩
    exact ⟨hl, rfl⟩
  · rintro ⟨hl, rfl⟩
    exact ⟨(), hl, rfl⟩

end Ids

-- what one due schedule needs from the operations that are there
structure Runnable (c : Ctx) (q : Database) (s : ScheduleRow) (epoch : Int) : Prop where
  finite : s.nextRunEpoch.whole? = some epoch
  short : (operationId s.scheduleId epoch).length ≤ 200
  free : q.operation? c.self.scope (operationId s.scheduleId epoch) = none

def RunOf (P : Platform) (c : Ctx) (now : ℚ) (s : ScheduleRow) (o : OperationRow) : Prop :=
  ∃ epoch, s.nextRunEpoch.whole? = some epoch ∧ o = scheduledOperation P c now s epoch

section Calls
variable {P : Platform} {c : Ctx} {now : ℚ} {t t' : Timetable} {s : ScheduleRow} {q q' : Database}
  {row : OperationRow} {rows : List OperationRow}

theorem requireWorkflow_text (w : WorkflowId) : requireWorkflow w.text = .ok w := by
  have hid : strip w.text = w.text ∧ isSafeId w.text = true := by cases w <;> decide +kernel
  have hparse : WorkflowId.parse? w.text = some w := by cases w <;> decide +kernel
  rw [requireWorkflow, requireId_of hid]
  exact demand_eq_ok.mpr hparse

theorem requireLimits_scheduled (w : WorkflowId) :
    requireLimits (if w.automaticRetry then 3 else 1) 1800 =
      .ok (if w.automaticRetry then 3 else 1, 1800) := by
  cases w <;> rfl

theorem event_eq_ok {ty : String} {payload : List (String × Json)} :
    q.event P c ty payload none = .ok q' ↔
      ∃ store, Prod.fst <$> q.store.event P c ty payload none = .ok store ∧
        q' = q.withStore store := by
  unfold Database.event
  cases q.store.event P c ty payload none with
  | error e => simp [Functor.map, Except.map]
  | ok x => simp [Functor.map, Except.map, eq_comm]

theorem put_absent (h : q.operation? row.scope row.operationId = none) :
    q.put row = { q with operations := q.operations ++ [row] } := by
  rw [Database.put, upsert_of_absent h]

theorem enqueueLocked_request (hs : s.Saved P) (epoch : Int) :
    enqueueLocked P c (s.request now epoch) q = .ok (q', row) ↔
      (operationId s.scheduleId epoch).length ≤ 200 ∧
      q.operation? c.self.scope (operationId s.scheduleId epoch) = none ∧
      row = scheduledOperation P c now s epoch ∧
      ∃ store, logQueued P c q.store row = .ok store ∧
        q' = { store, operations := q.operations ++ [row] } := by
  have hhuman : requireId humanOperatorId "requester" = .ok humanOperatorId :=
    requireId_of (by decide +kernel)
  simp only [enqueueLocked, ScheduleRow.request, requireWorkflow_text, hs.task, hs.directory,
    hs.resource, hs.requester, hhuman, hs.decision, requireLimits_scheduled, Option.getD_some,
    if_neg (operationId_ne _ _), bind_eq_ok, Except.ok.injEq, exists_eq_left', require_eq_ok,
    requireId_operationId hs.safe, pure_eq_ok, Prod.mk.injEq]
  have hrow := scheduledOperation.eq_1 P c now s epoch
  rw [hs.requester] at hrow
  have hput : q.operation? c.self.scope (operationId s.scheduleId epoch) = none →
      q.put (scheduledOperation P c now s epoch) =
        { q with operations := q.operations ++ [scheduledOperation P c now s epoch] } :=
    @put_absent _ (scheduledOperation P c now s epoch)
  constructor
  · rintro ⟨-, -, _, ⟨hlen, rfl⟩, -, hfree, q₁, he, rfl, hend⟩
    have hfree := Option.isNone_iff_eq_none.mp hfree
    rw [← hrow] at he hend
    subst hend
    rw [hput hfree, event_eq_ok] at he
    exact ⟨hlen, hfree, rfl, he⟩
  · rintro ⟨hlen, hfree, rfl, he⟩
    refine ⟨(), .inl trivial, _, ⟨hlen, rfl⟩, (), Option.isNone_iff_eq_none.mpr hfree, q', ?_,
      rfl, hrow.symm⟩
    rw [← hrow, hput hfree, event_eq_ok]
    exact he

theorem materializeSchedule_eq_ok (hs : s.Saved P) :
    materializeSchedule P c now t s = .ok (t', row) ↔
      ∃ epoch, Runnable c t.database s epoch ∧ row = scheduledOperation P c now s epoch ∧
        ∃ store, logQueued P c t.database.store row = .ok store ∧
          t' = { database := { store, operations := t.database.operations ++ [row] },
                 schedules := upsert ScheduleRow.key (advancedSchedule P c now s) t.schedules } := by
  simp only [materializeSchedule, bind_eq_ok, require_eq_ok, demand_eq_ok, queued_eq_ok, pure_eq_ok,
    Prod.mk.injEq]
  constructor
  · rintro ⟨-, -, epoch, hfinite, ⟨q, o⟩, he, rfl, rfl⟩
    obtain ⟨hlen, hfree, rfl, store, hlog, rfl⟩ := (enqueueLocked_request hs epoch).mp he
    exact ⟨epoch, ⟨hfinite, hlen, hfree⟩, rfl, store, hlog, rfl⟩
  · rintro ⟨epoch, ⟨hfinite, hlen, hfree⟩, rfl, store, hlog, rfl⟩
    exact ⟨(), hs.intact, epoch, hfinite, _,
      (enqueueLocked_request hs epoch).mpr ⟨hlen, hfree, rfl, store, hlog, rfl⟩, rfl, rfl⟩

theorem operation?_snoc {scope id : String} {store : Store} {schedules : List ScheduleRow}
    (hne : row.key ≠ (scope, id)) :
    (Timetable.mk { store, operations := q.operations ++ [row] } schedules).database.operation?
      scope id = q.operation? scope id := by
  have hrow : lookup OperationRow.key (scope, id) [row] = none := by
    simpa [lookup_eq_none] using hne
  rw [Database.operation?, lookup_append, hrow, Option.or_none]
  rfl

theorem materializeAll_eq_ok {due : List ScheduleRow} (hs : ∀ s ∈ due, s.Saved P)
    (hids : (due.map ScheduleRow.scheduleId).Nodup) :
    materializeAll P c now due t = .ok (t', rows) ↔
      (∀ s ∈ due, ∃ epoch, Runnable c t.database s epoch) ∧
      List.Forall₂ (RunOf P c now) due rows ∧
      ∃ store, rows.foldlM (logQueued P c) t.database.store = .ok store ∧
        t' = { database := { store, operations := t.database.operations ++ rows },
               schedules := due.foldl
                 (fun all s => upsert ScheduleRow.key (advancedSchedule P c now s) all)
                 t.schedules } := by
  induction due generalizing t rows with
  | nil =>
    simp only [materializeAll, pure_eq_ok, Prod.mk.injEq, List.forall₂_nil_left_iff,
      List.foldl_nil]
    constructor
    · rintro ⟨rfl, rfl⟩
      exact ⟨by simp, rfl, t.database.store, rfl, by simp⟩
    · rintro ⟨-, rfl, store, hstore, rfl⟩
      obtain rfl : t.database.store = store := Except.ok.inj hstore
      exact ⟨by simp, rfl⟩
  | cons s due ih =>
    obtain ⟨hs, hrest⟩ := List.forall_mem_cons.mp hs
    obtain ⟨hnew, hids⟩ := List.nodup_cons.mp hids
    -- the operations made for the others carry other ids
    have hother : ∀ {epoch : Int} {store : Store} {schedules : List ScheduleRow}, ∀ d ∈ due, ∀ n,
        (Timetable.mk { store, operations := t.database.operations ++
          [scheduledOperation P c now s epoch] } schedules).database.operation? c.self.scope
            (operationId d.scheduleId n) =
          t.database.operation? c.self.scope (operationId d.scheduleId n) := by
      intro epoch store schedules d hd n
      refine operation?_snoc (fun hk => hnew ?_)
      have hid : operationId s.scheduleId epoch = operationId d.scheduleId n := congrArg Prod.snd hk
      rw [(operationId_inj hid).1]
      exact List.mem_map_of_mem hd
    simp only [materializeAll, bind_eq_ok, pure_eq_ok, Prod.mk.injEq, List.foldl_cons]
    constructor
    · rintro ⟨⟨t₁, row⟩, hstep, ⟨t₂, rest⟩, hall, rfl, rfl⟩
      obtain ⟨epoch, hrun, rfl, store, hlog, rfl⟩ := (materializeSchedule_eq_ok hs).mp hstep
      obtain ⟨hruns, hrows, last, hlast, rfl⟩ := (ih hrest hids).mp hall
      refine ⟨List.forall_mem_cons.mpr ⟨⟨epoch, hrun⟩, fun d hd => ?_⟩,
        .cons ⟨epoch, hrun.finite, rfl⟩ hrows, last, ?_, by simp⟩
      · obtain ⟨n, hn⟩ := hruns d hd
        exact ⟨n, hn.finite, hn.short, (hother d hd n).symm.trans hn.free⟩
      · rw [List.foldlM_cons, hlog]
        exact hlast
    · rintro ⟨hruns, hrows, last, hlast, rfl⟩
      obtain ⟨⟨epoch, hrun⟩, hruns⟩ := List.forall_mem_cons.mp hruns
      cases hrows with
      | @cons _ row _ rest hrow hrows =>
        obtain ⟨n, hn, rfl⟩ := hrow
        obtain rfl := Option.some.inj (hrun.finite.symm.trans hn)
        rw [List.foldlM_cons] at hlast
        obtain ⟨store, hlog, hlast⟩ := bind_eq_ok.mp hlast
        refine ⟨_, (materializeSchedule_eq_ok hs).mpr ⟨epoch, hrun, rfl, store, hlog, rfl⟩, _,
          (ih hrest hids).mpr ⟨fun d hd => ?_, hrows, last, hlast, by simp⟩, rfl, rfl⟩
        obtain ⟨n, hn⟩ := hruns d hd
        exact ⟨n, hn.finite, hn.short, (hother d hd n).trans hn.free⟩

end Calls

end PeerBridge.Schedules
