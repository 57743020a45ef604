import PeerBridge.Gateway
import PeerBridge.QueueSafety

namespace PeerBridge
open Checked Rows

def Recorded (P : Platform) (k : CallKey) (r : McpReceiptRow) : Bool :=
  r.callSha256 = mutationCallSha256 P k ∧ r.scope = k.scope ∧ r.actor = k.actor ∧
    r.tool = k.tool.name

def recorded? (P : Platform) (k : CallKey) (rows : List McpReceiptRow) : Option McpReceiptRow :=
  rows.find? (Recorded P k)

structure Receipts (P : Platform) (rows : List McpReceiptRow) : Prop where
  keys : (rows.map McpReceiptRow.callSha256).Nodup
  sealed : ∀ r ∈ rows, r.resultSha256 = P.stableSha256 r.result

def ToolCall.row (P : Platform) (x : ToolCall) (result : Json) : McpReceiptRow :=
  { callSha256 := mutationCallSha256 P x.key, scope := x.bridge.scope, actor := x.bridge.agentId,
    sessionId := x.bridge.sessionId, tool := x.arguments.tool.name,
    argumentsSha256 := x.argumentsSha256 P, result, resultSha256 := P.stableSha256 result }

section Receipts
variable {P : Platform} {k : CallKey} {rows more : List McpReceiptRow} {r : McpReceiptRow}
  {sha : Sha256} {v : Json}

theorem find?_narrow {α : Type} {p q : α → Bool} {xs : List α} {x : α}
    (hpq : ∀ y, q y = true → p y = true) (h : xs.find? p = some x) (hq : q x = true) :
    xs.find? q = some x := by
  rw [List.find?_eq_some_iff_append] at h ⊢
  obtain ⟨-, as, bs, rfl, has⟩ := h
  refine ⟨hq, as, bs, rfl, fun a ha => ?_⟩
  have hp := has a ha
  cases hqa : q a with
  | false => rfl
  | true => simp [hpq a hqa] at hp

theorem recorded?_append (h : recorded? P k rows = some r) :
    recorded? P k (rows ++ more) = some r := by
  rw [recorded?, List.find?_append, ← recorded?, h]
  rfl

theorem recorded?_mem (h : recorded? P k rows = some r) :
    r ∈ rows ∧ r.callSha256 = mutationCallSha256 P k ∧ r.scope = k.scope ∧ r.actor = k.actor ∧
      r.tool = k.tool.name :=
  ⟨List.mem_of_find?_eq_some h, by simpa [Recorded] using List.find?_some h⟩

theorem Receipts.unique (h : Receipts P rows) {a b : McpReceiptRow} (ha : a ∈ rows) (hb : b ∈ rows)
    (hab : a.callSha256 = b.callSha256) : a = b :=
  List.inj_on_of_nodup_map h.keys ha hb hab

theorem loadReceipt_recorded (hw : Receipts P rows) (h : recorded? P k rows = some r)
    (hs : r.argumentsSha256 = sha) :
    loadReceipt P k.scope k.actor k.tool.name (mutationCallSha256 P k) sha rows =
      .ok (some r.result) := by
  obtain ⟨hm, hsha, hscope, hactor, htool⟩ := recorded?_mem h
  have hfind : rows.find? (fun r => r.callSha256 = mutationCallSha256 P k ∧ r.scope = k.scope) =
      some r := by
    cases hf : rows.find? (fun r => r.callSha256 = mutationCallSha256 P k ∧ r.scope = k.scope) with
    | none => simpa [hsha, hscope] using List.find?_eq_none.mp hf r hm
    | some y =>
      have hy : y.callSha256 = mutationCallSha256 P k ∧ y.scope = k.scope := by
        simpa using List.find?_some hf
      rw [hw.unique (List.mem_of_find?_eq_some hf) hm (hy.1.trans hsha.symm)]
  rw [loadReceipt, hfind]
  simp [hactor, htool, hs, hw.sealed r hm, bind, Except.bind, require, pure, Except.pure]

theorem loadReceipt_some
    (h : loadReceipt P k.scope k.actor k.tool.name (mutationCallSha256 P k) sha rows =
      .ok (some v)) :
    ∃ r, recorded? P k rows = some r ∧ r.result = v ∧ r.argumentsSha256 = sha := by
  simp only [loadReceipt] at h
  split at h
  · simp at h
  · rename_i r hf
    simp only [bind_eq_ok, require_eq_ok, pure_eq_ok, Option.some.injEq] at h
    obtain ⟨-, ⟨hactor, htool, hs⟩, -, -, rfl⟩ := h
    have hr : r.callSha256 = mutationCallSha256 P k ∧ r.scope = k.scope := by
      simpa using List.find?_some hf
    refine ⟨r, find?_narrow (fun y hy => ?_) hf (by simp [Recorded, hr, hactor, htool]), rfl, hs⟩
    simp only [Recorded, decide_eq_true_eq] at hy
    simp [hy.1, hy.2.1]

end Receipts

section Dispatch
variable {P : Platform} {c : Ctx} {files : Artifacts} {x : ToolCall} {t t' : McpStore} {v : Json}

def ToolCall.attempt (P : Platform) (c : Ctx) (files : Artifacts) (x : ToolCall) (s : Store) :
    Except BridgeError (Store × Json) := do
  let artifacts ← x.arguments.prepare P files
  x.arguments.operation P { c with self := x.bridge } artifacts s

theorem metadata_accepted (x : ToolCall) :
    mcpReceiptMetadata { c with self := x.bridge } (some (x.receipt P)) x.arguments.tool =
      .ok (some (x.receipt P)) := by
  simp [mcpReceiptMetadata, ToolCall.receipt, bind, Except.bind, require, pure, Except.pure]

theorem dispatchTool_ok
    (h : dispatchTool P { c with self := x.bridge } files (some (x.receipt P)) x.arguments t =
      .ok (t', v)) :
    (t' = t ∧ ∃ r, recorded? P x.key t.receipts = some r ∧ r.result = v ∧
        r.argumentsSha256 = x.argumentsSha256 P) ∨
      ((∀ r ∈ t.receipts, r.callSha256 ≠ mutationCallSha256 P x.key) ∧
        ∃ s', x.attempt P c files t.store = .ok (s', v) ∧
          t' = { store := s', receipts := t.receipts ++ [x.row P v] }) := by
  simp only [dispatchTool, metadata_accepted, bind_eq_ok, Except.ok.injEq] at h
  obtain ⟨-, rfl, artifacts, hp, h⟩ := h
  simp only [mutate, bind_eq_ok] at h
  obtain ⟨replay, hl, h⟩ := h
  cases replay with
  | some result =>
    simp only [pure_eq_ok, Prod.mk.injEq] at h
    obtain ⟨rfl, rfl⟩ := h
    exact .inl ⟨rfl, loadReceipt_some (k := x.key) hl⟩
  | none =>
    simp only [bind_eq_ok, pure_eq_ok, Prod.mk.injEq] at h
    obtain ⟨⟨s', result⟩, ho, rows, hs, rfl, rfl⟩ := h
    simp only [storeMcpMutationReceiptLocked, bind_eq_ok, require_eq_ok, pure_eq_ok] at hs
    obtain ⟨-, hnew, rfl⟩ := hs
    refine .inr ⟨hnew, s', ?_, rfl⟩
    simp only [ToolCall.attempt, bind_eq_ok]
    exact ⟨artifacts, hp, ho⟩

theorem dispatchTool_unused
    (hnew : ∀ r ∈ t.receipts, r.callSha256 ≠ mutationCallSha256 P x.key) :
    dispatchTool P { c with self := x.bridge } files (some (x.receipt P)) x.arguments t =
      (x.attempt P c files t.store).map
        (fun y => ({ store := y.1, receipts := t.receipts ++ [x.row P y.2] }, y.2)) := by
  have hfind : t.receipts.find? (fun r => r.callSha256 = (x.receipt P).callSha256 ∧
      r.scope = x.bridge.scope) = none := by
    refine List.find?_eq_none.mpr fun r hr => ?_
    simp [ToolCall.receipt, hnew r hr]
  have hload : loadMcpMutationReceiptLocked P { c with self := x.bridge } (some (x.receipt P))
      t.receipts = .ok none := by
    rw [loadMcpMutationReceiptLocked, loadReceipt, hfind]
    rfl
  have hstore (v : Json) : storeMcpMutationReceiptLocked P { c with self := x.bridge }
      (some (x.receipt P)) v t.receipts = .ok (t.receipts ++ [x.row P v]) := by
    simp only [storeMcpMutationReceiptLocked, bind_eq_ok, require_eq_ok, pure_eq_ok]
    exact ⟨⟨⟩, hnew, rfl⟩
  simp only [dispatchTool, metadata_accepted, ToolCall.attempt]
  cases hp : x.arguments.prepare P files with
  | error e => rfl
  | ok artifacts =>
    simp only [bind, Except.bind, mutate, hload]
    cases ho : x.arguments.operation P { c with self := x.bridge } artifacts t.store with
    | error e => rfl
    | ok y =>
      simp only [hstore]
      rfl

end Dispatch

-- the result a call carries or has returned
def Stage.result? : Stage → Option Json
  | .looked replayed | .called replayed => replayed
  | .returned v | .answered (.content v) => some v
  | .received | .failed _ | .answered _ => none

def ToolCall.Holds (P : Platform) (rows : List McpReceiptRow) (x : ToolCall) : Prop :=
  ∀ v, x.stage.result? = some v → ∃ r, recorded? P x.key rows = some r ∧ r.result = v ∧
    r.argumentsSha256 = x.argumentsSha256 P

-- one transaction of a call, kept or committed
inductive ToolCall.Effect (P : Platform) (c : Ctx) (files : Artifacts) (x : ToolCall)
    (t t' : McpStore) (stage : Stage) : Prop
  | kept (hm : t'.store.mail = t.store.mail) (hr : t'.receipts = t.receipts)
      (hv : ∀ v, stage.result? = some v → x.stage.result? = some v ∨
        ∃ r, recorded? P x.key t.receipts = some r ∧ r.result = v ∧
          r.argumentsSha256 = x.argumentsSha256 P)
  | committed (v : Json) (s' : Store)
      (hnew : ∀ r ∈ t.receipts, r.callSha256 ≠ mutationCallSha256 P x.key)
      (ha : x.attempt P c files t.store = .ok (s', v))
      (ht : t' = { store := s', receipts := t.receipts ++ [x.row P v] })
      (hs : stage = .returned v)

section Proceed
variable {P : Platform} {c : Ctx} {files : Artifacts} {x : ToolCall} {t t' : McpStore}

theorem ToolCall.event_ok {eventType label : String} {sha : Sha256}
    (h : x.event P c eventType label sha t = .ok t') :
    t'.store.mail = t.store.mail ∧ t'.receipts = t.receipts := by
  simp only [ToolCall.event, bind_eq_ok, pure_eq_ok] at h
  obtain ⟨⟨s', chain⟩, he, rfl⟩ := h
  exact ⟨(Store.event_frame he).1, rfl⟩

theorem proceed_effect :
    x.Effect P c files t (x.proceed P c files t).1 (x.proceed P c files t).2 := by
  have hsame {stage : Stage} (h : ∀ v, stage.result? = some v → x.stage.result? = some v) :
      x.Effect P c files t t stage := .kept rfl rfl fun v hv => .inl (h v hv)
  cases hx : x.stage with
  | received =>
    cases hl : loadMutationReceipt P x.bridge (mutationCallSha256 P x.key) x.arguments t.receipts with
    | error e =>
      have hp : x.proceed P c files t = (t, .answered e.answer) := by
        simp only [ToolCall.proceed, hx, hl]
      rw [hp]
      refine hsame fun v hv => ?_
      cases e <;> cases hv
    | ok replayed =>
      have hp : x.proceed P c files t = (t, .looked replayed) := by
        simp only [ToolCall.proceed, hx, hl]
      rw [hp]
      refine .kept rfl rfl fun v hv => .inr ?_
      obtain rfl : replayed = some v := hv
      exact loadReceipt_some (k := x.key) hl
  | looked replayed =>
    cases he : x.event P c "tool.called" "arguments_sha256" (x.argumentsSha256 P) t with
    | error e =>
      have hp : x.proceed P c files t = (t, .answered (.raised e)) := by
        simp only [ToolCall.proceed, hx, he]
      rw [hp]
      exact hsame fun v hv => by cases hv
    | ok t' =>
      have hp : x.proceed P c files t = (t', .called replayed) := by
        simp only [ToolCall.proceed, hx, he]
      rw [hp]
      obtain ⟨hm, hr⟩ := ToolCall.event_ok he
      exact .kept hm hr fun v hv => .inl (by rw [hx]; exact hv)
  | called replayed =>
    cases replayed with
    | some result =>
      have hp : x.proceed P c files t = (t, .returned result) := by
        simp only [ToolCall.proceed, hx]
      rw [hp]
      exact hsame fun v hv => by rw [hx]; exact hv
    | none =>
      cases hd : dispatchTool P { c with self := x.bridge } files (some (x.receipt P)) x.arguments t with
      | error e =>
        have hp : x.proceed P c files t = (t, .failed e) := by
          simp only [ToolCall.proceed, hx, hd]
        rw [hp]
        exact hsame fun v hv => by cases hv
      | ok y =>
        obtain ⟨t', v⟩ := y
        have hp : x.proceed P c files t = (t', .returned v) := by
          simp only [ToolCall.proceed, hx, hd]
        rw [hp]
        rcases dispatchTool_ok hd with ⟨rfl, hr⟩ | ⟨hnew, s', ha, rfl⟩
        · refine .kept rfl rfl fun u hu => .inr ?_
          obtain rfl : v = u := Option.some.inj hu
          exact hr
        · exact .committed v s' hnew ha rfl rfl
  | returned result =>
    cases he : x.event P c "tool.returned" "result_sha256" (P.stableSha256 result) t with
    | error e =>
      cases e with
      | bridge text =>
        have hp : x.proceed P c files t = (t, .failed (.bridge text)) := by
          simp only [ToolCall.proceed, hx, he]
        rw [hp]
        exact hsame fun v hv => by cases hv
      | integrity text =>
        have hp : x.proceed P c files t = (t, .answered (.content result)) := by
          simp only [ToolCall.proceed, hx, he]
        rw [hp]
        exact hsame fun v hv => by rw [hx]; exact hv
    | ok t' =>
      have hp : x.proceed P c files t = (t', .answered (.content result)) := by
        simp only [ToolCall.proceed, hx, he]
      rw [hp]
      obtain ⟨hm, hr⟩ := ToolCall.event_ok he
      exact .kept hm hr fun v hv => .inl (by rw [hx]; exact hv)
  | failed e =>
    cases he : x.event P c "tool.failed" "error_sha256" (P.stableSha256 (.str e.text)) t with
    | error raised =>
      have hp : x.proceed P c files t = (t, .answered (.raised raised)) := by
        simp only [ToolCall.proceed, hx, he]
      rw [hp]
      exact hsame fun v hv => by cases hv
    | ok t' =>
      have hp : x.proceed P c files t = (t', .answered e.answer) := by
        simp only [ToolCall.proceed, hx, he]
      rw [hp]
      obtain ⟨hm, hr⟩ := ToolCall.event_ok he
      exact .kept hm hr fun v hv => by cases e <;> cases hv
  | answered a =>
    have hp : x.proceed P c files t = (t, .answered a) := by
      simp only [ToolCall.proceed, hx]
    rw [hp]
    exact hsame fun v hv => by rw [hx]; exact hv

theorem recorded?_row {rows : List McpReceiptRow} (v : Json)
    (hnew : ∀ r ∈ rows, r.callSha256 ≠ mutationCallSha256 P x.key) :
    recorded? P x.key (rows ++ [x.row P v]) = some (x.row P v) := by
  have hnone : rows.find? (Recorded P x.key) = none :=
    List.find?_eq_none.mpr fun r hr => by simp [Recorded, hnew r hr]
  rw [recorded?, List.find?_append, hnone]
  simp [Recorded, ToolCall.row, ToolCall.key]

variable {stage : Stage}

theorem ToolCall.Effect.grow (h : x.Effect P c files t t' stage) :
    ∃ more, t'.receipts = t.receipts ++ more := by
  cases h with
  | kept hm hr hv => exact ⟨[], by rw [hr, List.append_nil]⟩
  | committed v s' hnew ha ht hs => exact ⟨[x.row P v], by rw [ht]⟩

theorem ToolCall.Effect.receipts (h : x.Effect P c files t t' stage) (hw : Receipts P t.receipts) :
    Receipts P t'.receipts := by
  cases h with
  | kept hm hr hv => exact hr ▸ hw
  | committed v s' hnew ha ht hs =>
    rw [ht]
    refine ⟨?_, fun r hr => ?_⟩
    · rw [List.map_append]
      refine List.nodup_append.mpr ⟨hw.keys, by simp, ?_⟩
      rintro a hk b hb rfl
      obtain ⟨r, hr, rfl⟩ := List.mem_map.mp hk
      exact hnew r hr (by simpa [ToolCall.row] using hb)
    · rcases List.mem_append.mp hr with hr | hr
      · exact hw.sealed r hr
      · rw [List.mem_singleton.mp hr]
        rfl

theorem ToolCall.Effect.holds (h : x.Effect P c files t t' stage) (hx : x.Holds P t.receipts) :
    ({ x with stage } : ToolCall).Holds P t'.receipts := by
  intro v hv
  cases h with
  | kept hm hr hres =>
    rw [hr]
    rcases hres v hv with hold | hnew
    · exact hx v hold
    · exact hnew
  | committed u s' hnew ha ht hs =>
    subst hs
    obtain rfl : u = v := Option.some.inj hv
    rw [ht]
    exact ⟨x.row P u, recorded?_row u hnew, rfl, rfl⟩

end Proceed

theorem ToolCall.Holds.grow {P : Platform} {x : ToolCall} {rows more : List McpReceiptRow}
    (h : x.Holds P rows) : x.Holds P (rows ++ more) := by
  intro v hv
  obtain ⟨r, hr, hres⟩ := h v hv
  exact ⟨r, recorded?_append hr, hres⟩

def Gateway.recorded? (P : Platform) (g : Gateway) (k : CallKey) : Option McpReceiptRow :=
  PeerBridge.recorded? P k g.receipts

-- input i is a step of call n, which is x and carries the key
structure Gateway.StepOf (g : Gateway) (k : CallKey) (n : Nat) (x : ToolCall)
    (i : GatewayCall × Ctx) : Prop where
  proceeds : ∃ files, i.1 = .proceed n files
  call : g.calls[n]? = some x
  key : x.key = k

def Gateway.Kept (g g' : Gateway) : Prop :=
  g'.office.world.store.mail = g.office.world.store.mail ∧ g'.receipts = g.receipts

structure Gateway.Honest (P : Platform) (g : Gateway) : Prop where
  receipts : Receipts P g.receipts
  holds : ∀ x ∈ g.calls, x.Holds P g.receipts

section Gateways
variable {P : Platform} {J : JsonReader} {g g₂ : Gateway} {k : CallKey} {n : Nat} {x : ToolCall}
  {i : GatewayCall × Ctx} {r : McpReceiptRow}

theorem exec_proceed (files : Artifacts) (c : Ctx) (hx : g.calls[n]? = some x) :
    ((gateway P J).exec g (.proceed n files, c)).1 =
      g.commit c n x (x.proceed P c files g.tables) := by
  simp [gateway, serve, hx]

theorem exec_other (h : ∀ n x, ¬ g.StepOf x.key n x i) :
    ((gateway P J).exec g i).1.receipts = g.receipts ∧
      ∃ fresh : List ToolCall, ((gateway P J).exec g i).1.calls = g.calls ++ fresh ∧
        ∀ y ∈ fresh, y.stage = .received := by
  obtain ⟨call, c⟩ := i
  cases call with
  | office call => exact ⟨rfl, [], (List.append_nil _).symm, by simp⟩
  | submit a => exact ⟨rfl, [_], rfl, by simp⟩
  | proceed n files =>
    cases hx : g.calls[n]? with
    | none => exact ⟨by simp [gateway, serve, hx], [], by simp [gateway, serve, hx], by simp⟩
    | some x => exact absurd ⟨⟨files, rfl⟩, hx, rfl⟩ (h n x)

theorem exec_step (h : g.StepOf k n x i) :
    ∃ files t stage, x.Effect P i.2 files g.tables t stage ∧
      ((gateway P J).exec g i).1 = g.commit i.2 n x (t, stage) ∧ i.1 = .proceed n files ∧
      x.proceed P i.2 files g.tables = (t, stage) := by
  obtain ⟨call, c⟩ := i
  obtain ⟨⟨files, rfl⟩, hx, -⟩ := h
  exact ⟨files, _, _, proceed_effect, exec_proceed files c hx, rfl, rfl⟩

theorem exec_grow : ∃ more, ((gateway P J).exec g i).1.receipts = g.receipts ++ more := by
  by_cases h : ∀ n x, ¬ g.StepOf x.key n x i
  · exact ⟨[], by rw [(exec_other h).1, List.append_nil]⟩
  · push Not at h
    obtain ⟨n, x, h⟩ := h
    obtain ⟨files, t, stage, he, hg, -⟩ := exec_step (P := P) (J := J) h
    obtain ⟨more, hm⟩ := he.grow
    exact ⟨more, by rw [hg]; exact hm⟩

theorem exec_honest (h : g.Honest P) : ((gateway P J).exec g i).1.Honest P := by
  by_cases hi : ∀ n x, ¬ g.StepOf x.key n x i
  · obtain ⟨hr, fresh, hc, hf⟩ := exec_other (P := P) (J := J) hi
    refine ⟨hr ▸ h.receipts, fun y hy => ?_⟩
    rw [hc] at hy
    rw [hr]
    rcases List.mem_append.mp hy with hy | hy
    · exact h.holds y hy
    · intro v hv
      rw [hf y hy] at hv
      cases hv
  · push Not at hi
    obtain ⟨n, x, hi⟩ := hi
    obtain ⟨files, t, stage, he, hg, -⟩ := exec_step (P := P) (J := J) hi
    rw [hg]
    refine ⟨he.receipts h.receipts, fun y hy => ?_⟩
    obtain ⟨more, hm⟩ := he.grow
    have hm' : t.receipts = g.receipts ++ more := hm
    rcases List.mem_or_eq_of_mem_set hy with hy | rfl
    · show y.Holds P t.receipts
      rw [hm']
      exact (h.holds y hy).grow
    · exact he.holds (h.holds x (List.mem_of_getElem? hi.call))

theorem reachable_honest (h : (gateway P J).Reachable g) : g.Honest P := by
  refine h.invariant (fun g => g.Honest P) ?_ fun g i hg _ => exec_honest hg
  rintro _ ⟨connections, now, rfl⟩
  exact ⟨⟨List.nodup_nil, fun r hr => by cases hr⟩, fun x hx => by cases hx⟩

theorem run_recorded {tr : List ((GatewayCall × Ctx) × GatewayReply)}
    (h : (gateway P J).Run g tr g₂) (hr : g.recorded? P k = some r) :
    g₂.recorded? P k = some r := by
  refine h.preserves (fun g => g.recorded? P k = some r) (fun g i hg _ => ?_) hr
  obtain ⟨more, hm⟩ := exec_grow (P := P) (J := J) (g := g) (i := i)
  rw [Gateway.recorded?, hm]
  exact recorded?_append hg

theorem step_kept (h : g.StepOf k n x i) (hr : g.recorded? P k = some r) :
    g.Kept ((gateway P J).exec g i).1 := by
  obtain ⟨files, t, stage, he, hg, -⟩ := exec_step (P := P) (J := J) h
  rw [hg]
  cases he with
  | kept hm hr hv => exact ⟨hm, hr⟩
  | committed v s' hnew ha ht hs =>
    obtain ⟨hm, hsha, -⟩ := recorded?_mem hr
    rw [← h.key] at hsha
    exact absurd hsha (hnew r hm)

theorem step_records (h : g.StepOf k n x i) (hk : ¬ g.Kept ((gateway P J).exec g i).1) :
    ∃ r, ((gateway P J).exec g i).1.recorded? P k = some r ∧
      r.argumentsSha256 = x.argumentsSha256 P := by
  obtain ⟨files, t, stage, he, hg, -⟩ := exec_step (P := P) (J := J) h
  cases he with
  | kept hm hr hv => exact absurd (hg ▸ ⟨hm, hr⟩) hk
  | committed v s' hnew ha ht hs =>
    refine ⟨x.row P v, ?_, rfl⟩
    rw [hg, ht, ← h.key]
    exact recorded?_row v hnew

end Gateways

-- room in the scope's event quota
def Audit.Takes (P : Platform) (c : Ctx) (payload : List (String × Json)) (a : Audit) : Prop :=
  (a.tally c.self.scope).eventRows + 1 ≤ maxScopeEventRows ∧
    (a.tally c.self.scope).eventBytes + P.encodedBytes (eventPayload c payload) ≤ maxScopeEventBytes

def Audit.FreshEvent (c : Ctx) (a : Audit) : Prop :=
  ∀ e ∈ a.events, e.eventId ≠ (c.eventUuid (a.lastEvent + 1)).text

section Events
variable {P : Platform} {c : Ctx} {s : Store} {eventType : String} {payload : List (String × Json)}
  {task : Option String}

theorem reserveEventStorage_takes (h : s.audit.Takes P c payload) :
    ∃ a, reserveEventStorage c (P.encodedBytes (eventPayload c payload)) s.audit = .ok a := by
  have hu := Audit.usage_tally (a := s.audit) c.self.scope (utcNow c.clock.locked)
  have hrows := congrArg Tally.eventRows hu
  have hbytes := congrArg Tally.eventBytes hu
  simp only [StorageUsageRow.tally] at hrows hbytes
  obtain ⟨h1, h2⟩ := h
  simp only [reserveEventStorage, bind_eq_ok, require_eq_ok, pure_eq_ok, hrows, hbytes]
  exact ⟨_, ⟨⟩, ⟨h1, h2⟩, rfl⟩

theorem event_takes (h : s.audit.Takes P c payload) (hf : s.audit.FreshEvent c) :
    ∃ y, s.event P c eventType payload task = .ok y := by
  obtain ⟨a, ha⟩ := reserveEventStorage_takes h
  simp only [Store.event, event, bind_eq_ok, require_eq_ok, pure_eq_ok]
  exact ⟨_, _, ⟨a, ha, ⟨⟩, hf, rfl⟩, rfl⟩

theorem event_refused {text : String} (h : s.event P c eventType payload task = .error (.bridge text)) :
    ¬ s.audit.Takes P c payload := by
  intro ht
  obtain ⟨a, ha⟩ := reserveEventStorage_takes ht
  simp only [Store.event, event, ha, bind, Except.bind, require, pure, Except.pure] at h
  split_ifs at h
  cases h

end Events

-- what a duplicate needs to be answered with the record
def ToolCall.Unhindered (P : Platform) (c : Ctx) (files : Artifacts) (x : ToolCall)
    (t : McpStore) : Prop :=
  let c := { c with self := x.bridge }
  let name := Json.str x.arguments.tool.name
  match x.stage with
  | .looked _ =>
    t.store.audit.Takes P c [("tool", name), ("arguments_sha256", .sha (x.argumentsSha256 P))] ∧
      t.store.audit.FreshEvent c
  | .called none => isOk (x.arguments.prepare P files) = true
  | .returned v =>
    t.store.audit.Takes P c [("tool", name), ("result_sha256", .sha (P.stableSha256 v))]
  | _ => True

def Unhindered (P : Platform) (k : CallKey) (g : Gateway) (i : GatewayCall × Ctx) : Prop :=
  match i.1 with
  | .proceed n files =>
    ∀ x ∈ g.calls[n]?, x.key = k → x.Unhindered P i.2 files g.tables
  | _ => True

def Stage.isOpen : Stage → Bool
  | .failed _ | .answered _ => false
  | _ => true

def Stage.OnTrack (v : Json) : Stage → Prop
  | .received | .looked none | .called none => True
  | .looked (some u) | .called (some u) | .returned u | .answered (.content u) => u = v
  | .failed _ | .answered _ => False

structure IdempotentAt (P : Platform) (M : Machine Gateway (GatewayCall × Ctx) GatewayReply)
    (k : CallKey) (g : Gateway) : Prop where
  -- after one call inserted, no step of any call of the key does
  once : ∀ n x i tr g₂ m y j, g.StepOf k n x i → ¬ g.Kept (M.exec g i).1 →
    M.Run (M.exec g i).1 tr g₂ → g₂.StepOf k m y j → g₂.Kept (M.exec g₂ j).1
  inserted : ∀ n x i, g.StepOf k n x i → ¬ g.Kept (M.exec g i).1 →
    ∃ r, (M.exec g i).1.recorded? P k = some r ∧ r.argumentsSha256 = x.argumentsSha256 P
  permanent : ∀ r tr g₂, g.recorded? P k = some r → M.Run g tr g₂ → g₂.recorded? P k = some r
  -- equal arguments: the recorded result
  replayed : ∀ r (n : Nat) (x y : ToolCall) tr (g₂ : Gateway) a, g.recorded? P k = some r →
    g.calls[n]? = some x → x.key = k → x.stage.isOpen = true →
    r.argumentsSha256 = x.argumentsSha256 P → M.Run g tr g₂ → g₂.calls[n]? = some y →
    y.stage = .answered a → a = .content r.result
  answered : ∀ x ∈ g.calls, x.key = k → ∀ v, x.stage = .answered (.content v) →
    ∃ r, g.recorded? P k = some r ∧ r.result = v ∧ r.argumentsSha256 = x.argumentsSha256 P
  -- different arguments: no success and no change
  refused : ∀ r n x i, g.recorded? P k = some r → g.StepOf k n x i →
    r.argumentsSha256 ≠ x.argumentsSha256 P →
    (∀ v, x.stage ≠ .answered (.content v)) ∧ g.Kept (M.exec g i).1
  -- while the key is unused its arguments alone decide, and a failure leaves it unused
  reusable : ∀ n x files c, g.StepOf k n x (.proceed n files, c) → x.stage = .called none →
    (∀ r ∈ g.receipts, r.callSha256 ≠ mutationCallSha256 P k) →
    match x.attempt P c files g.office.world.store with
    | .ok (s, v) =>
      (M.exec g (.proceed n files, c)).1.office.world.store = s ∧
        (M.exec g (.proceed n files, c)).1.calls[n]? = some { x with stage := .returned v }
    | .error e =>
      (M.exec g (.proceed n files, c)).1.calls[n]? = some { x with stage := .failed e } ∧
        g.Kept (M.exec g (.proceed n files, c)).1

section Replays
variable {P : Platform} {J : JsonReader} {c : Ctx} {files : Artifacts} {x : ToolCall}
  {t : McpStore} {r : McpReceiptRow} {g g₂ : Gateway} {k : CallKey} {n : Nat}

theorem proceed_onTrack (hw : Receipts P t.receipts) (hr : recorded? P x.key t.receipts = some r)
    (hs : r.argumentsSha256 = x.argumentsSha256 P) (hu : x.Unhindered P c files t)
    (ht : x.stage.OnTrack r.result) : (x.proceed P c files t).2.OnTrack r.result := by
  cases hx : x.stage with
  | received =>
    have hl : loadMutationReceipt P x.bridge (mutationCallSha256 P x.key) x.arguments t.receipts =
        .ok (some r.result) := loadReceipt_recorded (k := x.key) hw hr hs
    simp only [ToolCall.proceed, hx, hl]
    rfl
  | looked replayed =>
    simp only [ToolCall.Unhindered, hx] at hu
    obtain ⟨y, hy⟩ := @event_takes _ _ _ "tool.called" _ none hu.1 hu.2
    have he : x.event P c "tool.called" "arguments_sha256" (x.argumentsSha256 P) t =
        .ok { t with store := y.1 } := by
      rw [ToolCall.event, hy]
      rfl
    rw [hx] at ht
    simp only [ToolCall.proceed, hx, he]
    cases replayed <;> exact ht
  | called replayed =>
    rw [hx] at ht
    cases replayed with
    | some v =>
      simp only [ToolCall.proceed, hx]
      exact ht
    | none =>
      simp only [ToolCall.Unhindered, hx] at hu
      obtain ⟨artifacts, ha⟩ := isOk_iff.mp hu
      have hl : loadMcpMutationReceiptLocked P { c with self := x.bridge } (some (x.receipt P))
          t.receipts = .ok (some r.result) := loadReceipt_recorded (k := x.key) hw hr hs
      have hd : dispatchTool P { c with self := x.bridge } files (some (x.receipt P)) x.arguments
          t = .ok (t, r.result) := by
        simp [dispatchTool, metadata_accepted, ha, mutate, hl]
      simp only [ToolCall.proceed, hx, hd]
      rfl
  | returned v =>
    simp only [ToolCall.Unhindered, hx] at hu
    rw [hx] at ht
    cases he : x.event P c "tool.returned" "result_sha256" (P.stableSha256 v) t with
    | ok t' =>
      simp only [ToolCall.proceed, hx, he]
      exact ht
    | error e =>
      cases e with
      | integrity text =>
        simp only [ToolCall.proceed, hx, he]
        exact ht
      | bridge text =>
        simp only [ToolCall.event] at he
        cases hev : t.store.event P { c with self := x.bridge } "tool.returned"
            [("tool", .str x.arguments.tool.name), ("result_sha256", .sha (P.stableSha256 v))]
            none with
        | ok y => simp [hev, bind, Except.bind, pure, Except.pure] at he
        | error e =>
          simp only [hev, bind, Except.bind, Except.error.injEq] at he
          exact absurd hu (event_refused (he ▸ hev))
  | failed e =>
    rw [hx] at ht
    cases ht
  | answered a =>
    rw [hx] at ht
    simp only [ToolCall.proceed, hx]
    exact ht

theorem exec_call {i : GatewayCall × Ctx} (hx : g.calls[n]? = some x) :
    ((gateway P J).exec g i).1.calls[n]? = some x ∨ g.StepOf x.key n x i := by
  by_cases hi : ∀ m y, ¬ g.StepOf y.key m y i
  · obtain ⟨-, fresh, hc, -⟩ := exec_other (P := P) (J := J) hi
    rw [hc, List.getElem?_append_left (List.getElem?_eq_some_iff.mp hx).1]
    exact .inl hx
  · push Not at hi
    obtain ⟨m, y, hi⟩ := hi
    by_cases hm : m = n
    · subst hm
      obtain rfl : x = y := Option.some.inj (hx.symm.trans hi.call)
      exact .inr hi
    · obtain ⟨files, t, stage, -, hg, -⟩ := exec_step (P := P) (J := J) hi
      rw [hg, Gateway.commit, List.getElem?_set_ne hm]
      exact .inl hx

theorem run_onTrack {tr : List ((GatewayCall × Ctx) × GatewayReply)}
    (h : ((gateway P J).restrict (Unhindered P k)).Run g tr g₂) (hh : g.Honest P)
    (hr : g.recorded? P k = some r) (hx : g.calls[n]? = some x) (hk : x.key = k)
    (hs : r.argumentsSha256 = x.argumentsSha256 P) (ht : x.stage.OnTrack r.result) :
    ∃ stage : Stage, g₂.calls[n]? = some { x with stage } ∧ stage.OnTrack r.result := by
  have hinv : g₂.Honest P ∧ g₂.recorded? P k = some r ∧
      ∃ stage : Stage, g₂.calls[n]? = some { x with stage } ∧ stage.OnTrack r.result := by
    refine h.preserves (fun g => g.Honest P ∧ g.recorded? P k = some r ∧
      ∃ stage : Stage, g.calls[n]? = some { x with stage } ∧ stage.OnTrack r.result)
      (fun g i hg ha => ?_) ⟨hh, hr, x.stage, hx, ht⟩
    obtain ⟨hh, hr, stage, hy, ht⟩ := hg
    refine ⟨exec_honest hh, ?_, ?_⟩
    · obtain ⟨more, hm⟩ := exec_grow (P := P) (J := J) (g := g) (i := i)
      show PeerBridge.recorded? P k ((gateway P J).exec g i).1.receipts = some r
      rw [hm]
      exact recorded?_append hr
    rcases exec_call (P := P) (J := J) (i := i) hy with hsame | hstep
    · exact ⟨stage, hsame, ht⟩
    · obtain ⟨files, t, stage', -, hg, hi, hp⟩ := exec_step (P := P) (J := J) hstep
      refine ⟨stage', ?_, ?_⟩
      · show ((gateway P J).exec g i).1.calls[n]? = _
        rw [hg, Gateway.commit, List.getElem?_set_self (List.getElem?_eq_some_iff.mp hy).1]
      · have hu : Unhindered P k g i := ha.2
        simp only [Unhindered, hi] at hu
        have hon := proceed_onTrack (x := { x with stage }) (t := g.tables) hh.receipts
          (hk ▸ hr) hs (hu _ hy hk) ht
        rw [hp] at hon
        exact hon
  exact hinv.2.2

theorem onTrack_of_isOpen (hx : x.Holds P t.receipts) (hr : recorded? P x.key t.receipts = some r)
    (ho : x.stage.isOpen = true) : x.stage.OnTrack r.result := by
  have hheld {v : Json} (hv : x.stage.result? = some v) : v = r.result := by
    obtain ⟨r', hr', hv', -⟩ := hx v hv
    rw [← hv', Option.some.inj (hr'.symm.trans hr)]
  cases hs : x.stage with
  | received => trivial
  | looked replayed =>
    cases replayed with
    | none => trivial
    | some v => exact hheld (by rw [hs]; rfl)
  | called replayed =>
    cases replayed with
    | none => trivial
    | some v => exact hheld (by rw [hs]; rfl)
  | returned v => exact hheld (by rw [hs]; rfl)
  | failed e =>
    rw [hs] at ho
    cases ho
  | answered a =>
    rw [hs] at ho
    cases ho

theorem exec_unused {c : Ctx} (h : g.StepOf k n x (.proceed n files, c))
    (hx : x.stage = .called none)
    (hnew : ∀ r ∈ g.receipts, r.callSha256 ≠ mutationCallSha256 P k) :
    match x.attempt P c files g.office.world.store with
    | .ok (s, v) =>
      ((gateway P J).exec g (.proceed n files, c)).1.office.world.store = s ∧
        ((gateway P J).exec g (.proceed n files, c)).1.calls[n]? =
          some { x with stage := .returned v }
    | .error e =>
      ((gateway P J).exec g (.proceed n files, c)).1.calls[n]? =
          some { x with stage := .failed e } ∧
        g.Kept ((gateway P J).exec g (.proceed n files, c)).1 := by
  have hlen := (List.getElem?_eq_some_iff.mp h.call).1
  rw [exec_proceed files c h.call]
  rw [← h.key] at hnew
  have hd := @dispatchTool_unused _ c files x g.tables hnew
  change _ = (x.attempt P c files g.office.world.store).map _ at hd
  cases ha : x.attempt P c files g.office.world.store with
  | ok y =>
    rw [ha] at hd
    simp only [ToolCall.proceed, hx, hd, Except.map, Gateway.commit]
    exact ⟨trivial, List.getElem?_set_self hlen⟩
  | error e =>
    rw [ha] at hd
    simp only [ToolCall.proceed, hx, hd, Except.map, Gateway.commit]
    exact ⟨List.getElem?_set_self hlen, rfl, rfl⟩

theorem mutations_idempotent (h : ((gateway P J).restrict (Unhindered P k)).Reachable g) :
    IdempotentAt P ((gateway P J).restrict (Unhindered P k)) k g where
  once := by
    intro n x i tr g₂ m y j hi hk hrun hj
    obtain ⟨r, hr, -⟩ := step_records hi hk
    exact step_kept hj (run_recorded hrun.of_restrict hr)
  inserted := fun n x i hi hk => step_records hi hk
  permanent := fun r tr g₂ hr hrun => run_recorded hrun.of_restrict hr
  replayed := by
    intro r n x y tr g₂ a hr hx hk ho hs hrun hy ha
    have hh := reachable_honest h.of_restrict
    have ht := onTrack_of_isOpen (t := g.tables) (hh.holds x (List.mem_of_getElem? hx))
      (hk ▸ hr) ho
    obtain ⟨stage, hy', ht'⟩ := run_onTrack hrun hh hr hx hk hs ht
    obtain rfl := Option.some.inj (hy'.symm.trans hy)
    subst ha
    cases a with
    | content v => rw [show v = r.result from ht']
    | toolError text => cases ht'
    | databaseError => cases ht'
    | raised e => cases ht'
  answered := by
    rintro x hx rfl v hv
    exact (reachable_honest h.of_restrict).holds x hx v (by rw [hv]; rfl)
  refused := by
    intro r n x i hr hi hne
    refine ⟨fun v hv => ?_, step_kept hi hr⟩
    have hh := reachable_honest h.of_restrict
    obtain ⟨r', hr', -, hs⟩ := hh.holds x (List.mem_of_getElem? hi.call) v (by rw [hv]; rfl)
    rw [hi.key] at hr'
    obtain rfl := Option.some.inj (hr'.symm.trans hr)
    exact hne hs
  reusable := fun n x files c hi hx hnew => exec_unused (J := J) hi hx hnew

end Replays

instance (P : Platform) (c : Ctx) (payload : List (String × Json)) (a : Audit) :
    Decidable (a.Takes P c payload) := inferInstanceAs (Decidable (_ ∧ _))

instance (c : Ctx) (a : Audit) : Decidable (a.FreshEvent c) :=
  inferInstanceAs (Decidable (∀ e ∈ a.events, _))

instance (P : Platform) (c : Ctx) (files : Artifacts) (x : ToolCall) (t : McpStore) :
    Decidable (x.Unhindered P c files t) := by
  unfold ToolCall.Unhindered
  dsimp only
  split <;> infer_instance

instance (P : Platform) (k : CallKey) (g : Gateway) :
    (i : GatewayCall × Ctx) → Decidable (Unhindered P k g i)
  | (.proceed n files, c) => inferInstanceAs (Decidable
      (∀ x ∈ g.calls[n]?, x.key = k → x.Unhindered P c files g.tables))
  | (.office _, _) | (.submit _, _) => inferInstanceAs (Decidable True)

def attachedPost : ToolArguments :=
  .sendMessage { recipient := "*", taskId := "t", subject := "s", body := "hello",
                 idempotencyKey := "key-1", artifactPaths := some ["report.md"] }

def attachedKey : CallKey :=
  { scope := "demo", actor := humanOperatorId, tool := .sendMessage, idempotencyKey := "key-1" }

def checkedOut : Artifacts := .ok

def missingFile : Artifacts := fun _ => .error (.bridge "artifact does not exist as a file: report.md")

def secondSession : Bridge := { sampleHuman with sessionId := "session-second", sessionId_safe := by decide }

-- two sessions have looked the key up before either has written
def racingPosts : List (GatewayCall × Ctx) :=
  [(.office (.mail .openScope), sampleCtx sampleHuman 1),
   (.submit attachedPost, sampleCtx sampleHuman 2), (.submit attachedPost, sampleCtx secondSession 2),
   (.proceed 0 checkedOut, sampleCtx sampleHuman 3), (.proceed 1 checkedOut, sampleCtx secondSession 3),
   (.proceed 0 checkedOut, sampleCtx sampleHuman 4), (.proceed 1 checkedOut, sampleCtx secondSession 5),
   (.proceed 0 checkedOut, sampleCtx sampleHuman 6)]

def duplicatePost (files : Artifacts) : List (GatewayCall × Ctx) :=
  [(.proceed 1 files, sampleCtx secondSession 7), (.proceed 1 files, sampleCtx secondSession 8)]

def Gateway.duplicateOpen (P : Platform) (g : Gateway) (k : CallKey) (n : Nat) : Bool :=
  (g.recorded? P k).any fun r => (g.calls[n]?).any fun x =>
    x.key = k && x.stage.isOpen && r.argumentsSha256 = x.argumentsSha256 P

def Answer.isContent : Answer → Bool
  | .content _ => true
  | _ => false

def Gateway.answeredWith (g : Gateway) (n : Nat) (content : Bool) : Bool :=
  (g.calls[n]?).any fun x => match x.stage with
    | .answered a => a.isContent = content
    | _ => false

def startOffice : Gateway := { office := .initial [] 0, receipts := [], calls := [] }

set_option maxRecDepth 100000 in
theorem mutations_idempotent_raced :
    let M := (gateway samplePlatform sampleReader).restrict (Unhindered samplePlatform attachedKey)
    let g := (M.play startOffice racingPosts).1
    let g₂ := (M.play g (duplicatePost checkedOut)).1
    g.duplicateOpen samplePlatform attachedKey 1 = true ∧ g₂.answeredWith 1 true = true ∧
      IdempotentAt samplePlatform M attachedKey g ∧ IdempotentAt samplePlatform M attachedKey g₂ := by
  intro M g g₂
  have hcheck : (M.AdmitsAll startOffice racingPosts ∧ M.AdmitsAll g (duplicatePost checkedOut)) ∧
      g.duplicateOpen samplePlatform attachedKey 1 = true ∧ g₂.answeredWith 1 true = true := by
    decide +kernel
  obtain ⟨⟨hopen, hopen₂⟩, hdup, hans⟩ := hcheck
  have hreach : M.Reachable g := ⟨_, _, ⟨[], 0, rfl⟩, Machine.run_play _ _ hopen⟩
  exact ⟨hdup, hans, mutations_idempotent hreach,
    mutations_idempotent (hreach.run (Machine.run_play _ _ hopen₂))⟩

set_option maxRecDepth 100000 in
theorem duplicate_without_file_fails :
    let M := gateway samplePlatform sampleReader
    ¬ ∀ g, M.Reachable g → IdempotentAt samplePlatform M attachedKey g := by
  intro M h
  have hcheck : (M.AdmitsAll startOffice racingPosts ∧
        M.AdmitsAll (M.play startOffice racingPosts).1 (duplicatePost missingFile)) ∧
      (M.play startOffice racingPosts).1.duplicateOpen samplePlatform attachedKey 1 = true ∧
      (M.play (M.play startOffice racingPosts).1 (duplicatePost missingFile)).1.answeredWith 1
        false = true := by
    decide +kernel
  obtain ⟨⟨hopen, hopen₂⟩, hdup, hans⟩ := hcheck
  have hreach : M.Reachable (M.play startOffice racingPosts).1 :=
    ⟨_, _, ⟨[], 0, rfl⟩, Machine.run_play _ _ hopen⟩
  have hrun := Machine.run_play (M := M) _ _ hopen₂
  generalize (M.play (M.play startOffice racingPosts).1 (duplicatePost missingFile)).1 = g₂
    at hrun hans
  generalize (M.play startOffice racingPosts).1 = g at hreach hdup hrun
  obtain ⟨r, hr, hx⟩ := (Option.any_eq_true _ _).mp hdup
  obtain ⟨x, hx, hopen⟩ := (Option.any_eq_true _ _).mp hx
  simp only [Bool.and_eq_true, decide_eq_true_eq] at hopen
  obtain ⟨y, hy, hanswer⟩ := (Option.any_eq_true _ _).mp hans
  split at hanswer
  · rename_i a ha
    have hrec := (h g hreach).replayed r 1 x y _ g₂ a hr hx hopen.1.1 hopen.1.2 hopen.2 hrun hy ha
    rw [hrec] at hanswer
    simp [Answer.isContent] at hanswer
  · cases hanswer

end PeerBridge
