import PeerBridge.Governance.Execution
import PeerBridge.Lib.Machine

namespace PeerBridge.ExecutionGovernance
open Checked Rows

-- one step of one call; a crash is a call that takes no further step
inductive Action where
  | decide (c : Ctx) (a : DecideArgs) (f : Faults)
  | authorize (c : Ctx) (a : AuthorizeArgs) (f : Faults)
  | openCreate (c : Ctx) (a : CreateArgs) (W : Outside)
  | checkPermission (call : Nat) (c : Ctx) (f : Faults)
  | addWorktree (call : Nat) (r : GitResult)
  | measure (call : Nat) (W : Outside)
  | bind (call : Nat) (c : Ctx) (f : Faults)
  | rollback (call : Nat)
  | openSeal (c : Ctx) (bindingId : String) (W : Outside)
  | commitSeal (call : Nat) (c : Ctx) (f : Faults)
  -- the other operations of the bridge leave their own tables in any state
  | bridge (s : Store)

inductive Answer where
  | proceeds
  | refused (e : Failure)
  | decided (row : PermissionRow)
  | authorized (row : PermissionRow) (consumed : Bool)
  | raised (call : Nat) (e : Failure)
  | created (call : Nat) (row : BindingRow)
  | sealed (call : Nat) (row : BindingRow)

def Governance.put (call : Nat) (p : Pending) (g : Governance) : Governance :=
  { g with calls := upsert Prod.fst (call, p) g.calls }

def Governance.drop (call : Nat) (g : Governance) : Governance :=
  { g with calls := g.calls.filter (fun q => q.1 ≠ call) }

def Governance.opening (g : Governance) : Governance := { g with opened := g.opened + 1 }

def Governance.addTree (t : Worktree) (g : Governance) : Governance :=
  { g with worktrees := g.worktrees ++ [t] }

def Governance.removeTree (path : String) (g : Governance) : Governance :=
  { g with worktrees := g.worktrees.filter (fun t => t.path ≠ path) }

def Plan.createArgs (p : Plan) : AuthorizeArgs :=
  { decisionId := p.permissionDecisionId, expected := p.expected, consume := false }

def Governance.pending? (call : Nat) (g : Governance) : Option Pending :=
  (lookup Prod.fst call g.calls).map Prod.snd

-- a step that its call is not waiting for does nothing
def perform (H : Host) (g : Governance) : Action → Governance × Answer
  | .decide c a f =>
    match decidePermission H c a f g with
    | .ok (g', row) => (g', .decided row)
    | .error e => (g, .refused e)
  | .authorize c a f =>
    match authorizePermission H c a f g with
    | .ok (g', row) => (g', .authorized row a.consume)
    | .error e => (g, .refused e)
  | .openCreate c a W =>
    match planWorktree H c W a g.worktrees with
    | .ok p => (g.opening.put g.opened (.planned p), .proceeds)
    | .error e => (g.opening, .raised g.opened e)
  | .checkPermission call c f =>
    match g.pending? call with
    | some (.planned p) =>
      match authorizePermission H { c with self := p.self } p.createArgs f g with
      | .ok _ => (g.put call (.authorized p), .proceeds)
      | .error e => (g.drop call, .raised call e)
    | _ => (g, .proceeds)
  | .addWorktree call r =>
    match g.pending? call with
    | some (.authorized p) =>
      let g' := if r.succeeded then g.addTree ⟨p.worktree, call⟩ else g
      match runGit H r with
      | .ok _ => (g'.put call (.added p), .proceeds)
      | .error e => (g'.drop call, .raised call e)
    | _ => (g, .proceeds)
  | .measure call W =>
    match g.pending? call with
    | some (.added p) =>
      match measureWorktree H W p with
      | .ok baseDiff => (g.put call (.measured p baseDiff), .proceeds)
      | .error e => (g.put call (.failing p e), .proceeds)
    | _ => (g, .proceeds)
  | .bind call c f =>
    match g.pending? call with
    | some (.measured p baseDiff) =>
      match bindWorktree H { c with self := p.self } p baseDiff f g with
      | .ok (g', row) => (g'.drop call, .created call row)
      | .error e => (g.put call (.failing p e), .proceeds)
    | _ => (g, .proceeds)
  | .rollback call =>
    match g.pending? call with
    | some (.failing p e) => ((g.removeTree p.worktree).drop call, .raised call e)
    | _ => (g, .proceeds)
  | .openSeal c bindingId W =>
    match measureSealing H c W bindingId g with
    | .ok t => (g.opening.put g.opened (.sealing t), .proceeds)
    | .error e => (g.opening, .raised g.opened e)
  | .commitSeal call c f =>
    match g.pending? call with
    | some (.sealing t) =>
      match sealExecution H { c with self := t.self } t f g with
      | .ok (g', row) => (g'.drop call, .sealed call row)
      | .error e => (g.drop call, .raised call e)
    | _ => (g, .proceeds)
  | .bridge s => ({ g with store := s }, .proceeds)

def Pending.target : Pending → Option String
  | .authorized p => some p.worktree
  | _ => none

-- Git adds no worktree where one is
def Enabled (g : Governance) : Action → Prop
  | .addWorktree call r => r.succeeded = true →
      ∀ path ∈ (g.pending? call).bind Pending.target, path ∉ g.worktrees.map Worktree.path
  | _ => True

def governance (H : Host) : Machine Governance Action Answer where
  start g := g.permissions = [] ∧ g.bindings = [] ∧ g.worktrees = [] ∧ g.calls = [] ∧ g.opened = 0
  admits := Enabled
  exec := perform H

instance (H : Host) (g : Governance) : ∀ i, Decidable ((governance H).admits g i)
  | .addWorktree call r => inferInstanceAs (Decidable (r.succeeded = true →
      ∀ path ∈ (g.pending? call).bind Pending.target, path ∉ g.worktrees.map Worktree.path))
  | .decide _ _ _ | .authorize _ _ _ | .openCreate _ _ _ | .checkPermission _ _ _ | .measure _ _
  | .bind _ _ _ | .rollback _ | .openSeal _ _ _ | .commitSeal _ _ _ | .bridge _ => isTrue trivial

def PermissionRow.Sealed (P : Platform) (r : PermissionRow) : Prop :=
  r.decisionSha256 = P.stableSha256 (permissionPayload r)

def BindingRow.Sealed (P : Platform) (b : BindingRow) : Prop :=
  b.bindingSha256 = P.stableSha256 (bindingPayload b)

def PermissionRow.spend (r : PermissionRow) (now : Utc) : PermissionRow :=
  { r with consumedUtc := some now }

def BindingRow.close (P : Platform) (b : BindingRow) (t : Sealing) (now : Utc) : BindingRow :=
  sealBinding P { b with state := .sealed, finalCommitId := some t.commitId,
                         finalDiffSha256 := some t.diffSha256, updatedUtc := now }

structure Valid (P : Platform) (g : Governance) (k : Key) (x : Expected) (now : ℚ)
    (r : PermissionRow) : Prop where
  found : g.permission? k = some r
  sealed : r.Sealed P
  expected_eq : r.expected = x
  allowed : r.decision = .allow
  live : now < r.expiresEpoch
  unconsumed : r.consumedUtc = none

section Inversion
variable {H : Host} {c : Ctx} {f : Faults} {g g' : Governance}

@[simp] theorem execute_eq_ok {st : Statement} {u : Unit} :
    execute f st = .ok u ↔ f st = none := by
  cases h : f st <;> simp [execute, h]

theorem event_ok {P : Platform} {eventType : String} {payload : List (String × Json)}
    {taskId : String} (h : Governance.event P c eventType payload taskId g = .ok g') :
    ∃ s, g' = { g with store := s } := by
  unfold Governance.event at h
  split at h
  · rename_i s _ _
    exact ⟨s, (pure_eq_ok.mp h).symm⟩
  · cases h

theorem validated_ok {P : Platform} {k : Key} {x : Expected} {now : ℚ} {r : PermissionRow}
    (h : validatedPermissionRow P k x now g = .ok r) : Valid P g k x now r := by
  simp only [validatedPermissionRow, bind_eq_ok, demand_eq_ok, require_eq_ok, pure_eq_ok] at h
  obtain ⟨row, hf, _, hs, _, hx, _, ha, _, hl, _, hu, rfl⟩ := h
  exact { found := hf, sealed := hs.symm, expected_eq := hx, allowed := ha,
          live := not_le.mp hl, unconsumed := hu }

theorem consume_ok {now : Utc} {r : PermissionRow}
    (h : consumePermission H c now f r g = .ok g') :
    ∃ s, g' = { g with store := s,
                       permissions := upsert PermissionRow.key (r.spend now) g.permissions } := by
  simp only [consumePermission, bind_eq_ok, execute_eq_ok, require_eq_ok, pure_eq_ok] at h
  obtain ⟨_, _, _, _, g₁, he, _, _, rfl⟩ := h
  obtain ⟨s, rfl⟩ := event_ok he
  exact ⟨s, rfl⟩

structure Decided (P : Platform) (g g' : Governance) (row : PermissionRow) : Prop where
  permissions_eq : g'.permissions = upsert PermissionRow.key row g.permissions
  bindings_eq : g'.bindings = g.bindings
  absent : g.permission? row.key = none
  sealed : row.Sealed P
  human : row.decidedBy = humanOperatorId
  unconsumed : row.consumedUtc = none

structure Spent (P : Platform) (g g' : Governance) (k : Key) (x : Expected) (now : ℚ)
    (r : PermissionRow) : Prop where
  valid : Valid P g k x now r
  permissions_eq : ∃ utc, g'.permissions = upsert PermissionRow.key (r.spend utc) g.permissions

structure Bound (H : Host) (g g' : Governance) (p : Plan) (now : ℚ) (r : PermissionRow)
    (row : BindingRow) : Prop extends
    Spent H.platform g g' (p.self.scope, p.permissionDecisionId) p.expected now r where
  bindings_eq : g'.bindings = upsert BindingRow.key row g.bindings
  absent : g.binding? row.key = none
  row_eq : ∃ baseDiff utc, row = p.binding H.platform baseDiff utc

structure Closed (P : Platform) (g g' : Governance) (t : Sealing) (b : BindingRow) (now : Utc) :
    Prop where
  permissions_eq : g'.permissions = g.permissions
  bindings_eq : g'.bindings = upsert BindingRow.key (b.close P t now) g.bindings
  found : g.binding? b.key = some b
  active : b.state = .active

structure Kept (g g' : Governance) : Prop where
  worktrees_eq : g'.worktrees = g.worktrees
  calls_eq : g'.calls = g.calls
  opened_eq : g'.opened = g.opened

theorem decidePermission_ok {a : DecideArgs} {row : PermissionRow}
    (h : decidePermission H c a f g = .ok (g', row)) :
    Decided H.platform g g' row ∧ Kept g g' := by
  simp only [decidePermission, bind_eq_ok, demand_eq_ok, require_eq_ok, execute_eq_ok,
    pure_eq_ok, requireHuman] at h
  obtain ⟨_, hhuman, d, _, t, _, ag, _, ac, _, k, _, rs, _, _, _, id, _, _, _, _, _, _, hn,
    g₁, he, _, _, _, _, h⟩ := h
  cases h
  obtain ⟨s, rfl⟩ := event_ok he
  exact ⟨⟨rfl, rfl, hn, rfl, hhuman, rfl⟩, rfl, rfl, rfl⟩

theorem authorizePermission_ok {a : AuthorizeArgs} {r : PermissionRow}
    (h : authorizePermission H c a f g = .ok (g', r)) :
    ∃ k x, Kept g g' ∧ g'.bindings = g.bindings ∧
      if a.consume = true then
        Spent H.platform g g' k x (a.nowEpoch.getD c.clock.entry) r
      else g'.permissions = g.permissions := by
  simp only [authorizePermission, bind_eq_ok, execute_eq_ok, pure_eq_ok] at h
  obtain ⟨id, _, t, _, ag, _, ac, _, k, _, _, _, row, hv, g₁, hs, _, _, h⟩ := h
  cases h
  refine ⟨(c.self.scope, id), ⟨t, ag, ac, k⟩, ?_⟩
  cases hc : a.consume with
  | true =>
    rw [spendPermission, hc, if_pos rfl] at hs
    obtain ⟨s, rfl⟩ := consume_ok hs
    exact ⟨⟨rfl, rfl, rfl⟩, rfl, validated_ok hv, _, rfl⟩
  | false =>
    rw [spendPermission, hc, if_neg (by decide), pure_eq_ok] at hs
    subst hs
    exact ⟨⟨rfl, rfl, rfl⟩, rfl, rfl⟩

theorem bindWorktree_ok {p : Plan} {baseDiff : Sha256} {row : BindingRow}
    (h : bindWorktree H c p baseDiff f g = .ok (g', row)) :
    ∃ r, Bound H g g' p c.clock.locked r row ∧ Kept g g' := by
  simp only [bindWorktree, bind_eq_ok, execute_eq_ok, require_eq_ok, pure_eq_ok] at h
  obtain ⟨_, _, r, hv, g₁, hc, _, _, _, hn, g₂, he, _, _, _, _, h⟩ := h
  cases h
  obtain ⟨s₁, rfl⟩ := consume_ok hc
  obtain ⟨s₂, rfl⟩ := event_ok he
  exact ⟨r, ⟨⟨validated_ok hv, _, rfl⟩, rfl, hn, _, _, rfl⟩, rfl, rfl, rfl⟩

theorem bindingRow_ok {P : Platform} {k : Key} {b : BindingRow} (h : bindingRow P k g = .ok b) :
    g.binding? k = some b ∧ b.Sealed P := by
  simp only [bindingRow, bind_eq_ok, demand_eq_ok, require_eq_ok, pure_eq_ok] at h
  obtain ⟨_, hf, _, hs, rfl⟩ := h
  exact ⟨hf, hs.symm⟩

theorem sealExecution_ok {t : Sealing} {row : BindingRow}
    (h : sealExecution H c t f g = .ok (g', row)) :
    ∃ b, Closed H.platform g g' t b (utcNow c.clock.entry) ∧ Kept g g' ∧
      row = b.close H.platform t (utcNow c.clock.entry) := by
  simp only [sealExecution, bind_eq_ok, execute_eq_ok, require_eq_ok, pure_eq_ok] at h
  obtain ⟨_, _, b, hb, _, _, _, ha, _, _, _, _, row', hrow, g₁, he, _, _, _, _, h⟩ := h
  cases h
  obtain ⟨hf, -⟩ := bindingRow_ok hb
  obtain ⟨hr, -⟩ := bindingRow_ok hrow
  obtain ⟨s, rfl⟩ := event_ok he
  have hk : b.key = (t.self.scope, t.bindingId) := lookup_key hf
  have hfound : g.binding? b.key = some b := hk ▸ hf
  refine ⟨b, ⟨rfl, rfl, hfound, ha⟩, ⟨rfl, rfl, rfl⟩, ?_⟩
  rw [Governance.binding?, lookup_upsert] at hr
  exact (Option.some.inj ((if_pos hk).symm.trans hr)).symm

theorem planWorktree_ok {W : Outside} {a : CreateArgs} {ts : List Worktree} {p : Plan}
    (h : planWorktree H c W a ts = .ok p) : p.resourceKey = resourceKeyOf H p.repository := by
  simp only [planWorktree, bind_eq_ok, require_eq_ok, pure_eq_ok] at h
  obtain ⟨_, _, _, _, _, _, _, _, root, hroot, _, _, _, _, _, _, _, _, key, hkey, _, _, _, _, _, _,
    _, _, _, _, rfl⟩ := h
  rw [repositoryResourceKey, W.resolve_idem _ _ hroot] at hkey
  cases hkey
  rfl

theorem runGit_ok {r : GitResult} {t : String} (h : runGit H r = .ok t) : r.succeeded = true := by
  cases r with
  | untrusted => cases h
  | unavailable => cases h
  | exited code out err =>
    simp only [runGit, bind_eq_ok, require_eq_ok] at h
    obtain ⟨_, rfl, _⟩ := h
    rfl

end Inversion

end PeerBridge.ExecutionGovernance
