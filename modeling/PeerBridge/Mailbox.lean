import PeerBridge.Supervisor
import PeerBridge.Opening
import PeerBridge.Lib.Machine

namespace PeerBridge

inductive Call where
  | openScope
  | createRoom (a : CreateRoomArgs)
  | joinRoom (a : JoinRoomArgs)
  | leaveRoom (a : LeaveRoomArgs)
  | setRoomAutomation (a : SetRoomAutomationArgs)
  | upsertRouteProfile (a : RouteProfileArgs)
  | sendMessage (a : SendArgs)
  | sendRoomFanout (a : PostArgs)
  | postRoomMessage (a : PostArgs)
  | claim (a : ClaimArgs)
  | renew (a : RenewArgs)
  | fail (a : FailArgs)
  | recordTrusted (a : TrustedArgs)
  | complete (a : CompleteArgs)
  | ack (a : AckArgs)
  | advance (a : AdvanceArgs)
  | control (a : ControlArgs)
  | reconcile (a : ReconcileArgs)

inductive Reply where
  | done
  | claimed (grant : Option ClaimGrant)
  | completed (c : Completion)
  | advanced (steps : List Advance)

def replyWith {α : Type} (f : α → Reply) (x : Except BridgeError (Store × α)) :
    Except BridgeError (Store × Reply) := do
  let (s, a) ← x
  pure (s, f a)

theorem replyWith_ok {α : Type} {f : α → Reply} {x : Except BridgeError (Store × α)} {s : Store}
    {r : Reply} (h : replyWith f x = .ok (s, r)) : ∃ a, x = .ok (s, a) ∧ r = f a := by
  simp only [replyWith, Checked.bind_eq_ok, Checked.pure_eq_ok, Prod.mk.injEq] at h
  obtain ⟨⟨s₁, a⟩, hx, rfl, rfl⟩ := h
  exact ⟨a, hx, rfl⟩

def perform (P : Platform) (c : Ctx) (s : Store) : Call → Except BridgeError (Store × Reply)
  | .openScope => pure (initDb P c s, .done)
  | .createRoom a => replyWith (fun _ => .done) <| createRoom P c a s
  | .joinRoom a => replyWith (fun _ => .done) <| joinRoom P c a s
  | .leaveRoom a => replyWith (fun _ => .done) <| leaveRoom P c a s
  | .setRoomAutomation a => replyWith (fun _ => .done) <| setRoomAutomation P c a s
  | .upsertRouteProfile a => replyWith (fun _ => .done) <| upsertRouteProfile P c a s
  | .sendMessage a => replyWith (fun _ => .done) <| sendMessage P c a s
  | .sendRoomFanout a => replyWith (fun _ => .done) <| sendRoomFanout P c a s
  | .postRoomMessage a => replyWith (fun _ => .done) <| postRoomMessage P c a s
  | .claim a => replyWith .claimed <| claimMessageDispatch P c a s
  | .renew a => replyWith (fun _ => .done) <| renewMessageDispatch P c a s
  | .fail a => replyWith (fun _ => .done) <| failMessageDispatch P c a s
  | .recordTrusted a => replyWith (fun _ => .done) <| recordTrustedInferenceReceipt P c a s
  | .complete a => replyWith .completed <| completeMessageDispatch P c a s
  | .ack a => replyWith (fun _ => .done) <| ackMessage P c a s
  | .advance a => replyWith .advanced <| advanceDiscussions P c a s
  | .control a => replyWith (fun _ => .done) <| controlDiscussion P c a s
  | .reconcile a => replyWith (fun _ => .done) <| reconcileMessageDispatches P c a s

structure World where
  store : Store
  now : ℚ
  issued : List Sha256

def Clock.ordered (k : Clock) : Prop := k.entry ≤ k.locked ∧ k.locked ≤ k.later

instance (k : Clock) : Decidable k.ordered := inferInstanceAs (Decidable (_ ∧ _))

def Call.isClaim : Call → Bool
  | .claim _ => true
  | _ => false

def Mail.empty : Mail :=
  { messages := [], lastSequence := 0, receipts := [], dispatches := [], retrySchedules := [],
    discussions := [] }

def Rooms.empty : Rooms :=
  { rooms := [], memberships := [], roles := [], policies := [], routeProfiles := [],
    connections := [] }

def Ledger.empty : Ledger :=
  { routeReceipts := [], trustedReceipts := [], inferenceUsage := [], acknowledged := [],
    cursors := [] }

def Audit.empty : Audit := { events := [], lastEvent := 0, storageUsage := [] }

def Store.initial (connections : List ConnectionRow) : Store :=
  { mail := .empty, rooms := { Rooms.empty with connections }, ledger := .empty, audit := .empty }

def World.initial (connections : List ConnectionRow) (now : ℚ) : World :=
  { store := .initial connections, now, issued := [] }

def tokensOf : Except BridgeError Reply → List String
  | .ok (.claimed (some g)) => [g.leaseToken]
  | _ => []

-- a failed call rolls its transaction back
def attempt (P : Platform) (w : World) (i : Call × Ctx) : World × Except BridgeError Reply :=
  match perform P i.2 w.store i.1 with
  | .ok (s, r) =>
    ({ store := s, now := i.2.clock.later,
       issued := w.issued ++ (tokensOf (.ok r)).map P.sha256Bytes }, .ok r)
  | .error e => ({ w with now := i.2.clock.later }, .error e)

abbrev Trace := List ((Call × Ctx) × Except BridgeError Reply)

def mailbox (P : Platform) : Machine World (Call × Ctx) (Except BridgeError Reply) where
  start w := ∃ connections now, w = .initial connections now
  admits w i := w.now ≤ i.2.clock.locked ∧ i.2.clock.ordered ∧
    (i.1.isClaim = true → P.sha256Bytes i.2.token ∉ w.issued)
  exec := attempt P

instance (P : Platform) (w : World) (i : Call × Ctx) : Decidable ((mailbox P).admits w i) :=
  inferInstanceAs (Decidable (_ ∧ _ ∧ _))

theorem attempt_error {P : Platform} {w : World} {i : Call × Ctx} {e : BridgeError}
    (h : (attempt P w i).2 = .error e) : (attempt P w i).1.store = w.store := by
  unfold attempt at h ⊢
  split at h <;> simp_all

end PeerBridge
