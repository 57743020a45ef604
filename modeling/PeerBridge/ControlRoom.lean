import PeerBridge.Guided

namespace PeerBridge

inductive QueueCall where
  | enqueue (a : EnqueueArgs)
  | ensure (a : EnsureArgs)
  | claim (a : ClaimOperationArgs)
  | heartbeat (a : WorkerArgs) (leaseSeconds : Int)
  | complete (a : CompleteOperationArgs)
  | fail (a : FailOperationArgs)
  | requestCancel (a : CancelArgs)
  | acknowledgeCancel (a : WorkerArgs)
  | bind (operationId discussionId : String)
  | reconcile (nowEpoch : Option ℚ)

inductive QueueReply where
  | done
  | claimed (claim : Option OperationClaim)
  | bound (result : BindResult)

def queueReply {α : Type} (f : α → QueueReply) (x : Except QueueError (Database × α)) :
    Except QueueError (Database × QueueReply) := do
  let (q, a) ← x
  pure (q, f a)

theorem queueReply_ok {α : Type} {f : α → QueueReply} {x : Except QueueError (Database × α)}
    {q : Database} {r : QueueReply} (h : queueReply f x = .ok (q, r)) :
    ∃ a, x = .ok (q, a) ∧ r = f a := by
  simp only [queueReply, Checked.bind_eq_ok, Checked.pure_eq_ok, Prod.mk.injEq] at h
  obtain ⟨⟨q₁, a⟩, hx, rfl, rfl⟩ := h
  exact ⟨a, hx, rfl⟩

def performQueue (P : Platform) (J : JsonReader) (c : Ctx) (q : Database) :
    QueueCall → Except QueueError (Database × QueueReply)
  | .enqueue a => queueReply (fun _ => .done) <| enqueue P c a q
  | .ensure a => queueReply (fun _ => .done) <| ensure P c a q
  | .claim a => queueReply .claimed <| claim P J c a q
  | .heartbeat a n => queueReply (fun _ => .done) <| heartbeat P c a n q
  | .complete a => queueReply (fun _ => .done) <| completeOperation P J c a q
  | .fail a => queueReply (fun _ => .done) <| failOperation P c a q
  | .requestCancel a => queueReply (fun _ => .done) <| requestCancel P c a q
  | .acknowledgeCancel a => queueReply (fun _ => .done) <| acknowledgeCancel P c a q
  | .bind o d => queueReply .bound <| bindGuidedDiscussion P J c o d q
  | .reconcile now => queueReply (fun _ => .done) <| reconcile P J c now q

-- one database, used by the bridges of the room and by the operation queue
structure Office where
  world : World
  operations : List OperationRow
  leases : List Sha256

def Office.database (o : Office) : Database := { store := o.world.store, operations := o.operations }

inductive OfficeCall where
  | mail (call : Call)
  | queue (call : QueueCall)

inductive OfficeReply where
  | mail (r : Except BridgeError Reply)
  | queue (r : Except QueueError QueueReply)

def QueueCall.isClaim : QueueCall → Bool
  | .claim _ => true
  | _ => false

def leasesOf (P : Platform) : QueueReply → List Sha256
  | .claimed (some g) => [P.sha256Bytes g.leaseToken]
  | _ => []

def Office.commit (P : Platform) (o : Office) (q : Database) (r : QueueReply) : Office :=
  { world := { o.world with store := q.store }, operations := q.operations,
    leases := o.leases ++ leasesOf P r }

def attemptOffice (P : Platform) (J : JsonReader) (o : Office) (i : OfficeCall × Ctx) :
    Office × OfficeReply :=
  match i.1 with
  | .mail call =>
    let (w, r) := attempt P o.world (call, i.2)
    ({ o with world := w }, .mail r)
  | .queue call =>
    match performQueue P J i.2 o.database call with
    | .ok (q, r) => (o.commit P q r, .queue (.ok r))
    | .error e => (o, .queue (.error e))

def Office.admits (P : Platform) (o : Office) (i : OfficeCall × Ctx) : Prop :=
  match i.1 with
  | .mail call => (mailbox P).admits o.world (call, i.2)
  | .queue call => call.isClaim = true → P.sha256Bytes i.2.token ∉ o.leases

instance (P : Platform) (o : Office) (i : OfficeCall × Ctx) : Decidable (o.admits P i) := by
  unfold Office.admits
  split <;> infer_instance

def Office.initial (connections : List ConnectionRow) (now : ℚ) : Office :=
  { world := .initial connections now, operations := [], leases := [] }

-- the queue's clock is an argument of its calls and is not ordered here
def controlRoom (P : Platform) (J : JsonReader) : Machine Office (OfficeCall × Ctx) OfficeReply where
  start o := ∃ connections now, o = .initial connections now
  admits o i := o.admits P i
  exec := attemptOffice P J

instance (P : Platform) (J : JsonReader) (o : Office) (i : OfficeCall × Ctx) :
    Decidable ((controlRoom P J).admits o i) := inferInstanceAs (Decidable (o.admits P i))

section Steps
variable {P : Platform} {J : JsonReader} {o : Office} {c : Ctx}

theorem exec_mail (call : Call) :
    ((controlRoom P J).exec o (.mail call, c)).1 =
      { o with world := (attempt P o.world (call, c)).1 } := rfl

theorem exec_queue (call : QueueCall) :
    ((controlRoom P J).exec o (.queue call, c)).1 = o ∨
      ∃ q r, performQueue P J c o.database call = .ok (q, r) ∧
        ((controlRoom P J).exec o (.queue call, c)).1 = o.commit P q r := by
  cases h : performQueue P J c o.database call with
  | error e => exact .inl (by simp [controlRoom, attemptOffice, h])
  | ok x => exact .inr ⟨x.1, x.2, rfl, by simp [controlRoom, attemptOffice, h]⟩

end Steps

end PeerBridge
