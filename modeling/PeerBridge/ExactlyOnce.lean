import PeerBridge.Leases
import PeerBridge.Scenario

namespace PeerBridge
open Checked

def grantedTokens (k : DispatchKey) : Except BridgeError Reply → List String
  | .ok (.claimed (some g)) => if g.dispatch.key = k then [g.leaseToken] else []
  | _ => []

def createdReplies (k : DispatchKey) : Except BridgeError Reply → List String
  | .ok (.completed x) =>
    if x.replay = false ∧ x.dispatch.key = k then x.replyMessageId.toList else []
  | _ => []

-- the lease tokens that the claims of a trace handed out, for any dispatch
def issuedTokens (tr : Trace) : List String := tr.flatMap (fun e => tokensOf e.2)

def claimsOf (k : DispatchKey) (tr : Trace) : List String :=
  tr.flatMap (fun e => grantedTokens k e.2)

def repliesOf (k : DispatchKey) (tr : Trace) : List String :=
  tr.flatMap (fun e => createdReplies k e.2)

def Mail.attemptsAt (m : Mail) (k : DispatchKey) : Nat :=
  ((m.dispatchAt k).map DispatchRow.attemptCount).getD 0

-- some session of the agent passes the lease check with this token
def Accepts (P : Platform) (k : DispatchKey) (m : Mail) (token : String) : Prop :=
  ∃ c : Ctx, c.self.scope = k.1 ∧ c.self.agentId = k.2.2 ∧
    isOk (requireDispatchLease P c k.2.1 token false m) = true

-- the row was reclaimed, failed, cancelled or completed since the token was its lease
def Retired (P : Platform) (k : DispatchKey) (m : Mail) (token : String) : Prop :=
  ∀ d, m.dispatchAt k = some d →
    d.status ≠ .claimed ∨ d.leaseTokenSha256 ≠ some (P.sha256Bytes token)

def Call.lease : Call → Option (String × String)
  | .renew a => some (strip a.messageId, a.leaseToken)
  | .fail a => some (strip a.messageId, a.leaseToken)
  | .complete a => some (strip a.messageId, a.leaseToken)
  | _ => none

def Presents (k : DispatchKey) (token : String) (i : Call × Ctx) : Prop :=
  i.1.lease = some (k.2.1, token) ∧ i.2.self.scope = k.1 ∧ i.2.self.agentId = k.2.2

def Replays (k : DispatchKey) (s : Store) (c : Ctx) (x : Completion) : Prop :=
  x.replay = true ∧ s.mail.dispatchAt k = some x.dispatch ∧ x.dispatch.status = .completed ∧
    x.dispatch.claimedSessionId = some c.self.sessionId ∧
    x.replyMessageId = x.dispatch.replyMessageId

-- a completion either replays the recorded reply or stores the one reply it reports
def Completed (k : DispatchKey) (s s' : Store) (c : Ctx) (x : Completion) : Prop :=
  (Replays k s c x ∧ s' = s) ∨
    (x.replay = false ∧ x.dispatch.key = k ∧ ∃ reply : MessageRow,
      s'.mail.messages = s.mail.messages ++ [reply] ∧ x.replyMessageId = some reply.messageId)

structure ExactlyOnce (P : Platform) (k : DispatchKey) (before after : Trace) (w w' : World) :
    Prop where
  one_reply : (repliesOf k (before ++ after)).length ≤ 1
  completion : ∀ (i : Call × Ctx) (x : Completion), i.1.lease.map Prod.fst = some k.2.1 →
    i.2.self.scope = k.1 → i.2.self.agentId = k.2.2 → (attempt P w' i).2 = .ok (.completed x) →
    Completed k w'.store (attempt P w' i).1.store i.2 x
  frozen : ∀ d, w.store.mail.dispatchAt k = some d → d.status.terminal = true →
    w'.store.mail.dispatchAt k = some d
  one_holder : ∀ t ∈ issuedTokens (before ++ after), ∀ u ∈ issuedTokens (before ++ after),
    Accepts P k w'.store.mail t → Accepts P k w'.store.mail u → t = u
  retired : ∀ t ∈ claimsOf k before, Retired P k w.store.mail t → ∀ i, Presents k t i →
    (∃ e, (attempt P w' i).2 = .error e) ∨ ((attempt P w' i).1.store = w'.store ∧
      ∃ x, (attempt P w' i).2 = .ok (.completed x) ∧ Replays k w'.store i.2 x)
  attempts : w'.store.mail.attemptsAt k =
    w.store.mail.attemptsAt k + (claimsOf k after).length

def traceLabels (P : Platform) (k : DispatchKey) (tr : Trace) : List (Lease.Label Sha256) :=
  tr.map (fun e => leaseLabel P k e.2)

section Labels
variable {P : Platform} {k : DispatchKey}

theorem granted_leaseLabel (o : Except BridgeError Reply) :
    Lease.granted [leaseLabel P k o] = (grantedTokens k o).map P.sha256Bytes := by
  rcases o with e | _ | (_ | g) | x | as
  · rfl
  · rfl
  · rfl
  · simp only [leaseLabel, grantedTokens]
    split <;> rfl
  · simp only [leaseLabel, grantedTokens]
    split <;> rfl
  · rfl

theorem granted_traceLabels (tr : Trace) :
    Lease.granted (traceLabels P k tr) = (claimsOf k tr).map P.sha256Bytes := by
  induction tr with
  | nil => rfl
  | cons e tr ih =>
    have h := Lease.granted_append [leaseLabel P k e.2] (traceLabels P k tr)
    rw [granted_leaseLabel, ih] at h
    simpa [claimsOf, traceLabels] using h

theorem createdReplies_length (o : Except BridgeError Reply) :
    (createdReplies k o).length ≤ Lease.finishes [leaseLabel P k o] := by
  rcases o with e | _ | (_ | g) | x | as
  · exact Nat.zero_le _
  · exact Nat.zero_le _
  · exact Nat.zero_le _
  · exact Nat.zero_le _
  · simp only [leaseLabel, createdReplies]
    split
    · cases x.replyMessageId <;> simp [Lease.finishes]
    · exact Nat.zero_le _
  · exact Nat.zero_le _

theorem repliesOf_length (tr : Trace) :
    (repliesOf k tr).length ≤ Lease.finishes (traceLabels P k tr) := by
  induction tr with
  | nil => exact Nat.zero_le _
  | cons e tr ih =>
    have h := Lease.finishes_append [leaseLabel P k e.2] (traceLabels P k tr)
    have h1 := createdReplies_length (P := P) (k := k) e.2
    simp only [repliesOf, traceLabels, List.flatMap_cons, List.length_append, List.map_cons,
      List.cons_append, List.nil_append] at ih h ⊢
    omega

theorem grantedTokens_subset (o : Except BridgeError Reply) :
    ∀ t ∈ grantedTokens k o, t ∈ tokensOf o := by
  rcases o with e | _ | (_ | g) | x | as <;> simp [grantedTokens, tokensOf]

theorem claimsOf_subset {tr : Trace} {t : String} (h : t ∈ claimsOf k tr) :
    t ∈ issuedTokens tr := by
  obtain ⟨e, he, ht⟩ := List.mem_flatMap.mp h
  exact List.mem_flatMap.mpr ⟨e, he, grantedTokens_subset _ _ ht⟩

end Labels

section Runs
variable {P : Platform} {k : DispatchKey} {w w' : World} {tr : Trace}

theorem attempt_step (w : World) (i : Call × Ctx) (k : DispatchKey) :
    Lease.Step (leaseCell w.store.mail k) (leaseLabel P k (attempt P w i).2)
      (leaseCell (attempt P w i).1.store.mail k) := by
  cases h : perform P i.2 w.store i.1 with
  | error e =>
    simp only [attempt, h]
    exact .quiet .same
  | ok x =>
    obtain ⟨s', r⟩ := x
    simp only [attempt, h]
    exact perform_step h k

theorem leaseRun (h : (mailbox P).Run w tr w') (k : DispatchKey) :
    Lease.Run (leaseCell w.store.mail k) (traceLabels P k tr) (leaseCell w'.store.mail k) := by
  induction h with
  | nil => exact .nil _
  | snoc i _ _ ih =>
    rw [traceLabels, List.map_append]
    exact ih.snoc (attempt_step _ i k)

theorem perform_claimed {c : Ctx} {call : Call} {s s' : Store} {g : ClaimGrant}
    (h : perform P c s call = .ok (s', .claimed (some g))) :
    call.isClaim = true ∧ g.leaseToken = c.token := by
  cases call with
  | claim a =>
    simp only [perform] at h
    obtain ⟨x, hx, he⟩ := replyWith_ok h
    obtain rfl : some g = x := Reply.claimed.inj he
    rcases claimMessageDispatch_ok hx with ⟨hn, -⟩ | ⟨q, row, -, -, -, -, hg⟩
    · cases hn
    · rw [Option.some.inj hg]
      exact ⟨rfl, rfl⟩
  | openScope => simp [perform] at h
  | createRoom a | joinRoom a | leaveRoom a | setRoomAutomation a | upsertRouteProfile a
  | sendMessage a | sendRoomFanout a | postRoomMessage a | renew a | fail a | recordTrusted a
  | complete a | ack a | advance a | control a | reconcile a =>
    simp only [perform] at h
    obtain ⟨x, -, he⟩ := replyWith_ok h
    cases he

theorem attempt_issued (w : World) (i : Call × Ctx) :
    (attempt P w i).1.issued = w.issued ++ (tokensOf (attempt P w i).2).map P.sha256Bytes := by
  cases h : perform P i.2 w.store i.1 with
  | error e => simp [attempt, h, tokensOf]
  | ok x => simp only [attempt, h]

theorem attempt_fresh {i : Call × Ctx} (ha : (mailbox P).admits w i) :
    ∀ x ∈ (tokensOf (attempt P w i).2).map P.sha256Bytes, x ∉ w.issued := by
  intro x hx
  cases h : perform P i.2 w.store i.1 with
  | error e => simp [attempt, h, tokensOf] at hx
  | ok y =>
    obtain ⟨s', r⟩ := y
    rcases r with _ | (_ | g) | c | as <;> simp only [attempt, h, tokensOf] at hx <;>
      try simp at hx
    obtain ⟨hc, ht⟩ := perform_claimed h
    rw [hx, ht]
    exact ha.2.2 hc

theorem issued_run (h : (mailbox P).Run w tr w') :
    w'.issued = w.issued ++ (issuedTokens tr).map P.sha256Bytes := by
  induction h with
  | nil => simp [issuedTokens]
  | snoc i _ _ ih =>
    show (attempt P _ i).1.issued = _
    rw [attempt_issued, ih]
    simp [issuedTokens, mailbox]

theorem tokensOf_nodup (o : Except BridgeError Reply) (f : String → Sha256) :
    ((tokensOf o).map f).Nodup := by
  rcases o with e | _ | (_ | g) | x | as <;> simp [tokensOf]

theorem issued_nodup (h : (mailbox P).Run w tr w') (hn : w.issued.Nodup) : w'.issued.Nodup := by
  refine h.preserves (fun w => w.issued.Nodup) (fun w i hw ha => ?_) hn
  show (attempt P w i).1.issued.Nodup
  rw [attempt_issued]
  exact List.nodup_append.mpr ⟨hw, tokensOf_nodup _ _,
    fun a ha' b hb hab => attempt_fresh ha b hb (hab ▸ ha')⟩

end Runs

section Checks
variable {P : Platform} {k : DispatchKey} {s s' : Store} {t : String} {i : Call × Ctx}

theorem Accepts.held {m : Mail} (h : Accepts P k m t) :
    (leaseCell m k).phase = .held (P.sha256Bytes t) := by
  obtain ⟨c, hscope, hagent, h⟩ := h
  obtain ⟨d, hd⟩ := isOk_iff.mp h
  obtain ⟨hh, hs, -⟩ := requireDispatchLease_ok hd
  have hk : d.key = k := by
    rw [hh.key_eq, hscope, hagent]
  rw [← hk, hh.cell hs]

theorem Retired.not_held {m : Mail} (h : Retired P k m t) :
    (leaseCell m k).phase ≠ .held (P.sha256Bytes t) := by
  intro hp
  cases hd : m.dispatchAt k with
  | none => simp [leaseCell_none hd] at hp
  | some d =>
    rw [leaseCell_some hd] at hp
    unfold leasePhase at hp
    cases hs : d.status with
    | claimed =>
      cases ht : d.leaseTokenSha256 with
      | none => simp [hs, ht] at hp
      | some u =>
        obtain rfl : u = P.sha256Bytes t := by simpa [hs, ht] using hp
        rcases h d hd with h | h
        · exact h hs
        · exact h ht
    | retryable => simp [hs] at hp
    | failed => simp [hs] at hp
    | completed => simp [hs] at hp

theorem complete_completed {a : CompleteArgs} {c : Ctx} {x : Completion}
    (h : completeMessageDispatch P c a s = .ok (s', x)) :
    Completed (c.self.scope, strip a.messageId, c.self.agentId) s s' c x := by
  rcases completeMessageDispatch_ok h with
    ⟨hr, rfl, hh, hs, hx⟩ | ⟨row, source, reply, subject, body, sha, hid, hc, rfl, -, hm⟩
  · exact .inl ⟨⟨hr, hh.lookup_eq, hs, hh.session_eq, hx⟩, rfl⟩
  · refine .inr ⟨rfl, ?_, reply, ?_, rfl⟩
    · rw [completedDispatch_key, hc.holder.key_eq, hid]
    · rw [hm]
      simp [Mail.addMessages]

theorem attempt_completed {w : World} {x : Completion} (hi : i.1.lease.map Prod.fst = some k.2.1)
    (hscope : i.2.self.scope = k.1) (hagent : i.2.self.agentId = k.2.2)
    (h : (attempt P w i).2 = .ok (.completed x)) :
    Completed k w.store (attempt P w i).1.store i.2 x := by
  cases hp : perform P i.2 w.store i.1 with
  | error e => simp [attempt, hp] at h
  | ok y =>
    obtain ⟨s', r⟩ := y
    simp only [attempt, hp] at h ⊢
    obtain rfl : r = .completed x := Except.ok.inj h
    obtain ⟨call, c⟩ := i
    cases call <;> simp only [perform] at hp <;> simp only [Call.lease, Option.map] at hi <;>
      try simp at hi
    case complete a =>
      obtain ⟨y, hy, he⟩ := replyWith_ok hp
      obtain rfl : x = y := Reply.completed.inj he
      have hk : k = (c.self.scope, strip a.messageId, c.self.agentId) := by
        rw [hscope, hi, hagent]
      rw [hk]
      exact complete_completed hy
    case renew a | fail a =>
      obtain ⟨y, -, he⟩ := replyWith_ok hp
      cases he

theorem attempt_retired {w : World} (hh : (leaseCell w.store.mail k).phase ≠ .held (P.sha256Bytes t))
    (hi : Presents k t i) :
    (∃ e, (attempt P w i).2 = .error e) ∨ ((attempt P w i).1.store = w.store ∧
      ∃ x, (attempt P w i).2 = .ok (.completed x) ∧ Replays k w.store i.2 x) := by
  obtain ⟨hl, hscope, hagent⟩ := hi
  have rejected {id : String} {d : DispatchRow} (hid : id = k.2.1)
      (hd : Holder P i.2 id t w.store.mail d) (hs : d.status = .claimed) : False := by
    have hk : d.key = k := by rw [hd.key_eq, hscope, hid, hagent]
    rw [← hk, hd.cell hs] at hh
    exact hh rfl
  cases hp : perform P i.2 w.store i.1 with
  | error e => exact .inl ⟨e, by simp [attempt, hp]⟩
  | ok y =>
    obtain ⟨s', r⟩ := y
    obtain ⟨call, c⟩ := i
    cases call <;> simp only [perform] at hp <;> simp only [Call.lease] at hl <;> try simp at hl
    case renew a =>
      obtain ⟨y, hy, -⟩ := replyWith_ok hp
      obtain ⟨row, seconds, hd, hs, -⟩ := renewMessageDispatch_ok hy
      exact (rejected hl.1 (hl.2 ▸ hd) hs).elim
    case fail a =>
      obtain ⟨y, hy, -⟩ := replyWith_ok hp
      obtain ⟨code, row, notBefore, hd, hs, -⟩ := failMessageDispatch_ok hy
      exact (rejected hl.1 (hl.2 ▸ hd) hs).elim
    case complete a =>
      obtain ⟨y, hy, rfl⟩ := replyWith_ok hp
      rcases completeMessageDispatch_ok hy with
        ⟨hr, rfl, hd, hs, hx⟩ | ⟨row, source, reply, subject, body, sha, hid, hc, -⟩
      · have hk : k = (c.self.scope, strip a.messageId, c.self.agentId) := by
          rw [hscope, hl.1, hagent]
        refine .inr ⟨by simp [attempt, hp, perform], y, by simp [attempt, hp, perform], hr, ?_, hs,
          hd.session_eq, hx⟩
        rw [hk]
        exact hd.lookup_eq
      · exact (rejected (hid.trans hl.1) (hl.2 ▸ hc.holder) hc.claimed).elim

end Checks

theorem exactly_once {P : Platform} {w₀ w w' : World} {before after : Trace}
    (h₀ : (mailbox P).start w₀) (h : (mailbox P).Run w₀ before w)
    (h' : (mailbox P).Run w after w') (k : DispatchKey) : ExactlyOnce P k before after w w' := by
  obtain ⟨connections, now, rfl⟩ := h₀
  have hrun := h.trans h'
  have hnodup : ((issuedTokens (before ++ after)).map P.sha256Bytes).Nodup := by
    have := issued_nodup hrun List.nodup_nil
    rwa [issued_run hrun] at this
  refine ⟨?_, fun i x hi hs ha => attempt_completed hi hs ha, fun d hd ht => ?_,
    fun t ht u hu ha hb => ?_, fun t ht hr i hi => attempt_retired (fun hp => ?_) hi, ?_⟩
  · exact (repliesOf_length _).trans (leaseRun hrun k).finish_once.1
  · exact leaseCell_frozen hd ht ((leaseRun h' k).final (leaseCell_final.mpr ⟨d, hd, ht⟩))
  · have hp := ha.held
    rw [hb.held] at hp
    exact List.inj_on_of_nodup_map hnodup ht hu (Lease.Phase.held.inj hp).symm
  · rcases (leaseRun h' k).held hp with hp | hp
    · exact hr.not_held hp
    · rw [granted_traceLabels] at hp
      obtain ⟨u, hu, he⟩ := List.mem_map.mp hp
      rw [issuedTokens, List.flatMap_append, List.map_append] at hnodup
      exact (List.nodup_append.mp hnodup).2.2 _ (List.mem_map_of_mem (claimsOf_subset ht)) _
        (List.mem_map_of_mem (claimsOf_subset hu)) he.symm
  · have hg := (leaseRun h' k).grants
    rw [leaseCell_grants, leaseCell_grants, granted_traceLabels, List.length_map] at hg
    exact hg

def laterSession : Bridge :=
  { sampleAgent "a" with
    sessionId := "later"
    sessionId_safe := by decide }

def leased : List (Call × Ctx) :=
  asHuman 1 (sampleSeats ["a"] ++ [samplePost]) ++ [sampleClaim (sampleAgent "a") 1 6]

def reclaimed : List (Call × Ctx) :=
  sampleClaim laterSession 1 400 :: sampleReply laterSession 1 400 "done"

set_option maxRecDepth 100000 in
theorem exactly_once_reclaimed :
    let M := mailbox samplePlatform
    let w := (M.play sampleWorld leased).1
    let k := ("demo", sampleMessage 1, "a")
    ExactlyOnce samplePlatform k (M.play sampleWorld leased).2 (M.play w reclaimed).2 w
      (M.play w reclaimed).1 ∧ (repliesOf k (M.play w reclaimed).2).length = 1 :=
  ⟨exactly_once ⟨[], 0, rfl⟩ (Machine.run_play _ _ (by decide +kernel))
    (Machine.run_play _ _ (by decide +kernel)) _, by decide +kernel⟩

end PeerBridge
