import PeerBridge.Evidence

namespace PeerBridge
open Checked Rows

-- the tables that calls only ever add to
structure Extends (s s' : Store) : Prop where
  messages : s.mail.messages <+: s'.mail.messages
  receipts : s.mail.receipts <+: s'.mail.receipts
  routeProfiles : s.rooms.routeProfiles <+: s'.rooms.routeProfiles
  routeReceipts : s.ledger.routeReceipts <+: s'.ledger.routeReceipts
  trustedReceipts : s.ledger.trustedReceipts <+: s'.ledger.trustedReceipts
  events : s.audit.events <+: s'.audit.events

section Steps
variable {P : Platform} {c : Ctx} {E : Entry → Bool} {s s' s'' : Store}

theorem Extends.refl (s : Store) : Extends s s :=
  ⟨List.prefix_rfl, List.prefix_rfl, List.prefix_rfl, List.prefix_rfl, List.prefix_rfl,
    List.prefix_rfl⟩

theorem Extends.trans (h : Extends s s') (k : Extends s' s'') : Extends s s'' :=
  ⟨h.messages.trans k.messages, h.receipts.trans k.receipts,
    h.routeProfiles.trans k.routeProfiles, h.routeReceipts.trans k.routeReceipts,
    h.trustedReceipts.trans k.trustedReceipts, h.events.trans k.events⟩

theorem prefix_of_eq {α : Type} {xs ys : List α} (h : ys = xs) : xs <+: ys :=
  h ▸ List.prefix_rfl

theorem ignoreReceipt_extends (m : Mail) (r : ReceiptRow) :
    m.receipts <+: (m.ignoreReceipt r).receipts := by
  unfold Mail.ignoreReceipt
  split
  · exact List.prefix_rfl
  · exact List.prefix_append _ _

theorem ignoreRouteReceipt_extends (l : Ledger) (r : RouteReceiptRow) :
    l.routeReceipts <+: (l.ignoreRouteReceipt r).routeReceipts := by
  unfold Ledger.ignoreRouteReceipt
  split
  · exact List.prefix_rfl
  · exact List.prefix_append _ _

theorem Registers.extends {r r' : Rooms} (h : Registers P r r') :
    r.routeProfiles <+: r'.routeProfiles := by
  cases h with
  | same h => exact prefix_of_eq h
  | added p _ _ h => exact h ▸ List.prefix_append _ _

theorem Extends.of_audit (hm : s'.mail = s.mail) (hr : s'.rooms = s.rooms)
    (hl : s'.ledger = s.ledger) (he : s.audit.events <+: s'.audit.events) : Extends s s' :=
  ⟨prefix_of_eq (by rw [hm]), prefix_of_eq (by rw [hm]), prefix_of_eq (by rw [hr]),
    prefix_of_eq (by rw [hl]), prefix_of_eq (by rw [hl]), he⟩

theorem Extends.of_mail (hm : s.mail.messages <+: s'.mail.messages)
    (hq : s.mail.receipts <+: s'.mail.receipts) (hr : s'.rooms = s.rooms)
    (hl : s'.ledger = s.ledger) (he : s'.audit.events = s.audit.events) : Extends s s' :=
  ⟨hm, hq, prefix_of_eq (by rw [hr]), prefix_of_eq (by rw [hl]), prefix_of_eq (by rw [hl]),
    prefix_of_eq he⟩

theorem Extends.of_ledger (hm : s'.mail = s.mail) (hr : s'.rooms = s.rooms)
    (hq : s.ledger.routeReceipts <+: s'.ledger.routeReceipts)
    (ht : s.ledger.trustedReceipts <+: s'.ledger.trustedReceipts)
    (he : s'.audit.events = s.audit.events) : Extends s s' :=
  ⟨prefix_of_eq (by rw [hm]), prefix_of_eq (by rw [hm]), prefix_of_eq (by rw [hr]), hq, ht,
    prefix_of_eq he⟩

theorem Inserted.extends {ds : List Draft} {rows : List MessageRow}
    (h : Inserted P c ds rows s.mail s'.mail) (hr : s'.rooms = s.rooms)
    (hl : s'.ledger = s.ledger) (he : s'.audit.events = s.audit.events) : Extends s s' := by
  refine .of_mail ?_ ?_ hr hl he <;> rw [h.mail_eq]
  · exact List.prefix_append _ _
  · exact List.prefix_rfl

theorem Write.extends (hw : Write P c E s s') : Extends s s' := by
  cases hw with
  | event _ he =>
    obtain ⟨hm, hr, hl⟩ := Store.event_frame he
    obtain ⟨e, hevents, -⟩ := Store.event_row he
    exact .of_audit hm hr hl (hevents ▸ List.prefix_append _ _)
  | insert _ hi =>
    obtain ⟨hin, hr, hl⟩ := insertReserved_ok hi
    simp only [insertReserved, insertMessage, bind_eq_ok, pure_eq_ok, Prod.mk.injEq] at hi
    obtain ⟨s₁, hs, -, -, rfl, -⟩ := hi
    have hevents := Store.reserve_events hs
    exact hin.extends hr hl hevents
  | @fanout s₁ _ _ _ _ hs hi =>
    obtain ⟨hm, hr, hl⟩ := Store.reserve_frame hs
    obtain ⟨hin, hr', hl'⟩ := insertAll_ok hi
    rw [hm] at hin
    refine hin.extends (hr'.trans hr) (hl'.trans hl) ?_
    rw [insertAll_audit hi]
    exact Store.reserve_events hs
  | receipt r =>
    exact .of_mail (prefix_of_eq (Mail.ignoreReceipt_messages _ _)) (ignoreReceipt_extends _ r)
      rfl rfl rfl
  | advance roomId now | acknowledge roomId now =>
    exact .of_ledger rfl rfl List.prefix_rfl List.prefix_rfl rfl
  | mail hm _ hr => exact .of_mail (prefix_of_eq hm) (prefix_of_eq hr) rfl rfl rfl
  | rooms r hreg =>
    exact ⟨List.prefix_rfl, List.prefix_rfl, hreg.extends, List.prefix_rfl, List.prefix_rfl,
      List.prefix_rfl⟩
  | routeReceipt _ _ _ now =>
    exact .of_ledger rfl rfl (ignoreRouteReceipt_extends _ _)
      (prefix_of_eq (ledger_ignoreRouteReceipt_frame _ _).2) rfl
  | trusted row => exact .of_ledger rfl rfl List.prefix_rfl (List.prefix_append _ _) rfl
  | ledger _ hr ht => exact .of_ledger rfl rfl (prefix_of_eq hr) (prefix_of_eq ht) rfl

theorem Writes.extends (hw : Writes P c E s s') : Extends s s' := by
  induction hw with
  | refl => exact .refl _
  | tail _ hlast ih => exact ih.trans hlast.extends

theorem perform_extends {call : Call} {r : Reply} (h : perform P c s call = .ok (s', r)) :
    Extends s s' := by
  rcases perform_writes h with ⟨-, rfl⟩ | hw
  · exact ⟨List.prefix_rfl, List.prefix_rfl, List.prefix_rfl, List.prefix_rfl, List.prefix_rfl,
      List.prefix_rfl⟩
  · exact Writes.extends hw

end Steps

section Runs
variable {P : Platform} {w w' : World} {tr : Trace}

theorem attempt_extends (w : World) (i : Call × Ctx) :
    Extends w.store (attempt P w i).1.store := by
  cases hp : perform P i.2 w.store i.1 with
  | error e =>
    simp only [attempt, hp]
    exact .refl _
  | ok r =>
    simp only [attempt, hp]
    exact perform_extends hp

theorem run_extends (h : (mailbox P).Run w tr w') : Extends w.store w'.store :=
  h.preserves (fun v => Extends w.store v.store) (fun v i hv _ => hv.trans (attempt_extends v i))
    (.refl _)

theorem find?_prefix {α : Type} {p : α → Bool} {xs ys : List α} {x : α} (h : xs <+: ys)
    (hx : xs.find? p = some x) : ys.find? p = some x := by
  obtain ⟨rest, rfl⟩ := h
  rw [List.find?_append, hx]
  rfl

theorem acknowledged_prefix {m m' : Mail} {consumer : String} {x : MessageRow}
    (h : m.receipts <+: m'.receipts) (hx : m.acknowledged consumer x = true) :
    m'.acknowledged consumer x = true := by
  obtain ⟨r, hr⟩ := Option.isSome_iff_exists.mp hx
  exact Option.isSome_iff_exists.mpr ⟨r, find?_prefix h hr⟩

end Runs

def noticeCalls : List (Call × Ctx) :=
  asHuman 1 [.openScope,
    .sendMessage { recipient := "*", taskId := "t", subject := "s", body := "hello" }]

def replyCalls : List (Call × Ctx) :=
  [(.ack { messageId := sampleMessage 1 }, sampleCtx (sampleAgent "a") 3),
    (.sendMessage { recipient := "a", taskId := "t", subject := "s", body := "again" },
      sampleCtx sampleHuman 4)]

def noticedWorld : World := ((mailbox samplePlatform).play sampleWorld noticeCalls).1

def answeredWorld : World := ((mailbox samplePlatform).play noticedWorld replyCalls).1

set_option maxRecDepth 100000 in
theorem noticed_admitted : (mailbox samplePlatform).AdmitsAll sampleWorld noticeCalls ∧
    (mailbox samplePlatform).AdmitsAll noticedWorld replyCalls := by decide +kernel

theorem noticed_reachable : (mailbox samplePlatform).Reachable noticedWorld :=
  ⟨sampleWorld, _, ⟨[], 0, rfl⟩, Machine.run_play _ _ noticed_admitted.1⟩

theorem answered_run : (mailbox samplePlatform).Run noticedWorld
    ((mailbox samplePlatform).play noticedWorld replyCalls).2 answeredWorld :=
  Machine.run_play _ _ noticed_admitted.2

end PeerBridge
