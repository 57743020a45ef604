import PeerBridge.Sessions.Runs

namespace PeerBridge.AuthorizedSessions
open Checked Rows

def Exclusive (H : Host) (now : ℚ) (rows : List SessionRow) : Prop :=
  ∀ r ∈ rows, ∀ q ∈ rows, r.scope = q.scope → r.roomSessionId = q.roomSessionId →
    r.roomSessionId ≠ none → r.live H now = true → q.live H now = true → r = q

-- no other row of this one's room session is live
def Unrivalled (H : Host) (now : ℚ) (rows : List SessionRow) (r : SessionRow) : Prop :=
  ∀ q ∈ rows, q.scope = r.scope → q.roomSessionId = r.roomSessionId → q.key ≠ r.key →
    q.live H now = false

instance (H : Host) (now : ℚ) (rows : List SessionRow) (r : SessionRow) :
    Decidable (Unrivalled H now rows r) := inferInstanceAs (Decidable (∀ q ∈ rows, _))

-- the publish call names this row, may write to it and leaves it in a live state
def PublishArgs.revives (a : PublishArgs) (c : Ctx) (g : Registry) (r : SessionRow) : Bool :=
  r.scope = c.self.scope && SourceType.parse? (lower (strip a.sourceType)) = some r.sourceType &&
  strip a.sourceSessionId = r.sourceSessionId && r.ownerAgentId = c.self.agentId &&
  r.ownerBridgeSessionId = c.self.sessionId && r.supportsEvents &&
  (g.eventOf r.key (strip a.eventId)).isNone && r.roomSessionId.isSome &&
  (SessionState.parse? (lower (strip (if a.state = "" then "running" else a.state)))).any
    (fun state => !state.terminal)

def NoRevival (H : Host) (w : World) (i : Request × Ctx) : Prop :=
  match i.1 with
  | .publish a => ∀ r ∈ w.registry.sessions, a.revives i.2 w.registry r = true →
      Unrivalled H i.2.clock.entry w.registry.sessions r
  | _ => True

instance (H : Host) (w : World) (i : Request × Ctx) : Decidable (NoRevival H w i) := by
  unfold NoRevival
  cases i.1 <;> infer_instance

structure Apart (H : Host) (w : World) : Prop where
  keys : (w.registry.sessions.map SessionRow.key).Nodup
  apart : ∀ now, w.now ≤ now → Exclusive H now w.registry.sessions

section Invariant
variable {H : Host} {c : Ctx} {g g' : Registry} {now now' : ℚ} {r row updated : SessionRow}
  {rows : List SessionRow}

theorem SessionRow.live_mono (h : now ≤ now') (hl : r.live H now' = true) :
    r.live H now = true := by
  simp only [SessionRow.live, SessionRow.fresh, Bool.and_eq_true, decide_eq_true_eq] at hl ⊢
  exact ⟨hl.1, (sub_le_sub_right h _).trans hl.2⟩

theorem SessionRow.not_live_mono (h : now ≤ now') (hl : r.live H now = false) :
    r.live H now' = false := by
  cases hl' : r.live H now' with
  | false => rfl
  | true => exact absurd (SessionRow.live_mono h hl') (by simp [hl])

theorem Exclusive.subset {rows' : List SessionRow} (h : Exclusive H now rows)
    (hs : ∀ r ∈ rows', r ∈ rows) : Exclusive H now rows' :=
  fun r hr q hq => h r (hs r hr) q (hs q hq)

-- one row is written anew: either it is not live or it has no rival
theorem Exclusive.upsert (h : Exclusive H now rows) (hk : (rows.map SessionRow.key).Nodup)
    (hrow : row.live H now = true → row.roomSessionId ≠ none → Unrivalled H now rows row) :
    Exclusive H now (upsert SessionRow.key row rows) := by
  intro r hr q hq hscope hroom hsome hlr hlq
  rcases mem_upsert_of_nodup hk hr with rfl | ⟨hr', hrk⟩
  · rcases mem_upsert_of_nodup hk hq with rfl | ⟨hq', hqk⟩
    · rfl
    · have hdead := hrow hlr hsome q hq' hscope.symm hroom.symm hqk
      simp [hdead] at hlq
  · rcases mem_upsert_of_nodup hk hq with rfl | ⟨hq', -⟩
    · have hdead := hrow hlq (hroom ▸ hsome) r hr' hscope hroom hrk
      simp [hdead] at hlr
    · exact h r hr' q hq' hscope hroom hsome hlr hlq

theorem without_sub {gone : List Key} : ∀ r ∈ without gone rows, r ∈ rows :=
  fun _ hr => (List.mem_filter.mp hr).1

theorem without_nodup {gone : List Key} (h : (rows.map SessionRow.key).Nodup) :
    ((without gone rows).map SessionRow.key).Nodup :=
  h.sublist (List.filter_sublist.map _)

theorem Touched.origin (h : Touched H c g g' row updated) :
    row ∈ g.sessions ∧ row.key = updated.key := ⟨lookup_mem h.found, lookup_key h.found⟩

theorem Touched.keys (h : Touched H c g g' row updated)
    (hk : (g.sessions.map SessionRow.key).Nodup) : (g'.sessions.map SessionRow.key).Nodup := by
  rw [h.sessions_eq]
  exact nodup_upsert _ hk

theorem Connected.keys {gone : List Key} (h : Connected H c g g' row gone)
    (hk : (g.sessions.map SessionRow.key).Nodup) : (g'.sessions.map SessionRow.key).Nodup := by
  rw [h.sessions_eq]
  exact nodup_upsert _ (without_nodup hk)

theorem Unrivalled.later (h : Unrivalled H now rows row) (hle : now ≤ now') :
    Unrivalled H now' rows row :=
  fun q hq h1 h2 h3 => SessionRow.not_live_mono hle (h q hq h1 h2 h3)

theorem Connected.exclusive {gone : List Key} (h : Connected H c g g' row gone)
    (hk : (g.sessions.map SessionRow.key).Nodup) (he : Exclusive H now g.sessions)
    (hle : c.clock.entry ≤ now) : Exclusive H now g'.sessions := by
  rw [h.sessions_eq]
  refine (he.subset without_sub).upsert (without_nodup hk) (fun _ hsome => ?_)
  obtain ⟨room, hroom⟩ := Option.ne_none_iff_exists'.mp hsome
  intro q hq hscope hq_room hkey
  exact SessionRow.not_live_mono hle
    (h.alone room hroom q (without_sub q hq) hscope (hq_room.trans hroom) hkey)

-- what revives a row is exactly what the condition watches
theorem Appended.revives {a : PublishArgs} {e : SessionEvent}
    (h : Appended H c g g' row updated e) (hn : Named a row e)
    (hlive : updated.state.terminal = false) (hsome : updated.roomSessionId ≠ none) :
    a.revives c g row = true := by
  have hkey := h.toTouched.origin.2
  have hscope : row.scope = c.self.scope := by
    have hs : row.scope = updated.scope := congrArg Prod.fst hkey
    exact hs.trans h.scope_eq
  have hunused : g.eventOf row.key (strip a.eventId) = none := by
    rw [hkey, ← h.key_eq, hn.event_eq]
    exact h.unused
  have hroom : row.roomSessionId.isSome = true := by
    rw [← h.room_eq]
    exact Option.isSome_iff_ne_none.mpr hsome
  have hstate : e.stateAfter.terminal = false := h.state_eq ▸ hlive
  simp [PublishArgs.revives, hscope, hn.sourceType_eq, hn.session_eq, h.owner.1, h.owner.2,
    h.supports, hunused, hroom, hn.state_eq, hstate]

theorem Touched.exclusive (h : Touched H c g g' row updated)
    (hk : (g.sessions.map SessionRow.key).Nodup) (he : Exclusive H now g.sessions)
    (hrow : updated.state.terminal = false → updated.roomSessionId ≠ none →
      Unrivalled H now g.sessions updated) : Exclusive H now g'.sessions := by
  rw [h.sessions_eq]
  refine he.upsert hk (fun hlive hsome => hrow ?_ hsome)
  simp only [SessionRow.live, Bool.and_eq_true, Bool.not_eq_true'] at hlive
  exact hlive.1

theorem Unrivalled.congr (h : Unrivalled H now rows row) (hk : row.key = updated.key)
    (hroom : updated.roomSessionId = row.roomSessionId) : Unrivalled H now rows updated := by
  have hscope : row.scope = updated.scope := congrArg Prod.fst hk
  intro q hq h1 h2 h3
  exact h q hq (h1.trans hscope.symm) (h2.trans hroom) (hk ▸ h3)

end Invariant

section Runs
variable {H : Host} {w : World}

theorem Apart.initial (h : (registry H).start w) : Apart H w := by
  obtain ⟨hs, -⟩ := h
  refine ⟨by simp [hs], fun now _ r hr => ?_⟩
  rw [hs] at hr
  cases hr

theorem Apart.step {i : Request × Ctx} (h : Apart H w)
    (ha : (registry H).admits w i) (hg : NoRevival H w i) : Apart H ((registry H).exec w i).1 := by
  obtain ⟨hc, hnow⟩ := exec_change H w i
  obtain ⟨hadvance, hentry, hlater⟩ := ha
  have hbefore : w.now ≤ i.2.clock.later := hadvance.trans hlater
  refine ⟨?_, fun now hle => ?_⟩
  · cases hc with
    | kept hs _ => rw [hs]; exact h.keys
    | connected a row gone _ _ hrow => exact hrow.keys h.keys
    | appended a row updated e _ _ hrow => exact hrow.keys h.keys
    | closed row updated hrow => exact hrow.keys h.keys
  · rw [hnow] at hle
    have hold := h.apart now (hbefore.trans hle)
    have hread : i.2.clock.entry ≤ now := (hentry.trans hlater).trans hle
    cases hc with
    | kept hs _ => rw [hs]; exact hold
    | connected a row gone _ _ hrow => exact hrow.exclusive h.keys hold hread
    | appended a row updated e hq hn hrow =>
      refine hrow.toTouched.exclusive h.keys hold (fun hlive hsome => ?_)
      obtain ⟨hmem, hkey⟩ := hrow.toTouched.origin
      have hguard : ∀ r ∈ w.registry.sessions, a.revives i.2 w.registry r = true →
          Unrivalled H i.2.clock.entry w.registry.sessions r := by
        simpa [NoRevival, hq] using hg
      have hrival := hguard row hmem (hrow.revives hn hlive hsome)
      exact (hrival.later hread).congr hkey hrow.room_eq
    | closed row updated hrow =>
      refine hrow.toTouched.exclusive h.keys hold (fun hlive => ?_)
      rw [hrow.terminal] at hlive
      cases hlive

theorem apart_reachable (h : ((registry H).restrict (NoRevival H)).Reachable w) : Apart H w :=
  Machine.Reachable.invariant (M := (registry H).restrict (NoRevival H)) (Apart H)
    (fun _ h₀ => Apart.initial h₀) (fun _ _ ih ha => ih.step ha.1 ha.2) h

/-- Two live rows of one room session are one row, at the clock of the state and after. -/
theorem one_live_adapter (H : Host) {w : World}
    (h : ((registry H).restrict (NoRevival H)).Reachable w) :
    ∀ now, w.now ≤ now → ∀ r ∈ w.registry.sessions, ∀ q ∈ w.registry.sessions,
      r.scope = q.scope → r.roomSessionId = q.roomSessionId → r.roomSessionId ≠ none →
      r.live H now = true → q.live H now = true → r = q :=
  (apart_reachable h).apart

end Runs

def fullHost : Host := sampleHost 64 (by decide)

-- the second adapter connects after the first one has ended
def handedOver : List (Request × Ctx) :=
  [asWorker 1 (sampleConnect "first" "lab"), asWorker 2 (samplePublish "first" "e1"),
   asWorker 3 (sampleClose "first"), asWorker 4 (sampleConnect "second" "lab"),
   asWorker 5 (samplePublish "second" "e1")]

theorem one_live_adapter_handed_over :
    let w := ((registry fullHost).play seatedWorld handedOver).1
    w.registry.sessions.length = 2 ∧
      ∀ r ∈ w.registry.sessions, ∀ q ∈ w.registry.sessions, r.scope = q.scope →
        r.roomSessionId = q.roomSessionId → r.roomSessionId ≠ none →
        r.live fullHost w.now = true → q.live fullHost w.now = true → r = q := by
  intro w
  have hchecked : ((registry fullHost).restrict (NoRevival fullHost)).AdmitsAll seatedWorld
      handedOver ∧ w.registry.sessions.length = 2 := by decide +kernel
  have hreach : ((registry fullHost).restrict (NoRevival fullHost)).Reachable w :=
    ⟨seatedWorld, _, ⟨rfl, rfl⟩, Machine.run_play seatedWorld handedOver hchecked.1⟩
  exact ⟨hchecked.2, one_live_adapter fullHost hreach w.now le_rfl⟩

-- the first adapter is stale when the second connects, and then publishes again
def overtaken : List (Request × Ctx) :=
  [asWorker 1 (sampleConnect "first" "lab"), asWorker 200 (sampleConnect "second" "lab"),
   asWorker 201 (samplePublish "first" "e1")]

theorem stale_adapter_revived :
    ¬ ∀ w, (registry fullHost).Reachable w → Exclusive fullHost w.now w.registry.sessions := by
  intro h
  have hchecked : (registry fullHost).AdmitsAll seatedWorld overtaken ∧
      ((registry fullHost).play seatedWorld overtaken).1.registry.sessions.map
        (fun r => (r.sourceSessionId, r.scope, r.roomSessionId,
          r.live fullHost ((registry fullHost).play seatedWorld overtaken).1.now)) =
        [("first", "demo", some "seat", true), ("second", "demo", some "seat", true)] := by
    decide +kernel
  have hreach : (registry fullHost).Reachable ((registry fullHost).play seatedWorld overtaken).1 :=
    ⟨seatedWorld, _, ⟨rfl, rfl⟩, Machine.run_play seatedWorld overtaken hchecked.1⟩
  have hx := h _ hreach
  have hrows := hchecked.2
  generalize ((registry fullHost).play seatedWorld overtaken).1 = w at hx hrows
  obtain ⟨r, rest, hr, hr', hrest⟩ := List.map_eq_cons_iff.mp hrows
  obtain ⟨q, rest', hq, hq', -⟩ := List.map_eq_cons_iff.mp hrest
  simp only [Prod.mk.injEq] at hr' hq'
  obtain ⟨hid, hscope, hroom, hlive⟩ := hr'
  obtain ⟨hid', hscope', hroom', hlive'⟩ := hq'
  have hmem : r ∈ w.registry.sessions := by simp [hr]
  have hmem' : q ∈ w.registry.sessions := by simp [hr, hq]
  have he := hx r hmem q hmem' (hscope.trans hscope'.symm) (hroom.trans hroom'.symm)
    (by simp [hroom]) hlive hlive'
  rw [he, hid'] at hid
  exact absurd hid (by decide)

end PeerBridge.AuthorizedSessions
