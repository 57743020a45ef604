import PeerBridge.Sessions.Exclusion
import PeerBridge.Lib.Window

namespace PeerBridge.AuthorizedSessions
open Checked Rows

def eventsOf (k : Key) (events : List SessionEvent) : List SessionEvent :=
  events.filter (fun e => e.key = k)

structure Recorded (H : Host) (g : Registry) : Prop where
  keys : (g.sessions.map SessionRow.key).Nodup
  owned : ∀ e ∈ g.events, e.key ∈ g.sessions.map SessionRow.key
  window : ∀ r ∈ g.sessions, (eventsOf r.key g.events).map SessionEvent.sequence =
    Window.held maxAuthorizedEvents r.latestSequence
  sealed : ∀ r ∈ g.sessions, r.Sealed H.platform
  events_sealed : ∀ e ∈ g.events, e.Sealed H.platform

-- no new session makes retention remove this one
def Spares (H : Host) (k : Key) (w : World) (i : Request × Ctx) : Prop :=
  match i.1 with
  | .connect a => ∀ k', a.key i.2 = some k' → w.registry.session? k' = none →
      k ∉ (w.registry.victims H i.2.self.scope i.2.clock.entry).map SessionRow.key
  | _ => True

section Invariant
variable {H : Host} {c : Ctx} {g g' : Registry} {row updated : SessionRow} {e : SessionEvent}
  {events : List SessionEvent} {gone : List Key} {k : Key}

theorem eventsOf_storeEvent_of_ne (h : e.key ≠ k) :
    eventsOf k (storeEvent e events) = eventsOf k events := by
  rw [storeEvent, eventsOf, List.filter_filter, List.filter_append, eventsOf]
  have hlast : [e].filter (fun x => decide (x.key = k) &&
      decide (¬ (x.key = e.key ∧ x.sequence + maxAuthorizedEvents ≤ e.sequence))) = [] := by
    simp [h]
  rw [hlast, List.append_nil]
  refine List.filter_congr (fun x _ => ?_)
  by_cases hx : x.key = k
  · have hne : ¬ k = e.key := fun he => h he.symm
    simp [hx, hne]
  · simp [hx]

theorem eventsOf_storeEvent_self :
    (eventsOf e.key (storeEvent e events)).map SessionEvent.sequence =
      (((eventsOf e.key events).map SessionEvent.sequence) ++ [e.sequence]).filter
        (fun n => e.sequence < n + maxAuthorizedEvents) := by
  have hkey : eventsOf e.key (events ++ [e]) = eventsOf e.key events ++ [e] := by
    simp [eventsOf, List.filter_append]
  have hswap : eventsOf e.key (storeEvent e events) =
      (eventsOf e.key (events ++ [e])).filter
        (fun x => e.sequence < x.sequence + maxAuthorizedEvents) := by
    rw [eventsOf, storeEvent, eventsOf, List.filter_filter, List.filter_filter]
    refine List.filter_congr (fun x _ => ?_)
    by_cases hx : x.key = e.key <;> simp [hx]
  rw [hswap, hkey, ← List.map_singleton (f := SessionEvent.sequence), ← List.map_append,
    List.filter_map]
  rfl

theorem eventsOf_withoutEvents (h : k ∉ gone) :
    eventsOf k (withoutEvents gone events) = eventsOf k events := by
  rw [eventsOf, withoutEvents, List.filter_filter, eventsOf]
  refine List.filter_congr (fun x _ => ?_)
  by_cases hx : x.key = k <;> simp [hx, h]

theorem eventsOf_eq_nil (h : ∀ e ∈ events, e.key ≠ k) : eventsOf k events = [] := by
  simpa [eventsOf] using h

theorem mem_upsert_keys {rows : List SessionRow} (h : k ∈ rows.map SessionRow.key) :
    k ∈ (upsert SessionRow.key row rows).map SessionRow.key := by
  rw [upsert_keys]
  split
  · exact h
  · exact List.mem_append_left _ h

theorem Recorded.connected (h : Recorded H g) (hc : Connected H c g g' row gone) :
    Recorded H g' := by
  refine ⟨hc.keys h.keys, fun e he => ?_, fun r hr => ?_, fun r hr => ?_, fun e he => ?_⟩
  · rw [hc.events_eq] at he
    obtain ⟨hmem, hgone⟩ := List.mem_filter.mp he
    obtain ⟨q, hq, hqk⟩ := List.mem_map.mp (h.owned e hmem)
    rw [hc.sessions_eq]
    refine mem_upsert_keys (List.mem_map.mpr ⟨q, List.mem_filter.mpr ⟨hq, ?_⟩, hqk⟩)
    rw [hqk]
    exact hgone
  · rw [hc.sessions_eq] at hr
    rw [hc.events_eq]
    rcases mem_upsert_of_nodup (without_nodup h.keys) hr with rfl | ⟨hr, -⟩
    · cases hx : g.session? r.key with
      | none =>
        obtain ⟨hlatest, -⟩ := hc.opened hx
        have hnone : ∀ e ∈ withoutEvents gone g.events, e.key ≠ r.key := by
          intro e he hk
          obtain ⟨q, hq, hqk⟩ := List.mem_map.mp (h.owned e (List.mem_filter.mp he).1)
          exact lookup_eq_none.mp hx q hq (hqk.trans hk)
        rw [eventsOf_eq_nil hnone, hlatest]
        rfl
      | some q =>
        obtain ⟨hlatest, rfl⟩ := hc.resumed q hx
        rw [withoutEvents_nil, hlatest, ← lookup_key hx]
        exact h.window q (lookup_mem hx)
    · obtain ⟨hmem, hgone⟩ := List.mem_filter.mp hr
      rw [eventsOf_withoutEvents (by simpa using hgone)]
      exact h.window r hmem
  · rw [hc.sessions_eq] at hr
    rcases mem_upsert hr with rfl | hr
    · exact hc.sealed
    · exact h.sealed r (without_sub r hr)
  · rw [hc.events_eq] at he
    exact h.events_sealed e (List.mem_filter.mp he).1

theorem Touched.keys_eq (h : Touched H c g g' row updated) :
    g'.sessions.map SessionRow.key = g.sessions.map SessionRow.key := by
  obtain ⟨hmem, hkey⟩ := h.origin
  rw [h.sessions_eq, upsert_keys, if_pos (List.mem_map.mpr ⟨row, hmem, hkey⟩)]

theorem Touched.sealed_rows (h : Touched H c g g' row updated)
    (hs : ∀ r ∈ g.sessions, r.Sealed H.platform) : ∀ r ∈ g'.sessions, r.Sealed H.platform := by
  intro r hr
  rw [h.sessions_eq] at hr
  rcases mem_upsert hr with rfl | hr
  · exact h.sealed
  · exact hs r hr

theorem mem_storeEvent {x : SessionEvent} (h : x ∈ storeEvent e events) : x ∈ events ∨ x = e := by
  simpa using List.mem_append.mp (List.mem_filter.mp h).1

theorem Recorded.appended (h : Recorded H g) (ha : Appended H c g g' row updated e) :
    Recorded H g' := by
  obtain ⟨hmem, hkey⟩ := ha.toTouched.origin
  refine ⟨ha.toTouched.keys h.keys, fun x hx => ?_, fun r hr => ?_,
    ha.toTouched.sealed_rows h.sealed, fun x hx => ?_⟩
  · rw [ha.toTouched.keys_eq]
    rw [ha.events_eq] at hx
    rcases mem_storeEvent hx with hx | rfl
    · exact h.owned x hx
    · rw [ha.key_eq, ← hkey]
      exact List.mem_map_of_mem hmem
  · rw [ha.toTouched.sessions_eq] at hr
    rw [ha.events_eq]
    rcases mem_upsert_of_nodup h.keys hr with rfl | ⟨hr, hne⟩
    · have hold := h.window row hmem
      rw [hkey, ← ha.key_eq] at hold
      rw [← ha.key_eq, eventsOf_storeEvent_self, hold, ha.sequence_eq, ha.latest]
      exact Window.held_push (by decide) _
    · rw [eventsOf_storeEvent_of_ne (fun hk => hne (hk.symm.trans ha.key_eq))]
      exact h.window r hr
  · rw [ha.events_eq] at hx
    rcases mem_storeEvent hx with hx | rfl
    · exact h.events_sealed x hx
    · exact ha.event_sealed

theorem Recorded.closed (h : Recorded H g) (hc : Closed H c g g' row updated) :
    Recorded H g' := by
  obtain ⟨hmem, hkey⟩ := hc.toTouched.origin
  refine ⟨hc.toTouched.keys h.keys, fun x hx => ?_, fun r hr => ?_,
    hc.toTouched.sealed_rows h.sealed, fun x hx => ?_⟩
  · rw [hc.toTouched.keys_eq]
    exact h.owned x (hc.events_eq ▸ hx)
  · rw [hc.toTouched.sessions_eq] at hr
    rw [hc.events_eq]
    rcases mem_upsert_of_nodup h.keys hr with rfl | ⟨hr, -⟩
    · rw [hc.latest, ← hkey]
      exact h.window row hmem
    · exact h.window r hr
  · exact h.events_sealed x (hc.events_eq ▸ hx)

end Invariant

section Runs
variable {H : Host} {w : World} {i : Request × Ctx}

theorem Recorded.kept {g g' : Registry} (h : Recorded H g) (hs : g'.sessions = g.sessions)
    (he : g'.events = g.events) : Recorded H g' :=
  ⟨hs ▸ h.keys, by rw [hs, he]; exact h.owned, by rw [hs, he]; exact h.window, hs ▸ h.sealed,
    he ▸ h.events_sealed⟩

theorem Recorded.step (h : Recorded H w.registry) :
    Recorded H ((registry H).exec w i).1.registry := by
  cases (exec_change H w i).1 with
  | kept hs he => exact h.kept hs he
  | connected a row gone _ _ hc => exact h.connected hc
  | appended a row updated e _ _ ha => exact h.appended ha
  | closed row updated hc => exact h.closed hc

theorem recorded_reachable (h : (registry H).Reachable w) : Recorded H w.registry := by
  refine Machine.Reachable.invariant (M := registry H) (fun w => Recorded H w.registry)
    (fun w₀ h₀ => ?_) (fun _ _ ih _ => ih.step) h
  obtain ⟨hs, he⟩ := h₀
  exact ⟨by simp [hs], by simp [he], by simp [hs], by simp [hs], by simp [he]⟩

theorem Appended.name_eq {c : Ctx} {a : PublishArgs} {g g' : Registry} {row updated : SessionRow}
    {e : SessionEvent} {k : Key} (ha : Appended H c g g' row updated e) (hn : Named a row e)
    (hk : a.key c = some k) : k = e.key := by
  obtain ⟨hmem, hkey⟩ := ha.toTouched.origin
  have hscope : row.scope = c.self.scope :=
    (congrArg Prod.fst hkey : row.scope = updated.scope).trans ha.scope_eq
  rw [PublishArgs.key, hn.sourceType_eq, Option.map_some, Option.some.injEq] at hk
  rw [← hk, hn.session_eq, ha.key_eq, ← hkey, ← hscope]
  rfl

theorem publishEvent_replay {c : Ctx} {a : PublishArgs} {g g' : Registry} {p : Published}
    {k : Key} {e : SessionEvent} (h : publishEvent H c a g = .ok (g', p))
    (hk : a.key c = some k) (he : g.eventOf k (strip a.eventId) = some e) : g' = g := by
  rcases publishEvent_ok h with ⟨rfl, -⟩ | ⟨-, row, updated, e', ha, hn, -⟩
  · rfl
  · have hunused := ha.unused
    rw [← ha.name_eq hn hk, ← hn.event_eq, he] at hunused
    cases hunused

-- the accepted event is held, or as many newer ones have been accepted as are retained
def Remembered (k : Key) (eventId : String) (sequence : Nat) (g : Registry) : Prop :=
  ∃ r ∈ g.sessions, r.key = k ∧ (sequence + maxAuthorizedEvents ≤ r.latestSequence ∨
    ∃ e ∈ g.events, e.key = k ∧ e.adapterEventId = eventId ∧ e.sequence = sequence)

theorem Remembered.touched {c : Ctx} {g g' : Registry} {row updated : SessionRow} {k : Key}
    {eventId : String} {n : Nat} (h : Remembered k eventId n g) (hk : (g.sessions.map SessionRow.key).Nodup)
    (ht : Touched H c g g' row updated) (hgrow : row.latestSequence ≤ updated.latestSequence)
    (hevents : ∀ e ∈ g.events, e.key = k → e.sequence = n →
      e ∈ g'.events ∨ (k = updated.key ∧ n + maxAuthorizedEvents ≤ updated.latestSequence)) :
    Remembered k eventId n g' := by
  obtain ⟨r, hr, hrk, hheld⟩ := h
  obtain ⟨hmem, hkey⟩ := ht.origin
  have hrow : ∃ q ∈ g'.sessions, q.key = k ∧ r.latestSequence ≤ q.latestSequence ∧
      (k = updated.key → q = updated) := by
    rw [ht.sessions_eq]
    have hlook := lookup_upsert SessionRow.key k updated g.sessions
    by_cases hu : updated.key = k
    · rw [if_pos hu] at hlook
      have hrr : r = row := eq_of_key_eq hk hr hmem (hrk.trans (hu.symm.trans hkey.symm))
      exact ⟨updated, lookup_mem hlook, hu, hrr ▸ hgrow, fun _ => rfl⟩
    · rw [if_neg hu, (lookup_iff_mem hk).mpr ⟨hr, hrk⟩] at hlook
      exact ⟨r, lookup_mem hlook, hrk, le_rfl, fun he => absurd he.symm hu⟩
  obtain ⟨q, hq, hqk, hle, hself⟩ := hrow
  refine ⟨q, hq, hqk, ?_⟩
  rcases hheld with hpast | ⟨e, he, hek, hid, hen⟩
  · exact .inl (hpast.trans hle)
  · rcases hevents e he hek hen with hin | ⟨hu, hpast⟩
    · exact .inr ⟨e, hin, hek, hid, hen⟩
    · exact .inl (hself hu ▸ hpast)

theorem Remembered.connected {c : Ctx} {g g' : Registry} {row : SessionRow} {gone : List Key}
    {k : Key} {eventId : String} {n : Nat} (h : Remembered k eventId n g)
    (hk : (g.sessions.map SessionRow.key).Nodup) (hc : Connected H c g g' row gone)
    (hspare : g.session? row.key = none → k ∉ gone) : Remembered k eventId n g' := by
  obtain ⟨r, hr, hrk, hheld⟩ := h
  have hgone : k ∉ gone := by
    cases hx : g.session? row.key with
    | none => exact hspare hx
    | some q => rw [(hc.resumed q hx).2]; exact List.not_mem_nil
  have hrow : ∃ q ∈ g'.sessions, q.key = k ∧ q.latestSequence = r.latestSequence := by
    rw [hc.sessions_eq]
    have hlook := lookup_upsert SessionRow.key k row (without gone g.sessions)
    by_cases hu : row.key = k
    · rw [if_pos hu] at hlook
      have hx : g.session? row.key = some r := (lookup_iff_mem hk).mpr ⟨hr, hrk.trans hu.symm⟩
      exact ⟨row, lookup_mem hlook, hu, (hc.resumed r hx).1⟩
    · have hstay : r ∈ without gone g.sessions :=
        List.mem_filter.mpr ⟨hr, decide_eq_true (hrk ▸ hgone)⟩
      rw [if_neg hu, (lookup_iff_mem (without_nodup hk)).mpr ⟨hstay, hrk⟩] at hlook
      exact ⟨r, lookup_mem hlook, hrk, rfl⟩
  obtain ⟨q, hq, hqk, hlatest⟩ := hrow
  refine ⟨q, hq, hqk, hheld.imp (fun hpast => hlatest ▸ hpast) (fun ⟨e, he, hek, hid⟩ => ?_)⟩
  refine ⟨e, ?_, hek, hid⟩
  rw [hc.events_eq]
  exact List.mem_filter.mpr ⟨he, decide_eq_true (hek ▸ hgone)⟩

theorem Remembered.step {k : Key} {eventId : String} {n : Nat}
    (h : Remembered k eventId n w.registry) (hrec : Recorded H w.registry)
    (hs : Spares H k w i) : Remembered k eventId n ((registry H).exec w i).1.registry := by
  obtain ⟨hc, -⟩ := exec_change H w i
  cases hc with
  | kept hrows he =>
    unfold Remembered
    rw [hrows, he]
    exact h
  | connected a row gone hq hname hcon =>
    have hspare : w.registry.session? row.key = none → k ∉ gone := by
      intro hnone
      rw [(hcon.opened hnone).2]
      have hs' := hs
      rw [Spares, hq] at hs'
      exact hs' row.key hname hnone
    exact h.connected hrec.keys hcon hspare
  | appended a row updated e _ _ ha =>
    refine h.touched hrec.keys ha.toTouched (by rw [ha.latest]; omega) (fun x hx hxk hxn => ?_)
    rw [ha.events_eq]
    by_cases hdrop : x.key = e.key ∧ x.sequence + maxAuthorizedEvents ≤ e.sequence
    · refine .inr ⟨by rw [← hxk, hdrop.1, ha.key_eq], ?_⟩
      rw [ha.latest, ← ha.sequence_eq, ← hxn]
      exact hdrop.2
    · exact .inl (List.mem_filter.mpr ⟨List.mem_append_left _ hx, decide_eq_true hdrop⟩)
  | closed row updated hcl =>
    exact h.touched hrec.keys hcl.toTouched (by rw [hcl.latest])
      (fun x hx _ _ => .inl (hcl.events_eq ▸ hx))

theorem remembered_run {k : Key} {eventId : String} {n : Nat} {w' : World}
    {tr : List ((Request × Ctx) × Except SessionError Answer)}
    (hr : ((registry H).restrict (Spares H k)).Run w tr w') (hrec : Recorded H w.registry)
    (h : Remembered k eventId n w.registry) : Remembered k eventId n w'.registry := by
  have step (v : World) (j : Request × Ctx)
      (hv : Recorded H v.registry ∧ Remembered k eventId n v.registry)
      (ha : (registry H).admits v j ∧ Spares H k v j) :
      Recorded H ((registry H).exec v j).1.registry ∧
        Remembered k eventId n ((registry H).exec v j).1.registry :=
    ⟨hv.1.step, hv.2.step hv.1 ha.2⟩
  exact (Machine.Run.preserves (M := (registry H).restrict (Spares H k))
    (fun v => Recorded H v.registry ∧ Remembered k eventId n v.registry) step hr ⟨hrec, h⟩).2

theorem registry_exec : (registry H).exec w i = attempt H w i := rfl

theorem exec_publish {c : Ctx} {a : PublishArgs} :
    ((registry H).exec w (.publish a, c)).1.registry =
      match publishEvent H c a w.registry with
      | .ok r => r.1
      | .error _ => w.registry := by
  rw [registry_exec]
  cases hx : publishEvent H c a w.registry <;> simp [attempt, perform, hx]

theorem remembered_published {c : Ctx} {a : PublishArgs} {p : Published} {k : Key}
    (hp : accepted ((registry H).exec w (.publish a, c)).2 = some p) (hk : a.key c = some k) :
    Remembered k (strip a.eventId) p.sequence
      ((registry H).exec w (.publish a, c)).1.registry := by
  obtain ⟨hp, hnew⟩ := accepted_eq_some.mp hp
  rw [exec_publish]
  rw [registry_exec] at hp
  cases hx : publishEvent H c a w.registry with
  | error e => simp [attempt, perform, hx] at hp
  | ok r =>
    obtain ⟨g, p'⟩ := r
    obtain rfl : p' = p := by simpa [attempt, perform, hx] using hp
    rcases publishEvent_ok hx with ⟨-, hreplay⟩ | ⟨-, row, updated, e, ha, hn, hseq⟩
    · rw [hnew] at hreplay
      cases hreplay
    · have hname := ha.name_eq hn hk
      refine ⟨updated, ?_, (hname.trans ha.key_eq).symm, .inr ⟨e, ?_, hname.symm,
        hn.event_eq.symm, hseq⟩⟩
      · rw [ha.toTouched.sessions_eq]
        exact lookup_mem ((lookup_upsert SessionRow.key updated.key updated _).trans (if_pos rfl))
      · rw [ha.events_eq]
        refine List.mem_filter.mpr ⟨by simp, decide_eq_true ?_⟩
        rintro ⟨-, hle⟩
        exact absurd hle (by simp [maxAuthorizedEvents])

theorem publish_unchanged {c : Ctx} {a : PublishArgs}
    (h : accepted ((registry H).exec w (.publish a, c)).2 = none) :
    ((registry H).exec w (.publish a, c)).1.registry = w.registry := by
  rw [exec_publish]
  rw [registry_exec] at h
  cases hx : publishEvent H c a w.registry with
  | error e => rfl
  | ok r =>
    obtain ⟨g, p⟩ := r
    rcases publishEvent_ok hx with ⟨hg, -⟩ | ⟨hnew, -⟩
    · exact hg
    · simp [attempt, perform, hx, accepted, hnew] at h

theorem session_events_contiguous (H : Host) {w : World} (h : (registry H).Reachable w) :
    (∀ r ∈ w.registry.sessions, ∃ first n, n ≤ maxAuthorizedEvents ∧ first + n = r.latestSequence + 1 ∧
      (eventsOf r.key w.registry.events).map SessionEvent.sequence = List.range' first n) ∧
    (∀ e ∈ w.registry.events, ∃ r ∈ w.registry.sessions, r.key = e.key) ∧
    (∀ r ∈ w.registry.sessions,
      r.sessionSha256 = H.platform.stableSha256 (sessionPayload r)) ∧
    (∀ e ∈ w.registry.events, e.eventSha256 = H.platform.stableSha256 (eventPayload e)) ∧
    (∀ (a : PublishArgs) (c : Ctx),
      accepted ((registry H).exec w (.publish a, c)).2 = none →
      ((registry H).exec w (.publish a, c)).1.registry = w.registry) ∧
    ∀ (a : PublishArgs) (c : Ctx) (p : Published) (k : Key),
      accepted ((registry H).exec w (.publish a, c)).2 = some p → a.key c = some k →
      ∀ tr w', ((registry H).restrict (Spares H k)).Run ((registry H).exec w (.publish a, c)).1 tr w' →
      (∀ r ∈ w'.registry.sessions, r.key = k →
        r.latestSequence < p.sequence + maxAuthorizedEvents) →
      ∀ (b : PublishArgs) (c' : Ctx), b.key c' = some k → strip b.eventId = strip a.eventId →
        ((registry H).exec w' (.publish b, c')).1.registry = w'.registry := by
  have hrec := recorded_reachable h
  refine ⟨fun r hr => ?_, fun e he => ?_, hrec.sealed, hrec.events_sealed,
    fun a c hx => publish_unchanged hx, ?_⟩
  · refine ⟨_, _, Nat.min_le_right _ _, ?_, (hrec.window r hr).trans
      (Window.held_eq_range' (by decide) r.latestSequence)⟩
    omega
  · obtain ⟨r, hr, hk⟩ := List.mem_map.mp (hrec.owned e he)
    exact ⟨r, hr, hk⟩
  · intro a c p k hp hk tr w' hrun hrecent b c' hb hid
    have hstart := remembered_published hp hk
    obtain ⟨r, hr, hrk, hheld⟩ := remembered_run hrun hrec.step hstart
    obtain ⟨e, he, hek, hide, -⟩ := hheld.resolve_left (Nat.not_le.mpr (hrecent r hr hrk))
    rw [exec_publish]
    cases hx : publishEvent H c' b w'.registry with
    | error e => rfl
    | ok q =>
      obtain ⟨g, p'⟩ := q
      obtain ⟨e', he'⟩ : ∃ e', w'.registry.eventOf k (strip b.eventId) = some e' := by
        cases hf : w'.registry.eventOf k (strip b.eventId) with
        | some e' => exact ⟨e', rfl⟩
        | none =>
          have hno := List.find?_eq_none.mp hf e he
          simp [hek, hide, hid] at hno
      exact publishEvent_replay hx hb he'

end Runs

instance (H : Host) (k : Key) (w : World) : (i : Request × Ctx) → Decidable (Spares H k w i)
  | (.connect a, c) => inferInstanceAs (Decidable
      (∀ k', a.key c = some k' → w.registry.session? k' = none →
        k ∉ (w.registry.victims H c.self.scope c.clock.entry).map SessionRow.key))
  | (.publish _, _) | (.close _, _) | (.bridge _, _) => inferInstanceAs (Decidable True)

def connectedWorld (H : Host) : World :=
  ((registry H).play seatedWorld [asWorker 1 (sampleConnect "first" "lab")]).1

def firstEvent : PublishArgs :=
  { sourceType := "authorized-terminal", sourceSessionId := "first", eventId := "e1",
    text := "hello" }

def publishedWorld (H : Host) : World :=
  ((registry H).exec (connectedWorld H) (.publish firstEvent, workerCtx 2)).1

def firstSession : Key := ("demo", .terminal, "first")

def laterCalls : List (Request × Ctx) :=
  [asWorker 3 (samplePublish "first" "e2"), asWorker 4 (sampleConnect "second")]

theorem session_events_contiguous_retried :
    let w := (((registry fullHost).restrict (Spares fullHost firstSession)).play
      (publishedWorld fullHost) laterCalls).1
    ((registry fullHost).exec w (.publish firstEvent, workerCtx 5)).1.registry = w.registry ∧
      w.registry.events.map SessionEvent.sequence = [1, 2] := by
  intro w
  have hchecked : (registry fullHost).AdmitsAll seatedWorld
        [asWorker 1 (sampleConnect "first" "lab")] ∧
      (accepted ((registry fullHost).exec (connectedWorld fullHost)
        (.publish firstEvent, workerCtx 2)).2).map Published.sequence = some 1 ∧
      ((registry fullHost).restrict (Spares fullHost firstSession)).AdmitsAll
        (publishedWorld fullHost) laterCalls ∧
      (∀ r ∈ w.registry.sessions, r.latestSequence < 1 + maxAuthorizedEvents) ∧
      w.registry.events.map SessionEvent.sequence = [1, 2] ∧
      firstEvent.key (workerCtx 2) = some firstSession ∧
      firstEvent.key (workerCtx 5) = some firstSession := by
    decide +kernel
  obtain ⟨hopen, hanswer, hlater, hlatest, hevents, hkey, hkey'⟩ := hchecked
  have hreach : (registry fullHost).Reachable (connectedWorld fullHost) :=
    ⟨seatedWorld, _, ⟨rfl, rfl⟩, Machine.run_play seatedWorld _ hopen⟩
  have hrun := Machine.run_play _ laterCalls hlater
  obtain ⟨-, -, -, -, -, hretry⟩ := session_events_contiguous fullHost hreach
  obtain ⟨p, hp, hsequence⟩ := Option.map_eq_some_iff.mp hanswer
  have hrecent : ∀ r ∈ w.registry.sessions, r.key = firstSession →
      r.latestSequence < p.sequence + maxAuthorizedEvents := by
    intro r hr _
    rw [hsequence]
    exact hlatest r hr
  have hsame := hretry firstEvent (workerCtx 2) p firstSession hp hkey _ w hrun hrecent
    firstEvent (workerCtx 5) hkey' rfl
  exact ⟨hsame, hevents⟩

def singleHost : Host := sampleHost 1 (by decide)

-- retention makes room for the second session, then the first one comes back
def comeback : List (Request × Ctx) :=
  [asWorker 3 (sampleClose "first"), asWorker 4 (sampleConnect "second"),
   asWorker 5 (sampleClose "second"), asWorker 6 (sampleConnect "first" "lab")]

theorem pruned_event_published_again :
    ¬ ∀ (H : Host) (w : World) (a : PublishArgs) (c : Ctx) (p : Published),
      (registry H).Reachable w → accepted ((registry H).exec w (.publish a, c)).2 = some p →
      ∀ tr w', (registry H).Run ((registry H).exec w (.publish a, c)).1 tr w' →
      ∀ c', a.key c' = a.key c →
        ((registry H).exec w' (.publish a, c')).1.registry.events = w'.registry.events := by
  intro h
  have hchecked : (registry singleHost).AdmitsAll seatedWorld
        [asWorker 1 (sampleConnect "first" "lab")] ∧
      (accepted ((registry singleHost).exec (connectedWorld singleHost)
        (.publish firstEvent, workerCtx 2)).2).isSome = true ∧
      (registry singleHost).AdmitsAll (publishedWorld singleHost) comeback ∧
      ((registry singleHost).play (publishedWorld singleHost) comeback).1.registry.events.length =
        0 ∧
      ((registry singleHost).exec ((registry singleHost).play (publishedWorld singleHost)
        comeback).1 (.publish firstEvent, workerCtx 7)).1.registry.events.length = 1 := by
    decide +kernel
  obtain ⟨hopen, hanswer, hback, hlengths⟩ := hchecked
  have hreach : (registry singleHost).Reachable (connectedWorld singleHost) :=
    ⟨seatedWorld, _, ⟨rfl, rfl⟩, Machine.run_play seatedWorld _ hopen⟩
  obtain ⟨p, hp⟩ := Option.isSome_iff_exists.mp hanswer
  have hsame := h singleHost _ firstEvent _ p hreach hp _ _
    (Machine.run_play (publishedWorld singleHost) comeback hback) (workerCtx 7) rfl
  revert hlengths hsame
  generalize ((registry singleHost).play (publishedWorld singleHost) comeback).1 = w'
  rintro ⟨hbefore, hafter⟩ hsame
  rw [hsame, hbefore] at hafter
  cases hafter

end PeerBridge.AuthorizedSessions
