import PeerBridge.Writes
import PeerBridge.Scenario

namespace PeerBridge
open Checked Rows

-- the request a message carries when it fills the fields the profile leaves open
def RouteProfileRow.request (P : Platform) (p : RouteProfileRow)
    (provider model reasoning : Option String) : RouteRequest :=
  sealRequest P
    { routeProfileId := some p.routeId, targetAgentId := p.agentId,
      requestedProviderId := p.providerId.or provider, requestedModelId := p.modelId.or model,
      requestedReasoningMode := p.reasoningMode.or reasoning,
      requestedRouteClass := some p.routeClass,
      routeProfileSha256 := some (some p.profileSha256), routeRequestSha256 := none }

structure RouteProfileRow.Identity (p : RouteProfileRow) (b : Bridge) : Prop where
  scope_eq : b.scope = p.scope
  agentId_eq : b.agentId = p.agentId
  providerId_eq : b.providerId = p.providerId
  modelId_eq : b.modelId = p.modelId
  reasoningMode_eq : b.reasoningMode = p.reasoningMode
  routeClass_eq : b.routeClass = some p.routeClass

-- an identity may name what the profile leaves open
structure RouteProfileRow.Fits (p : RouteProfileRow) (b : Bridge) : Prop where
  scope_eq : b.scope = p.scope
  agentId_eq : b.agentId = p.agentId
  providerId_eq : ∀ v ∈ p.providerId, b.providerId = some v
  modelId_eq : ∀ v ∈ p.modelId, b.modelId = some v
  reasoningMode_eq : ∀ v ∈ p.reasoningMode, b.reasoningMode = some v
  routeClass_eq : b.routeClass = some p.routeClass

theorem RouteProfileRow.Identity.fits {p : RouteProfileRow} {b : Bridge} (h : p.Identity b) :
    p.Fits b :=
  ⟨h.scope_eq, h.agentId_eq, fun _ hv => h.providerId_eq.trans hv,
    fun _ hv => h.modelId_eq.trans hv, fun _ hv => h.reasoningMode_eq.trans hv, h.routeClass_eq⟩

section Texts
variable {t v : String} {o : Option String}

theorem isSafeIdChar_not_space {c : Char} (h : isSafeIdChar c = true) : isSpace c = false := by
  have hrange : (45 ≤ c.toNat ∧ c.toNat ≤ 122) := by
    simp only [isSafeIdChar, Bool.or_eq_true, decide_eq_true_eq, isAlphanum_iff] at h
    rcases h with (((h | rfl) | rfl) | rfl) | rfl
    · omega
    all_goals decide
  simp only [isSpace, Bool.or_eq_false_iff, Bool.and_eq_false_iff, decide_eq_false_iff_not]
  omega

theorem strip_safe (h : isSafeId t = true) : strip t = t := by
  simp only [isSafeId, Bool.and_eq_true, List.all_eq_true] at h
  rw [strip, stripChars_plain (fun c hc => isSafeIdChar_not_space (h.1.1 c hc)),
    String.ofList_toList]

theorem isIdentifier_ne (h : isIdentifier t = true) : t ≠ "" := by
  rintro rfl
  simp [isIdentifier, isSafeId] at h

theorem isSafeModelId_ne (h : isSafeModelId t = true) : t ≠ "" := by
  rintro rfl
  simp [isSafeModelId] at h

theorem optionalIdentifier_of {label : String} (h : o.all isIdentifier = true) :
    optionalIdentifier (o.getD "") label = .ok o := by
  cases o with
  | none => rfl
  | some v =>
    have hv : isIdentifier v = true := h
    have hs : isSafeId v = true := by
      simp only [isIdentifier, Bool.and_eq_true] at hv
      exact hv.1.1
    simp [optionalIdentifier, requireIdentifier, strip_safe hs, isIdentifier_ne hv, hv, bind,
      Except.bind, require, pure, Except.pure, Functor.map, Except.map]

theorem optionalRouteClass_of (cls : RouteClass) (label : String) :
    optionalRouteClass (((some cls).map RouteClass.text).getD "") label = .ok (some cls) := by
  cases cls <;> rfl

end Texts

section Requests
variable {P : Platform} {scope recipient id : String} {r : Rooms} {p : RouteProfileRow}
  {q : RouteRequest}

theorem truthy_some {v : String} (h : v ≠ "") : truthy (some v) = true := by simp [truthy, h]

theorem mergeRequested_ok {label : String} {requested profile v : Option String}
    (hr : requested ≠ some "") (hp : profile ≠ some "")
    (h : mergeRequested id label requested profile = .ok v) : v = profile.or requested := by
  simp only [mergeRequested, bind_eq_ok, require_eq_ok, pure_eq_ok] at h
  obtain ⟨-, hc, rfl⟩ := h
  cases requested with
  | none => cases profile <;> simp [orElse, truthy]
  | some a =>
    have ha : a ≠ "" := by simpa using hr
    cases profile with
    | none => simp [orElse, truthy, ha]
    | some b =>
      have hb : b ≠ "" := by simpa using hp
      simpa [orElse, truthy, ha, hb] using hc

theorem mergeRequested_of {label : String} {requested profile : Option String}
    (hr : requested ≠ some "") (hp : profile ≠ some "") :
    mergeRequested id label (profile.or requested) profile = .ok (profile.or requested) := by
  cases profile with
  | none =>
    cases requested with
    | none => rfl
    | some a =>
      have ha : a ≠ "" := by simpa using hr
      simp [mergeRequested, orElse, truthy, ha, bind, Except.bind, require, pure, Except.pure]
  | some b =>
    have hb : b ≠ "" := by simpa using hp
    simp [mergeRequested, orElse, truthy, hb, bind, Except.bind, require, pure, Except.pure]

theorem mergeRequestedClass_ok {requested v : Option RouteClass} {cls : RouteClass}
    (h : mergeRequestedClass id requested cls = .ok v) : v = some cls := by
  simp only [mergeRequestedClass, bind_eq_ok, require_eq_ok, pure_eq_ok] at h
  obtain ⟨-, hc, rfl⟩ := h
  cases requested <;> simp_all

theorem all_ne {f : String → Bool} (hf : f "" = false) {o : Option String} (h : o.all f = true) :
    o ≠ some "" := by
  rintro rfl
  simp [hf] at h

theorem verifiedRouteProfileSha256_ok {sha : Sha256}
    (h : verifiedRouteProfileSha256 P p = .ok sha) : sha = p.profileSha256 := by
  simp only [verifiedRouteProfileSha256, bind_eq_ok, pure_eq_ok] at h
  obtain ⟨-, -, rfl⟩ := h
  rfl

theorem RouteProfileRow.Accepted.verified (h : p.Accepted P) :
    verifiedRouteProfileSha256 P p = .ok p.profileSha256 := by
  simp [verifiedRouteProfileSha256, ← h.sealed, bind, Except.bind, require, pure, Except.pure]

theorem resolveRouteRequest_routed {args : RouteArgs}
    (hr : ∀ p ∈ r.routeProfiles, p.Accepted P) (hid : q.routeProfileId = some id)
    (h : resolveRouteRequest P scope recipient args r = .ok (some q)) :
    ∃ p provider model reasoning, r.enabledProfile? scope id = some p ∧ recipient = p.agentId ∧
      provider.all isIdentifier = true ∧ model.all isIdentifier = true ∧
      reasoning.all isIdentifier = true ∧ q = p.request P provider model reasoning := by
  simp only [resolveRouteRequest, bind_eq_ok] at h
  obtain ⟨route, -, provider, hprovider, model, hmodel, reasoning, hreasoning, cls, -, h⟩ := h
  cases route with
  | none =>
    simp only at h
    split at h
    · simp at h
    · simp only [bind_eq_ok, pure_eq_ok, Option.some.injEq] at h
      obtain ⟨-, -, -, -, rfl⟩ := h
      cases hid
  | some routeId =>
    simp only [bind_eq_ok, require_eq_ok, demand_eq_ok, pure_eq_ok, Option.some.injEq] at h
    obtain ⟨p, hp, sha, hsha, -, rfl, a, ha, b, hb, e, he, k, hk, -, -, rfl⟩ := h
    obtain rfl : routeId = id := Option.some.inj hid
    have hrow : r.profile? scope routeId = some p := (Option.filter_eq_some_iff.mp hp).1
    have hacc := hr p (lookup_mem hrow)
    have hkey := lookup_key hrow
    obtain rfl := verifiedRouteProfileSha256_ok hsha
    have h1 := optionalIdentifier_ok hprovider
    have h2 := optionalIdentifier_ok hmodel
    have h3 := optionalIdentifier_ok hreasoning
    obtain rfl := mergeRequested_ok (all_ne (by decide) h1)
      (all_ne (by decide) hacc.providerId_safe) ha
    obtain rfl := mergeRequested_ok (all_ne (by decide) h2)
      (all_ne (by decide) hacc.modelId_safe) hb
    obtain rfl := mergeRequested_ok (all_ne (by decide) h3)
      (all_ne (by decide) hacc.reasoningMode_safe) he
    obtain rfl := mergeRequestedClass_ok hk
    refine ⟨p, provider, model, reasoning, hp, rfl, h1, h2, h3, ?_⟩
    rw [RouteProfileRow.request, (Prod.mk.inj hkey).2]

variable {x : MessageRow} {provider model reasoning : Option String}

theorem or_all {f : String → Bool} {a b : Option String} (ha : a.all f = true)
    (hb : b.all f = true) : (a.or b).all f = true := by
  cases a with
  | none => exact hb
  | some v => exact ha

-- the stored request resolves to itself again
theorem resolveRouteRequest_stored (hacc : p.Accepted P)
    (hp : r.enabledProfile? x.scope p.routeId = some p)
    (hx : routeRequestFromRow x = some (p.request P provider model reasoning))
    (h1 : provider.all isIdentifier = true) (h2 : (p.modelId.or model).all isIdentifier = true)
    (h3 : reasoning.all isIdentifier = true) :
    resolveRouteRequest P x.scope x.recipient x.routeArgs r =
      .ok (some (p.request P provider model reasoning)) := by
  obtain ⟨hagent, hroute, -, hprovider, hmodel, hreasoning, hclass, -⟩ := routeRequestFromRow_some hx
  simp only [RouteProfileRow.request, sealRequest] at hagent hroute hprovider hmodel hreasoning hclass
  have hstar : p.agentId ≠ "*" := by
    intro hs
    have hsafe := hacc.agentId_safe
    rw [hs, star_unsafe] at hsafe
    cases hsafe
  have hid : optionalIdentifier ((some p.routeId).getD "") "route_profile_id" =
      .ok (some p.routeId) := optionalIdentifier_of hacc.routeId_safe
  have hmerge : mergeRequested p.routeId "model_id" (p.modelId.or model) p.modelId =
      .ok (p.modelId.or model) := by
    cases hm : p.modelId with
    | none =>
      rw [hm] at h2
      exact @mergeRequested_of _ _ _ none (all_ne (by decide) h2) (by simp)
    | some v =>
      have hsafe := hacc.modelId_safe
      rw [hm] at hsafe
      exact @mergeRequested_of _ _ none _ (by simp) (all_ne (by decide) hsafe)
  simp only [resolveRouteRequest, MessageRow.routeArgs, ← hagent, ← hroute, ← hprovider, ← hmodel,
    ← hreasoning, ← hclass]
  rw [hid, optionalIdentifier_of (or_all hacc.providerId_safe h1), optionalIdentifier_of h2,
    optionalIdentifier_of (or_all hacc.reasoningMode_safe h3), optionalRouteClass_of]
  simp [bind, Except.bind, require, demand, hp, hacc.verified, hstar, hmerge,
    mergeRequested_of (all_ne (by decide) h1) (all_ne (by decide) hacc.providerId_safe),
    mergeRequested_of (all_ne (by decide) h3) (all_ne (by decide) hacc.reasoningMode_safe),
    mergeRequestedClass, pure, Except.pure, RouteProfileRow.request]

theorem note_nil {b : Bool} {label : String} : note b label = [] ↔ b = false := by
  cases b <;> simp [note]

theorem requested_note {o observed : Option String} (ho : o ≠ some "") :
    (truthy o && o ≠ observed) = false ↔ ∀ v ∈ o, observed = some v := by
  cases o with
  | none => simp [truthy]
  | some v =>
    have hv : v ≠ "" := by simpa using ho
    rw [truthy_some hv, Bool.true_and, decide_eq_false_iff_not, not_not]
    constructor
    · rintro h u hu
      rw [← h, Option.mem_some_iff.mp hu]
    · exact fun h => (h v rfl).symm

theorem RouteRequest.mismatches_nil {b : Bridge} {consumer : String}
    (hp : q.requestedProviderId ≠ some "") (hm : q.requestedModelId ≠ some "")
    (hr : q.requestedReasoningMode ≠ some "") (hid : truthy q.routeProfileId = true) :
    q.mismatches P b consumer r = [] ↔
      (consumer = b.agentId ∧ q.targetAgentId = b.agentId) ∧
        q.routeRequestSha256 = some (P.stableSha256 q.content) ∧
        profileIdentityMatches P b.scope (q.routeProfileId.getD "")
          (q.routeProfileSha256.getD none) r = true ∧
        ((q.requestedRouteClass.isSome = true ∧ b.routeClass.isSome = true) ∧
          q.requestedRouteClass = b.routeClass) ∧
        (∀ v ∈ q.requestedProviderId, b.providerId = some v) ∧
        (∀ v ∈ q.requestedModelId, b.modelId = some v) ∧
        ∀ v ∈ q.requestedReasoningMode, b.reasoningMode = some v := by
  rw [← requested_note hp, ← requested_note hm, ← requested_note hr]
  simp [RouteRequest.mismatches, note_nil, hid, and_assoc]

theorem evaluateRoute_verified {b : Bridge} (hacc : p.Accepted P)
    (hp : r.enabledProfile? p.scope p.routeId = some p)
    (hx : routeRequestFromRow x = some (p.request P provider model reasoning))
    (h1 : provider.all isIdentifier = true) (h2 : model.all isIdentifier = true)
    (h3 : reasoning.all isIdentifier = true) (hs : b.scope = p.scope)
    (ha : b.agentId = p.agentId) (hc : b.routeClass = some p.routeClass) :
    (evaluateRoute P b b.agentId r x).status = .verified ↔
      (∀ v ∈ p.providerId.or provider, b.providerId = some v) ∧
        (∀ v ∈ p.modelId.or model, b.modelId = some v) ∧
        ∀ v ∈ p.reasoningMode.or reasoning, b.reasoningMode = some v := by
  have hempty : isIdentifier "" = false := by decide
  have hprovider := all_ne hempty (or_all hacc.providerId_safe h1)
  have hreasoning := all_ne hempty (or_all hacc.reasoningMode_safe h3)
  have hmodel : p.modelId.or model ≠ some "" := by
    cases hm : p.modelId with
    | none => exact all_ne hempty h2
    | some v =>
      have hsafe := hacc.modelId_safe
      rw [hm] at hsafe
      exact all_ne (by decide) hsafe
  have hprofile : profileIdentityMatches P p.scope p.routeId (some p.profileSha256) r = true := by
    simp [profileIdentityMatches, hp, hacc.verified]
  have hroute : truthy (some p.routeId) = true := truthy_some (isIdentifier_ne hacc.routeId_safe)
  have hstatus : (evaluateRoute P b b.agentId r x).status = .verified ↔
      (p.request P provider model reasoning).mismatches P b b.agentId r = [] := by
    simp only [evaluateRoute, hx]
    split <;> simp_all
  rw [hstatus, RouteRequest.mismatches_nil hprovider hmodel hreasoning hroute]
  simp [RouteProfileRow.request, sealRequest, hs, ha, hc, hprofile, RouteRequest.content]

theorem routeRequestFromRow_resolved {d : Draft} {args : RouteArgs} {t : String} {n : Nat}
    (h : resolveRouteRequest P scope d.recipient args r = .ok (some q)) (hd : d.request = some q) :
    routeRequestFromRow (d.row P scope t n) = some q := by
  simp only [resolveRouteRequest, bind_eq_ok] at h
  obtain ⟨route, hroute, provider, -, model, -, reasoning, -, cls, -, h⟩ := h
  cases route with
  | some routeId =>
    have hne : routeId ≠ "" := isIdentifier_ne (by simpa using optionalIdentifier_ok hroute)
    simp only [bind_eq_ok, pure_eq_ok, Option.some.injEq] at h
    obtain ⟨row, -, sha, -, -, -, a, -, b, -, e, -, k, -, -, -, rfl⟩ := h
    simp [routeRequestFromRow, Draft.row, hd, sealRequest, truthy, hne, RouteRequest.content]
  | none =>
    simp only at h
    split at h
    · simp at h
    · simp only [bind_eq_ok, pure_eq_ok, Option.some.injEq] at h
      obtain ⟨-, -, -, -, rfl⟩ := h
      simp [routeRequestFromRow, Draft.row, hd, sealRequest, truthy, RouteRequest.content]

theorem enabledProfile?_grow {r' : Rooms} (h : Registers P r r')
    (hp : r.enabledProfile? scope id = some p) : r'.enabledProfile? scope id = some p := by
  cases h with
  | same h =>
    rw [Rooms.enabledProfile?, Rooms.profile?, h]
    exact hp
  | added row _ _ h =>
    obtain ⟨hrow, hon⟩ := Option.filter_eq_some_iff.mp hp
    rw [Rooms.enabledProfile?, Rooms.profile?, h, lookup_append, ← Rooms.profile?, hrow]
    exact Option.filter_eq_some_iff.mpr ⟨rfl, hon⟩

theorem resolveRouteRequest_grow {r' : Rooms} {args : RouteArgs} (h : Registers P r r')
    (hq : resolveRouteRequest P scope recipient args r = .ok (some q)) :
    resolveRouteRequest P scope recipient args r' = .ok (some q) := by
  simp only [resolveRouteRequest, bind_eq_ok] at hq ⊢
  obtain ⟨route, hroute, provider, hprovider, model, hmodel, reasoning, hreasoning, cls, hcls, hq⟩
    := hq
  refine ⟨route, hroute, provider, hprovider, model, hmodel, reasoning, hreasoning, cls, hcls, ?_⟩
  cases route with
  | none => exact hq
  | some routeId =>
    simp only [bind_eq_ok, demand_eq_ok] at hq ⊢
    obtain ⟨p, hp, hrest⟩ := hq
    exact ⟨p, enabledProfile?_grow h hp, hrest⟩

end Requests

structure Store.Routed (P : Platform) (s : Store) : Prop where
  profiles : ∀ p ∈ s.rooms.routeProfiles, p.Accepted P
  requests : ∀ x ∈ s.mail.messages, ∀ q, routeRequestFromRow x = some q →
    ∃ args, resolveRouteRequest P x.scope x.recipient args s.rooms = .ok (some q)

section Runs
variable {P : Platform} {c : Ctx} {E : Entry → Bool} {s s' : Store}

theorem Store.Routed.congr (h : s.Routed P) (hm : s'.mail.messages = s.mail.messages)
    (hr : s'.rooms = s.rooms) : s'.Routed P := by
  refine ⟨hr ▸ h.profiles, ?_⟩
  rw [hm, hr]
  exact h.requests

theorem Store.Routed.insert {ds : List Draft} {rows : List MessageRow} (h : s.Routed P)
    (hd : ∀ d ∈ ds, d.Resolved P c.self.scope s.rooms) (hi : Inserted P c ds rows s.mail s'.mail)
    (hr : s'.rooms = s.rooms) : s'.Routed P := by
  refine ⟨hr ▸ h.profiles, fun x hx q hq => ?_⟩
  rw [hr]
  rw [hi.mail_eq] at hx
  rcases List.mem_append.mp hx with hx | hx
  · exact h.requests x hx q hq
  · rw [hi.rows_eq] at hx
    obtain ⟨d, hdm, k, -, -, rfl⟩ := mem_draftRows hx
    cases hreq : d.request with
    | none => simp [routeRequestFromRow, Draft.row, hreq, truthy] at hq
    | some z =>
      obtain ⟨args, hz⟩ := hd d hdm z hreq
      rw [routeRequestFromRow_resolved hz hreq] at hq
      exact ⟨args, Option.some.inj hq ▸ hz⟩

theorem Store.Routed.register {r : Rooms} (h : s.Routed P) (hr : Registers P s.rooms r) :
    (s.withRooms r).Routed P := by
  refine ⟨fun p hp => ?_, fun x hx q hq => ?_⟩
  · cases hr with
    | same he =>
      rw [Store.withRooms_rooms, he] at hp
      exact h.profiles p hp
    | added row ha _ he =>
      rw [Store.withRooms_rooms, he] at hp
      rcases List.mem_append.mp hp with hp | hp
      · exact h.profiles p hp
      · rw [List.mem_singleton.mp hp]
        exact ha
  · obtain ⟨args, hz⟩ := h.requests x hx q hq
    exact ⟨args, resolveRouteRequest_grow hr hz⟩

theorem Write.routed (hw : Write P c E s s') (h : s.Routed P) : s'.Routed P := by
  cases hw with
  | event _ he =>
    obtain ⟨hm, hr, -⟩ := Store.event_frame he
    exact h.congr (by rw [hm]) hr
  | insert hd hi =>
    obtain ⟨hin, hr, -⟩ := insertReserved_ok hi
    exact h.insert (by simpa using hd) hin hr
  | fanout hd hs hi =>
    obtain ⟨hm, hr, -⟩ := Store.reserve_frame hs
    obtain ⟨hin, hr', -⟩ := insertAll_ok hi
    exact h.insert hd (hm ▸ hin) (hr'.trans hr)
  | receipt x => exact h.congr (Mail.ignoreReceipt_messages _ _) rfl
  | advance roomId now => exact h.congr rfl rfl
  | acknowledge roomId now => exact h.congr rfl rfl
  | mail hm => exact h.congr hm rfl
  | rooms r hr => exact h.register hr
  | routeReceipt | trusted | ledger => exact h.congr rfl rfl

theorem Writes.routed (hw : Writes P c E s s') (h : s.Routed P) : s'.Routed P := by
  induction hw with
  | refl => exact h
  | tail _ hw ih => exact hw.routed ih

theorem attempt_routed {w : World} (i : Call × Ctx) (h : w.store.Routed P) :
    (attempt P w i).1.store.Routed P := by
  unfold attempt
  split
  · rename_i s' r hp
    rcases perform_writes hp with ⟨-, rfl⟩ | hw
    · exact (h.register (r := (initDb P i.2 w.store).rooms) (.same rfl)).congr rfl rfl
    · exact hw.routed h
  · exact h

theorem reachable_routed {w : World} (h : (mailbox P).Reachable w) : w.store.Routed P := by
  refine h.invariant (fun w => w.store.Routed P) ?_ fun w i hw _ => attempt_routed i hw
  rintro w ⟨connections, now, rfl⟩
  exact ⟨fun p hp => (by cases hp), fun x hx => (by cases hx)⟩

theorem or_own {a o : Option String} : (∀ v ∈ a.or o, a = some v) ↔ a.or o = a := by
  cases a with
  | none => cases o <;> simp
  | some u => simp

theorem or_fits {a o b : Option String} (h : ∀ v ∈ a.or o, b = some v) : ∀ v ∈ a, b = some v := by
  rintro v rfl
  exact h v rfl

-- the identity that names the three fields as given
def RouteProfileRow.Accepted.bridge {p : RouteProfileRow} (h : p.Accepted P)
    {provider model reasoning : Option String} (h1 : provider.all isIdentifier = true)
    (h2 : model.all isIdentifier = true) (h3 : reasoning.all isIdentifier = true) : Bridge :=
  { agentId := p.agentId, scope := p.scope, sessionId := "session", clientName := none,
    providerId := provider, modelId := model, reasoningMode := reasoning,
    routeClass := some p.routeClass, discussionCoordinator := false,
    agentId_safe := h.agentId_safe, scope_safe := h.scope_safe,
    sessionId_safe := isIdentifier_session, providerId_safe := h1,
    modelId_safe := h2, reasoningMode_safe := h3 }

theorem routed_row {w : World} (h : (mailbox P).Reachable w) {x : MessageRow}
    (hx : x ∈ w.store.mail.messages) {id : String} {p : RouteProfileRow}
    (hroute : x.routeProfileId = some id)
    (hp : w.store.rooms.enabledProfile? x.scope id = some p) :
    p.Accepted P ∧ x.scope = p.scope ∧ id = p.routeId ∧ ∃ provider model reasoning,
      provider.all isIdentifier = true ∧ model.all isIdentifier = true ∧
        reasoning.all isIdentifier = true ∧
        routeRequestFromRow x = some (p.request P provider model reasoning) := by
  have hw := reachable_routed h
  have hrow : w.store.rooms.profile? x.scope id = some p := (Option.filter_eq_some_iff.mp hp).1
  have hacc := hw.profiles p (lookup_mem hrow)
  have hkeys := lookup_key hrow
  obtain ⟨hscope, rfl⟩ := Prod.mk.inj hkeys
  have hkey : truthy x.routeProfileId = true := by
    rw [hroute]
    exact truthy_some (isIdentifier_ne hacc.routeId_safe)
  obtain ⟨q, hq⟩ : ∃ q, routeRequestFromRow x = some q := by
    simp [routeRequestFromRow, hkey]
  obtain ⟨args, hargs⟩ := hw.requests x hx q hq
  obtain ⟨-, hid, -⟩ := routeRequestFromRow_some hq
  obtain ⟨p', provider, model, reasoning, hp', -, h1, h2, h3, rfl⟩ :=
    resolveRouteRequest_routed hw.profiles (hid.trans hroute) hargs
  obtain rfl : p = p' := Option.some.inj (hp.symm.trans hp')
  exact ⟨hacc, hscope.symm, rfl, provider, model, reasoning, h1, h2, h3, hq⟩

theorem accepted_routes_runnable {w : World} (h : (mailbox P).Reachable w) {x : MessageRow}
    (hx : x ∈ w.store.mail.messages) {id : String} {p : RouteProfileRow}
    (hroute : x.routeProfileId = some id)
    (hp : w.store.rooms.enabledProfile? x.scope id = some p) :
    ((resolveRouteRequest P x.scope x.recipient x.routeArgs w.store.rooms =
          .ok (routeRequestFromRow x) ∧
        ∃ b, p.Identity b ∧ (evaluateRoute P b b.agentId w.store.rooms x).status = .verified) ↔
      p.modelId.all isIdentifier = true ∧ x.requestedProviderId = p.providerId ∧
        x.requestedModelId = p.modelId ∧ x.requestedReasoningMode = p.reasoningMode) ∧
    ((resolveRouteRequest P x.scope x.recipient x.routeArgs w.store.rooms =
          .ok (routeRequestFromRow x) ∧
        ∃ b, p.Fits b ∧ (evaluateRoute P b b.agentId w.store.rooms x).status = .verified) ↔
      p.modelId.all isIdentifier = true) := by
  obtain ⟨hacc, hscope, rfl, provider, model, reasoning, h1, h2, h3, hq⟩ := routed_row h hx hroute hp
  obtain ⟨-, -, -, hprovider, hmodel, hreasoning, -, -⟩ := routeRequestFromRow_some hq
  change p.providerId.or provider = _ at hprovider
  change p.modelId.or model = _ at hmodel
  change p.reasoningMode.or reasoning = _ at hreasoning
  rw [← hprovider, ← hmodel, ← hreasoning]
  have hstored (hm : p.modelId.all isIdentifier = true) :
      resolveRouteRequest P x.scope x.recipient x.routeArgs w.store.rooms =
        .ok (routeRequestFromRow x) := by
    rw [hq]
    exact resolveRouteRequest_stored hacc hp hq h1 (or_all hm h2) h3
  rw [hscope] at hp
  have heval (b : Bridge) := evaluateRoute_verified (b := b) hacc hp hq h1 h2 h3
  have hsafe {b : Bridge} (hb : p.Fits b) : p.modelId.all isIdentifier = true := by
    have hown := b.modelId_safe
    cases hm : p.modelId with
    | none => rfl
    | some v =>
      rw [hb.modelId_eq v hm] at hown
      exact hown
  refine ⟨⟨?_, ?_⟩, ⟨?_, ?_⟩⟩
  · rintro ⟨-, b, hb, hverified⟩
    rw [heval b hb.scope_eq hb.agentId_eq hb.routeClass_eq, hb.providerId_eq, hb.modelId_eq,
      hb.reasoningMode_eq, or_own, or_own, or_own] at hverified
    exact ⟨hsafe hb.fits, hverified⟩
  · rintro ⟨hm, hown⟩
    refine ⟨hstored hm, hacc.bridge hacc.providerId_safe hm hacc.reasoningMode_safe,
      ⟨rfl, rfl, rfl, rfl, rfl, rfl⟩, ?_⟩
    rw [heval _ rfl rfl rfl]
    simp only [RouteProfileRow.Accepted.bridge, or_own]
    exact hown
  · rintro ⟨-, b, hb, -⟩
    exact hsafe hb
  · intro hm
    refine ⟨hstored hm, hacc.bridge (or_all hacc.providerId_safe h1) (or_all hm h2)
      (or_all hacc.reasoningMode_safe h3), ⟨rfl, rfl, or_fits fun _ hv => hv, or_fits fun _ hv => hv,
      or_fits fun _ hv => hv, rfl⟩, ?_⟩
    rw [heval _ rfl rfl rfl]
    exact ⟨fun _ hv => hv, fun _ hv => hv, fun _ hv => hv⟩

end Runs

def routedThrough (modelId : String) : List (Call × Ctx) :=
  asHuman 1 [.openScope,
    .upsertRouteProfile { routeId := "route", agentId := "a", providerId := "provider", modelId },
    .sendMessage { recipient := "a", taskId := "t", subject := "s", body := "hello",
                   route := { routeProfileId := "route" } }]

def World.routes (P : Platform) (w : World) (resolved : Bool) : Bool :=
  w.store.mail.messages.any fun x =>
    x.routeProfileId = some "route" &&
    (resolveRouteRequest P x.scope x.recipient x.routeArgs w.store.rooms).isOk = resolved &&
    (w.store.rooms.enabledProfile? x.scope "route").any (fun p =>
      p.modelId.all isIdentifier = resolved && x.requestedProviderId = p.providerId &&
      x.requestedModelId = p.modelId && x.requestedReasoningMode = p.reasoningMode)

set_option maxRecDepth 100000 in
theorem accepted_routes_runnable_sent :
    let w := ((mailbox samplePlatform).play sampleWorld (routedThrough "model")).1
    ∃ x ∈ w.store.mail.messages, ∃ p,
      w.store.rooms.enabledProfile? x.scope "route" = some p ∧
      resolveRouteRequest samplePlatform x.scope x.recipient x.routeArgs w.store.rooms =
        .ok (routeRequestFromRow x) ∧
      ∃ b, p.Identity b ∧
        (evaluateRoute samplePlatform b b.agentId w.store.rooms x).status = .verified := by
  intro w
  have hcheck : (mailbox samplePlatform).AdmitsAll sampleWorld (routedThrough "model") ∧
      w.routes samplePlatform true = true := by decide +kernel
  obtain ⟨hopen, hroutes⟩ := hcheck
  have hreach : (mailbox samplePlatform).Reachable w :=
    ⟨_, _, ⟨[], 0, rfl⟩, Machine.run_play _ _ hopen⟩
  generalize w = v at hreach hroutes
  obtain ⟨x, hx, hsent⟩ := List.any_eq_true.mp hroutes
  simp only [Bool.and_eq_true, decide_eq_true_eq] at hsent
  obtain ⟨⟨hroute, -⟩, hsent⟩ := hsent
  obtain ⟨p, hp, hown⟩ := (Option.any_eq_true _ _).mp hsent
  simp only [Bool.and_eq_true, decide_eq_true_eq] at hown
  obtain ⟨⟨⟨hm, h1⟩, h2⟩, h3⟩ := hown
  exact ⟨x, hx, p, hp, (accepted_routes_runnable hreach hx hroute hp).1.mpr ⟨hm, h1, h2, h3⟩⟩

set_option maxRecDepth 100000 in
theorem namespaced_model_not_runnable :
    let M := mailbox samplePlatform
    ¬ ∀ (w : World) (x : MessageRow) (p : RouteProfileRow), M.Reachable w →
      x ∈ w.store.mail.messages → x.routeProfileId = some "route" →
      w.store.rooms.enabledProfile? x.scope "route" = some p →
      resolveRouteRequest samplePlatform x.scope x.recipient x.routeArgs w.store.rooms =
        .ok (routeRequestFromRow x) ∧
      ∃ b, p.Fits b ∧
        (evaluateRoute samplePlatform b b.agentId w.store.rooms x).status = .verified := by
  intro M h
  have hcheck : M.AdmitsAll sampleWorld (routedThrough "vendor/model") ∧
      (M.play sampleWorld (routedThrough "vendor/model")).1.routes samplePlatform false = true := by
    decide +kernel
  obtain ⟨hopen, hroutes⟩ := hcheck
  have hreach : M.Reachable (M.play sampleWorld (routedThrough "vendor/model")).1 :=
    ⟨_, _, ⟨[], 0, rfl⟩, Machine.run_play _ _ hopen⟩
  generalize (M.play sampleWorld (routedThrough "vendor/model")).1 = w at hreach hroutes
  obtain ⟨x, hx, hsent⟩ := List.any_eq_true.mp hroutes
  simp only [Bool.and_eq_true, decide_eq_true_eq] at hsent
  obtain ⟨⟨hroute, hfails⟩, hsent⟩ := hsent
  obtain ⟨p, hp, -⟩ := (Option.any_eq_true _ _).mp hsent
  have hresolved := (h w x p hreach hx hroute hp).1
  rw [hresolved] at hfails
  cases hfails

end PeerBridge
