import PeerBridge.Writes
import PeerBridge.Scenario

namespace PeerBridge
open Checked Rows

def MessageRow.discussion (m : MessageRow) : Option (String × Nat × DiscussionRole) :=
  match m.discussionId, m.discussionRound, m.discussionRole with
  | some id, some n, some role => some (id, n, role)
  | _, _, _ => none

-- the record whose canonical text was reserved for a stored row
def MessageRow.content (m : MessageRow) : Json :=
  .obj ([("message_id", .str m.messageId), ("scope", .str m.scope), ("room_id", .str m.roomId),
    ("task_id", .str m.taskId), ("sender", .str m.sender), ("recipient", .str m.recipient),
    ("subject", .str m.subject), ("body", .str m.body), ("priority", .str m.priority),
    ("reply_to", .opt m.replyTo), ("artifact_paths", .strs m.artifactPaths),
    ("route_request", (routeRequestFromRow m).elim .null RouteRequest.contentBinding)] ++
    discussionFields m.namesDiscussion m.discussion ++
    [("visibility", .str m.visibility.text), ("created_utc", .utc m.createdUtc)])

def MessageRow.reserved (P : Platform) (m : MessageRow) : Nat := P.encodedBytes m.content

def Store.stored (P : Platform) (s : Store) (scope : String) : Tally :=
  { messageRows := (s.mail.ofScope scope).length,
    messageBytes := ((s.mail.ofScope scope).map (MessageRow.reserved P)).sum,
    eventRows := (s.audit.ofScope scope).length,
    eventBytes := ((s.audit.ofScope scope).map (fun e => P.encodedBytes e.payload)).sum }

def Tally.add (t d : Tally) : Tally :=
  { messageRows := t.messageRows + d.messageRows, messageBytes := t.messageBytes + d.messageBytes,
    eventRows := t.eventRows + d.eventRows, eventBytes := t.eventBytes + d.eventBytes }

@[simp] theorem Tally.add_zero (t : Tally) : t.add {} = t := rfl

-- the counters and the stored rows grow by the same amounts
structure Billed (P : Platform) (s s' : Store) : Prop where
  grows : ∀ scope, ∃ d : Tally, s'.audit.tally scope = (s.audit.tally scope).add d ∧
    s'.stored P scope = (s.stored P scope).add d
  capped : ∀ scope, (s'.audit.tally scope).messageBytes ≤ maxScopeMessageBytes ∨
    (s'.audit.tally scope).messageBytes = (s.audit.tally scope).messageBytes

section Content
variable {P : Platform}

theorem row_request {d : Draft} (h : d.Bound) (scope id : String) (k : Nat) :
    (routeRequestFromRow (d.row P scope id k)).elim .null RouteRequest.contentBinding =
      d.request.elim .null RouteRequest.contentBinding := by
  cases hq : d.request with
  | none => simp [routeRequestFromRow, Draft.row, hq, truthy]
  | some q =>
    obtain ⟨htarget, hsha⟩ := h q hq
    obtain ⟨sha, hsha⟩ := Option.isSome_iff_exists.mp hsha
    simp [routeRequestFromRow, Draft.row, hq, hsha, RouteRequest.contentBinding, htarget]

theorem row_content {d : Draft} (h : d.Bound) (scope id : String) (k : Nat) :
    (d.row P scope id k).content = d.content scope id := by
  have hdiscussion : (d.row P scope id k).discussion = d.discussion := by
    cases hd : d.discussion with
    | none => simp [MessageRow.discussion, Draft.row, hd]
    | some q => simp [MessageRow.discussion, Draft.row, hd]
  rw [MessageRow.content, Draft.content, row_request h, hdiscussion]
  rfl

theorem hexDigit_plain {c : Char} (h : isHexDigit c = true) :
    JsonText.escapeChar c = [c] ∧ c.utf8Size = 1 := by
  have hrange : 48 ≤ c.toNat ∧ c.toNat ≤ 102 ∧ c.toNat ≠ 92 := by
    simp only [isHexDigit, Bool.or_eq_true, Bool.and_eq_true, decide_eq_true_eq, Char.le_def,
      UInt32.le_iff_toNat_le] at h
    change (48 ≤ c.toNat ∧ c.toNat ≤ 57) ∨ (97 ≤ c.toNat ∧ c.toNat ≤ 102) at h
    omega
  have hne : ∀ e : Char, e.toNat < 48 ∨ e.toNat = 92 → c ≠ e := by
    rintro e he rfl
    omega
  constructor
  · rw [JsonText.escapeChar, if_neg (hne _ (by decide)), if_neg (hne _ (by decide)),
      if_neg (hne _ (by decide)), if_neg (hne _ (by decide)), if_neg (hne _ (by decide)),
      if_neg (hne _ (by decide)), if_neg (hne _ (by decide)), if_neg (by omega)]
  · have hle : c.val ≤ 0x7f := by
      rw [UInt32.le_iff_toNat_le]
      show c.toNat ≤ 127
      omega
    exact if_pos hle

theorem uuid_length {t : String} (h : isUuidHex t = true) :
    utf8Length (JsonText.quote t.toList) = 34 := by
  simp only [isUuidHex, Bool.and_eq_true, List.all_eq_true, decide_eq_true_eq] at h
  obtain ⟨hhex, hlen⟩ := h
  have hplain := JsonText.escape_plain (fun c hc => (hexDigit_plain (hhex c hc)).1)
  have hones : ∀ cs : List Char, (∀ c ∈ cs, isHexDigit c = true) →
      JsonText.weight Char.utf8Size cs = cs.length := by
    intro cs
    induction cs with
    | nil => exact fun _ => rfl
    | cons c cs ih =>
      intro hc
      rw [JsonText.weight_cons, (hexDigit_plain (hc c List.mem_cons_self)).2,
        ih (fun e he => hc e (List.mem_cons_of_mem _ he)), List.length_cons, Nat.add_comm]
  rw [utf8Length, JsonText.quote, hplain, JsonText.weight_cons, JsonText.weight_append,
    hones _ hhex, String.length_toList, hlen]
  rfl

theorem bytes_uuid (F : TextForms) (scope : String) (d : Draft) {t u : String}
    (ht : isUuidHex t = true) (hu : isUuidHex u = true) :
    d.bytes (P.canonical F) scope t = d.bytes (P.canonical F) scope u := by
  refine JsonText.weight_object Char.utf8Size ?_
  have hlen := (uuid_length ht).trans (uuid_length hu).symm
  simp only [utf8Length] at hlen
  simp only [List.cons_append, fieldChars, jsonChars, List.map_cons, hlen]

end Content

section Billing
variable {P : Platform} {s s' s'' : Store}

theorem Billed.refl (P : Platform) (s : Store) : Billed P s s :=
  ⟨fun _ => ⟨{}, rfl, rfl⟩, fun _ => .inr rfl⟩

theorem Billed.trans (h : Billed P s s') (k : Billed P s' s'') : Billed P s s'' := by
  refine ⟨fun scope => ?_, fun scope => ?_⟩
  · obtain ⟨d, ht, hs⟩ := h.grows scope
    obtain ⟨e, ht', hs'⟩ := k.grows scope
    refine ⟨d.add e, ?_, ?_⟩
    · rw [ht', ht]
      simp only [Tally.add, Nat.add_assoc]
    · rw [hs', hs]
      simp only [Tally.add, Nat.add_assoc]
  · rcases k.capped scope with hk | hk
    · exact .inl hk
    · rw [hk]
      exact h.capped scope

theorem Billed.frame (hm : s'.mail.messages = s.mail.messages) (ha : s'.audit = s.audit) :
    Billed P s s' := by
  have hs : ∀ scope, s'.stored P scope = s.stored P scope := by
    intro scope
    simp only [Store.stored, Mail.ofScope, hm, ha]
  exact ⟨fun scope => ⟨{}, by rw [ha, Tally.add_zero], by rw [hs, Tally.add_zero]⟩,
    fun _ => .inr (by rw [ha])⟩

theorem event_billed {c : Ctx} {ty : String} {payload : List (String × Json)}
    {task : Option String} {chain : Sha256} (h : s.event P c ty payload task = .ok (s', chain)) :
    Billed P s s' := by
  simp only [Store.event, bind_eq_ok, pure_eq_ok, Prod.mk.injEq] at h
  obtain ⟨⟨a, _⟩, h, rfl, -⟩ := h
  obtain ⟨row, a₁, hrow, hr, rfl⟩ := event_ok h
  obtain ⟨-, -, ht, -, -⟩ := reserveEventStorage_ok hr
  refine ⟨fun scope => ?_, fun scope => .inr ?_⟩
  · change ∃ d : Tally, a₁.tally scope = (s.audit.tally scope).add d ∧ _
    rw [ht]
    by_cases hc : c.self.scope = scope
    · refine ⟨{ eventRows := 1, eventBytes := P.encodedBytes row.payload }, ?_, ?_⟩
      · rw [if_pos hc]
        rfl
      · simp [Store.stored, Mail.ofScope, Audit.ofScope, Store.withAudit, hrow.scope, hc, Tally.add]
    · refine ⟨{}, ?_, ?_⟩
      · rw [if_neg hc, Tally.add_zero]
      · simp [Store.stored, Mail.ofScope, Audit.ofScope, Store.withAudit, hrow.scope, hc]
  · change (a₁.tally scope).messageBytes = _
    rw [ht]
    split <;> rfl

theorem reserved_billed {c : Ctx} {k n : Nat} {rows : List MessageRow} {s₁ : Store}
    (hr : s.reserve c k n = .ok s₁) (hm : s'.mail.messages = s.mail.messages ++ rows)
    (ha : s'.audit = s₁.audit) (hscope : ∀ row ∈ rows, row.scope = c.self.scope)
    (hk : rows.length = k) (hn : (rows.map (MessageRow.reserved P)).sum = n) : Billed P s s' := by
  simp only [Store.reserve, bind_eq_ok, pure_eq_ok] at hr
  obtain ⟨a₁, hr, rfl⟩ := hr
  obtain ⟨he, -, ht, -, hcap⟩ := reserveMessageStorage_ok hr
  obtain rfl : s'.audit = a₁ := ha
  refine ⟨fun scope => ?_, fun scope => ?_⟩
  · rw [ht]
    by_cases hc : c.self.scope = scope
    · have hall : rows.filter (fun x => x.scope = scope) = rows :=
        List.filter_eq_self.mpr (fun row hx => by simpa [hscope row hx] using hc)
      refine ⟨{ messageRows := k, messageBytes := n }, ?_, ?_⟩
      · rw [if_pos hc]
        rfl
      · simp [Store.stored, Mail.ofScope, Audit.ofScope, hm, he, hall, hk, hn, Tally.add]
    · have hnone : rows.filter (fun x => x.scope = scope) = [] :=
        List.filter_eq_nil_iff.mpr (fun row hx => by simpa [hscope row hx] using hc)
      refine ⟨{}, ?_, ?_⟩
      · rw [if_neg hc, Tally.add_zero]
      · simp [Store.stored, Mail.ofScope, Audit.ofScope, hm, he, hnone]
  · by_cases hc : c.self.scope = scope
    · subst hc
      exact .inl hcap
    · rw [ht, if_neg hc]
      exact .inr rfl

end Billing

section Writes
variable {P : Platform} {F : TextForms} {c : Ctx} {E : Entry → Bool} {s s' : Store}

theorem draftRows_scope {ds : List Draft} {n : Nat} :
    ∀ row ∈ draftRows P c n ds, row.scope = c.self.scope := by
  intro row hrow
  obtain ⟨d, -, k, -, -, rfl⟩ := mem_draftRows hrow
  rfl

theorem row_reserved {d : Draft} (hd : d.Bound) {t u : String} (ht : isUuidHex t = true)
    (hu : isUuidHex u = true) (k : Nat) :
    (d.row (P.canonical F) c.self.scope u k).reserved (P.canonical F) =
      d.bytes (P.canonical F) c.self.scope t := by
  rw [MessageRow.reserved, row_content hd, ← Draft.bytes, bytes_uuid F c.self.scope d hu ht]

theorem draftRows_reserved {ds : List Draft} (hd : ∀ d ∈ ds, d.Bound) {t : String}
    (ht : isUuidHex t = true) (n : Nat) :
    (draftRows (P.canonical F) c n ds).map (MessageRow.reserved (P.canonical F)) =
      ds.map (Draft.bytes (P.canonical F) c.self.scope t) := by
  induction ds generalizing n with
  | nil => rfl
  | cons d ds ih =>
    rw [draftRows, List.map_cons, List.map_cons, ih (fun e he => hd e (List.mem_cons_of_mem _ he)),
      row_reserved (hd d List.mem_cons_self) ht (c.messageUuid (n + 1)).hex]

theorem placeholder_uuid : isUuidHex (String.ofList (List.replicate 32 '0')) = true := by decide

theorem Write.billed (h : Write (P.canonical F) c E s s') : Billed (P.canonical F) s s' := by
  cases h with
  | event _ h => exact event_billed h
  | @insert _ d row hd h =>
    simp only [insertReserved, bind_eq_ok] at h
    obtain ⟨s₁, hr, hi⟩ := h
    obtain ⟨hm, -, -⟩ := Store.reserve_frame hr
    obtain ⟨hin, -, -⟩ := insertMessage_ok hi
    have haudit : s'.audit = s₁.audit := by
      simp only [insertMessage, bind_eq_ok, pure_eq_ok, Prod.mk.injEq] at hi
      obtain ⟨-, -, rfl, -⟩ := hi
      rfl
    have hrows := hin.rows_eq
    have hmessages : s'.mail.messages = s.mail.messages ++ [row] := by
      rw [hin.mail_eq, hm]
      rfl
    refine reserved_billed hr hmessages haudit ?_ rfl ?_
    · rw [hrows]
      exact draftRows_scope
    · rw [hrows, draftRows_reserved (by simpa using hd.bound)
        (c.messageUuid (s.mail.lastSequence + 1)).hex]
      simp
  | fanout hd hr hi =>
    obtain ⟨hm, -, -⟩ := Store.reserve_frame hr
    obtain ⟨hin, -, -⟩ := insertAll_ok hi
    refine reserved_billed hr (by rw [hin.mail_eq, hm]; rfl) (insertAll_audit hi) ?_ ?_ ?_
    · rw [hin.rows_eq]
      exact draftRows_scope
    · rw [hin.rows_eq, draftRows_length]
    · rw [hin.rows_eq, draftRows_reserved (fun d h => (hd d h).bound) placeholder_uuid]
  | receipt r => exact .frame (Mail.ignoreReceipt_messages _ _) rfl
  | advance roomId now => exact .frame rfl rfl
  | acknowledge roomId now => exact .frame rfl rfl
  | mail hm => exact .frame hm rfl
  | rooms r => exact .frame rfl rfl
  | routeReceipt | trusted | ledger => exact .frame rfl rfl

theorem Writes.billed (h : Writes (P.canonical F) c E s s') : Billed (P.canonical F) s s' := by
  induction h with
  | refl => exact .refl _ _
  | tail _ hw ih => exact ih.trans hw.billed

end Writes

section Opening
variable {P : Platform} {c : Ctx} {s : Store}

theorem lookup_ensureUsage (now : Utc) (scope : String) (scopes : List String)
    (rows : List StorageUsageRow) :
    lookup StorageUsageRow.scope scope (ensureUsage now scopes rows) =
      (lookup StorageUsageRow.scope scope rows).or
        (if scope ∈ scopes then some { scope, messageRows := 0, messageBytes := 0, eventRows := 0,
                                       eventBytes := 0, updatedUtc := now } else none) := by
  induction scopes generalizing rows with
  | nil => simp [ensureUsage]
  | cons k scopes ih =>
    rw [ensureUsage, ih]
    cases hk : lookup StorageUsageRow.scope k rows with
    | some r =>
      by_cases hs : scope = k
      · simp [hs, hk]
      · simp [hs]
    | none =>
      by_cases hs : scope = k
      · subst hs
        simp [lookup]
      · simp [lookup, hs, Ne.symm hs]

theorem ofScope_none {α : Type} {f : α → String} {xs : List α} {scope : String}
    (h : scope ∉ xs.map f) : xs.filter (fun x => f x = scope) = [] := by
  refine List.filter_eq_nil_iff.mpr (fun x hx => ?_)
  simp only [decide_eq_true_eq]
  rintro rfl
  exact h (List.mem_map_of_mem hx)

-- what opening the database leaves in the usage row of a scope
theorem initDb_tally (scope : String) :
    (initDb P c s).audit.tally scope =
      { s.stored P scope with
        messageBytes := ((s.mail.ofScope scope).map MessageRow.columnBytes).sum } := by
  change ((lookup StorageUsageRow.scope scope (recountUsage P _ s)).map
    StorageUsageRow.tally).getD {} = _
  have hevents : ∀ row, (recountEvents P (utcNow c.clock.locked) s.audit row).scope = row.scope :=
    fun _ => rfl
  have hmessages : ∀ row, (recountMessages (utcNow c.clock.locked) s.mail row).scope = row.scope :=
    fun _ => rfl
  rw [recountUsage, lookup_map hevents, lookup_ensureUsage, lookup_map hmessages,
    lookup_ensureUsage]
  cases hl : lookup StorageUsageRow.scope scope s.audit.storageUsage with
  | some r =>
    obtain rfl := lookup_key hl
    rfl
  | none =>
    by_cases hm : scope ∈ s.mail.messages.map MessageRow.scope
    · rw [if_pos hm]
      rfl
    · have hnone : s.mail.ofScope scope = [] := ofScope_none hm
      rw [if_neg hm]
      by_cases he : scope ∈ s.audit.events.map EventRow.scope
      · rw [if_pos he]
        simp [Store.stored, hnone, recountEvents, StorageUsageRow.tally]
      · have hnone' : s.audit.ofScope scope = [] := ofScope_none he
        rw [if_neg he]
        simp [Store.stored, hnone, hnone']

theorem initDb_stored (scope : String) : (initDb P c s).stored P scope = s.stored P scope := rfl

end Opening

-- the three counters that reopening recomputes by the writers' own formula
structure Counted (P : Platform) (s : Store) : Prop where
  messageRows : ∀ scope, (s.audit.tally scope).messageRows = (s.stored P scope).messageRows
  eventRows : ∀ scope, (s.audit.tally scope).eventRows = (s.stored P scope).eventRows
  eventBytes : ∀ scope, (s.audit.tally scope).eventBytes = (s.stored P scope).eventBytes

structure Honest (P : Platform) (s : Store) : Prop where
  exact : ∀ scope, s.audit.tally scope = s.stored P scope
  capped : ∀ scope, (s.audit.tally scope).messageBytes ≤ maxScopeMessageBytes

section Runs
variable {P : Platform} {F : TextForms} {c : Ctx} {s s' : Store}

theorem Billed.counted (h : Billed P s s') (hs : Counted P s) : Counted P s' := by
  refine ⟨fun scope => ?_, fun scope => ?_, fun scope => ?_⟩
  all_goals
    obtain ⟨d, ht, hst⟩ := h.grows scope
    rw [ht, hst]
  · exact congrArg (· + d.messageRows) (hs.messageRows scope)
  · exact congrArg (· + d.eventRows) (hs.eventRows scope)
  · exact congrArg (· + d.eventBytes) (hs.eventBytes scope)

theorem Billed.honest (h : Billed P s s') (hs : Honest P s) : Honest P s' := by
  refine ⟨fun scope => ?_, fun scope => ?_⟩
  · obtain ⟨d, ht, hst⟩ := h.grows scope
    rw [ht, hst, hs.exact]
  · rcases h.capped scope with hc | hc
    · exact hc
    · rw [hc]
      exact hs.capped scope

theorem initDb_counted : Counted P (initDb P c s) :=
  ⟨fun scope => by rw [initDb_tally, initDb_stored], fun scope => by rw [initDb_tally, initDb_stored],
    fun scope => by rw [initDb_tally, initDb_stored]⟩

theorem initDb_honest (hm : s.mail.messages = []) : Honest P (initDb P c s) := by
  have hnone : ∀ scope, s.mail.ofScope scope = [] := fun scope => by simp [Mail.ofScope, hm]
  refine ⟨fun scope => ?_, fun scope => ?_⟩
  · rw [initDb_tally, initDb_stored]
    simp [Store.stored, hnone]
  · rw [initDb_tally, hnone]
    exact Nat.zero_le _

theorem initial_stored (connections : List ConnectionRow) (scope : String) :
    (Store.initial connections).stored P scope = {} := rfl

theorem attempt_honest {w : World} {i : Call × Ctx} (hw : Honest (P.canonical F) w.store)
    (hopen : i.1 = .openScope → w.store.mail.messages = []) :
    Honest (P.canonical F) (attempt (P.canonical F) w i).1.store := by
  cases hp : perform (P.canonical F) i.2 w.store i.1 with
  | error e => simpa [attempt, hp] using hw
  | ok r =>
    simp only [attempt, hp]
    rcases perform_writes hp with ⟨hcall, hinit⟩ | hwrites
    · exact hinit ▸ initDb_honest (hopen hcall)
    · exact hwrites.billed.honest hw

theorem reachable_counted {w : World} (h : (mailbox (P.canonical F)).Reachable w) :
    Counted (P.canonical F) w.store := by
  refine h.invariant (fun w => Counted (P.canonical F) w.store) ?_ (fun w i hw _ => ?_)
  · rintro w ⟨connections, now, rfl⟩
    exact ⟨fun _ => rfl, fun _ => rfl, fun _ => rfl⟩
  · show Counted _ (attempt (P.canonical F) w i).1.store
    cases hp : perform (P.canonical F) i.2 w.store i.1 with
    | error e => simpa [attempt, hp] using hw
    | ok r =>
      simp only [attempt, hp]
      rcases perform_writes hp with ⟨-, hinit⟩ | hwrites
      · exact hinit ▸ initDb_counted
      · exact hwrites.billed.counted hw

end Runs

def opensEmpty (w : World) (i : Call × Ctx) : Prop :=
  match i.1 with
  | .openScope => w.store.mail.messages.isEmpty = true
  | _ => True

instance (w : World) (i : Call × Ctx) : Decidable (opensEmpty w i) := by
  unfold opensEmpty
  split <;> infer_instance

theorem storage_quotas_honest {P : Platform} {F : TextForms} {w : World}
    (h : ((mailbox (P.canonical F)).restrict opensEmpty).Reachable w) :
    (∀ scope, w.store.audit.tally scope = w.store.stored (P.canonical F) scope ∧
      (w.store.stored (P.canonical F) scope).messageBytes ≤ maxScopeMessageBytes) ∧
    ∀ c scope, opensEmpty w (.openScope, c) →
      (initDb (P.canonical F) c w.store).audit.tally scope = w.store.audit.tally scope := by
  have hs : Honest (P.canonical F) w.store := by
    refine h.invariant (fun w => Honest (P.canonical F) w.store) ?_ (fun w i hw hi => ?_)
    · rintro w ⟨connections, now, rfl⟩
      exact ⟨fun _ => rfl, fun _ => Nat.zero_le _⟩
    · refine attempt_honest hw (fun hcall => ?_)
      have hopen := hi.2
      rw [opensEmpty, hcall] at hopen
      exact List.isEmpty_iff.mp hopen
  refine ⟨fun scope => ⟨hs.exact scope, ?_⟩, fun c scope hopen => ?_⟩
  · rw [← hs.exact]
    exact hs.capped scope
  · rw [(initDb_honest (List.isEmpty_iff.mp hopen)).exact, hs.exact]
    rfl

-- canonical record text, with its length standing in for its digest
def plainPlatform : Platform :=
  ({ samplePlatform with sha256Bytes := fun t => sampleSha t.length } : Platform).canonical plainForms

def sampleNote : Call :=
  .sendMessage { recipient := "*", taskId := "t", subject := "s", body := "hello" }

set_option maxRecDepth 100000 in
theorem storage_quotas_honest_sent :
    ∃ w : World, (w.store.audit.tally "demo").messageRows = 1 ∧
      w.store.audit.tally "demo" = w.store.stored plainPlatform "demo" ∧
      (w.store.stored plainPlatform "demo").messageBytes ≤ maxScopeMessageBytes := by
  have hcheck : ((mailbox plainPlatform).restrict opensEmpty).AdmitsAll sampleWorld
      (asHuman 1 [.openScope, sampleNote]) ∧
      (((mailbox plainPlatform).play sampleWorld
        (asHuman 1 [.openScope, sampleNote])).1.store.audit.tally "demo").messageRows = 1 := by
    decide +kernel
  obtain ⟨hopen, hrows⟩ := hcheck
  have hreach : ((mailbox plainPlatform).restrict opensEmpty).Reachable
      ((mailbox plainPlatform).play sampleWorld (asHuman 1 [.openScope, sampleNote])).1 :=
    ⟨sampleWorld, _, ⟨[], 0, rfl⟩, Machine.run_play _ _ hopen⟩
  generalize ((mailbox plainPlatform).play sampleWorld (asHuman 1 [.openScope, sampleNote])).1 = w
    at *
  have hall := (storage_quotas_honest hreach).1 "demo"
  exact ⟨w, hrows, hall⟩

-- reopening counts eight column bytes for a message reserved at 282
set_option maxRecDepth 100000 in
theorem reopening_lowers_message_bytes :
    ∃ w : World, (mailbox plainPlatform).Reachable w ∧
      (w.store.audit.tally "demo").messageBytes = 282 ∧
      ∃ i, (mailbox plainPlatform).admits w i ∧
        (((mailbox plainPlatform).exec w i).1.store.audit.tally "demo").messageBytes = 8 ∧
        (((mailbox plainPlatform).exec w i).1.store.stored plainPlatform "demo").messageBytes =
          282 := by
  have hcheck : (mailbox plainPlatform).AdmitsAll sampleWorld
      (asHuman 1 [.openScope, sampleNote]) ∧
      let w := ((mailbox plainPlatform).play sampleWorld (asHuman 1 [.openScope, sampleNote])).1
      let i := (Call.openScope, sampleCtx sampleHuman 3)
      (w.store.audit.tally "demo").messageBytes = 282 ∧ (mailbox plainPlatform).admits w i ∧
        (((mailbox plainPlatform).exec w i).1.store.audit.tally "demo").messageBytes = 8 ∧
        (((mailbox plainPlatform).exec w i).1.store.stored plainPlatform "demo").messageBytes =
          282 := by decide +kernel
  obtain ⟨hopen, hbefore, hadmits, hafter, hstored⟩ := hcheck
  exact ⟨_, ⟨sampleWorld, _, ⟨[], 0, rfl⟩, Machine.run_play _ _ hopen⟩, hbefore, _, hadmits, hafter,
    hstored⟩

end PeerBridge
