import PeerBridge.Transitions
import PeerBridge.Scenario

namespace PeerBridge
open Checked Rows

structure OperationRow.Leased (o : OperationRow) : Prop where
  owner : o.leaseOwner.isSome = true
  token : o.leaseTokenSha256.isSome = true
  expires : o.leaseExpiresEpoch.isSome = true
  deadline : o.attemptDeadlineEpoch.isSome = true

structure OperationRow.Unleased (o : OperationRow) : Prop where
  owner : o.leaseOwner = none
  token : o.leaseTokenSha256 = none
  expires : o.leaseExpiresEpoch = none
  deadline : o.attemptDeadlineEpoch = none

structure OperationRow.Ok (o : OperationRow) : Prop where
  attempts : o.attemptCount ≤ o.maxAttempts
  left : o.status.waiting = true → o.attemptCount < o.maxAttempts
  leased : o.status.live = true → o.Leased
  unleased : o.status.live = false → o.Unleased
  uncancelled : o.cancellationRequested = true → o.status ≠ .succeeded

structure Database.Safe (q : Database) : Prop where
  rows : ∀ o ∈ q.operations, o.Ok
  exclusive : ∀ a ∈ q.operations, ∀ b ∈ q.operations, a.scope = b.scope →
    a.resourceKey = b.resourceKey → a.status.live = true → b.status.live = true → a.key = b.key

-- how a row may differ after a call
structure Evolves (a b : OperationRow) : Prop where
  frozen : a.status.terminal = true → b = a
  flagged : a.cancellationRequested = true → b.cancellationRequested = true
  attempts : a.attemptCount ≤ b.attemptCount

def Kept (a b : OperationRow) : Prop :=
  b.leaseTokenSha256 = none ∨
    b.leaseTokenSha256 = a.leaseTokenSha256 ∧ b.attemptCount = a.attemptCount

section Rows
variable {P : Platform} {c : Ctx} {direct : Bool} {q q' : Database} {row row' : OperationRow}

theorem Evolves.refl (a : OperationRow) : Evolves a a := ⟨fun _ => rfl, id, le_rfl⟩

theorem Evolves.trans {a b d : OperationRow} (h : Evolves a b) (k : Evolves b d) :
    Evolves a d := by
  refine ⟨fun ht => ?_, fun hf => k.flagged (h.flagged hf), h.attempts.trans k.attempts⟩
  obtain rfl := h.frozen ht
  exact k.frozen ht

theorem Kept.refl (a : OperationRow) : Kept a a := .inr ⟨rfl, rfl⟩

theorem Kept.trans {a b d : OperationRow} (h : Kept a b) (k : Kept b d) : Kept a d := by
  rcases k with k | ⟨kt, ka⟩
  · exact .inl k
  · rcases h with h | ⟨ht, ha⟩
    · exact .inl (kt.trans h)
    · exact .inr ⟨kt.trans ht, ka.trans ha⟩

theorem Ending.status_terminal (e : Ending) : e.status.terminal = true := by cases e <;> rfl

theorem Ending.status_live (e : Ending) : e.status.live = false := by cases e <;> rfl

theorem Ending.status_waiting (e : Ending) : e.status.waiting = false := by cases e <;> rfl

theorem OperationStatus.open_of_live {s : OperationStatus} (h : s.live = true) :
    s.terminal = false ∧ s.waiting = false := by
  cases s <;> simp_all [live, terminal, waiting]

theorem OperationStatus.open_of_waiting {s : OperationStatus} (h : s.waiting = true) :
    s.terminal = false ∧ s.live = false := by
  cases s <;> simp_all [live, terminal, waiting]

theorem OperationRow.Fresh.ok (h : row.Fresh) : row.Ok := by
  refine ⟨?_, fun _ => ?_, fun hl => ?_, fun _ => ⟨h.owner, h.token, h.expires, h.deadline⟩,
    fun hf => ?_⟩
  · rw [h.attempts]
    exact Nat.zero_le _
  · rw [h.attempts]
    exact h.limit
  · rw [h.status] at hl
    simp [OperationStatus.live] at hl
  · rw [h.flag] at hf
    simp at hf

theorem Change.ok (h : Change P c direct q row row') (hr : row.Ok) : row'.Ok := by
  cases h with
  | @ended ending outcome detail hopen hflag =>
    refine ⟨hr.attempts, fun hw => ?_, fun hl => ?_, fun _ => ⟨rfl, rfl, rfl, rfl⟩, fun hf hs => ?_⟩
    · exact absurd (ending.status_waiting.symm.trans hw) (by simp)
    · exact absurd (ending.status_live.symm.trans hl) (by simp)
    · have he : ending = .succeeded := by
        cases ending
        · rfl
        · simp [endedOperation, sealOperation, Ending.status] at hs
        · simp [endedOperation, sealOperation, Ending.status] at hs
      have hf : row.cancellationRequested = true := hf
      rw [hflag he] at hf
      simp at hf
  | bound hwaiting hg =>
    refine ⟨hr.attempts, fun _ => hr.left hwaiting, fun hl => ?_, fun hl => ?_, hr.uncancelled⟩
    · exact ⟨(hr.leased hl).owner, (hr.leased hl).token, (hr.leased hl).expires,
        (hr.leased hl).deadline⟩
    · exact ⟨(hr.unleased hl).owner, (hr.unleased hl).token, (hr.unleased hl).expires,
        (hr.unleased hl).deadline⟩
  | retried hlive hleft =>
    refine ⟨hr.attempts, fun _ => hleft, fun hl => ?_, fun _ => ⟨rfl, rfl, rfl, rfl⟩, fun _ => ?_⟩
    · simp [retriedOperation, sealOperation, OperationStatus.live] at hl
    · simp [retriedOperation, sealOperation]
  | renewed hlive =>
    refine ⟨hr.attempts, hr.left, fun hl => ?_, fun hl => ?_, hr.uncancelled⟩
    · exact ⟨(hr.leased hl).owner, (hr.leased hl).token, rfl, (hr.leased hl).deadline⟩
    · exact absurd (hlive.symm.trans hl) (by simp)
  | cancelling hlive =>
    refine ⟨hr.attempts, fun hw => ?_, fun _ => ?_, fun hl => ?_, fun _ => ?_⟩
    · simp [cancellingOperation, sealOperation, OperationStatus.waiting] at hw
    · exact ⟨(hr.leased hlive).owner, (hr.leased hlive).token, (hr.leased hlive).expires,
        (hr.leased hlive).deadline⟩
    · simp [cancellingOperation, sealOperation, OperationStatus.live] at hl
    · simp [cancellingOperation, sealOperation]

theorem claimed_ok {worker : String} {now : ℚ} {seconds : Nat} (hr : row.Ok)
    (hwaiting : row.status.waiting = true) :
    (claimedOperation P c row worker now seconds).Ok := by
  refine ⟨hr.left hwaiting, fun hw => ?_, fun _ => ⟨rfl, rfl, rfl, rfl⟩, fun hl => ?_, fun _ => ?_⟩
  · simp [claimedOperation, sealOperation, OperationStatus.waiting] at hw
  · simp [claimedOperation, sealOperation, OperationStatus.live] at hl
  · simp [claimedOperation, sealOperation]

-- a change keeps the resource and never makes a row live
theorem Change.resource (h : Change P c direct q row row') :
    row'.resourceKey = row.resourceKey ∧ (row'.status.live = true → row.status.live = true) := by
  cases h with
  | @ended ending =>
    exact ⟨rfl, fun hl => absurd (ending.status_live.symm.trans hl) (by simp)⟩
  | bound => exact ⟨rfl, id⟩
  | retried => exact ⟨rfl, fun hl => by simp [retriedOperation, sealOperation, OperationStatus.live] at hl⟩
  | renewed => exact ⟨rfl, id⟩
  | cancelling hlive => exact ⟨rfl, fun _ => hlive⟩

theorem Change.evolves (h : Change P c direct q row row') : Evolves row row' ∧ Kept row row' := by
  cases h with
  | ended hopen =>
    exact ⟨⟨fun ht => absurd (hopen.symm.trans ht) (by simp), id, le_rfl⟩, .inl rfl⟩
  | bound hwaiting =>
    refine ⟨⟨fun ht => ?_, id, le_rfl⟩, .inr ⟨rfl, rfl⟩⟩
    exact absurd ((OperationStatus.open_of_waiting hwaiting).1.symm.trans ht) (by simp)
  | retried hlive =>
    refine ⟨⟨fun ht => ?_, id, le_rfl⟩, .inl rfl⟩
    exact absurd ((OperationStatus.open_of_live hlive).1.symm.trans ht) (by simp)
  | renewed hlive =>
    refine ⟨⟨fun ht => ?_, id, le_rfl⟩, .inr ⟨rfl, rfl⟩⟩
    exact absurd ((OperationStatus.open_of_live hlive).1.symm.trans ht) (by simp)
  | cancelling hlive =>
    refine ⟨⟨fun ht => ?_, fun _ => rfl, le_rfl⟩, .inr ⟨rfl, rfl⟩⟩
    exact absurd ((OperationStatus.open_of_live hlive).1.symm.trans ht) (by simp)

theorem Database.Safe.congr (h : q.Safe) (ho : q'.operations = q.operations) : q'.Safe :=
  ⟨by rw [ho]; exact h.rows, by rw [ho]; exact h.exclusive⟩

theorem Database.Safe.put (h : q.Safe) (hok : row'.Ok)
    (hlive : row'.status.live = true → ∀ x ∈ q.operations, x.scope = row'.scope →
      x.resourceKey = row'.resourceKey → x.status.live = true → x.key = row'.key) :
    (q.put row').Safe := by
  refine ⟨fun o ho => ?_, fun a ha b hb hs hr hla hlb => ?_⟩
  · rcases Database.mem_put ho with rfl | ho
    · exact hok
    · exact h.rows o ho
  · rcases Database.mem_put ha with ha' | ha'
    · subst ha'
      rcases Database.mem_put hb with hb' | hb'
      · rw [hb']
      · exact (hlive hla b hb' hs.symm hr.symm hlb).symm
    · rcases Database.mem_put hb with hb' | hb'
      · subst hb'
        exact hlive hlb a ha' hs hr hla
      · exact h.exclusive a ha' b hb' hs hr hla hlb

theorem QueueMove.safe (h : QueueMove P c direct q q') (hq : q.Safe) : q'.Safe := by
  cases h with
  | event h => exact hq.congr (Database.event_ok h).1
  | stop => exact hq.congr rfl
  | enqueue _ _ hrow =>
    refine hq.put hrow.ok (fun hl => ?_)
    rw [hrow.status] at hl
    simp [OperationStatus.live] at hl
  | @change row row' _ hrow h =>
    obtain ⟨hmem, -, -⟩ := Database.operation?_mem hrow
    refine hq.put (h.ok (hq.rows _ hmem)) (fun hl x hx hs hr hlx => ?_)
    have hk := h.key
    have hscope : row'.scope = row.scope := congrArg Prod.fst hk
    rw [hk]
    exact hq.exclusive x hx row hmem (hs.trans hscope) (hr.trans h.resource.1) hlx (h.resource.2 hl)

theorem QueueMoves.safe (h : QueueMoves P c direct q q') (hq : q.Safe) : q'.Safe := by
  induction h with
  | refl => exact hq
  | tail _ hm ih => exact hm.safe ih

theorem Grants.safe {worker : String} {now : ℚ} {seconds : Nat}
    (h : Grants P c q row worker now seconds q') (hq : q.Safe) : q'.Safe := by
  obtain ⟨hmem, -, -⟩ := Database.operation?_mem h.row_eq
  have hput : (q.put (claimedOperation P c row worker now seconds)).Safe := by
    refine hq.put (claimed_ok (hq.rows _ hmem) h.waiting) (fun _ x hx hs hr hlx => ?_)
    have hidle := h.idle
    simp only [resourceBusy, List.any_eq_false, decide_eq_true_eq] at hidle
    exact absurd ⟨hs, hr, hlx⟩ (hidle x hx)
  exact hput.congr h.operations_eq

-- every row of the database before is still there, evolved
def Database.Follows (rel : OperationRow → OperationRow → Prop) (q q' : Database) : Prop :=
  ∀ scope id a, q.operation? scope id = some a →
    ∃ b, q'.operation? scope id = some b ∧ rel a b

theorem Database.Follows.congr {rel : OperationRow → OperationRow → Prop} (hrefl : ∀ a, rel a a)
    (ho : q'.operations = q.operations) : q.Follows rel q' :=
  fun _ _ a ha => ⟨a, (operation?_congr ho).trans ha, hrefl a⟩

theorem Database.Follows.put {rel : OperationRow → OperationRow → Prop} (hrefl : ∀ a, rel a a)
    {scope id : String} (hrow : q.operation? scope id = some row) (hk : row'.key = row.key)
    (h : rel row row') : q.Follows rel (q.put row') := by
  intro s i a ha
  rw [Database.operation?_put]
  split
  · rename_i hkey
    have hsame : row.key = (s, i) := hk ▸ hkey
    have hrk : row.key = (scope, id) := lookup_key hrow
    obtain ⟨rfl, rfl⟩ := Prod.mk.inj (hrk.symm.trans hsame)
    obtain rfl := Option.some.inj (hrow.symm.trans ha)
    exact ⟨row', rfl, h⟩
  · exact ⟨a, ha, hrefl a⟩

theorem Database.Follows.trans {rel : OperationRow → OperationRow → Prop}
    (htrans : ∀ a b d, rel a b → rel b d → rel a d) {q₁ : Database} (h : q.Follows rel q₁)
    (k : q₁.Follows rel q') : q.Follows rel q' := by
  intro scope id a ha
  obtain ⟨b, hb, hab⟩ := h scope id a ha
  obtain ⟨d, hd, hbd⟩ := k scope id b hb
  exact ⟨d, hd, htrans a b d hab hbd⟩

theorem QueueMove.evolves (h : QueueMove P c direct q q') : q.Follows Evolves q' := by
  cases h with
  | event h => exact .congr Evolves.refl (Database.event_ok h).1
  | stop => exact .congr Evolves.refl rfl
  | @enqueue row hscope hfresh hrow =>
    intro s i a ha
    rw [Database.operation?_put]
    split
    · rename_i hkey
      obtain ⟨rfl, rfl⟩ := Prod.mk.inj hkey
      rw [hscope, hfresh] at ha
      simp at ha
    · exact ⟨a, ha, .refl a⟩
  | change _ hrow h => exact .put Evolves.refl hrow h.key h.evolves.1

theorem QueueMoves.evolves (h : QueueMoves P c direct q q') : q.Follows Evolves q' := by
  induction h with
  | refl => exact .congr Evolves.refl rfl
  | tail _ hm ih => exact ih.trans (fun _ _ _ => Evolves.trans) hm.evolves

theorem Grants.evolves {worker : String} {now : ℚ} {seconds : Nat}
    (h : Grants P c q row worker now seconds q') : q.Follows Evolves q' := by
  have hput : q.Follows Evolves (q.put (claimedOperation P c row worker now seconds)) := by
    refine .put Evolves.refl h.row_eq rfl ⟨fun ht => ?_, id, Nat.le_succ _⟩
    exact absurd ((OperationStatus.open_of_waiting h.waiting).1.symm.trans ht) (by simp)
  exact hput.trans (fun _ _ _ => Evolves.trans) (.congr Evolves.refl h.operations_eq)

-- where the token of a row comes from when nothing is granted
theorem QueueMove.tokens (h : QueueMove P c direct q q') {scope id : String} {b : OperationRow}
    (hb : q'.operation? scope id = some b) :
    b.leaseTokenSha256 = none ∨ ∃ a, q.operation? scope id = some a ∧ Kept a b := by
  cases h with
  | event h => exact .inr ⟨b, (operation?_congr (Database.event_ok h).1).symm.trans hb, .refl b⟩
  | stop => exact .inr ⟨b, hb, .refl b⟩
  | enqueue _ _ hrow =>
    rw [Database.operation?_put] at hb
    split at hb
    · obtain rfl := Option.some.inj hb
      exact .inl hrow.token
    · exact .inr ⟨b, hb, .refl b⟩
  | @change row row' _ hrow h =>
    rw [Database.operation?_put] at hb
    split at hb
    · rename_i hkey
      obtain rfl := Option.some.inj hb
      have hk : row.key = (scope, id) := h.key ▸ hkey
      obtain ⟨rfl, rfl⟩ := Prod.mk.inj hk
      refine .inr ⟨row, ?_, h.evolves.2⟩
      rw [← hrow, (Database.operation?_mem hrow).2.1]
    · exact .inr ⟨b, hb, .refl b⟩

theorem QueueMoves.tokens (h : QueueMoves P c direct q q') {scope id : String} {b : OperationRow}
    (hb : q'.operation? scope id = some b) :
    b.leaseTokenSha256 = none ∨ ∃ a, q.operation? scope id = some a ∧ Kept a b := by
  induction h generalizing b with
  | refl => exact .inr ⟨b, hb, .refl b⟩
  | tail _ hm ih =>
    rcases hm.tokens hb with hn | ⟨a, ha, hk⟩
    · exact .inl hn
    · rcases ih ha with hn | ⟨a', ha', hk'⟩
      · refine .inl ?_
        rcases hk with hk | ⟨hk, -⟩
        · exact hk
        · exact hk.trans hn
      · exact .inr ⟨a', ha', hk'.trans hk⟩

end Rows

section Runs
variable {P : Platform} {J : JsonReader} {o o' : Office} {i : OfficeCall × Ctx}

structure Office.Valid (P : Platform) (o : Office) : Prop where
  sound : o.database.Sound P
  safe : o.database.Safe

theorem Grants.sound {c : Ctx} {q q' : Database} {row : OperationRow} {worker : String} {now : ℚ}
    {seconds : Nat} (h : Grants P c q row worker now seconds q') (hq : q.Sound P) : q'.Sound P := by
  have hput : (q.put (claimedOperation P c row worker now seconds)).Sound P := by
    refine hq.put fun id hid => ?_
    have hb := hq.bound row (Database.operation?_mem h.row_eq).1 id hid
    exact ⟨hb.safe, hb.resource, hb.workflow⟩
  refine ⟨⟨?_, ?_⟩, ?_, ?_, ?_⟩
  · rw [h.mail_eq, h.rooms_eq]
    exact hq.wf.mail
  · rw [h.rooms_eq]
    exact hq.wf.rooms
  · rw [h.mail_eq]
    exact hq.named
  · rw [h.operations_eq]
    exact hput.keys
  · rw [h.operations_eq]
    exact hput.bound

theorem QueueStep.valid {c : Ctx} {call : QueueCall} {q q' : Database} {r : QueueReply}
    (h : QueueStep P c call q q' r) (hq : q.Sound P ∧ q.Safe) : q'.Sound P ∧ q'.Safe := by
  cases h with
  | moved h => exact ⟨QueueMoves.sound h hq.1, QueueMoves.safe h hq.2⟩
  | granted _ h hg =>
    exact ⟨hg.sound (QueueMoves.sound h hq.1), hg.safe (QueueMoves.safe h hq.2)⟩

theorem QueueStep.evolves {c : Ctx} {call : QueueCall} {q q' : Database} {r : QueueReply}
    (h : QueueStep P c call q q' r) : q.Follows Evolves q' := by
  cases h with
  | moved h => exact QueueMoves.evolves h
  | granted _ h hg =>
    exact (QueueMoves.evolves h).trans (fun _ _ _ => Evolves.trans) hg.evolves

-- the two kinds of step of the office
theorem exec_cases (ho : o.Valid P) : ((∃ call, i.1 = .mail call) ∧
      ((controlRoom P J).exec o i).1.operations = o.operations ∧
      ((controlRoom P J).exec o i).1.leases = o.leases ∧
      ((controlRoom P J).exec o i).1.world.store.WF P ∧
      ((controlRoom P J).exec o i).1.world.store.mail.Named) ∨
    (((controlRoom P J).exec o i).1 = o ∧ ∃ e, ((controlRoom P J).exec o i).2 = .queue (.error e)) ∨
    ∃ call q r, i.1 = .queue call ∧ ((controlRoom P J).exec o i).1 = o.commit P q r ∧
      ((controlRoom P J).exec o i).2 = .queue (.ok r) ∧ QueueStep P i.2 call o.database q r := by
  obtain ⟨call, c⟩ := i
  cases call with
  | mail call =>
    refine .inl ⟨⟨call, rfl⟩, rfl, rfl, attempt_wf ho.sound.wf (call, c), ?_⟩
    show (attempt P o.world (call, c)).1.store.mail.Named
    cases hp : perform P c o.world.store call with
    | error e =>
      have hn : o.world.store.mail.Named := ho.sound.named
      simpa [attempt, hp] using hn
    | ok r =>
      have hn : r.1.mail.Named := perform_named ho.sound.wf ho.sound.named hp
      simpa [attempt, hp] using hn
  | queue call =>
    cases h : performQueue P J c o.database call with
    | error e =>
      refine .inr (.inl ⟨?_, e, ?_⟩)
      · simp [controlRoom, attemptOffice, h]
      · simp [controlRoom, attemptOffice, h]
    | ok x =>
      refine .inr (.inr ⟨call, x.1, x.2, rfl, ?_, ?_, performQueue_step ho.sound h⟩)
      · simp [controlRoom, attemptOffice, h]
      · simp [controlRoom, attemptOffice, h]

theorem exec_valid (ho : o.Valid P) : ((controlRoom P J).exec o i).1.Valid P := by
  rcases exec_cases (J := J) (i := i) ho with ⟨-, hop, -, hwf, hn⟩ | ⟨hsame, -⟩ |
    ⟨call, q, r, -, he, -, hs⟩
  · refine ⟨⟨hwf, hn, ?_, ?_⟩, ho.safe.congr hop⟩
    · show (((controlRoom P J).exec o i).1.operations.map OperationRow.key).Nodup
      rw [hop]
      exact ho.sound.keys
    · show ∀ x ∈ ((controlRoom P J).exec o i).1.operations, x.Bound
      rw [hop]
      exact ho.sound.bound
  · rw [hsame]
    exact ho
  · rw [he]
    obtain ⟨h1, h2⟩ := hs.valid ⟨ho.sound, ho.safe⟩
    exact ⟨h1, h2⟩

theorem initial_valid (connections : List ConnectionRow) (now : ℚ) :
    (Office.initial connections now).Valid P := by
  refine ⟨⟨initial_wf connections, fun scope id h => ?_, List.nodup_nil, ?_⟩, ?_, ?_⟩
  · simp [Office.initial, Office.database, World.initial, Store.initial, Mail.empty,
      Mail.discussion?, lookup] at h
  · simp [Office.initial, Office.database]
  · simp [Office.initial, Office.database]
  · simp [Office.initial, Office.database]

theorem run_valid {tr : List ((OfficeCall × Ctx) × OfficeReply)} (ho : o.Valid P)
    (h : (controlRoom P J).Run o tr o') : o'.Valid P :=
  h.preserves (fun o => o.Valid P) (fun _ _ ho _ => exec_valid ho) ho

theorem exec_evolves (ho : o.Valid P) :
    o.database.Follows Evolves ((controlRoom P J).exec o i).1.database := by
  rcases exec_cases (J := J) (i := i) ho with ⟨-, hop, -⟩ | ⟨hsame, -⟩ |
    ⟨call, q, r, -, he, -, hs⟩
  · exact .congr Evolves.refl hop
  · rw [hsame]
    exact .congr Evolves.refl rfl
  · rw [he]
    exact hs.evolves

theorem run_evolves {tr : List ((OfficeCall × Ctx) × OfficeReply)} (ho : o.Valid P)
    (h : (controlRoom P J).Run o tr o') : o.database.Follows Evolves o'.database := by
  refine (h.preserves (fun x => x.Valid P ∧ o.database.Follows Evolves x.database)
    (fun x i hx _ => ?_) ⟨ho, .congr Evolves.refl rfl⟩).2
  exact ⟨exec_valid hx.1, hx.2.trans (fun _ _ _ => Evolves.trans) (exec_evolves hx.1)⟩

-- the grants a run has handed out, in order
def grantOf : OfficeReply → Option OperationClaim
  | .queue (.ok (.claimed g)) => g
  | _ => none

def operationClaims (tr : List ((OfficeCall × Ctx) × OfficeReply)) : List OperationClaim :=
  tr.filterMap (fun x => grantOf x.2)

theorem operationClaims_snoc (tr : List ((OfficeCall × Ctx) × OfficeReply)) (i : OfficeCall × Ctx)
    (r : OfficeReply) : operationClaims (tr ++ [(i, r)]) = operationClaims tr ++ (grantOf r).toList := by
  rw [operationClaims, List.filterMap_append, operationClaims]
  cases h : grantOf r <;> simp [h]

def OperationClaim.sha (P : Platform) (g : OperationClaim) : Sha256 := P.sha256Bytes g.leaseToken

-- every stored token is the one granted for the row's current attempt
structure Backed (P : Platform) (gs : List OperationClaim) (o : Office) : Prop where
  leases : o.leases = gs.map (OperationClaim.sha P)
  distinct : o.leases.Nodup
  granted : ∀ scope id a t, o.database.operation? scope id = some a →
    a.leaseTokenSha256 = some t → ∃ g ∈ gs, g.operation.scope = scope ∧
      g.operation.operationId = id ∧ g.operation.attemptCount = a.attemptCount ∧ g.sha P = t

theorem Backed.kept {gs hs : List OperationClaim}
    (h : ∀ scope id a t, o.database.operation? scope id = some a → a.leaseTokenSha256 = some t →
      ∃ g ∈ gs, g.operation.scope = scope ∧ g.operation.operationId = id ∧
        g.operation.attemptCount = a.attemptCount ∧ g.sha P = t) {scope id : String}
    {b : OperationRow} {t : Sha256} (ht : b.leaseTokenSha256 = some t)
    (hb : b.leaseTokenSha256 = none ∨ ∃ a, o.database.operation? scope id = some a ∧ Kept a b) :
    ∃ g ∈ gs ++ hs, g.operation.scope = scope ∧ g.operation.operationId = id ∧
      g.operation.attemptCount = b.attemptCount ∧ g.sha P = t := by
  rcases hb with hn | ⟨a, ha, hn | ⟨hk, hc⟩⟩
  · rw [hn] at ht
    simp at ht
  · rw [hn] at ht
    simp at ht
  · obtain ⟨g, hg, h1, h2, h3, h4⟩ := h scope id a t ha (hk ▸ ht)
    exact ⟨g, List.mem_append_left _ hg, h1, h2, h3.trans hc.symm, h4⟩

theorem exec_backed {gs : List OperationClaim} (ho : o.Valid P) (h : Backed P gs o)
    (ha : (controlRoom P J).admits o i) :
    Backed P (gs ++ (grantOf ((controlRoom P J).exec o i).2).toList)
      ((controlRoom P J).exec o i).1 := by
  rcases exec_cases (J := J) (i := i) ho with ⟨⟨call, hcall⟩, hop, hl, -⟩ | ⟨hsame, e, he⟩ |
    ⟨call, q, r, hcall, he, hr, hs⟩
  · have hnone : grantOf ((controlRoom P J).exec o i).2 = none := by
      obtain ⟨_, c⟩ := i
      obtain rfl := hcall
      rfl
    rw [hnone, Option.toList_none, List.append_nil]
    refine ⟨hl.trans h.leases, by rw [hl]; exact h.distinct, ?_⟩
    intro scope id a t hrow
    exact h.granted scope id a t ((operation?_congr hop).symm.trans hrow)
  · rw [he, hsame]
    simpa [grantOf] using h
  · rw [hr, he]
    cases hs with
    | moved hm hl hg =>
      have hnone : grantOf (.queue (.ok r)) = none := by
        cases r with
        | claimed g =>
          cases g with
          | none => rfl
          | some g => exact absurd rfl (hg g)
        | done => rfl
        | bound => rfl
      rw [hnone]
      refine ⟨?_, ?_, fun scope id b t hb ht => ?_⟩
      · show o.leases ++ leasesOf P r = _
        rw [hl, h.leases]
        simp
      · show (o.leases ++ leasesOf P r).Nodup
        rw [hl, List.append_nil]
        exact h.distinct
      · exact Backed.kept h.granted ht (QueueMoves.tokens hm hb)
    | @granted q₁ row worker now seconds hclaim hm hg =>
      have hfresh : P.sha256Bytes i.2.token ∉ o.leases := by
        obtain ⟨_, c⟩ := i
        obtain rfl := hcall
        exact ha hclaim
      refine ⟨?_, ?_, fun scope id b t hb ht => ?_⟩
      · show o.leases ++ [P.sha256Bytes i.2.token] = _
        rw [h.leases, List.map_append]
        rfl
      · show (o.leases ++ [P.sha256Bytes i.2.token]).Nodup
        refine List.nodup_append.mpr ⟨h.distinct, by simp, fun x hx y hy hxy => ?_⟩
        rw [List.mem_singleton.mp hy] at hxy
        exact hfresh (hxy ▸ hx)
      · have hb : (q₁.put (claimedOperation P i.2 row worker now seconds)).operation? scope id =
            some b := (operation?_congr hg.operations_eq).symm.trans hb
        rw [Database.operation?_put] at hb
        split at hb
        · rename_i hkey
          obtain rfl := Option.some.inj hb
          obtain ⟨rfl, rfl⟩ := Prod.mk.inj hkey
          refine ⟨_, List.mem_append_right _ (List.mem_singleton.mpr rfl), rfl, rfl, rfl, ?_⟩
          exact Option.some.inj ht
        · exact Backed.kept h.granted ht (QueueMoves.tokens hm hb)

theorem run_backed {o₀ : Office} {tr : List ((OfficeCall × Ctx) × OfficeReply)}
    (h₀ : (controlRoom P J).start o₀) (h : (controlRoom P J).Run o₀ tr o) :
    o.Valid P ∧ Backed P (operationClaims tr) o := by
  obtain ⟨connections, now, rfl⟩ := h₀
  refine h.preserves_trace (fun tr o => o.Valid P ∧ Backed P (operationClaims tr) o)
    (fun tr o i ho ha => ⟨exec_valid ho.1, ?_⟩) ⟨initial_valid connections now, rfl, List.nodup_nil, ?_⟩
  · rw [operationClaims_snoc]
    exact exec_backed ho.1 ho.2 ha
  intro scope id a t ha
  simp [Office.initial, Office.database, Database.operation?, lookup] at ha

theorem Backed.stale {gs : List OperationClaim} (h : Backed P gs o)
    {g : OperationClaim} (hg : g ∈ gs) {a : OperationRow}
    (ha : o.database.operation? g.operation.scope g.operation.operationId = some a)
    (hold : g.operation.attemptCount < a.attemptCount) :
    a.leaseTokenSha256 ≠ some (P.sha256Bytes g.leaseToken) := by
  intro ht
  obtain ⟨g', hg', -, -, hcount, hsha⟩ := h.granted _ _ a _ ha ht
  have hd := h.distinct
  rw [h.leases] at hd
  obtain rfl : g' = g := List.inj_on_of_nodup_map hd hg' hg hsha
  omega

end Runs

section Workers
variable {P : Platform} {J : JsonReader} {c : Ctx} {q : Database} {w : WorkerArgs}
  {a : OperationRow}

-- the four calls of a worker all check the lease token of the stored row
theorem worker_calls_checked (ha : q.operation? c.self.scope (strip w.operationId) = some a)
    (ht : a.leaseTokenSha256 ≠ some (P.sha256Bytes w.leaseToken)) :
    (∀ n, isOk (heartbeat P c w n q) = false) ∧
    (∀ outcome detail, isOk (completeOperation P J c { toWorkerArgs := w, outcome, detail } q) =
      false) ∧
    (∀ errorClass detail retryAfterSeconds allowRetry, isOk (failOperation P c
      { toWorkerArgs := w, errorClass, detail, retryAfterSeconds, allowRetry } q) = false) ∧
    isOk (acknowledgeCancel P c w q) = false := by
  have refused {id : String} {row : OperationRow} {now : ℚ} {u : Unit}
      (hid : requireId w.operationId "operation id" = .ok id)
      (hrow : requireOperation P c id q = .ok row)
      (hlive : requireLiveWorker P row w.workerId w.leaseToken now = .ok u) : False := by
    simp only [requireId, bind_eq_ok, require_eq_ok, pure_eq_ok] at hid
    obtain ⟨-, -, rfl⟩ := hid
    obtain rfl := Option.some.inj (ha.symm.trans (requireOperation_ok hrow).1)
    exact ht (requireLiveWorker_ok hlive).2
  have closed {α : Type} {x : Except QueueError α} (h : ∀ y, x ≠ .ok y) : isOk x = false := by
    cases x with
    | error e => rfl
    | ok y => exact absurd rfl (h y)
  refine ⟨fun n => closed fun y hy => ?_, fun outcome detail => closed fun y hy => ?_,
    fun errorClass detail seconds allow => closed fun y hy => ?_, closed fun y hy => ?_⟩
  · simp only [heartbeat, bind_eq_ok] at hy
    obtain ⟨id, hid, _, -, row, hrow, u, hlive, -⟩ := hy
    exact refused hid hrow hlive
  · simp only [completeOperation, bind_eq_ok] at hy
    obtain ⟨id, hid, _, -, _, -, row, hrow, u, hlive, -⟩ := hy
    exact refused hid hrow hlive
  · simp only [failOperation, bind_eq_ok] at hy
    obtain ⟨id, hid, _, -, _, -, row, hrow, u, hlive, -⟩ := hy
    exact refused hid hrow hlive
  · simp only [acknowledgeCancel, bind_eq_ok] at hy
    obtain ⟨id, hid, row, hrow, u, hlive, -⟩ := hy
    exact refused hid hrow hlive

-- a cancellation request on a running operation leaves its flag in the row
theorem requestCancel_flags {args : CancelArgs} {q' : Database} {row : OperationRow}
    (h : requestCancel P c args q = .ok (q', row))
    (ha : q.operation? c.self.scope row.operationId = some a) (hlive : a.status.live = true) :
    ∃ b, q'.operation? c.self.scope row.operationId = some b ∧ b.cancellationRequested = true := by
  simp only [requestCancel, bind_eq_ok, require_eq_ok] at h
  obtain ⟨id, -, -, -, requester, -, -, -, reason, -, x, hx, -, -, h⟩ := h
  obtain ⟨hx, -, rfl⟩ := requireOperation_ok hx
  split at h
  · rename_i hwaiting
    obtain ⟨-, rfl, -⟩ := setTerminalLocked_ok h
    obtain rfl := Option.some.inj (hx.symm.trans ha)
    exact absurd ((OperationStatus.open_of_live hlive).2.symm.trans hwaiting) (by simp)
  · simp only [bind_eq_ok, pure_eq_ok, Prod.mk.injEq] at h
    obtain ⟨q₁, he, rfl, rfl⟩ := h
    have hk : x.key = (c.self.scope, x.operationId) := lookup_key hx
    refine ⟨cancellingOperation P c x reason, ?_, rfl⟩
    rw [operation?_congr (Database.event_ok he).1, Database.operation?_put]
    exact if_pos hk

end Workers

theorem operation_queue_safe {P : Platform} {J : JsonReader} {o₀ o : Office}
    {tr : List ((OfficeCall × Ctx) × OfficeReply)} (h₀ : (controlRoom P J).start o₀)
    (h : (controlRoom P J).Run o₀ tr o) :
    (∀ a ∈ o.operations, ∀ b ∈ o.operations, a.scope = b.scope → a.resourceKey = b.resourceKey →
      a.status.live = true → b.status.live = true → a = b) ∧
    (∀ a ∈ o.operations, a.attemptCount ≤ a.maxAttempts) ∧
    (∀ a ∈ o.operations, (a.status.live = true → a.Leased) ∧
      (a.status.live = false → a.Unleased)) ∧
    (∀ tr' o', (controlRoom P J).Run o tr' o' → ∀ scope id a,
      o.database.operation? scope id = some a → a.status.terminal = true →
      o'.database.operation? scope id = some a) ∧
    (∀ c args q row a, requestCancel P c args o.database = .ok (q, row) →
      o.database.operation? c.self.scope row.operationId = some a → a.status.live = true →
      ∀ tr' o', (controlRoom P J).Run (o.commit P q .done) tr' o' → ∀ b,
        o'.database.operation? c.self.scope row.operationId = some b → b.status ≠ .succeeded) ∧
    (∀ g ∈ operationClaims tr, ∀ a,
      o.database.operation? g.operation.scope g.operation.operationId = some a →
      g.operation.attemptCount < a.attemptCount → ∀ c : Ctx, ∀ w : WorkerArgs,
      c.self.scope = g.operation.scope → strip w.operationId = g.operation.operationId →
      w.leaseToken = g.leaseToken →
      (∀ n, isOk (heartbeat P c w n o.database) = false) ∧
      (∀ outcome detail, isOk (completeOperation P J c { toWorkerArgs := w, outcome, detail }
        o.database) = false) ∧
      (∀ errorClass detail retryAfterSeconds allowRetry, isOk (failOperation P c
        { toWorkerArgs := w, errorClass, detail, retryAfterSeconds, allowRetry } o.database) =
        false) ∧
      isOk (acknowledgeCancel P c w o.database) = false) := by
  obtain ⟨hv, hb⟩ := run_backed h₀ h
  refine ⟨fun a ha b hb hs hr hla hlb => ?_, fun a ha => (hv.safe.rows a ha).attempts,
    fun a ha => ⟨(hv.safe.rows a ha).leased, (hv.safe.rows a ha).unleased⟩,
    fun tr' o' hr scope id a ha ht => ?_, fun c args q row a hc ha hlive tr' o' hr b hb hs => ?_,
    fun g hg a ha hold c w hscope hid htoken => ?_⟩
  · exact eq_of_key_eq hv.sound.keys ha hb (hv.safe.exclusive a ha b hb hs hr hla hlb)
  · obtain ⟨b, hb, he⟩ := run_evolves hv hr scope id a ha
    rw [hb, he.frozen ht]
  · have hstep : QueueStep P c (.requestCancel args) o.database q .done :=
      performQueue_step (J := J) hv.sound (by simp [performQueue, queueReply, hc, bind, Except.bind,
        pure, Except.pure])
    have hv' : (o.commit P q .done).Valid P := by
      obtain ⟨h1, h2⟩ := hstep.valid ⟨hv.sound, hv.safe⟩
      exact ⟨h1, h2⟩
    obtain ⟨x, hx, hflag⟩ := requestCancel_flags hc ha hlive
    obtain ⟨y, hy, he⟩ := run_evolves hv' hr _ _ x hx
    obtain rfl := Option.some.inj (hy.symm.trans hb)
    exact ((run_valid hv' hr).safe.rows y (Database.operation?_mem hy).1).uncancelled
      (he.flagged hflag) hs
  · refine worker_calls_checked (a := a) ?_ ?_
    · rw [hscope, hid]
      exact ha
    · rw [htoken]
      exact hb.stale hg ha hold

def sampleReader : JsonReader := { loads := fun _ => none, repr := fun _ => "" }

def asQueue (b : Bridge) (second : Nat) (calls : List QueueCall) : List (OfficeCall × Ctx) :=
  (calls.zipIdx second).map (fun x => (.queue x.1, sampleCtx b x.2))

-- a failed first attempt, retried under a second token
def retriedAudit : List (OfficeCall × Ctx) :=
  asQueue sampleHuman 1
    [.enqueue { workflowId := "read-only-audit", taskText := "check", workingDirectory := "src",
                resourceKey := "repo", operationId := some "op-1" },
     .claim { workerId := "w" },
     .fail { operationId := "op-1", workerId := "w", leaseToken := "token-2",
             errorClass := "transient", detail := "lost", retryAfterSeconds := 0 },
     .claim { workerId := "w" }]

set_option maxRecDepth 100000 in
theorem operation_queue_safe_retried :
    ∃ o : Office, (∀ a ∈ o.operations, a.attemptCount ≤ a.maxAttempts) ∧
      (∃ a ∈ o.operations, a.attemptCount = 2 ∧ a.Leased) ∧
      isOk (heartbeat samplePlatform (sampleCtx sampleHuman 5)
        { operationId := "op-1", workerId := "w", leaseToken := "token-2" } 300 o.database) =
          false := by
  have hcheck : (controlRoom samplePlatform sampleReader).AdmitsAll (.initial [] 0) retriedAudit ∧
      ((operationClaims ((controlRoom samplePlatform sampleReader).play (.initial [] 0)
          retriedAudit).2).head?.any (fun g => g.operation.scope = "demo" ∧
            g.operation.operationId = "op-1" ∧ g.operation.attemptCount = 1 ∧
            g.leaseToken = "token-2")) = true ∧
      ((((controlRoom samplePlatform sampleReader).play (.initial [] 0)
          retriedAudit).1.database.operation? "demo" "op-1").any
        (fun a => a.attemptCount = 2 ∧ a.status.live)) = true := by decide +kernel
  obtain ⟨hopen, hgrant, hrow⟩ := hcheck
  have hall := operation_queue_safe (P := samplePlatform) (J := sampleReader) ⟨[], 0, rfl⟩
    (Machine.run_play _ _ hopen)
  generalize (controlRoom samplePlatform sampleReader).play (.initial [] 0) retriedAudit = x at *
  obtain ⟨-, h2, h3, -, -, h6⟩ := hall
  obtain ⟨a, ha, hcount⟩ := Option.any_eq_true _ _ |>.mp hrow
  obtain ⟨g, hg, hg'⟩ := Option.any_eq_true _ _ |>.mp hgrant
  simp only [decide_eq_true_eq] at hcount hg'
  obtain ⟨hscope, hid, hfirst, htoken⟩ := hg'
  have hmem := (Database.operation?_mem ha).1
  have hreject := h6 g (List.mem_of_head? hg) a (by rw [hscope, hid]; exact ha) (by omega)
    (sampleCtx sampleHuman 5) { operationId := "op-1", workerId := "w", leaseToken := "token-2" }
    hscope.symm (by rw [hid]; decide +kernel) htoken.symm
  exact ⟨x.1, h2, ⟨a, hmem, hcount.1, (h3 a hmem).1 hcount.2⟩, hreject.1 300⟩

end PeerBridge
