import PeerBridge.Context.Spending
import PeerBridge.Memories.Supersession

namespace PeerBridge.Context
open Checked Rows Memories

-- the tables by their primary keys
structure Keyed (v : Vault) : Prop where
  sequences : (v.store.mail.messages.map MessageRow.sequence).Nodup
  memories : (v.memories.map MemoryRow.key).Nodup

-- the stores an agent cannot tell apart by what it may see of one room
structure Alike (b : Bridge) (id : String) (v w : Vault) : Prop where
  current : v.store.mail.message? b.scope id = w.store.mail.message? b.scope id
  history : ∀ m ∈ v.store.mail.message? b.scope id,
    (v.store.mail.messages.filter (fun x => visibleTo b m.roomId x)).Perm
      (w.store.mail.messages.filter (fun x => visibleTo b m.roomId x))
  memories : ∀ m ∈ v.store.mail.message? b.scope id,
    (v.memories.filter (fun x => sharedMemory b m.roomId x)).Perm
      (w.memories.filter (fun x => sharedMemory b m.roomId x))

instance : Std.Total newerFirst := ⟨fun m n => Nat.le_total n.sequence m.sequence⟩

instance : IsTrans MessageRow newerFirst := ⟨fun _ _ _ h k => Nat.le_trans k h⟩

section Sorting
variable {α : Type} {r : α → α → Prop} [DecidableRel r] [Std.Total r] [IsTrans α r]
  {p q : α → Bool} {xs ys : List α}

/-- Tables that agree on some rows agree on every sorted selection from them. -/
theorem sort_filter_eq (hpq : ∀ x, p x = true → q x = true)
    (h : (xs.filter q).Perm (ys.filter q))
    (hr : ∀ x ∈ xs.filter q, ∀ y ∈ xs.filter q, r x y → r y x → x = y) :
    (xs.filter p).insertionSort r = (ys.filter p).insertionSort r := by
  have hnarrow (zs : List α) : (zs.filter q).filter p = zs.filter p := by
    rw [List.filter_filter]
    refine List.filter_congr (fun x _ => ?_)
    cases hp : p x with
    | false => rfl
    | true => simp [hpq x hp]
  have hperm : (xs.filter p).Perm (ys.filter p) := by
    rw [← hnarrow xs, ← hnarrow ys]
    exact h.filter p
  have hsort : ((xs.filter p).insertionSort r).Perm ((ys.filter p).insertionSort r) :=
    (List.perm_insertionSort r _).trans (hperm.trans (List.perm_insertionSort r _).symm)
  refine @List.Perm.eq_of_pairwise _ r _ _ (fun x y hx hy => ?_) (List.pairwise_insertionSort r _)
    (List.pairwise_insertionSort r _) hsort
  have hxs {z : α} (hz : z ∈ (xs.filter p).insertionSort r) : z ∈ xs.filter q := by
    obtain ⟨hmem, hp⟩ := List.mem_filter.mp ((List.mem_insertionSort r).mp hz)
    exact List.mem_filter.mpr ⟨hmem, hpq z hp⟩
  exact hr x (hxs hx) y (hxs (hsort.mem_iff.mpr hy))

end Sorting

section Isolation
variable {P : Platform} {F : TextForms} {b : Bridge} {a : ContextArgs} {v w : Vault} {id : String}
  {current : MessageRow}

theorem historyRows_alike (hv : Keyed v) (h : Alike b id v w)
    (hc : v.store.mail.message? b.scope id = some current) :
    historyRows b current v = historyRows b current w := by
  refine sort_filter_eq (fun x hx => ?_) (h.history current hc) (fun x hx y hy hxy hyx => ?_)
  · simp only [decide_eq_true_eq] at hx ⊢
    exact hx.1
  · exact List.inj_on_of_nodup_map hv.sequences (List.mem_of_mem_filter hx)
      (List.mem_of_mem_filter hy) (Nat.le_antisymm hyx hxy)

theorem memoryRows_alike (hv : Keyed v) (h : Alike b id v w)
    (hc : v.store.mail.message? b.scope id = some current) :
    memoryRows b current v = memoryRows b current w := by
  rw [memoryRows, memoryRows]
  refine congrArg (List.take 8) (sort_filter_eq (fun x hx => ?_) (h.memories current hc)
    (fun x hx y hy hxy hyx => ?_))
  · simp only [decide_eq_true_eq] at hx ⊢
    exact hx.1
  · simp only [List.mem_filter, decide_eq_true_eq] at hx hy
    refine eq_of_key_eq hv.memories hx.1 hy.1 (Prod.ext (hx.2.1.trans hy.2.1.symm) ?_)
    exact (later_antisymm hxy hyx).2

theorem bind_congr_ok {ε α β : Type} {x : Except ε α} {f g : α → Except ε β}
    (h : ∀ y, x = .ok y → f y = g y) : (x >>= f) = (x >>= g) := by
  cases x with
  | error e => rfl
  | ok y => exact h y rfl

/-- Two stores that an agent sees alike give it one context. -/
theorem room_context_isolated (P : Platform) (F : TextForms) (hv : Keyed v)
    (h : ∀ id, requireIdentifier a.messageId "message_id" = .ok id → Alike b id v w) :
    (∀ r r', roomPromptContext P F b a v = .ok r → roomPromptContext P F b a w = .ok r' → r = r') ∧
    ((∀ roomId, requireRoomMember b roomId b.agentId v.store.rooms =
        requireRoomMember b roomId b.agentId w.store.rooms) →
      roomPromptContext P F b a v = roomPromptContext P F b a w) := by
  refine ⟨fun r r' hr hr' => ?_, fun hmember => ?_⟩
  · obtain ⟨id, current, hid, hcurrent, rfl⟩ := roomPromptContext_eq_ok hr
    obtain ⟨id', current', hid', hcurrent', rfl⟩ := roomPromptContext_eq_ok hr'
    obtain rfl : id = id' := Except.ok.inj (hid.symm.trans hid')
    have hsame := h id hid
    obtain rfl : current = current' :=
      Option.some.inj (hcurrent.symm.trans (hsame.current.trans hcurrent'))
    rw [historyRows_alike hv hsame hcurrent, memoryRows_alike hv hsame hcurrent]
  · rw [roomPromptContext, roomPromptContext]
    refine bind_congr_ok (fun id hid => ?_)
    have hsame := h id hid
    rw [← hsame.current]
    refine bind_congr_ok (fun current hcurrent => ?_)
    rw [historyRows_alike hv hsame (demand_eq_ok.mp hcurrent),
      memoryRows_alike hv hsame (demand_eq_ok.mp hcurrent), hmember]

end Isolation

-- a direct message between two other agents of the room
def whisper : MessageRow :=
  { sequence := 3, messageId := sampleMessage 3, scope := "demo", roomId := "r", taskId := "t",
    sender := "x", recipient := "y", subject := "s", body := "secret", priority := "normal",
    replyTo := none, artifactPaths := [], routeProfileId := none, routeProfileSha256 := none,
    requestedProviderId := none, requestedModelId := none, requestedReasoningMode := none,
    requestedRouteClass := none, routeRequestSha256 := none, discussionId := none,
    discussionRound := none, discussionRole := none, namesDiscussion := false,
    visibility := .direct, createdUtc := 5, contentSha256 := sampleSha 1 }

def whispered (v : Vault) : Vault :=
  v.withStore { v.store with
    mail := { v.store.mail with messages := v.store.mail.messages ++ [whisper] } }

theorem whispered_alike {v : Vault} {id : String}
    (h : (v.store.mail.message? "demo" id).isSome = true) :
    Alike sampleHuman id v (whispered v) where
  current := by
    obtain ⟨m, hm⟩ := Option.isSome_iff_exists.mp h
    exact hm.trans (message?_grow rfl hm).symm
  history m hm := by
    rw [whispered, Memories.Vault.withStore, List.filter_append]
    have hhidden : [whisper].filter (fun x => visibleTo sampleHuman m.roomId x) = [] := by
      refine List.filter_eq_nil_iff.mpr (fun x hx => ?_)
      obtain rfl := List.mem_singleton.mp hx
      simp only [decide_eq_true_eq]
      rintro ⟨-, -, hsees⟩
      exact absurd hsees (by decide)
    rw [hhidden, List.append_nil]
  memories m hm := .refl _

theorem chatArchive_keyed : Keyed chatArchive.vault :=
  ⟨by decide +kernel, by decide +kernel⟩

theorem room_context_isolated_whisper :
    roomPromptContext samplePlatform plainForms sampleHuman narrowArgs chatArchive.vault =
      roomPromptContext samplePlatform plainForms sampleHuman narrowArgs
        (whispered chatArchive.vault) := by
  have hid : requireIdentifier narrowArgs.messageId "message_id" = .ok (sampleMessage 2) := by
    decide +kernel
  have hcurrent : (chatArchive.vault.store.mail.message? "demo" (sampleMessage 2)).isSome = true := by
    decide +kernel
  refine (room_context_isolated samplePlatform plainForms chatArchive_keyed (fun id h => ?_)).2
    (fun _ => rfl)
  obtain rfl : sampleMessage 2 = id := Except.ok.inj (hid.symm.trans h)
  exact whispered_alike hcurrent

end PeerBridge.Context
