import PeerBridge.Context.Snapshot
import PeerBridge.Memories.Listing

namespace PeerBridge.Context
open Checked Rows Memories

-- a heading and a body by their lengths
structure Piece where
  heading : Nat
  body : Nat

def memoryPiece (m : MemoryRow) : Piece :=
  { heading := (memoryHeading m).length, body := (memoryBody m).length }

def historyPiece (m : MessageRow) : Piece :=
  { heading := (historyHeading m).length, body := (historyBody m).length }

-- what the pieces leave of a budget, none when one is cut too short for its marker
def memoryLeft : Nat → List Piece → Option Nat
  | left, [] => some left
  | left, p :: ps =>
    if left ≤ p.heading then memoryLeft left ps
    else if p.heading + p.body ≤ left then memoryLeft (left - (p.heading + p.body)) ps
    else if p.heading + 19 ≤ left then some 0
    else none

def Piece.taken (p : Piece) (left : Nat) : Nat :=
  let available := min maxRoomContextMessageChars left - p.heading
  p.heading + if p.body ≤ available then p.body else max 28 available

def historyFits : Nat → Nat → List Piece → Prop
  | _, _, [] => True
  | n, left, p :: ps => n = 0 ∨ left = 0 ∨
    (p.taken left ≤ left ∧ historyFits (n - 1) (left - p.taken left) ps)

-- the rows whose key no earlier row has
def freshRows (P : Platform) (F : TextForms) : List Sha256 → List MessageRow → List MessageRow
  | _, [] => []
  | seen, m :: ms =>
    let key := roomContextDedupKey P F m
    if key ∈ seen then freshRows P F seen ms else m :: freshRows P F (key :: seen) ms

def Fits (P : Platform) (F : TextForms) (b : Bridge) (a : ContextArgs) (v : Vault)
    (current : MessageRow) : Prop :=
  ∃ left, memoryLeft a.memoryBudget ((memoryRows b current v).reverse.map memoryPiece) = some left ∧
    historyFits a.messageLimit (a.charLimit - (a.memoryBudget - left))
      ((freshRows P F [roomContextDedupKey P F current]
        ((historyRows b current v).take a.scanLimit)).map historyPiece)

/-- A row has room when its heading fits with the whole body or with a marker. -/
theorem taken_le_iff (p : Piece) (left : Nat) : p.taken left ≤ left ↔
    p.heading + p.body ≤ min maxRoomContextMessageChars left ∨ (p.body = 0 ∧ p.heading ≤ left) ∨
      p.heading + 28 ≤ left := by
  simp only [Piece.taken]
  split <;> omega

section Clip
variable {marker heading body : String} {limit : Nat}

theorem clip_length : (clip marker heading body limit).1.length = heading.length +
    if body.length ≤ limit - heading.length then body.length
    else max marker.length (limit - heading.length) := by
  unfold clip
  by_cases h : limit - heading.length < body.length
  · rw [if_pos h, if_neg (Nat.not_le.mpr h)]
    have hbody : body.length = body.toList.length := rfl
    simp only [String.length_append, String.length_ofList, List.length_take]
    omega
  · rw [if_neg h, if_pos (Nat.not_lt.mp h), String.length_append]

theorem memoryMarker_length : memoryMarker.length = 19 := by decide

theorem historyMarker_length : historyMarker.length = 28 := by decide

end Clip

def chars (xs : List ContextMessage) : Nat := (xs.map (fun m => m.content.length)).sum

theorem chars_append (xs ys : List ContextMessage) : chars (xs ++ ys) = chars xs + chars ys := by
  simp [chars]

section Memory
variable {budget : Nat} {k : MemoryPart} {m : MemoryRow} {rows : List MemoryRow}

-- the running counts of the memory part
structure MemoryPart.Counted (k : MemoryPart) (n : Nat) : Prop where
  messages : k.messages.length ≤ n
  chars : k.usedChars = Context.chars k.messages

theorem MemoryPart.add_counted {n : Nat} (h : k.Counted n) : (k.add budget m).Counted (n + 1) := by
  simp only [MemoryPart.add]
  split
  · exact ⟨h.messages.trans (Nat.le_succ n), h.chars⟩
  · refine ⟨?_, ?_⟩
    · rw [List.length_append]
      exact Nat.add_le_add_right h.messages 1
    · rw [chars_append, ← h.chars]
      simp [Context.chars]

theorem MemoryPart.foldl_counted {n : Nat} (h : k.Counted n) :
    (rows.foldl (MemoryPart.add budget) k).Counted (n + rows.length) := by
  induction rows generalizing k n with
  | nil => exact h
  | cons m rows ih =>
    rw [List.foldl_cons, List.length_cons, Nat.add_comm rows.length, ← Nat.add_assoc]
    exact ih (MemoryPart.add_counted h)

theorem MemoryPart.add_usedChars : (k.add budget m).usedChars = k.usedChars +
    if budget ≤ k.usedChars + (memoryHeading m).length then 0
    else (memoryHeading m).length +
      if (memoryBody m).length ≤ budget - k.usedChars - (memoryHeading m).length then
        (memoryBody m).length
      else max 19 (budget - k.usedChars - (memoryHeading m).length) := by
  simp only [MemoryPart.add]
  by_cases h : budget ≤ k.usedChars + (memoryHeading m).length
  · rw [if_pos h, if_pos h, Nat.add_zero]
  · rw [if_neg h, if_neg h, clip_length, memoryMarker_length]

theorem MemoryPart.foldl_usedChars_le :
    k.usedChars ≤ (rows.foldl (MemoryPart.add budget) k).usedChars := by
  induction rows generalizing k with
  | nil => exact Nat.le_refl _
  | cons m rows ih =>
    rw [List.foldl_cons]
    exact Nat.le_trans (by rw [add_usedChars]; exact Nat.le_add_right _ _) ih

theorem memoryLeft_zero (ps : List Piece) : memoryLeft 0 ps = some 0 := by
  induction ps with
  | nil => rfl
  | cons p ps ih => rw [memoryLeft, if_pos (Nat.zero_le _), ih]

theorem memory_spent (h : k.usedChars ≤ budget) :
    match memoryLeft (budget - k.usedChars) (rows.map memoryPiece) with
    | some left => (rows.foldl (MemoryPart.add budget) k).usedChars + left = budget
    | none => budget < (rows.foldl (MemoryPart.add budget) k).usedChars := by
  induction rows generalizing k with
  | nil =>
    change k.usedChars + (budget - k.usedChars) = budget
    omega
  | cons m rows ih =>
    have hused := @MemoryPart.add_usedChars budget k m
    rw [List.map_cons, List.foldl_cons, memoryLeft]
    have hheading : (memoryPiece m).heading = (memoryHeading m).length := rfl
    have hbody : (memoryPiece m).body = (memoryBody m).length := rfl
    rw [← hheading, ← hbody] at hused
    generalize memoryPiece m = p at hused ⊢
    by_cases hskip : budget - k.usedChars ≤ p.heading
    · rw [if_pos (by omega)] at hused
      rw [if_pos hskip]
      have hsame : budget - k.usedChars = budget - (k.add budget m).usedChars := by omega
      rw [hsame]
      exact ih (by omega)
    · rw [if_neg (by omega)] at hused
      rw [if_neg hskip]
      by_cases hwhole : p.heading + p.body ≤ budget - k.usedChars
      · rw [if_pos (by omega)] at hused
        rw [if_pos hwhole]
        have hsame : budget - k.usedChars - (p.heading + p.body) =
            budget - (k.add budget m).usedChars := by omega
        rw [hsame]
        exact ih (by omega)
      · rw [if_neg (by omega)] at hused
        rw [if_neg hwhole]
        by_cases hmarker : p.heading + 19 ≤ budget - k.usedChars
        · rw [if_pos hmarker]
          have hfull : (k.add budget m).usedChars = budget := by omega
          have hrest := ih (k := k.add budget m) hfull.le
          rw [hfull, Nat.sub_self, memoryLeft_zero] at hrest
          exact hrest
        · rw [if_neg hmarker]
          have hover : budget < (k.add budget m).usedChars := by omega
          exact hover.trans_le MemoryPart.foldl_usedChars_le

end Memory

section History
variable {P : Platform} {F : TextForms} {limit budget : Nat} {k : HistoryPart} {m : MessageRow}
  {rows : List MessageRow}

def HistoryPart.contents (k : HistoryPart) : List ContextMessage := k.selected.map Prod.snd

structure HistoryPart.Counted (limit : Nat) (k : HistoryPart) : Prop where
  selected : k.selected.length ≤ limit
  chars : k.usedChars = Context.chars k.contents

theorem HistoryPart.add_counted (h : k.Counted limit) : (k.add P F limit budget m).Counted limit := by
  simp only [HistoryPart.add]
  split
  · exact ⟨h.selected, h.chars⟩
  · split
    · exact ⟨h.selected, h.chars⟩
    · rename_i hroom
      refine ⟨?_, ?_⟩
      · rw [List.length_append, List.length_singleton]
        omega
      · simp only [HistoryPart.contents, List.map_append, chars_append]
        rw [h.chars]
        simp [HistoryPart.contents, Context.chars]

theorem HistoryPart.foldl_counted (h : k.Counted limit) :
    (rows.foldl (HistoryPart.add P F limit budget) k).Counted limit := by
  induction rows generalizing k with
  | nil => exact h
  | cons m rows ih => exact ih (HistoryPart.add_counted h)

theorem rendered_length (m : MessageRow) (left : Nat) :
    (roomContextMessage m (min maxRoomContextMessageChars left)).1.content.length =
      (historyPiece m).taken left := by
  simp only [roomContextMessage, clip_length, historyMarker_length]
  rfl

theorem HistoryPart.add_usedChars_le : k.usedChars ≤ (k.add P F limit budget m).usedChars := by
  simp only [HistoryPart.add]
  split
  · exact Nat.le_refl _
  · split
    · exact Nat.le_refl _
    · exact Nat.le_add_right _ _

theorem HistoryPart.foldl_usedChars_le :
    k.usedChars ≤ (rows.foldl (HistoryPart.add P F limit budget) k).usedChars := by
  induction rows generalizing k with
  | nil => exact Nat.le_refl _
  | cons m rows ih => exact HistoryPart.add_usedChars_le.trans ih

theorem historyFits_done {n left : Nat} (h : n = 0 ∨ left = 0) (ps : List Piece) :
    historyFits n left ps := by
  cases ps with
  | nil => trivial
  | cons p ps => exact h.elim .inl (fun h => .inr (.inl h))

theorem history_spent (h : k.usedChars ≤ budget) :
    (rows.foldl (HistoryPart.add P F limit budget) k).usedChars ≤ budget ↔
      historyFits (limit - k.selected.length) (budget - k.usedChars)
        ((freshRows P F k.seen rows).map historyPiece) := by
  induction rows generalizing k with
  | nil => exact iff_of_true h trivial
  | cons m rows ih =>
    rw [List.foldl_cons]
    by_cases hseen : roomContextDedupKey P F m ∈ k.seen
    · have hadd : k.add P F limit budget m = { k with duplicates := k.duplicates + 1 } := by
        rw [HistoryPart.add, if_pos hseen]
      rw [hadd, freshRows, if_pos hseen]
      exact ih h
    · rw [freshRows, if_neg hseen, List.map_cons]
      by_cases hfull : limit ≤ k.selected.length ∨ budget ≤ k.usedChars
      · have hadd : k.add P F limit budget m = { k with
            seen := roomContextDedupKey P F m :: k.seen, omitted := k.omitted + 1 } := by
          rw [HistoryPart.add, if_neg hseen, if_pos hfull]
        have hdone : limit - k.selected.length = 0 ∨ budget - k.usedChars = 0 := by omega
        rw [hadd]
        refine iff_of_true ?_ (historyFits_done hdone _)
        refine (ih (k := { k with seen := _, omitted := k.omitted + 1 }) h).mpr ?_
        exact historyFits_done hdone _
      · have hadd : (k.add P F limit budget m).usedChars =
              k.usedChars + (historyPiece m).taken (budget - k.usedChars) ∧
            (k.add P F limit budget m).selected.length = k.selected.length + 1 ∧
            (k.add P F limit budget m).seen = roomContextDedupKey P F m :: k.seen := by
          rw [HistoryPart.add, if_neg hseen, if_neg hfull, ← rendered_length]
          exact ⟨rfl, by rw [List.length_append]; rfl, rfl⟩
        obtain ⟨hused, hselected, hkeys⟩ := hadd
        have hopen : ¬ limit - k.selected.length = 0 ∧ ¬ budget - k.usedChars = 0 := by omega
        rw [historyFits, or_iff_right hopen.1, or_iff_right hopen.2]
        by_cases hfit : (historyPiece m).taken (budget - k.usedChars) ≤ budget - k.usedChars
        · have hle : (k.add P F limit budget m).usedChars ≤ budget := by omega
          rw [ih hle, hkeys, hselected, hused, Nat.sub_add_eq, Nat.sub_add_eq]
          exact (and_iff_right hfit).symm
        · refine iff_of_false (fun hle => hfit ?_) (fun h => hfit h.1)
          have hgrow := HistoryPart.foldl_usedChars_le.trans hle
          omega

end History

-- what a room context promises about its size
structure Within (a : ContextArgs) (r : RoomContext) : Prop where
  messages : r.messages.length = r.receipt.historyMessageCount + r.receipt.memoryRecordCount
  history : r.receipt.historyMessageCount ≤ a.messageLimit
  memory : r.receipt.memoryRecordCount ≤ 8
  chars : r.receipt.contextChars = Context.chars r.messages
  budget : r.receipt.contextChars ≤ a.charLimit
  share : r.receipt.memoryChars ≤ a.memoryBudget

section Budget
variable {P : Platform} {F : TextForms} {b : Bridge} {a : ContextArgs} {v : Vault} {r : RoomContext}

theorem roomPromptContext_eq_ok (h : roomPromptContext P F b a v = .ok r) :
    ∃ id current, requireIdentifier a.messageId "message_id" = .ok id ∧
      v.store.mail.message? b.scope id = some current ∧
      r = assemble P b a id current ((historyRows b current v).take a.scanLimit).length
        (memoryPart a (memoryRows b current v))
        (historyPart P F a (memoryPart a (memoryRows b current v)).usedChars current
          ((historyRows b current v).take a.scanLimit)) := by
  simp only [roomPromptContext, bind_eq_ok, demand_eq_ok, pure_eq_ok] at h
  obtain ⟨id, hid, current, hcurrent, _, -, _, -, rfl⟩ := h
  exact ⟨id, current, hid, hcurrent, rfl⟩

theorem chars_reverse (xs : List ContextMessage) : chars xs.reverse = chars xs := by
  simp [chars]

theorem within_iff {id : String} {current : MessageRow} {scanned : Nat} {memory : MemoryPart}
    {history : HistoryPart} (hm : memory.Counted 8) (hh : history.Counted a.messageLimit) :
    Within a (assemble P b a id current scanned memory history) ↔
      memory.usedChars + history.usedChars ≤ a.charLimit ∧ memory.usedChars ≤ a.memoryBudget := by
  refine ⟨fun h => ⟨h.budget, h.share⟩, fun h => ⟨?_, ?_, hm.messages, ?_, h.1, h.2⟩⟩
  · simp [assemble, Nat.add_comm]
  · simpa [assemble] using hh.selected
  · simp only [assemble, chars_append, List.map_reverse, chars_reverse]
    rw [hm.chars, hh.chars, HistoryPart.contents]

theorem memoryPart_counted {rows : List MemoryRow} (h : rows.length ≤ 8) :
    (memoryPart a rows).Counted 8 := by
  have hcounted : (memoryPart a rows).Counted (0 + rows.reverse.length) :=
    MemoryPart.foldl_counted ⟨Nat.le_refl 0, rfl⟩
  rw [Nat.zero_add, List.length_reverse] at hcounted
  exact ⟨hcounted.messages.trans h, hcounted.chars⟩

theorem memoryPart_spent (rows : List MemoryRow) :
    match memoryLeft a.memoryBudget (rows.reverse.map memoryPiece) with
    | some left => (memoryPart a rows).usedChars + left = a.memoryBudget
    | none => a.memoryBudget < (memoryPart a rows).usedChars :=
  memory_spent (k := .empty) (Nat.zero_le _)

theorem historyPart_spent (memoryChars : Nat) (current : MessageRow) (rows : List MessageRow) :
    (historyPart P F a memoryChars current rows).usedChars ≤ a.charLimit - memoryChars ↔
      historyFits a.messageLimit (a.charLimit - memoryChars)
        ((freshRows P F [roomContextDedupKey P F current] rows).map historyPiece) :=
  history_spent (k := .start (roomContextDedupKey P F current)) (Nat.zero_le _)

/-- A room context keeps to its size exactly when every row it takes has room for its heading and
either the whole body or a marker. -/
theorem room_context_budget_iff (h : roomPromptContext P F b a v = .ok r) (current : MessageRow)
    (hcurrent : v.store.mail.message? b.scope r.receipt.sourceMessageId = some current) :
    Within a r ↔ Fits P F b a v current := by
  obtain ⟨id, c, -, hc, rfl⟩ := roomPromptContext_eq_ok h
  obtain rfl : c = current := Option.some.inj (hc.symm.trans hcurrent)
  have hm := @memoryPart_counted a (memoryRows b c v) (List.length_take_le _ _)
  have hmemory := memoryPart_spent (a := a) (memoryRows b c v)
  have hhistory := historyPart_spent (P := P) (F := F) (a := a)
    (memoryPart a (memoryRows b c v)).usedChars c ((historyRows b c v).take a.scanLimit)
  have hcounted : (historyPart P F a (memoryPart a (memoryRows b c v)).usedChars c
      ((historyRows b c v).take a.scanLimit)).Counted a.messageLimit :=
    HistoryPart.foldl_counted ⟨Nat.zero_le _, rfl⟩
  rw [within_iff hm hcounted, Fits]
  generalize memoryPart a (memoryRows b c v) = memory at hmemory hhistory ⊢
  generalize historyPart P F a memory.usedChars c _ = history at hhistory ⊢
  have hshare : a.memoryBudget ≤ a.charLimit := by
    rw [ContextArgs.memoryBudget]
    omega
  cases hleft : memoryLeft a.memoryBudget ((memoryRows b c v).reverse.map memoryPiece) with
  | none =>
    rw [hleft] at hmemory
    refine iff_of_false (fun h => Nat.not_le.mpr hmemory h.2) ?_
    rintro ⟨left, hsome, -⟩
    cases hsome
  | some left =>
    rw [hleft] at hmemory
    have hspent : memory.usedChars + left = a.memoryBudget := hmemory
    have hused : a.memoryBudget - left = memory.usedChars := by omega
    simp only [Option.some.injEq, exists_eq_left']
    rw [hused, ← hhistory]
    omega

end Budget

def chatArchive : Archive :=
  sampleArchive [
    (.mail (.sendMessage { roomId := "r", recipient := "*", taskId := "t", subject := "s",
                           body := "first" }), sampleCtx sampleHuman 3),
    (.mail (.sendMessage { roomId := "r", recipient := "*", taskId := "t", subject := "s",
                           body := "second" }), sampleCtx sampleHuman 4)]

theorem chatArchive_reachable : (archive samplePlatform plainForms).Reachable chatArchive :=
  sampleArchive_reachable (by decide +kernel)

def narrowArgs : ContextArgs := { messageId := sampleMessage 2, maxChars := 10 }

theorem narrow_context : (roomPromptContext samplePlatform plainForms sampleHuman narrowArgs
    chatArchive.vault).toOption.map (fun r => (r.receipt.sourceMessageId, r.receipt.contextChars)) =
      some (sampleMessage 2, 84) := by decide +kernel

theorem narrow_run : ∃ r current, roomPromptContext samplePlatform plainForms sampleHuman narrowArgs
      chatArchive.vault = .ok r ∧ r.receipt.contextChars = 84 ∧
    chatArchive.vault.store.mail.message? sampleHuman.scope r.receipt.sourceMessageId =
      some current := by
  obtain ⟨r, hr, hreport⟩ := Option.map_eq_some_iff.mp narrow_context
  obtain ⟨id, current, -, hcurrent, he⟩ := roomPromptContext_eq_ok (toOption_eq_some hr)
  refine ⟨r, current, toOption_eq_some hr, (Prod.mk.inj hreport).2, ?_⟩
  rw [he]
  exact hcurrent

theorem room_context_budget_iff_narrow : ∃ r current,
    Within narrowArgs r ↔ Fits samplePlatform plainForms sampleHuman narrowArgs chatArchive.vault
      current := by
  obtain ⟨r, current, hr, -, hcurrent⟩ := narrow_run
  exact ⟨r, current, room_context_budget_iff hr current hcurrent⟩

-- a heading alone is longer than ten characters
theorem narrow_context_overruns : ¬ ∀ a, (archive samplePlatform plainForms).Reachable a →
    ∀ b x r, roomPromptContext samplePlatform plainForms b x a.vault = .ok r → Within x r := by
  intro h
  obtain ⟨r, current, hr, hchars, -⟩ := narrow_run
  have hwithin := (h chatArchive chatArchive_reachable sampleHuman narrowArgs r hr).budget
  rw [hchars] at hwithin
  exact absurd hwithin (by decide)

end PeerBridge.Context
