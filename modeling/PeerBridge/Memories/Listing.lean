import PeerBridge.Memories.Queries
import PeerBridge.Scenario

namespace PeerBridge.Memories
open Checked Rows

theorem take_filter_take_iff {α : Type} {p : α → Bool} {xs : List α} {k n : Nat} :
    ((xs.take k).filter p).take n = (xs.filter p).take n ↔
      n ≤ ((xs.take k).filter p).length ∨ ∀ x ∈ xs.drop k, p x = false := by
  have hsplit : xs.filter p = (xs.take k).filter p ++ (xs.drop k).filter p := by
    rw [← List.filter_append, List.take_append_drop]
  rw [hsplit]
  generalize hA : (xs.take k).filter p = A
  have hnil : (∀ x ∈ xs.drop k, p x = false) ↔ (xs.drop k).filter p = [] := by
    simp [List.filter_eq_nil_iff]
  rw [hnil]
  generalize (xs.drop k).filter p = B
  by_cases hn : n ≤ A.length
  · simp [List.take_append_of_le_length hn, hn]
  · have hlt : A.length < n := Nat.lt_of_not_le hn
    rw [List.take_append, List.take_of_length_le hlt.le]
    rw [List.self_eq_append_right, List.take_eq_nil_iff, or_iff_right (by omega : ¬ n - A.length = 0),
      or_iff_right hn]

theorem toOption_eq_some {ε α : Type} {x : Except ε α} {a : α} (h : x.toOption = some a) :
    x = .ok a := by
  cases x with
  | error e => cases h
  | ok b => exact congrArg Except.ok (Option.some.inj h)

section Listing
variable {P : Platform} {lowercase : String → String} {b : Bridge} {v : Vault} {q : ListRequest}
  {dict : List (String × String)} {rows : List MemoryRow} {found out : List Listed}

-- what a listing has to show of the rows it selects
def ListRequest.shows (q : ListRequest) (lowercase : String → String) (b : Bridge) (v : Vault)
    (m : MemoryRow) : Bool :=
  readable b v m && decide (q.query = "" ∨ q.mentions lowercase m)

def newestShown (lowercase : String → String) (b : Bridge) (q : ListRequest) (v : Vault) :
    List MemoryRow := ((selected q b.scope v).filter (q.shows lowercase b v)).take q.limit

def listed (dict : List (String × String)) (row : MemoryRow) : Listed :=
  { row, supersededByMemoryId := (lookup Prod.fst row.memoryId dict).map Prod.snd }

theorem shows_iff {m : MemoryRow} (hr : readable b v m = true) :
    q.shows lowercase b v m = true ↔ ¬ (q.query ≠ "" ∧ ¬ q.mentions lowercase m) := by
  simp only [ListRequest.shows, hr, Bool.true_and, decide_eq_true_eq]
  rw [not_and_not_right, or_iff_not_imp_left]

theorem gather_eq_ok (hlt : found.length < q.limit)
    (h : gather P lowercase b v q dict rows found = .ok out) : out = found ++
      ((rows.filter (q.shows lowercase b v)).take (q.limit - found.length)).map (listed dict) := by
  induction rows generalizing found with
  | nil =>
    obtain rfl := pure_eq_ok.mp h
    simp
  | cons row rows ih =>
    rw [gather] at h
    split at h
    · rename_i hr
      simp only [bind_eq_ok] at h
      obtain ⟨_, -, h⟩ := h
      split at h
      · rename_i hskip
        rw [List.filter_cons_of_neg (by rw [shows_iff hr]; exact not_not.mpr hskip)]
        exact ih hlt h
      · rename_i hshow
        rw [List.filter_cons_of_pos ((shows_iff hr).mpr hshow)]
        obtain ⟨k, hk⟩ : ∃ k, q.limit - found.length = k + 1 := ⟨q.limit - found.length - 1, by omega⟩
        rw [hk, List.take_succ_cons, List.map_cons]
        split at h
        · rename_i hfull
          obtain rfl := pure_eq_ok.mp h
          obtain rfl : k = 0 := by
            rw [List.length_append, List.length_singleton] at hfull
            omega
          simp [listed]
        · rename_i hroom
          rw [ih (by omega) h, List.append_assoc]
          have hk' : q.limit - (found ++ [listed dict row]).length = k := by
            rw [List.length_append, List.length_singleton]
            omega
          rw [← hk']
          rfl
    · rename_i hr
      rw [List.filter_cons_of_neg (by simp [ListRequest.shows, hr])]
      exact ih hlt h

theorem gather_total (h : ∀ m ∈ rows, verifyMemoryRow P b.scope v m = .ok ()) :
    ∃ out, gather P lowercase b v q dict rows found = .ok out := by
  induction rows generalizing found with
  | nil => exact ⟨found, rfl⟩
  | cons row rows ih =>
    obtain ⟨hrow, hrows⟩ := List.forall_mem_cons.mp h
    rw [gather]
    simp only [hrow, bind, Except.bind]
    split
    · split
      · exact ih hrows
      · split
        · exact ⟨_, rfl⟩
        · exact ih hrows
    · exact ih hrows

theorem mem_selected {m : MemoryRow} {scope : String} :
    m ∈ selected q scope v ↔ m ∈ v.memories ∧ q.selects scope m := by
  rw [selected, List.mem_insertionSort, List.mem_filter, decide_eq_true_eq]

theorem mem_superseding {m : MemoryRow} {scope : String} : m ∈ superseding scope v ↔
    m ∈ v.memories ∧ m.scope = scope ∧ m.supersedesMemoryId.isSome = true := by
  rw [superseding, List.mem_insertionSort, List.mem_filter, decide_eq_true_eq]

def enter (b : Bridge) (v : Vault) (dict : List (String × String)) (item : MemoryRow) :
    List (String × String) :=
  if readable b v item = true then
    upsert Prod.fst (item.supersedesMemoryId.getD "None", item.memoryId) dict
  else dict

theorem foldlM_enter {items : List MemoryRow}
    (h : ∀ m ∈ items, verifyMemoryRow P b.scope v m = .ok ()) :
    items.foldlM (noteSuperseder P b v) dict = .ok (items.foldl (enter b v) dict) := by
  induction items generalizing dict with
  | nil => rfl
  | cons m items ih =>
    obtain ⟨hm, hitems⟩ := List.forall_mem_cons.mp h
    have hstep : noteSuperseder P b v dict m = .ok (enter b v dict m) := by
      rw [noteSuperseder, enter, hm]
      split <;> rfl
    rw [List.foldlM_cons, hstep]
    exact ih hitems

theorem Vault.Sound.verifies {m : MemoryRow} {scope : String} (hv : v.Sound P)
    (hm : m ∈ v.memories) (hscope : m.scope = scope) : verifyMemoryRow P scope v m = .ok () :=
  hscope ▸ verifyMemoryRow_iff.mpr (hv.verified m hm)

theorem supersededBy_eq (hv : v.Sound P) :
    supersededBy P b v = .ok ((superseding b.scope v).foldl (enter b v) []) := by
  refine foldlM_enter (fun m hm => ?_)
  obtain ⟨hmem, hscope, -⟩ := mem_superseding.mp hm
  exact hv.verifies hmem hscope

variable {a : ListArgs} {listing : MemoryListing}

theorem requireListing_limit (h : requireListing lowercase b a v = .ok q) : 0 < q.limit := by
  simp only [requireListing, bind_eq_ok, require_eq_ok, pure_eq_ok] at h
  obtain ⟨-, -, roomId, -, -, -, _, -, -, -, rfl⟩ := h
  simp only [maxMemoryListing]
  omega

theorem listMemories_eq_ok (hq : requireListing lowercase b a v = .ok q)
    (h : listMemories P lowercase b a v = .ok listing) :
    ∃ dict, supersededBy P b v = .ok dict ∧ listing.memories =
      ((((selected q b.scope v).take (q.limit * 4)).filter (q.shows lowercase b v)).take
        q.limit).map (listed dict) := by
  simp only [listMemories, hq, bind_eq_ok, pure_eq_ok] at h
  obtain ⟨_, hsame, dict, hdict, found, hfound, rfl⟩ := h
  obtain rfl := Except.ok.inj hsame
  exact ⟨dict, hdict, @gather_eq_ok _ _ _ _ _ _ _ [] _ (requireListing_limit hq) hfound⟩

theorem listMemories_total (hq : requireListing lowercase b a v = .ok q) (hv : v.Sound P) :
    ∃ listing, listMemories P lowercase b a v = .ok listing := by
  obtain ⟨found, hfound⟩ := @gather_total P lowercase b v q
    ((superseding b.scope v).foldl (enter b v) []) ((selected q b.scope v).take (q.limit * 4)) []
    (fun m hm => by
      obtain ⟨hmem, hscope, -⟩ := mem_selected.mp (List.mem_of_mem_take hm)
      exact hv.verifies hmem hscope)
  refine ⟨{ memories := found, roomId := q.roomId, visibility := q.visibility }, ?_⟩
  simp only [listMemories, hq, bind_eq_ok, pure_eq_ok]
  exact ⟨q, rfl, _, supersededBy_eq hv, found, hfound, rfl⟩

theorem list_memories_exact_iff (P : Platform) (lowercase : String → String) (b : Bridge)
    (a : ListArgs) (v : Vault) (q : ListRequest) (hq : requireListing lowercase b a v = .ok q) :
    (∀ listing, listMemories P lowercase b a v = .ok listing →
      (listing.memories.map Listed.row = newestShown lowercase b q v ↔
        q.limit ≤ (((selected q b.scope v).take (q.limit * 4)).filter
          (q.shows lowercase b v)).length ∨
        ∀ m ∈ (selected q b.scope v).drop (q.limit * 4), q.shows lowercase b v m = false)) ∧
    (∀ F x, (archive P F).Reachable x → x.vault = v →
      ∃ listing, listMemories P lowercase b a v = .ok listing) := by
  refine ⟨fun listing h => ?_, fun F x hx hv => listMemories_total hq (hv ▸ reachable_sound hx)⟩
  obtain ⟨dict, -, hrows⟩ := listMemories_eq_ok hq h
  rw [hrows, List.map_map, show Listed.row ∘ listed dict = id from rfl, List.map_id, newestShown]
  exact take_filter_take_iff

end Listing

def sampleRecord (title : String) (second : Nat) : ArchiveCall × Ctx :=
  (.record { visibility := "room", roomId := "r", title, body := "text" },
    sampleCtx sampleHuman second)

def sampleRoomCalls : List (ArchiveCall × Ctx) :=
  [(.mail .openScope, sampleCtx sampleHuman 1),
    (.mail (.createRoom { roomId := "r", name := "Room" }), sampleCtx sampleHuman 2)]

def sampleArchive (calls : List (ArchiveCall × Ctx)) : Archive :=
  ((archive samplePlatform plainForms).play { world := sampleWorld, memories := [] }
    (sampleRoomCalls ++ calls)).1

theorem sampleArchive_reachable {calls : List (ArchiveCall × Ctx)}
    (h : (archive samplePlatform plainForms).AdmitsAll { world := sampleWorld, memories := [] }
      (sampleRoomCalls ++ calls)) : (archive samplePlatform plainForms).Reachable (sampleArchive calls) :=
  ⟨_, _, ⟨⟨[], 0, rfl⟩, rfl⟩, Machine.run_play _ _ h⟩

def buriedArchive : Archive :=
  sampleArchive [sampleRecord "needle" 3, sampleRecord "straw" 4, sampleRecord "straw" 5,
    sampleRecord "straw" 6, sampleRecord "straw" 7]

theorem buriedArchive_reachable : (archive samplePlatform plainForms).Reachable buriedArchive :=
  sampleArchive_reachable (by decide +kernel)

def needleArgs : ListArgs := { roomId := "r", query := "needle", limit := 1 }

def needleRequest : ListRequest :=
  { visibility := none, roomId := some "r", query := "needle", includeRevoked := false, limit := 1 }

theorem needle_requested :
    requireListing lower sampleHuman needleArgs buriedArchive.vault = .ok needleRequest := by
  rfl

theorem list_memories_exact_iff_needle : ∃ listing,
    listMemories samplePlatform lower sampleHuman needleArgs buriedArchive.vault = .ok listing ∧
    (listing.memories.map Listed.row =
        newestShown lower sampleHuman needleRequest buriedArchive.vault ↔
      needleRequest.limit ≤ (((selected needleRequest sampleHuman.scope buriedArchive.vault).take
        (needleRequest.limit * 4)).filter
          (needleRequest.shows lower sampleHuman buriedArchive.vault)).length ∨
      ∀ m ∈ (selected needleRequest sampleHuman.scope buriedArchive.vault).drop
        (needleRequest.limit * 4),
          needleRequest.shows lower sampleHuman buriedArchive.vault m = false) := by
  obtain ⟨hexact, htotal⟩ := list_memories_exact_iff samplePlatform lower sampleHuman needleArgs
    buriedArchive.vault needleRequest needle_requested
  obtain ⟨listing, h⟩ := htotal plainForms buriedArchive buriedArchive_reachable rfl
  exact ⟨listing, h, hexact listing h⟩

theorem needle_buried : ¬ (needleRequest.limit ≤
      (((selected needleRequest sampleHuman.scope buriedArchive.vault).take
        (needleRequest.limit * 4)).filter
          (needleRequest.shows lower sampleHuman buriedArchive.vault)).length ∨
    ∀ m ∈ (selected needleRequest sampleHuman.scope buriedArchive.vault).drop
      (needleRequest.limit * 4),
        needleRequest.shows lower sampleHuman buriedArchive.vault m = false) := by decide +kernel

-- four newer records hide the one that the query names
theorem newer_records_bury_match : ¬ ∀ a, (archive samplePlatform plainForms).Reachable a →
    ∀ b x q listing, requireListing lower b x a.vault = .ok q →
      listMemories samplePlatform lower b x a.vault = .ok listing →
      listing.memories.map Listed.row = newestShown lower b q a.vault := by
  intro h
  have hq := needle_requested
  obtain ⟨listing, hl⟩ := listMemories_total hq (reachable_sound buriedArchive_reachable)
  obtain ⟨_, -, hrows⟩ := listMemories_eq_ok hq hl
  have hsame := h buriedArchive buriedArchive_reachable sampleHuman needleArgs needleRequest listing
    hq hl
  rw [hrows, List.map_map, show Listed.row ∘ listed _ = id from rfl, List.map_id] at hsame
  exact needle_buried (take_filter_take_iff.mp hsame)

end PeerBridge.Memories
