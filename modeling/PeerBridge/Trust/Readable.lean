import PeerBridge.Trust.Completion

namespace PeerBridge.Trust
open Checked Rows

-- the store after successful calls; the earlier reads of a call may be of any earlier moment
inductive Reachable (site : Site) : World → Prop
  | start (d : Disk) : Reachable site ⟨.empty, d⟩
  | edit {w : World} (d : Disk) : Reachable site w → Reachable site ⟨w.store, d⟩
  | record {h : Nat → World} {n : Nat} {now : Utc} {a : RecordArgs} {s : Store} {r : TrustRow} :
      Reachable site (h (n + 2)) → record site h n now a = .ok (s, r) →
        Reachable site ⟨s, (h (n + 2)).disk⟩
  | disagreement {h : Nat → World} {n : Nat} {now : Utc} {a : RelationArgs} {s : Store}
      {r : TrustRow} :
      Reachable site (h (n + 6)) → recordDisagreement site h n now a = .ok (s, r) →
        Reachable site ⟨s, (h (n + 6)).disk⟩
  | recheck {h : Nat → World} {n : Nat} {now : Utc} {recordId statement uuid : String} {s : Store}
      {r : TrustRow} :
      Reachable site (h (n + 3)) → recheck site h n now recordId statement uuid = .ok (s, r) →
        Reachable site ⟨s, (h (n + 3)).disk⟩
  | completion {h : Nat → World} {n : Nat} {now : Utc} {a : RelationArgs} {s : Store}
      {r : TrustRow} :
      Reachable site (h (n + a.evidenceRecordIds.eraseDups.length + 5)) →
        recordCompletion site h n now a = .ok (s, r) →
          Reachable site ⟨s, (h (n + a.evidenceRecordIds.eraseDups.length + 5)).disk⟩

-- every record of a task, in creation order
def recordsOf (site : Site) (s : Store) (taskId : String) : List TrustRow :=
  (s.rows.filter (fun r => r.payload.scope = site.scope ∧ r.payload.taskId = taskId)).insertionSort
    (fun a b => a.payload.createdUtc ≤ b.payload.createdUtc)

structure WithinLimits (rows : List TrustRow) : Prop where
  records : rows.length ≤ 500
  paths : (boundPaths rows).length ≤ 100

def totalBytes (d : Disk) (paths : List String) : Nat :=
  ((paths.filterMap d.reading).map Reading.bytes).sum

-- the bound paths still resolve in the project, and the files there can be hashed
structure WithinBudgets (d : Disk) (paths : List String) : Prop where
  resolve : ∀ p ∈ paths, ∃ normalized, d.normalize p = .ok normalized
  small : totalBytes d paths ≤ maxProofTotalBytes

-- a bound file is missing or has another size or hash
def Drifted (d : Disk) (r : TrustRow) : Prop :=
  ∃ b ∈ r.payload.sourceBindings, d.reading b.path ≠ some ⟨b.bytes, b.sha256⟩

section Digests
variable {site : Site} {w : World}

def Digested (site : Site) (s : Store) : Prop :=
  ∀ r ∈ s.rows, site.stableSha256 r.payload = r.trustSha256

theorem Digested.recorded {h : Nat → World} {n : Nat} {a : RecordArgs} {s : Store} {r : TrustRow}
    (hd : Digested site (h (n + 2)).store) (hr : Recorded site h n a s r) : Digested site s := by
  intro x hx
  rw [hr.rows] at hx
  rcases List.mem_append.mp hx with hx | hx
  · exact hd x hx
  · exact List.mem_singleton.mp hx ▸ hr.digest

theorem reachable_digested (hw : Reachable site w) : Digested site w.store := by
  induction hw with
  | start d => exact fun _ hx => absurd hx List.not_mem_nil
  | edit d _ ih => exact ih
  | record _ ok ih => exact ih.recorded (record_ok ok)
  | disagreement _ ok ih =>
    simp only [recordDisagreement, bind_eq_ok] at ok
    obtain ⟨-, -, live, -, -, -, paths, -, ok⟩ := ok
    exact Digested.recorded ih (record_ok ok)
  | recheck _ ok ih =>
    simp only [Trust.recheck, bind_eq_ok] at ok
    obtain ⟨r, -, -, -, ok⟩ := ok
    exact Digested.recorded ih (record_ok ok)
  | completion _ ok ih =>
    obtain ⟨rows, paths, hc⟩ := recordCompletion_ok ok
    exact Digested.recorded ih hc.recorded

end Digests

section Distinct
variable {α : Type} [DecidableEq α]

theorem nodup_eraseDups : ∀ xs : List α, xs.eraseDups.Nodup
  | [] => List.nodup_nil
  | x :: xs => by
    rw [List.eraseDups_cons]
    refine List.nodup_cons.mpr ⟨?_, nodup_eraseDups _⟩
    rw [List.mem_eraseDups, List.mem_filter]
    simp
  termination_by xs => xs.length
  decreasing_by exact Nat.lt_succ_of_le (List.length_filter_le _ xs)

theorem eraseDups_of_nodup {xs : List α} (h : xs.Nodup) : xs.eraseDups = xs := by
  induction xs with
  | nil => rfl
  | cons x xs ih =>
    obtain ⟨hx, hxs⟩ := List.nodup_cons.mp h
    have hall : xs.filter (fun y => !y == x) = xs := by
      refine List.filter_eq_self.mpr (fun y hy => ?_)
      simp only [Bool.not_eq_true', beq_eq_false_iff_ne]
      exact fun heq => hx (heq ▸ hy)
    rw [List.eraseDups_cons, hall, ih hxs]

end Distinct

section Hashing
variable {d : Disk} {paths : List String} {total : Nat} {hashed : List (String × Reading)}
  {p : String}

theorem existing_of_reading {r : Reading} (h : d.reading p = some r) :
    ∃ normalized, d.existing p = .ok (normalized, r) := by
  rw [Disk.reading] at h
  split at h
  · next normalized r' hx => exact ⟨normalized, (Option.some.inj h) ▸ hx⟩
  · cases h

theorem reading_eq {normalized : String} (h : d.normalize p = .ok normalized) :
    d.reading p = d.file normalized := by
  rw [Disk.reading, Disk.existing, h]
  cases hf : d.file normalized with
  | none => simp [Bind.bind, Except.bind, hf, demand]
  | some r => simp [Bind.bind, Except.bind, hf, demand, pure, Except.pure]

theorem isFile_eq {normalized : String} (h : d.normalize p = .ok normalized) :
    d.isFile p = .ok (d.reading p).isSome := by
  rw [reading_eq h, Disk.isFile, h]
  rfl

theorem filterFiles_eq (hn : ∀ p ∈ paths, ∃ normalized, d.normalize p = .ok normalized) :
    filterFiles d paths = .ok (paths.filter (fun p => (d.reading p).isSome)) := by
  induction paths with
  | nil => rfl
  | cons p paths ih =>
    obtain ⟨normalized, hp⟩ := hn p List.mem_cons_self
    rw [filterFiles, isFile_eq hp, ih (fun q hq => hn q (List.mem_cons_of_mem p hq)),
      List.filter_cons]
    rfl

theorem totalBytes_filter :
    totalBytes d (paths.filter (fun p => (d.reading p).isSome)) = totalBytes d paths := by
  induction paths with
  | nil => rfl
  | cons p paths ih =>
    simp only [totalBytes] at ih ⊢
    cases hp : d.reading p with
    | none => simpa [hp] using ih
    | some r => simp [hp, ih]

theorem hashFrom_total (hr : ∀ p ∈ paths, (d.reading p).isSome = true)
    (hsum : total + totalBytes d paths ≤ maxProofTotalBytes) :
    ∃ hashed, hashFrom d total paths = .ok hashed := by
  induction paths generalizing total with
  | nil => exact ⟨[], rfl⟩
  | cons p paths ih =>
    obtain ⟨r, hp⟩ := Option.isSome_iff_exists.mp (hr p List.mem_cons_self)
    obtain ⟨normalized, hx⟩ := existing_of_reading hp
    have hstep : totalBytes d (p :: paths) = r.bytes + totalBytes d paths := by
      simp [totalBytes, hp]
    obtain ⟨more, hmore⟩ := @ih (total + r.bytes)
      (fun q hq => hr q (List.mem_cons_of_mem p hq)) (by omega)
    refine ⟨(p, r) :: more, ?_⟩
    simp only [hashFrom, bind_eq_ok, require_eq_ok, pure_eq_ok]
    exact ⟨_, hx, (), by show total + r.bytes ≤ _; omega, more, hmore, rfl⟩

theorem hashExisting_total (hnodup : paths.Nodup) (hr : ∀ p ∈ paths, (d.reading p).isSome = true)
    (hfew : paths.length ≤ 100) (hsum : totalBytes d paths ≤ maxProofTotalBytes) :
    ∃ hashed, hashExisting d paths = .ok hashed ∧ hashed.map Prod.fst = paths := by
  by_cases hnil : paths = []
  · exact ⟨[], by rw [hashExisting, if_pos hnil], by rw [hnil]; rfl⟩
  · obtain ⟨hashed, hh⟩ := @hashFrom_total _ _ 0 hr (by omega)
    refine ⟨hashed, ?_, (hashFrom_ok hh).1⟩
    have hfiles : hashProofFiles d paths = .ok hashed := by
      rw [hashProofFiles, eraseDups_of_nodup hnodup]
      simp only [bind_eq_ok, require_eq_ok]
      exact ⟨(), ⟨hnil, hfew⟩, hh⟩
    rw [hashExisting, if_neg hnil, hfiles]
    rfl

-- the hashes of the bound files that are there say what the disk reads at every bound path
theorem lookup_hashes (hkeys : hashed.map Prod.fst = paths.filter (fun p => (d.reading p).isSome))
    (hread : ∀ x ∈ hashed, d.reading x.1 = some x.2) (hp : p ∈ paths) :
    (lookup Prod.fst p hashed).map Prod.snd = d.reading p := by
  cases hl : lookup Prod.fst p hashed with
  | none =>
    cases hr : d.reading p with
    | none => rfl
    | some r =>
      have hin : p ∈ hashed.map Prod.fst := by
        rw [hkeys, List.mem_filter]
        exact ⟨hp, by rw [hr]; rfl⟩
      obtain ⟨x, hx, hxp⟩ := List.mem_map.mp hin
      exact absurd hxp (lookup_eq_none.mp hl x hx)
  | some x =>
    rw [← lookup_key hl]
    exact (hread x (lookup_mem hl)).symm

theorem freshness_stale {b : Binding} (h : (lookup Prod.fst b.path hashed).map Prod.snd =
    d.reading b.path) :
    (freshness hashed b).stale = true ↔ d.reading b.path ≠ some ⟨b.bytes, b.sha256⟩ := by
  rw [← h, freshness]
  cases lookup Prod.fst b.path hashed with
  | none => simp
  | some x =>
    obtain ⟨q, bytes, sha⟩ := x
    by_cases hsame : bytes = b.bytes ∧ sha = b.sha256
    · simp [hsame.1, hsame.2]
    · have hne : bytes ≠ b.bytes ∨ sha ≠ b.sha256 := by tauto
      simp [hne]
      tauto

end Hashing

section Timelines
variable {site : Site} {w : World} {taskId : String} {live : List Live} {rows : List TrustRow}
  {x : TrustRow}

theorem mem_recordsOf {s : Store} : x ∈ recordsOf site s taskId ↔
    x ∈ s.rows ∧ x.payload.scope = site.scope ∧ x.payload.taskId = taskId := by
  rw [recordsOf, List.mem_insertionSort, List.mem_filter, decide_eq_true_eq]

theorem taskRows_eq {s : Store} (h : (recordsOf site s taskId).length ≤ 501) :
    taskRows site s taskId = recordsOf site s taskId := List.take_of_length_le h

theorem length_taskRows {s : Store} :
    (taskRows site s taskId).length = min 501 (recordsOf site s taskId).length :=
  List.length_take

theorem row_of_digested {s : Store} (hd : Digested site s) (hx : x ∈ s.rows)
    (hscope : x.payload.scope = site.scope) : s.row site x.payload.recordId = .ok x := by
  have hl : lookup TrustRow.key (site.scope, x.payload.recordId) s.rows = some x :=
    hscope ▸ lookup_of_mem s.keys hx
  simp only [Store.row, bind_eq_ok, demand_eq_ok, require_eq_ok, pure_eq_ok]
  exact ⟨x, hl, (), hd x hx, rfl⟩

theorem forM_ok {α : Type} {f : α → Except Failure Unit} {xs : List α}
    (h : ∀ x ∈ xs, f x = .ok ()) : xs.forM f = .ok () := by
  induction xs with
  | nil => rfl
  | cons x xs ih =>
    refine bind_eq_ok.mpr ⟨(), h x List.mem_cons_self, ?_⟩
    exact ih (fun y hy => h y (List.mem_cons_of_mem x hy))

theorem mem_boundPaths {b : Binding} (hx : x ∈ rows) (hb : b ∈ x.payload.sourceBindings) :
    b.path ∈ boundPaths rows := by
  rw [boundPaths, List.mem_eraseDups]
  exact List.mem_flatMap.mpr ⟨x, hx, List.mem_map_of_mem hb⟩

theorem timeline_limits (ok : timeline site (fun _ => w) 0 taskId = .ok live) :
    WithinLimits (recordsOf site w.store (strip taskId)) := by
  obtain ⟨hashes, hlisted, -⟩ := timeline_ok ok
  have hfew := hlisted.few
  rw [length_taskRows] at hfew
  have hlen : (recordsOf site w.store (strip taskId)).length ≤ 500 := by omega
  exact ⟨hlen, by simpa only [taskRows_eq (hlen.trans (by decide))] using hlisted.paths⟩

theorem timeline_total (hd : Digested site w.store) (ht : isSafeId (strip taskId) = true)
    (hl : WithinLimits (recordsOf site w.store (strip taskId)))
    (hb : WithinBudgets w.disk (boundPaths (recordsOf site w.store (strip taskId)))) :
    ∃ hashes, timeline site (fun _ => w) 0 taskId =
        .ok ((recordsOf site w.store (strip taskId)).map (liveRow hashes)) ∧
      ∀ p ∈ boundPaths (recordsOf site w.store (strip taskId)),
        (lookup Prod.fst p hashes).map Prod.snd = w.disk.reading p := by
  generalize hp : boundPaths (recordsOf site w.store (strip taskId)) = paths at hb ⊢
  have hpaths : paths.length ≤ 100 := hp ▸ hl.paths
  have hnodup : paths.Nodup := hp ▸ nodup_eraseDups _
  have hrows := taskRows_eq (hl.records.trans (by decide))
  obtain ⟨hashes, hhash, hkeys⟩ := @hashExisting_total w.disk
    (paths.filter (fun p => (w.disk.reading p).isSome)) (hnodup.filter _)
    (fun p hx => (List.mem_filter.mp hx).2) ((List.length_filter_le _ _).trans hpaths)
    (by rw [totalBytes_filter]; exact hb.small)
  refine ⟨hashes, ?_, fun p hin => lookup_hashes hkeys (hashExisting_ok hhash) hin⟩
  simp only [timeline, bind_eq_ok, require_eq_ok, pure_eq_ok, hrows, hp]
  refine ⟨(), ht, (), hl.records, (), forM_ok ?_, (), hpaths, _, ?_, hashes, hhash, rfl⟩
  · intro r hr
    obtain ⟨hin, hscope, -⟩ := mem_recordsOf.mp hr
    rw [row_of_digested hd hin hscope]
    rfl
  · rw [filterFiles_eq hb.resolve]
    rfl

theorem liveRow_stale {hashes : List (String × Reading)} {d : Disk}
    (h : ∀ b ∈ x.payload.sourceBindings,
      (lookup Prod.fst b.path hashes).map Prod.snd = d.reading b.path) :
    (liveRow hashes x).stale = true ↔ Drifted d x := by
  simp only [liveRow, List.any_map, List.any_eq_true, Function.comp_apply, Drifted]
  exact exists_congr (fun b => and_congr_right (fun hb => freshness_stale (h b hb)))

theorem timeline_readable (hw : Reachable site w) (ht : isSafeId (strip taskId) = true)
    (hb : WithinBudgets w.disk (boundPaths (recordsOf site w.store (strip taskId)))) :
    ((∃ live, timeline site (fun _ => w) 0 taskId = .ok live) ↔
      WithinLimits (recordsOf site w.store (strip taskId))) ∧
    ∀ live, timeline site (fun _ => w) 0 taskId = .ok live →
      live.map Live.row = recordsOf site w.store (strip taskId) ∧
        ∀ x ∈ live, x.stale = true ↔ Drifted w.disk x.row := by
  have hd := reachable_digested hw
  refine ⟨⟨fun ⟨live, ok⟩ => timeline_limits ok, fun hl => ?_⟩, fun live ok => ?_⟩
  · obtain ⟨hashes, ok, -⟩ := timeline_total hd ht hl hb
    exact ⟨_, ok⟩
  · obtain ⟨hashes, ok', hread⟩ := timeline_total hd ht (timeline_limits ok) hb
    obtain rfl := Except.ok.inj (ok'.symm.trans ok)
    refine ⟨?_, ?_⟩
    · rw [List.map_map]
      exact List.map_id _
    · intro x hx
      obtain ⟨r, hr, rfl⟩ := List.mem_map.mp hx
      exact liveRow_stale (fun b hbin => hread b.path (mem_boundPaths hr hbin))

end Timelines

section Histories

-- safe identifiers, one for each number
def serial (n : Nat) : String :=
  String.ofList (List.replicate (n % 100 + 1) 'a' ++ List.replicate (n / 100) 'b')

theorem serial_count (n : Nat) : ((serial n).toList.count 'a') = n % 100 + 1 ∧
    (serial n).toList.count 'b' = n / 100 := by
  simp [serial, List.count_append, List.count_replicate]

theorem serial_inj {m n : Nat} (h : serial m = serial n) : m = n := by
  have hm := serial_count m
  have hn := serial_count n
  rw [h] at hm
  omega

theorem serial_safe {n : Nat} (h : n ≤ 500) : isSafeId (serial n) = true := by
  have hchars : (serial n).toList.all isSafeIdChar = true := by
    simp only [serial, String.toList_ofList, List.all_append, List.all_replicate]
    simp [isSafeIdChar]
  have hlen : (serial n).length = n % 100 + 1 + n / 100 := by
    simp [serial]
  simp only [isSafeId, hchars, hlen, Bool.true_and, Bool.and_eq_true, decide_eq_true_eq]
  omega

def claimArgs (n : Nat) : RecordArgs := ⟨"k", .claim, "seen", [], [], none, serial n⟩

def claimPayload (n : Nat) : Payload :=
  ⟨"s", serial n, "k", "human-operator", .claim, "seen", [], [], 0⟩

def claimRow (n : Nat) : TrustRow := ⟨claimPayload n, ⟨0⟩⟩

def claimDisk : Disk := sampleDisk ⟨1, ⟨5⟩⟩

theorem claim_prepared {n : Nat} (hn : n ≤ 500) :
    prepare sampleSite claimDisk claimDisk 0 (claimArgs n) =
      .ok ⟨claimPayload n, serial_safe hn⟩ := by
  have hstrip : strip "k" = "k" := by decide
  have hsafe : isSafeId "k" = true := by decide
  have htext : cleanStatement sampleSite "seen" = .ok "seen" := by decide
  have hid : isSafeId (claimArgs n).chosenId = true := serial_safe hn
  simp only [prepare, bind_eq_ok, require_eq_ok]
  refine ⟨(), ?_, (), ?_, "seen", htext, [], rfl, [], rfl, (), Nat.zero_le _, (), ?_, ?_⟩
  · exact hstrip.symm ▸ hsafe
  · exact fun _ => rfl
  · exact fun h => absurd h.1 (by simp [claimArgs, Stage.needsSource])
  · rw [dif_pos hid]
    simp only [claimArgs, hstrip]
    rfl

theorem claim_fresh {n : Nat} {s : Store} (hrows : s.rows = (List.range n).map claimRow) :
    lookup TrustRow.key (claimRow n).key s.rows = none := by
  rw [lookup_eq_none, hrows]
  intro r hr hkey
  obtain ⟨m, hm, rfl⟩ := List.mem_map.mp hr
  have hmn : m = n := serial_inj (Prod.mk.inj hkey).2
  rw [hmn, List.mem_range] at hm
  omega

theorem claim_recorded {n : Nat} {w : World} (hn : n ≤ 500) (hdisk : w.disk = claimDisk)
    (hrows : w.store.rows = (List.range n).map claimRow) :
    ∃ s, record sampleSite (fun _ => w) 0 0 (claimArgs n) = .ok (s, claimRow n) ∧
      s.rows = (List.range (n + 1)).map claimRow := by
  refine ⟨⟨w.store.rows ++ [claimRow n], keys_append (claim_fresh hrows),
    safe_append (serial_safe hn)⟩, ?_, ?_⟩
  · simp only [record, bind_eq_ok, hdisk]
    refine ⟨_, claim_prepared hn, ?_⟩
    simp only [append, bind_eq_ok, pure_eq_ok]
    exact ⟨(), rfl, _, dif_pos (claim_fresh hrows), rfl⟩
  · simp only [hrows, List.range_succ, List.map_append, List.map_singleton]

theorem claims_reachable (n : Nat) (hn : n ≤ 501) :
    ∃ w, Reachable sampleSite w ∧ w.store.rows = (List.range n).map claimRow ∧
      w.disk = claimDisk := by
  induction n with
  | zero => exact ⟨_, .start claimDisk, rfl, rfl⟩
  | succ n ih =>
    obtain ⟨w, hw, hrows, hdisk⟩ := ih (by omega)
    obtain ⟨s, hs, hsrows⟩ := claim_recorded (by omega) hdisk hrows
    exact ⟨_, .record (h := fun _ => w) hw hs, hsrows, hdisk⟩

theorem long_timeline_unreadable :
    ∃ w, Reachable sampleSite w ∧ (recordsOf sampleSite w.store "k").length = 501 ∧
      WithinBudgets w.disk (boundPaths (recordsOf sampleSite w.store "k")) ∧
        ∀ live, timeline sampleSite (fun _ => w) 0 "k" ≠ .ok live := by
  obtain ⟨w, hw, hrows, -⟩ := claims_reachable 501 le_rfl
  have hlen : (recordsOf sampleSite w.store "k").length = 501 := by
    have hall : ((List.range 501).map claimRow).filter
        (fun r => r.payload.scope = sampleSite.scope ∧ r.payload.taskId = "k") =
          (List.range 501).map claimRow := by
      refine List.filter_eq_self.mpr (fun r hr => ?_)
      obtain ⟨m, -, rfl⟩ := List.mem_map.mp hr
      rfl
    rw [recordsOf, List.length_insertionSort, hrows, hall, List.length_map, List.length_range]
  have hpaths : boundPaths (recordsOf sampleSite w.store "k") = [] := by
    have hnone : (recordsOf sampleSite w.store "k").flatMap
        (fun r => r.payload.sourceBindings.map Binding.path) = [] := by
      refine List.flatMap_eq_nil_iff.mpr (fun r hr => ?_)
      obtain ⟨hin, -⟩ := mem_recordsOf.mp hr
      rw [hrows] at hin
      obtain ⟨m, -, rfl⟩ := List.mem_map.mp hin
      rfl
    rw [boundPaths, hnone, List.eraseDups_nil]
  refine ⟨w, hw, hlen, ?_, ?_⟩
  · rw [hpaths]
    exact ⟨fun _ hp => absurd hp List.not_mem_nil, Nat.zero_le _⟩
  · intro live ok
    have hfew := (timeline_limits ok).records
    rw [show strip "k" = "k" by decide, hlen] at hfew
    exact absurd hfew (by decide)

def sourceArgs : RecordArgs := ⟨"k", .claim, "seen", ["f"], [], none, "1"⟩

def sourceRow : TrustRow :=
  ⟨⟨"s", "1", "k", "human-operator", .claim, "seen", [⟨"f", 1, ⟨5⟩⟩], [], 0⟩, ⟨0⟩⟩

def sourceWorld : World := ⟨.empty, sampleDisk ⟨1, ⟨5⟩⟩⟩

theorem source_recorded : ∃ s, record sampleSite (fun _ => sourceWorld) 0 0 sourceArgs =
    .ok (s, sourceRow) ∧ s.rows = [sourceRow] := by
  have hrun : (record sampleSite (fun _ => sourceWorld) 0 0 sourceArgs).map
      (fun x => (x.1.rows, x.2)) = .ok ([sourceRow], sourceRow) := by
    decide
  cases h : record sampleSite (fun _ => sourceWorld) 0 0 sourceArgs with
  | error e =>
    rw [h] at hrun
    cases hrun
  | ok x =>
    obtain ⟨s, r⟩ := x
    rw [h] at hrun
    obtain ⟨hrows, rfl⟩ := Prod.mk.inj (Except.ok.inj hrun)
    exact ⟨s, rfl, hrows⟩

-- one record, whose file is edited afterwards
theorem timeline_readable_sample :
    ∃ w, Reachable sampleSite w ∧ w.store.rows = [sourceRow] ∧
      ((∃ live, timeline sampleSite (fun _ => w) 0 "k" = .ok live) ↔
        WithinLimits (recordsOf sampleSite w.store (strip "k"))) ∧
      ∀ live, timeline sampleSite (fun _ => w) 0 "k" = .ok live →
        live.map Live.row = recordsOf sampleSite w.store (strip "k") ∧
          ∀ x ∈ live, x.stale = true ↔ Drifted w.disk x.row := by
  obtain ⟨s, hs, hrows⟩ := source_recorded
  have hw : Reachable sampleSite ⟨s, sampleDisk ⟨2, ⟨6⟩⟩⟩ :=
    .edit _ (.record (h := fun _ => sourceWorld) (.start _) hs)
  have hpaths : boundPaths (recordsOf sampleSite s (strip "k")) = ["f"] := by
    rw [recordsOf, hrows]
    decide
  have hsmall : totalBytes (sampleDisk ⟨2, ⟨6⟩⟩) ["f"] ≤ maxProofTotalBytes := by decide
  refine ⟨_, hw, hrows, timeline_readable hw (by decide) ?_⟩
  rw [hpaths]
  exact ⟨fun p _ => ⟨p, rfl⟩, hsmall⟩

end Histories

end PeerBridge.Trust
