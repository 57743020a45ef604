import PeerBridge.Lib.Frames
import PeerBridge.Lib.Checked
import Mathlib.Data.List.Sort

namespace PeerBridge.GitSource
open Frames Checked

def maxGitInventoryBytes : ℕ := 16 * 1024 * 1024
def maxGitSourceFiles : ℕ := 100000
def maxGitSourceBytes : ℤ := 2 * 1024 * 1024 * 1024

inductive Failure where
  | governance (text : String)
  | overflow
  deriving DecidableEq, Repr

def refuse {α : Type} (text : String) : Except Failure α := .error (.governance text)

-- one `git ls-files` process
inductive GitRun where
  | unavailable
  | exited (output : Bytes) (code : ℤ)

def gitStateBytes : GitRun → Except Failure Bytes
  | .unavailable => refuse "Git state capture was unavailable or timed out"
  | .exited output code => do
    require (output.length ≤ maxGitInventoryBytes)
      (.governance "Git state capture exceeded the output byte limit")
    require (code = 0) (.governance "Git state capture failed")
    return output

structure Stat where
  mode : ℕ
  size : ℤ
  mtimeNs : ℤ
  deriving DecidableEq, Repr

def Stat.isLink (s : Stat) : Bool := s.mode &&& 0o170000 == 0o120000
def Stat.isRegular (s : Stat) : Bool := s.mode &&& 0o170000 == 0o100000
def Stat.permissions (s : Stat) : ℕ := s.mode &&& 0o7777

inductive Lstat where
  | found (s : Stat)
  | missing
  | failed

-- one turn of the reading loop, the empty chunk being the end of the file
inductive ReadStep where
  | expired
  | fault
  | chunk (bytes : Bytes)

inductive Place where
  | inside
  | escaping
  | unresolved

def safeSourcePath : Place → Except Failure Unit
  | .inside => .ok ()
  | .escaping => refuse "Git reported an unsafe source path"
  | .unresolved => refuse "Git source parent is unavailable or unsafe"

-- what the file system and the clock answer while one path is captured
structure Look where
  listed : Place
  entered : Place
  metadata : Lstat
  overdue : Bool
  opened : Place
  before : Lstat
  link : Option Bytes
  opens : Bool
  reading : List ReadStep
  after : Lstat

inductive Kind where
  | symlink
  | file
  deriving DecidableEq, Repr

def Kind.bytes : Kind → Bytes
  | .symlink => ascii "symlink"
  | .file => ascii "file"

inductive Binding where
  | missing
  | present (kind : Kind) (mode size : ℕ) (digest : Bytes)
  deriving DecidableEq, Repr

def Binding.bytes : Binding → Bytes
  | .missing => ascii "missing"
  | .present kind mode size digest =>
    kind.bytes ++ 0 :: numeral 8 mode ++ 0 :: numeral 10 size ++ 0 :: hex digest

def readAll : List ReadStep → Except Failure Bytes
  | [] => .ok []
  | .expired :: _ => refuse "Git source hashing exceeded the time budget"
  | .fault :: _ => refuse "untracked Git file could not be read"
  | .chunk [] :: _ => .ok []
  | .chunk (x :: xs) :: rest => do
    let more ← readAll rest
    return (x :: xs) ++ more

section Capture
variable (sha : Bytes → Bytes)

def statusOf (text : String) : Lstat → Except Failure Stat
  | .found s => .ok s
  | .missing => refuse text
  | .failed => refuse text

def stableSourceBinding (l : Look) (missingAllowed : Bool) (maxBytes : ℤ) :
    Except Failure Binding := do
  safeSourcePath l.opened
  match l.before with
  | .missing =>
    if missingAllowed then return .missing
    else refuse "untracked Git source disappeared while it was hashed"
  | .failed => refuse "Git source is unavailable or unsafe"
  | .found before =>
    if before.isLink then
      match l.link with
      | none => refuse "untracked Git symlink could not be read"
      | some target =>
        let after ← statusOf "untracked Git symlink could not be read" l.after
        require (before = after) (.governance "Git source changed while it was hashed")
        return .present .symlink before.permissions target.length (sha target)
    else if before.isRegular then
      require (before.size ≤ maxBytes)
        (.governance "Git source exceeds the cumulative byte budget")
      require (l.opens = true) (.governance "untracked Git file could not be read")
      let content ← readAll l.reading
      let after ← statusOf "untracked Git file could not be read" l.after
      require (before = after) (.governance "Git source changed while it was hashed")
      return .present .file before.permissions content.length (sha content)
    else refuse "Git source has an unsupported file type"

-- the binding, and the running total of the sizes
def sourceBinding (l : Look) (missingAllowed : Bool) (total : ℤ) :
    Except Failure (Binding × ℤ) := do
  safeSourcePath l.entered
  match l.metadata with
  | .missing =>
    if missingAllowed then return (.missing, total)
    else refuse "untracked Git source disappeared while it was hashed"
  | .failed => refuse "Git source is unavailable or unsafe"
  | .found s =>
    let total' := total + max 0 s.size
    require (total' ≤ maxGitSourceBytes)
      (.governance "Git source exceeds the cumulative byte budget")
    require (l.overdue = false) (.governance "Git source hashing exceeded the time budget")
    let b ← stableSourceBinding sha l missingAllowed (maxGitSourceBytes - (total' - s.size))
    return (b, total')

structure IndexEntry where
  metadata : Bytes
  relative : Bytes
  deriving DecidableEq, Repr

def octal (x : UInt8) : Bool := decide (48 ≤ x) && decide (x ≤ 55)
def lowerHex (x : UInt8) : Bool :=
  (decide (48 ≤ x) && decide (x ≤ 57)) || (decide (97 ≤ x) && decide (x ≤ 102))

def goodMode (xs : Bytes) : Bool := xs.length == 6 && xs.all octal
def goodObjectId (xs : Bytes) : Bool :=
  decide (40 ≤ xs.length) && decide (xs.length ≤ 64) && xs.all lowerHex

def parseIndexRecord (record : Bytes) : Except Failure IndexEntry :=
  match record.span (· ≠ 9) with
  | (metadata, _ :: x :: relative) =>
    match metadata.splitOn 32 with
    | [mode, objectId, stage] => do
      require (goodMode mode ∧ goodObjectId objectId ∧ stage = ascii "0")
        (.governance "Git index contains an unsupported or unresolved entry")
      return ⟨metadata, x :: relative⟩
    | _ => refuse "Git index inventory is malformed"
  | _ => refuse "Git index inventory is malformed"

def pieces (raw : Bytes) : List Bytes := (raw.splitOn 0).filter (· ≠ [])

def parseIndexInventory (raw : Bytes) : Except Failure (List IndexEntry) := do
  let entries ← (pieces raw).mapM parseIndexRecord
  return entries.insertionSort (fun a b => a.relative ≤ b.relative)

def sortedPaths (raw : Bytes) : List Bytes :=
  (pieces raw).insertionSort (fun a b => a ≤ b)

def hashFrame (hasher label payload : Bytes) : Except Failure Bytes :=
  if label.length < 256 ^ 4 ∧ payload.length < 256 ^ 8 then
    .ok (hasher ++ frame (label, payload))
  else .error .overflow

structure Tracked where
  entry : IndexEntry
  workingTree : Binding
  deriving DecidableEq, Repr

structure Untracked where
  relative : Bytes
  binding : Binding
  deriving DecidableEq, Repr

-- the bytes fed to the hasher and the entries they were taken from
structure Hashing where
  hasher : Bytes
  total : ℤ
  turn : ℕ
  tracked : List Tracked
  untracked : List Untracked

def hashTracked (look : ℕ → Look) :
    List IndexEntry → Hashing → Except Failure Hashing
  | [], h => .ok h
  | e :: rest, h => do
    let l := look h.turn
    safeSourcePath l.listed
    let hasher ← hashFrame h.hasher (ascii "tracked-index") e.metadata
    let hasher ← hashFrame hasher (ascii "tracked-path") e.relative
    let (b, total) ← sourceBinding sha l true h.total
    let hasher ← hashFrame hasher (ascii "tracked-working-tree") b.bytes
    hashTracked look rest
      { hasher, total, turn := h.turn + 1, tracked := h.tracked ++ [⟨e, b⟩]
        untracked := h.untracked }

def hashUntracked (look : ℕ → Look) : List Bytes → Hashing → Except Failure Hashing
  | [], h => .ok h
  | relative :: rest, h => do
    let l := look h.turn
    safeSourcePath l.listed
    let hasher ← hashFrame h.hasher (ascii "untracked-path") relative
    let (b, total) ← sourceBinding sha l false h.total
    let hasher ← hashFrame hasher (ascii "untracked-binding") b.bytes
    hashUntracked look rest
      { hasher, total, turn := h.turn + 1, tracked := h.tracked
        untracked := h.untracked ++ [⟨relative, b⟩] }

-- a repository while it is captured: both listings, and the n-th binding's observations
structure Repository where
  index : GitRun
  others : GitRun
  look : ℕ → Look

structure Captured where
  digest : Bytes
  stream : Bytes
  tracked : List Tracked
  untracked : List Untracked
  deriving DecidableEq, Repr

def captureGitSource (r : Repository) : Except Failure Captured := do
  let indexRaw ← gitStateBytes r.index
  let tracked ← parseIndexInventory indexRaw
  let untrackedRaw ← gitStateBytes r.others
  let untracked := sortedPaths untrackedRaw
  require (tracked.length + untracked.length ≤ maxGitSourceFiles)
    (.governance "Git source exceeds the file-count budget")
  let hasher ← hashFrame [] (ascii "schema") (ascii "peerbridge-git-state/v2")
  let h ← hashTracked sha r.look tracked ⟨hasher, 0, 0, [], []⟩
  let h ← hashUntracked sha r.look untracked h
  return ⟨sha h.hasher, h.hasher, h.tracked, h.untracked⟩

end Capture

section Frames

theorem ascii_missing_ne_zero : (0 : UInt8) ∉ ascii "missing" := by decide

theorem kind_ne_zero : ∀ k : Kind, (0 : UInt8) ∉ k.bytes := by
  intro k
  cases k <;> decide

theorem kind_inj {j k : Kind} (h : j.bytes = k.bytes) : j = k := by
  revert h
  cases j <;> cases k <;> decide

theorem missing_ne_present {k : Kind} {m n : ℕ} {d : Bytes} :
    ascii "missing" ≠ (Binding.present k m n d).bytes := by
  intro h
  apply ascii_missing_ne_zero
  rw [h]
  simp [Binding.bytes]

theorem binding_inj {a b : Binding} (h : a.bytes = b.bytes) : a = b := by
  cases a with
  | missing =>
    cases b with
    | missing => rfl
    | present => exact absurd h missing_ne_present
  | present k m n d =>
    cases b with
    | missing => exact absurd h.symm missing_ne_present
    | present k' m' n' d' =>
      simp only [Binding.bytes, List.append_assoc, List.cons_append] at h
      obtain ⟨hk, h⟩ := sep_cancel (kind_ne_zero k) (kind_ne_zero k') h
      obtain ⟨hm, h⟩ := sep_cancel (numeral_ne_zero (by decide) (by decide))
        (numeral_ne_zero (by decide) (by decide)) h
      obtain ⟨hn, hd⟩ := sep_cancel (numeral_ne_zero (by decide) (by decide))
        (numeral_ne_zero (by decide) (by decide)) h
      rw [kind_inj hk, numeral_inj (by decide) (by decide) hm,
        numeral_inj (by decide) (by decide) hn, hex_inj hd]

def heading : Bytes × Bytes := (ascii "schema", ascii "peerbridge-git-state/v2")

def Tracked.frames (t : Tracked) : List (Bytes × Bytes) :=
  [(ascii "tracked-index", t.entry.metadata), (ascii "tracked-path", t.entry.relative),
    (ascii "tracked-working-tree", t.workingTree.bytes)]

def Untracked.frames (u : Untracked) : List (Bytes × Bytes) :=
  [(ascii "untracked-path", u.relative), (ascii "untracked-binding", u.binding.bytes)]

def allFrames (ts : List Tracked) (us : List Untracked) : List (Bytes × Bytes) :=
  heading :: (ts.flatMap Tracked.frames ++ us.flatMap Untracked.frames)

theorem tracked_cancels : Cancels Tracked.frames where
  ne_nil := fun _ => List.cons_ne_nil _ _
  cancel := by
    rintro ⟨⟨m, p⟩, w⟩ ⟨⟨m', p'⟩, w'⟩ r s h
    simp only [Tracked.frames, List.cons_append, List.nil_append, List.cons.injEq,
      Prod.mk.injEq, true_and] at h
    obtain ⟨rfl, rfl, hw, hr⟩ := h
    exact ⟨by rw [binding_inj hw], hr⟩

theorem untracked_cancels : Cancels Untracked.frames where
  ne_nil := fun _ => List.cons_ne_nil _ _
  cancel := by
    rintro ⟨p, b⟩ ⟨p', b'⟩ r s h
    simp only [Untracked.frames, List.cons_append, List.nil_append, List.cons.injEq,
      Prod.mk.injEq, true_and] at h
    obtain ⟨rfl, hb, hr⟩ := h
    exact ⟨by rw [binding_inj hb], hr⟩

theorem labels_apart : ascii "tracked-index" ≠ ascii "untracked-path" := by decide

theorem allFrames_inj {ts ts' : List Tracked} {us us' : List Untracked}
    (h : allFrames ts us = allFrames ts' us') : ts = ts' ∧ us = us' := by
  refine tracked_cancels.sections_inj untracked_cancels ?_ (List.cons.inj h).2
  intro t u r s hf
  exact labels_apart (congrArg Prod.fst (List.cons.inj hf).1)

theorem allFrames_snoc_tracked (ts : List Tracked) (t : Tracked) :
    allFrames (ts ++ [t]) [] = allFrames ts [] ++ t.frames := by
  simp [allFrames]

theorem allFrames_snoc_untracked (ts : List Tracked) (us : List Untracked) (u : Untracked) :
    allFrames ts (us ++ [u]) = allFrames ts us ++ u.frames := by
  simp [allFrames]

end Frames

section Runs
variable {sha : Bytes → Bytes} {look : ℕ → Look} {h h' : Hashing} {fs : List (Bytes × Bytes)}
  {x y l p : Bytes}

-- the hasher has read exactly these frames, each within its length fields
structure Fed (x : Bytes) (fs : List (Bytes × Bytes)) : Prop where
  stream : x = stream fs
  fits : ∀ f ∈ fs, Fits f

theorem Fed.nil : Fed [] [] := ⟨rfl, fun _ hf => absurd hf List.not_mem_nil⟩

theorem Fed.frame (hx : Fed x fs) (ok : hashFrame x l p = .ok y) : Fed y (fs ++ [(l, p)]) := by
  rw [hashFrame] at ok
  split at ok
  · rename_i hlen
    obtain rfl := Except.ok.inj ok
    refine ⟨?_, ?_⟩
    · rw [hx.stream, stream_append, stream_cons, stream_nil, List.append_nil]
    · intro f hf
      rcases List.mem_append.mp hf with hf | hf
      · exact hx.fits f hf
      · rw [List.mem_singleton.mp hf]
        exact ⟨hlen.1, hlen.2⟩
  · cases ok

theorem hashTracked_fed {es : List IndexEntry} (hu : h.untracked = [])
    (hf : Fed h.hasher (allFrames h.tracked h.untracked))
    (ok : hashTracked sha look es h = .ok h') :
    Fed h'.hasher (allFrames h'.tracked h'.untracked) ∧
      h'.tracked.map Tracked.entry = h.tracked.map Tracked.entry ++ es ∧ h'.untracked = [] := by
  induction es generalizing h with
  | nil =>
    obtain rfl := Except.ok.inj ok
    exact ⟨hf, by simp, hu⟩
  | cons e es ih =>
    simp only [hashTracked, bind_eq_ok] at ok
    obtain ⟨-, -, x, hx, y, hy, ⟨b, total⟩, -, z, hz, ok⟩ := ok
    have hstep := ((hf.frame hx).frame hy).frame hz
    refine (ih ?_ ?_ ok).imp_right (fun hrest => ?_)
    · exact hu
    · simpa only [hu, allFrames_snoc_tracked, Tracked.frames, List.append_assoc,
        List.cons_append, List.nil_append] using hstep
    · simpa using hrest

theorem hashUntracked_fed {ps : List Bytes}
    (hf : Fed h.hasher (allFrames h.tracked h.untracked))
    (ok : hashUntracked sha look ps h = .ok h') :
    Fed h'.hasher (allFrames h'.tracked h'.untracked) ∧
      h'.untracked.map Untracked.relative = h.untracked.map Untracked.relative ++ ps ∧
        h'.tracked = h.tracked := by
  induction ps generalizing h with
  | nil =>
    obtain rfl := Except.ok.inj ok
    exact ⟨hf, by simp, rfl⟩
  | cons p ps ih =>
    simp only [hashUntracked, bind_eq_ok] at ok
    obtain ⟨-, -, x, hx, ⟨b, total⟩, -, y, hy, ok⟩ := ok
    have hstep := (hf.frame hx).frame hy
    refine (ih ?_ ok).imp_right (fun hrest => ?_)
    · simpa only [allFrames_snoc_untracked, Untracked.frames, List.append_assoc,
        List.cons_append, List.nil_append] using hstep
    · simpa using hrest

structure Captured.Sound (sha : Bytes → Bytes) (r : Repository) (c : Captured) : Prop where
  digest : c.digest = sha c.stream
  fed : Fed c.stream (allFrames c.tracked c.untracked)
  index : ∃ raw, gitStateBytes r.index = .ok raw ∧
    parseIndexInventory raw = .ok (c.tracked.map Tracked.entry)
  others : ∃ raw, gitStateBytes r.others = .ok raw ∧
    sortedPaths raw = c.untracked.map Untracked.relative

theorem capture_sound {r : Repository} {c : Captured} (ok : captureGitSource sha r = .ok c) :
    c.Sound sha r := by
  simp only [captureGitSource, bind_eq_ok, pure_eq_ok] at ok
  obtain ⟨index, hi, es, hes, others, ho, -, -, x, hx, h, hh, h', hh', rfl⟩ := ok
  obtain ⟨hf, hts, hnone⟩ := hashTracked_fed rfl (Fed.nil.frame hx) hh
  obtain ⟨hf', hus, hsame⟩ := hashUntracked_fed hf hh'
  refine ⟨rfl, hf', ⟨index, hi, ?_⟩, ⟨others, ho, ?_⟩⟩
  · rw [hes, hsame, hts]
    rfl
  · rw [hus, hnone]
    rfl

theorem digest_determines_entries {r s : Repository} {c d : Captured}
    (hr : captureGitSource sha r = .ok c) (hs : captureGitSource sha s = .ok d)
    (apart : sha c.stream = sha d.stream → c.stream = d.stream) (same : c.digest = d.digest) :
    c.tracked = d.tracked ∧ c.untracked = d.untracked := by
  have hc := capture_sound hr
  have hd := capture_sound hs
  have hstream : c.stream = d.stream := apart (by rw [← hc.digest, same, hd.digest])
  have hframes : allFrames c.tracked c.untracked = allFrames d.tracked d.untracked := by
    refine stream_inj hc.fed.fits hd.fed.fits ?_
    rw [← hc.fed.stream, hstream, hd.fed.stream]
  exact allFrames_inj hframes

end Runs

section Sample

-- SHA-256 on the three inputs of the sample captures
def fileDigest : Bytes :=
  [143, 67, 67, 70, 100, 143, 107, 150, 223, 137, 221, 169, 1, 197, 23, 107, 16, 166, 216, 57,
   97, 221, 60, 26, 200, 139, 89, 178, 220, 50, 122, 164]

def linkDigest : Bytes :=
  [24, 183, 203, 9, 154, 158, 163, 245, 11, 168, 153, 181, 186, 129, 224, 211, 119, 165, 243,
   177, 111, 143, 110, 235, 139, 62, 88, 205, 70, 146, 185, 147]

def sourceDigest : Bytes :=
  [94, 197, 149, 101, 250, 143, 27, 19, 161, 124, 53, 114, 30, 91, 29, 38, 244, 189, 74, 212,
   86, 52, 165, 98, 227, 179, 170, 91, 186, 195, 225, 138]

def sampleSha (xs : Bytes) : Bytes :=
  if xs = ascii "hi" then fileDigest else if xs = ascii "a.txt" then linkDigest else sourceDigest

def sampleIndex : Bytes :=
  ascii "100644 bbbbbbbbbbbbbbbbbbbbbbbbbbbbbbbbbbbbbbbb 0" ++ 9 :: ascii "b" ++ [0] ++
    ascii "100644 aaaaaaaaaaaaaaaaaaaaaaaaaaaaaaaaaaaaaaaa 0" ++ 9 :: ascii "a.txt" ++ [0]

def fileLook (mtime : ℤ) (reading : List ReadStep) : Look :=
  ⟨.inside, .inside, .found ⟨0o100644, 2, mtime⟩, false, .inside, .found ⟨0o100644, 2, mtime⟩, none,
    true, reading, .found ⟨0o100644, 2, mtime⟩⟩

def missingLook : Look :=
  ⟨.inside, .inside, .missing, false, .inside, .missing, none, false, [], .missing⟩

def linkLook : Look :=
  ⟨.inside, .inside, .found ⟨0o120777, 5, 0⟩, false, .inside, .found ⟨0o120777, 5, 0⟩,
    some (ascii "a.txt"), false, [], .found ⟨0o120777, 5, 0⟩⟩

def sampleRepository (mtime : ℤ) (reading : List ReadStep) : Repository where
  index := .exited sampleIndex 0
  others := .exited (ascii "c" ++ [0]) 0
  look
    | 0 => fileLook mtime reading
    | 1 => missingLook
    | _ => linkLook

def sampleTracked : List Tracked :=
  [⟨⟨ascii "100644 aaaaaaaaaaaaaaaaaaaaaaaaaaaaaaaaaaaaaaaa 0", ascii "a.txt"⟩,
      .present .file 0o644 2 fileDigest⟩,
    ⟨⟨ascii "100644 bbbbbbbbbbbbbbbbbbbbbbbbbbbbbbbbbbbbbbbb 0", ascii "b"⟩, .missing⟩]

def sampleUntracked : List Untracked := [⟨ascii "c", .present .symlink 0o777 5 linkDigest⟩]

def sampleCaptured : Captured :=
  ⟨sourceDigest, stream (allFrames sampleTracked sampleUntracked), sampleTracked, sampleUntracked⟩

theorem digest_determines_entries_sample :
    captureGitSource sampleSha (sampleRepository 5 [.chunk (ascii "hi")]) = .ok sampleCaptured ∧
      captureGitSource sampleSha (sampleRepository 9 [.chunk (ascii "h"), .chunk (ascii "i")]) =
        .ok sampleCaptured ∧
      sampleCaptured.tracked = sampleCaptured.tracked ∧
        sampleCaptured.untracked = sampleCaptured.untracked := by
  have first : captureGitSource sampleSha (sampleRepository 5 [.chunk (ascii "hi")]) =
      .ok sampleCaptured := by
    decide +kernel
  have second :
      captureGitSource sampleSha (sampleRepository 9 [.chunk (ascii "h"), .chunk (ascii "i")]) =
        .ok sampleCaptured := by
    decide +kernel
  exact ⟨first, second, digest_determines_entries first second (fun _ => rfl) rfl⟩

end Sample
end PeerBridge.GitSource
