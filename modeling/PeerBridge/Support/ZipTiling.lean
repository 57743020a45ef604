import PeerBridge.Support.ZipBundle
import PeerBridge.Lib.Tiling
import Mathlib.Algebra.BigOperators.Group.List.Basic

namespace PeerBridge.Edge.Zip
open Frames Checked Tiling

inductive Part where
  | localFile | centralRecord | endRecord
  deriving DecidableEq, Repr

structure Region where
  part : Part
  entry : Option Entry
  start : ℕ
  stop : ℕ
  deriving DecidableEq, Repr

def localRegion (e : Entry) : Region := ⟨.localFile, some e, e.localOffset, e.dataEnd⟩

def centralRegion (start : ℕ) (e : Entry) : Region :=
  ⟨.centralRecord, some e, start, start + 46 + e.name.length⟩

def centralRegions : ℕ → List Entry → List Region
  | _, [] => []
  | start, e :: rest => centralRegion start e :: centralRegions (start + 46 + e.name.length) rest

def endRegion (r : EndRecord) : Region := ⟨.endRecord, none, r.eocd, r.eocd + 22⟩

def regions (r : EndRecord) (entries : List Entry) : List Region :=
  entries.map localRegion ++ (centralRegions r.centralOffset entries ++ [endRegion r])

-- every byte of the archive lies in exactly one region
def Accounted (bytes : Bytes) (r : EndRecord) (entries : List Entry) : Prop :=
  ∀ i < bytes.length, ∃! g, g ∈ regions r entries ∧ g.start ≤ i ∧ i < g.stop

structure Entry.LocalRecord (bytes : Bytes) (e : Entry) : Prop where
  signature : zipUint32 bytes e.localOffset = .ok localSignature
  header : ∃ l, readLocal bytes e.localOffset = .ok l ∧ l.method = e.method ∧
    l.crc32 = e.crc32 ∧ l.compressedSize = e.compressedSize ∧
    l.uncompressedSize = e.uncompressedSize ∧ l.nameLength = e.name.length ∧ l.extraLength = 0
  name : (List.range e.name.length).mapM (nameByte bytes (e.localOffset + 30)) = .ok e.name
  data : e.dataOffset = e.localOffset + 30 + e.name.length
  dataEnd : e.dataEnd = e.dataOffset + e.compressedSize

structure Entry.CentralRecord (bytes : Bytes) (start : ℕ) (e : Entry) : Prop where
  signature : zipUint32 bytes start = .ok centralSignature
  record : ∃ c, readCentral bytes start = .ok c ∧ c.method = e.method ∧ c.entryCrc32 = e.crc32 ∧
    c.compressedSize = e.compressedSize ∧ c.uncompressedSize = e.uncompressedSize ∧
    c.nameLength = e.name.length ∧ c.extraLength = 0 ∧ c.entryCommentLength = 0 ∧
    c.localOffset = e.localOffset
  name : safeZipName bytes (start + 46) e.name.length = .ok e.name

section Reading
variable {bytes : Bytes} {r : EndRecord} {s s' : Reader} {offset n : ℕ} {name : Bytes}

theorem length_of_mapM {f : ℕ → Except String UInt8} (h : (List.range n).mapM f = .ok name) :
    name.length = n := by
  have hlen := (mapM_eq_ok.mp h).length_eq
  simpa using hlen.symm

theorem safeZipName_ok (h : safeZipName bytes offset n = .ok name) :
    (List.range n).mapM (nameByte bytes offset) = .ok name ∧ name.length = n := by
  simp only [safeZipName, bind_eq_ok, pure_eq_ok] at h
  obtain ⟨-, -, name, hname, -, -, rfl⟩ := h
  exact ⟨hname, length_of_mapM hname⟩

theorem forM_ok {f : ℕ → Except String Unit} {xs : List ℕ} (h : xs.forM f = .ok ()) :
    ∀ x ∈ xs, f x = .ok () := by
  induction xs with
  | nil => exact fun x hx => absurd hx List.not_mem_nil
  | cons y ys ih =>
    obtain ⟨_, hy, hys⟩ := bind_eq_ok.mp h
    intro x hx
    rcases List.mem_cons.mp hx with rfl | hx
    · exact hy
    · exact ih hys x hx

theorem nameByte_of_same {left right i : ℕ} (h : sameName bytes left right i = .ok ()) :
    nameByte bytes left i = nameByte bytes right i := by
  simp only [sameName, bind_eq_ok, require_eq_ok] at h
  obtain ⟨a, ha, b, hb, rfl⟩ := h
  rw [nameByte, nameByte, ha, hb]

theorem mapM_congr {f g : ℕ → Except String UInt8} {xs : List ℕ} (h : ∀ x ∈ xs, f x = g x) :
    xs.mapM f = xs.mapM g := by
  induction xs with
  | nil => rfl
  | cons x xs ih =>
    rw [List.mapM_cons, List.mapM_cons, h x List.mem_cons_self,
      ih (fun y hy => h y (List.mem_cons_of_mem x hy))]

-- what one pass of the reading loop adds
structure Appended (bytes : Bytes) (r : EndRecord) (s s' : Reader) (e : Entry) : Prop where
  entries : s'.entries = s.entries ++ [e]
  names : s'.names = s.names ++ [e.name]
  cursor : s'.cursor = s.cursor + 46 + e.name.length
  fresh : e.name ∉ s.names
  allowed : allowedZipMember e.name = true
  size : e.uncompressedSize ≤ zipMemberLimit e.name
  total : s'.totalUncompressed = s.totalUncompressed + e.uncompressedSize
  totalBound : s'.totalUncompressed ≤ maxExpandedBundleBytes
  attachments : s'.totalAttachmentBytes =
    if attachmentMember e.name then s.totalAttachmentBytes + e.uncompressedSize
    else s.totalAttachmentBytes
  attachmentsBound : attachmentMember e.name → s'.totalAttachmentBytes ≤ maxTotalAttachmentBytes
  inside : e.dataEnd ≤ r.centralOffset
  localRecord : e.LocalRecord bytes
  centralRecord : e.CentralRecord bytes s.cursor

theorem readEntry_appends (h : readEntry bytes r s = .ok s') : ∃ e, Appended bytes r s s' e := by
  simp only [readEntry, bind_eq_ok, pure_eq_ok, require_eq_ok] at h
  obtain ⟨-, -, _, hcs, -, rfl, c, hc, -, ⟨-, -, -, -, -, -, hx, hcomment, -⟩, name, hname, -,
    ⟨hallowed, hfresh⟩, -, ⟨-, hsize⟩, -, -, -, hattach, -, htotal, -, -, _, hls, -, rfl, l, hl, -,
    ⟨-, hmethod, hlen, hlx, hcrc, hcomp, huncomp, hdata⟩, _, hsame, rfl⟩ := h
  obtain ⟨hchars, hnameLen⟩ := safeZipName_ok hname
  refine ⟨_, rfl, rfl, ?_, hfresh, hallowed, hsize, rfl, htotal, rfl, hattach, hdata, ?_, ?_⟩
  · simp only [Central.next, hx, hcomment, hnameLen, Nat.add_zero]
  · refine ⟨hls, ⟨l, hl, hmethod, hcrc, hcomp, huncomp, ?_, hlx⟩, ?_, ?_, rfl⟩
    · rw [hlen, hnameLen]
    · rw [← hchars]
      simp only [hnameLen]
      exact mapM_congr (fun i hi => nameByte_of_same (forM_ok hsame i hi))
    · simp only [hlen, hlx, hnameLen, Nat.add_zero]
  · refine ⟨hcs, ⟨c, hc, rfl, rfl, rfl, rfl, ?_, hx, hcomment, rfl⟩, ?_⟩
    · rw [hnameLen]
    · simpa only [hnameLen] using hname

end Reading

section Gathering
variable {bytes : Bytes} {r : EndRecord} {s s' : Reader} {e : Entry} {es : List Entry} {a b n : ℕ}

theorem centralRegions_snoc (h : Laid Region.start Region.stop a (centralRegions a es) b) :
    centralRegions a (es ++ [e]) = centralRegions a es ++ [centralRegion b e] := by
  induction es generalizing a with
  | nil =>
    obtain rfl : a = b := h
    rfl
  | cons x es ih => exact congrArg (List.cons _) (ih h.2.2)

theorem laid_centralRegion (a : ℕ) (e : Entry) :
    Laid Region.start Region.stop a [centralRegion a e] (a + 46 + e.name.length) := by
  refine ⟨rfl, ?_, rfl⟩
  simp only [centralRegion]
  omega

structure Gathered (bytes : Bytes) (r : EndRecord) (s : Reader) : Prop where
  names : s.names = s.entries.map Entry.name
  distinct : (s.entries.map Entry.name).Nodup
  laid : Laid Region.start Region.stop r.centralOffset (centralRegions r.centralOffset s.entries)
    s.cursor
  centrals : ∀ g ∈ centralRegions r.centralOffset s.entries,
    ∃ e ∈ s.entries, g = centralRegion g.start e ∧ e.CentralRecord bytes g.start
  locals : ∀ e ∈ s.entries, e.LocalRecord bytes
  inside : ∀ e ∈ s.entries, e.dataEnd ≤ r.centralOffset
  allowed : ∀ e ∈ s.entries, allowedZipMember e.name = true
  sizes : ∀ e ∈ s.entries, e.uncompressedSize ≤ zipMemberLimit e.name
  total : s.totalUncompressed = (s.entries.map Entry.uncompressedSize).sum
  totalBound : s.totalUncompressed ≤ maxExpandedBundleBytes
  attachments : s.totalAttachmentBytes =
    ((s.entries.filter (fun e => attachmentMember e.name)).map Entry.uncompressedSize).sum
  attachmentsBound : s.totalAttachmentBytes ≤ maxTotalAttachmentBytes

theorem gathered_start : Gathered bytes r (Reader.start r) where
  names := rfl
  distinct := List.nodup_nil
  laid := rfl
  centrals := fun _ h => absurd h List.not_mem_nil
  locals := fun _ h => absurd h List.not_mem_nil
  inside := fun _ h => absurd h List.not_mem_nil
  allowed := fun _ h => absurd h List.not_mem_nil
  sizes := fun _ h => absurd h List.not_mem_nil
  total := rfl
  totalBound := Nat.zero_le _
  attachments := rfl
  attachmentsBound := Nat.zero_le _

theorem forall_snoc {p : Entry → Prop} (h : ∀ x ∈ es, p x) (he : p e) : ∀ x ∈ es ++ [e], p x := by
  intro x hx
  rcases List.mem_append.mp hx with hx | hx
  · exact h x hx
  · exact List.mem_singleton.mp hx ▸ he

theorem Gathered.append (h : Gathered bytes r s) (ha : Appended bytes r s s' e) :
    Gathered bytes r s' where
  names := by rw [ha.names, ha.entries, h.names, List.map_append, List.map_singleton]
  distinct := by
    rw [ha.entries, List.map_append, List.map_singleton, ← List.concat_eq_append]
    exact h.distinct.concat (h.names ▸ ha.fresh)
  laid := by
    rw [ha.entries, centralRegions_snoc h.laid, ha.cursor]
    exact h.laid.append (laid_centralRegion s.cursor e)
  centrals := by
    rw [ha.entries, centralRegions_snoc h.laid]
    intro g hg
    rcases List.mem_append.mp hg with hg | hg
    · obtain ⟨x, hx, hgx, hrec⟩ := h.centrals g hg
      exact ⟨x, List.mem_append_left _ hx, hgx, hrec⟩
    · obtain rfl := List.mem_singleton.mp hg
      exact ⟨e, List.mem_append_right _ List.mem_cons_self, rfl, ha.centralRecord⟩
  locals := ha.entries ▸ forall_snoc h.locals ha.localRecord
  inside := ha.entries ▸ forall_snoc h.inside ha.inside
  allowed := ha.entries ▸ forall_snoc h.allowed ha.allowed
  sizes := ha.entries ▸ forall_snoc h.sizes ha.size
  total := by rw [ha.total, ha.entries, h.total]; simp
  totalBound := ha.totalBound
  attachments := by
    rw [ha.attachments, ha.entries, List.filter_append, h.attachments]
    by_cases hm : attachmentMember e.name = true
    · simp [hm]
    · simp [hm]
  attachmentsBound := by
    by_cases hm : attachmentMember e.name = true
    · exact ha.attachmentsBound hm
    · rw [ha.attachments, if_neg hm]
      exact h.attachmentsBound

theorem readEntries_gathered (h : Gathered bytes r s) (ok : readEntries bytes r n s = .ok s') :
    Gathered bytes r s' := by
  induction n generalizing s with
  | zero => exact Except.ok.inj ok ▸ h
  | succ n ih =>
    obtain ⟨t, ht, hrest⟩ := bind_eq_ok.mp ok
    obtain ⟨e, he⟩ := readEntry_appends ht
    exact ih (h.append he) hrest

theorem Gathered.nonempty (h : Gathered bytes r s) (he : e ∈ s.entries) :
    e.localOffset < e.dataEnd := by
  have hl := h.locals e he
  rw [hl.dataEnd, hl.data]
  omega

theorem checkLayout_laid (hne : ∀ e ∈ es, e.localOffset < e.dataEnd)
    (ok : checkLayout a es = .ok b) : Laid Entry.localOffset Entry.dataEnd a es b := by
  induction es generalizing a with
  | nil => exact Except.ok.inj ok
  | cons e es ih =>
    simp only [checkLayout, bind_eq_ok, require_eq_ok] at ok
    obtain ⟨-, heq, ok⟩ := ok
    have hlt := hne e List.mem_cons_self
    exact ⟨heq, heq ▸ hlt, ih (fun x hx => hne x (List.mem_cons_of_mem e hx)) ok⟩

end Gathering

section EndRecords
variable {bytes : Bytes} {r : EndRecord} {minimum count eocd : ℕ}

theorem findEnd_spec (h : findEnd bytes minimum count = .ok eocd) :
    minimum ≤ eocd ∧ eocd < minimum + count ∧ zipUint32 bytes eocd = .ok endSignature ∧
      ∀ i, eocd < i → i < minimum + count → zipUint32 bytes i ≠ .ok endSignature := by
  induction count with
  | zero => cases h
  | succ count ih =>
    obtain ⟨x, hx, h⟩ := bind_eq_ok.mp h
    split at h
    · next heq =>
      obtain rfl := pure_eq_ok.mp h
      refine ⟨by omega, by omega, heq ▸ hx, fun i hi hi' => ?_⟩
      omega
    · next hne =>
      obtain ⟨hlow, hhigh, hsig, hlater⟩ := ih h
      refine ⟨hlow, by omega, hsig, fun i hi hi' => ?_⟩
      by_cases hlast : i < minimum + count
      · exact hlater i hi hlast
      · obtain rfl : i = minimum + count := by omega
        rw [hx]
        exact fun heq => hne (Except.ok.inj heq)

def EndsInRecord (bytes : Bytes) : Prop :=
  zipUint32 bytes (bytes.length - 22) = .ok endSignature

instance (bytes : Bytes) : Decidable (EndsInRecord bytes) :=
  inferInstanceAs (Decidable (_ = _))

structure EndFound (bytes : Bytes) (r : EndRecord) : Prop where
  signature : zipUint32 bytes r.eocd = .ok endSignature
  central : r.centralOffset + r.centralSize = r.eocd
  length : r.eocd + 22 + r.commentLength = bytes.length
  atEnd : EndsInRecord bytes ↔ r.commentLength = 0

theorem readEndRecord_found (h : readEndRecord bytes = .ok r) : EndFound bytes r := by
  simp only [readEndRecord, bind_eq_ok, pure_eq_ok, require_eq_ok] at h
  obtain ⟨-, hlen, eocd, hfind, _, -, _, -, _, -, _, -, _, -, _, -, _, -, -,
    ⟨-, -, -, -, -, hcentral, hcomment⟩, rfl⟩ := h
  obtain ⟨-, hhigh, hsig, hlater⟩ := findEnd_spec hfind
  refine ⟨hsig, hcentral, hcomment, ?_, ?_⟩
  · intro hend
    by_contra hne
    exact hlater (bytes.length - 22) (by simp only at hne; omega) (by omega) hend
  · intro hzero
    have : bytes.length - 22 = eocd := by simp only at hzero; omega
    rwa [EndsInRecord, this]

end EndRecords

section Numbering
variable {name rest : Bytes} {names : List Bytes} {entries : List Entry} {i j k : ℕ}

def attachmentsOf (entries : List Entry) : List Entry :=
  entries.filter (fun e => attachmentMember e.name)

-- the attachments carry the numbers 1 to k, each of them once
structure Numbered (entries : List Entry) : Prop where
  each : ∀ e ∈ attachmentsOf entries,
    ∃ j, 1 ≤ j ∧ j ≤ (attachmentsOf entries).length ∧ expectedPrefix j <+: e.name
  every : ∀ j, 1 ≤ j → j ≤ (attachmentsOf entries).length →
    ∃! e, e ∈ entries ∧ expectedPrefix j <+: e.name

theorem indexText_dotless (j : ℕ) : (46 : UInt8) ∉ indexText j := by
  intro h
  rcases List.mem_append.mp h with h | h
  · exact absurd (List.eq_of_mem_replicate h) (by decide)
  · have := (numeral_digit (by decide) (by decide) h).1
    simp at this

theorem indexText_inj (h : indexText i = indexText j) : i = j := by
  have hr := congrArg (readNumeral 10) h
  rwa [indexText, indexText, readNumeral_padded, readNumeral_padded,
    readNumeral_numeral (by decide) (by decide), readNumeral_numeral (by decide) (by decide)] at hr

theorem attachmentMember_shape (h : attachmentMember name = true) :
    ∃ d ∈ [49, 50, 51, 52, 53], ∃ x ∈ extensions, name = attachmentName d x := by
  obtain ⟨d, hd, hx⟩ := List.mem_flatMap.mp (of_decide_eq_true h)
  obtain ⟨x, hx, hname⟩ := List.mem_map.mp hx
  exact ⟨d, hd, x, hx, hname.symm⟩

theorem indexText_of_head {d : UInt8} {x : Bytes} (hd : d ∈ [49, 50, 51, 52, 53])
    (h : expectedPrefix j <+: attachmentName d x) : indexText j = [48, d] := by
  obtain ⟨r, hr⟩ := h
  simp only [expectedPrefix, attachmentName, List.append_assoc, List.append_cancel_left_eq,
    List.singleton_append] at hr
  refine (sep_cancel (indexText_dotless j) ?_ hr).1
  have hall := List.all_eq_true.mp (show [49, 50, 51, 52, 53].all
    (fun d : UInt8 => !([48, d].contains 46)) = true by decide) d hd
  simpa using hall

theorem prefix_unique (h : attachmentMember name = true) (hi : expectedPrefix i <+: name)
    (hj : expectedPrefix j <+: name) : i = j := by
  obtain ⟨d, hd, x, -, rfl⟩ := attachmentMember_shape h
  exact indexText_inj ((indexText_of_head hd hi).trans (indexText_of_head hd hj).symm)

theorem attachment_of_prefix (ha : allowedZipMember name = true)
    (h : expectedPrefix j <+: name) : attachmentMember name = true := by
  have hhead : name.head? = some 97 := by
    obtain ⟨r, rfl⟩ := h
    rfl
  simp only [allowedZipMember, Bool.or_eq_true, beq_iff_eq] at ha
  rcases ha with (rfl | rfl) | ha
  · exact absurd hhead (by decide)
  · exact absurd hhead (by decide)
  · exact ha

theorem checkIndices_ok (h : checkIndices k names = .ok ()) (hi : i < names.length) :
    expectedPrefix (k + i + 1) <+: names[i] := by
  induction names generalizing k i with
  | nil => cases hi
  | cons name names ih =>
    simp only [checkIndices, bind_eq_ok, require_eq_ok] at h
    obtain ⟨_, hname, h⟩ := h
    cases i with
    | zero => exact hname
    | succ i =>
      have := ih h (Nat.lt_of_succ_lt_succ hi)
      rwa [Nat.add_right_comm k 1 i] at this

theorem length_attachments (entries : List Entry) :
    (sortedAttachments (entries.map Entry.name)).length = (attachmentsOf entries).length := by
  rw [sortedAttachments, List.length_insertionSort, List.filter_map, List.length_map]
  rfl

theorem mem_sortedAttachments :
    name ∈ sortedAttachments names ↔ name ∈ names ∧ attachmentMember name = true := by
  rw [sortedAttachments, List.mem_insertionSort, List.mem_filter]

theorem numbered_of_checkIndices (hd : (entries.map Entry.name).Nodup)
    (ha : ∀ e ∈ entries, allowedZipMember e.name = true)
    (h : checkIndices 0 (sortedAttachments (entries.map Entry.name)) = .ok ()) :
    Numbered entries where
  each := by
    intro e he
    obtain ⟨he, hm⟩ := List.mem_filter.mp he
    have hmem : e.name ∈ sortedAttachments (entries.map Entry.name) :=
      mem_sortedAttachments.mpr ⟨List.mem_map_of_mem he, hm⟩
    obtain ⟨i, hi, heq⟩ := List.getElem_of_mem hmem
    have hp := checkIndices_ok h hi
    rw [heq, Nat.zero_add] at hp
    exact ⟨i + 1, by omega, by rw [← length_attachments]; omega, hp⟩
  every := by
    intro j hj hjk
    have hi : j - 1 < (sortedAttachments (entries.map Entry.name)).length := by
      rw [length_attachments]
      omega
    have hp := checkIndices_ok h hi
    rw [show 0 + (j - 1) + 1 = j by omega] at hp
    obtain ⟨hin, hm⟩ := mem_sortedAttachments.mp (List.getElem_mem hi)
    obtain ⟨e, he, hname⟩ := List.mem_map.mp hin
    refine ⟨e, ⟨he, hname ▸ hp⟩, ?_⟩
    rintro e' ⟨he', hp'⟩
    have hm' := attachment_of_prefix (ha e' he') hp'
    have hmem : e'.name ∈ sortedAttachments (entries.map Entry.name) :=
      mem_sortedAttachments.mpr ⟨List.mem_map_of_mem he', hm'⟩
    obtain ⟨i, hi', heq⟩ := List.getElem_of_mem hmem
    have hpi := checkIndices_ok h hi'
    rw [heq, Nat.zero_add] at hpi
    have hij : i + 1 = j := prefix_unique hm' hpi hp'
    obtain rfl : i = j - 1 := by omega
    exact List.inj_on_of_nodup_map hd he' he (heq.symm.trans hname.symm)

end Numbering

section Bundles
variable {bytes : Bytes} {r : EndRecord} {entries : List Entry}

structure Validated (bytes : Bytes) (r : EndRecord) (entries : List Entry) : Prop where
  locals : ∀ e ∈ entries, e.LocalRecord bytes
  centrals : ∀ g ∈ centralRegions r.centralOffset entries,
    ∃ e ∈ entries, g = centralRegion g.start e ∧ e.CentralRecord bytes g.start
  endRecord : zipUint32 bytes r.eocd = .ok endSignature
  names : (entries.map Entry.name).Nodup
  disjoint : entries.Pairwise (fun e f => e.dataEnd ≤ f.dataOffset ∨ f.dataEnd ≤ e.dataOffset)
  inside : ∀ e ∈ entries, e.dataOffset ≤ e.dataEnd ∧ e.dataEnd ≤ bytes.length
  sizes : ∀ e ∈ entries, e.uncompressedSize ≤ zipMemberLimit e.name
  total : (entries.map Entry.uncompressedSize).sum ≤ maxExpandedBundleBytes
  attachments : ((attachmentsOf entries).map Entry.uncompressedSize).sum ≤ maxTotalAttachmentBytes
  numbered : Numbered entries

theorem disjoint_of_laid {s : Reader} {b : ℕ} (hg : Gathered bytes r s)
    (h : Laid Entry.localOffset Entry.dataEnd 0 (byLocalOffset s.entries) b) :
    s.entries.Pairwise (fun e f => e.dataEnd ≤ f.dataOffset ∨ f.dataEnd ≤ e.dataOffset) := by
  have hperm : (byLocalOffset s.entries).Perm s.entries := List.perm_insertionSort _ _
  refine (hperm.pairwise_iff (fun hef => hef.symm)).mp ?_
  refine h.pairwise.imp_of_mem (fun {e f} _ hf hef => Or.inl (hef.trans ?_))
  have hl := hg.locals f (hperm.mem_iff.mp hf)
  rw [hl.data]
  omega

theorem laid_regions {s : Reader} (hg : Gathered bytes r s)
    (h : Laid Entry.localOffset Entry.dataEnd 0 (byLocalOffset s.entries) r.centralOffset)
    (hc : s.cursor = r.eocd) :
    Laid Region.start Region.stop 0
      ((byLocalOffset s.entries).map localRegion ++
        (centralRegions r.centralOffset s.entries ++ [endRegion r])) (r.eocd + 22) := by
  have hlocal : Laid Region.start Region.stop 0 ((byLocalOffset s.entries).map localRegion)
      r.centralOffset := laid_map h
  refine hlocal.append (hg.laid.append ?_)
  refine ⟨hc.symm, ?_, rfl⟩
  simp only [endRegion]
  omega

theorem mem_regions {g : Region} {es : List Entry} (h : es.Perm entries) :
    g ∈ es.map localRegion ++ (centralRegions r.centralOffset entries ++ [endRegion r]) ↔
      g ∈ regions r entries := by
  rw [regions, List.mem_append, (h.map localRegion).mem_iff, ← List.mem_append]

theorem accounted_iff {es : List Entry} (hperm : es.Perm entries)
    (hlaid : Laid Region.start Region.stop 0
      (es.map localRegion ++ (centralRegions r.centralOffset entries ++ [endRegion r]))
      (r.eocd + 22)) (he : EndFound bytes r) :
    Accounted bytes r entries ↔ r.commentLength = 0 := by
  constructor
  · intro h
    by_contra hne
    -- the first byte of the comment lies behind every region
    obtain ⟨g, ⟨hg, -, hlt⟩, -⟩ := h (r.eocd + 22) (by have := he.length; omega)
    have := (hlaid.bounds ((mem_regions hperm).mpr hg)).2.2
    omega
  · intro hzero i hi
    obtain ⟨g, ⟨hg, hcover⟩, huniq⟩ := hlaid.existsUnique (Nat.zero_le i)
      (show i < r.eocd + 22 by have := he.length; omega)
    refine ⟨g, ⟨(mem_regions hperm).mp hg, hcover⟩, ?_⟩
    rintro g' ⟨hg', hcover'⟩
    exact huniq g' ⟨(mem_regions hperm).mpr hg', hcover'⟩

theorem validateZipBundle_accounts (ok : validateZipBundle bytes = .ok entries) :
    ∃ r, readEndRecord bytes = .ok r ∧ Validated bytes r entries ∧
      (Accounted bytes r entries ↔ EndsInRecord bytes) := by
  simp only [validateZipBundle, bind_eq_ok, pure_eq_ok, require_eq_ok] at ok
  obtain ⟨r, hr, s, hs, -, ⟨hcursor, -⟩, last, hlast, -, rfl, _, hindices, rfl⟩ := ok
  have he := readEndRecord_found hr
  have hg := readEntries_gathered gathered_start hs
  have hperm : (byLocalOffset s.entries).Perm s.entries := List.perm_insertionSort _ _
  have hlaid := checkLayout_laid (fun e hx => hg.nonempty (hperm.mem_iff.mp hx)) hlast
  refine ⟨r, hr, ?_, ?_⟩
  · rw [hg.names] at hindices
    refine ⟨hg.locals, hg.centrals, he.signature, hg.distinct, disjoint_of_laid hg hlaid, ?_,
      hg.sizes, hg.total ▸ hg.totalBound, hg.attachments ▸ hg.attachmentsBound,
      numbered_of_checkIndices hg.distinct hg.allowed hindices⟩
    intro e hx
    have hin := hg.inside e hx
    have hcentral := he.central
    have hlength := he.length
    exact ⟨by rw [(hg.locals e hx).dataEnd]; omega, by omega⟩
  · rw [he.atEnd]
    exact accounted_iff hperm (laid_regions hg hlaid hcursor) he

end Bundles

section Sample

-- report.json, stored, with the two bytes of an empty object
def sampleMembers : Bytes :=
  [80, 75, 3, 4, 20, 0, 0, 0, 0, 0, 0, 0, 0, 0, 67, 191, 166, 163, 2, 0, 0, 0, 2, 0, 0, 0, 11,
   0, 0, 0, 114, 101, 112, 111, 114, 116, 46, 106, 115, 111, 110, 123, 125, 80, 75, 1, 2, 20, 3,
   20, 0, 0, 0, 0, 0, 0, 0, 0, 0, 67, 191, 166, 163, 2, 0, 0, 0, 2, 0, 0, 0, 11, 0, 0, 0, 0, 0,
   0, 0, 0, 0, 0, 0, 128, 129, 0, 0, 0, 0, 114, 101, 112, 111, 114, 116, 46, 106, 115, 111, 110]

def sampleEnd (comment : Bytes) : Bytes :=
  [80, 75, 5, 6, 0, 0, 0, 0, 1, 0, 1, 0, 57, 0, 0, 0, 43, 0, 0, 0,
   UInt8.ofNat comment.length, 0] ++ comment

def sampleBundle (comment : Bytes) : Bytes := sampleMembers ++ sampleEnd comment

def sampleEntry : Entry :=
  ⟨ascii "report.json", 0, 2745614147, 2, 2, 0, 41, 43⟩

theorem validateZipBundle_accounts_sample :
    ∃ r, readEndRecord (sampleBundle []) = .ok r ∧
      Validated (sampleBundle []) r [sampleEntry] ∧
        (Accounted (sampleBundle []) r [sampleEntry] ↔ EndsInRecord (sampleBundle [])) := by
  have ok : validateZipBundle (sampleBundle []) = .ok [sampleEntry] := by decide +kernel
  exact validateZipBundle_accounts ok

def commentedEnd : EndRecord := ⟨100, 0, 0, 1, 1, 57, 43, 1⟩

theorem comment_unaccounted :
    validateZipBundle (sampleBundle [120]) = .ok [sampleEntry] ∧
      readEndRecord (sampleBundle [120]) = .ok commentedEnd ∧
        ¬Accounted (sampleBundle [120]) commentedEnd [sampleEntry] := by
  refine ⟨by decide +kernel, by decide +kernel, ?_⟩
  intro h
  obtain ⟨g, ⟨hg, -, hlt⟩, -⟩ := h 122 (by decide +kernel)
  have hbefore : ∀ g ∈ regions commentedEnd [sampleEntry], g.stop ≤ 122 := by decide
  exact absurd hlt (Nat.not_lt.mpr (hbefore g hg))

end Sample

end PeerBridge.Edge.Zip
