import Mathlib.Data.List.Induction
import Mathlib.Data.List.ReduceOption
import PeerBridge.Imports.Store
import PeerBridge.Scenario

namespace Checked
variable {ε α β : Type}

theorem mapM_total {f : α → Except ε β} {xs : List α} (h : ∀ x ∈ xs, ∃ y, f x = .ok y) :
    ∃ ys, xs.mapM f = .ok ys := by
  induction xs with
  | nil => exact ⟨[], rfl⟩
  | cons x xs ih =>
    obtain ⟨y, hy⟩ := h x List.mem_cons_self
    obtain ⟨ys, hys⟩ := ih (fun z hz => h z (List.mem_cons_of_mem _ hz))
    exact ⟨y :: ys, mapM_eq_ok.mpr (.cons hy (mapM_eq_ok.mp hys))⟩

theorem mem_mapM {f : α → Except ε β} {xs : List α} {ys : List β} (h : xs.mapM f = .ok ys)
    {y : β} : y ∈ ys ↔ ∃ x ∈ xs, f x = .ok y := by
  refine ⟨exists_of_mapM h, ?_⟩
  rintro ⟨x, hx, hy⟩
  induction mapM_eq_ok.mp h with
  | nil => cases hx
  | @cons z w zs ws hz _ ih =>
    rcases List.mem_cons.mp hx with rfl | hx
    · rw [Except.ok.inj (hy.symm.trans hz)]
      exact List.mem_cons_self
    · exact List.mem_cons_of_mem _ (ih (mapM_eq_ok.mpr ‹_›) hx)

end Checked

namespace PeerBridge.ConversationImport
open Checked Rows
variable {T : Toolkit}

section Listing
variable {r : Record} {f : RecordFile} {s : Store} {scope : String}

theorem FileOf.readRecord_cases (h : FileOf T r f) :
    T.read (String.ofList f.text) = .ok none ∧ readRecord T f scope = .error .uncaught ∨
      T.read (String.ofList f.text) = .ok (some (r.json T)) ∧
        readRecord T f scope = verifyRecord T (r.json T) scope := by
  refine h.read.imp (fun hr => ⟨hr, ?_⟩) (fun hr => ⟨hr, ?_⟩)
  · simp only [readRecord, hr, demand, bind, Except.bind]
  · simp only [readRecord, hr, demand, bind, Except.bind]

theorem FileOf.readRecord_ok (h : FileOf T r f) {v : Json} (hv : readRecord T f scope = .ok v) :
    v = r.listed T ∧ r.scope = scope := by
  rcases @FileOf.readRecord_cases _ _ _ scope h with ⟨-, he⟩ | ⟨-, he⟩
  · simp [he] at hv
  · rw [he, verifyRecord_json] at hv
    by_cases hs : r.scope = scope
    · rw [if_pos hs] at hv
      exact ⟨(Except.ok.inj hv).symm, hs⟩
    · simp [hs] at hv

theorem FileOf.listedRecord_spec (h : FileOf T r f) :
    ∃ o, listedRecord T scope f = .ok o ∧
      ∀ v, o = some v ↔ f.size ≤ maxImportBytes ∧ readRecord T f scope = .ok v := by
  unfold listedRecord
  by_cases hsize : maxImportBytes < f.size
  · rw [if_pos hsize]
    exact ⟨none, rfl, fun v => by simp [Nat.not_le.mpr hsize]⟩
  · rw [if_neg hsize]
    have hle : f.size ≤ maxImportBytes := by omega
    rcases @FileOf.readRecord_cases _ _ _ scope h with ⟨hr, he⟩ | ⟨hr, he⟩
    · rw [hr, he]
      exact ⟨none, rfl, fun v => by simp⟩
    · rw [hr, he]
      cases hx : verifyRecord T (r.json T) scope with
      | error e =>
        refine ⟨none, ?_, fun v => by simp⟩
        simp only [bind, Except.bind, hx]
        rfl
      | ok x =>
        refine ⟨some x, ?_, fun v => ⟨fun hv => ⟨hle, ?_⟩, fun hv => ?_⟩⟩
        · simp only [bind, Except.bind, hx]
          rfl
        · rw [Option.some.inj hv]
        · rw [Except.ok.inj hv.2]

theorem Record.sortKey_listed (r : Record) : ∃ key, sortKey T (r.listed T) = .ok key := ⟨_, rfl⟩

variable (T) in
-- the records a listing goes through
def readable (scope : String) (s : Store) (v : Json) : Prop :=
  ∃ f ∈ s, f.size ≤ maxImportBytes ∧ readRecord T f scope = .ok v

theorem Kept.found (hs : Kept (T := T) s) :
    ∃ found, (s.mergeSort (fun a b => a.name ≤ b.name)).mapM (listedRecord T scope) = .ok found ∧
      ∀ v, v ∈ found.reduceOption ↔ readable T scope s v := by
  have hfiles : ∀ f, f ∈ s.mergeSort (fun a b => a.name ≤ b.name) ↔ f ∈ s :=
    fun f => List.mem_mergeSort
  have hspec : ∀ f ∈ s, ∃ o, listedRecord T scope f = .ok o ∧
      ∀ v, o = some v ↔ f.size ≤ maxImportBytes ∧ readRecord T f scope = .ok v := by
    intro f hf
    obtain ⟨r, hr⟩ := hs.files f hf
    exact hr.listedRecord_spec
  obtain ⟨found, hfound⟩ := @mapM_total _ _ _ (listedRecord T scope)
    (s.mergeSort (fun a b => a.name ≤ b.name)) (fun f hf => (hspec f ((hfiles f).mp hf)).imp fun o ho => ho.1)
  refine ⟨found, hfound, fun v => ?_⟩
  rw [List.reduceOption_mem_iff, mem_mapM hfound]
  constructor
  · rintro ⟨f, hf, hv⟩
    obtain ⟨o, ho, hiff⟩ := hspec f ((hfiles f).mp hf)
    exact ⟨f, (hfiles f).mp hf, (hiff v).mp (Except.ok.inj (ho.symm.trans hv))⟩
  · rintro ⟨f, hf, hv⟩
    obtain ⟨o, ho, hiff⟩ := hspec f hf
    exact ⟨f, (hfiles f).mpr hf, ho.trans (by rw [(hiff v).mpr hv])⟩

theorem keyed_records {vs : List Json} (h : ∀ v ∈ vs, ∃ key, sortKey T v = .ok key) :
    ∃ keyed, vs.mapM (fun record => do
      let key ← sortKey T record
      pure (key, record)) = .ok keyed ∧ keyed.map Prod.snd = vs := by
  induction vs with
  | nil => exact ⟨[], rfl, rfl⟩
  | cons v vs ih =>
    obtain ⟨key, hkey⟩ := h v List.mem_cons_self
    obtain ⟨keyed, hk, hm⟩ := ih (fun w hw => h w (List.mem_cons_of_mem _ hw))
    refine ⟨(key, v) :: keyed, mapM_eq_ok.mpr (.cons ?_ (mapM_eq_ok.mp hk)), by simp [hm]⟩
    simp [hkey]

/-- Every file that reads as a record of the scope, and is not too long, is listed. -/
theorem listConversationImports_kept (hs : Kept (T := T) s) (hcount : s.length ≤ maxConversations) :
    ∃ records, listConversationImports T scope s = .ok records ∧
      ∀ v, v ∈ records ↔ readable T scope s v := by
  obtain ⟨found, hfound, hmem⟩ := @Kept.found _ _ scope hs
  obtain ⟨keyed, hkeyed, hsnd⟩ := @keyed_records T found.reduceOption (by
    intro v hv
    obtain ⟨f, hf, -, hread⟩ := (hmem v).mp hv
    obtain ⟨r, hr⟩ := hs.files f hf
    rw [(hr.readRecord_ok hread).1]
    exact r.sortKey_listed)
  have hlength : ((keyed.mergeSort laterKey).map Prod.snd).length ≤ maxConversations := by
    have hkl : keyed.length = found.reduceOption.length := by rw [← hsnd, List.length_map]
    have hfl := (mapM_eq_ok.mp hfound).length_eq
    have hrl := found.reduceOption_length_le
    rw [List.length_map, List.length_mergeSort, hkl]
    rw [List.length_mergeSort] at hfl
    omega
  refine ⟨(keyed.mergeSort laterKey).map Prod.snd, ?_, fun v => ?_⟩
  · rw [listConversationImports, hfound]
    simp only [bind, Except.bind] at hkeyed ⊢
    rw [hkeyed]
    change Except.ok (((keyed.mergeSort laterKey).map Prod.snd).take maxConversations) = _
    rw [List.take_of_length_le hlength]
  · rw [← hmem, ← hsnd]
    simp only [List.mem_map, List.mem_mergeSort]

end Listing

section Runs
variable (T)

structure ImportCall where
  args : ImportArgs
  importedUtc : String
  room : Option Nat := none

def ImportCall.run (c : ImportCall) (s : Store) : Store × Except Halt (List ImportRow) :=
  importConversationExport T c.args c.importedUtc c.room s

def storeAfter (calls : List ImportCall) : Store := calls.foldl (fun s c => (c.run T s).1) []

-- one record for each conversation the call selects
def ImportCall.records (c : ImportCall) : List Record :=
  match openExport T c.args with
  | .ok x => x.conversations.map (x.record T c.args c.importedUtc)
  | .error _ => []

def ImportCall.ReadsBack (c : ImportCall) : Prop :=
  ∀ r ∈ c.records T, ConversationImport.ReadsBack T (r.json T)

variable {T} {c d : ImportCall} {s t : Store}

theorem ImportCall.run_store (c : ImportCall) (s : Store) :
    (c.run T s).1 = s ∨ c.run T s = importRecords T (c.records T) c.room s := by
  unfold ImportCall.run importConversationExport ImportCall.records
  cases openExport T c.args with
  | error e => exact .inl rfl
  | ok x => exact .inr rfl

theorem ImportCall.run_ok {rows : List ImportRow} (h : c.run T s = (t, .ok rows)) :
    importRecords T (c.records T) c.room s = (t, .ok rows) := by
  revert h
  unfold ImportCall.run importConversationExport ImportCall.records
  cases openExport T c.args with
  | error e => simp
  | ok x => exact id

/-- What every round of a call preserves, the call preserves. -/
theorem ImportCall.run_keeps {I : Store → Prop}
    (hstep : ∀ r ∈ c.records T, ∀ s t e, Imported (T := T) r s t e → I s → I t) (hs : I s) :
    I (c.run T s).1 := by
  rcases c.run_store (T := T) s with h | h
  · rwa [h]
  · rw [h]
    exact importRecords_keeps hstep hs

theorem storeAfter_kept {calls : List ImportCall} (h : ∀ c ∈ calls, c.ReadsBack T) :
    Kept (T := T) (storeAfter T calls) := by
  unfold storeAfter
  induction calls using List.reverseRecOn with
  | nil => exact ⟨List.nodup_nil, by simp⟩
  | append_singleton calls c ih =>
    rw [List.foldl_append, List.foldl_cons, List.foldl_nil]
    refine c.run_keeps (fun r hr s t e hi hs => hi.kept ?_ hs)
      (ih fun d hd => h d (List.mem_append_left _ hd))
    exact h c (List.mem_append_right _ (List.mem_singleton.mpr rfl)) r hr

variable (T) in
-- how long the record file of a conversation is, or will be
def storedSize (s : Store) (r : Record) : Nat :=
  match lookup RecordFile.name r.fileName s with
  | some f => f.size
  | none => (r.file T).size

variable (T) in
-- the answer's records are listed under their scope
def Listed (c : ImportCall) (rows : List ImportRow) (t : Store) : Prop :=
  ∃ records, listConversationImports T c.args.scope t = .ok records ∧
    List.Forall₂ (fun r row => row.importId = r.importId ∧ ∃ v ∈ records,
      v.item "import_id" = .str row.importId ∧
      v.item "messages" = .arr (r.conversation.messages.map (·.json T)) ∧
      v.item "record_sha256" = row.recordSha256) (c.records T) rows

theorem Recorded.importId {r : Record} {row : ImportRow} (h : Recorded T t r row) :
    row.importId = r.importId := by
  obtain ⟨f, -, -, ⟨-, rfl⟩ | ⟨x, -, rfl⟩⟩ := h <;> rfl

theorem ImportCall.scope_of {r : Record} (hr : r ∈ c.records T) : r.scope = c.args.scope := by
  unfold ImportCall.records at hr
  cases ho : openExport T c.args with
  | error e => simp [ho] at hr
  | ok x =>
    simp only [ho] at hr
    obtain ⟨conv, -, rfl⟩ := List.mem_map.mp hr
    rfl

theorem ImportCall.volatile {r r' : Record} (hr : r ∈ c.records T) (hr' : r' ∈ c.records T) :
    r.sourceName = r'.sourceName ∧ r.importedUtc = r'.importedUtc := by
  unfold ImportCall.records at hr hr'
  cases ho : openExport T c.args with
  | error e => simp [ho] at hr
  | ok x =>
    simp only [ho] at hr hr'
    obtain ⟨conv, -, rfl⟩ := List.mem_map.mp hr
    obtain ⟨conv', -, rfl⟩ := List.mem_map.mp hr'
    exact ⟨rfl, rfl⟩

theorem Record.listed_fixed (r : Record) : withoutKeys volatileKeys (r.listed T) = r.fixed T := rfl

theorem existingRecord_ok {r q : Record} {f : RecordFile} {x : Json} (hf : FileOf T q f)
    (h : existingRecord T r f = .ok x) :
    readRecord T f r.scope = .ok x ∧ x = q.listed T ∧ (q.fixed T).same (r.fixed T) = true := by
  simp only [existingRecord, bind_eq_ok, require_eq_ok, pure_eq_ok] at h
  obtain ⟨y, hread, -, hsame, rfl⟩ := h
  obtain ⟨rfl, -⟩ := hf.readRecord_ok hread
  rw [Record.listed_fixed] at hsame
  exact ⟨hread, rfl, hsame⟩

/-- A row of the answer stands for a file that reads as the record it reports. -/
theorem Recorded.reads {r : Record} {row : ImportRow} (h : Recorded T t r row)
    (ht : Kept (T := T) t) (hr : ReadsBack T (r.json T)) :
    ∃ f ∈ t, f.name = r.fileName ∧ ∃ q, FileOf T q f ∧ readRecord T f r.scope = .ok (q.listed T) ∧
      q.conversation.messages = r.conversation.messages ∧
      (q.listed T).item "record_sha256" = row.recordSha256 := by
  obtain ⟨f, hf, hname, ⟨rfl, rfl⟩ | ⟨x, hx, rfl⟩⟩ := h
  · refine ⟨r.file T, hf, hname, r, Record.file_of hr, ?_, rfl, rfl⟩
    have hread : T.read (String.ofList (r.file T).text) = .ok (some (r.json T)) := hr.whole
    simp only [readRecord, hread, demand, bind, Except.bind, verifyRecord_json, if_true]
  · obtain ⟨q, hq⟩ := ht.files f hf
    obtain ⟨hread, rfl, hsame⟩ := existingRecord_ok hq hx
    exact ⟨f, hf, hname, q, hq, hread, Record.same_fixed T hsame, rfl⟩

/-- The file of a row has the size foreseen for it. -/
theorem Recorded.size {r : Record} {row : ImportRow} {rs : List Record} {f : RecordFile}
    (h : Recorded T t r row) (ht : Kept (T := T) t) (hgrows : s <+: t)
    (horigin : ∀ f ∈ t, f ∈ s ∨ ∃ q ∈ rs, f = q.file T)
    (hback : ∀ q ∈ rs, ReadsBack T (q.json T))
    (hone : ∀ q ∈ rs, q.sourceName = r.sourceName ∧ q.importedUtc = r.importedUtc)
    (hf : f ∈ t) (hname : f.name = r.fileName) : storedSize T s r = f.size := by
  unfold storedSize
  cases hl : lookup RecordFile.name r.fileName s with
  | some g =>
    have hg := hgrows.subset (lookup_mem hl)
    rw [eq_of_key_eq ht.nodup hg hf ((lookup_key hl).trans hname.symm)]
  | none =>
    have hnew : f ∉ s := fun hm => lookup_eq_none.mp hl f hm hname
    obtain ⟨q, hq, rfl⟩ := (horigin f hf).resolve_left hnew
    obtain ⟨g, hg, hgname, ⟨rfl, -⟩ | ⟨x, hx, -⟩⟩ := h
    · rw [eq_of_key_eq ht.nodup hf hg (hname.trans hgname.symm)]
    · obtain rfl := eq_of_key_eq ht.nodup hf hg (hname.trans hgname.symm)
      obtain ⟨-, -, hsame⟩ := existingRecord_ok (Record.file_of (hback q hq)) hx
      rw [Record.file, Record.file, RecordFile.size, RecordFile.size,
        Record.json_eq T hsame (hone q hq).1 (hone q hq).2]

theorem Forall₂.exists_right {α β : Type} {R : α → β → Prop} {xs : List α} {ys : List β}
    (h : List.Forall₂ R xs ys) {x : α} (hx : x ∈ xs) : ∃ y, R x y := by
  induction h with
  | nil => cases hx
  | @cons z y xs ys hr _ ih =>
    rcases List.mem_cons.mp hx with rfl | hx
    · exact ⟨y, hr⟩
    · exact ih hx

theorem Forall₂.iff_left {α β : Type} {R S : α → β → Prop} {P : α → Prop} {xs : List α}
    {ys : List β} (h : List.Forall₂ R xs ys)
    (hiff : ∀ x ∈ xs, ∀ y, R x y → (S x y ↔ P x)) : List.Forall₂ S xs ys ↔ ∀ x ∈ xs, P x := by
  induction h with
  | nil => simp
  | @cons x y xs ys hr _ ih =>
    rw [List.forall₂_cons, List.forall_mem_cons, hiff x List.mem_cons_self y hr,
      ih fun z hz => hiff z (List.mem_cons_of_mem _ hz)]

theorem listed_iff {rows : List ImportRow} (hs : Kept (T := T) s) (hc : c.ReadsBack T)
    (h : c.run T s = (t, .ok rows)) (hcount : t.length ≤ maxConversations) :
    Listed T c rows t ↔ ∀ r ∈ c.records T, storedSize T s r ≤ maxImportBytes := by
  have hrun := ImportCall.run_ok h
  obtain ⟨hrows, horigin⟩ := importRecords_done hrun
  have hgrows : s <+: t := by
    have hg := @importRecords_grows T (c.records T) c.room s
    rwa [hrun] at hg
  have ht : Kept (T := T) t := by
    have hk := c.run_keeps (T := T) (I := Kept) (fun r hr s t e hi => hi.kept (hc r hr)) hs
    rwa [h] at hk
  obtain ⟨records, hlist, hmem⟩ :=
    @listConversationImports_kept _ _ c.args.scope ht hcount
  have hforall : Listed T c rows t ↔
      List.Forall₂ (fun r row => row.importId = r.importId ∧ ∃ v ∈ records,
        v.item "import_id" = .str row.importId ∧
        v.item "messages" = .arr (r.conversation.messages.map (·.json T)) ∧
        v.item "record_sha256" = row.recordSha256) (c.records T) rows := by
    refine ⟨fun ⟨records', hlist', hall⟩ => ?_, fun hall => ⟨records, hlist, hall⟩⟩
    rwa [Except.ok.inj (hlist.symm.trans hlist')]
  rw [hforall]
  refine Forall₂.iff_left hrows (fun r hr row hrec => ?_)
  obtain ⟨f, hf, hname, q, hq, hread, hmessages, hsha⟩ := hrec.reads ht (hc r hr)
  have hsize := hrec.size ht hgrows horigin hc (fun q hq => c.volatile hq hr) hf hname
  rw [hsize, ← c.scope_of hr] at *
  constructor
  · rintro ⟨-, v, hv, hid, -⟩
    obtain ⟨g, hg, hgsize, hgread⟩ := (hmem v).mp hv
    obtain ⟨p, hp⟩ := ht.files g hg
    obtain ⟨rfl, -⟩ := hp.readRecord_ok hgread
    have hsameId : p.importId = r.importId := by
      have hi : Json.str p.importId = .str row.importId := hid
      rw [Json.str.inj hi, hrec.importId]
    have hgname : g.name = r.fileName := by
      rw [hp.name, Record.fileName, Record.fileName, hsameId]
    rw [← eq_of_key_eq ht.nodup hg hf (hgname.trans hname.symm)]
    exact hgsize
  · intro hle
    refine ⟨hrec.importId, q.listed T, (hmem _).mpr ⟨f, hf, hle, hread⟩, ?_, ?_, hsha⟩
    · have hid : q.importId = r.importId := fileName_inj (hq.name.symm.trans hname)
      rw [hrec.importId, ← hid]
      rfl
    · rw [← hmessages]
      rfl

theorem ImportCall.fileNames (h : c.args = d.args) :
    (c.records T).map Record.fileName = (d.records T).map Record.fileName := by
  unfold ImportCall.records
  rw [h]
  cases openExport T d.args with
  | error e => rfl
  | ok x =>
    rw [List.map_map, List.map_map]
    rfl

theorem ImportCall.run_named (hs : (s.map RecordFile.name).Nodup) :
    ((c.run T s).1.map RecordFile.name).Nodup := by
  refine c.run_keeps (I := fun s => (s.map RecordFile.name).Nodup) ?_ hs
  intro r _ s t e hi hs
  rcases hi.extends with rfl | ⟨f, hname, hnew, rfl⟩
  · exact hs
  · rw [List.map_append, List.map_singleton, List.nodup_append]
    refine ⟨hs, by simp, fun a ha b hb hab => ?_⟩
    obtain ⟨g, hg, rfl⟩ := List.mem_map.mp ha
    exact lookup_eq_none.mp hnew g hg (by rw [hab, List.mem_singleton.mp hb, hname])

theorem ImportCall.run_grows : s <+: (c.run T s).1 :=
  c.run_keeps (I := fun t => s <+: t) (fun _ _ _ _ _ h hs => hs.trans h.grows) List.prefix_rfl

theorem ImportCall.run_names {f : RecordFile} (hf : f ∈ (c.run T s).1) :
    f ∈ s ∨ f.name ∈ (c.records T).map Record.fileName := by
  refine c.run_keeps (T := T) (s := s)
    (I := fun t => ∀ f ∈ t, f ∈ s ∨ f.name ∈ (c.records T).map Record.fileName)
    (fun r hr u t e hi hu f hf => ?_) (fun f hf => .inl hf) f hf
  rcases hi.extends with rfl | ⟨g, hname, -, rfl⟩
  · exact hu f hf
  · rcases List.mem_append.mp hf with hf | hf
    · exact hu f hf
    · rw [List.mem_singleton.mp hf, hname]
      exact .inr (List.mem_map_of_mem hr)

theorem ImportCall.run_idle {rows : List ImportRow} (h : (c.run T s).2 = .ok rows)
    (hargs : d.args = c.args) : (d.run T (c.run T s).1).1 = (c.run T s).1 := by
  have hrows := (importRecords_done (ImportCall.run_ok (T := T) (Prod.ext rfl h))).1
  refine d.run_keeps (T := T) (I := fun t => t = (c.run T s).1) (fun r hr u t e hi hu => ?_) rfl
  have hname : r.fileName ∈ (c.records T).map Record.fileName := by
    rw [← ImportCall.fileNames hargs]
    exact List.mem_map_of_mem hr
  obtain ⟨q, hq, hqr⟩ := List.mem_map.mp hname
  obtain ⟨row, f, hf, hfname, -⟩ := Forall₂.exists_right hrows hq
  subst hu
  cases hl : lookup RecordFile.name r.fileName (c.run T s).1 with
  | some g => exact hi.idle hl
  | none => exact absurd (hfname.trans hqr) (lookup_eq_none.mp hl f hf)

variable (T) in
-- a repeated import adds no second record for a conversation, whatever became of the first try
def RepeatsIdle (a : ImportArgs) (s : Store) : Prop :=
  ∀ first again : ImportCall, first.args = a → again.args = a →
    let t := (first.run T s).1
    let u := (again.run T t).1
    t <+: u ∧ (u.map RecordFile.name).Nodup ∧
    (∀ f ∈ u, f ∈ s ∨ f.name ∈ (first.records T).map Record.fileName) ∧
    ∀ rows, (first.run T s).2 = .ok rows → u = t

theorem repeatsIdle {a : ImportArgs} (hs : (s.map RecordFile.name).Nodup) : RepeatsIdle T a s := by
  intro first again hf ha t u
  refine ⟨ImportCall.run_grows, ImportCall.run_named (ImportCall.run_named hs), ?_, ?_⟩
  · intro f hu
    rcases ImportCall.run_names hu with hm | hm
    · exact ImportCall.run_names hm
    · rw [ImportCall.fileNames (ha.trans hf.symm)] at hm
      exact .inr hm
  · intro rows hrows
    exact ImportCall.run_idle hrows (ha.trans hf.symm)

/-- An accepted import stays readable exactly when its record files fit the reader's limit. -/
theorem imports_stay_readable (history : List ImportCall) (c : ImportCall)
    (hhistory : ∀ d ∈ history, d.ReadsBack T) (hc : c.ReadsBack T) {rows : List ImportRow}
    {t : Store} (h : c.run T (storeAfter T history) = (t, .ok rows))
    (hcount : t.length ≤ maxConversations) :
    (Listed T c rows t ∧ RepeatsIdle T c.args (storeAfter T history)) ↔
      ∀ r ∈ c.records T, storedSize T (storeAfter T history) r ≤ maxImportBytes := by
  have hs := storeAfter_kept hhistory
  rw [listed_iff hs hc h hcount]
  exact and_iff_left (repeatsIdle hs.nodup)

end Runs

section Bulk

-- what the parser makes of text without blanks
theorem splitWords_plain {t : String} (h : ∀ c ∈ t.toList, isSpace c = false) (hne : t ≠ "") :
    splitWords t = [t] := by
  have hchars : t.toList ≠ [] := fun he => hne (String.toList_inj.mp he)
  rw [splitWords, List.splitOnP_eq_singleton (fun c hc => by simp [h c hc])]
  simp [hchars]

theorem plainText_str {t : String} (h : ∀ c ∈ t.toList, isSpace c = false ∧ c.toNat ≠ 0)
    (hne : t ≠ "") : plainText T (.str t) = t := by
  have hmap : t.toList.map (fun c => if c.toNat = 0 then ' ' else c) = t.toList := by
    refine (List.map_congr_left fun c hc => if_neg (h c hc).2).trans (List.map_id _)
  rw [plainText, visibleText, hmap, String.ofList_toList,
    splitWords_plain (fun c hc => (h c hc).1) hne]
  rfl

/-- Messages with fingerprints of their own are all kept and numbered in order. -/
theorem deduplicateFrom_distinct {seen : List Sha256} {count : Nat} {ms : List VisibleMessage}
    (hnodup : (ms.map (·.fingerprint T)).Nodup) (hseen : ∀ m ∈ ms, m.fingerprint T ∉ seen)
    (hcount : count + ms.length ≤ maxMessagesPerConversation) :
    deduplicateFrom T seen count ms = (ms.zipIdx (count + 1)).map (fun x => ⟨x.1, x.2⟩) := by
  induction ms generalizing seen count with
  | nil => rfl
  | cons m ms ih =>
    obtain ⟨hm, hnodup⟩ := List.nodup_cons.mp hnodup
    rw [List.length_cons] at hcount
    rw [deduplicateFrom, if_neg (hseen m List.mem_cons_self)]
    by_cases hlast : maxMessagesPerConversation ≤ count + 1
    · obtain rfl : ms = [] := List.length_eq_zero_iff.mp (by omega)
      rw [if_pos hlast]
      rfl
    · rw [if_neg hlast, ih hnodup (fun x hx hmem => ?_) (by omega), List.zipIdx_cons,
        List.map_cons]
      rcases List.mem_cons.mp hmem with he | hmem
      · exact hm (List.mem_map.mpr ⟨x, hx, he⟩)
      · exact hseen x (List.mem_cons_of_mem _ hx) hmem

theorem fieldChars_append (F : TextForms) (fs gs : List (String × Json)) :
    fieldChars F (fs ++ gs) = fieldChars F fs ++ fieldChars F gs := by
  induction fs with
  | nil => rfl
  | cons f fs ih => simp only [List.cons_append, fieldChars, ih]

theorem itemChars_map (F : TextForms) (vs : List Json) : itemChars F vs = vs.map (jsonChars F) := by
  induction vs with
  | nil => rfl
  | cons v vs ih => rw [itemChars, ih, List.map_cons]

theorem weight_member (w : Char → Nat) (F : TextForms) (fs gs : List (String × Json))
    (key : String) (v u : Json) :
    JsonText.weight w (jsonChars F (.obj (fs ++ (key, v) :: gs))) +
        JsonText.weight w (jsonChars F u) =
      JsonText.weight w (jsonChars F (.obj (fs ++ (key, u) :: gs))) +
        JsonText.weight w (jsonChars F v) := by
  simp only [jsonChars, fieldChars_append, fieldChars]
  exact JsonText.weight_object_member w _ _ key _ _

theorem weight_text_str (w : Char → Nat) (F : TextForms) (n : Nat) (c : Char)
    (hc : JsonText.escapeChar c = [c]) :
    JsonText.weight w (jsonChars F (.str (String.ofList (List.replicate n c)))) =
      JsonText.weight w (jsonChars F (.str "")) + n * w c := by
  have hesc : JsonText.escape (List.replicate n c) = List.replicate n c :=
    JsonText.escape_plain fun d hd => by rw [List.eq_of_mem_replicate hd, hc]
  have hrep : JsonText.weight w (List.replicate n c) = n * w c := by simp [JsonText.weight]
  have hempty : JsonText.escape "".toList = [] := rfl
  simp only [jsonChars, JsonText.quote, String.toList_ofList, hesc, hempty, JsonText.weight_cons,
    JsonText.weight_append, JsonText.weight_nil, hrep]
  omega

def bulkItem (text : String) (i : Nat) : Json :=
  .obj [("content", .str text), ("id", .str (toString i)), ("role", .str "user")]

def bulkCount : Nat := 150

-- an export of one conversation, with one text in all its messages
def bulkExport (text : String) : Json :=
  .obj [("conversation_id", .str "c"), ("messages", .arr ((List.range bulkCount).map (bulkItem text))),
    ("title", .str "Bulk")]

def bulkForms : TextForms := ⟨fun _ => "0", fun _ => ""⟩

def bulkSource (text : String) : String := dumps bulkForms (bulkExport text)

def bulkBytes (text : String) : Bytes :=
  (bulkSource text).toList.flatMap String.utf8EncodeChar

def base64Digit (n : Nat) : Char :=
  if n < 26 then Char.ofNat (65 + n) else if n < 52 then Char.ofNat (71 + n)
  else if n < 62 then Char.ofNat (n - 4) else if n = 62 then '+' else '/'

def base64 : Bytes → List Char
  | a :: b :: c :: r =>
    base64Digit (a.toNat / 4) :: base64Digit (a.toNat % 4 * 16 + b.toNat / 16) ::
      base64Digit (b.toNat % 16 * 4 + c.toNat / 64) :: base64Digit (c.toNat % 64) :: base64 r
  | [a, b] =>
    [base64Digit (a.toNat / 4), base64Digit (a.toNat % 4 * 16 + b.toNat / 16),
      base64Digit (b.toNat % 16 * 4), '=']
  | [a] => [base64Digit (a.toNat / 4), base64Digit (a.toNat % 4 * 16), '=', '=']
  | [] => []

def bulkContent (text : String) : String := String.ofList (base64 (bulkBytes text))

def bulkPlatform : Platform :=
  { samplePlatform with
    stableSha256 := fun v => sampleSha (mixJson 7 (v.item "source_message_id")) }

def bulkVisible (text : String) (i : Nat) : VisibleMessage := ⟨toString i, .user, none, text, false⟩

def bulkMessages (text : String) : List HistoryMessage :=
  (((List.range bulkCount).map (bulkVisible text)).zipIdx 1).map (fun x => ⟨x.1, x.2⟩)

def bulkSha : String := (sampleSha (mixJson 7 .null)).hex

def bulkId : String := "generic-" ++ clip 32 bulkSha

def bulkHead : List (String × Json) :=
  [("ended_utc", .null), ("import_id", .str bulkId), ("imported_utc", .str "2026-01-01T00:00:00Z"),
    ("message_count", .int 150)]

def bulkTail (count : Int) : List (String × Json) :=
  [("provider", .str "generic"), ("read_only", .bool true), ("record_sha256", .str bulkSha),
    ("room_id", .str ("history." ++ bulkId)), ("schema", .str importSchema), ("scope", .str "s"),
    ("secret_redaction_count", .int 0), ("source_bytes", .int count),
    ("source_conversation_id", .str "c"), ("source_name", .str "export.json"),
    ("source_sha256", .str (sampleSha 5).hex), ("started_utc", .null),
    ("timestamp_status", .str "unavailable"), ("title", .str "Bulk")]

def bulkMessage (m : HistoryMessage) : Json :=
  .obj [("created_utc", .opt m.createdUtc),
    ("message_sha256", .str (sampleSha (mixJson 7 (.str m.sourceMessageId))).hex),
    ("role", .str m.role.text), ("secret_redacted", .bool m.secretRedacted),
    ("sequence", .int m.sequence), ("source_message_id", .str m.sourceMessageId),
    ("text", .str m.text)]

def bulkRecordJson (text : String) : Json :=
  .obj (bulkHead ++ ("messages", .arr ((bulkMessages text).map bulkMessage)) ::
    bulkTail (bulkBytes text).length)

def bulkRecordText (text : String) : List Char :=
  JsonText.ascii (jsonChars bulkForms (bulkRecordJson text))

def bulkTools (text : String) : Toolkit where
  loads t :=
    if t = bulkSource text then some (bulkExport text)
    else if t = String.ofList (bulkRecordText text) ∨
      t = String.ofList (bulkRecordText text ++ ['\n']) then some (bulkRecordJson text)
    else none
  repr _ := ""
  platform := bulkPlatform
  forms := bulkForms
  chokes _ := false
  lower := lower
  redactSecrets t := t
  fromTimestamp _ := none
  fromIsoFormat _ := none
  pathName t := t
  b64decode t := if t = bulkContent text then some (bulkBytes text) else none
  decodeUtf8 bs := if bs = bulkBytes text then some (bulkSource text) else none
  sha256 _ := sampleSha 5

def bulkCall (text : String) : ImportCall where
  args :=
    { scope := "s"
      provider := "generic"
      sourceName := "export.json"
      contentBase64 := bulkContent text }
  importedUtc := "2026-01-01T00:00:00Z"

variable {text : String}

-- a text the parser keeps as it is
structure Kempt (text : String) : Prop where
  chars : ∀ c ∈ text.toList, isSpace c = false ∧ c.toNat ≠ 0
  ne : text ≠ ""
  short : text.toList.length ≤ maxTextChars

theorem bulk_ids : ∀ i < bulkCount, strip (toString i) = toString i ∧ toString i ≠ "" ∧
    clip 500 (toString i) = toString i := by decide +kernel

theorem genericMessage_bulk (h : Kempt text) {i : Nat} (hi : i < bulkCount) :
    genericMessage (bulkTools text) (bulkItem text i) = some (bulkVisible text i) := by
  obtain ⟨hstrip, hne, hclip⟩ := bulk_ids i hi
  have hrole : roleOf (bulkTools text) (.str "user") = some .user := by
    change (lookup Prod.fst (lower (strip (if (Json.str "user").truthy then "user" else "")))
      roleAliases).map Prod.snd = _
    decide
  have hid : safeSourceIdentifier (bulkTools text) (toString i) "message" = toString i := by
    simp only [safeSourceIdentifier, hstrip, if_neg hne]
    exact hclip
  have hplain : plainText (bulkTools text) (.str text) = text := plainText_str h.chars h.ne
  have hclipped : clip maxTextChars text = text := clip_short h.short
  have hgiven : (bulkTools text).textOf (.str (toString i)) = toString i := by
    simp [Toolkit.textOf, Json.truthy, JsonReader.str]
  have hmessage : message (bulkTools text) (.str "user") (.str text) (.str (toString i)) .null =
      some (bulkVisible text i) := by
    simp only [message, hplain, hrole, hclipped, hgiven, hstrip, hid, h.ne, ne_eq, hne,
      not_false_eq_true, if_true]
    simp [bulkVisible, bulkTools, timestamp]
  have hitems : (bulkItem text i).item "role" = .str "user" ∧
      (bulkItem text i).item "content" = .str text ∧
      (bulkItem text i).item "id" = .str (toString i) ∧
      ∀ key ∈ ["type", "message", "text", "uuid", "created_utc", "timestamp", "create_time"],
        (bulkItem text i).item key = .null := by
    refine ⟨rfl, rfl, rfl, ?_⟩
    simp [bulkItem, Json.item, Json.get?, lookup]
  obtain ⟨hr, hc, hi, hrest⟩ := hitems
  have hauthor : (bulkItem text i).innerOr "author" (.obj []) = .obj [] := rfl
  have hnested : (bulkItem text i).innerOr "message" (.obj []) = .obj [] := rfl
  have hobj : (bulkItem text i).isObj = true := rfl
  have hnone (key : String) : (Json.obj []).item key = .null := rfl
  have hfirst {t : String} (ht : t ≠ "") (v : Json) : (Json.str t).orElse v = .str t := by
    simp [Json.orElse, Json.truthy, ht]
  have hsecond (v : Json) : Json.null.orElse v = v := rfl
  rw [genericMessage, if_neg (by simp [hobj]), hauthor, hnested, ← hmessage]
  simp only [hr, hc, hi, hnone, hfirst h.ne, hfirst hne, hfirst (t := "user") (by decide), hsecond,
    hrest "created_utc" (by simp), hrest "timestamp" (by simp), hrest "create_time" (by simp)]

theorem genericConversation_bulk (h : Kempt text) :
    genericConversation (bulkTools text) (bulkExport text) .generic =
      some ⟨"c", .str "Bulk", (List.range bulkCount).map (bulkVisible text)⟩ := by
  have hmapping : chatgptMapping (bulkTools text) (bulkExport text) .generic = none := rfl
  have hmessages : ((bulkExport text).item "messages").items? =
      some ((List.range bulkCount).map (bulkItem text)) := rfl
  have hid : conversationId (bulkTools text) (bulkExport text) .generic = "c" := by
    have hnone : identifierText ((bulkExport text).item "source_conversation_id") = none := rfl
    have hsome : identifierText ((bulkExport text).item "conversation_id") = some "c" := by
      change identifierText (.str "c") = some "c"
      decide
    have hid : explicitId conversationKeys (bulkExport text) = some "c" := by
      rw [explicitId, conversationKeys, explicitKeys, List.cons_append, List.findSome?_cons, hnone,
        List.cons_append, List.findSome?_cons, hsome]
    rw [conversationId, List.findSome?_cons, hid]
  have hvisible : ((List.range bulkCount).map (bulkItem text)).filterMap
      (genericMessage (bulkTools text)) = (List.range bulkCount).map (bulkVisible text) := by
    rw [List.filterMap_map, ← List.filterMap_eq_map]
    refine List.filterMap_congr fun i hi => ?_
    rw [Function.comp_apply, Function.comp_apply, genericMessage_bulk h (List.mem_range.mp hi)]
  have htitle : ((bulkExport text).item "title").orElse ((bulkExport text).item "name") =
      .str "Bulk" := rfl
  simp only [genericConversation, hmapping, hmessages, hvisible, hid, htitle]
  rw [if_neg (by simp [bulkCount])]

theorem bulk_distinct :
    ((List.range bulkCount).map (fun i => mixJson 7 (.str (toString i)) % 2 ^ 256)).Nodup := by
  decide +kernel

theorem deduplicate_bulk :
    deduplicateMessages (bulkTools text) ((List.range bulkCount).map (bulkVisible text)) =
      bulkMessages text := by
  refine deduplicateFrom_distinct ?_ (by simp)
    (by simp [maxMessagesPerConversation, bulkCount])
  rw [List.map_map]
  refine List.Nodup.of_map (fun d => d.bits.toNat) ?_
  rw [List.map_map]
  have he : (fun d : Sha256 => d.bits.toNat) ∘ (fun m => m.fingerprint (bulkTools text)) ∘
      bulkVisible text = fun i => mixJson 7 (.str (toString i)) % 2 ^ 256 := by
    funext i
    exact BitVec.toNat_ofNat _ _
  rw [he]
  exact bulk_distinct

-- blanks inside a text do not matter to strip
theorem stripChars_of_ends {c d : Char} (hc : isSpace c = false) (hd : isSpace d = false)
    (cs : List Char) : stripChars (c :: (cs ++ [d])) = c :: (cs ++ [d]) := by
  rw [stripChars, List.dropWhile_cons_of_neg (by simp [hc]), List.reverse_cons,
    List.reverse_append, List.reverse_singleton, List.singleton_append, List.cons_append,
    List.dropWhile_cons_of_neg (by simp [hd])]
  simp

theorem bulkSource_strip : strip (bulkSource text) = bulkSource text := by
  have hends : ∃ cs, jsonChars bulkForms (bulkExport text) = '\x7b' :: (cs ++ ['\x7d']) := ⟨_, rfl⟩
  obtain ⟨cs, hcs⟩ := hends
  rw [strip, bulkSource, dumps, String.toList_ofList, hcs,
    stripChars_of_ends (by decide) (by decide)]

theorem bulkSource_ne : bulkSource text ≠ "" := by
  intro he
  have hl := congrArg String.toList he
  rw [bulkSource, dumps, String.toList_ofList] at hl
  cases hl

def bulkConversation (text : String) : Conversation :=
  ⟨"c", "Bulk", none, none, "unavailable", bulkMessages text⟩

theorem rawConversations_bulk (h : Kempt text) :
    rawConversations (bulkTools text) .generic [bulkExport text] =
      .ok [⟨"c", .str "Bulk", (List.range bulkCount).map (bulkVisible text)⟩] := by
  have hcandidates : (genericCandidates (bulkTools text) [bulkExport text] .generic).filter
      (·.isObj) = [bulkExport text] := rfl
  have hrows : genericRows (bulkTools text) [bulkExport text] .generic =
      .ok [⟨"c", .str "Bulk", (List.range bulkCount).map (bulkVisible text)⟩] := by
    rw [genericRows, hcandidates]
    simp [genericConversation_bulk h, require, bind, Except.bind, pure, Except.pure]
  rw [rawConversations, hrows]
  rfl

theorem bulkMessages_undated : (bulkMessages text).filterMap (·.createdUtc) = [] := by
  refine List.filterMap_eq_nil_iff.mpr fun m hm => ?_
  obtain ⟨x, hx, rfl⟩ := List.mem_map.mp hm
  obtain ⟨i, -, hi⟩ := List.mem_map.mp (List.fst_mem_of_mem_zipIdx hx)
  rw [← hi]
  rfl

theorem parse_bulk (h : Kempt text)
    (hbytes : bulkBytes text ≠ [] ∧ (bulkBytes text).length ≤ maxImportBytes) :
    parseConversationExport (bulkTools text) .generic (bulkBytes text) =
      .ok [bulkConversation text] := by
  have htext : decodeText (bulkTools text) (bulkBytes text) = .ok (bulkSource text) := by
    simp [decodeText, bulkTools, demand]
  have hvalues : jsonValues (bulkTools text) (bulkSource text) = .ok [bulkExport text] := by
    have hread : (bulkTools text).read (bulkSource text) = .ok (some (bulkExport text)) := by
      simp [Toolkit.read, bulkTools]
    simp only [jsonValues, bulkSource_strip, hread, require, if_pos bulkSource_ne, bind,
      Except.bind, pure, Except.pure]
  have hlength : (bulkMessages text).length = bulkCount := by simp [bulkMessages]
  have hne : bulkMessages text ≠ [] := by
    intro he
    rw [he] at hlength
    cases hlength
  have hmost : (bulkMessages text).take (maxTotalMessages - 0) = bulkMessages text :=
    List.take_of_length_le (by rw [hlength]; decide)
  have htitle : ∀ ms, titleOf (bulkTools text) .generic (.str "Bulk") ms = "Bulk" := by
    intro ms
    have hgiven : strip ((bulkTools text).textOf (.str "Bulk")) = "Bulk" := by
      change strip (if decide ("Bulk" ≠ "") = true then "Bulk" else "") = "Bulk"
      decide
    have hne : "Bulk" ≠ "" := by decide
    simp only [titleOf, hgiven, if_pos hne]
    change clip 160 "Bulk" = "Bulk"
    decide
  have hnormal : normalize (bulkTools text) .generic
      ⟨"c", .str "Bulk", (List.range bulkCount).map (bulkVisible text)⟩ (bulkMessages text) =
      bulkConversation text := by
    have hid : clip 500 (strip "c") = "c" := by decide
    have hgiven : strip "c" ≠ "" := by decide
    simp only [normalize, htitle, bulkMessages_undated, if_neg hgiven, hid]
    rfl
  have hall : normalizeAll (bulkTools text) .generic 0
      [⟨"c", .str "Bulk", (List.range bulkCount).map (bulkVisible text)⟩] =
      [bulkConversation text] := by
    simp only [normalizeAll, deduplicate_bulk, if_neg hne, hmost, hnormal]
    rfl
  have htake (raw : RawConversation) : [raw].take maxConversations = [raw] := rfl
  simp only [parseConversationExport, require, if_pos hbytes, htext, hvalues,
    rawConversations_bulk h, htake, hall, bind, Except.bind, pure, Except.pure]
  simp

def bulkOpened (text : String) : Export :=
  { provider := .generic
    sourceSha256 := (sampleSha 5).hex
    sourceBytes := (bulkBytes text).length
    conversations := [bulkConversation text] }

def bulkRecord (text : String) : Record :=
  (bulkOpened text).record (bulkTools text) (bulkCall text).args (bulkCall text).importedUtc
    (bulkConversation text)

theorem bulkMessages_length : (bulkMessages text).length = 150 := by
  simp [bulkMessages, bulkCount]

theorem bulkRecord_json : (bulkRecord text).json (bulkTools text) = bulkRecordJson text := by
  have hid : safeSourceIdentifier (bulkTools text) "c" "conversation" = "c" := by
    have hstrip : strip "c" = "c" := by decide
    have hne : "c" ≠ "" := by decide
    simp only [safeSourceIdentifier, hstrip, if_neg hne]
    change clip 500 "c" = "c"
    decide
  have hname : safeSourceName (bulkTools text) "export.json" = "export.json" := by
    have hstrip : strip "export.json" = "export.json" := by decide
    have hne : "export.json" ≠ "" := by decide
    have hpath (t : String) : (bulkTools text).pathName t = t := rfl
    have hredact (t : String) : (bulkTools text).redactSecrets t = t := rfl
    simp only [safeSourceName, hpath, hredact, if_neg hne, hstrip]
    decide
  have hredacted : redactionCount (bulkMessages text) = 0 := by
    refine List.countP_eq_zero.mpr fun m hm => ?_
    obtain ⟨x, hx, rfl⟩ := List.mem_map.mp hm
    obtain ⟨i, -, hi⟩ := List.mem_map.mp (List.fst_mem_of_mem_zipIdx hx)
    rw [← hi]
    simp [bulkVisible]
  have hsha : ((bulkRecord text).sha (bulkTools text)).hex = bulkSha := by
    have hitem : (Json.obj ((bulkRecord text).fields (bulkTools text) [])).item
        "source_message_id" = .null := rfl
    change (sampleSha (mixJson 7 ((Json.obj ((bulkRecord text).fields (bulkTools text) [])).item
      "source_message_id"))).hex = bulkSha
    rw [hitem, bulkSha]
  have hlength := @bulkMessages_length text
  have hfields : (bulkRecord text).fields (bulkTools text)
      [("record_sha256", .str ((bulkRecord text).sha (bulkTools text)).hex)] =
      bulkHead ++ ("messages", .arr ((bulkMessages text).map bulkMessage)) ::
        bulkTail (bulkBytes text).length := by
    have himport : importId (bulkTools text) "s" .generic (sampleSha 5).hex
        (bulkConversation text) = bulkId := by
      change "generic-" ++ clip 32 (sampleSha (mixJson 7 (Json.item "source_message_id" (.obj
        [("conversation_id", .str "c"), ("scope", .str "s"),
          ("source_sha256", .str (sampleSha 5).hex)])))).hex = _
      rw [bulkId, bulkSha]
      rfl
    have hmessage : (fun m => HistoryMessage.json (bulkTools text) m) = bulkMessage := rfl
    rw [hsha]
    simp only [Record.fields, Record.roomId, bulkRecord, Export.record, bulkOpened, bulkCall,
      himport, hmessage, hname]
    simp only [bulkConversation, hredacted, hlength, hid, bulkHead, bulkTail, List.cons_append,
      List.nil_append, Json.opt, Option.elim, Provider.text]
    rfl
  rw [Record.json, hfields, bulkRecordJson]

-- a text of the greatest length, three bytes a character and six once escaped
structure Bulky (text : String) : Prop extends Kempt text where
  bytes : JsonText.weight Char.utf8Size (jsonChars bulkForms (.str text)) = 60002
  ascii : JsonText.weight JsonText.asciiSize (jsonChars bulkForms (.str text)) = 120002

section Sizes
open JsonText

theorem weight_arr (w : Char → Nat) (F : TextForms) (vs : List Json) :
    weight w (jsonChars F (.arr vs)) =
      w '[' + (weight w (separate (vs.map (jsonChars F))) + w ']') := by
  rw [jsonChars, itemChars_map, array, weight_cons, weight_append, weight_cons, weight_nil,
    Nat.add_zero]

theorem weight_le (w : Char → Nat) (n : Nat) (h : ∀ c, w c ≤ n) (cs : List Char) :
    weight w cs ≤ n * cs.length := by
  induction cs with
  | nil => simp
  | cons c cs ih =>
    rw [weight_cons, List.length_cons, Nat.mul_succ]
    have := h c
    omega

theorem length_str_le (F : TextForms) (t : String) :
    (jsonChars F (.str t)).length ≤ 6 * t.toList.length + 2 := by
  have hescape : ∀ cs : List Char, (escape cs).length ≤ 6 * cs.length := by
    intro cs
    induction cs with
    | nil => simp [escape]
    | cons c cs ih =>
      have hc : (escapeChar c).length ≤ 6 := by
        unfold escapeChar
        split_ifs <;> simp
      rw [escape, List.flatMap_cons, List.length_append, List.length_cons]
      simp only [escape] at ih
      omega
  have ht := hescape t.toList
  simp only [jsonChars, quote, List.length_cons, List.length_append, List.length_nil]
  omega

theorem length_int_le (F : TextForms) {n k : Nat} (hk : 0 < k) (h : n < 10 ^ k) :
    (jsonChars F (.int n)).length ≤ k := by
  have hr : (toString (n : Int)) = n.repr := rfl
  rw [jsonChars, hr, String.length_toList]
  exact (Nat.length_repr_le_iff hk).mpr h

theorem utf8Size_le : ∀ c : Char, c.utf8Size ≤ 4 := Char.utf8Size_le_four

theorem asciiSize_le (c : Char) : asciiSize c ≤ 12 := by
  unfold asciiSize
  split_ifs <;> decide

theorem length_id {i : Nat} (hi : i < bulkCount) : (toString i).toList.length ≤ 3 := by
  rw [String.length_toList]
  exact (Nat.length_repr_le_iff (by decide)).mpr (hi.trans (by decide))

theorem bulkItem_size (h : Bulky text) {i : Nat} (hi : i < bulkCount) :
    weight Char.utf8Size (jsonChars bulkForms (bulkItem text i)) ≤ 60200 := by
  have hcontent := weight_member Char.utf8Size bulkForms [] [("id", .str (toString i)),
    ("role", .str "user")] "content" (.str text) (.str "")
  have hid := weight_member Char.utf8Size bulkForms [("content", .str "")]
    [("role", .str "user")] "id" (.str (toString i)) (.str "")
  have hsmall : weight Char.utf8Size (jsonChars bulkForms (.obj
      [("content", .str ""), ("id", .str ""), ("role", .str "user")])) ≤ 60 := by decide
  have hempty : weight Char.utf8Size (jsonChars bulkForms (.str "")) = 2 := rfl
  have hstr := weight_le _ 4 utf8Size_le (jsonChars bulkForms (.str (toString i)))
  have hchars := length_str_le bulkForms (toString i)
  have hlength := length_id hi
  rw [h.bytes] at hcontent
  simp only [List.nil_append, List.cons_append] at hcontent hid
  rw [bulkItem]
  omega

theorem bulkExport_small : weight Char.utf8Size (jsonChars bulkForms (.obj
    [("conversation_id", .str "c"), ("messages", .arr []), ("title", .str "Bulk")])) ≤ 100 := by
  decide

theorem bulkBytes_length (h : Bulky text) : (bulkBytes text).length ≤ 10000000 := by
  have hitems : ∀ x ∈ ((List.range bulkCount).map (bulkItem text)).map (jsonChars bulkForms),
      weight Char.utf8Size x + Char.utf8Size ',' ≤ 60201 := by
    intro x hx
    obtain ⟨v, hv, rfl⟩ := List.mem_map.mp hx
    obtain ⟨i, hi, rfl⟩ := List.mem_map.mp hv
    have hcomma : Char.utf8Size ',' = 1 := rfl
    have hsize := bulkItem_size h (List.mem_range.mp hi)
    omega
  have harr := weight_separate_le Char.utf8Size _ _ hitems
  have hmember := weight_member Char.utf8Size bulkForms [("conversation_id", .str "c")]
    [("title", .str "Bulk")] "messages" (.arr ((List.range bulkCount).map (bulkItem text)))
    (.arr [])
  have hsmall := bulkExport_small
  have hwhole : (bulkBytes text).length =
      weight Char.utf8Size (jsonChars bulkForms (bulkExport text)) := by
    rw [bulkBytes, bulkSource, dumps, String.toList_ofList, List.length_flatMap, weight]
    simp only [String.length_utf8EncodeChar]
  have hbrackets : Char.utf8Size '[' = 1 ∧ Char.utf8Size ']' = 1 := ⟨rfl, rfl⟩
  have hsize := weight_arr Char.utf8Size bulkForms ((List.range bulkCount).map (bulkItem text))
  rw [hbrackets.1, hbrackets.2] at hsize
  have hcount : bulkCount * 60201 = 9030150 := rfl
  rw [List.length_map, List.length_map, List.length_range, hcount] at harr
  change weight Char.utf8Size (jsonChars bulkForms (bulkExport text)) + 2 =
    weight Char.utf8Size (jsonChars bulkForms (.obj [("conversation_id", .str "c"),
      ("messages", .arr []), ("title", .str "Bulk")])) + _ at hmember
  rw [hwhole]
  omega

theorem bulkMessage_size (h : Bulky text) {m : HistoryMessage} (hm : m ∈ bulkMessages text) :
    120000 ≤ weight asciiSize (jsonChars bulkForms (bulkMessage m)) ∧
      weight asciiSize (jsonChars bulkForms (bulkMessage m)) ≤ 126000 := by
  obtain ⟨⟨v, n⟩, hx, rfl⟩ := List.mem_map.mp hm
  obtain ⟨hle, hlt, hv⟩ := List.mem_zipIdx hx
  have hcount : 1 + bulkCount < 10 ^ 3 := by decide
  simp only [List.length_map, List.length_range] at hlt
  obtain ⟨i, rfl⟩ : ∃ i, n = i + 1 := ⟨n - 1, by omega⟩
  obtain rfl : v = bulkVisible text i := by simpa using hv
  let sha := (sampleSha (mixJson 7 (.str (toString i)))).hex
  have htext := weight_member asciiSize bulkForms [("created_utc", .null),
    ("message_sha256", .str sha), ("role", .str "user"), ("secret_redacted", .bool false),
    ("sequence", .int (i + 1 : Nat)), ("source_message_id", .str (toString i))] [] "text"
    (.str text) (.str "")
  have hid := weight_member asciiSize bulkForms [("created_utc", .null),
    ("message_sha256", .str sha), ("role", .str "user"), ("secret_redacted", .bool false),
    ("sequence", .int (i + 1 : Nat))] [("text", .str "")] "source_message_id"
    (.str (toString i)) (.str "")
  have hsequence := weight_member asciiSize bulkForms [("created_utc", .null),
    ("message_sha256", .str sha), ("role", .str "user"), ("secret_redacted", .bool false)]
    [("source_message_id", .str ""), ("text", .str "")] "sequence" (.int (i + 1 : Nat)) (.str "")
  have hsha := weight_member asciiSize bulkForms [("created_utc", .null)] [("role", .str "user"),
    ("secret_redacted", .bool false), ("sequence", .str ""), ("source_message_id", .str ""),
    ("text", .str "")] "message_sha256" (.str sha) (.str "")
  have hsmall : 8 ≤ weight asciiSize (jsonChars bulkForms (.obj [("created_utc", .null),
      ("message_sha256", .str ""), ("role", .str "user"), ("secret_redacted", .bool false),
      ("sequence", .str ""), ("source_message_id", .str ""), ("text", .str "")])) ∧
      weight asciiSize (jsonChars bulkForms (.obj [("created_utc", .null),
      ("message_sha256", .str ""), ("role", .str "user"), ("secret_redacted", .bool false),
      ("sequence", .str ""), ("source_message_id", .str ""), ("text", .str "")])) ≤ 200 := by
    decide +kernel
  have hempty : weight asciiSize (jsonChars bulkForms (.str "")) = 2 := rfl
  have hshaLength : sha.toList.length = 64 := by rw [String.length_toList, hex_length]
  have hw1 := weight_le _ 12 asciiSize_le (jsonChars bulkForms (.str sha))
  have hl1 := length_str_le bulkForms sha
  have hw2 := weight_le _ 12 asciiSize_le (jsonChars bulkForms (.int (i + 1 : Nat)))
  have hl2 := length_int_le bulkForms (n := i + 1) (k := 3) (by decide) (by omega)
  have hw3 := weight_le _ 12 asciiSize_le (jsonChars bulkForms (.str (toString i)))
  have hl3 := length_str_le bulkForms (toString i)
  have hlid := length_id (i := i) (by omega)
  rw [h.ascii] at htext
  simp only [List.cons_append, List.nil_append] at htext hid hsequence hsha
  have hm : bulkMessage ⟨bulkVisible text i, i + 1⟩ = .obj [("created_utc", .null),
      ("message_sha256", .str sha), ("role", .str "user"), ("secret_redacted", .bool false),
      ("sequence", .int (i + 1 : Nat)), ("source_message_id", .str (toString i)),
      ("text", .str text)] := rfl
  dsimp only
  rw [hm]
  omega

theorem bulkRecord_small :
    2 ≤ weight asciiSize (jsonChars bulkForms (.obj (bulkHead ++ ("messages", .arr []) ::
      bulkTail 0))) ∧ weight asciiSize (jsonChars bulkForms (.obj (bulkHead ++
        ("messages", .arr []) :: bulkTail 0))) ≤ 4000 := by
  decide +kernel

theorem bulkRecordText_length (h : Bulky text) :
    maxImportBytes < (bulkRecordText text).length ∧
      (bulkRecordText text).length < maxImportRecordBytes := by
  let vs := (bulkMessages text).map bulkMessage
  have hlow : ∀ x ∈ vs.map (jsonChars bulkForms), 120000 ≤ weight asciiSize x := by
    intro x hx
    obtain ⟨v, hv, rfl⟩ := List.mem_map.mp hx
    obtain ⟨m, hm, rfl⟩ := List.mem_map.mp hv
    exact (bulkMessage_size h hm).1
  have hcomma : asciiSize ',' = 1 ∧ asciiSize '[' = 1 ∧ asciiSize ']' = 1 := ⟨rfl, rfl, rfl⟩
  have hhigh : ∀ x ∈ vs.map (jsonChars bulkForms), weight asciiSize x + asciiSize ',' ≤ 126001 := by
    intro x hx
    obtain ⟨v, hv, rfl⟩ := List.mem_map.mp hx
    obtain ⟨m, hm, rfl⟩ := List.mem_map.mp hv
    have := (bulkMessage_size h hm).2
    omega
  have hle := weight_separate_le asciiSize _ _ hhigh
  have hge := le_weight_separate asciiSize _ _ hlow
  have harr := weight_arr asciiSize bulkForms vs
  have hmessages := weight_member asciiSize bulkForms bulkHead
    (bulkTail (bulkBytes text).length) "messages" (.arr vs) (.arr [])
  have hcount := weight_member asciiSize bulkForms (bulkHead ++ ("messages", .arr []) ::
    [("provider", .str "generic"), ("read_only", .bool true), ("record_sha256", .str bulkSha),
      ("room_id", .str ("history." ++ bulkId)), ("schema", .str importSchema), ("scope", .str "s"),
      ("secret_redaction_count", .int 0)]) [("source_conversation_id", .str "c"),
      ("source_name", .str "export.json"), ("source_sha256", .str (sampleSha 5).hex),
      ("started_utc", .null), ("timestamp_status", .str "unavailable"), ("title", .str "Bulk")]
    "source_bytes" (.int (bulkBytes text).length) (.int 0)
  have hempty : weight asciiSize (jsonChars bulkForms (.arr [])) = 2 := rfl
  have hzero : weight asciiSize (jsonChars bulkForms (.int 0)) = 1 := by decide
  have hbytes := bulkBytes_length h
  have hw := weight_le _ 12 asciiSize_le (jsonChars bulkForms (.int (bulkBytes text).length))
  have hl := length_int_le bulkForms (n := (bulkBytes text).length) (k := 8) (by decide)
    (by omega)
  have hsmall := bulkRecord_small
  have hlimits : maxImportBytes = 16777216 ∧ maxImportRecordBytes = 33554432 := ⟨rfl, rfl⟩
  have hlength : (bulkRecordText text).length =
      weight asciiSize (jsonChars bulkForms (bulkRecordJson text)) := length_ascii _
  rw [List.length_map, List.length_map, bulkMessages_length] at hle hge
  simp only [bulkTail, List.append_assoc, List.cons_append, List.nil_append] at hcount hmessages hsmall
  have hjson : bulkRecordJson text = .obj (bulkHead ++ ("messages", .arr vs) ::
    bulkTail (bulkBytes text).length) := rfl
  rw [hlength, hjson, bulkTail]
  omega

end Sizes

theorem base64_plain (bs : Bytes) : ∀ c ∈ base64 bs, isSpace c = false := by
  have hdigit : ∀ n < 64, isSpace (base64Digit n) = false := by decide
  have hpad : isSpace '=' = false := by decide
  have hbyte (a : UInt8) : a.toNat < 256 := a.toNat_lt
  induction bs using base64.induct with
  | case1 a b c r ih =>
    have ha := hbyte a
    have hb := hbyte b
    have hc := hbyte c
    simp only [base64, List.mem_cons]
    rintro x (rfl | rfl | rfl | rfl | hx)
    · exact hdigit _ (by omega)
    · exact hdigit _ (by omega)
    · exact hdigit _ (by omega)
    · exact hdigit _ (by omega)
    · exact ih x hx
  | case2 a b =>
    have ha := hbyte a
    have hb := hbyte b
    simp only [base64, List.mem_cons, List.not_mem_nil, or_false]
    rintro x (rfl | rfl | rfl | rfl)
    · exact hdigit _ (by omega)
    · exact hdigit _ (by omega)
    · exact hdigit _ (by omega)
    · exact hpad
  | case3 a =>
    have ha := hbyte a
    simp only [base64, List.mem_cons, List.not_mem_nil, or_false]
    rintro x (rfl | rfl | rfl | rfl)
    · exact hdigit _ (by omega)
    · exact hdigit _ (by omega)
    · exact hpad
    · exact hpad
  | case4 => simp [base64]

theorem base64_length (bs : Bytes) : 3 * (base64 bs).length ≤ 4 * bs.length + 8 := by
  induction bs using base64.induct with
  | case1 a b c r ih =>
    simp only [base64, List.length_cons]
    omega
  | case2 a b => simp [base64]
  | case3 a => simp [base64]
  | case4 => simp [base64]

theorem openExport_bulk (h : Bulky text) :
    openExport (bulkTools text) (bulkCall text).args = .ok (bulkOpened text) := by
  have hprovider : safeProvider (bulkTools text) "generic" = .ok .generic := by
    have hfind : Provider.all.find? (fun p => p.text = lower (strip "generic")) = some .generic := by
      decide
    change demand (Provider.all.find? (fun p => p.text = lower (strip "generic"))) _ = _
    rw [hfind]
    rfl
  have hlength := bulkBytes_length h
  obtain ⟨b, bs, hcons⟩ : ∃ b bs, bulkBytes text = b :: bs := by
    obtain ⟨cs, hcs⟩ : ∃ cs, jsonChars bulkForms (bulkExport text) = '\x7b' :: cs := ⟨_, rfl⟩
    refine ⟨123, cs.flatMap String.utf8EncodeChar, ?_⟩
    rw [bulkBytes, bulkSource, dumps, String.toList_ofList, hcs, List.flatMap_cons]
    rfl
  have hbytes : bulkBytes text ≠ [] ∧ (bulkBytes text).length ≤ maxImportBytes :=
    ⟨by simp [hcons], hlength.trans (by decide)⟩
  have hcontent : decodePayload (bulkTools text) (bulkContent text) = .ok (bulkBytes text) := by
    have hstrip : strip (bulkContent text) = bulkContent text := by
      rw [strip, bulkContent, String.toList_ofList, stripChars_plain (base64_plain _)]
    have hb := base64_length (bulkBytes text)
    have hcl : (bulkContent text).length ≤ maxImportBytes * 4 / 3 + 64 := by
      have hm : maxImportBytes * 4 / 3 + 64 = 22369685 := rfl
      rw [bulkContent, String.length_ofList, hm]
      omega
    have hcne : bulkContent text ≠ "" := by
      intro he
      have hl := congrArg String.toList he
      rw [bulkContent, String.toList_ofList, hcons] at hl
      rcases bs with _ | ⟨c, _ | ⟨d, bs⟩⟩ <;> cases hl
    have hdecode : (bulkTools text).b64decode (bulkContent text) = some (bulkBytes text) := by
      simp [bulkTools]
    rw [decodePayload, hstrip]
    simp only [bind_eq_ok, require_eq_ok, demand_eq_ok, pure_eq_ok]
    exact ⟨(), hcne, (), hcl, bulkBytes text, hdecode, (), hbytes, rfl⟩
  have hparse := parse_bulk h.toKempt hbytes
  have hargs : (bulkCall text).args.contentBase64 = bulkContent text := rfl
  have hname : (bulkCall text).args.provider = "generic" := rfl
  simp only [openExport, hargs, hname, hprovider, hcontent, hparse, bind, Except.bind]
  rfl

theorem bulkCall_records (h : Bulky text) : (bulkCall text).records (bulkTools text) =
    [bulkRecord text] := by
  rw [ImportCall.records, openExport_bulk h]
  rfl

theorem bulkRecord_file :
    ((bulkRecord text).file (bulkTools text)).text = bulkRecordText text ++ ['\n'] := by
  rw [Record.file, bulkRecord_json]
  rfl

/-- The import answers, and the record is too long to be listed. -/
theorem bulk_unlisted (h : Bulky text) :
    ∃ row t, (bulkCall text).run (bulkTools text) [] = (t, .ok [row]) ∧
      t.length = 1 ∧ maxImportBytes < storedSize (bulkTools text) [] (bulkRecord text) ∧
      listConversationImports (bulkTools text) "s" t = .ok [] := by
  have hsizes := bulkRecordText_length h
  have hsize : ((bulkRecord text).file (bulkTools text)).size =
      (bulkRecordText text).length + 1 := by
    rw [RecordFile.size, bulkRecord_file, List.length_append, List.length_singleton]
  have hone : importRecord (bulkTools text) (bulkRecord text) none [] =
      ([(bulkRecord text).file (bulkTools text)],
        .ok ((bulkRecord text).row .created ((bulkRecord text).json (bulkTools text)), none)) := by
    rw [importRecord, if_neg (by omega)]
    rfl
  have hrun : (bulkCall text).run (bulkTools text) [] =
      ([(bulkRecord text).file (bulkTools text)],
        .ok [(bulkRecord text).row .created ((bulkRecord text).json (bulkTools text))]) := by
    rw [ImportCall.run, importConversationExport, openExport_bulk h]
    change importRecords (bulkTools text) [bulkRecord text] none [] = _
    rw [importRecords, hone]
    rfl
  refine ⟨_, _, hrun, rfl, ?_, ?_⟩
  · change maxImportBytes < ((bulkRecord text).file (bulkTools text)).size
    omega
  · have hlisted : listedRecord (bulkTools text) "s" ((bulkRecord text).file (bulkTools text)) =
        .ok none := if_pos (by omega)
    rw [listConversationImports, List.mergeSort_singleton, List.mapM_cons, hlisted]
    change Except.ok (((([] : List ((String × String) × Json)).mergeSort laterKey).map
      Prod.snd).take maxConversations) = _
    rw [List.mergeSort_nil]
    rfl

theorem fieldChars_keys (F : TextForms) (fs : List (String × Json)) :
    (fieldChars F fs).map Prod.fst = fs.map Prod.fst := by
  induction fs with
  | nil => rfl
  | cons f fs ih => rw [fieldChars, List.map_cons, List.map_cons, ih]

/-- The text of an object whose members are in key order opens with its first key. -/
theorem jsonChars_opens (F : TextForms) (k : String) (v : Json) (fs : List (String × Json))
    (h : ((k :: fs.map Prod.fst).Pairwise (· ≤ ·))) :
    ∃ cs, jsonChars F (.obj ((k, v) :: fs)) = '\x7b' :: '"' :: (JsonText.escape k.toList ++ cs) := by
  have hsorted : (fieldChars F ((k, v) :: fs)).insertionSort (fun a b => a.1 ≤ b.1) =
      fieldChars F ((k, v) :: fs) := by
    refine List.Pairwise.insertionSort_eq ?_
    rw [← List.map_cons (f := Prod.fst) (a := (k, v)), ← fieldChars_keys F ((k, v) :: fs)] at h
    exact List.pairwise_map.mp h
  rw [jsonChars, JsonText.object, hsorted, fieldChars, List.map_cons]
  cases (fieldChars F fs).map JsonText.member with
  | nil =>
    refine ⟨'"' :: ':' :: (jsonChars F v ++ ['\x7d']), ?_⟩
    simp [JsonText.separate, JsonText.member, JsonText.quote]
  | cons x xs =>
    refine ⟨'"' :: ':' :: (jsonChars F v ++ ',' :: (JsonText.separate (x :: xs) ++ ['\x7d'])), ?_⟩
    simp [JsonText.separate, JsonText.member, JsonText.quote]

theorem bulkSource_third : (bulkSource text).toList[2]? = some 'c' := by
  obtain ⟨cs, hcs⟩ := jsonChars_opens bulkForms "conversation_id" (.str "c")
    [("messages", .arr ((List.range bulkCount).map (bulkItem text))), ("title", .str "Bulk")]
    (show ["conversation_id", "messages", "title"].Pairwise (· ≤ ·) by decide)
  rw [bulkSource, dumps, String.toList_ofList, bulkExport, hcs]
  rfl

theorem bulkRecordText_third : (bulkRecordText text)[2]? = some 'e' := by
  obtain ⟨cs, hcs⟩ := jsonChars_opens bulkForms "ended_utc" .null
    (bulkHead.tail ++ ("messages", .arr ((bulkMessages text).map bulkMessage)) ::
      bulkTail (bulkBytes text).length)
    (by
      have hkeys (n : Int) : (bulkTail n).map Prod.fst = (bulkTail 0).map Prod.fst := rfl
      rw [List.map_append, List.map_cons, hkeys]
      dsimp only
      decide)
  have hjson : bulkRecordJson text = .obj (("ended_utc", .null) :: (bulkHead.tail ++
      ("messages", .arr ((bulkMessages text).map bulkMessage)) ::
        bulkTail (bulkBytes text).length)) := rfl
  rw [bulkRecordText, hjson, hcs]
  rfl

-- the record's text, whole or cut off, is not the export's
theorem bulkRecord_part_ne (n : Nat) :
    String.ofList ((bulkRecordText text ++ ['\n']).take n) ≠ bulkSource text := by
  intro he
  have hthird := @bulkSource_third text
  rw [← he, String.toList_ofList, List.getElem?_take] at hthird
  split at hthird
  · have hr := @bulkRecordText_third text
    rw [List.getElem?_append_left (List.getElem?_eq_some_iff.mp hr).1, hr] at hthird
    cases hthird
  · cases hthird

theorem bulk_loads (t : String) (h : t ≠ bulkSource text) : (bulkTools text).loads t =
    if t = String.ofList (bulkRecordText text) ∨
      t = String.ofList (bulkRecordText text ++ ['\n']) then some (bulkRecordJson text)
    else none := if_neg h

theorem bulkCall_readsBack (h : Bulky text) : (bulkCall text).ReadsBack (bulkTools text) := by
  intro r hr
  rw [bulkCall_records h] at hr
  rw [List.mem_singleton.mp hr, bulkRecord_json]
  have hread (n : Nat) :
      (bulkTools text).read (String.ofList ((bulkRecordText text ++ ['\n']).take n)) =
        .ok ((bulkTools text).loads (String.ofList ((bulkRecordText text ++ ['\n']).take n))) := rfl
  have hloads (n : Nat) := bulk_loads _ (@bulkRecord_part_ne text n)
  refine ⟨?_, ?_, fun n hn => ?_⟩
  · have hall := hread ((bulkRecordText text).length + 1)
    rw [hloads, List.take_of_length_le (by simp), if_pos (.inr rfl)] at hall
    exact hall
  · have hall := hread (bulkRecordText text).length
    rw [hloads, List.take_left, if_pos (.inl rfl)] at hall
    exact hall
  · have hn' : n < (bulkRecordText text).length := hn
    have hall := hread n
    have htake : (bulkRecordText text ++ ['\n']).take n = (bulkRecordText text).take n :=
      List.take_append_of_le_length hn'.le
    rw [hloads, htake, if_neg ?_] at hall
    · exact hall
    · rintro (he | he)
      · have hl := congrArg List.length (String.ofList_injective he)
        rw [List.length_take] at hl
        omega
      · have hl := congrArg List.length (String.ofList_injective he)
        rw [List.length_take, List.length_append, List.length_singleton] at hl
        omega

def bulkText : String := String.ofList (List.replicate maxTextChars '漢')

theorem bulkText_bulky : Bulky bulkText where
  chars := by
    intro c hc
    rw [bulkText, String.toList_ofList] at hc
    rw [List.eq_of_mem_replicate hc]
    decide
  ne := by
    intro he
    have hl := congrArg String.toList he
    rw [bulkText, String.toList_ofList] at hl
    have hcount := congrArg List.length hl
    rw [List.length_replicate] at hcount
    exact absurd hcount (by decide)
  short := by rw [bulkText, String.toList_ofList, List.length_replicate]
  bytes := by rw [bulkText, weight_text_str _ _ _ _ (by decide)]; rfl
  ascii := by rw [bulkText, weight_text_str _ _ _ _ (by decide)]; rfl

end Bulk

theorem accepted_import_unlisted :
    ∃ rows t, (bulkCall bulkText).run (bulkTools bulkText) (storeAfter (bulkTools bulkText) []) =
        (t, .ok rows) ∧ t.length ≤ maxConversations ∧ (bulkCall bulkText).ReadsBack
          (bulkTools bulkText) ∧ ¬ Listed (bulkTools bulkText) (bulkCall bulkText) rows t := by
  obtain ⟨row, t, hrun, hlength, -, hlist⟩ := bulk_unlisted bulkText_bulky
  refine ⟨[row], t, hrun, ?_, bulkCall_readsBack bulkText_bulky, ?_⟩
  · rw [hlength]
    decide
  · rintro ⟨records, hrecords, hall⟩
    obtain rfl : records = [] := Except.ok.inj (hrecords.symm.trans hlist)
    rw [bulkCall_records bulkText_bulky] at hall
    obtain ⟨⟨-, v, hv, -⟩, -⟩ := List.forall₂_cons.mp hall
    cases hv

theorem imports_stay_readable_bulk :
    ∃ rows t, (bulkCall bulkText).run (bulkTools bulkText) (storeAfter (bulkTools bulkText) []) =
        (t, .ok rows) ∧
      ((Listed (bulkTools bulkText) (bulkCall bulkText) rows t ∧
        RepeatsIdle (bulkTools bulkText) (bulkCall bulkText).args
          (storeAfter (bulkTools bulkText) [])) ↔
      ∀ r ∈ (bulkCall bulkText).records (bulkTools bulkText),
        storedSize (bulkTools bulkText) (storeAfter (bulkTools bulkText) []) r ≤ maxImportBytes) := by
  obtain ⟨row, t, hrun, hlength, -⟩ := bulk_unlisted bulkText_bulky
  refine ⟨[row], t, hrun, imports_stay_readable [] (bulkCall bulkText) (by simp)
    (bulkCall_readsBack bulkText_bulky) hrun ?_⟩
  rw [hlength]
  decide

end PeerBridge.ConversationImport
