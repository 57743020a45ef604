import PeerBridge.Support.FeedbackCases

namespace PeerBridge.FeedbackCases


variable {β : Type} {sha256Hex : β → String} {w w' w₀ : World sha256Hex}
  {s s' : Stage sha256Hex} {e : Event}

theorem objectKey_cancel {a c b d : String} (hlen : a.length = c.length)
    (h : objectKey true a b = objectKey true c d) : a = c ∧ b = d := by
  have hlist := congrArg String.toList h
  simp only [objectKey, if_true, String.toList_append, List.append_assoc] at hlist
  have h₁ := List.append_cancel_left hlist
  obtain ⟨hac, h₂⟩ := List.append_inj h₁ (by rw [String.length_toList, String.length_toList, hlen])
  have h₃ := List.append_cancel_right (List.append_cancel_left h₂)
  exact ⟨String.toList_inj.mp hac, String.toList_inj.mp h₃⟩

theorem Intake.length (i : Intake sha256Hex) : i.upload.caseId.length = 32 := by
  have h := i.upload.identity.1
  simp only [isUuidHex, Bool.and_eq_true, decide_eq_true_eq] at h
  exact h.2

theorem Intake.key_inj {i j : Intake sha256Hex} (hi : i.r2Available = true)
    (hj : j.r2Available = true) (h : i.key = j.key) :
    i.upload.expectedSha = j.upload.expectedSha := by
  unfold Intake.key at h
  rw [hi, hj] at h
  exact (objectKey_cancel (by rw [i.length, j.length]) h).2

theorem Intake.emailBacked_key (i : Intake sha256Hex) :
    emailBacked i.key = !i.r2Available := by
  cases h : i.r2Available with
  | true =>
    simp [emailBacked, Intake.key, objectKey, h, List.isPrefixOf]
  | false =>
    simp [emailBacked, Intake.key, objectKey, h, List.isPrefixOf]

def Stage.plain : Stage sha256Hex → Bool
  | .inserting _ _ => false
  | .acknowledging _ => false
  | _ => true

@[simp] theorem nextExpired_plain (now : Nat) (rest : List (String × String)) :
    (nextExpired now rest : Stage sha256Hex).plain = true := by
  cases rest with
  | nil => rfl
  | cons case rest =>
    rw [nextExpired]
    split <;> rfl

@[simp] theorem nextOrphan_plain (now : Nat) (rest : List String) :
    (nextOrphan now rest : Stage sha256Hex).plain = true := by
  cases rest <;> rfl

-- the key an object call of this stage deletes
def Stage.deletes : Stage sha256Hex → Option String
  | .rollingBack i => some i.key
  | .deletingOrphan _ key _ => some key
  | _ => none

inductive Passage (w : World sha256Hex) (s : Stage sha256Hex) :
    Event → World sha256Hex → Stage sha256Hex → Prop
  | quiet {e : Event} {s' : Stage sha256Hex} (cleanup : List CleanupRow)
      (plain : s'.plain = true) : Passage w s e { w with cleanup } s'
  | acknowledge {e : Event} (row : CaseRow) (mem : row ∈ w.rows) :
      Passage w s e w (.acknowledging row.receipt)
  | answer {e : Event} (r : Receipt) (stage : s = .acknowledging r) :
      Passage w s e (w.answer r) .idle
  | put {e : Event} {s' : Stage sha256Hex} (i : Intake sha256Hex)
      (r2 : i.r2Available = true)
      (stage : (∃ id, s' = .inserting i id) ∨ s'.plain = true) :
      Passage w s e (w.put i.key i.upload.bundleBytes) s'
  | mailed {e : Event} (i : Intake sha256Hex) (submissionId : String)
      (mail : i.r2Available = false) : Passage w s e w (.inserting i submissionId)
  | insert {e : Event} {s' : Stage sha256Hex} (i : Intake sha256Hex) (submissionId : String)
      (stage : s = .inserting i submissionId) (clear : w.conflicts (i.row submissionId) = false)
      (next : s' = .acknowledging (i.row submissionId).receipt ∨ s'.plain = true) :
      Passage w s e (w.insert (i.row submissionId)) s'
  | delete {s' : Stage sha256Hex} (key : String) (reply : Support.Reply) (ran : reply.ran = true)
      (stage : s.deletes = some key) (plain : s'.plain = true) :
      Passage w s (.object reply) (w.delete key) s'
  | expunge {s' : Stage sha256Hex} (now : Nat) (case : String × String)
      (rest : List (String × String)) (reply : Support.Reply) (ran : reply.ran = true)
      (stage : s = .expiringObject now case rest) (plain : s'.plain = true) :
      Passage w s (.object reply) (w.expunge case.2) s'
  | retire {e : Event} {s' : Stage sha256Hex} (now : Nat) (case : String × String)
      (plain : s'.plain = true) : Passage w s e (w.retire now case) s'

theorem Passage.still (plain : s'.plain = true) : Passage w s e w s' := .quiet w.cleanup plain

theorem find_mem {caseId : String} {row : CaseRow} (h : w.find caseId = some row) :
    row ∈ w.rows := List.mem_of_find?_eq_some h

theorem found_passage {i : Intake sha256Hex} {failed missing : Stage sha256Hex}
    (hf : failed.plain = true) (hm : missing.plain = true) (reply : Support.Reply) :
    Passage w s e w (if reply ≠ .answered then failed
      else match w.find i.upload.caseId with
        | some row =>
          if row.bundleSha256 = i.upload.expectedSha then .acknowledging row.receipt else failed
        | none => missing) := by
  split
  · exact .still hf
  · split
    · next row hrow =>
      split
      · exact .acknowledge row (find_mem hrow)
      · exact .still hf
    · exact .still hm

theorem recordObjectCleanup_rest (i : Intake sha256Hex) (reason : String) :
    ∃ cleanup, w.recordObjectCleanup i reason = { w with cleanup } := by
  unfold World.recordObjectCleanup
  split
  · exact ⟨_, rfl⟩
  · exact ⟨_, rfl⟩

theorem next_passage (h : w.next s e = some (w', s')) : Passage w s e w' s' := by
  unfold World.next at h
  split at h
  case h_1 => cases h
  case h_2 =>
    cases h
    exact .still rfl
  case h_3 =>
    cases h
    exact found_passage rfl rfl _
  case h_4 =>
    cases h
    exact .answer _ rfl
  case h_5 =>
    cases h
    exact .still rfl
  case h_6 =>
    cases h
    exact .still rfl
  case h_7 i id reply =>
    split at h
    · next hr2 =>
      cases h
      cases reply with
      | answered => exact .put i hr2 (.inl ⟨id, rfl⟩)
      | failed => exact .still rfl
      | lost => exact .put i hr2 (.inr rfl)
    · cases h
  case h_8 i id sent =>
    split at h
    · cases h
    · next hr2 =>
      cases h
      cases sent with
      | true => exact .mailed i id (by simpa using hr2)
      | false => exact .still rfl
  case h_9 =>
    split at h
    · cases h
    · cases h
      exact .still rfl
  case h_10 i id reply =>
    cases h
    cases hc : w.conflicts (i.row id) with
    | true => 
      simp only [Bool.not_true, Bool.and_false, Bool.false_eq_true, if_false]
      exact .still rfl
    | false =>
      cases reply with
      | answered => exact .insert i id rfl hc (.inl rfl)
      | failed => exact .still rfl
      | lost => exact .insert i id rfl hc (.inr rfl)
  case h_11 i stored reply =>
    cases h
    have hplain : (if stored then .rollingBack i else .idle : Stage sha256Hex).plain = true := by
      split <;> rfl
    exact found_passage hplain hplain reply
  case h_12 i reply =>
    cases h
    cases reply with
    | answered => exact .delete i.key _ rfl rfl rfl
    | failed => exact .still rfl
    | lost => exact .delete i.key _ rfl rfl rfl
  case h_13 i reply =>
    cases h
    split
    · obtain ⟨cleanup, hc⟩ := recordObjectCleanup_rest (w := w) i "intake_rollback_delete_failed"
      rw [hc]
      exact .quiet cleanup rfl
    · exact .still rfl
  case h_14 =>
    cases h
    refine .still ?_
    split
    · exact nextExpired_plain _ _
    · rfl
  case h_15 =>
    cases h
    exact .still (nextExpired_plain _ _)
  case h_16 now case rest reply =>
    cases h
    cases reply with
    | answered => exact .expunge now case rest _ rfl rfl rfl
    | failed => exact .still (nextExpired_plain _ _)
    | lost => exact .expunge now case rest _ rfl rfl (nextExpired_plain _ _)
  case h_17 now case rest reply =>
    cases h
    split
    · exact .retire now case (nextExpired_plain _ _)
    · exact .still (nextExpired_plain _ _)
  case h_18 =>
    cases h
    refine .still ?_
    split
    · exact nextOrphan_plain _ _
    · rfl
  case h_19 =>
    cases h
    refine .still ?_
    split
    · rfl
    · split <;> rfl
  case h_20 now key rest reply =>
    cases h
    cases reply with
    | answered => exact .delete key _ rfl rfl rfl
    | failed => exact .still rfl
    | lost => exact .delete key _ rfl rfl rfl
  case h_21 now key rest reply =>
    cases h
    cases reply with
    | answered => exact .quiet _ (nextOrphan_plain _ _)
    | failed => exact .still rfl
    | lost => exact .quiet _ rfl
  case h_22 now key rest reply =>
    cases h
    cases reply with
    | answered => exact .quiet _ (nextOrphan_plain _ _)
    | failed => exact .still (nextOrphan_plain _ _)
    | lost => exact .quiet _ (nextOrphan_plain _ _)
  case h_23 => cases h

def World.Has (w : World sha256Hex) (r : Receipt) : Prop :=
  r ∈ w.retired ∨ ∃ row ∈ w.rows, row.receipt = r

structure Inv (w : World sha256Hex) : Prop where
  digests : ∀ i : Intake sha256Hex, i.r2Available = true → ∀ b, w.objects i.key = some b →
    sha256Hex b = i.upload.expectedSha
  rows : ∀ row ∈ w.rows, ∃ (i : Intake sha256Hex) (id : String), row = i.row id ∧
    (i.r2Available = true → row.receipt ∈ w.expunged ∨ ∃ b, w.objects i.key = some b)
  uploading : ∀ run i id, w.stage run = .inserting i id → i.r2Available = true →
    ∃ b, w.objects i.key = some b
  acknowledging : ∀ run r, w.stage run = .acknowledging r → w.Has r
  answered : ∀ r ∈ w.answered, w.Has r

def World.Uploading (w : World sha256Hex) (key : String) : Prop :=
  ∃ run i id, w.stage run = .inserting i id ∧ i.r2Available = true ∧ i.key = key

-- an object goes only when no row names it and no upload is between its put and its insert
def Spared (w : World sha256Hex) : Action sha256Hex → Prop
  | .step run (.object reply) => reply.ran = true →
    (∀ key, (w.stage run).deletes = some key →
      (∀ row ∈ w.rows, row.objectKey ≠ key) ∧ ¬ w.Uploading key) ∧
    (∀ now case rest, w.stage run = .expiringObject now case rest →
      (∀ row ∈ w.rows, row.objectKey = case.2 → row.expiresUtc ≤ now) ∧ ¬ w.Uploading case.2)
  | _ => True

theorem opening_inv (clock : Nat) : Inv (opening sha256Hex clock) := by
  constructor
  · intro i _ b h
    cases h
  · intro row h
    cases h
  · intro run i id h
    cases h
  · intro run r h
    cases h
  · intro r h
    cases h

theorem Passage.frame (h : Passage w s e w' s') : w'.stage = w.stage ∧ w'.clock = w.clock := by
  cases h <;> exact ⟨rfl, rfl⟩

theorem Passage.digests (h : Passage w s e w' s') (hinv : Inv w) (i : Intake sha256Hex)
    (hi : i.r2Available = true) (b : β) (hb : w'.objects i.key = some b) :
    sha256Hex b = i.upload.expectedSha := by
  have kept {key : String} (hb : Function.update w.objects key none i.key = some b) :
      sha256Hex b = i.upload.expectedSha := by
    by_cases hk : i.key = key
    · simp [hk] at hb
    · exact hinv.digests i hi b (by simpa [hk] using hb)
  cases h with
  | quiet _ _ => exact hinv.digests i hi b hb
  | acknowledge _ _ => exact hinv.digests i hi b hb
  | answer _ _ => exact hinv.digests i hi b hb
  | put j hj _ =>
    by_cases hk : i.key = j.key
    · obtain rfl : j.upload.bundleBytes = b := by simpa [World.put, hk] using hb
      rw [j.upload.observed, Intake.key_inj hi hj hk]
    · exact hinv.digests i hi b (by simpa [World.put, hk] using hb)
  | mailed _ _ _ => exact hinv.digests i hi b hb
  | insert _ _ _ _ _ => exact hinv.digests i hi b hb
  | delete key _ _ _ _ => exact kept hb
  | expunge _ _ _ _ _ _ _ => exact kept hb
  | retire _ _ _ => exact hinv.digests i hi b hb

theorem Passage.has (h : Passage w s e w' s') {r : Receipt} (hr : w.Has r) : w'.Has r := by
  cases h with
  | quiet _ _ => exact hr
  | acknowledge _ _ => exact hr
  | answer _ _ => exact hr
  | put _ _ _ => exact hr
  | mailed _ _ _ => exact hr
  | insert i id _ _ _ =>
    by_cases hnew : r = (i.row id).receipt
    · exact .inr ⟨i.row id, List.mem_append_right _ List.mem_cons_self, hnew.symm⟩
    · rcases hr with hr | ⟨row, hrow, hr⟩
      · exact .inl (List.mem_filter.mpr ⟨hr, by simpa using hnew⟩)
      · exact .inr ⟨row, List.mem_append_left _ hrow, hr⟩
  | delete _ _ _ _ _ => exact hr
  | expunge _ _ _ _ _ _ _ => exact hr
  | retire now case _ =>
    rcases hr with hr | ⟨row, hrow, hr⟩
    · exact .inl (List.mem_append_left _ hr)
    · by_cases hp : prunable now case row = true
      · exact .inl (List.mem_append_right _
          (hr ▸ List.mem_map_of_mem (List.mem_filter.mpr ⟨hrow, hp⟩)))
      · exact .inr ⟨row, List.mem_filter.mpr ⟨hrow, by simpa using hp⟩, hr⟩

theorem Passage.rows {run : Nat} (h : Passage w (w.stage run) e w' s') (hinv : Inv w)
    (hg : Spared w (.step run e)) : ∀ row ∈ w'.rows, ∃ (i : Intake sha256Hex) (id : String),
      row = i.row id ∧
      (i.r2Available = true → row.receipt ∈ w'.expunged ∨ ∃ b, w'.objects i.key = some b) := by
  cases h with
  | quiet _ _ => exact hinv.rows
  | acknowledge _ _ => exact hinv.rows
  | answer _ _ => exact hinv.rows
  | put j hj _ =>
    intro row hrow
    obtain ⟨i, id, hi, hobj⟩ := hinv.rows row hrow
    refine ⟨i, id, hi, fun hr2 => (hobj hr2).imp_right ?_⟩
    rintro ⟨b, hb⟩
    by_cases hk : i.key = j.key
    · exact ⟨j.upload.bundleBytes, by simp [World.put, hk]⟩
    · exact ⟨b, by simpa [World.put, hk] using hb⟩
  | mailed _ _ _ => exact hinv.rows
  | insert j id hstage hclear _ =>
    intro row hrow
    rcases List.mem_append.mp hrow with hold | hnew
    · obtain ⟨i, id', hi, hobj⟩ := hinv.rows row hold
      refine ⟨i, id', hi, fun hr2 => ?_⟩
      have hsame : row.receipt ≠ (j.row id).receipt := by
        intro hsame
        have hid : row.caseId = (j.row id).caseId := congrArg Receipt.caseId hsame
        have hc := List.any_eq_false.mp hclear row hold
        simp [hid] at hc
      exact (hobj hr2).imp_left fun hm => List.mem_filter.mpr ⟨hm, by simpa using hsame⟩
    · obtain rfl := List.mem_singleton.mp hnew
      exact ⟨j, id, rfl, fun hr2 => .inr (hinv.uploading run j id hstage hr2)⟩
  | delete key reply ran hstage _ =>
    intro row hrow
    obtain ⟨i, id, hi, hobj⟩ := hinv.rows row hrow
    have hne : i.key ≠ key := by
      have := ((hg ran).1 key hstage).1 row hrow
      rwa [hi] at this
    exact ⟨i, id, hi, fun hr2 => (hobj hr2).imp_right fun ⟨b, hb⟩ =>
      ⟨b, by simpa [World.delete, hne] using hb⟩⟩
  | expunge now case rest reply ran hstage _ =>
    intro row hrow
    obtain ⟨i, id, hi, hobj⟩ := hinv.rows row hrow
    refine ⟨i, id, hi, fun hr2 => ?_⟩
    by_cases hk : i.key = case.2
    · refine .inl (List.mem_append_right _ (List.mem_map_of_mem (List.mem_filter.mpr ⟨hrow, ?_⟩)))
      rw [hi]
      exact decide_eq_true hk
    · rcases hobj hr2 with hm | ⟨b, hb⟩
      · exact .inl (List.mem_append_left _ hm)
      · exact .inr ⟨b, by simpa [World.expunge, World.delete, hk] using hb⟩
  | retire now case _ =>
    intro row hrow
    exact hinv.rows row (List.mem_filter.mp hrow).1

theorem at_stage {run other : Nat} {s : Stage sha256Hex} (hs : (w.at run s).stage other = s') :
    other = run ∧ s = s' ∨ other ≠ run ∧ w.stage other = s' := by
  by_cases h : other = run
  · subst h
    exact .inl ⟨rfl, by simpa [World.at] using hs⟩
  · exact .inr ⟨h, by simpa [World.at, h] using hs⟩

-- what an upload has put stays until its insert
theorem Passage.kept {run : Nat} (h : Passage w (w.stage run) e w' s')
    (hg : Spared w (.step run e)) {key : String} (hup : w.Uploading key)
    (hobj : ∃ b, w.objects key = some b) : ∃ b, w'.objects key = some b := by
  obtain ⟨b, hb⟩ := hobj
  cases h with
  | quiet _ _ => exact ⟨b, hb⟩
  | acknowledge _ _ => exact ⟨b, hb⟩
  | answer _ _ => exact ⟨b, hb⟩
  | put j _ _ =>
    by_cases hk : key = j.key
    · exact ⟨j.upload.bundleBytes, by simp [World.put, hk]⟩
    · exact ⟨b, by simpa [World.put, hk] using hb⟩
  | mailed _ _ _ => exact ⟨b, hb⟩
  | insert _ _ _ _ _ => exact ⟨b, hb⟩
  | delete other reply ran hstage _ =>
    have hne : key ≠ other := fun h => ((hg ran).1 other hstage).2 (h ▸ hup)
    exact ⟨b, by simpa [World.delete, hne] using hb⟩
  | expunge now case rest reply ran hstage _ =>
    have hne : key ≠ case.2 := fun h => ((hg ran).2 now case rest hstage).2 (h ▸ hup)
    exact ⟨b, by simpa [World.expunge, World.delete, hne] using hb⟩
  | retire _ _ _ => exact ⟨b, hb⟩

theorem Passage.inserting {i : Intake sha256Hex} {id : String}
    (h : Passage w s e w' (.inserting i id)) (hr2 : i.r2Available = true) :
    ∃ b, w'.objects i.key = some b := by
  cases h with
  | quiet _ plain => cases plain
  | put j _ stage =>
    rcases stage with ⟨id', hstage⟩ | plain
    · cases hstage
      exact ⟨i.upload.bundleBytes, by simp [World.put]⟩
    · cases plain
  | mailed _ _ mail => simp [hr2] at mail
  | insert _ _ _ _ next =>
    rcases next with hnext | plain
    · cases hnext
    · cases plain
  | delete _ _ _ _ plain => cases plain
  | expunge _ _ _ _ _ _ plain => cases plain
  | retire _ _ plain => cases plain

theorem Passage.acknowledging {r : Receipt} (h : Passage w s e w' (.acknowledging r)) :
    w'.Has r := by
  cases h with
  | quiet _ plain => cases plain
  | acknowledge row mem => exact .inr ⟨row, mem, rfl⟩
  | put _ _ stage =>
    rcases stage with ⟨_, hstage⟩ | plain
    · cases hstage
    · cases plain
  | insert i id _ _ next =>
    rcases next with hnext | plain
    · cases hnext
      exact .inr ⟨i.row id, List.mem_append_right _ List.mem_cons_self, rfl⟩
    · cases plain
  | delete _ _ _ _ plain => cases plain
  | expunge _ _ _ _ _ _ plain => cases plain
  | retire _ _ plain => cases plain

theorem Passage.answered {run : Nat} (h : Passage w (w.stage run) e w' s') (hinv : Inv w) :
    ∀ r ∈ w'.answered, w.Has r := by
  cases h with
  | answer r hstage =>
    intro q hq
    rcases List.mem_append.mp hq with hq | hq
    · exact hinv.answered q hq
    · obtain rfl := List.mem_singleton.mp hq
      exact hinv.acknowledging run q hstage
  | _ => exact hinv.answered

theorem passage_inv {run : Nat} (h : Passage w (w.stage run) e w' s') (hinv : Inv w)
    (hg : Spared w (.step run e)) : Inv (w'.at run s') := by
  obtain ⟨hstage, _⟩ := h.frame
  refine ⟨h.digests hinv, h.rows hinv hg, ?_, ?_, fun r hr => h.has (h.answered hinv r hr)⟩
  · intro other i id hup hr2
    rcases at_stage hup with ⟨rfl, rfl⟩ | ⟨_, hup⟩
    · exact h.inserting hr2
    · rw [hstage] at hup
      exact h.kept hg ⟨other, i, id, hup, hr2, rfl⟩ (hinv.uploading other i id hup hr2)
  · intro other r hack
    rcases at_stage hack with ⟨rfl, rfl⟩ | ⟨_, hack⟩
    · exact h.acknowledging
    · rw [hstage] at hack
      exact h.has (hinv.acknowledging other r hack)

theorem begin_inv {run : Nat} (plain : s.plain = true) (hinv : Inv w) : Inv (w.at run s) :=
  passage_inv (e := .crash) (.still plain) hinv trivial

theorem exec_inv {a : Action sha256Hex} (hinv : Inv w) (ha : w.admits a = true)
    (hg : Spared w a) : Inv (w.exec a) := by
  cases a with
  | tick ms => exact ⟨hinv.digests, hinv.rows, hinv.uploading, hinv.acknowledging, hinv.answered⟩
  | receive run upload r2Available => exact begin_inv rfl hinv
  | pruneExpired run => exact begin_inv rfl hinv
  | pruneOrphaned run => exact begin_inv rfl hinv
  | step run e =>
    obtain ⟨⟨w', s'⟩, hn⟩ := Option.isSome_iff_exists.mp ha
    simp only [World.exec, hn]
    exact passage_inv (next_passage hn) hinv hg

theorem run_inv {tr : List (Action sha256Hex × Unit)}
    (h : ((support sha256Hex).restrict Spared).Run w₀ tr w) (h₀ : (support sha256Hex).start w₀) :
    Inv w := by
  obtain ⟨clock, rfl⟩ := h₀
  have step (v : World sha256Hex) (a : Action sha256Hex) (hv : Inv v)
      (ha : v.admits a = true ∧ Spared v a) : Inv (v.exec a) := exec_inv hv ha.1 ha.2
  exact h.preserves Inv step (opening_inv clock)

-- short of its removal by retention, a stored case keeps its bundle until retention takes it
theorem stored_until_retention {tr : List (Action sha256Hex × Unit)}
    (h₀ : (support sha256Hex).start w₀) (h : ((support sha256Hex).restrict Spared).Run w₀ tr w) :
    ∀ r ∈ w.answered, r ∉ w.retired → ∃ row ∈ w.rows, row.receipt = r ∧
      (emailBacked row.objectKey = false → r ∈ w.expunged ∨
        ∃ b, w.objects row.objectKey = some b ∧ sha256Hex b = row.bundleSha256) := by
  intro r hr hkept
  have hinv := run_inv h h₀
  rcases hinv.answered r hr with hgone | ⟨row, hrow, rfl⟩
  · exact absurd hgone hkept
  · obtain ⟨i, id, hi, hobj⟩ := hinv.rows row hrow
    refine ⟨row, hrow, rfl, fun hmail => ?_⟩
    have hkey : row.objectKey = i.key := by rw [hi]; rfl
    rw [hkey, i.emailBacked_key] at hmail
    have hr2 : i.r2Available = true := by simpa using hmail
    refine (hobj hr2).imp_right fun ⟨b, hb⟩ => ⟨b, hkey ▸ hb, ?_⟩
    rw [hi]
    exact hinv.digests i hr2 b hb

def KeepsBundles (w : World sha256Hex) : Prop :=
  ∀ r ∈ w.answered, r ∉ w.retired → ∃ row ∈ w.rows, row.receipt = r ∧
    (emailBacked row.objectKey = false →
      ∃ b, w.objects row.objectKey = some b ∧ sha256Hex b = row.bundleSha256)

def Stage.drops : Stage sha256Hex → Option String
  | .expiringObject _ case _ => some case.2
  | s => s.deletes

-- no object is deleted while a row, or an upload between its put and its insert, names it
def Undropped (w : World sha256Hex) : Action sha256Hex → Prop
  | .step run (.object reply) => reply.ran = true → ∀ key, (w.stage run).drops = some key →
    (∀ row ∈ w.rows, row.objectKey ≠ key) ∧ ¬ w.Uploading key
  | _ => True

theorem deletes_drops {key : String} (h : s.deletes = some key) : s.drops = some key := by
  cases s <;> first | exact h | cases h

theorem Undropped.spared {a : Action sha256Hex} (h : Undropped w a) : Spared w a := by
  cases a with
  | step run e =>
    cases e with
    | object reply =>
      intro ran
      refine ⟨fun key hkey => h ran key (deletes_drops hkey), fun now case rest hstage => ?_⟩
      obtain ⟨hrows, hup⟩ := h ran case.2 (by rw [hstage]; rfl)
      exact ⟨fun row hrow hkey => absurd hkey (hrows row hrow), hup⟩
    | _ => trivial
  | _ => trivial

theorem Passage.expunged {run : Nat} (h : Passage w (w.stage run) e w' s')
    (hg : Undropped w (.step run e)) (hnone : w.expunged = []) : w'.expunged = [] := by
  cases h with
  | insert _ _ _ _ _ => simp [World.insert, hnone]
  | expunge now case rest reply ran hstage _ =>
    have hrows := (hg ran case.2 (by rw [hstage]; rfl)).1
    simpa [World.expunge, hnone] using hrows
  | _ => exact hnone

theorem exec_expunged {a : Action sha256Hex} (ha : w.admits a = true) (hg : Undropped w a)
    (hnone : w.expunged = []) : (w.exec a).expunged = [] := by
  cases a with
  | step run e =>
    obtain ⟨⟨w', s'⟩, hn⟩ := Option.isSome_iff_exists.mp ha
    simp only [World.exec, hn]
    exact (next_passage hn).expunged hg hnone
  | _ => exact hnone

theorem stored_case_keeps_bundle {tr : List (Action sha256Hex × Unit)}
    (h₀ : (support sha256Hex).start w₀)
    (h : ((support sha256Hex).restrict Undropped).Run w₀ tr w) : KeepsBundles w := by
  have hnone : w.expunged = [] := by
    have step (v : World sha256Hex) (a : Action sha256Hex) (hv : v.expunged = [])
        (ha : v.admits a = true ∧ Undropped v a) : (v.exec a).expunged = [] :=
      exec_expunged ha.1 ha.2 hv
    obtain ⟨clock, rfl⟩ := h₀
    exact h.preserves (fun v => v.expunged = []) step rfl
  intro r hr hkept
  obtain ⟨row, hrow, hreceipt, hobj⟩ := stored_until_retention h₀
    (h.restrict_mono fun _ _ => Undropped.spared) r hr hkept
  refine ⟨row, hrow, hreceipt, fun hmail => ?_⟩
  rcases hobj hmail with hgone | hfound
  · simp [hnone] at hgone
  · exact hfound

-- an empty archive and its digest
def sampleBytes : List UInt8 := [80, 75, 5, 6] ++ List.replicate 18 0

def sampleDigest (_ : List UInt8) : String :=
  "8739c76e681f900923b900c9df0ef75cf421d39cabb54650c4b9ad19b6a76d85"

def sampleUpload : Upload sampleDigest where
  caseId := "0123456789abcdef0123456789abcdef"
  expectedSha := "8739c76e681f900923b900c9df0ef75cf421d39cabb54650c4b9ad19b6a76d85"
  bundleBytes := sampleBytes
  identity := by decide +kernel
  observed := rfl

instance (w : World sampleDigest) (a : Action sampleDigest) :
    Decidable ((support sampleDigest).admits w a) :=
  inferInstanceAs (Decidable (w.admits a = true))

def uploaded : List (Action sampleDigest) :=
  [.receive 0 sampleUpload true, .step 0 (.statement .answered), .step 0 (.reserved "a"),
    .step 0 (.object .answered), .step 0 (.statement .answered), .step 0 .notified]

-- no object call of the run deletes
def Undeleting (w : World sampleDigest) : Action sampleDigest → Bool
  | .step run (.object _) => (w.stage run).drops.isNone
  | _ => true

theorem Undeleting.undropped {w : World sampleDigest} {a : Action sampleDigest}
    (h : Undeleting w a = true) : Undropped w a := by
  cases a with
  | step run e =>
    cases e with
    | object reply =>
      intro _ key hkey
      have h : (w.stage run).drops.isNone = true := h
      simp [hkey] at h
    | _ => trivial
  | _ => trivial

theorem stored_case_keeps_bundle_uploaded :
    ((support sampleDigest).play (opening sampleDigest 0) uploaded).1.answered =
      [⟨sampleUpload.caseId, sampleUpload.expectedSha, "a"⟩] ∧
    KeepsBundles ((support sampleDigest).play (opening sampleDigest 0) uploaded).1 := by
  have hchecked : ((support sampleDigest).play (opening sampleDigest 0) uploaded).1.answered =
        [⟨sampleUpload.caseId, sampleUpload.expectedSha, "a"⟩] ∧
      ((support sampleDigest).restrict fun w a => Undeleting w a = true).AdmitsAll
        (opening sampleDigest 0) uploaded := by decide +kernel
  exact ⟨hchecked.1, stored_case_keeps_bundle ⟨0, rfl⟩
    ((Machine.run_play _ _ hchecked.2).restrict_mono fun _ _ => Undeleting.undropped)⟩

-- the second upload inserts the row before the first rolls its failed insert back
def rolledBack : List (Action sampleDigest) :=
  [.receive 0 sampleUpload true, .receive 1 sampleUpload true,
    .step 0 (.statement .answered), .step 1 (.statement .answered),
    .step 0 (.reserved "a"), .step 1 (.reserved "b"),
    .step 0 (.object .answered), .step 1 (.object .answered),
    .step 0 (.statement .failed), .step 0 (.statement .answered),
    .step 1 (.statement .answered), .step 0 (.object .answered), .step 1 .notified]

theorem rolled_back_upload_loses_bundle :
    ∃ (w₀ w : World sampleDigest) (tr : List (Action sampleDigest × Unit)),
      (support sampleDigest).start w₀ ∧ (support sampleDigest).Run w₀ tr w ∧
      ¬ KeepsBundles w := by
  have hchecked : (support sampleDigest).AdmitsAll (opening sampleDigest 0) rolledBack ∧
      ((support sampleDigest).play (opening sampleDigest 0) rolledBack).1.answered =
        [⟨sampleUpload.caseId, sampleUpload.expectedSha, "b"⟩] ∧
      ((support sampleDigest).play (opening sampleDigest 0) rolledBack).1.retired = [] ∧
      ((support sampleDigest).play (opening sampleDigest 0) rolledBack).1.rows =
        [(⟨sampleUpload, true, 0⟩ : Intake sampleDigest).row "b"] ∧
      ((support sampleDigest).play (opening sampleDigest 0) rolledBack).1.objects
        (⟨sampleUpload, true, 0⟩ : Intake sampleDigest).key = none := by decide +kernel
  obtain ⟨hadmits, hanswered, hretired, hrows, hobjects⟩ := hchecked
  refine ⟨_, _, _, ⟨0, rfl⟩, Machine.run_play _ _ hadmits, ?_⟩
  generalize ((support sampleDigest).play (opening sampleDigest 0) rolledBack).1 = w at *
  intro hkeeps
  obtain ⟨row, hrow, _, hobj⟩ := hkeeps _ (by rw [hanswered]; exact List.mem_cons_self)
    (by simp [hretired])
  rw [hrows] at hrow
  obtain rfl := List.mem_singleton.mp hrow
  obtain ⟨b, hb, _⟩ := hobj (Intake.emailBacked_key _)
  exact Option.some_ne_none b (hb.symm.trans hobjects)

end PeerBridge.FeedbackCases
