import PeerBridge.Lib.Machine
import PeerBridge.Support.Notification
import PeerBridge.Text
import Mathlib.Data.List.Sort

namespace PeerBridge.FeedbackCases


variable {β : Type}

def feedbackRetentionMs : Nat := 30 * 24 * 60 * 60 * 1000

def maxRetentionPruneCases : Nat := 100

def maxObjectCleanupRecords : Nat := 100

-- what validateFeedbackUpload and the digest comparison leave of a request
structure Upload (sha256Hex : β → String) where
  caseId : String
  expectedSha : String
  bundleBytes : β
  identity : isUuidHex caseId = true ∧ isSha256 expectedSha = true
  observed : sha256Hex bundleBytes = expectedSha

structure CaseRow where
  caseId : String
  bundleSha256 : String
  submissionId : String
  objectKey : String
  receivedUtc : Nat
  expiresUtc : Nat
deriving DecidableEq

structure CleanupRow where
  objectKey : String
  caseId : String
  bundleSha256 : String
  reason : String
  createdUtc : Nat
  updatedUtc : Nat
  attemptCount : Nat
deriving DecidableEq

structure Receipt where
  caseId : String
  bundleSha256 : String
  submissionId : String
deriving DecidableEq

def CaseRow.receipt (row : CaseRow) : Receipt := ⟨row.caseId, row.bundleSha256, row.submissionId⟩

def emailBacked (key : String) : Bool := "email:".toList.isPrefixOf key.toList

def objectKey (r2Available : Bool) (caseId sha : String) : String :=
  if r2Available then "feedback/" ++ caseId ++ "/" ++ sha ++ ".zip"
  else "email:" ++ caseId ++ ":" ++ sha

structure Intake (sha256Hex : β → String) where
  upload : Upload sha256Hex
  r2Available : Bool
  receivedUtc : Nat

variable {sha256Hex : β → String}

def Intake.key (i : Intake sha256Hex) : String :=
  objectKey i.r2Available i.upload.caseId i.upload.expectedSha

def Intake.row (i : Intake sha256Hex) (submissionId : String) : CaseRow :=
  { caseId := i.upload.caseId
    bundleSha256 := i.upload.expectedSha
    submissionId
    objectKey := i.key
    receivedUtc := i.receivedUtc
    expiresUtc := i.receivedUtc + feedbackRetentionMs }

inductive Stage (sha256Hex : β → String) where
  | idle
  | looking (i : Intake sha256Hex)
  | acknowledging (r : Receipt)
  | reserving (i : Intake sha256Hex)
  | storing (i : Intake sha256Hex) (submissionId : String)
  | inserting (i : Intake sha256Hex) (submissionId : String)
  | rereading (i : Intake sha256Hex) (objectStored : Bool)
  | rollingBack (i : Intake sha256Hex)
  | recordingCleanup (i : Intake sha256Hex)
  | selectingExpired (now : Nat)
  | expiringObject (now : Nat) (case : String × String) (rest : List (String × String))
  | expiringRow (now : Nat) (case : String × String) (rest : List (String × String))
  | selectingOrphans (now : Nat)
  | lookingOwner (now : Nat) (key : String) (rest : List String)
  | deletingOrphan (now : Nat) (key : String) (rest : List String)
  | clearingCleanup (now : Nat) (key : String) (rest : List String)
  | countingCleanup (now : Nat) (key : String) (rest : List String)

structure World (sha256Hex : β → String) where
  clock : Nat
  rows : List CaseRow
  cleanup : List CleanupRow
  objects : String → Option β
  stage : Nat → Stage sha256Hex
  answered : List Receipt
  retired : List Receipt
  expunged : List Receipt

variable (w : World sha256Hex)

def World.find (caseId : String) : Option CaseRow := w.rows.find? (fun r => r.caseId = caseId)

def World.conflicts (row : CaseRow) : Bool :=
  w.rows.any fun r => r.caseId = row.caseId || r.submissionId = row.submissionId ||
    r.objectKey = row.objectKey

def World.put (key : String) (bytes : β) : World sha256Hex :=
  { w with objects := Function.update w.objects key (some bytes) }

def World.delete (key : String) : World sha256Hex :=
  { w with objects := Function.update w.objects key none }

-- the receipts of the rows whose object retention takes away are noted as expunged
def World.expunge (key : String) : World sha256Hex :=
  { w.delete key with
    expunged := w.expunged ++ (w.rows.filter (fun r => r.objectKey = key)).map CaseRow.receipt }

def World.insert (row : CaseRow) : World sha256Hex :=
  { w with
    rows := w.rows ++ [row]
    retired := w.retired.filter (· ≠ row.receipt)
    expunged := w.expunged.filter (· ≠ row.receipt) }

def World.answer (r : Receipt) : World sha256Hex := { w with answered := w.answered ++ [r] }

def prunable (now : Nat) (case : String × String) (r : CaseRow) : Bool :=
  r.caseId = case.1 && r.objectKey = case.2 && r.expiresUtc ≤ now

def World.retire (now : Nat) (case : String × String) : World sha256Hex :=
  { w with
    rows := w.rows.filter (fun r => !prunable now case r)
    retired := w.retired ++ (w.rows.filter (prunable now case)).map CaseRow.receipt }

def World.expired (now : Nat) : List (String × String) :=
  (((w.rows.filter (fun r => r.expiresUtc ≤ now)).insertionSort
    (fun a b => a.expiresUtc ≤ b.expiresUtc)).take maxRetentionPruneCases).map
    fun r => (r.caseId, r.objectKey)

def World.orphans : List String :=
  ((w.cleanup.insertionSort (fun a b => a.createdUtc ≤ b.createdUtc)).take
    maxObjectCleanupRecords).map CleanupRow.objectKey

def World.recordObjectCleanup (i : Intake sha256Hex) (reason : String) : World sha256Hex :=
  if w.cleanup.any (fun c => c.objectKey = i.key) then
    { w with
      cleanup := w.cleanup.map fun c =>
        if c.objectKey = i.key then { c with reason, updatedUtc := i.receivedUtc } else c }
  else
    { w with
      cleanup := w.cleanup ++ [{
        objectKey := i.key
        caseId := i.upload.caseId
        bundleSha256 := i.upload.expectedSha
        reason
        createdUtc := i.receivedUtc
        updatedUtc := i.receivedUtc
        attemptCount := 0 }] }

def World.clearCleanup (key : String) : World sha256Hex :=
  { w with cleanup := w.cleanup.filter (fun c => c.objectKey ≠ key) }

def World.countCleanup (now : Nat) (key : String) : World sha256Hex :=
  { w with
    cleanup := w.cleanup.map fun c =>
      if c.objectKey = key then
        { c with attemptCount := c.attemptCount + 1, updatedUtc := now } else c }

def nextExpired (now : Nat) : List (String × String) → Stage sha256Hex
  | [] => .idle
  | case :: rest =>
    if emailBacked case.2 then .expiringRow now case rest else .expiringObject now case rest

def nextOrphan (now : Nat) : List String → Stage sha256Hex
  | [] => .idle
  | key :: rest => .lookingOwner now key rest

inductive Event where
  | statement (reply : Support.Reply)
  | object (reply : Support.Reply)
  | reserved (submissionId : String)
  | mailed (sent : Bool)
  | refused
  | notified
  | crash
deriving DecidableEq

def World.next : Stage sha256Hex → Event → Option (World sha256Hex × Stage sha256Hex)
  | .idle, _ => none
  | _, .crash => some (w, .idle)
  | .looking i, .statement reply =>
    some (w,
      if reply ≠ .answered then .idle
      else match w.find i.upload.caseId with
        | some row =>
          if row.bundleSha256 = i.upload.expectedSha then .acknowledging row.receipt else .idle
        | none => .reserving i)
  | .acknowledging r, .notified => some (w.answer r, .idle)
  | .reserving _, .refused => some (w, .idle)
  | .reserving i, .reserved submissionId => some (w, .storing i submissionId)
  | .storing i submissionId, .object reply =>
    if i.r2Available then
      some (if reply.ran then w.put i.key i.upload.bundleBytes else w,
        if reply = .answered then .inserting i submissionId else .rereading i false)
    else none
  | .storing i submissionId, .mailed sent =>
    if i.r2Available then none
    else some (w, if sent then .inserting i submissionId else .rereading i false)
  | .storing i _, .refused => if i.r2Available then none else some (w, .idle)
  | .inserting i submissionId, .statement reply =>
    let row := i.row submissionId
    some (if reply.ran && !w.conflicts row then w.insert row else w,
      if reply = .answered && !w.conflicts row then .acknowledging row.receipt
      else .rereading i i.r2Available)
  | .rereading i objectStored, .statement reply =>
    let failed : Stage sha256Hex := if objectStored then .rollingBack i else .idle
    some (w,
      if reply ≠ .answered then failed
      else match w.find i.upload.caseId with
        | some row =>
          if row.bundleSha256 = i.upload.expectedSha then .acknowledging row.receipt else failed
        | none => failed)
  | .rollingBack i, .object reply =>
    some (if reply.ran then w.delete i.key else w,
      if reply = .answered then .idle else .recordingCleanup i)
  | .recordingCleanup i, .statement reply =>
    some (if reply.ran then w.recordObjectCleanup i "intake_rollback_delete_failed" else w, .idle)
  | .selectingExpired now, .statement reply =>
    some (w, if reply = .answered then nextExpired now (w.expired now) else .idle)
  | .expiringObject now _ rest, .refused => some (w, nextExpired now rest)
  | .expiringObject now case rest, .object reply =>
    some (if reply.ran then w.expunge case.2 else w,
      if reply = .answered then .expiringRow now case rest else nextExpired now rest)
  | .expiringRow now case rest, .statement reply =>
    some (if reply.ran then w.retire now case else w, nextExpired now rest)
  | .selectingOrphans now, .statement reply =>
    some (w, if reply = .answered then nextOrphan now w.orphans else .idle)
  | .lookingOwner now key rest, .statement reply =>
    some (w,
      if reply ≠ .answered then .countingCleanup now key rest
      else if w.rows.any (fun r => r.objectKey = key) then .clearingCleanup now key rest
      else .deletingOrphan now key rest)
  | .deletingOrphan now key rest, .object reply =>
    some (if reply.ran then w.delete key else w,
      if reply = .answered then .clearingCleanup now key rest else .countingCleanup now key rest)
  | .clearingCleanup now key rest, .statement reply =>
    some (if reply.ran then w.clearCleanup key else w,
      if reply = .answered then nextOrphan now rest else .countingCleanup now key rest)
  | .countingCleanup now key rest, .statement reply =>
    some (if reply.ran then w.countCleanup now key else w, nextOrphan now rest)
  | _, _ => none

inductive Action (sha256Hex : β → String) where
  | tick (ms : Nat)
  | receive (run : Nat) (upload : Upload sha256Hex) (r2Available : Bool)
  | pruneExpired (run : Nat)
  | pruneOrphaned (run : Nat)
  | step (run : Nat) (event : Event)

def World.at (run : Nat) (stage : Stage sha256Hex) : World sha256Hex :=
  { w with stage := Function.update w.stage run stage }

def World.exec : Action sha256Hex → World sha256Hex
  | .tick ms => { w with clock := w.clock + ms }
  | .receive run upload r2Available => w.at run (.looking ⟨upload, r2Available, w.clock⟩)
  | .pruneExpired run => w.at run (.selectingExpired w.clock)
  | .pruneOrphaned run => w.at run (.selectingOrphans w.clock)
  | .step run event =>
    match w.next (w.stage run) event with
    | some (w', stage) => w'.at run stage
    | none => w

def Stage.isIdle : Stage sha256Hex → Bool
  | .idle => true
  | _ => false

def World.admits : Action sha256Hex → Bool
  | .tick _ => true
  | .receive run _ _ => (w.stage run).isIdle
  | .pruneExpired run => (w.stage run).isIdle
  | .pruneOrphaned run => (w.stage run).isIdle
  | .step run event => (w.next (w.stage run) event).isSome

def opening (sha256Hex : β → String) (clock : Nat) : World sha256Hex :=
  ⟨clock, [], [], fun _ => none, fun _ => .idle, [], [], []⟩

def support (sha256Hex : β → String) : Machine (World sha256Hex) (Action sha256Hex) Unit where
  start w := ∃ clock, w = opening sha256Hex clock
  admits w a := w.admits a = true
  exec w a := (w.exec a, ())

end PeerBridge.FeedbackCases
