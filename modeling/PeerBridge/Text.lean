import Mathlib.Data.Rat.Defs
import Mathlib.Data.List.DropRight
import Mathlib.Data.List.Sort
import Mathlib.Tactic.Ring
import PeerBridge.Lib.Checked

namespace PeerBridge
open Checked

inductive BridgeError where
  | bridge (text : String)
  | integrity (text : String)
  deriving DecidableEq, Repr

abbrev Utc := Int

structure Sha256 where
  bits : BitVec 256
  deriving DecidableEq, Repr

inductive Json where
  | null
  | bool (b : Bool)
  | int (n : Int)
  | real (q : ℚ)
  | str (t : String)
  | sha (d : Sha256)
  | utc (t : Utc)
  | arr (items : List Json)
  | obj (fields : List (String × Json))

def isSpace (c : Char) : Bool :=
  (9 ≤ c.toNat && c.toNat ≤ 13) || (28 ≤ c.toNat && c.toNat ≤ 32) || c.toNat = 0x85 ||
  c.toNat = 0xa0 || c.toNat = 0x1680 || (0x2000 ≤ c.toNat && c.toNat ≤ 0x200a) ||
  c.toNat = 0x2028 || c.toNat = 0x2029 || c.toNat = 0x202f || c.toNat = 0x205f ||
  c.toNat = 0x3000

def stripChars (cs : List Char) : List Char :=
  ((cs.dropWhile isSpace).reverse.dropWhile isSpace).reverse

def strip (t : String) : String := String.ofList (stripChars t.toList)

def lowerAscii (c : Char) : Char :=
  if 'A' ≤ c && c ≤ 'Z' then Char.ofNat (c.toNat + 32) else c

def upperAscii (c : Char) : Char :=
  if 'a' ≤ c && c ≤ 'z' then Char.ofNat (c.toNat - 32) else c

def lower (t : String) : String := String.ofList (t.toList.map lowerAscii)

def isSafeIdChar (c : Char) : Bool :=
  c.isAlphanum || c = '_' || c = '.' || c = ':' || c = '-'

def isSafeId (t : String) : Bool :=
  t.toList.all isSafeIdChar && 1 ≤ t.length && t.length ≤ 200

def isIdentifier (t : String) : Bool := isSafeId t && t ≠ "." && t ≠ ".."

def isSafeModelId (t : String) : Bool :=
  t.toList.all (fun c => isSafeIdChar c || c = '/') && 1 ≤ t.length && t.length ≤ 500

def isHexDigit (c : Char) : Bool := ('0' ≤ c && c ≤ '9') || ('a' ≤ c && c ≤ 'f')

def isSha256 (t : String) : Bool := t.toList.all isHexDigit && t.length = 64

def isUuidHex (t : String) : Bool := t.toList.all isHexDigit && t.length = 32

structure Usage where
  status : String
  source : String
  inputTokens : Option Nat
  outputTokens : Option Nat
  totalTokens : Option Nat
  cachedInputTokens : Option Nat
  reasoningTokens : Option Nat
  fieldReportedCalls : List (String × Nat)
  reportedCalls : Nat
  totalCalls : Nat
  totalTokensDerived : Bool

structure ValidatedReceipt where
  receiptSchema : String
  inferenceReceiptSha256 : Sha256
  assistantMessageSha256 : Sha256
  assistantContentSha256 : Sha256
  replyBodySha256 : Sha256

structure Platform where
  sha256Bytes : String → Sha256
  -- SHA-256 and length of the canonical JSON text
  stableSha256 : Json → Sha256
  encodedBytes : Json → Nat
  containsSecret : String → Bool
  foldWhitespaceLower : String → String
  casefold : Char → List Char
  casefold_slash : casefold '/' = ['/']
  windows : Bool
  usageFromReceipt : Json → Except String Usage
  validateUsage : Json → Except String Usage
  unavailableUsage : Json
  validateInferenceReceipt : Json → String → Json → String → Json → Except String ValidatedReceipt

def hexNibble (n : Nat) : Char := Char.ofNat (if n < 10 then 48 + n else 87 + n)

def hexValue (c : Char) : Nat := if c.toNat < 58 then c.toNat - 48 else c.toNat - 87

def hexText (n : Nat) : Nat → List Char
  | 0 => []
  | k + 1 => hexNibble (n / 16 ^ k % 16) :: hexText n k

def hexNumber (cs : List Char) : Nat := cs.foldl (fun n c => n * 16 + hexValue c) 0

def Sha256.hex (d : Sha256) : String := String.ofList (hexText d.bits.toNat 64)

def Sha256.parse? (t : String) : Option Sha256 :=
  if isSha256 t then some ⟨BitVec.ofNat 256 (hexNumber t.toList)⟩ else none

theorem hexNibble_hex : ∀ k < 16, isHexDigit (hexNibble k) = true := by decide

theorem hexValue_hexNibble : ∀ k < 16, hexValue (hexNibble k) = k := by decide

theorem hexText_length (n k : Nat) : (hexText n k).length = k := by
  induction k with
  | zero => rfl
  | succ k ih => rw [hexText, List.length_cons, ih]

theorem hexText_hex (n k : Nat) : ∀ c ∈ hexText n k, isHexDigit c = true := by
  induction k with
  | zero => simp [hexText]
  | succ k ih =>
    intro c hc
    rcases List.mem_cons.mp hc with rfl | hc
    · exact hexNibble_hex _ (Nat.mod_lt _ (by decide))
    · exact ih c hc

theorem hexNumber_hexText (n k acc : Nat) :
    (hexText n k).foldl (fun n c => n * 16 + hexValue c) acc = acc * 16 ^ k + n % 16 ^ k := by
  induction k generalizing acc with
  | zero => simp [hexText, Nat.mod_one]
  | succ k ih =>
    rw [hexText, List.foldl_cons, ih, hexValue_hexNibble _ (Nat.mod_lt _ (by decide)),
      Nat.pow_succ, Nat.mod_mul]
    ring

theorem Sha256.parse?_hex (d : Sha256) : Sha256.parse? d.hex = some d := by
  have hs : isSha256 d.hex = true := by
    simpa [isSha256, Sha256.hex, hexText_length] using hexText_hex d.bits.toNat 64
  have hn : hexNumber (hexText d.bits.toNat 64) = d.bits.toNat := by
    rw [hexNumber, hexNumber_hexText, Nat.zero_mul, Nat.zero_add]
    exact Nat.mod_eq_of_lt (by simpa using d.bits.isLt)
  rw [Sha256.parse?, if_pos hs, Sha256.hex, String.toList_ofList, hn]
  simp

def liftText {α : Type} : Except String α → Except BridgeError α
  | .ok a => .ok a
  | .error text => .error (.bridge text)

def Json.opt (o : Option String) : Json := o.elim .null .str

def Json.optSha (o : Option Sha256) : Json := o.elim .null .sha

def Json.strs (ts : List String) : Json := .arr (ts.map .str)

def Json.count (n : Option Nat) : Json := n.elim .null (fun k => .int k)

def Usage.fields (u : Usage) : List (String × Json) :=
  [("input_tokens", .count u.inputTokens), ("output_tokens", .count u.outputTokens),
    ("total_tokens", .count u.totalTokens),
    ("cached_input_tokens", .count u.cachedInputTokens),
    ("reasoning_tokens", .count u.reasoningTokens),
    ("field_reported_calls", .obj (u.fieldReportedCalls.map (fun f => (f.1, .int f.2)))),
    ("reported_calls", .int u.reportedCalls), ("total_calls", .int u.totalCalls),
    ("total_tokens_derived", .bool u.totalTokensDerived)]

def Usage.json (u : Usage) : Json :=
  .obj ([("schema", Json.str "peerbridge.inference-usage.v1"), ("status", .str u.status),
    ("source", .str u.source)] ++ u.fields)

def utcNow (epoch : ℚ) : Utc := epoch.floor

def requireIdentifier (value label : String) : Except BridgeError String := do
  let text := strip value
  require (isIdentifier text = true)
    (.bridge (label ++ " must contain only letters, digits, dot, underscore, colon or dash"))
  pure text

def optionalIdentifier (value label : String) : Except BridgeError (Option String) :=
  if strip value = "" then pure none else some <$> requireIdentifier (strip value) label

def requireSha256 (value label : String) : Except BridgeError Sha256 :=
  demand (Sha256.parse? (lower (strip value)))
    (.bridge (label ++ " must be a lowercase SHA-256 digest"))

def requireText (P : Platform) (value label : String) (limit : Nat) :
    Except BridgeError String := do
  let text := strip value
  require (text ≠ "") (.bridge (label ++ " is required"))
  require (text.length ≤ limit) (.bridge (label ++ " exceeds " ++ toString limit ++ " characters"))
  require (P.containsSecret text = false)
    (.bridge (label ++ " appears to contain a credential or private key"))
  pure text

def boundedInteger (value : Int) (label : String) (minimum maximum : Int) :
    Except BridgeError Int := do
  require (minimum ≤ value ∧ value ≤ maximum)
    (.bridge (label ++ " must be between " ++ toString minimum ++ " and " ++ toString maximum))
  pure value

theorem isAlphanum_iff {c : Char} : c.isAlphanum = true ↔
    ((65 ≤ c.toNat ∧ c.toNat ≤ 90) ∨ (97 ≤ c.toNat ∧ c.toNat ≤ 122)) ∨
      (48 ≤ c.toNat ∧ c.toNat ≤ 57) := by
  have hupper : c.isUpper = true ↔ 65 ≤ c.toNat ∧ c.toNat ≤ 90 := decide_eq_true_iff
  have hlower : c.isLower = true ↔ 97 ≤ c.toNat ∧ c.toNat ≤ 122 := by
    change (decide ((97 : UInt32) ≤ c.val) && decide (c.val ≤ 122)) = true ↔ _
    rw [Bool.and_eq_true, decide_eq_true_eq, decide_eq_true_eq]
    rfl
  have hdigit : c.isDigit = true ↔ 48 ≤ c.toNat ∧ c.toNat ≤ 57 := by
    change (decide ((48 : UInt32) ≤ c.val) && decide (c.val ≤ 57)) = true ↔ _
    rw [Bool.and_eq_true, decide_eq_true_eq, decide_eq_true_eq]
    rfl
  change (c.isUpper || c.isLower || c.isDigit) = true ↔ _
  rw [Bool.or_eq_true, Bool.or_eq_true, hupper, hlower, hdigit]

theorem uuid_safe {t : String} (h : isUuidHex t = true) : isSafeId t = true := by
  simp only [isUuidHex, Bool.and_eq_true, List.all_eq_true, decide_eq_true_eq] at h
  obtain ⟨hhex, hlen⟩ := h
  simp only [isSafeId, Bool.and_eq_true, List.all_eq_true, decide_eq_true_eq, hlen]
  refine ⟨⟨fun c hc => ?_, by decide⟩, by decide⟩
  have hc := hhex c hc
  simp only [isHexDigit, Bool.or_eq_true, Bool.and_eq_true, decide_eq_true_eq] at hc
  have hsafe : c.isAlphanum = true := by
    rw [isAlphanum_iff]
    rcases hc with ⟨hlow, hhigh⟩ | ⟨hlow, hhigh⟩
    · exact .inr ⟨hlow, hhigh⟩
    · exact .inl (.inr ⟨hlow, Nat.le_trans hhigh (by decide)⟩)
  simp only [isSafeIdChar, hsafe, Bool.true_or]

theorem stripChars_stripChars (cs : List Char) : stripChars (stripChars cs) = stripChars cs := by
  have hsuffix := List.dropWhile_suffix isSpace (l := (cs.dropWhile isSpace).reverse)
  have hprefix : stripChars cs <+: cs.dropWhile isSpace := by
    have := List.reverse_prefix.mpr hsuffix
    rwa [List.reverse_reverse] at this
  have hfront : (stripChars cs).dropWhile isSpace = stripChars cs := by
    cases hr : stripChars cs with
    | nil => rfl
    | cons c r =>
      obtain ⟨s, hs⟩ := hprefix
      rw [hr, List.cons_append] at hs
      have hd : cs.dropWhile isSpace ≠ [] := by rw [← hs]; simp
      have hhead := List.head_dropWhile_not isSpace hd
      simp only [← hs, List.head_cons] at hhead
      rw [List.dropWhile_cons, hhead]
      rfl
  rw [stripChars, hfront, stripChars, List.reverse_reverse, List.dropWhile_idempotent]

theorem stripChars_plain {cs : List Char} (h : ∀ c ∈ cs, isSpace c = false) :
    stripChars cs = cs := by
  have hdrop : ∀ ds : List Char, (∀ c ∈ ds, isSpace c = false) → ds.dropWhile isSpace = ds := by
    intro ds hds
    cases ds with
    | nil => rfl
    | cons d ds => exact List.dropWhile_cons_of_neg (by simp [hds d List.mem_cons_self])
  rw [stripChars, hdrop cs h, hdrop cs.reverse (fun c hc => h c (List.mem_reverse.mp hc)),
    List.reverse_reverse]

theorem strip_strip (t : String) : strip (strip t) = strip t := by
  rw [strip, strip, String.toList_ofList, stripChars_stripChars]

theorem requireIdentifier_ok {value label t : String} (h : requireIdentifier value label = .ok t) :
    t = strip value ∧ isIdentifier t = true := by
  simp only [requireIdentifier, bind_eq_ok, require_eq_ok, pure_eq_ok] at h
  obtain ⟨-, h1, rfl⟩ := h
  exact ⟨rfl, h1⟩

theorem boundedInteger_eq_ok {value minimum maximum v : Int} {label : String} :
    boundedInteger value label minimum maximum = .ok v ↔
      value = v ∧ minimum ≤ value ∧ value ≤ maximum := by
  simp only [boundedInteger, bind_eq_ok, require_eq_ok, pure_eq_ok]
  constructor
  · rintro ⟨-, h, rfl⟩
    exact ⟨rfl, h⟩
  · rintro ⟨rfl, h⟩
    exact ⟨(), h, rfl⟩

end PeerBridge
