import PeerBridge.Text
import PeerBridge.Lib.JsonText

namespace PeerBridge

structure TextForms where
  real : ℚ → String
  utc : Utc → String

variable (F : TextForms)

mutual
def jsonChars : Json → List Char
  | .null => ['n', 'u', 'l', 'l']
  | .bool b => if b then ['t', 'r', 'u', 'e'] else ['f', 'a', 'l', 's', 'e']
  | .int n => (toString n).toList
  | .real q => (F.real q).toList
  | .str t => JsonText.quote t.toList
  | .sha d => JsonText.quote d.hex.toList
  | .utc t => JsonText.quote (F.utc t).toList
  | .arr items => JsonText.array (itemChars items)
  | .obj fields => JsonText.object (fieldChars fields)
def itemChars : List Json → List (List Char)
  | [] => []
  | v :: vs => jsonChars v :: itemChars vs
def fieldChars : List (String × Json) → List (String × List Char)
  | [] => []
  | (k, v) :: fs => (k, jsonChars v) :: fieldChars fs
end

def utf8Length (cs : List Char) : Nat := JsonText.weight Char.utf8Size cs

def dumps (v : Json) : String := String.ofList (jsonChars F v)

-- stable_sha256 as bridge.py computes it
def Platform.canonical (P : Platform) : Platform :=
  { P with stableSha256 := fun v => P.sha256Bytes (dumps F v)
           encodedBytes := fun v => utf8Length (jsonChars F v) }

@[simp] theorem Platform.canonical_sha256Bytes (P : Platform) :
    (P.canonical F).sha256Bytes = P.sha256Bytes := rfl

@[simp] theorem Platform.canonical_stableSha256 (P : Platform) (v : Json) :
    (P.canonical F).stableSha256 v = P.sha256Bytes (dumps F v) := rfl

theorem jsonChars_sha (d : Sha256) : jsonChars F (.sha d) = jsonChars F (.str d.hex) := by
  rw [jsonChars, jsonChars]

theorem jsonChars_utc (t : Utc) : jsonChars F (.utc t) = jsonChars F (.str (F.utc t)) := by
  rw [jsonChars, jsonChars]

theorem jsonChars_opt_cancel {a b : Option String} {r s : List Char}
    (h : jsonChars F (.opt a) ++ r = jsonChars F (.opt b) ++ s) : a = b ∧ r = s := by
  cases a with
  | none =>
    cases b with
    | none => exact ⟨rfl, by simpa [Json.opt, jsonChars] using h⟩
    | some b => simp [Json.opt, jsonChars, JsonText.quote] at h
  | some a =>
    cases b with
    | none => simp [Json.opt, jsonChars, JsonText.quote] at h
    | some b =>
      simp only [Json.opt, Option.elim, jsonChars] at h
      obtain ⟨ht, hr⟩ := JsonText.quote_cancel h
      exact ⟨by rw [String.toList_inj.mp ht], hr⟩

end PeerBridge
