import PeerBridge.Canonical
import PeerBridge.Lib.Lines

namespace PeerBridge.Stdio

def maxStdioRequestBytes : ℕ := 1024 * 1024
def maxStdioResponseBytes : ℕ := 4 * 1024 * 1024

def newline : UInt8 := 10

def utf8 (cs : List Char) : List UInt8 := cs.flatMap String.utf8EncodeChar

def decodeUtf8 (payload : List UInt8) : Option String := String.fromUTF8? ⟨payload.toArray⟩

inductive Frame where
  | line (text : String)
  | error (message : String)
  deriving DecidableEq, Repr

def decodeFrame (payload : List UInt8) : Frame :=
  match decodeUtf8 payload with
  | some text => .line text
  | none => .error "request is not valid UTF-8"

/-- The next frame, none at the end of the input, and what is left to read. -/
def readBoundedStdioFrame (s : List UInt8) : Option Frame × List UInt8 :=
  let (payload, rest) := Lines.readline newline (maxStdioRequestBytes + 1) s
  if payload = [] then (none, rest)
  else if maxStdioRequestBytes < payload.length then
    (some (.error "request exceeds the stdio byte limit"),
      Lines.discard newline maxStdioRequestBytes payload rest)
  else (some (decodeFrame payload), rest)

def frameOf (line : List UInt8) : Frame :=
  if maxStdioRequestBytes < line.length then .error "request exceeds the stdio byte limit"
  else decodeFrame line

section Reading
variable {s : List UInt8}

theorem readBoundedStdioFrame_nil : readBoundedStdioFrame [] = (none, []) := rfl

theorem readBoundedStdioFrame_cut (hs : s ≠ []) :
    readBoundedStdioFrame s = (some (frameOf (Lines.cut newline s).1), (Lines.cut newline s).2) := by
  rw [readBoundedStdioFrame, frameOf]
  have hne := @Lines.readline_nonempty _ _ newline maxStdioRequestBytes s hs
  simp only [if_neg hne]
  rcases Nat.lt_or_ge (maxStdioRequestBytes + 1) (Lines.cut newline s).1.length with hlong | hshort
  · obtain ⟨hlen, hfree, hrest, -⟩ := Lines.readline_long hlong
    rw [if_pos (by omega), if_pos (by omega), Lines.discard_rest hne hfree, hrest]
  · rw [Lines.readline_short hshort]
    by_cases hover : maxStdioRequestBytes < (Lines.cut newline s).1.length
    · rw [if_pos hover, if_pos hover]
      have hskip : Lines.discard newline maxStdioRequestBytes (Lines.cut newline s).1
          (Lines.cut newline s).2 = (Lines.cut newline s).2 := by
        rw [Lines.discard]
        rcases @Lines.cut_last _ _ newline s with hend | hend
        · rw [if_pos (.inr hend)]
        · rw [hend]
          split
          · rfl
          · rw [dif_pos rfl]
      rw [hskip]
    · rw [if_neg hover, if_neg hover]

theorem readBoundedStdioFrame_shorter (hs : s ≠ []) :
    (readBoundedStdioFrame s).2.length < s.length := by
  rw [readBoundedStdioFrame_cut hs]
  exact Lines.cut_shorter hs

/-- All frames of a finished input, one read after another. -/
def frames (s : List UInt8) : List Frame :=
  if _h : s = [] then []
  else
    match (readBoundedStdioFrame s).1 with
    | none => []
    | some f => f :: frames (readBoundedStdioFrame s).2
  termination_by s.length
  decreasing_by exact readBoundedStdioFrame_shorter ‹_›

/-- Each line of the input gives one frame, whatever stands on the lines around it. -/
theorem frames_eq_lines (s : List UInt8) : frames s = (Lines.lines newline s).map frameOf := by
  induction hn : s.length using Nat.strongRecOn generalizing s with
  | ind n ih =>
    by_cases hs : s = []
    · rw [frames, dif_pos hs, hs, Lines.lines_nil]
      rfl
    · rw [frames, dif_neg hs, Lines.lines_cons hs, List.map_cons]
      have hcut := readBoundedStdioFrame_cut hs
      have hstep := ih _ (hn ▸ readBoundedStdioFrame_shorter hs) _ rfl
      rw [hcut] at hstep ⊢
      exact congrArg (frameOf _ :: ·) hstep

/-- Reading bounds the memory of a frame and never the way to the next one. -/
theorem frames_resync (before line after : List UInt8) (hline : newline ∉ line)
    (hbefore : before = [] ∨ before.getLast? = some newline) :
    frames (before ++ (line ++ newline :: after)) =
      frames before ++ frameOf (line ++ [newline]) :: frames after := by
  have hlines : ∀ b : List UInt8, b = [] ∨ b.getLast? = some newline → ∀ t : List UInt8,
      Lines.lines newline (b ++ t) = Lines.lines newline b ++ Lines.lines newline t := by
    intro b hb t
    exact Lines.lines_append hb t
  have hcut := Lines.cut_of_line hline after
  rw [frames_eq_lines, frames_eq_lines, frames_eq_lines, hlines before hbefore,
    Lines.lines_cons (s := line ++ newline :: after) (by simp), hcut, List.map_append, List.map_cons]

end Reading

theorem frames_resync_undecodable :
    frames ([123, 125, 10] ++ ([255] ++ newline :: [91, 93, 10])) =
      frames [123, 125, 10] ++ frameOf ([255] ++ [newline]) :: frames [91, 93, 10] :=
  frames_resync [123, 125, 10] [255] [91, 93, 10]
    (fun h => absurd (List.mem_singleton.mp h) (by decide)) (.inr rfl)

end PeerBridge.Stdio
