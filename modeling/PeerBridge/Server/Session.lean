import PeerBridge.Server.Frames
import PeerBridge.Lib.Machine
import PeerBridge.Lib.Throttle

namespace PeerBridge.Stdio

def maxStdioCallsPerMinute : ℕ := 600
def maxStdioCallsPerSession : ℕ := 10000
def callWindowSeconds : ℚ := 60

def Frame.counts : Frame → Bool
  | .line text => strip text ≠ ""
  | .error _ => true

inductive Outcome (ρ : Type) where
  | skipped
  | refused
  | failed (message : String)
  | handled (reply : Option ρ)

inductive Response (ρ : Type) where
  | transport (code : Int) (message : String)
  | reply (r : ρ)

namespace Outcome
variable {ρ : Type}

def response : Outcome ρ → Option (Response ρ)
  | skipped => none
  | refused => some (.transport (-32003) "MCP session call budget exceeded; session closed")
  | failed message => some (.transport (-32600) message)
  | handled reply => reply.map .reply

def admitted : Outcome ρ → Bool
  | skipped | refused => false
  | failed _ | handled _ => true

def isRefusal : Outcome ρ → Bool
  | refused => true
  | skipped | failed _ | handled _ => false

def isSkip : Outcome ρ → Bool
  | skipped => true
  | refused | failed _ | handled _ => false

end Outcome

structure Serving (σ : Type) where
  world : σ
  recentCalls : List ℚ
  callCount : ℕ
  closed : Bool
  last : ℚ

section Serve
variable {σ ρ : Type} (handle : σ → String → σ × Option ρ)

-- the loop's body for one frame; handle parses a line, checks the capability and dispatches
def serveFrame (s : Serving σ) (i : Frame × ℚ) : Serving σ × Outcome ρ :=
  if s.closed = true ∨ i.1.counts = false then ({ s with last := i.2 }, .skipped)
  else
    let recent := Throttle.recentAt callWindowSeconds i.2 s.recentCalls
    if maxStdioCallsPerSession ≤ s.callCount ∨ maxStdioCallsPerMinute ≤ recent.length then
      ({ s with recentCalls := recent, closed := true, last := i.2 }, .refused)
    else
      let s := { s with recentCalls := recent ++ [i.2], callCount := s.callCount + 1, last := i.2 }
      match i.1 with
      | .error message => (s, .failed message)
      | .line text => ({ s with world := (handle s.world text).1 },
          .handled (handle s.world text).2)

def stdioServer : Machine (Serving σ) (Frame × ℚ) (Outcome ρ) where
  start s := s.recentCalls = [] ∧ s.callCount = 0 ∧ s.closed = false
  admits s i := s.last ≤ i.2
  exec := serveFrame handle

def feed (w : σ) (i : Frame × ℚ) : σ :=
  match i.1 with
  | .error _ => w
  | .line text => (handle w text).1

abbrev ServedTrace (ρ : Type) := List ((Frame × ℚ) × Outcome ρ)

def admittedCalls (tr : ServedTrace ρ) : List (Frame × ℚ) :=
  (tr.filter (fun x => x.2.admitted)).map Prod.fst

structure Metered (w₀ : σ) (tr : ServedTrace ρ) (s : Serving σ) : Prop where
  tracks : Throttle.Tracks callWindowSeconds maxStdioCallsPerMinute
    ((admittedCalls tr).map Prod.snd) s.recentCalls s.last
  counted : s.callCount = (admittedCalls tr).length
  capped : s.callCount ≤ maxStdioCallsPerSession
  world_eq : s.world = (admittedCalls tr).foldl (feed handle) w₀
  closed_iff : s.closed = true ↔ ∃ x ∈ tr, x.2.isRefusal = true
  silent : tr.Pairwise (fun x y => x.2.isRefusal = true → y.2.isSkip = true)
  attended : ∀ x ∈ tr, x.1.1.counts = true → x.2.isSkip = true → s.closed = true

variable {handle} {s s' : Serving σ} {i : Frame × ℚ} {tr : ServedTrace ρ} {w₀ : σ} {o : Outcome ρ}

-- what one frame may do
theorem serveFrame_cases :
    ((s.closed = true ∨ i.1.counts = false) ∧
      serveFrame handle s i = ({ s with last := i.2 }, .skipped)) ∨
    (s.closed = false ∧ serveFrame handle s i =
      ({ s with recentCalls := Throttle.recentAt callWindowSeconds i.2 s.recentCalls,
                closed := true, last := i.2 }, .refused)) ∨
    (s.closed = false ∧ s.callCount < maxStdioCallsPerSession ∧
      (Throttle.recentAt callWindowSeconds i.2 s.recentCalls).length < maxStdioCallsPerMinute ∧
      ∃ o : Outcome ρ, o.admitted = true ∧ o.isRefusal = false ∧ serveFrame handle s i =
        ({ s with world := feed handle s.world i,
                  recentCalls := Throttle.recentAt callWindowSeconds i.2 s.recentCalls ++ [i.2],
                  callCount := s.callCount + 1, last := i.2 }, o)) := by
  by_cases hskip : s.closed = true ∨ i.1.counts = false
  · exact .inl ⟨hskip, if_pos hskip⟩
  · have hopen : s.closed = false := by simpa using (not_or.mp hskip).1
    refine .inr ?_
    rw [serveFrame, if_neg hskip]
    dsimp only
    split_ifs with hfull
    · exact .inl ⟨hopen, rfl⟩
    · obtain ⟨hcount, hrecent⟩ := not_or.mp hfull
      refine .inr ⟨hopen, not_le.mp hcount, not_le.mp hrecent, ?_⟩
      obtain ⟨frame, now⟩ := i
      cases frame with
      | line text => exact ⟨.handled (handle s.world text).2, rfl, rfl, rfl⟩
      | error message => exact ⟨.failed message, rfl, rfl, rfl⟩

theorem admittedCalls_passed (tr : ServedTrace ρ) (i : Frame × ℚ) (ho : o.admitted = false) :
    admittedCalls (tr ++ [(i, o)]) = admittedCalls tr := by
  simp [admittedCalls, ho]

theorem admittedCalls_made (tr : ServedTrace ρ) (i : Frame × ℚ) (ho : o.admitted = true) :
    admittedCalls (tr ++ [(i, o)]) = admittedCalls tr ++ [i] := by
  simp [admittedCalls, ho]

theorem exists_refusal_snoc : (∃ x ∈ tr ++ [(i, o)], x.2.isRefusal = true) ↔
    (∃ x ∈ tr, x.2.isRefusal = true) ∨ o.isRefusal = true := by
  simp [or_and_right, exists_or]

theorem Metered.silent_snoc (h : Metered handle w₀ tr s)
    (ho : s.closed = true → o.isSkip = true) :
    (tr ++ [(i, o)]).Pairwise (fun x y => x.2.isRefusal = true → y.2.isSkip = true) := by
  refine List.pairwise_append.mpr ⟨h.silent, List.pairwise_singleton _ _, fun x hx y hy hr => ?_⟩
  rw [List.mem_singleton.mp hy]
  exact ho (h.closed_iff.mpr ⟨x, hx, hr⟩)

theorem Metered.attended_snoc (h : Metered handle w₀ tr s)
    (ho : i.1.counts = true → o.isSkip = true → s.closed = true) :
    ∀ x ∈ tr ++ [(i, o)], x.1.1.counts = true → x.2.isSkip = true → s.closed = true := by
  intro x hx
  rcases List.mem_append.mp hx with hx | hx
  · exact h.attended x hx
  · rw [List.mem_singleton.mp hx]
    exact ho

theorem Metered.step (h : Metered handle w₀ tr s) (hnow : s.last ≤ i.2) :
    Metered handle w₀ (tr ++ [(i, (serveFrame handle s i).2)]) (serveFrame handle s i).1 := by
  rcases @serveFrame_cases _ _ handle s i with ⟨hskip, he⟩ | ⟨hopen, he⟩ |
      ⟨hopen, hcount, hrecent, o, hadmitted, hrefusal, he⟩ <;> rw [he]
  · have hcalls : admittedCalls (tr ++ [(i, (.skipped : Outcome ρ))]) = admittedCalls tr :=
      admittedCalls_passed tr i rfl
    refine ⟨?_, ?_, h.capped, ?_, ?_, h.silent_snoc (fun _ => rfl),
      h.attended_snoc (fun hcounts _ => hskip.resolve_right (by rw [hcounts]; simp))⟩
    · rw [hcalls]
      exact h.tracks.wait hnow
    · rw [hcalls]
      exact h.counted
    · rw [hcalls]
      exact h.world_eq
    · rw [exists_refusal_snoc, ← h.closed_iff]
      exact (or_iff_left (by exact Bool.false_ne_true)).symm
  · have hcalls : admittedCalls (tr ++ [(i, (.refused : Outcome ρ))]) = admittedCalls tr :=
      admittedCalls_passed tr i rfl
    refine ⟨?_, ?_, h.capped, ?_, ?_, h.silent_snoc (fun hc => ?_), fun _ _ _ _ => rfl⟩
    · rw [hcalls]
      exact h.tracks.later hnow
    · rw [hcalls]
      exact h.counted
    · rw [hcalls]
      exact h.world_eq
    · rw [exists_refusal_snoc]
      exact ⟨fun _ => .inr rfl, fun _ => rfl⟩
    · rw [hopen] at hc
      cases hc
  · have hcalls := admittedCalls_made tr i hadmitted
    have hbusy (hskip : o.isSkip = true) : s.closed = true := by
      cases o with
      | skipped => cases hadmitted
      | refused => cases hadmitted
      | failed message => cases hskip
      | handled reply => cases hskip
    refine ⟨?_, ?_, hcount, ?_, ?_, h.silent_snoc (fun hc => ?_), h.attended_snoc (fun _ => hbusy)⟩
    · rw [hcalls, List.map_append]
      exact (h.tracks.later hnow).call hrecent
    · rw [hcalls, List.length_append, ← h.counted]
      rfl
    · rw [hcalls, List.foldl_append, ← h.world_eq]
      rfl
    · rw [exists_refusal_snoc, ← h.closed_iff, hrefusal]
      exact (or_iff_left Bool.false_ne_true).symm
    · rw [hopen] at hc
      cases hc

theorem Metered.start (hs : (stdioServer handle).start s) : Metered handle s.world [] s := by
  obtain ⟨hrecent, hcount, hclosed⟩ := hs
  refine ⟨?_, hcount, hcount ▸ Nat.zero_le _, rfl, ?_, List.Pairwise.nil,
    fun x hx => absurd hx List.not_mem_nil⟩
  · rw [hrecent]
    exact .nil _ _ _
  · rw [hclosed]
    simp

theorem run_metered (hs : (stdioServer handle).start s) (h : (stdioServer handle).Run s tr s') :
    Metered handle s.world tr s' :=
  h.preserves_trace (Metered handle s.world) (fun _ _ _ hm ha => hm.step ha) (.start hs)

/-- A session stays within its call budgets and ends at the first call beyond them. -/
theorem session_within_budget (hs : (stdioServer handle).start s)
    (h : (stdioServer handle).Run s tr s') :
    (admittedCalls tr).length ≤ maxStdioCallsPerSession ∧
    (∀ t, Throttle.within callWindowSeconds t ((admittedCalls tr).map Prod.snd) ≤
      maxStdioCallsPerMinute) ∧
    s'.world = (admittedCalls tr).foldl (feed handle) s.world ∧
    (tr.Pairwise fun x y => x.2.isRefusal = true → y.2.isSkip = true) ∧
    (∀ x ∈ tr, x.1.1.counts = true → x.2.isSkip = true →
      ∃ y ∈ tr, y.2.isRefusal = true) := by
  have hm := run_metered hs h
  exact ⟨hm.counted ▸ hm.capped, hm.tracks.bounded, hm.world_eq, hm.silent,
    fun x hx hcounts hskip => hm.closed_iff.mp (hm.attended x hx hcounts hskip)⟩

end Serve

-- a handler that counts the lines it is given
private def countLines (n : ℕ) (_ : String) : ℕ × Option ℕ := (n + 1, some n)

private def newSession : Serving ℕ :=
  { world := 0, recentCalls := [], callCount := 0, closed := false, last := 0 }

private def threeFrames : List (Frame × ℚ) :=
  [(.line "ping", 1), (.line " ", 2), (.error "request is not valid UTF-8", 2)]

theorem session_within_budget_blank :
    (admittedCalls ((stdioServer countLines).play newSession threeFrames).2).length ≤
      maxStdioCallsPerSession := by
  have hstart : (stdioServer countLines).start newSession := ⟨rfl, rfl, rfl⟩
  have hadmits : (stdioServer countLines).AdmitsAll newSession threeFrames := by
    refine ⟨?_, ?_, ?_, trivial⟩
    · show (0 : ℚ) ≤ 1
      norm_num
    · show (1 : ℚ) ≤ 2
      norm_num
    · exact le_refl (2 : ℚ)
  exact (session_within_budget hstart (Machine.run_play _ _ hadmits)).1

end PeerBridge.Stdio
