import PeerBridge.Governance.Runs
import PeerBridge.Lib.Upsert
import PeerBridge.Scenario

namespace PeerBridge.ExecutionGovernance
open Checked Rows

abbrev Trace := List (Action × Answer)

def Answer.spends : Answer → List Key
  | .authorized r true => [r.key]
  | .created _ b => [b.permission]
  | _ => []

def Answer.seals : Answer → List Key
  | .sealed _ b => [b.key]
  | _ => []

def Answer.raises : Answer → List Nat
  | .raised call _ => [call]
  | _ => []

def Answer.creates : Answer → List Nat
  | .created call _ => [call]
  | _ => []

def GitResult.readable : GitResult → Bool
  | .exited _ stdout _ => (decodeStrict stdout).isSome
  | .untrusted | .unavailable => true

-- git worktree add succeeds with an output that is not UTF-8
def garbled : Action × Answer → List Nat
  | (.addWorktree call r, .raised _ _) => if r.succeeded && !r.readable then [call] else []
  | _ => []

def spends (tr : Trace) : List Key := tr.flatMap (fun e => e.2.spends)
def seals (tr : Trace) : List Key := tr.flatMap (fun e => e.2.seals)
def raises (tr : Trace) : List Nat := tr.flatMap (fun e => e.2.raises)
def creates (tr : Trace) : List Nat := tr.flatMap (fun e => e.2.creates)
def garbles (tr : Trace) : List Nat := tr.flatMap garbled

section Traces
variable (tr : Trace) (e : Action × Answer)

@[simp] theorem spends_snoc : spends (tr ++ [e]) = spends tr ++ e.2.spends := by simp [spends]
@[simp] theorem seals_snoc : seals (tr ++ [e]) = seals tr ++ e.2.seals := by simp [seals]
@[simp] theorem raises_snoc : raises (tr ++ [e]) = raises tr ++ e.2.raises := by simp [raises]
@[simp] theorem creates_snoc : creates (tr ++ [e]) = creates tr ++ e.2.creates := by simp [creates]
@[simp] theorem garbles_snoc : garbles (tr ++ [e]) = garbles tr ++ garbled e := by simp [garbles]

end Traces

-- what one step does to the two tables
inductive Change (H : Host) (g g' : Governance) : Action → Answer → Prop
  | quiet {i : Action} {o : Answer} (permissions_eq : g'.permissions = g.permissions)
      (bindings_eq : g'.bindings = g.bindings) (spends_eq : o.spends = [])
      (seals_eq : o.seals = []) : Change H g g' i o
  | decided {i : Action} {row : PermissionRow} (h : Decided H.platform g g' row) :
      Change H g g' i (.decided row)
  | spent {c : Ctx} {a : AuthorizeArgs} {f : Faults} {r : PermissionRow} {k : Key} {x : Expected}
      (h : Spent H.platform g g' k x (a.nowEpoch.getD c.clock.entry) r)
      (bindings_eq : g'.bindings = g.bindings) :
      Change H g g' (.authorize c a f) (.authorized r true)
  | bound {call : Nat} {p : Plan} {baseDiff : Sha256} {c : Ctx} {f : Faults} {r : PermissionRow}
      {b : BindingRow} (pending : g.pending? call = some (.measured p baseDiff))
      (h : Bound H g g' p c.clock.locked r b) :
      Change H g g' (.bind call c f) (.created call b)
  | closed {call : Nat} {t : Sealing} {c : Ctx} {f : Faults} {b : BindingRow} {now : Utc}
      (h : Closed H.platform g g' t b now) :
      Change H g g' (.commitSeal call c f) (.sealed call (b.close H.platform t now))

theorem perform_change (H : Host) (g : Governance) (i : Action) :
    Change H g (perform H g i).1 i (perform H g i).2 := by
  cases i with
  | decide c a f =>
    simp only [perform]
    split
    · rename_i h
      exact .decided (decidePermission_ok h).1
    · exact .quiet rfl rfl rfl rfl
  | authorize c a f =>
    simp only [perform]
    split
    · rename_i h
      obtain ⟨k, x, -, hb, hs⟩ := authorizePermission_ok h
      cases hc : a.consume with
      | true =>
        rw [hc, if_pos rfl] at hs
        exact .spent hs hb
      | false =>
        rw [hc, if_neg (by decide)] at hs
        exact .quiet hs hb rfl rfl
    · exact .quiet rfl rfl rfl rfl
  | openCreate c a W =>
    simp only [perform]
    split <;> exact .quiet rfl rfl rfl rfl
  | checkPermission call c f =>
    simp only [perform]
    split
    · split <;> exact .quiet rfl rfl rfl rfl
    · exact .quiet rfl rfl rfl rfl
  | addWorktree call r =>
    simp only [perform]
    split
    · split <;> split <;> exact .quiet rfl rfl rfl rfl
    · exact .quiet rfl rfl rfl rfl
  | measure call W =>
    simp only [perform]
    split
    · split <;> exact .quiet rfl rfl rfl rfl
    · exact .quiet rfl rfl rfl rfl
  | bind call c f =>
    simp only [perform]
    split
    · rename_i hp
      split
      · rename_i h
        obtain ⟨r, hb, -⟩ := bindWorktree_ok h
        exact .bound hp { hb with }
      · exact .quiet rfl rfl rfl rfl
    · exact .quiet rfl rfl rfl rfl
  | rollback call =>
    simp only [perform]
    split <;> exact .quiet rfl rfl rfl rfl
  | openSeal c bindingId W =>
    simp only [perform]
    split <;> exact .quiet rfl rfl rfl rfl
  | commitSeal call c f =>
    simp only [perform]
    split
    · split
      · rename_i h
        obtain ⟨b, hc, -, rfl⟩ := sealExecution_ok h
        exact .closed { hc with }
      · exact .quiet rfl rfl rfl rfl
    · exact .quiet rfl rfl rfl rfl
  | bridge s => exact .quiet rfl rfl rfl rfl

def Pending.plan? : Pending → Option Plan
  | .planned p | .authorized p | .added p | .measured p _ | .failing p _ => some p
  | .sealing _ => none

-- the worktree a call in flight answers for
def Pending.tree : Pending → Option String
  | .added p | .measured p _ | .failing p _ => some p.worktree
  | .planned _ | .authorized _ | .sealing _ => none

def Pending.Keyed (H : Host) (st : Pending) : Prop :=
  ∀ p ∈ st.plan?, p.resourceKey = resourceKeyOf H p.repository

-- what one step does to the worktrees and to the calls in flight
inductive Passage (H : Host) (g g' : Governance) : Action → Answer → Prop
  | still {i : Action} {o : Answer} (h : Kept g g') (raises_eq : o.raises = [])
      (creates_eq : o.creates = []) (garbles_eq : garbled (i, o) = []) : Passage H g g' i o
  | opened {i : Action} {st : Pending} (h : Kept (g.opening.put g.opened st) g')
      (tree_eq : st.tree = none) (keyed : st.Keyed H) (garbles_eq : garbled (i, .proceeds) = []) :
      Passage H g g' i .proceeds
  | refused {i : Action} {e : Failure} (h : Kept g.opening g') (garbles_eq : garbled (i, .raised g.opened e) = []) :
      Passage H g g' i (.raised g.opened e)
  | moved {i : Action} {call : Nat} {st st' : Pending} (pending : g.pending? call = some st)
      (h : Kept (g.put call st') g') (tree_eq : st'.tree = st.tree)
      (plan_eq : st'.plan? = st.plan?) (garbles_eq : garbled (i, .proceeds) = []) : Passage H g g' i .proceeds
  | added {i : Action} {call : Nat} {p : Plan} (pending : g.pending? call = some (.authorized p))
      (fresh : p.worktree ∉ g.worktrees.map Worktree.path)
      (h : Kept ((g.addTree ⟨p.worktree, call⟩).put call (.added p)) g')
      (garbles_eq : garbled (i, .proceeds) = []) : Passage H g g' i .proceeds
  | lost {i : Action} {call : Nat} {p : Plan} {e : Failure}
      (pending : g.pending? call = some (.authorized p))
      (fresh : p.worktree ∉ g.worktrees.map Worktree.path)
      (h : Kept ((g.addTree ⟨p.worktree, call⟩).drop call) g') (garbles_eq : garbled (i, .raised call e) = [call]) :
      Passage H g g' i (.raised call e)
  | ended {i : Action} {o : Answer} {call : Nat} {st : Pending}
      (pending : g.pending? call = some st) (h : Kept (g.drop call) g') (tree_eq : st.tree = none)
      (raises_le : ∀ n ∈ o.raises, n = call) (creates_eq : o.creates = [])
      (garbles_eq : garbled (i, o) = []) : Passage H g g' i o
  | created {i : Action} {call : Nat} {st : Pending} {b : BindingRow}
      (pending : g.pending? call = some st) (h : Kept (g.drop call) g')
      (garbles_eq : garbled (i, .created call b) = []) : Passage H g g' i (.created call b)
  | rolled {i : Action} {call : Nat} {st : Pending} {path : String} {e : Failure}
      (pending : g.pending? call = some st) (tree_eq : st.tree = some path)
      (h : Kept ((g.removeTree path).drop call) g') (garbles_eq : garbled (i, .raised call e) = []) :
      Passage H g g' i (.raised call e)

theorem Kept.refl (g : Governance) : Kept g g := ⟨rfl, rfl, rfl⟩

theorem Kept.drop {g g' : Governance} (h : Kept g g') (call : Nat) :
    Kept (g.drop call) (g'.drop call) := by
  refine ⟨h.worktrees_eq, ?_, h.opened_eq⟩
  change g'.calls.filter _ = g.calls.filter _
  rw [h.calls_eq]

theorem addWorktree_passage {H : Host} {g : Governance} {call : Nat} {p : Plan} {r : GitResult}
    (hp : g.pending? call = some (.authorized p))
    (hfresh : r.succeeded = true → p.worktree ∉ g.worktrees.map Worktree.path) :
    Passage H g (perform H g (.addWorktree call r)).1 (.addWorktree call r)
      (perform H g (.addWorktree call r)).2 := by
  simp only [perform, hp]
  split
  · rename_i t h
    rw [if_pos (runGit_ok h)]
    exact .added hp (hfresh (runGit_ok h)) (.refl _) rfl
  · rename_i e h
    cases hs : r.succeeded with
    | true =>
      rw [if_pos rfl]
      refine .lost hp (hfresh hs) (.refl _) ?_
      cases r with
      | untrusted => cases hs
      | unavailable => cases hs
      | exited code out err =>
        have hcode : code = 0 := by simpa [GitResult.succeeded] using hs
        subst hcode
        cases hd : decodeStrict out with
        | none => simp [garbled, GitResult.succeeded, GitResult.readable, hd]
        | some text => simp [runGit, require, demand, hd, bind, Except.bind, pure, Except.pure] at h
    | false =>
      rw [if_neg (by decide)]
      refine .ended hp (.refl _) rfl (by simp [Answer.raises]) rfl ?_
      simp [garbled, hs]

theorem perform_passage {H : Host} {g : Governance} {i : Action} (ha : Enabled g i) :
    Passage H g (perform H g i).1 i (perform H g i).2 := by
  cases i with
  | decide c a f =>
    simp only [perform]
    split
    · rename_i h
      exact .still (decidePermission_ok h).2 rfl rfl rfl
    · exact .still (.refl g) rfl rfl rfl
  | authorize c a f =>
    simp only [perform]
    split
    · rename_i h
      obtain ⟨-, -, hk, -⟩ := authorizePermission_ok h
      exact .still hk rfl rfl rfl
    · exact .still (.refl g) rfl rfl rfl
  | openCreate c a W =>
    simp only [perform]
    split
    · rename_i p h
      refine .opened (.refl _) rfl ?_ rfl
      rintro q ⟨⟩
      exact planWorktree_ok h
    · exact .refused (.refl _) rfl
  | checkPermission call c f =>
    simp only [perform]
    split
    · rename_i hp
      split
      · exact .moved hp (.refl _) rfl rfl rfl
      · exact .ended hp (.refl _) rfl (by simp [Answer.raises]) rfl rfl
    · exact .still (.refl g) rfl rfl rfl
  | addWorktree call r =>
    by_cases hp : ∃ p, g.pending? call = some (.authorized p)
    · obtain ⟨p, hp⟩ := hp
      exact addWorktree_passage hp (fun hs => ha hs _ (by rw [hp]; rfl))
    · simp only [perform]
      split
      · rename_i p hp'
        exact absurd ⟨p, hp'⟩ hp
      · exact .still (.refl g) rfl rfl rfl
  | measure call W =>
    simp only [perform]
    split
    · rename_i hp
      split <;> exact .moved hp (.refl _) rfl rfl rfl
    · exact .still (.refl g) rfl rfl rfl
  | bind call c f =>
    simp only [perform]
    split
    · rename_i hp
      split
      · rename_i h
        obtain ⟨r, -, hk⟩ := bindWorktree_ok h
        exact .created hp (hk.drop call) rfl
      · exact .moved hp (.refl _) rfl rfl rfl
    · exact .still (.refl g) rfl rfl rfl
  | rollback call =>
    simp only [perform]
    split
    · rename_i hp
      exact .rolled hp rfl (.refl _) rfl
    · exact .still (.refl g) rfl rfl rfl
  | openSeal c bindingId W =>
    simp only [perform]
    split
    · refine .opened (.refl _) rfl ?_ rfl
      rintro q ⟨⟩
    · exact .refused (.refl _) rfl
  | commitSeal call c f =>
    simp only [perform]
    split
    · rename_i hp
      split
      · rename_i h
        obtain ⟨b, -, hk, -⟩ := sealExecution_ok h
        exact .ended hp (hk.drop call) rfl (by simp [Answer.raises]) rfl rfl
      · exact .ended hp (.refl _) rfl (by simp [Answer.raises]) rfl rfl
    · exact .still (.refl g) rfl rfl rfl
  | bridge s => exact .still ⟨rfl, rfl, rfl⟩ rfl rfl rfl

theorem Kept.pending {g g' : Governance} (h : Kept g g') (k : Nat) :
    g'.pending? k = g.pending? k := by rw [Governance.pending?, h.calls_eq]; rfl

theorem pending_put (g : Governance) (call k : Nat) (st : Pending) :
    (g.put call st).pending? k = if call = k then some st else g.pending? k := by
  simp only [Governance.pending?, Governance.put, lookup_upsert]
  split <;> rfl

theorem pending_drop (g : Governance) (call k : Nat) :
    (g.drop call).pending? k = if call = k then none else g.pending? k := by
  simp only [Governance.pending?, Governance.drop, lookup_remove]
  split <;> rfl

structure Tracked (H : Host) (tr : Trace) (g : Governance) : Prop where
  calls_lt : ∀ call st, g.pending? call = some st → call < g.opened ∧ st.Keyed H
  raised : ∀ call ∈ raises tr, call < g.opened ∧ g.pending? call = none ∧ call ∉ creates tr
  created : ∀ call ∈ creates tr, call < g.opened ∧ g.pending? call = none
  paths : (g.worktrees.map Worktree.path).Nodup
  owner : ∀ t ∈ g.worktrees, t.call ∈ creates tr ∨ t.call ∈ garbles tr ∨
    ∃ st, g.pending? t.call = some st ∧ st.tree = some t.path
  held : ∀ call st path, g.pending? call = some st → st.tree = some path →
    ⟨path, call⟩ ∈ g.worktrees
  lost : ∀ call ∈ garbles tr, call ∈ raises tr ∧ ∃ t ∈ g.worktrees, t.call = call

section Tracking
variable {H : Host} {tr : Trace} {g g' : Governance} {i : Action} {o : Answer}

theorem tracked_start (h : (governance H).start g) : Tracked H [] g := by
  obtain ⟨-, -, hw, hc, -⟩ := h
  have hnone : ∀ call, g.pending? call = none := fun call => by
    rw [Governance.pending?, hc]
    rfl
  refine ⟨?_, ?_, ?_, ?_, ?_, ?_, ?_⟩ <;> simp [hnone, hw, raises, creates, garbles]

theorem Tracked.kept (h : Tracked H tr g) (hk : Kept g g') : Tracked H tr g' where
  calls_lt call st hp := by
    rw [hk.pending] at hp
    rw [hk.opened_eq]
    exact h.calls_lt call st hp
  raised call hm := by
    rw [hk.pending, hk.opened_eq]
    exact h.raised call hm
  created call hm := by
    rw [hk.pending, hk.opened_eq]
    exact h.created call hm
  paths := by
    rw [hk.worktrees_eq]
    exact h.paths
  owner t ht := by
    rw [hk.worktrees_eq] at ht
    rw [hk.pending]
    exact h.owner t ht
  held call st path hp ht := by
    rw [hk.pending] at hp
    rw [hk.worktrees_eq]
    exact h.held call st path hp ht
  lost call hm := by
    rw [hk.worktrees_eq]
    exact h.lost call hm

-- a step that neither raises, creates nor loses a worktree
theorem Tracked.quiet (h : Tracked H tr g) (hr : o.raises = []) (hc : o.creates = [])
    (hg : garbled (i, o) = []) : Tracked H (tr ++ [(i, o)]) g := by
  obtain ⟨h1, h2, h3, h4, h5, h6, h7⟩ := h
  refine ⟨h1, ?_, ?_, h4, ?_, h6, ?_⟩ <;> simpa [hr, hc, hg]

theorem Tracked.open (h : Tracked H tr g) : Tracked H tr g.opening where
  calls_lt call st hp := ⟨Nat.lt_succ_of_lt (h.calls_lt call st hp).1, (h.calls_lt call st hp).2⟩
  raised call hm := ⟨Nat.lt_succ_of_lt (h.raised call hm).1, (h.raised call hm).2⟩
  created call hm := ⟨Nat.lt_succ_of_lt (h.created call hm).1, (h.created call hm).2⟩
  paths := h.paths
  owner := h.owner
  held := h.held
  lost := h.lost

theorem Tracked.unopened (h : Tracked H tr g) :
    g.pending? g.opened = none ∧ g.opened ∉ raises tr ∧ g.opened ∉ creates tr := by
  refine ⟨?_, fun hm => (h.raised _ hm).1.ne rfl, fun hm => (h.created _ hm).1.ne rfl⟩
  cases hp : g.pending? g.opened with
  | none => rfl
  | some st => exact absurd (h.calls_lt _ _ hp).1 (Nat.lt_irrefl _)

theorem Tracked.running (h : Tracked H tr g) {call : Nat} {st : Pending}
    (hp : g.pending? call = some st) :
    call ∉ raises tr ∧ call ∉ creates tr ∧ call ∉ garbles tr := by
  have hr : call ∉ raises tr := fun hm => by
    rw [(h.raised call hm).2.1] at hp
    cases hp
  refine ⟨hr, fun hm => ?_, fun hm => hr (h.lost call hm).1⟩
  rw [(h.created call hm).2] at hp
  cases hp

theorem Tracked.move (h : Tracked H tr g) {call : Nat} {st : Pending} (hlt : call < g.opened)
    (hkeyed : st.Keyed H) (hr : call ∉ raises tr) (hc : call ∉ creates tr)
    (hpaths : (g'.worktrees.map Worktree.path).Nodup)
    (hpending : ∀ k, g'.pending? k = if call = k then some st else g.pending? k)
    (hopened : g'.opened = g.opened)
    (hothers : ∀ t : Worktree, t.call ≠ call → (t ∈ g'.worktrees ↔ t ∈ g.worktrees))
    (hheld : ∀ path, st.tree = some path → ⟨path, call⟩ ∈ g'.worktrees)
    (howner : ∀ t ∈ g'.worktrees, t.call = call → st.tree = some t.path) : Tracked H tr g' := by
  have hself : g'.pending? call = some st := by rw [hpending, if_pos rfl]
  have hother : ∀ k, k ≠ call → g'.pending? k = g.pending? k := fun k hk => by
    rw [hpending, if_neg (Ne.symm hk)]
  refine ⟨fun k st' hp => ?_, fun k hm => ?_, fun k hm => ?_, hpaths, fun t ht => ?_,
    fun k st' path hp ht => ?_, fun k hm => ?_⟩
  · rw [hopened]
    by_cases hk : k = call
    · rw [hk, hself] at hp
      cases hp
      exact ⟨hk ▸ hlt, hkeyed⟩
    · rw [hother k hk] at hp
      exact h.calls_lt k st' hp
  · rw [hother k (fun he => hr (he ▸ hm)), hopened]
    exact h.raised k hm
  · rw [hother k (fun he => hc (he ▸ hm)), hopened]
    exact h.created k hm
  · by_cases hk : t.call = call
    · exact .inr (.inr ⟨st, hk ▸ hself, howner t ht hk⟩)
    · rw [hother _ hk]
      exact h.owner t ((hothers t hk).mp ht)
  · by_cases hk : k = call
    · rw [hk, hself] at hp
      cases hp
      exact hk ▸ hheld path ht
    · rw [hother k hk] at hp
      exact (hothers _ hk).mpr (h.held k st' path hp ht)
  · obtain ⟨hm', t, ht, he⟩ := h.lost k hm
    exact ⟨hm', t, (hothers t (fun hk => hr (hk ▸ he ▸ hm'))).mpr ht, he⟩

theorem Tracked.owned (h : Tracked H tr g) {call : Nat} {st : Pending}
    (hp : g.pending? call = some st) {t : Worktree} (ht : t ∈ g.worktrees) (hc : t.call = call) :
    st.tree = some t.path := by
  obtain ⟨-, hcreates, hgarbles⟩ := h.running hp
  rcases h.owner t ht with hm | hm | ⟨st', hp', htree⟩
  · exact absurd (hc ▸ hm) hcreates
  · exact absurd (hc ▸ hm) hgarbles
  · rw [hc, hp] at hp'
    cases hp'
    exact htree

-- a call that ends leaves only the worktree it created or lost
theorem Tracked.finish (h : Tracked H tr g) {call : Nat} {st : Pending}
    (hp : g.pending? call = some st) (hpaths : (g'.worktrees.map Worktree.path).Nodup)
    (hpending : ∀ k, g'.pending? k = if call = k then none else g.pending? k)
    (hopened : g'.opened = g.opened)
    (hothers : ∀ t : Worktree, t.call ≠ call → (t ∈ g'.worktrees ↔ t ∈ g.worktrees))
    (hown : ∀ t ∈ g'.worktrees, t.call = call → call ∈ o.creates ∨ call ∈ garbled (i, o))
    (hr : ∀ n ∈ o.raises, n = call) (hc : ∀ n ∈ o.creates, n = call ∧ o.raises = [])
    (hg : ∀ n ∈ garbled (i, o), n = call ∧ call ∈ o.raises ∧ ∃ t ∈ g'.worktrees, t.call = call) :
    Tracked H (tr ++ [(i, o)]) g' := by
  obtain ⟨hraises, hcreates, hgarbles⟩ := h.running hp
  have hlt := (h.calls_lt call st hp).1
  have hself : g'.pending? call = none := by rw [hpending, if_pos rfl]
  have hother : ∀ k, k ≠ call → g'.pending? k = g.pending? k := fun k hk => by
    rw [hpending, if_neg (Ne.symm hk)]
  refine ⟨fun k st' hk => ?_, fun k hm => ?_, fun k hm => ?_, hpaths, fun t ht => ?_,
    fun k st' path hk ht => ?_, fun k hm => ?_⟩
  · by_cases he : k = call
    · rw [he, hself] at hk
      cases hk
    · rw [hother k he] at hk
      rw [hopened]
      exact h.calls_lt k st' hk
  · simp only [raises_snoc, creates_snoc, List.mem_append, not_or] at hm ⊢
    rcases hm with hm | hm
    · have he : k ≠ call := fun he => hraises (he ▸ hm)
      rw [hopened, hother k he]
      obtain ⟨h1, h2, h3⟩ := h.raised k hm
      exact ⟨h1, h2, h3, fun hn => he (hc k hn).1⟩
    · obtain rfl := hr k hm
      refine ⟨hopened ▸ hlt, hself, hcreates, fun hn => ?_⟩
      rw [(hc k hn).2] at hm
      cases hm
  · simp only [creates_snoc, List.mem_append] at hm
    rcases hm with hm | hm
    · have he : k ≠ call := fun he => hcreates (he ▸ hm)
      rw [hopened, hother k he]
      exact h.created k hm
    · obtain rfl := (hc k hm).1
      exact ⟨hopened ▸ hlt, hself⟩
  · simp only [creates_snoc, garbles_snoc, List.mem_append]
    by_cases he : t.call = call
    · rw [he]
      exact (hown t ht he).elim (fun hm => .inl (.inr hm)) (fun hm => .inr (.inl (.inr hm)))
    · rw [hother _ he]
      exact (h.owner t ((hothers t he).mp ht)).imp .inl (Or.imp_left .inl)
  · by_cases he : k = call
    · rw [he, hself] at hk
      cases hk
    · rw [hother k he] at hk
      exact (hothers _ he).mpr (h.held k st' path hk ht)
  · simp only [raises_snoc, garbles_snoc, List.mem_append] at hm ⊢
    rcases hm with hm | hm
    · have he : k ≠ call := fun he => hgarbles (he ▸ hm)
      obtain ⟨h1, t, h2, h3⟩ := h.lost k hm
      exact ⟨.inl h1, t, (hothers t (h3 ▸ he)).mpr h2, h3⟩
    · obtain ⟨rfl, h1, h2⟩ := hg k hm
      exact ⟨.inr h1, h2⟩

theorem Tracked.refuse (h : Tracked H tr g) {e : Failure}
    (hg : garbled (i, .raised g.opened e) = []) :
    Tracked H (tr ++ [(i, .raised g.opened e)]) g.opening := by
  obtain ⟨hnone, hraises, hcreates⟩ := h.unopened
  obtain ⟨h1, h2, h3, h4, h5, h6, h7⟩ := h.open
  refine ⟨h1, fun k hm => ?_, ?_, h4, ?_, h6, fun k hm => ?_⟩
  · simp only [raises_snoc, creates_snoc, List.mem_append, Answer.raises, Answer.creates,
      List.mem_singleton, List.append_nil] at hm ⊢
    rcases hm with hm | rfl
    · exact h2 k hm
    · exact ⟨Nat.lt_succ_self _, hnone, hcreates⟩
  · simpa [Answer.creates] using h3
  · simpa [Answer.creates, hg] using h5
  · simp only [garbles_snoc, hg, List.append_nil] at hm
    obtain ⟨hm, ht⟩ := h7 k hm
    exact ⟨by simp [hm], ht⟩

theorem Tracked.add (h : Tracked H tr g) {call : Nat} {p : Plan}
    (hp : g.pending? call = some (.authorized p))
    (hfresh : p.worktree ∉ g.worktrees.map Worktree.path) :
    ((g.addTree ⟨p.worktree, call⟩).worktrees.map Worktree.path).Nodup ∧
      (∀ t ∈ (g.addTree ⟨p.worktree, call⟩).worktrees, t.call = call → t.path = p.worktree) ∧
      ∀ t : Worktree, t.call ≠ call →
        (t ∈ (g.addTree ⟨p.worktree, call⟩).worktrees ↔ t ∈ g.worktrees) := by
  refine ⟨?_, fun t ht hc => ?_, fun t hc => ?_⟩
  · rw [Governance.addTree, List.map_append, List.nodup_append]
    exact ⟨h.paths, by simp, fun a ha b hb hab => hfresh (by simp_all)⟩
  · rcases List.mem_append.mp ht with ht | ht
    · cases h.owned hp ht hc
    · rw [List.mem_singleton.mp ht]
  · refine ⟨fun ht => ?_, fun ht => List.mem_append_left _ ht⟩
    rcases List.mem_append.mp ht with ht | ht
    · exact ht
    · exact absurd (by rw [List.mem_singleton.mp ht]) hc

theorem tracked_step (h : Tracked H tr g) (hs : Passage H g g' i o) :
    Tracked H (tr ++ [(i, o)]) g' := by
  cases hs with
  | still hk hr hc hg => exact (h.quiet hr hc hg).kept hk
  | @opened st hk htree hkeyed hg =>
    obtain ⟨-, hraises, hcreates⟩ := h.unopened
    refine Tracked.kept (Tracked.quiet ?_ rfl rfl hg) hk
    refine h.open.move (Nat.lt_succ_self _) hkeyed hraises hcreates h.paths
      (pending_put g.opening g.opened · st) rfl (fun t _ => .rfl) (fun path hp => ?_)
      (fun t ht hc => ?_)
    · rw [htree] at hp
      cases hp
    · rcases h.owner t ht with hm | hm | ⟨st', hp, -⟩
      · exact absurd (hc ▸ hm) hcreates
      · exact absurd (hc ▸ (h.lost _ hm).1) hraises
      · exact absurd (h.calls_lt _ _ hp).1 (by rw [hc]; exact Nat.lt_irrefl _)
  | refused hk hg => exact (h.refuse hg).kept hk
  | @moved call st st' hp hk htree hplan hg =>
    obtain ⟨hraises, hcreates, -⟩ := h.running hp
    obtain ⟨hlt, hkeyed⟩ := h.calls_lt call st hp
    refine Tracked.kept (Tracked.quiet ?_ rfl rfl hg) hk
    refine h.move hlt (fun p hm => hkeyed p (hplan ▸ hm)) hraises hcreates h.paths
      (pending_put g call · st') rfl (fun t _ => .rfl) (fun path hm => ?_) (fun t ht hc => ?_)
    · exact h.held call st path hp (htree ▸ hm)
    · exact htree ▸ h.owned hp ht hc
  | @added call p hp hfresh hk hg =>
    obtain ⟨hraises, hcreates, -⟩ := h.running hp
    obtain ⟨hlt, hauthorized⟩ := h.calls_lt call _ hp
    have hkeyed : (Pending.added p).Keyed H := hauthorized
    obtain ⟨hpaths, hpath, hothers⟩ := h.add hp hfresh
    refine Tracked.kept (Tracked.quiet ?_ rfl rfl hg) hk
    refine h.move hlt hkeyed hraises hcreates hpaths (pending_put (g.addTree _) call · (.added p))
      rfl hothers (fun path hm => ?_) (fun t ht hc => ?_)
    · cases hm
      exact List.mem_append_right _ (List.mem_singleton_self _)
    · rw [hpath t ht hc]
      rfl
  | @lost call p e hp hfresh hk hg =>
    obtain ⟨hpaths, -, hothers⟩ := h.add hp hfresh
    refine Tracked.kept ?_ hk
    refine h.finish hp hpaths (pending_drop (g.addTree _) call ·) rfl hothers
      (fun t _ _ => .inr (by simp [hg])) (by simp [Answer.raises]) (by simp [Answer.creates])
      (fun k hm => ?_)
    rw [hg, List.mem_singleton] at hm
    exact ⟨hm, by simp [Answer.raises], _,
      List.mem_append_right _ (List.mem_singleton_self _), rfl⟩
  | @ended _ call st hp hk htree hr hc hg =>
    refine Tracked.kept ?_ hk
    refine h.finish hp h.paths (pending_drop g call ·) rfl (fun t _ => .rfl) (fun t ht he => ?_) hr
      (by simp [hc]) (by simp [hg])
    have hn := h.owned hp ht he
    rw [htree] at hn
    cases hn
  | @created call st b hp hk hg =>
    refine Tracked.kept ?_ hk
    exact h.finish hp h.paths (pending_drop g call ·) rfl (fun t _ => .rfl)
      (fun t _ _ => .inl (by simp [Answer.creates])) (by simp [Answer.raises])
      (by simp [Answer.creates, Answer.raises]) (by simp [hg])
  | @rolled call st path e hp htree hk hg =>
    refine Tracked.kept ?_ hk
    refine h.finish hp (h.paths.sublist (List.filter_sublist.map _))
      (pending_drop (g.removeTree path) call ·) rfl (fun t hc => ?_) (fun t ht hc => ?_)
      (by simp [Answer.raises]) (by simp [Answer.creates]) (by simp [hg])
    · refine ⟨fun ht => List.mem_of_mem_filter ht, fun ht => List.mem_filter.mpr ⟨ht, ?_⟩⟩
      refine decide_eq_true fun he => hc ?_
      rw [eq_of_key_eq h.paths ht (h.held call st path hp htree) he]
    · obtain ⟨hm, hne⟩ := List.mem_filter.mp ht
      have howned := h.owned hp hm hc
      rw [htree] at howned
      cases howned
      exact absurd rfl (of_decide_eq_true hne)

theorem tracked {g₀ : Governance} (h₀ : (governance H).start g₀)
    (hr : (governance H).Run g₀ tr g) : Tracked H tr g :=
  hr.preserves_trace (Tracked H) (fun _ _ _ h ha => tracked_step h (perform_passage ha))
    (tracked_start h₀)

end Tracking

structure Vouchers (P : Platform) (tr : Trace) (g : Governance) : Prop where
  keys : (g.permissions.map PermissionRow.key).Nodup
  rows : ∀ r ∈ g.permissions, r.Sealed P ∧ r.decidedBy = humanOperatorId
  consumed : ∀ r ∈ g.permissions, r.consumedUtc ≠ none ↔ r.key ∈ spends tr
  known : ∀ k ∈ spends tr, ∃ r ∈ g.permissions, r.key = k
  once : (spends tr).Nodup

section Permissions
variable {P : Platform} {tr : Trace} {g g' : Governance} {i : Action} {o : Answer}
  {r : PermissionRow} {k : Key} {x : Expected} {now : ℚ}

theorem Vouchers.same (h : Vouchers P tr g) (hp : g'.permissions = g.permissions)
    (ho : o.spends = []) : Vouchers P (tr ++ [(i, o)]) g' := by
  have hspends : spends (tr ++ [(i, o)]) = spends tr := by rw [spends_snoc, ho, List.append_nil]
  refine ⟨?_, ?_, ?_, ?_, ?_⟩ <;> simp only [hspends, hp]
  exacts [h.keys, h.rows, h.consumed, h.known, h.once]

theorem Vouchers.decide (h : Vouchers P tr g) (hd : Decided P g g' r) (ho : o.spends = []) :
    Vouchers P (tr ++ [(i, o)]) g' := by
  obtain ⟨hp, -, habsent, hsealed, hhuman, hfree⟩ := hd
  have hne := lookup_eq_none.mp habsent
  refine ⟨hp ▸ nodup_upsert r h.keys, fun q hq => ?_, fun q hq => ?_, fun k hk => ?_, ?_⟩
  · rw [hp, mem_upsert_iff h.keys] at hq
    rcases hq with rfl | ⟨hq, -⟩
    · exact ⟨hsealed, hhuman⟩
    · exact h.rows q hq
  · rw [spends_snoc, ho, List.append_nil]
    rw [hp, mem_upsert_iff h.keys] at hq
    rcases hq with rfl | ⟨hq, -⟩
    · refine iff_of_false (fun hn => hn hfree) fun hm => ?_
      obtain ⟨q', hq', hk⟩ := h.known _ hm
      exact hne q' hq' hk
    · exact h.consumed q hq
  · rw [spends_snoc, ho, List.append_nil] at hk
    obtain ⟨q, hq, he⟩ := h.known k hk
    exact ⟨q, hp ▸ mem_upsert_of_ne h.keys hq (hne q hq), he⟩
  · rw [spends_snoc, ho, List.append_nil]
    exact h.once

theorem Spent.mem (hs : Spent P g g' k x now r) : r ∈ g.permissions ∧ r.key = k :=
  ⟨lookup_mem hs.valid.found, lookup_key hs.valid.found⟩

theorem Vouchers.spend (h : Vouchers P tr g) (hs : Spent P g g' k x now r)
    (ho : o.spends = [k]) : Vouchers P (tr ++ [(i, o)]) g' := by
  obtain ⟨hm, hk⟩ := hs.mem
  obtain ⟨utc, hp⟩ := hs.permissions_eq
  have hkey : (r.spend utc).key = k := hk
  have hfresh : k ∉ spends tr := by
    rw [← hk, ← h.consumed r hm]
    exact fun hn => hn hs.valid.unconsumed
  refine ⟨hp ▸ nodup_upsert _ h.keys, fun q hq => ?_, fun q hq => ?_, fun l hl => ?_, ?_⟩
  · rw [hp, mem_upsert_iff h.keys] at hq
    rcases hq with rfl | ⟨hq, -⟩
    · exact h.rows r hm
    · exact h.rows q hq
  · rw [spends_snoc, ho]
    rw [hp, mem_upsert_iff h.keys] at hq
    rcases hq with rfl | ⟨hq, hne⟩
    · exact iff_of_true (by simp [PermissionRow.spend]) (by simp [hkey])
    · rw [List.mem_append, List.mem_singleton, h.consumed q hq]
      exact ⟨.inl, fun hm => hm.resolve_right (fun he => hne (he.trans hkey.symm))⟩
  · simp only [spends_snoc, ho, List.mem_append, List.mem_singleton] at hl
    rcases hl with hl | rfl
    · obtain ⟨q, hq, he⟩ := h.known l hl
      have hne : q.key ≠ (r.spend utc).key := fun hn => hfresh (hkey ▸ hn ▸ he ▸ hl)
      exact ⟨q, hp ▸ mem_upsert_of_ne h.keys hq hne, he⟩
    · exact ⟨r.spend utc, hp ▸ mem_upsert_self, hkey⟩
  · rw [spends_snoc, ho, List.nodup_append]
    refine ⟨h.once, by simp, fun a ha b hb hab => hfresh ?_⟩
    rw [List.mem_singleton] at hb
    exact hb ▸ hab ▸ ha

theorem vouchers_step {H : Host} (h : Vouchers H.platform tr g) (hc : Change H g g' i o) :
    Vouchers H.platform (tr ++ [(i, o)]) g' := by
  cases hc with
  | quiet hp _ ho _ => exact h.same hp ho
  | decided hd => exact h.decide hd rfl
  | @spent c a f r k x hs hb => exact h.spend hs (by simp [Answer.spends, hs.mem.2])
  | bound _ hb =>
    obtain ⟨baseDiff, utc, rfl⟩ := hb.row_eq
    exact h.spend hb.toSpent rfl
  | closed hc => exact h.same hc.permissions_eq rfl

end Permissions

def BindingRow.expected (H : Host) (b : BindingRow) : Expected :=
  { taskId := b.taskId, agentId := b.agentId, action := worktreeAction,
    resourceKey := resourceKeyOf H b.repositoryRoot }

-- a human allowed exactly what the binding does
structure PermissionRow.Backs (H : Host) (r : PermissionRow) (b : BindingRow) : Prop where
  key_eq : r.key = b.permission
  allowed : r.decision = .allow
  human : r.decidedBy = humanOperatorId
  expected_eq : r.expected = b.expected H

structure Bindings (H : Host) (tr : Trace) (g : Governance) : Prop where
  keys : (g.bindings.map BindingRow.key).Nodup
  rows : ∀ b ∈ g.bindings, b.Sealed H.platform ∧ b.permission ∈ spends tr ∧
    ∃ r ∈ g.permissions, r.Backs H b
  one : ∀ b ∈ g.bindings, ∀ b' ∈ g.bindings, b.permission = b'.permission → b = b'
  closed : ∀ b ∈ g.bindings, b.state ≠ .active ↔ b.key ∈ seals tr
  known : ∀ k ∈ seals tr, ∃ b ∈ g.bindings, b.key = k
  once : (seals tr).Nodup

-- a decision stays as it is until it is consumed, and after that
def PermissionsKept (g g' : Governance) (o : Answer) : Prop :=
  ∀ r ∈ g.permissions, r ∈ g'.permissions ∨
    (r.consumedUtc = none ∧ r.key ∈ o.spends ∧ ∃ utc, r.spend utc ∈ g'.permissions)

def BindingsKept (P : Platform) (g g' : Governance) (o : Answer) : Prop :=
  ∀ b ∈ g.bindings, b ∈ g'.bindings ∨
    (b.state = .active ∧ b.key ∈ o.seals ∧ ∃ t utc, b.close P t utc ∈ g'.bindings)

section Lifecycle
variable {H : Host} {tr : Trace} {g g' : Governance} {i : Action} {o : Answer}

theorem Spent.kept {P : Platform} {k : Key} {x : Expected} {now : ℚ} {r : PermissionRow}
    (hv : Vouchers P tr g) (hs : Spent P g g' k x now r) (ho : o.spends = [k]) :
    PermissionsKept g g' o := by
  intro q hq
  obtain ⟨hm, hk⟩ := hs.mem
  obtain ⟨utc, hp⟩ := hs.permissions_eq
  rcases kept_upsert hv.keys hq with hq' | ⟨he, hq'⟩
  · exact .inl (hp ▸ hq')
  · obtain rfl : q = r := eq_of_key_eq hv.keys hq hm he
    exact .inr ⟨hs.valid.unconsumed, by simp [ho, hk], utc, hp ▸ hq'⟩

theorem Change.permissions_kept (hv : Vouchers H.platform tr g) (hc : Change H g g' i o) :
    PermissionsKept g g' o := by
  cases hc with
  | quiet hp _ _ _ => exact fun r hr => .inl (hp ▸ hr)
  | decided hd =>
    intro r hr
    refine .inl (hd.permissions_eq ▸ mem_upsert_of_ne hv.keys hr ?_)
    exact lookup_eq_none.mp hd.absent r hr
  | spent hs hb => exact hs.kept hv (by simp [Answer.spends, hs.mem.2])
  | bound _ hb =>
    obtain ⟨baseDiff, utc, rfl⟩ := hb.row_eq
    exact hb.toSpent.kept hv rfl
  | closed hc => exact fun r hr => .inl (hc.permissions_eq ▸ hr)

theorem PermissionRow.Backs.kept {r : PermissionRow} {b : BindingRow} (h : r.Backs H b)
    (hr : r ∈ g.permissions) (hk : PermissionsKept g g' o) : ∃ r ∈ g'.permissions, r.Backs H b := by
  rcases hk r hr with hr' | ⟨-, -, utc, hr'⟩
  · exact ⟨r, hr', h⟩
  · exact ⟨_, hr', h.1, h.2, h.3, h.4⟩

theorem Bound.backs {p : Plan} {now : ℚ} {r : PermissionRow} {b : BindingRow}
    (hv : Vouchers H.platform tr g) (hkey : p.resourceKey = resourceKeyOf H p.repository)
    (hb : Bound H g g' p now r b) : r.Backs H b := by
  obtain ⟨hm, hk⟩ := hb.toSpent.mem
  obtain ⟨baseDiff, utc, rfl⟩ := hb.row_eq
  refine ⟨hk, hb.valid.allowed, (hv.rows r hm).2, hb.valid.expected_eq.trans ?_⟩
  rw [Plan.expected, hkey]
  rfl

theorem Bindings.same (h : Bindings H tr g) (hb : g'.bindings = g.bindings)
    (hk : PermissionsKept g g' o) (ho : o.seals = []) : Bindings H (tr ++ [(i, o)]) g' := by
  have hseals : seals (tr ++ [(i, o)]) = seals tr := by rw [seals_snoc, ho, List.append_nil]
  refine ⟨?_, ?_, ?_, ?_, ?_, ?_⟩ <;> simp only [hseals, hb]
  · exact h.keys
  · intro b hm
    obtain ⟨hs, hp, r, hr, hbacks⟩ := h.rows b hm
    exact ⟨hs, by simp [hp], hbacks.kept hr hk⟩
  · exact h.one
  · exact h.closed
  · exact h.known
  · exact h.once

theorem Bindings.bind {p : Plan} {now : ℚ} {r : PermissionRow} {b : BindingRow} {call : Nat}
    (h : Bindings H tr g) (hv : Vouchers H.platform tr g)
    (hkey : p.resourceKey = resourceKeyOf H p.repository) (hb : Bound H g g' p now r b)
    (hk : PermissionsKept g g' (.created call b)) :
    Bindings H (tr ++ [(i, .created call b)]) g' := by
  have hseals : seals (tr ++ [(i, .created call b)]) = seals tr := by simp [Answer.seals]
  have hbacks := (hb.backs hv hkey).kept (hb.toSpent.mem).1 hk
  have habsent := lookup_eq_none.mp hb.absent
  obtain ⟨baseDiff, utc, hrow⟩ := hb.row_eq
  have hpermission : b.permission = r.key := by rw [hb.toSpent.mem.2, hrow]; rfl
  have hfresh : b.permission ∉ spends tr := by
    rw [hpermission, ← hv.consumed r hb.toSpent.mem.1]
    exact fun hn => hn hb.valid.unconsumed
  have hactive : b.state = .active := by rw [hrow]; rfl
  have hmem : ∀ q, q ∈ g'.bindings ↔ q = b ∨ (q ∈ g.bindings ∧ q.key ≠ b.key) := fun q => by
    rw [hb.bindings_eq, mem_upsert_iff h.keys]
  refine ⟨hb.bindings_eq ▸ nodup_upsert b h.keys, fun q hq => ?_, fun q hq q' hq' he => ?_,
    fun q hq => ?_, fun k hm => ?_, hseals ▸ h.once⟩
  · rw [spends_snoc, List.mem_append]
    rcases (hmem q).mp hq with rfl | ⟨hq, -⟩
    · exact ⟨by rw [hrow]; rfl, .inr (by simp [Answer.spends]), hbacks⟩
    · obtain ⟨hs, hp, s, hsm, hsb⟩ := h.rows q hq
      exact ⟨hs, .inl hp, hsb.kept hsm hk⟩
  · rcases (hmem q).mp hq with rfl | ⟨hq, -⟩ <;> rcases (hmem q').mp hq' with rfl | ⟨hq', -⟩
    · rfl
    · exact absurd (he ▸ (h.rows q' hq').2.1) hfresh
    · exact absurd (he ▸ (h.rows q hq).2.1) hfresh
    · exact h.one q hq q' hq' he
  · rw [hseals]
    rcases (hmem q).mp hq with rfl | ⟨hq, -⟩
    · refine iff_of_false (fun hn => hn hactive) fun hm => ?_
      obtain ⟨q', hq', he⟩ := h.known _ hm
      exact habsent q' hq' he
    · exact h.closed q hq
  · rw [hseals] at hm
    obtain ⟨q, hq, he⟩ := h.known k hm
    exact ⟨q, (hmem q).mpr (.inr ⟨hq, habsent q hq⟩), he⟩

theorem Bindings.close {t : Sealing} {b : BindingRow} {now : Utc} {call : Nat}
    (h : Bindings H tr g) (hc : Closed H.platform g g' t b now) :
    Bindings H (tr ++ [(i, .sealed call (b.close H.platform t now))]) g' := by
  have hm : b ∈ g.bindings := lookup_mem hc.found
  have hspends : spends (tr ++ [(i, .sealed call (b.close H.platform t now))]) = spends tr := by
    simp [Answer.spends]
  have hseals : seals (tr ++ [(i, .sealed call (b.close H.platform t now))]) =
      seals tr ++ [b.key] := by simp [Answer.seals]; rfl
  have hfresh : b.key ∉ seals tr := by
    rw [← h.closed b hm]
    exact fun hn => hn hc.active
  have hmem : ∀ q, q ∈ g'.bindings ↔ q = b.close H.platform t now ∨
      (q ∈ g.bindings ∧ q.key ≠ b.key) := fun q => by
    rw [hc.bindings_eq, mem_upsert_iff h.keys]
    rfl
  have hother : ∀ q ∈ g.bindings, b.permission = q.permission → q = b := fun q hq he =>
    (h.one b hm q hq he).symm
  refine ⟨hc.bindings_eq ▸ nodup_upsert _ h.keys, fun q hq => ?_, fun q hq q' hq' he => ?_,
    fun q hq => ?_, fun k hk => ?_, ?_⟩
  · rw [hspends, hc.permissions_eq]
    rcases (hmem q).mp hq with rfl | ⟨hq, -⟩
    · obtain ⟨-, hp, r, hr, hbacks⟩ := h.rows b hm
      exact ⟨rfl, hp, r, hr, hbacks.1, hbacks.2, hbacks.3, hbacks.4⟩
    · exact h.rows q hq
  · rcases (hmem q).mp hq with rfl | ⟨hq, hne⟩ <;> rcases (hmem q').mp hq' with rfl | ⟨hq', hne'⟩
    · rfl
    · exact absurd (congrArg BindingRow.key (hother q' hq' he)) hne'
    · exact absurd (congrArg BindingRow.key (hother q hq he.symm)) hne
    · exact h.one q hq q' hq' he
  · rw [hseals, List.mem_append, List.mem_singleton]
    rcases (hmem q).mp hq with rfl | ⟨hq, hne⟩
    · exact iff_of_true (by simp [BindingRow.close, sealBinding]) (.inr rfl)
    · rw [h.closed q hq]
      exact ⟨.inl, fun hs => hs.resolve_right hne⟩
  · simp only [hseals, List.mem_append, List.mem_singleton] at hk
    rcases hk with hk | rfl
    · obtain ⟨q, hq, he⟩ := h.known k hk
      exact ⟨q, (hmem q).mpr (.inr ⟨hq, fun hn => hfresh (hn ▸ he ▸ hk)⟩), he⟩
    · exact ⟨_, (hmem _).mpr (.inl rfl), rfl⟩
  · rw [hseals, List.nodup_append]
    refine ⟨h.once, by simp, fun a ha c hc' he => hfresh ?_⟩
    rw [List.mem_singleton] at hc'
    exact hc' ▸ he ▸ ha

theorem bindings_step (h : Bindings H tr g) (hv : Vouchers H.platform tr g)
    (ht : Tracked H tr g) (hc : Change H g g' i o) : Bindings H (tr ++ [(i, o)]) g' := by
  have hk := hc.permissions_kept hv
  cases hc with
  | quiet _ hb _ ho => exact h.same hb hk ho
  | decided hd => exact h.same hd.bindings_eq hk rfl
  | spent hs hb => exact h.same hb hk rfl
  | bound hp hb => exact h.bind hv ((ht.calls_lt _ _ hp).2 _ rfl) hb hk
  | closed hc => exact h.close hc

theorem Change.bindings_kept (h : Bindings H tr g) (hc : Change H g g' i o) :
    BindingsKept H.platform g g' o := by
  intro b hm
  cases hc with
  | quiet _ hb _ _ => exact .inl (hb ▸ hm)
  | decided hd => exact .inl (hd.bindings_eq ▸ hm)
  | spent hs hb => exact .inl (hb ▸ hm)
  | bound _ hb =>
    refine .inl (hb.bindings_eq ▸ mem_upsert_of_ne h.keys hm ?_)
    exact lookup_eq_none.mp hb.absent b hm
  | @closed call t c f q now hc =>
    rcases kept_upsert h.keys hm with hm' | ⟨he, hm'⟩
    · exact .inl (hc.bindings_eq ▸ hm')
    · obtain rfl : b = q := eq_of_key_eq h.keys hm (lookup_mem hc.found) he
      exact .inr ⟨hc.active, List.mem_singleton_self _, t, now, hc.bindings_eq ▸ hm'⟩

end Lifecycle

-- the time a step checks an expiry against
def Action.time : Action → Option ℚ
  | .authorize c a _ => some (a.nowEpoch.getD c.clock.entry)
  | .bind _ c _ => some c.clock.locked
  | _ => none

structure Guarded (H : Host) (g g' : Governance) (i : Action) (o : Answer) : Prop where
  permissions : PermissionsKept g g' o
  bindings : BindingsKept H.platform g g' o
  spent : ∀ k ∈ o.spends, ∃ r, g.permission? k = some r ∧ r.consumedUtc = none ∧
    r.decision = .allow ∧ r.decidedBy = humanOperatorId ∧ ∃ now ∈ i.time, now < r.expiresEpoch
  created : ∀ b ∈ g'.bindings, g.binding? b.key = none → ∃ call r, o = .created call b ∧
    b.state = .active ∧ g.permission? b.permission = some r ∧ r.Backs H b
  quiet : o = .proceeds ∨ o.raises ≠ [] →
    g'.permissions = g.permissions ∧ g'.bindings = g.bindings

section Guarding
variable {H : Host} {tr : Trace} {g g' : Governance} {i : Action} {o : Answer}

theorem Bindings.known_key (h : Bindings H tr g) {b : BindingRow} (hm : b ∈ g.bindings) :
    g.binding? b.key = some b := lookup_of_mem h.keys hm

theorem Change.guarded (hv : Vouchers H.platform tr g) (hb : Bindings H tr g)
    (ht : Tracked H tr g) (hc : Change H g g' i o) : Guarded H g g' i o := by
  have hkept := hc.permissions_kept hv
  have hbindings := hc.bindings_kept hb
  have hold : ∀ b ∈ g.bindings, g.binding? b.key = none → False := fun b hm hn => by
    rw [hb.known_key hm] at hn
    cases hn
  cases hc with
  | quiet hp hq ho _ =>
    exact ⟨hkept, hbindings, by simp [ho], fun b hm hn => (hold b (hq ▸ hm) hn).elim,
      fun _ => ⟨hp, hq⟩⟩
  | decided hd =>
    exact ⟨hkept, hbindings, by simp [Answer.spends],
      fun b hm hn => (hold b (hd.bindings_eq ▸ hm) hn).elim, by simp [Answer.raises]⟩
  | @spent c a f r k x hs hq =>
    refine ⟨hkept, hbindings, fun l hl => ?_, fun b hm hn => (hold b (hq ▸ hm) hn).elim,
      by simp [Answer.raises]⟩
    obtain rfl := List.mem_singleton.mp hl
    exact ⟨r, hs.mem.2 ▸ hs.valid.found, hs.valid.unconsumed, hs.valid.allowed,
      (hv.rows r hs.mem.1).2, _, rfl, hs.valid.live⟩
  | @bound call p baseDiff c f r b hp hr =>
    have hbacks := hr.backs hv ((ht.calls_lt _ _ hp).2 _ rfl)
    have hfound : g.permission? b.permission = some r := by
      rw [← hbacks.key_eq, hr.toSpent.mem.2]
      exact hr.valid.found
    refine ⟨hkept, hbindings, fun l hl => ?_, fun b' hm hn => ?_, by simp [Answer.raises]⟩
    · obtain rfl := List.mem_singleton.mp hl
      exact ⟨r, hfound, hr.valid.unconsumed, hr.valid.allowed, hbacks.human, _, rfl,
        hr.valid.live⟩
    · rw [hr.bindings_eq, mem_upsert_iff hb.keys] at hm
      rcases hm with rfl | ⟨hm, -⟩
      · obtain ⟨_, _, hrow⟩ := hr.row_eq
        exact ⟨call, r, rfl, by rw [hrow]; rfl, hfound, hbacks⟩
      · exact (hold b' hm hn).elim
  | @closed call t c f b now hc =>
    refine ⟨hkept, hbindings, by simp [Answer.spends], fun b' hm hn => ?_, by simp [Answer.raises]⟩
    rw [hc.bindings_eq, mem_upsert_iff hb.keys] at hm
    rcases hm with rfl | ⟨hm, -⟩
    · have hnone : g.binding? b.key = none := hn
      rw [hc.found] at hnone
      cases hnone
    · exact (hold b' hm hn).elim

structure Governed (H : Host) (tr : Trace) (g : Governance) : Prop where
  tracked : Tracked H tr g
  vouchers : Vouchers H.platform tr g
  bindings : Bindings H tr g

theorem governed {g₀ : Governance} (h₀ : (governance H).start g₀)
    (hr : (governance H).Run g₀ tr g) : Governed H tr g := by
  refine hr.preserves_trace (Governed H) (fun _ s i h ha => ?_) ⟨tracked_start h₀, ?_, ?_⟩
  · have hc := perform_change H s i
    exact ⟨tracked_step h.tracked (perform_passage ha), vouchers_step h.vouchers hc,
      bindings_step h.bindings h.vouchers h.tracked hc⟩
  · constructor <;> simp [h₀.1, spends]
  · constructor <;> simp [h₀.2.1, seals]

theorem Tracked.clean_iff (h : Tracked H tr g) :
    (∀ call ∈ raises tr, ∀ t ∈ g.worktrees, t.call ≠ call) ↔ garbles tr = [] := by
  constructor
  · intro hclean
    refine List.eq_nil_iff_forall_not_mem.mpr fun call hm => ?_
    obtain ⟨hr, t, ht, he⟩ := h.lost call hm
    exact hclean call hr t ht he
  · rintro hnone call hr t ht rfl
    rcases h.owner t ht with hm | hm | ⟨st, hp, -⟩
    · exact (h.raised _ hr).2.2 hm
    · rw [hnone] at hm
      cases hm
    · rw [(h.raised _ hr).2.1] at hp
      cases hp

end Guarding

theorem permissions_single_use (H : Host) {g₀ g : Governance} {tr : Trace}
    (h₀ : (governance H).start g₀) (hr : (governance H).Run g₀ tr g) :
    Vouchers H.platform tr g ∧ Bindings H tr g ∧
      (∀ i, Guarded H g (perform H g i).1 i (perform H g i).2) ∧
      (∀ call ∈ raises tr, call ∉ creates tr) ∧
      ((∀ call ∈ raises tr, ∀ t ∈ g.worktrees, t.call ≠ call) ↔ garbles tr = []) := by
  obtain ⟨ht, hv, hb⟩ := governed h₀ hr
  exact ⟨hv, hb, fun i => (perform_change H g i).guarded hv hb ht,
    fun call hm => (ht.raised call hm).2.2, ht.clean_iff⟩

def sampleHost : Host :=
  { platform := samplePlatform, redactSecrets := id, decodeReplace := fun _ => "",
    normcase := id, isAbsolute := fun t => t.toList.head? = some '/',
    join := fun root leaf => root ++ "/" ++ leaf }

def sampleCommit : String := String.ofList (List.replicate 40 'a')

def printed (text : String) : GitResult := .exited 0 text.toUTF8.toList []

def sampleOutside : Outside :=
  { resolve := .ok, resolve_idem := fun _ _ h => by cases h; rfl, isDirectory := fun _ => true,
    occupied := fun _ => false,
    git := fun path arguments =>
      if arguments = ["rev-parse", "--show-toplevel"] then printed path
      else if arguments = ["rev-parse", "--git-common-dir"] then printed "/repo/.git"
      else printed sampleCommit,
    worktreeRoot := fun repository _ => .ok (repository ++ "/.peerbridge/wt"),
    gitDiffSha256 := fun _ => .ok (sampleSha 5), rejectReparseAncestry := fun _ => .ok () }

def unharmed : Faults := fun _ => none

def sampleGovernance : Governance :=
  { store := .initial [], permissions := [], bindings := [], worktrees := [], calls := [],
    opened := 0 }

def workerAt (second : Nat) : Ctx := sampleCtx (sampleAgent "worker") second

def sampleDecision : Action :=
  .decide (sampleCtx sampleHuman 1)
    { taskId := "t", agentId := "worker", action := worktreeAction,
      resourceKey := resourceKeyOf sampleHost "/repo", decision := "allow", reason := "agreed",
      expiresEpoch := 100, decisionId := "p" } unharmed

def sampleOpening : Action :=
  .openCreate (workerAt 2) { taskId := "t", agentId := "worker", permissionDecisionId := "p",
                             repository := "/repo", bindingId := "b" } sampleOutside

def sealedWork : List Action :=
  [sampleDecision, sampleOpening, .checkPermission 0 (workerAt 3) unharmed,
   .addWorktree 0 (printed "HEAD is now at aaaaaaa"), .measure 0 sampleOutside,
   .bind 0 (workerAt 4) unharmed, .openSeal (workerAt 5) "b" sampleOutside,
   .commitSeal 1 (workerAt 6) unharmed]

theorem permissions_single_use_sealed :
    let r := (governance sampleHost).play sampleGovernance sealedWork
    r.1.bindings.map BindingRow.state = [.sealed] ∧ (spends r.2).length = 1 ∧
      ∀ call ∈ raises r.2, ∀ t ∈ r.1.worktrees, t.call ≠ call := by
  intro r
  have hchecked : (governance sampleHost).AdmitsAll sampleGovernance sealedWork ∧
      r.1.bindings.map BindingRow.state = [.sealed] ∧ (spends r.2).length = 1 ∧
      garbles r.2 = [] := by decide +kernel
  obtain ⟨ha, hstate, hspent, hnone⟩ := hchecked
  have hrun := Machine.run_play sampleGovernance sealedWork ha
  obtain ⟨-, -, -, -, hclean⟩ :=
    permissions_single_use sampleHost ⟨rfl, rfl, rfl, rfl, rfl⟩ hrun
  exact ⟨hstate, hspent, hclean.mpr hnone⟩

-- the subject of the commit is not UTF-8 and Git prints it on standard output
def unreadableOutput : List Action :=
  [sampleDecision, sampleOpening, .checkPermission 0 (workerAt 3) unharmed,
   .addWorktree 0 (.exited 0 ("HEAD is now at aaaaaaa caf".toUTF8.toList ++ [0xE9]) [])]

theorem unreadable_output_leaves_worktree :
    ¬ ∀ (H : Host) (g₀ g : Governance) (tr : Trace), (governance H).start g₀ →
      (governance H).Run g₀ tr g → ∀ call ∈ raises tr, ∀ t ∈ g.worktrees, t.call ≠ call := by
  intro h
  have hchecked : (governance sampleHost).AdmitsAll sampleGovernance unreadableOutput ∧
      raises ((governance sampleHost).play sampleGovernance unreadableOutput).2 = [0] ∧
      ((governance sampleHost).play sampleGovernance unreadableOutput).1.worktrees.map
        Worktree.call = [0] := by decide +kernel
  obtain ⟨ha, hraises, htrees⟩ := hchecked
  have hrun := Machine.run_play sampleGovernance unreadableOutput ha
  have hclean := h sampleHost _ _ _ ⟨rfl, rfl, rfl, rfl, rfl⟩ hrun 0 (by simp [hraises])
  have hmem : 0 ∈ ((governance sampleHost).play sampleGovernance unreadableOutput).1.worktrees.map
      Worktree.call := by simp [htrees]
  obtain ⟨t, ht, hcall⟩ := List.mem_map.mp hmem
  exact hclean t ht hcall

end PeerBridge.ExecutionGovernance
