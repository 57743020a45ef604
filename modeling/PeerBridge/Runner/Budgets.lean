import PeerBridge.Runner.Ledger
import PeerBridge.Scenario

namespace PeerBridge.Runner
open Attempt

section Opening
variable {P : Platform} {F : TextForms} {D : Decoder} {cfg : RunnerConfig} {env : Surroundings}

-- before the provider is asked anything
structure Unopened (messages : List Json) (k : Tally) : Prop where
  rounds : k.toolRounds = 0
  receipts : k.toolReceipts = []
  conversation : k.conversation = messages.map .input
  sent : k.sent = []
  chats : k.chats = []

theorem startTally_unopened (messages : List Json) : Unopened messages (startTally messages) :=
  ⟨rfl, rfl, rfl, rfl, rfl⟩

theorem Unopened.bounded {messages : List Json} {k : Tally} (h : Unopened messages k) :
    Bounded F cfg k.toolRounds k.sent k.chats := by
  rw [h.rounds, h.sent, h.chats]
  exact ⟨Nat.zero_le _, cfg.toolCalls_pos, by simp, nofun, List.nodup_nil, nofun, nofun⟩

theorem readAnswer_ok {answer : Except RunnerError Json} {result : Json}
    (h : readAnswer answer = .ok result) : answer = .ok result := by
  cases answer with
  | error e => cases h
  | ok found =>
    have h : (Checked.require (isObject found = true) _ >>= fun _ => pure found) = _ := h
    simp only [Checked.bind_eq_ok, Checked.require_eq_ok] at h
    obtain ⟨_, _, h⟩ := h
    cases h
    rfl

theorem openRun_meets (messages : List Json) :
    Meets (Unopened messages) (openRun P F cfg env)
      (fun opened k => env.registry = .ok opened.2.1.result ∧ k.toolRounds = 0 ∧
        Batch P F cfg opened.2.1.result [] k)
      (fun _ k => Bounded F cfg k.toolRounds k.sent k.chats) := by
  refine (checkCancelled_meets (fun _ hk => { hk with }) (fun _ hk => hk.bounded)).bind
    (fun _ => ?_)
  refine Meets.lifting (fun _ _ _ hk => hk.bounded) (fun schemas _ => ?_)
  refine @Meets.changing _ _ _ _ (fun k => Unopened messages k ∧ k.toolCallCount = 1) _ _ _ _
    (fun _ hk => ⟨{ hk with }, rfl⟩) ?_
  refine (mcpRequest_meets (fun _ _ hk => ⟨{ hk.1 with }, hk.2⟩)
    (fun _ _ _ hk => hk.1.bounded)).bind (fun result => ?_)
  refine Meets.given (fun hr => ?_)
  refine Meets.lifting (fun _ _ _ hk => hk.1.bounded) (fun connection _ => ?_)
  dsimp only
  generalize hregistry : registryCharge F result = registry
  refine @Meets.changing _ _ _ _ (fun k => (Unopened messages k ∧ k.toolCallCount = 1) ∧
    k.toolArgumentChars = registry.argumentChars ∧ k.toolResultChars = registry.resultChars) _ _ _ _
    (fun _ hk => ⟨⟨{ hk.1 with }, hk.2⟩, rfl, rfl⟩) ?_
  refine Meets.guard (fun _ hk _ => hk.1.1.bounded) (fun ha => ?_)
  refine Meets.guard (fun _ hk _ => hk.1.1.bounded) (fun hw => .pure ?_)
  rintro k ⟨⟨hk, hcount⟩, harguments, hresults⟩
  subst hregistry
  rw [registryCharge, ← argumentChars_nil] at ha harguments
  rw [registryCharge, ← resultChars_nil] at hw hresults
  refine ⟨readAnswer_ok hr, hk.rounds, ⟨?_, ?_⟩⟩
  · rw [hk.sent]
    refine ⟨hcount, harguments, hresults, by rw [hk.receipts]; rfl, ⟨nofun, hw⟩, ?_⟩
    rw [hk.conversation, carried_input]
    exact Nat.zero_le _
  · refine ⟨hk.bounded, ?_, ?_, nofun, nofun, List.nodup_nil, fun h => absurd rfl h⟩
    · rw [hk.sent]
      exact cfg.toolCalls_pos
    · rw [hk.sent, requestedChars, List.map_nil, List.sum_nil, Nat.add_zero]
      exact ha

theorem runUnchecked_meets (messages : List Json) (passes : Nat) :
    Meets (Unopened messages) (runUnchecked P F D cfg env messages passes)
      (fun answer k => Bounded F cfg k.toolRounds k.sent k.chats ∧
        ∀ result ∈ answer, ∃ registry connection final fallback, env.registry = .ok registry ∧
          Closed P F cfg registry k ∧ result = settle P connection messages final fallback k)
      (fun _ k => Bounded F cfg k.toolRounds k.sent k.chats) := by
  refine Meets.guard (fun _ hk _ => hk.bounded) (fun _ => ?_)
  refine (openRun_meets messages).bind (fun opened => ?_)
  obtain ⟨schemas, registry, connection⟩ := opened
  refine Meets.pre (P := fun k => Batch P F cfg registry.result [] k ∧
    env.registry = .ok registry.result) (Meets.given (fun hr => ?_)) (fun _ hk => ⟨hk.2.2, hk.1⟩)
  refine Meets.bind ((converse_meets schemas messages passes).post (fun _ _ hk => hk)
    (fun _ _ hk => hk.bounded)) (fun final => ?_)
  cases final with
  | none => exact .pure (fun _ hk => ⟨hk.bounded, nofun⟩)
  | some final =>
    obtain ⟨completion, fallback⟩ := final
    refine .read (fun k hk => ⟨hk.bounded, ?_⟩)
    rintro _ ⟨⟩
    exact ⟨_, connection, completion, fallback, hr, hk, rfl⟩

end Opening

section Termination
variable {P : Platform} {F : TextForms} {D : Decoder} {cfg : RunnerConfig} {env : Surroundings}

theorem executeCall_rounds (call : ToolRequest) (n : Nat) :
    Meets (fun k => k.toolRounds = n) (executeCall P F cfg env call)
      (fun _ k => k.toolRounds = n) (fun _ _ => True) := by
  refine (checkCancelled_meets (fun _ hk => hk) (fun _ _ => trivial)).bind (fun _ => ?_)
  refine Meets.reading (fun answer => ?_)
  refine @Meets.changing _ _ _ _ (fun k => k.toolRounds = n) _ _ _ _ (fun _ hk => hk.1) ?_
  refine (mcpRequest_meets (E := fun _ => True) (fun _ _ hk => hk) (fun _ _ _ _ => trivial)).bind
    (fun result => ?_)
  refine Meets.lifting (fun _ _ _ _ => trivial) (fun text _ => ?_)
  refine Meets.reading (fun chars => ?_)
  refine Meets.guard (fun _ _ _ => trivial) (fun _ => ?_)
  exact .change (fun _ hk => hk.1.1)

-- a pass that goes on has used up a round
theorem pass_rounds (schemas : List (String × Json)) (n : Nat) :
    Meets (fun k => k.toolRounds = n) (pass P F D cfg env schemas)
      (fun final k => final = none → n < cfg.maxToolRounds ∧ k.toolRounds = n + 1)
      (fun _ _ => True) := by
  refine Meets.reading (f := id) (fun k => ?_)
  refine Meets.pre (P := fun s => s.toolRounds = n) ?_ (fun _ hk => hk.1)
  refine (chat_meets (E := fun _ => True) (fun _ hk => hk) (fun _ _ hk => hk)
    (fun _ _ => trivial)).bind (fun completion => ?_)
  refine Meets.lifting (fun _ _ _ _ => trivial) (fun calls _ => ?_)
  cases calls with
  | nil => exact .pure (fun _ _ h => nomatch h)
  | cons call rest =>
    refine Meets.bind (Q := fun _ k => k.toolRounds = n ∧ n < cfg.maxToolRounds) ?_ (fun _ => ?_)
    · refine Meets.reading (f := id) (fun k => ?_)
      refine Meets.guard (fun _ _ _ => trivial) (fun hrounds => ?_)
      refine Meets.guard (fun _ _ _ => trivial) (fun _ => ?_)
      refine Meets.guard (fun _ _ _ => trivial) (fun _ => ?_)
      refine Meets.require ?_ (fun _ _ _ => trivial)
      rintro s ⟨rfl, rfl⟩ _
      exact ⟨rfl, hrounds⟩
    · refine Meets.given (fun hlt => ?_)
      refine @Meets.changing _ _ _ _ (fun k => k.toolRounds = n + 1) _ _ _ _
        (fun _ hk => congrArg Nat.succ hk) ?_
      refine (Meets.eachRest (I := fun _ (k : Tally) => k.toolRounds = n + 1)
        (fun call _ => executeCall_rounds call (n + 1)) (call :: rest)).bind (fun _ => ?_)
      exact .pure (fun _ hk _ => ⟨hlt, hk⟩)

/-- With more passes than rounds left the loop ends, and no further pass is taken. -/
theorem toolLoop_ends (schemas : List (String × Json)) (more : Nat) {passes : Nat} {k : Tally}
    (h : cfg.maxToolRounds - k.toolRounds < passes) :
    toolLoop P F D cfg env schemas (passes + more) k = toolLoop P F D cfg env schemas passes k ∧
      (toolLoop P F D cfg env schemas passes k).2 ≠ .ok none := by
  induction passes generalizing k with
  | zero => exact absurd h (Nat.not_lt_zero _)
  | succ passes ih =>
    have hpass := @pass_rounds P F D cfg env schemas
      k.toolRounds k rfl
    rw [Nat.add_right_comm]
    simp only [toolLoop, bind_apply]
    match hp : pass P F D cfg env schemas k with
    | (t, .error e) => exact ⟨rfl, nofun⟩
    | (t, .ok (some completion)) => exact ⟨rfl, nofun⟩
    | (t, .ok none) =>
      rw [hp] at hpass
      obtain ⟨hlt, hround⟩ := hpass rfl
      exact ih (by omega)

theorem converse_ends (schemas : List (String × Json)) (initial : List Json) (more : Nat)
    {passes : Nat} {k : Tally} (h : cfg.maxToolRounds - k.toolRounds < passes) :
    converse P F D cfg env schemas initial (passes + more) k =
        converse P F D cfg env schemas initial passes k ∧
      (converse P F D cfg env schemas initial passes k).2 ≠ .ok none := by
  obtain ⟨hsame, hends⟩ := @toolLoop_ends P F D _ env schemas more _ _ h
  have hfallback (e : RunnerError) (t : Tally) :
      (respondOnly P F D cfg env schemas initial e t).2 ≠ .ok none := by
    have hsome : Meets (fun _ => True) (respondOnly P F D cfg env schemas initial e)
        (fun final _ => final ≠ none) (fun _ _ => True) := by
      refine (checkCancelled_meets (fun _ _ => trivial) (fun _ _ => trivial)).bind (fun _ => ?_)
      refine (chat_meets (E := fun _ => True) (fun _ _ => trivial) (fun _ _ _ => trivial)
        (fun _ _ => trivial)).bind (fun _ => ?_)
      refine Meets.lifting (fun _ _ _ _ => trivial) (fun _ _ => ?_)
      exact Meets.guard (fun _ _ _ => trivial) (fun _ => .pure (fun _ _ => Option.some_ne_none _))
    intro hr
    exact hsome.returns trivial (Prod.ext rfl hr) rfl
  simp only [converse, rescue, bind_apply]
  rw [hsame]
  refine ⟨rfl, ?_⟩
  rcases hl : toolLoop P F D cfg env schemas passes k with ⟨t, e | _ | completion⟩
  · dsimp only
    split
    · exact hfallback e t
    · simp
  · exact absurd (congrArg Prod.snd hl) hends
  · exact fun h => by cases h

theorem runUnchecked_ends (messages : List Json) (more : Nat) :
    runUnchecked P F D cfg env messages (cfg.maxToolRounds + 1 + more) (startTally messages) =
        runUnchecked P F D cfg env messages (cfg.maxToolRounds + 1) (startTally messages) ∧
      (runUnchecked P F D cfg env messages (cfg.maxToolRounds + 1) (startTally messages)).2
        ≠ .ok none := by
  have hopen := @openRun_meets P F cfg env messages _
    (startTally_unopened messages)
  simp only [runUnchecked, require_bind_apply]
  split
  · simp only [bind_apply]
    match ho : openRun P F cfg env (startTally messages) with
    | (t, .error e) => exact ⟨rfl, nofun⟩
    | (t, .ok (schemas, registry, connection)) =>
      rw [ho] at hopen
      have hrounds : t.toolRounds = 0 := hopen.2.1
      obtain ⟨hsame, hends⟩ := @converse_ends P F D cfg env schemas
        messages more _ _ (by omega : cfg.maxToolRounds - t.toolRounds < cfg.maxToolRounds + 1)
      dsimp only
      rw [hsame]
      refine ⟨rfl, ?_⟩
      match hc : converse P F D cfg env schemas messages (cfg.maxToolRounds + 1) t with
      | (u, .error e) => exact nofun
      | (u, .ok none) => exact absurd (congrArg Prod.snd hc) hends
      | (u, .ok (some (completion, fallback))) => exact nofun
  · exact ⟨rfl, nofun⟩

end Termination

section Fallback
variable {P : Platform} {F : TextForms} {D : Decoder} {cfg : RunnerConfig} {env : Surroundings}

theorem respondOnly_sent (schemas : List (String × Json)) (initial : List Json) (e : RunnerError)
    (k : Tally) : (respondOnly P F D cfg env schemas initial e k).1.sent = k.sent := by
  suffices h : Meets (fun t => t.sent = k.sent) (respondOnly P F D cfg env schemas initial e)
      (fun _ t => t.sent = k.sent) (fun _ t => t.sent = k.sent) from h.always rfl
  refine (checkCancelled_meets (E := fun _ t => t.sent = k.sent) (fun _ ht => ht)
    (fun _ ht => ht)).bind (fun _ => ?_)
  refine (chat_meets (E := fun t => t.sent = k.sent) (fun _ ht => ht) (fun _ _ ht => ht)
    (fun _ ht => ht)).bind (fun _ => ?_)
  refine Meets.lifting (fun _ _ _ ht => ht) (fun _ _ => ?_)
  exact Meets.guard (fun _ ht _ => ht) (fun _ => .pure (fun _ ht => ht))

theorem converse_sent (schemas : List (String × Json)) (initial : List Json) (passes : Nat)
    (k : Tally) :
    (converse P F D cfg env schemas initial passes k).1.sent =
      (toolLoop P F D cfg env schemas passes k).1.sent := by
  simp only [converse, rescue, bind_apply]
  rcases toolLoop P F D cfg env schemas passes k with ⟨t, e | final⟩
  · dsimp only
    split
    · exact respondOnly_sent schemas initial e t
    · rfl
  · rfl

end Fallback

section Budgets
variable (P : Platform) (F : TextForms) (D : Decoder) (cfg : RunnerConfig) (env : Surroundings)

theorem tool_budgets_hold (messages : List Json) (more : Nat) :
    let run := runUnchecked P F D cfg env messages (cfg.maxToolRounds + 1) (startTally messages)
    runUnchecked P F D cfg env messages (cfg.maxToolRounds + 1 + more) (startTally messages) = run ∧
      run.2 ≠ .ok none ∧ Bounded F cfg run.1.toolRounds run.1.sent run.1.chats ∧
      ∀ schemas passes k, (converse P F D cfg env schemas messages passes k).1.sent =
        (toolLoop P F D cfg env schemas passes k).1.sent := by
  obtain ⟨hsame, hends⟩ := @runUnchecked_ends P F D cfg env messages more
  refine ⟨hsame, hends, ?_, fun schemas passes k => converse_sent schemas messages passes k⟩
  refine Meets.always (I := fun k => Bounded F cfg k.toolRounds k.sent k.chats) ?_
    (startTally_unopened messages)
  exact (runUnchecked_meets messages _).post (fun _ _ hk => hk.1) (fun _ _ hk => hk)

end Budgets

section Sample

def sampleDecoder : Decoder :=
  { object := fun text => if text = "\x7b\x7d" then some [] else none, usage := fun _ => .null }

def sampleConfig (argumentLimit : Nat) (h : 1 ≤ argumentLimit) (fallback : Bool) : RunnerConfig :=
  { model := "m", responseModel := none, allowedTools := ["read_messages"], maxToolRounds := 1,
    maxToolCalls := 4, maxCumulativeToolArgumentChars := argumentLimit,
    maxCumulativeToolResultChars := 1000, responseOnlyFallbackOnToolError := fallback,
    toolCalls_pos := by decide, argumentChars_pos := h, resultChars_pos := by decide }

def payload (message : List (String × Json)) : Json :=
  .obj [("model", .str "m"), ("choices", .arr [.obj [("message", .obj message)]])]

def askingPayload : Json :=
  payload [("role", .str "assistant"), ("tool_calls", .arr [.obj [
    ("id", .str "c1"), ("type", .str "function"),
    ("function", .obj [("name", .str "read_messages"), ("arguments", .obj [])])]])]

def finalPayload : Json := payload [("role", .str "assistant"), ("content", .str "done")]

def sampleSurroundings (answer : Json) : Surroundings :=
  { opening := .ok [], registry := .ok (.obj []), access := fun _ => .ok .null,
    provider := fun n => if n = 0 then .ok askingPayload else .ok finalPayload,
    mcp := fun _ => .ok answer, cancelled := fun _ => false }

def sampleRun (cfg : RunnerConfig) (answer : Json) :
    Tally × Except RunnerError (Option InferenceResult) :=
  runUnchecked samplePlatform plainForms sampleDecoder cfg (sampleSurroundings answer) [.obj []]
    (cfg.maxToolRounds + 1) (startTally [.obj []])

theorem registry_call_exceeds :
    let cfg := sampleConfig 1 (by decide) false
    (sampleRun cfg (.obj [])).1.trace.map TraceEntry.toolName = [registryTool] ∧
      registryTool ∉ cfg.allowedTools ∧
      cfg.maxCumulativeToolArgumentChars < (dumps plainForms registryArguments).length := by
  decide +kernel

end Sample

end PeerBridge.Runner
