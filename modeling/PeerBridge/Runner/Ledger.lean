import PeerBridge.Runner.Loop

namespace PeerBridge.Runner
open Attempt

-- what a sent call brought, where its result is taken
def SentCall.outcome (F : TextForms) (s : SentCall) : Except RunnerError (Json × String) := do
  let result ← readAnswer s.answer
  let text ← toolResultText F result
  pure (result, text)

def SentCall.textChars (F : TextForms) (s : SentCall) : Nat :=
  match s.outcome F with
  | .ok (_, text) => text.length
  | .error _ => 0

def SentCall.row (P : Platform) (s : SentCall) : Option ToolReceipt :=
  match readAnswer s.answer with
  | .ok result => some (toolReceipt P s.round s.call result)
  | .error _ => none

def SentCall.key (s : SentCall) : Nat × String := (s.round, s.call.id)

def argumentChars (F : TextForms) (sent : List SentCall) : Nat :=
  (dumps F registryArguments).length + (sent.map (fun s => s.call.argumentChars)).sum

def resultChars (F : TextForms) (registry : Json) (sent : List SentCall) : Nat :=
  (dumps F registry).length + (sent.map (SentCall.textChars F)).sum

def Turn.toolChars : Turn → Nat
  | .tool _ _ content => content.length
  | _ => 0

def carried (conversation : List Turn) : Nat := (conversation.map Turn.toolChars).sum

section Facts
variable {F : TextForms}

theorem argumentChars_nil : argumentChars F [] = (dumps F registryArguments).length := by
  rw [argumentChars, List.map_nil, List.sum_nil, Nat.add_zero]

theorem resultChars_nil (registry : Json) :
    resultChars F registry [] = (dumps F registry).length := by
  rw [resultChars, List.map_nil, List.sum_nil, Nat.add_zero]

theorem argumentChars_push (sent : List SentCall) (s : SentCall) :
    argumentChars F (sent ++ [s]) = argumentChars F sent + s.call.argumentChars := by
  simp only [argumentChars, List.map_append, List.sum_append, List.map_cons, List.map_nil,
    List.sum_cons, List.sum_nil]
  omega

theorem resultChars_push (registry : Json) (sent : List SentCall) (s : SentCall) :
    resultChars F registry (sent ++ [s]) = resultChars F registry sent + s.textChars F := by
  simp only [resultChars, List.map_append, List.sum_append, List.map_cons, List.map_nil,
    List.sum_cons, List.sum_nil]
  omega

theorem requestedChars_cons (call : ToolRequest) (rest : List ToolRequest) :
    requestedChars (call :: rest) = call.argumentChars + requestedChars rest := by
  simp [requestedChars]

theorem carried_push (conversation : List Turn) (turn : Turn) :
    carried (conversation ++ [turn]) = carried conversation + turn.toolChars := by
  simp [carried]

theorem carried_input (messages : List Json) : carried (messages.map .input) = 0 := by
  induction messages with
  | nil => rfl
  | cons m ms ih =>
    simp only [carried, List.map_cons, List.sum_cons, Turn.toolChars] at ih ⊢
    omega

theorem outcome_ok {s : SentCall} {result : Json} {text : String}
    (hr : readAnswer s.answer = .ok result) (ht : toolResultText F result = .ok text) :
    s.outcome F = .ok (result, text) := by
  rw [SentCall.outcome, hr]
  change (toolResultText F result >>= fun text => pure (result, text)) = _
  rw [ht]
  rfl

theorem outcome_unread {s : SentCall} {e : RunnerError} (hr : readAnswer s.answer = .error e) :
    s.outcome F = .error e := by
  rw [SentCall.outcome, hr]
  rfl

theorem outcome_untaken {s : SentCall} {result : Json} {e : RunnerError}
    (hr : readAnswer s.answer = .ok result) (ht : toolResultText F result = .error e) :
    s.outcome F = .error e := by
  rw [SentCall.outcome, hr]
  change (toolResultText F result >>= fun text => pure (result, text)) = _
  rw [ht]
  rfl

end Facts

-- the bounds of a run, in what it sent
structure Bounded (F : TextForms) (cfg : RunnerConfig) (rounds : Nat) (sent : List SentCall)
    (chats : List ChatRequest) : Prop where
  limited : rounds ≤ cfg.maxToolRounds
  calls : sent.length + 1 ≤ cfg.maxToolCalls
  arguments : sent ≠ [] ∨ chats ≠ [] → argumentChars F sent ≤ cfg.maxCumulativeToolArgumentChars
  allowed : ∀ s ∈ sent, s.call.name ∈ cfg.allowedTools
  once : (sent.map SentCall.key).Nodup
  numbered : ∀ s ∈ sent, 1 ≤ s.round ∧ s.round ≤ rounds
  results : ∀ chat ∈ chats, carried chat.conversation ≤ cfg.maxCumulativeToolResultChars

structure Served (F : TextForms) (cfg : RunnerConfig) (registry : Json) (sent : List SentCall) :
    Prop where
  taken : ∀ s ∈ sent, ∃ outcome, s.outcome F = .ok outcome
  within : resultChars F registry sent ≤ cfg.maxCumulativeToolResultChars

-- the counters, rows and tool messages stand for these calls
structure Balanced (P : Platform) (F : TextForms) (cfg : RunnerConfig) (registry : Json)
    (sent : List SentCall) (k : Tally) : Prop where
  calls : k.toolCallCount = sent.length + 1
  arguments : k.toolArgumentChars = argumentChars F sent
  results : k.toolResultChars = resultChars F registry sent
  rows : k.toolReceipts.map some = sent.map (SentCall.row P)
  served : Served F cfg registry sent
  carried : carried k.conversation ≤ k.toolResultChars

-- the calls of the batch still to be sent
structure Ahead (F : TextForms) (cfg : RunnerConfig) (rest : List ToolRequest) (rounds : Nat)
    (sent : List SentCall) (chats : List ChatRequest) : Prop where
  bounded : Bounded F cfg rounds sent chats
  calls : sent.length + 1 + rest.length ≤ cfg.maxToolCalls
  arguments : argumentChars F sent + requestedChars rest ≤ cfg.maxCumulativeToolArgumentChars
  allowed : ∀ c ∈ rest, c.name ∈ cfg.allowedTools
  fresh : ∀ c ∈ rest, (rounds, c.id) ∉ sent.map SentCall.key
  distinct : (rest.map ToolRequest.id).Nodup
  begun : rest ≠ [] → 1 ≤ rounds

structure Batch (P : Platform) (F : TextForms) (cfg : RunnerConfig) (registry : Json)
    (rest : List ToolRequest) (k : Tally) : Prop where
  balanced : Balanced P F cfg registry k.sent k
  ahead : Ahead F cfg rest k.toolRounds k.sent k.chats

inductive Ledger (P : Platform) (F : TextForms) (cfg : RunnerConfig) (registry : Json)
    (k : Tally) : Prop where
  | balanced (h : Balanced P F cfg registry k.sent k)
  | interrupted (done : List SentCall) (last : SentCall) (hs : k.sent = done ++ [last])
      (hb : Balanced P F cfg registry done k) (hn : ¬ Served F cfg registry k.sent)

structure Closed (P : Platform) (F : TextForms) (cfg : RunnerConfig) (registry : Json)
    (k : Tally) : Prop where
  bounded : Bounded F cfg k.toolRounds k.sent k.chats
  funded : argumentChars F k.sent ≤ cfg.maxCumulativeToolArgumentChars
  ledger : Ledger P F cfg registry k

-- a call on its way: sent, and not yet in the books
structure Issued (P : Platform) (F : TextForms) (cfg : RunnerConfig) (registry : Json)
    (call : ToolRequest) (rest : List ToolRequest) (answer : Except RunnerError Json)
    (done : List SentCall) (k : Tally) : Prop where
  sent : k.sent = done ++ [{ round := k.toolRounds, call, answer }]
  balanced : Balanced P F cfg registry done k
  ahead : Ahead F cfg rest k.toolRounds k.sent k.chats

section Laws
variable {P : Platform} {F : TextForms} {cfg : RunnerConfig} {registry : Json}

theorem Ahead.funded {rest : List ToolRequest} {rounds : Nat} {sent : List SentCall}
    {chats : List ChatRequest} (h : Ahead F cfg rest rounds sent chats) :
    argumentChars F sent ≤ cfg.maxCumulativeToolArgumentChars :=
  (Nat.le_add_right _ _).trans h.arguments

theorem Batch.closed {rest : List ToolRequest} {k : Tally}
    (h : Batch P F cfg registry rest k) : Closed P F cfg registry k :=
  ⟨h.ahead.bounded, h.ahead.funded, .balanced h.balanced⟩

theorem Ahead.sent {call : ToolRequest} {rest : List ToolRequest} {rounds : Nat}
    {sent : List SentCall} {chats : List ChatRequest}
    (h : Ahead F cfg (call :: rest) rounds sent chats) (answer : Except RunnerError Json) :
    Ahead F cfg rest rounds (sent ++ [{ round := rounds, call, answer }]) chats := by
  have hcalls : sent.length + 1 + 1 + rest.length ≤ cfg.maxToolCalls := by
    have := h.calls
    simp only [List.length_cons] at this
    omega
  have harguments : argumentChars F sent + call.argumentChars + requestedChars rest
      ≤ cfg.maxCumulativeToolArgumentChars := by
    have := h.arguments
    rw [requestedChars_cons] at this
    omega
  have hfresh : (rounds, call.id) ∉ sent.map SentCall.key := h.fresh call List.mem_cons_self
  obtain ⟨hnot, hdistinct⟩ := List.nodup_cons.mp h.distinct
  refine ⟨⟨h.bounded.limited, ?_, ?_, ?_, ?_, ?_, h.bounded.results⟩, ?_, ?_, ?_, ?_, hdistinct, ?_⟩
  · rw [List.length_append, List.length_singleton]
    omega
  · rintro -
    rw [argumentChars_push]
    exact (Nat.le_add_right _ _).trans harguments
  · intro s hs
    rcases List.mem_append.mp hs with hs | hs
    · exact h.bounded.allowed s hs
    · obtain rfl := List.mem_singleton.mp hs
      exact h.allowed call List.mem_cons_self
  · rw [List.map_append]
    refine h.bounded.once.append (List.nodup_singleton _) ?_
    rintro key hk hl
    obtain rfl := List.mem_singleton.mp hl
    exact hfresh hk
  · intro s hs
    rcases List.mem_append.mp hs with hs | hs
    · exact h.bounded.numbered s hs
    · obtain rfl := List.mem_singleton.mp hs
      exact ⟨h.begun (List.cons_ne_nil _ _), Nat.le_refl _⟩
  · rw [List.length_append, List.length_singleton]
    exact hcalls
  · rw [argumentChars_push]
    exact harguments
  · exact fun c hc => h.allowed c (List.mem_cons_of_mem _ hc)
  · intro c hc hmem
    rw [List.map_append] at hmem
    rcases List.mem_append.mp hmem with hmem | hmem
    · exact h.fresh c (List.mem_cons_of_mem _ hc) hmem
    · have hid : c.id = call.id := congrArg Prod.snd (List.mem_singleton.mp hmem)
      exact hnot (hid ▸ List.mem_map_of_mem hc)
  · exact fun _ => h.begun (List.cons_ne_nil _ _)

theorem Issued.closed {call : ToolRequest} {rest : List ToolRequest}
    {answer : Except RunnerError Json} {done : List SentCall} {k : Tally}
    (h : Issued P F cfg registry call rest answer done k)
    (hn : ¬ Served F cfg registry k.sent) : Closed P F cfg registry k :=
  ⟨h.ahead.bounded, h.ahead.funded, .interrupted done _ h.sent h.balanced hn⟩

theorem Issued.lost {call : ToolRequest} {rest : List ToolRequest}
    {answer : Except RunnerError Json} {done : List SentCall} {k : Tally} {e : RunnerError}
    (h : Issued P F cfg registry call rest answer done k)
    (he : ({ round := k.toolRounds, call, answer } : SentCall).outcome F = .error e) :
    Closed P F cfg registry k := by
  refine h.closed (fun hserved => ?_)
  obtain ⟨outcome, ho⟩ := hserved.taken _ (h.sent ▸ List.mem_append_right _ List.mem_cons_self)
  rw [he] at ho
  cases ho

theorem Issued.resultChars_eq {call : ToolRequest} {rest : List ToolRequest}
    {answer : Except RunnerError Json} {done : List SentCall} {k : Tally} {result : Json}
    {text : String} (h : Issued P F cfg registry call rest answer done k)
    (ho : ({ round := k.toolRounds, call, answer } : SentCall).outcome F = .ok (result, text)) :
    resultChars F registry k.sent = k.toolResultChars + text.length := by
  rw [h.sent, resultChars_push, h.balanced.results, SentCall.textChars, ho]

-- the call enters the books
theorem Issued.account {call : ToolRequest} {rest : List ToolRequest}
    {answer : Except RunnerError Json} {done : List SentCall} {k : Tally} {result : Json}
    {text : String} (h : Issued P F cfg registry call rest answer done k)
    (hr : readAnswer answer = .ok result)
    (ho : ({ round := k.toolRounds, call, answer } : SentCall).outcome F = .ok (result, text))
    (hw : k.toolResultChars + text.length ≤ cfg.maxCumulativeToolResultChars) :
    Batch P F cfg registry rest (account P call result text k) := by
  have hsum := h.resultChars_eq ho
  refine ⟨⟨?_, ?_, hsum.symm, ?_, ⟨?_, hsum ▸ hw⟩, ?_⟩, h.ahead⟩
  · change k.toolCallCount + 1 = k.sent.length + 1
    rw [h.sent, List.length_append, List.length_singleton, h.balanced.calls]
  · change k.toolArgumentChars + call.argumentChars = argumentChars F k.sent
    rw [h.sent, argumentChars_push, h.balanced.arguments]
  · change (k.toolReceipts ++ [toolReceipt P k.toolRounds call result]).map some =
      k.sent.map (SentCall.row P)
    rw [h.sent, List.map_append, List.map_append, h.balanced.rows]
    simp only [List.map_cons, List.map_nil, SentCall.row, hr]
  · intro s hs
    change s ∈ k.sent at hs
    rw [h.sent] at hs
    rcases List.mem_append.mp hs with hs | hs
    · exact h.balanced.served.taken s hs
    · obtain rfl := List.mem_singleton.mp hs
      exact ⟨_, ho⟩
  · change carried (k.conversation ++ [.tool call.id call.name text]) ≤
      k.toolResultChars + text.length
    rw [carried_push]
    exact Nat.add_le_add_right h.balanced.carried _

theorem Bounded.asked {rounds : Nat} {sent : List SentCall} {chats : List ChatRequest}
    {conversation : List Turn} (h : Bounded F cfg rounds sent chats)
    (hf : argumentChars F sent ≤ cfg.maxCumulativeToolArgumentChars)
    (hc : carried conversation ≤ cfg.maxCumulativeToolResultChars) (offersTools : Bool) :
    Bounded F cfg rounds sent (chats ++ [⟨conversation, offersTools⟩]) := by
  refine { h with arguments := fun _ => hf, results := fun chat hmem => ?_ }
  rcases List.mem_append.mp hmem with hmem | hmem
  · exact h.results chat hmem
  · obtain rfl := List.mem_singleton.mp hmem
    exact hc

theorem Batch.carried_le {rest : List ToolRequest} {k : Tally}
    (h : Batch P F cfg registry rest k) :
    carried k.conversation ≤ cfg.maxCumulativeToolResultChars :=
  h.balanced.carried.trans (h.balanced.results ▸ h.balanced.served.within)

theorem Ledger.congr {k l : Tally} (h : Ledger P F cfg registry k) (hs : l.sent = k.sent)
    (hb : ∀ sent, Balanced P F cfg registry sent k → Balanced P F cfg registry sent l) :
    Ledger P F cfg registry l := by
  cases h with
  | balanced h => exact .balanced (hs ▸ hb _ h)
  | interrupted done last hd h hn => exact .interrupted done last (hs.trans hd) (hb _ h) (hs ▸ hn)

-- the batch fits in what is left
structure Room (cfg : RunnerConfig) (calls : List ToolRequest) (k : Tally) : Prop where
  rounds : k.toolRounds < cfg.maxToolRounds
  fits : k.toolCallCount + calls.length ≤ cfg.maxToolCalls
  arguments : k.toolArgumentChars + requestedChars calls ≤ cfg.maxCumulativeToolArgumentChars

theorem Batch.start {calls : List ToolRequest} {k : Tally} (h : Batch P F cfg registry [] k)
    (hr : Room cfg calls k) (hb : Batchable cfg.allowedTools calls) (message : Json) :
    Batch P F cfg registry calls { k with
      toolRounds := k.toolRounds + 1
      conversation := k.conversation ++ [.assistant message] } := by
  have hbounded := h.ahead.bounded
  refine ⟨{ h.balanced with carried := ?_ }, ⟨?_, ?_, ?_, hb.1, ?_, hb.2, fun _ => Nat.le_add_left _ _⟩⟩
  · change carried (k.conversation ++ [.assistant message]) ≤ k.toolResultChars
    rw [carried_push]
    exact h.balanced.carried
  · refine { hbounded with limited := hr.rounds, numbered := fun s hs => ?_ }
    exact (hbounded.numbered s hs).imp_right Nat.le_succ_of_le
  · exact h.balanced.calls ▸ hr.fits
  · exact h.balanced.arguments ▸ hr.arguments
  · intro c _ hmem
    obtain ⟨s, hs, hkey⟩ := List.mem_map.mp hmem
    have hround : s.round = k.toolRounds + 1 := congrArg Prod.fst hkey
    have := (hbounded.numbered s hs).2
    omega

end Laws

section Rules
variable {P : Platform} {F : TextForms} {D : Decoder} {cfg : RunnerConfig} {env : Surroundings}
  {registry : Json}

theorem checkCancelled_meets {I : Tally → Prop} {E : RunnerError → Tally → Prop}
    (hi : ∀ k, I k → I { k with checks := k.checks + 1 })
    (he : ∀ k, I k → E (.cancelled "provider run was cancelled") k) :
    Meets I (checkCancelled env) (fun _ => I) E :=
  (Meets.read (Q := fun _ => I) (fun _ hk => hk)).bind (fun _ =>
    (Meets.change hi).bind (fun _ =>
      Meets.require (fun _ hk _ => hk) (fun k hk _ => he k hk)))

theorem checkCancelled_batch {rest : List ToolRequest} :
    Meets (Batch P F cfg registry rest) (checkCancelled env)
      (fun _ => Batch P F cfg registry rest) (fun _ => Closed P F cfg registry) :=
  checkCancelled_meets (fun _ h => ⟨{ h.balanced with }, h.ahead⟩) (fun _ h => h.closed)

theorem mcpRequest_meets {name : String} {arguments : Json} {answer : Except RunnerError Json}
    {I E : Tally → Prop}
    (hi : ∀ result k, I k → I { k with
      trace := k.trace ++ [traceEntry P name arguments result] })
    (he : ∀ e k, readAnswer answer = .error e → I k → E k) :
    Meets I (mcpRequest P name arguments answer)
      (fun result k => I k ∧ readAnswer answer = .ok result) (fun _ => E) := by
  refine Meets.lifting he (fun result hr => ?_)
  refine Meets.changing (hi result) ?_
  exact .pure (fun _ hk => ⟨hk, hr⟩)

theorem Batch.send {call : ToolRequest} {rest : List ToolRequest} {k : Tally}
    (h : Batch P F cfg registry (call :: rest) k) (answer : Except RunnerError Json) :
    Issued P F cfg registry call rest answer k.sent
      { k with sent := k.sent ++ [{ round := k.toolRounds, call, answer }] } :=
  ⟨rfl, { h.balanced with }, h.ahead.sent answer⟩

theorem executeCall_meets (call : ToolRequest) (rest : List ToolRequest) :
    Meets (Batch P F cfg registry (call :: rest)) (executeCall P F cfg env call)
      (fun _ => Batch P F cfg registry rest) (fun _ => Closed P F cfg registry) := by
  refine checkCancelled_batch.bind (fun _ => ?_)
  refine Meets.reading (fun answer => ?_)
  refine @Meets.changing _ _ _ _
    (fun k => ∃ done, Issued P F cfg registry call rest answer done k) _ _ _ _ (fun k hk => ⟨k.sent, hk.1.send answer⟩) ?_
  refine (mcpRequest_meets (fun _ _ ⟨done, h⟩ => ⟨done, ⟨h.sent, { h.balanced with }, h.ahead⟩⟩)
    (fun _ _ hr ⟨_, h⟩ => h.lost (outcome_unread hr))).bind (fun result => ?_)
  refine Meets.given (fun hr => ?_)
  refine Meets.lifting (fun _ _ ht ⟨_, h⟩ => h.lost (outcome_untaken hr ht)) (fun text ht => ?_)
  refine Meets.reading (fun chars => ?_)
  refine Meets.guard ?_ (fun hw => ?_)
  · rintro k ⟨⟨_, h⟩, rfl⟩ hw
    exact h.closed (fun hserved => hw (h.resultChars_eq (outcome_ok hr ht) ▸ hserved.within))
  · refine Meets.change ?_
    rintro k ⟨⟨_, h⟩, rfl⟩
    exact h.account hr (outcome_ok hr ht) hw

theorem executeCalls_meets (calls : List ToolRequest) :
    Meets (Batch P F cfg registry calls) (each (executeCall P F cfg env) calls)
      (fun _ => Batch P F cfg registry []) (fun _ => Closed P F cfg registry) :=
  Meets.eachRest (fun call rest => executeCall_meets call rest) calls

theorem chat_meets {conversation : List Turn} {offersTools : Bool} {I E : Tally → Prop}
    (ha : ∀ k, I k → I { k with chats := k.chats ++ [{ conversation, offersTools }] })
    (hc : ∀ completion k, I k → I { k with completions := k.completions ++ [completion] })
    (he : ∀ k, I k → E k) :
    Meets I (chat P D cfg env conversation offersTools) (fun _ => I) (fun _ => E) := by
  refine Meets.reading (fun payload => ?_)
  refine Meets.changing (fun k hk => ha k hk.1) ?_
  refine Meets.lifting (fun _ k _ hk => he k hk) (fun completion _ => ?_)
  exact Meets.changing (hc completion) (.pure (fun _ hk => hk))

theorem admitBatch_meets (calls : List ToolRequest) :
    Meets (Batch P F cfg registry []) (admitBatch cfg calls)
      (fun _ k => Batch P F cfg registry [] k ∧ Room cfg calls k)
      (fun _ => Closed P F cfg registry) := by
  refine Meets.reading (f := id) (fun k => ?_)
  refine Meets.guard (fun _ hk _ => hk.1.closed) (fun hrounds => ?_)
  refine Meets.guard (fun _ hk _ => hk.1.closed) (fun hcalls => ?_)
  refine Meets.guard (fun _ hk _ => hk.1.closed) (fun harguments => ?_)
  refine Meets.require ?_ (fun _ hk _ => hk.1.closed)
  rintro k ⟨hk, rfl⟩ _
  exact ⟨hk, hrounds, hcalls, harguments⟩

theorem pass_meets (schemas : List (String × Json)) :
    Meets (Batch P F cfg registry []) (pass P F D cfg env schemas)
      (fun _ => Batch P F cfg registry []) (fun _ => Closed P F cfg registry) := by
  refine Meets.reading (f := id) (fun k => ?_)
  refine Meets.pre (P := fun s => Batch P F cfg registry [] s ∧
    carried k.conversation ≤ cfg.maxCumulativeToolResultChars) (Meets.given (fun hc => ?_)) ?_
  · refine Meets.bind (chat_meets (E := Closed P F cfg registry) ?_ ?_ ?_) (fun completion => ?_)
    · exact fun k hk => ⟨{ hk.balanced with },
        { hk.ahead with bounded := hk.ahead.bounded.asked hk.ahead.funded hc _ }⟩
    · exact fun _ k hk => ⟨{ hk.balanced with }, hk.ahead⟩
    · exact fun k hk => hk.closed
    · refine Meets.lifting (fun _ _ _ hk => hk.closed) (fun calls hcalls => ?_)
      cases calls with
      | nil => exact .pure (fun _ hk => hk)
      | cons call rest =>
        refine (admitBatch_meets (call :: rest)).bind (fun _ => ?_)
        refine Meets.changing (fun k hk =>
          hk.1.start hk.2 (toolCalls_batchable hcalls) completion.assistant) ?_
        exact (executeCalls_meets _).bind (fun _ => .pure (fun _ hk => hk))
  · rintro s ⟨hs, rfl⟩
    exact ⟨hs, hs.carried_le⟩

theorem toolLoop_meets (schemas : List (String × Json)) (passes : Nat) :
    Meets (Batch P F cfg registry []) (toolLoop P F D cfg env schemas passes)
      (fun _ => Batch P F cfg registry []) (fun _ => Closed P F cfg registry) := by
  induction passes with
  | zero => exact .pure (fun _ hk => hk)
  | succ passes ih =>
    refine (pass_meets schemas).bind (fun final => ?_)
    cases final with
    | none => exact ih
    | some completion => exact .pure (fun _ hk => hk)

theorem respondOnly_meets (schemas : List (String × Json)) (initial : List Json)
    (e : RunnerError) :
    Meets (Closed P F cfg registry) (respondOnly P F D cfg env schemas initial e)
      (fun _ => Closed P F cfg registry) (fun _ => Closed P F cfg registry) := by
  have hc : carried (.input instructionMessage :: initial.map .input)
      ≤ cfg.maxCumulativeToolResultChars :=
    Nat.le_trans (Nat.le_of_eq (carried_input (instructionMessage :: initial))) (Nat.zero_le _)
  refine Meets.bind (checkCancelled_meets ?_ (fun _ hk => hk)) (fun _ => ?_)
  · exact fun k hk => { hk with ledger := hk.ledger.congr rfl (fun _ hb => { hb with }) }
  refine Meets.bind (chat_meets (E := Closed P F cfg registry) ?_ ?_ (fun _ hk => hk))
    (fun completion => ?_)
  · exact fun k hk => { hk with
      bounded := hk.bounded.asked hk.funded hc _
      ledger := hk.ledger.congr rfl (fun _ hb => { hb with }) }
  · exact fun _ k hk => { hk with ledger := hk.ledger.congr rfl (fun _ hb => { hb with }) }
  refine Meets.lifting (fun _ _ _ hk => hk) (fun calls _ => ?_)
  exact Meets.guard (fun _ hk _ => hk) (fun _ => .pure (fun _ hk => hk))

theorem converse_meets (schemas : List (String × Json)) (initial : List Json) (passes : Nat) :
    Meets (Batch P F cfg registry []) (converse P F D cfg env schemas initial passes)
      (fun _ => Closed P F cfg registry) (fun _ => Closed P F cfg registry) := by
  refine Meets.rescue (E := fun _ => Closed P F cfg registry) ?_
    (fun e _ => respondOnly_meets schemas initial e) (fun _ _ _ hk => hk)
  refine (toolLoop_meets schemas passes).bind (fun final => ?_)
  exact .pure (fun _ hk => hk.closed)

end Rules

end PeerBridge.Runner
