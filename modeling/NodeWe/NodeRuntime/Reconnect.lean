import NodeWe.Backoff
import NodeWe.JsonReader
import NodeWe.JsonText
import NodeWe.NodeRuntime.Agent

/-!
# Reconnecting to the control plane

`connect_polling` and `connect_websocket` as their loops: what one round of each does with the
replies that it gets, and how long it sleeps when the round has failed. The replies come from
outside, and so do the texts of their errors. Both loops keep the next delay in `backoff_ms`, and
`reconnect` is the schedule that the protocol has for it.

Polling forgets the delay as soon as a heartbeat is acknowledged, also in a round whose poll then
fails. A session of `connect_websocket` only ever ends with an error (`websocketSession_error`), so
that its loop never forgets the delay. `on_schedule_iff` says which runs are on schedule all the
same.
-/

namespace NodeWe.NodeRuntime

open Text ControlPlane Transition Backoff

/-- `u64::saturating_mul`. -/
def saturatingMul (a b : ℕ) : ℕ := min (a * b) u64Max

/-- The agent starts to wait for a second, doubles the delay, and stops at half a minute. -/
def reconnect : Schedule := ⟨1000, 30000, by omega, by omega⟩

/-- The new value of `backoff_ms` after a failure. -/
def growBackoff (backoff_ms : ℕ) : ℕ := min (saturatingMul backoff_ms 2) 30000

/-- The multiplication does not saturate below the cap. -/
theorem growBackoff_eq (backoff_ms : ℕ) : growBackoff backoff_ms = reconnect.grow backoff_ms := by
  have hmax : 30000 ≤ u64Max := by decide
  unfold growBackoff saturatingMul Schedule.grow reconnect
  dsimp only
  omega

section Loops

variable [Serde]

/-- `validate_heartbeat_ack`. -/
def validateHeartbeatAck (response : String) : Except String Unit := do
  let parsed ← okOr (Serde.fromStr response) "control plane heartbeat response is not valid JSON"
  let body := ((parsed.get "payload").filter isObject).getD parsed
  ensure ((body.get "protocol_version").bind Value.asU64 == some protocolVersion)
    "control plane negotiated an unsupported protocol version"
  let negotiated :=
    (((body.get "negotiated_abilities").bind Value.asArray).getD []).filterMap Value.asStr
  ensure (supportedAbilities.all (negotiated.contains ·))
    "control plane did not negotiate all required agent abilities"

/-! ## Polling -/

section Polling

variable [SerdeText]

/-- What a round of polling gets from outside: the results of its two requests. What comes of the
uploads is printed and nothing else. -/
structure PollReplies where
  heartbeat : Except String String
  tasks : Except String String

/-- One round of the loop of `connect_polling`, with the new value of `backoff_ms`. An error ends
the process. A round that completes sleeps for the interval of the agent, and one that fails for
the delay that it shows. -/
def pollingRound (backoff_ms : ℕ) (replies : PollReplies) : Except String (Attempt × ℕ) :=
  match replies.heartbeat with
  | .error _ => .ok (.failed backoff_ms, growBackoff backoff_ms)
  | .ok response => do
    validateHeartbeatAck response
    match replies.tasks with
    | .error _ => .ok (.failed 1000, growBackoff 1000)
    | .ok queued => do
      let _ ← (jsonObjects queued).mapM readTask
      .ok (.completed, 1000)

/-- The heartbeat of the round is answered, and its poll is not. -/
def PollReplies.PollFails (replies : PollReplies) : Prop :=
  replies.heartbeat.isOk = true ∧ replies.tasks.isOk = false

/-- The round fails, at its heartbeat or at its poll. -/
def PollReplies.Fails (replies : PollReplies) : Prop :=
  replies.heartbeat.isOk = false ∨ replies.tasks.isOk = false

/-- A round that does not end the process. -/
def PollingStep (backoff_ms : ℕ) (round : PollReplies × Attempt) (next : ℕ) : Prop :=
  pollingRound backoff_ms round.1 = .ok (round.2, next)

/-- A round completes, or fails with the delay that the loop keeps; where the heartbeat has been
acknowledged, that delay is the first one again. -/
theorem PollingStep.cases {backoff_ms next : ℕ} {round : PollReplies × Attempt}
    (h : PollingStep backoff_ms round next) :
    (¬round.1.Fails ∧ round.2 = .completed ∧ next = reconnect.base) ∨
      (round.1.Fails ∧ ¬round.1.PollFails ∧ round.2 = .failed backoff_ms ∧
        next = reconnect.grow backoff_ms) ∨
      (round.1.Fails ∧ round.1.PollFails ∧ round.2 = .failed reconnect.base ∧
        next = reconnect.grow reconnect.base) := by
  obtain ⟨⟨heartbeat, tasks⟩, attempt⟩ := round
  unfold PollingStep pollingRound at h
  dsimp only at h
  cases heartbeat with
  | error error =>
    obtain ⟨rfl, rfl⟩ := Prod.mk.inj (Except.ok.inj h)
    right; left
    exact ⟨.inl rfl, fun hpoll => Bool.noConfusion hpoll.1, rfl, growBackoff_eq backoff_ms⟩
  | ok response =>
    obtain ⟨_, -, h⟩ := bind_eq_ok_iff.mp h
    cases tasks with
    | error error =>
      obtain ⟨rfl, rfl⟩ := Prod.mk.inj (Except.ok.inj h)
      right; right
      exact ⟨.inr rfl, ⟨rfl, rfl⟩, rfl, growBackoff_eq 1000⟩
    | ok queued =>
      obtain ⟨_, -, h⟩ := bind_eq_ok_iff.mp h
      obtain ⟨rfl, rfl⟩ := Prod.mk.inj (Except.ok.inj h)
      left
      refine ⟨?_, rfl, rfl⟩
      rintro (hfails | hfails) <;> exact Bool.noConfusion hfails

/-- The rounds whose poll fails right after a round that has failed. -/
def FailsAgain (before next : PollReplies) : Prop := before.Fails ∧ next.PollFails

variable {rounds : List (PollReplies × Attempt)} {backoff_ms : ℕ}

/-- In the log of a run, the failures since the last completed round are none when the last round
has not failed. -/
theorem failures_polling (h : Run PollingStep reconnect.base rounds backoff_ms) :
    failures (rounds.map Prod.snd) = 0 ↔ ∀ round ∈ rounds.getLast?, ¬round.1.Fails := by
  refine h.history (P := fun rounds _ => failures (rounds.map Prod.snd) = 0 ↔
    ∀ round ∈ rounds.getLast?, ¬round.1.Fails) (by simp [failures]) ?_
  intro rounds s round t _ hstep
  rw [List.map_append, List.map_singleton, List.getLast?_concat]
  obtain ⟨hok, hattempt, -⟩ | ⟨hfails, -, hattempt, -⟩ | ⟨hfails, -, hattempt, -⟩ := hstep.cases
  · simpa [hattempt] using hok
  · simpa [hattempt] using hfails
  · simpa [hattempt] using hfails

/-- Where no poll fails right after a failed round, polling keeps the delay as a client of the
schedule does. -/
theorem polling_simulates (h : Run PollingStep reconnect.base rounds backoff_ms)
    (hchain : (rounds.map Prod.fst).IsChain fun before next => ¬FailsAgain before next) :
    Run reconnect.Step reconnect.base (rounds.map Prod.snd) backoff_ms := by
  induction h with
  | start => exact .start
  | snoc rounds s t round hrun hlast ih =>
    rw [List.map_append, List.map_singleton] at hchain ⊢
    obtain ⟨hbefore, -, hlink⟩ := List.isChain_append.mp hchain
    have hsim := ih hbefore
    refine .snoc _ s t _ hsim ?_
    obtain ⟨-, hattempt, rfl⟩ | ⟨-, -, hattempt, rfl⟩ | ⟨-, hpoll, hattempt, rfl⟩ := hlast.cases
    · rw [hattempt]
      exact .completed s
    · rw [hattempt]
      exact .failed s
    · -- The round before has not failed, so that the loop was at the first delay anyway.
      have hzero : failures (rounds.map Prod.snd) = 0 := by
        refine (failures_polling hrun).mpr ?_
        intro before hlast' hfails
        refine hlink before.1 ?_ round.1 rfl ⟨hfails, hpoll⟩
        rw [List.getLast?_map, Option.mem_def.mp hlast', Option.map_some]
        exact rfl
      have hs := (Schedule.onSchedule_of_run hsim).2
      rw [hzero, Nat.zero_add, Schedule.delay_one] at hs
      rw [hattempt, hs]
      exact .failed _

/-- A run of polling on schedule has no poll that fails right after a failed round. -/
theorem polling_chain (h : Run PollingStep reconnect.base rounds backoff_ms)
    (hlog : reconnect.OnSchedule (rounds.map Prod.snd)) :
    (rounds.map Prod.fst).IsChain fun before next => ¬FailsAgain before next := by
  induction h with
  | start => exact .nil
  | snoc rounds s t round hrun hlast ih =>
    rw [List.map_append, List.map_singleton] at hlog ⊢
    have hpart : reconnect.OnSchedule (rounds.map Prod.snd) := by
      cases hattempt : round.2 with
      | completed =>
        rw [hattempt] at hlog
        exact Schedule.onSchedule_snoc_completed.mp hlog
      | failed wait =>
        rw [hattempt] at hlog
        exact (Schedule.onSchedule_snoc_failed.mp hlog).1
    refine List.isChain_append.mpr ⟨ih hpart, .singleton _, ?_⟩
    rintro before hbefore next hnext ⟨hfails, hpoll⟩
    obtain rfl := Option.some.inj hnext
    rw [List.getLast?_map, Option.mem_def, Option.map_eq_some_iff] at hbefore
    obtain ⟨previous, hprevious, rfl⟩ := hbefore
    obtain ⟨hok, -⟩ | ⟨-, hnot, -⟩ | ⟨-, -, hattempt, -⟩ := hlast.cases
    · exact hok (.inr hpoll.2)
    · exact hnot hpoll
    · rw [hattempt] at hlog
      have hdelay := (Schedule.onSchedule_snoc_failed.mp hlog).2
      have hzero := (Schedule.delay_eq_base_iff _ _).mp hdelay.symm
      exact (failures_polling hrun).mp hzero previous hprevious hfails

end Polling

/-! ## Sessions -/

section Sessions

variable [SerdeText]

/-- What a cycle of a session gets from outside: the answers to the heartbeat, to the request for
tasks, and to the result of each task. -/
structure SessionReplies where
  heartbeat : Except String String
  tasks : Except String String
  results : ℕ → Except String String

/-- What a connection gets from outside: the results of `connect_stream` and
`websocket_handshake`, and the replies to the cycles that follow. -/
structure Connection where
  stream : Except String Unit
  handshake : Except String Unit
  cycles : List SessionReplies

/-- The loop body of `websocket_session` up to the tasks: the heartbeat is acknowledged and the
tasks are fetched. -/
def SessionReplies.fetch (replies : SessionReplies) : Except String String := do
  let heartbeat_response ← replies.heartbeat
  validateHeartbeatAck heartbeat_response
  let tasks_response ← replies.tasks
  okOr (jsonPayload tasks_response) "websocket tasks response is missing payload"

/-- The rest of the loop body: the tasks are executed and answered one by one, from the `index`-th
one on. -/
def answerTasks (results : ℕ → Except String String) : ℕ → List String → Except String Unit
  | _, [] => .ok ()
  | index, task :: tasks => do
    let _ ← readTask task
    let _ ← results index
    answerTasks results (index + 1) tasks

/-- The loop of `websocket_session`, `none` while it goes on. -/
def sessionLoop : List SessionReplies → Option (Except String Unit)
  | [] => none
  | replies :: cycles =>
    match replies.fetch with
    | .error error => some (.error error)
    | .ok queued =>
      match answerTasks replies.results 0 (jsonObjects queued) with
      | .error error => some (.error error)
      | .ok () => sessionLoop cycles

/-- `websocket_session`, `none` while it goes on. -/
def websocketSession (connection : Connection) : Option (Except String Unit) :=
  match connection.stream with
  | .error error => some (.error error)
  | .ok () =>
    match connection.handshake with
    | .error error => some (.error error)
    | .ok () => sessionLoop connection.cycles

/-- The cycles of a loop that have fetched their tasks. -/
def fetchedCycles : List SessionReplies → ℕ
  | [] => 0
  | replies :: cycles =>
    match replies.fetch with
    | .error _ => 0
    | .ok queued =>
      match answerTasks replies.results 0 (jsonObjects queued) with
      | .error _ => 1
      | .ok () => 1 + fetchedCycles cycles

/-- The cycles of a connection that have fetched their tasks. -/
def Connection.fetched (connection : Connection) : ℕ :=
  match connection.stream, connection.handshake with
  | .ok (), .ok () => fetchedCycles connection.cycles
  | _, _ => 0

/-- The loop of a session has no way out but an error. -/
theorem sessionLoop_error {cycles : List SessionReplies} {result : Except String Unit}
    (h : sessionLoop cycles = some result) : ∃ error, result = .error error := by
  induction cycles with
  | nil => cases h
  | cons replies cycles ih =>
    unfold sessionLoop at h
    split at h
    · exact ⟨_, (Option.some.inj h).symm⟩
    · split at h
      · exact ⟨_, (Option.some.inj h).symm⟩
      · exact ih h

/-- Nor has a session. -/
theorem websocketSession_error {connection : Connection} {result : Except String Unit}
    (h : websocketSession connection = some result) : ∃ error, result = .error error := by
  unfold websocketSession at h
  split at h
  · exact ⟨_, (Option.some.inj h).symm⟩
  · split at h
    · exact ⟨_, (Option.some.inj h).symm⟩
    · exact sessionLoop_error h

/-- How long the loop of `connect_websocket` sleeps after a session, and the new value of
`backoff_ms`. -/
def websocketDelay (backoff_ms : ℕ) : Except String Unit → ℕ × ℕ
  | .ok () => (1000, 1000)
  | .error _ => (backoff_ms, growBackoff backoff_ms)

/-- A session that ends, with the delay after it. -/
def WebsocketStep (backoff_ms : ℕ) (session : Connection × ℕ) (next : ℕ) : Prop :=
  ∃ result, websocketSession session.1 = some result ∧
    websocketDelay backoff_ms result = (session.2, next)

/-- The attempts of a session: its cycles that have completed, and the one that it is lost in. -/
def attempts (session : Connection × ℕ) : List Attempt :=
  List.replicate session.1.fetched .completed ++ [.failed session.2]

/-- Every session is followed by the delay that the loop keeps, and the delay grows. -/
theorem WebsocketStep.delay {backoff_ms next : ℕ} {session : Connection × ℕ}
    (h : WebsocketStep backoff_ms session next) :
    session.2 = backoff_ms ∧ next = reconnect.grow backoff_ms := by
  obtain ⟨result, hend, hdelay⟩ := h
  obtain ⟨error, rfl⟩ := websocketSession_error hend
  obtain ⟨hwait, hnext⟩ := Prod.mk.inj hdelay
  exact ⟨hwait.symm, hnext.symm.trans (growBackoff_eq backoff_ms)⟩

variable {sessions : List (Connection × ℕ)} {backoff_ms : ℕ}

/-- The delay that the loop keeps only counts the sessions. -/
theorem backoff_of_sessions (h : Run WebsocketStep reconnect.base sessions backoff_ms) :
    backoff_ms = reconnect.delay (sessions.length + 1) := by
  refine h.history (P := fun sessions backoff_ms =>
    backoff_ms = reconnect.delay (sessions.length + 1)) reconnect.delay_one.symm ?_
  intro sessions s session t hs hstep
  rw [hstep.delay.2, hs, Schedule.grow_delay, List.length_append, List.length_singleton]

/-- Where no session but the first one fetches tasks, the loop keeps the delay as a client of the
schedule does. -/
theorem websocket_simulates (h : Run WebsocketStep reconnect.base sessions backoff_ms)
    (hnone : ∀ session ∈ sessions.tail, session.1.fetched = 0) :
    Run reconnect.Step reconnect.base (sessions.flatMap attempts) backoff_ms := by
  induction h with
  | start => exact .start
  | snoc sessions s t session hrun hlast ih =>
    obtain ⟨hwait, rfl⟩ := hlast.delay
    rw [List.flatMap_append, List.flatMap_singleton]
    cases sessions with
    | nil =>
      -- The first session starts at the first delay, and its completed cycles keep it.
      have hs : s = reconnect.base := by
        rw [backoff_of_sessions hrun]
        exact reconnect.delay_one
      rw [List.flatMap_nil, List.nil_append, attempts, hwait, hs]
      exact .snoc _ _ _ _ (Schedule.run_completed _) (.failed _)
    | cons first sessions =>
      rw [List.cons_append, List.tail_cons, List.forall_mem_append,
        List.forall_mem_singleton] at hnone
      have hsim := ih hnone.1
      rw [attempts, hnone.2, List.replicate_zero, List.nil_append, hwait]
      exact .snoc _ s _ _ hsim (.failed s)

/-- A run on schedule has no session but the first one that fetches tasks. -/
theorem websocket_none (h : Run WebsocketStep reconnect.base sessions backoff_ms)
    (hlog : reconnect.OnSchedule (sessions.flatMap attempts)) :
    ∀ session ∈ sessions.tail, session.1.fetched = 0 := by
  induction h with
  | start => simp
  | snoc sessions s t session hrun hlast ih =>
    rw [List.flatMap_append, List.flatMap_singleton, attempts, ← List.append_assoc,
      Schedule.onSchedule_snoc_failed, Schedule.onSchedule_append_completed] at hlog
    obtain ⟨hpart, hdelay⟩ := hlog
    cases sessions with
    | nil => simp
    | cons first sessions =>
      rw [List.cons_append, List.tail_cons, List.forall_mem_append, List.forall_mem_singleton]
      refine ⟨ih hpart, ?_⟩
      by_contra hfetched
      rw [failures_append_completed _ hfetched, Nat.zero_add, Schedule.delay_one,
        hlast.delay.1, backoff_of_sessions hrun, Schedule.delay_eq_base_iff] at hdelay
      exact absurd hdelay (Nat.succ_ne_zero _)

end Sessions

/-! ## Both transports -/

/-- **When the agent keeps to its schedule.** A run of polling does exactly when no poll fails right
after a failed round: the acknowledged heartbeat has taken the delay back to one second, although
the round has not completed. A run of WebSocket sessions does exactly when no session but the
first one fetches tasks: after a session that has worked, the delay goes on from where it was. -/
theorem on_schedule_iff [SerdeText] {rounds : List (PollReplies × Attempt)}
    {sessions : List (Connection × ℕ)} {polling_ms websocket_ms : ℕ}
    (hpolling : Run PollingStep reconnect.base rounds polling_ms)
    (hwebsocket : Run WebsocketStep reconnect.base sessions websocket_ms) :
    (reconnect.OnSchedule (rounds.map Prod.snd) ↔
      (rounds.map Prod.fst).IsChain fun before next => ¬FailsAgain before next) ∧
    (reconnect.OnSchedule (sessions.flatMap attempts) ↔
      ∀ session ∈ sessions.tail, session.1.fetched = 0) := by
  constructor
  · refine ⟨polling_chain hpolling, ?_⟩
    intro hchain
    exact (Schedule.onSchedule_of_run (polling_simulates hpolling hchain)).1
  · refine ⟨websocket_none hwebsocket, ?_⟩
    intro hnone
    exact (Schedule.onSchedule_of_run (websocket_simulates hwebsocket hnone)).1

end Loops

section Example

attribute [local instance] compactSerde compactText

/-- An acknowledged heartbeat. -/
def acknowledged : String :=
  "\x7b\"protocol_version\":1,\"negotiated_abilities\":[\"file.read\",\"file.write\"," ++
    "\"task.exec\",\"system.inspect\"]\x7d"

/-- A round that reaches nobody. -/
def unreachable : PollReplies := ⟨.error "connection refused", .error "connection refused"⟩

/-- A round whose poll fails. -/
def pollLost : PollReplies := ⟨.ok acknowledged, .error "connection reset"⟩

/-- A round that completes, without tasks. -/
def idleRound : PollReplies := ⟨.ok acknowledged, .ok "[]"⟩

/-- A connection that is refused. -/
def refused : Connection := ⟨.error "connection refused", .ok (), []⟩

/-- A session that is lost in its second cycle. -/
def lostLater : Connection :=
  ⟨.ok (), .ok (), [
    ⟨.ok acknowledged, .ok "\x7b\"payload\":[]\x7d", fun _ => .error "closed"⟩,
    ⟨.error "closed", .error "closed", fun _ => .error "closed"⟩]⟩

/-- What the loops make of them. -/
theorem rounds_evaluated :
    pollingRound 2000 pollLost = .ok (.failed 1000, 2000) ∧
      pollingRound 1000 pollLost = .ok (.failed 1000, 2000) ∧
      pollingRound 4000 idleRound = .ok (.completed, 1000) ∧
      websocketSession lostLater = some (.error "closed") ∧ lostLater.fetched = 1 ∧
      refused.fetched = 0 := by
  decide +kernel

/-- What the sessions of the examples show. -/
theorem attempts_evaluated (wait : ℕ) :
    attempts (lostLater, wait) = [.completed, .failed wait] ∧
      attempts (refused, wait) = [.failed wait] := by
  obtain ⟨-, -, -, -, hlater, hrefused⟩ := rounds_evaluated
  rw [attempts, attempts, hlater, hrefused]
  exact ⟨rfl, rfl⟩

/-- Two rounds that reach nobody, one that completes, and one whose poll fails. -/
theorem polling_recovers : Run PollingStep reconnect.base
    [(unreachable, .failed 1000), (unreachable, .failed 2000), (idleRound, .completed),
      (pollLost, .failed 1000)] 2000 := by
  obtain ⟨-, hpoll, hidle, -⟩ := rounds_evaluated
  have hfirst : PollingStep reconnect.base (unreachable, .failed 1000) 2000 := rfl
  have hsecond : PollingStep 2000 (unreachable, .failed 2000) 4000 := rfl
  have hthird : PollingStep 4000 (idleRound, .completed) 1000 := hidle
  have hlast : PollingStep 1000 (pollLost, .failed 1000) 2000 := hpoll
  exact .snoc _ _ _ _ (.snoc _ _ _ _ (.snoc _ _ _ _ (.single hfirst) hsecond) hthird) hlast

/-- A session that is lost in its second cycle, and a connection that is refused. -/
theorem session_lost :
    Run WebsocketStep reconnect.base [(lostLater, 1000), (refused, 2000)] 4000 := by
  obtain ⟨-, -, -, hlost, -⟩ := rounds_evaluated
  have hfirst : WebsocketStep reconnect.base (lostLater, 1000) 2000 := ⟨_, hlost, rfl⟩
  have hlast : WebsocketStep 2000 (refused, 2000) 4000 := ⟨_, rfl, rfl⟩
  exact .snoc _ _ _ _ (.single hfirst) hlast

/-- An agent that keeps to the schedule through failures and recoveries. -/
theorem on_schedule_recovering :
    reconnect.OnSchedule [.failed 1000, .failed 2000, .completed, .failed 1000] ∧
      reconnect.OnSchedule ([(lostLater, 1000), (refused, 2000)].flatMap attempts) := by
  obtain ⟨hpolling, hwebsocket⟩ := on_schedule_iff polling_recovers session_lost
  obtain ⟨-, -, -, -, -, hrefused⟩ := rounds_evaluated
  constructor
  · refine hpolling.mpr ?_
    simp [FailsAgain, PollReplies.Fails, PollReplies.PollFails, unreachable, idleRound, pollLost,
      Except.isOk, Except.toBool]
  · refine hwebsocket.mpr ?_
    simpa using hrefused

/-- A poll that fails after a round that reached nobody is followed by one second again, where two
are due; and a session that has worked by two seconds, where one is due. -/
theorem backoff_off_schedule :
    (Run PollingStep reconnect.base [(unreachable, .failed 1000), (pollLost, .failed 1000)] 2000 ∧
      ¬reconnect.OnSchedule [.failed 1000, .failed 1000]) ∧
    (Run WebsocketStep reconnect.base [(refused, 1000), (lostLater, 2000)] 4000 ∧
      ¬reconnect.OnSchedule ([(refused, 1000), (lostLater, 2000)].flatMap attempts)) := by
  obtain ⟨hpoll, -, -, hlost, -⟩ := rounds_evaluated
  have hnobody : PollingStep reconnect.base (unreachable, .failed 1000) 2000 := rfl
  have hagain : PollingStep 2000 (pollLost, .failed 1000) 2000 := hpoll
  have hrefused : WebsocketStep reconnect.base (refused, 1000) 2000 := ⟨_, rfl, rfl⟩
  have hlater : WebsocketStep 2000 (lostLater, 2000) 4000 := ⟨_, hlost, rfl⟩
  refine ⟨⟨.snoc _ _ _ _ (.single hnobody) hagain, ?_⟩,
    .snoc _ _ _ _ (.single hrefused) hlater, ?_⟩
  · intro h
    have hdelay := h [.failed 1000] [] 1000 rfl
    exact absurd hdelay (by decide)
  · intro h
    rw [List.flatMap_cons, List.flatMap_singleton, (attempts_evaluated 1000).2,
      (attempts_evaluated 2000).1] at h
    have hdelay := h [.failed 1000, .completed] [] 2000 rfl
    exact absurd hdelay (by decide)

end Example

end NodeWe.NodeRuntime
