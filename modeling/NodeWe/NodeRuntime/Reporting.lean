import NodeWe.ControlPlane.Framing
import NodeWe.ControlPlane.Paths
import NodeWe.NodeRuntime.Upload

/-!
# How a result is reported

The agent posts the result of a task, or sends it on its channel. A post is a connection of its own,
which `handle` takes from its first byte to `agent_result`. The channel is one connection, which the
control plane closes when it is silent for `CONNECTION_TIMEOUT`, and it is silent while the agent
executes a task. `upload_answers` says what becomes of a result on either way.
-/

namespace NodeWe.NodeRuntime

open Text Utf8 Wire InPlace ControlPlane

/-! ## The two ways -/

/-- How the agent is connected. -/
inductive Transport
  | polling
  | websocket

/-- What the agent is connected as. -/
structure Agent where
  endpoint : String
  node_id : String
  token : String

/-- What is outside while the loop is at a task: the requests of others up to the upload, the time
that the execution takes, its result, where the upload is handled, and how it is cut into pieces or
masked. -/
structure Turn where
  others : List (State × Env × Arm)
  duration : ℕ
  result : Except String (String × ℤ)
  st : State
  env : Env
  persists : Bool
  cut : (request : List UInt8) → {pieces : List (List UInt8) // PiecesOf 4096 request pieces}
  mask : Vector UInt8 4

/-- The environment of the upload. -/
def Turn.envAt (turn : Turn) (time : ℕ) : Env :=
  { turn.env with now := fun _ => time, persist := fun _ => turn.persists }

/-- The store behind a connection. -/
def storeBehind (store : Store) : Handled → Store
  | .responded _ after => after
  | .upgraded _ _ _ => store

/-- The upload of a result that is there at a time: the store that it leaves behind, and whether the
agent goes on with the next task. There is none where the channel does not take it. -/
def Transport.upload [Serde] [Ed25519] [RingDigest] (agent : Agent) (turn : Turn) (time : ℕ)
    (task : Assignment) (store : Store) : Transport → Option (Store × Bool)
  | polling =>
    let request := postJson agent.endpoint (resultPath task)
      (resultBody agent.node_id task (outcomeOf turn.result)) agent.token
    let handled := handle turn.st (turn.envAt time) store (turn.cut (bytes request)).val
    -- The loop reports a response that is an error, and goes on.
    some (storeBehind store handled, true)
  | websocket =>
    let message := resultMessage agent.node_id task (outcomeOf turn.result)
    match websocketWriteFrame turn.mask 0x1 (bytes message) with
    | .error _ => none
    | .ok frame =>
      (websocketRound turn.st (turn.envAt time) store agent.node_id agent.token turn.duration
        frame).map fun round => (round.store, (awaitText turn.mask round.written).isSome)

/-! ## The post -/

/-- A text without white space and control characters. -/
structure Word (s : String) : Prop where
  nonempty : s ≠ ""
  plain : ∀ c ∈ s.toList, isAsciiControl c = false ∧ isWhitespace c = false

/-- It may be in a line of a header. -/
theorem Word.printable {s : String} (h : Word s) : Printable s := fun c hc => (h.plain c hc).1

/-- The path of a result is such a text. -/
theorem word_resultPath {task : Assignment} (h : Word task.task_id) : Word (resultPath task) := by
  have hliterals : ∀ s ∈ ["/v1/agent/tasks/", "/result"], ∀ c ∈ s.toList,
      isAsciiControl c = false ∧ isWhitespace c = false := by
    have hall : ∀ s ∈ ["/v1/agent/tasks/", "/result"],
        s.toList.all (fun c => !isAsciiControl c && !isWhitespace c) = true := by decide +kernel
    intro s hs c hc
    simpa using List.all_eq_true.mp (hall s hs) c hc
  obtain ⟨hroot, hleaf⟩ := List.forall_mem_cons.mp hliterals
  have hne : resultPath task ≠ "" := by
    unfold resultPath
    rw [Ne, String.append_eq_empty_iff]
    exact fun hempty => absurd hempty.2 (by decide)
  refine ⟨hne, fun c hc => ?_⟩
  unfold resultPath at hc
  rw [String.toList_append, String.toList_append, List.mem_append, List.mem_append] at hc
  rcases hc with (hc | hc) | hc
  · exact hroot c hc
  · exact h.plain c hc
  · exact hleaf _ (List.mem_singleton_self _) c hc

/-- A line whose first character is of no field with a token bears none. -/
theorem bearerOfLine_cons {c : Char} {rest : List Char} (hcolon : c ≠ ':')
    (hblank : isWhitespace c = false)
    (hletter : c.toLower ∉ "authorization".toList.map Char.toLower) :
    bearerOfLine (c :: rest) = none := by
  unfold bearerOfLine
  rw [splitOnce, if_neg hcolon]
  cases splitOnce ':' rest with
  | none => rfl
  | some parts =>
    obtain ⟨name, value⟩ := parts
    -- The name begins with the character, which trimming leaves.
    have hkept : c ∈ trimChars (c :: name) := (mem_trimChars_iff hblank).mpr List.mem_cons_self
    have hother : eqIgnoreAsciiCase (trimChars (c :: name)) "authorization".toList = false := by
      rw [Bool.eq_false_iff]
      intro hsame
      unfold eqIgnoreAsciiCase at hsame
      rw [← beq_iff_eq.mp hsame] at hletter
      exact hletter (List.mem_map_of_mem hkept)
    rw [Option.map_some]
    dsimp only
    rw [hother, if_neg Bool.false_ne_true]

/-- A line with a token bears it. -/
theorem bearerOfLine_token {token : String} (h : Word token) :
    bearerOfLine ("Authorization: Bearer " ++ token).toList = some token := by
  have hname : ':' ∉ "Authorization".toList ∧
      eqIgnoreAsciiCase (trimChars "Authorization".toList) "authorization".toList = true := by
    decide +kernel
  have hline : ("Authorization: Bearer " ++ token).toList =
      "Authorization".toList ++ ':' :: ' ' :: ("Bearer " ++ token).toList := by
    rw [String.toList_append, String.toList_append]
    rfl
  have htrim : trim (String.ofList (' ' :: ("Bearer " ++ token).toList)) = "Bearer " ++ token := by
    have hne : token.toList ≠ [] := fun hempty => h.nonempty (String.toList_eq_nil_iff.mp hempty)
    rw [trim, String.toList_ofList, trimChars_blank_of_ends, String.ofList_toList]
    · rw [String.toList_append]
      intro c hc
      obtain rfl : 'B' = c := Option.some.inj hc
      decide
    · rw [String.toList_append, List.getLast?_append_of_ne_nil _ hne]
      exact fun c hc => (h.plain c (List.mem_of_mem_getLast? hc)).2
  have hstrip : stripPrefix ("Bearer " ++ token) "Bearer " = some token := by
    rw [stripPrefix, startsWith_append, if_pos rfl, String.toList_append, ← String.length_toList,
      List.drop_left, String.ofList_toList]
  have hkept : trim token = token := by
    rw [trim, trimChars_of_forall fun c hc => (h.plain c hc).2, String.ofList_toList]
  rw [hline, bearerOfLine, splitOnce_cons hname.1]
  dsimp only
  rw [hname.2, if_pos rfl, htrim, hstrip, Option.map_some, hkept]

/-- `esc` leaves no control character. -/
theorem printable_escChar (c : Char) : ∀ d ∈ escChar c, isAsciiControl d = false := by
  have hdigits : ∀ n < 16, isAsciiControl n.digitChar = false := by decide
  have hletters : ['\\', '"', 'n', 'r', 't', 'u', '0'].map isAsciiControl =
      List.replicate 7 false := by decide
  simp only [List.map_cons, List.map_nil, List.replicate, List.cons.injEq, and_true] at hletters
  obtain ⟨hslash, hquote, hn, hr, ht, hu, hzero⟩ := hletters
  have hescape {d : Char} (hd : isAsciiControl d = false) :
      ∀ e ∈ ['\\', d], isAsciiControl e = false :=
    List.forall_mem_cons.mpr ⟨hslash, List.forall_mem_singleton.mpr hd⟩
  unfold escChar
  split_ifs with _ _ _ _ _ hcontrol
  · exact hescape hquote
  · exact hescape hslash
  · exact hescape hn
  · exact hescape hr
  · exact hescape ht
  · -- A control character is below U+00A0, so that both digits are hexadecimal.
    have hhigh : c.toNat / 16 < 16 := by
      unfold isControl at hcontrol
      simp only [Bool.or_eq_true, Bool.and_eq_true, decide_eq_true_eq] at hcontrol
      omega
    have hlow : c.toNat % 16 < 16 := Nat.mod_lt _ (by omega)
    simp only [List.forall_mem_cons, List.not_mem_nil, false_imp_iff, implies_true, and_true]
    exact ⟨hslash, hu, hzero, hzero, hdigits _ hhigh, hdigits _ hlow⟩
  · rw [List.forall_mem_singleton]
    simp only [Bool.not_eq_true, isControl, isAsciiControl, Bool.or_eq_false_iff,
      Bool.and_eq_false_iff, decide_eq_false_iff_not, beq_eq_false_iff_ne] at hcontrol ⊢
    omega

/-- The body of a post is one line. -/
theorem printable_resultBody [RingDigest] (node_id : String) (task : Assignment)
    (result : Except String (String × ℤ)) :
    Printable (resultBody node_id task (outcomeOf result)) := by
  have hquoted (value : String) : Printable (esc value) := by
    intro c hc
    rw [esc, String.toList_ofList, List.mem_flatMap] at hc
    obtain ⟨d, -, hc⟩ := hc
    exact printable_escChar d c hc
  have hplain {s : String} (h : Unescaped s) : Printable s := by
    intro c hc
    refine printable_escChar c c ?_
    rw [h c hc]
    exact List.mem_singleton_self c
  have hliterals : ∀ s ∈ ["\"", "\":\"", "\":", "\"\x7d", "\x7b", ",", "node_id", "request_id",
      "lease_token", "output", "\"state\":\"", "\",", ",\"output_sha256\":\"",
      "\",\"exit_code\":\""], Printable s := by
    have hall : ∀ s ∈ ["\"", "\":\"", "\":", "\"\x7d", "\x7b", ",", "node_id", "request_id",
        "lease_token", "output", "\"state\":\"", "\",", ",\"output_sha256\":\"",
        "\",\"exit_code\":\""], s.toList.all (fun c => !isAsciiControl c) = true := by
      decide +kernel
    exact fun s hs => printable_of_decide (hall s hs)
  simp only [List.forall_mem_cons, List.not_mem_nil, false_imp_iff, implies_true,
    and_true] at hliterals
  have hstate := hplain (unescaped_outcomeOf result)
  have hhash : Printable (sha256Hex (bytes (outcomeOf result).output)) :=
    hplain (unescaped_hexEncodeBytes _)
  have hcode := hplain (unescaped_repr (outcomeOf result).exit_code)
  unfold resultBody outcomeMembers
  simp only [member_eq, quoted, printable_append, hquoted, hliterals, hstate, hhash, hcode, and_self]

/-- A text of one line has no blank line. -/
theorem not_blankLine_of_printable {text : String} (h : Printable text) :
    ¬blankLine <:+: text.toList := by
  rintro ⟨front, rest, htext⟩
  have hmem : '\r' ∈ text.toList := by
    rw [← htext]
    simp [blankLine]
  exact absurd (h _ hmem) (by decide)

section Post

variable {endpoint path body token : String}

/-- The header of a post presents its token. -/
theorem presentedIn_postLines (hendpoint : Printable endpoint) (hpath : Printable path)
    (htoken : Word token) :
    presentedIn ("\r\n".intercalate (postLines endpoint path body token)) = token := by
  have hlines := @headerLine_postLines endpoint path body token hendpoint hpath htoken.printable
  -- Neither the first line nor the one of the host bears a token.
  have hfirst : ("POST " ++ path ++ " HTTP/1.1").toList =
      'P' :: ("OST ".toList ++ path.toList ++ " HTTP/1.1".toList) := by
    rw [String.toList_append, String.toList_append]
    rfl
  have hhost : bearerOfLine ("Host: " ++ endpoint).toList = none := by
    have hname : ':' ∉ "Host".toList ∧
        eqIgnoreAsciiCase (trimChars "Host".toList) "authorization".toList = false := by
      decide +kernel
    have hline : ("Host: " ++ endpoint).toList =
        "Host".toList ++ ':' :: ' ' :: endpoint.toList := by
      rw [String.toList_append]
      rfl
    rw [hline, bearerOfLine, splitOnce_cons hname.1]
    dsimp only
    rw [hname.2, if_neg Bool.false_ne_true]
  rw [presentedIn, lines_headerLines hlines (List.cons_ne_nil _ _)]
  unfold postLines
  rw [List.map_cons, List.map_cons, List.map_cons, List.findSome?_cons, hfirst,
    bearerOfLine_cons (by decide) (by decide) (by decide), List.findSome?_cons, hhost,
    List.findSome?_cons, bearerOfLine_token htoken]
  rfl

/-- **A post arrives as it is meant**: with its method, path, body and token, however it is cut. -/
theorem receivedFrom_postJson (hendpoint : Printable endpoint) (hpath : Word path)
    (htoken : Word token) (hbody : Printable body) (hlength : len body ≤ u64Max)
    (hsize : len (postJson endpoint path body token) ≤ maxRequestBytes)
    {pieces : List (List UInt8)}
    (hpieces : PiecesOf 4096 (bytes (postJson endpoint path body token)) pieces) :
    receivedFrom pieces =
      .ok ⟨"\r\n".intercalate (postLines endpoint path body token), "POST", path, body, token⟩ := by
  have hlines := @headerLine_postLines endpoint path body token hendpoint hpath.printable
    htoken.printable
  have hmethod : "POST" ≠ "" ∧ ∀ c ∈ "POST".toList, isWhitespace c = false := by
    have hall : "POST".toList.all (fun c => !isWhitespace c) = true := by decide +kernel
    exact ⟨by decide, fun c hc => by simpa using List.all_eq_true.mp hall c hc⟩
  have hfirst : "POST " ++ path ++ " HTTP/1.1" = "POST" ++ " " ++ path ++ " " ++ "HTTP/1.1" := by
    have hliterals : "POST " = "POST" ++ " " ∧ " HTTP/1.1" = " " ++ "HTTP/1.1" := by decide
    rw [hliterals.1, hliterals.2]
    simp only [String.append_assoc, -String.reduceAppend]
  have hhead : RequestHead ("\r\n".intercalate (postLines endpoint path body token)) "POST"
      path := by
    unfold postLines at hlines ⊢
    rw [hfirst] at hlines ⊢
    exact RequestHead.of_lines "POST" path "HTTP/1.1" _ hlines hmethod
      ⟨hpath.nonempty, fun c hc => (hpath.plain c hc).2⟩
  have hannounced : requestContentLength ("\r\n".intercalate (postLines endpoint path body token)) =
      .ok (len body) := by
    rw [requestContentLength, lines_headerLines hlines (List.cons_ne_nil _ _)]
    exact contentLengthOf_postLines hendpoint htoken.printable hlength
  rw [postJson_eq] at hsize hpieces
  have hreceived := hhead.receivedFrom hannounced hsize hpieces
  rwa [(hhead.body_eq_iff body).mpr (not_blankLine_of_printable hbody),
    presentedIn_postLines hendpoint hpath.printable htoken,
    if_neg htoken.nonempty] at hreceived

end Post

/-! ## The task -/

/-- The search for a task of a node. -/
def named (node_id id : String) (task : Task) : Bool := task.id == id && task.node_id == node_id

/-- What it looks for. -/
theorem named_iff {node_id id : String} {task : Task} :
    named node_id id task = true ↔ task.id = id ∧ task.node_id = node_id := by
  rw [named, Bool.and_eq_true, beq_iff_eq, beq_iff_eq]

/-- A task as a poll hands it out. -/
structure HandedOut (task : Task) : Prop where
  dispatched : task.state = "dispatched"
  token : task.lease_token ≠ ""
  request_id : validNodeId task.request_id = true
  id : Word task.id
  one_segment : '/' ∉ task.id.toList

/-- The upload of a result. -/
def Turn.upload (turn : Turn) (node_id : String) (task : Task) : ResultUpload :=
  uploadOf (resultPath (assignment task)) node_id (assignment task) (outcomeOf turn.result)

/-- The task that the control plane makes of a result. -/
def Turn.reported (turn : Turn) (node_id : String) (task : Task) : Task :=
  completed task (turn.upload node_id task)

/-- It has ended. -/
theorem terminal_reported (turn : Turn) (node_id : String) (task : Task) :
    (turn.reported node_id task).state ∈ terminalStates := by
  show (outcomeOf turn.result).state ∈ terminalStates
  rcases turn.result with error | ⟨output, code⟩
  · show "failed" ∈ terminalStates
    decide
  · unfold outcomeOf
    dsimp only
    split_ifs <;> decide

/-- It is found as before. -/
theorem named_reported {turn : Turn} {node_id node_id' id : String} {task : Task} :
    named node_id' id (turn.reported node_id task) = named node_id' id task := rfl

/-- The agent is admitted: its node is there and has its credential. -/
def Agent.Admitted (agent : Agent) (store : Store) : Prop :=
  ∃ node ∈ store.nodes, node.id = agent.node_id ∧ node.credential = agent.token ∧
    node.revoked = false

/-- The result comes to the control plane: it is within the limits of its way, and the channel has
not been silent for too long. -/
def Transport.Delivers (agent : Agent) (task : Task) (turn : Turn) : Transport → Prop
  | polling => postSize agent.endpoint agent.token agent.node_id (assignment task)
      (outcomeOf turn.result) ≤ maxRequestBytes
  | websocket => turn.duration < connectionTimeout ∧
      messageSize agent.node_id (assignment task) (outcomeOf turn.result) ≤ 1024 * 1024

/-- The bytes of the acknowledgement of a result. -/
def ackSize (node_id : String) (task : Task) (outcome : Outcome) : ℕ :=
  let limit := min task.output_limit maxPersistedOutputBytes
  envelopeSize node_id task.request_id "task.result.ack" + 316 + ([task.id, task.request_id,
      task.actor, task.node_id, task.ability, outcome.state, task.idempotency_key, task.program,
      task.argument, truncateUtf8 outcome.output limit, task.lease_token].map escapedLen).sum +
    len (boolText (decide (len outcome.output > limit))) + len task.output_limit.repr +
    len (((parseI32 outcome.exit_code.repr.toList).map Int.repr).getD "null") +
    len task.lease_until.repr + len task.timeout_ms.repr

/-- The agent goes on after a result that is recorded: its acknowledgement is within the limit of
the channel. -/
def Transport.GoesOn (agent : Agent) (task : Task) (turn : Turn) : Transport → Prop
  | polling => True
  | websocket => ackSize agent.node_id task (outcomeOf turn.result) ≤ 1024 * 1024

/-- What becomes of a result: it is recorded, or refused, or does not come to the control plane. -/
inductive Answers (transport : Transport) (agent : Agent) (task : Task) (turn : Turn) (time : ℕ)
    (store : Store) : Option (Store × Bool) → Prop
  | recorded (new : Store) (goes_on : Bool) (htime : time ≤ task.lease_until)
      (hpersists : turn.persists = true) (hdelivers : transport.Delivers agent task turn)
      (hgoes : goes_on = true ↔ transport.GoesOn agent task turn)
      (htasks : new.tasks = setFirst (named agent.node_id task.id)
        (turn.reported agent.node_id task) store.tasks)
      (hnodes : new.nodes = store.nodes) :
      Answers transport agent task turn time store (some (new, goes_on))
  | refused (goes_on : Bool)
      (hover : ¬(time ≤ task.lease_until ∧ turn.persists = true ∧
        transport.Delivers agent task turn)) :
      Answers transport agent task turn time store (some (store, goes_on))
  | lost (hover : ¬transport.Delivers agent task turn) :
      Answers transport agent task turn time store none

section Uploads

variable [RingDigest] [LawfulRingDigest] {agent : Agent} {task : Task} {turn : Turn} {store : Store}
  {time : ℕ}

omit [LawfulRingDigest] [RingDigest] in
/-- An acknowledgement takes its size. -/
theorem len_ack : len (websocketEnvelope agent.node_id task.request_id "task.result.ack"
    (messagePayload ⟨.ok, .task (turn.reported agent.node_id task)⟩)) =
      ackSize agent.node_id task (outcomeOf turn.result) := by
  have hhash : escapedLen (digest (outcomeOf turn.result).output) = 64 := by
    rw [digest, escapedLen_hexEncodeBytes, length_sha256]
  have hpayload : messagePayload ⟨.ok, .task (turn.reported agent.node_id task)⟩ =
      taskJson (turn.reported agent.node_id task) :=
    if_pos (show Status.isSuccess .ok = true by decide)
  have htruncated : (turn.reported agent.node_id task).output_truncated =
      decide (len (outcomeOf turn.result).output >
        min task.output_limit maxPersistedOutputBytes) := rfl
  rw [len_websocketEnvelope, hpayload, len_taskJson, ackSize, htruncated]
  simp only [Turn.reported, Turn.upload, uploadOf, completed, List.map_cons, List.map_nil,
    List.sum_cons, List.sum_nil, hhash]
  omega

variable [Serde] [Rfc8259]

/-- A result of a task that was handed out is recorded as long as the lease is not over and the
backend persists it. -/
theorem agentResult_handedOut (turn : Turn) (time : ℕ) (h : HandedOut task)
    (hfound : store.tasks.find? (named agent.node_id task.id) = some task) {text : String}
    (htext : text ∈ [resultBody agent.node_id (assignment task) (outcomeOf turn.result),
      resultMessage agent.node_id (assignment task) (outcomeOf turn.result)]) :
    (time ≤ task.lease_until ∧ turn.persists = true ∧ ∃ new,
      agentResult turn.st (turn.envAt time) (resultPath (assignment task)) text store =
          (⟨.ok, .task (turn.reported agent.node_id task)⟩, new) ∧
        new.tasks = setFirst (named agent.node_id task.id) (turn.reported agent.node_id task)
          store.tasks ∧ new.nodes = store.nodes) ∨
    ¬(time ≤ task.lease_until ∧ turn.persists = true) ∧ ∃ response,
      agentResult turn.st (turn.envAt time) (resultPath (assignment task)) text store =
        (response, store) := by
  have hparsed := (parseResultUpload_result (resultPath (assignment task)) agent.node_id
    (assignment task) turn.result htext).2
  have hid : resultTaskId (resultPath (assignment task)) = task.id :=
    trim_root_leaf (by decide) (by decide) h.one_segment
  rw [if_pos (show validNodeId (assignment task).request_id = true from h.request_id)] at hparsed
  have htarget : uploadTarget (turn.upload agent.node_id task) = named agent.node_id task.id := by
    unfold uploadTarget named Turn.upload uploadOf
    rw [hid]
  have hterminal : (turn.upload agent.node_id task).state ∈ terminalStates :=
    terminal_reported turn agent.node_id task
  -- The request and the token are the assignment's own, so that only the lease is left to refuse.
  have hrefusal : refusedResult (turn.envAt time) task (turn.upload agent.node_id task) =
      if task.lease_until < time then some (failure .conflict "task_expired") else none := by
    have hrequest : (turn.upload agent.node_id task).request_id = some task.request_id := rfl
    have htoken : (turn.upload agent.node_id task).lease_token = task.lease_token := rfl
    have hnow : (turn.envAt time).now .result = time := rfl
    unfold refusedResult
    rw [hrequest, htoken, hnow]
    simp [h.dispatched, h.token, constantTimeEq_iff.mpr, hterminal]
  have hupload : parseResultUpload (resultPath (assignment task)) text =
      .ok (turn.upload agent.node_id task) := hparsed
  unfold agentResult
  rw [hupload]
  dsimp only
  rw [htarget, hfound]
  dsimp only
  rw [hrefusal]
  by_cases hlate : task.lease_until < time
  · rw [if_pos hlate]
    exact .inr ⟨by omega, _, rfl⟩
  · rw [if_neg hlate]
    dsimp only
    unfold persistOrRollback
    have hpersist (new : Store) : (turn.envAt time).persist new = turn.persists := rfl
    rw [hpersist]
    by_cases hpersists : turn.persists = true
    · rw [if_pos hpersists]
      exact .inl ⟨by omega, hpersists, _, rfl, rfl, rfl⟩
    · rw [if_neg hpersists]
      exact .inr ⟨fun h => hpersists h.2, _, rfl⟩

variable [Ed25519]

/-- A post within the limit is handled as a result. Any other one changes nothing. -/
theorem handle_post (turn : Turn) (time : ℕ) (h : HandedOut task)
    (hendpoint : Printable agent.endpoint) (htoken : Word agent.token)
    (hadmitted : agent.Admitted store)
    (hsize : postSize agent.endpoint agent.token agent.node_id (assignment task)
      (outcomeOf turn.result) < 2^64) :
    storeBehind store (handle turn.st (turn.envAt time) store (turn.cut (bytes (postJson
        agent.endpoint (resultPath (assignment task)) (resultBody agent.node_id (assignment task)
          (outcomeOf turn.result)) agent.token))).val) =
      if postSize agent.endpoint agent.token agent.node_id (assignment task)
          (outcomeOf turn.result) ≤ maxRequestBytes then
        (agentResult turn.st (turn.envAt time) (resultPath (assignment task))
          (resultBody agent.node_id (assignment task) (outcomeOf turn.result)) store).2
      else store := by
  have hword : Word (assignment task).task_id := h.id
  have hpieces := (turn.cut (bytes (postJson agent.endpoint (resultPath (assignment task))
    (resultBody agent.node_id (assignment task) (outcomeOf turn.result)) agent.token))).property
  have hlen := @len_postJson _ _ agent.node_id (assignment task) (outcomeOf turn.result)
    agent.endpoint agent.token
  by_cases hdelivers : postSize agent.endpoint agent.token agent.node_id (assignment task)
    (outcomeOf turn.result) ≤ maxRequestBytes
  · rw [if_pos hdelivers]
    have hbody := printable_resultBody agent.node_id (assignment task) turn.result
    have hlimit : len (postJson agent.endpoint (resultPath (assignment task))
        (resultBody agent.node_id (assignment task) (outcomeOf turn.result)) agent.token) ≤
          maxRequestBytes := by
      rwa [hlen]
    have hlength : len (resultBody agent.node_id (assignment task) (outcomeOf turn.result)) ≤
        u64Max := by
      rw [len_resultBody]
      unfold postSize at hsize
      unfold u64Max
      omega
    have hreceived := receivedFrom_postJson hendpoint (word_resultPath hword) htoken hbody hlength
      hlimit hpieces
    -- Whoever has the credential may report, an administrator included.
    have hnode : jsonField (resultBody agent.node_id (assignment task) (outcomeOf turn.result))
        "node_id" = some agent.node_id := by
      obtain ⟨hdenotes, hbounded⟩ := denotes_resultBody agent.node_id (assignment task) turn.result
      rw [jsonField_denotes hdenotes hbounded]
      rfl
    obtain ⟨node, hmem, hid, hcredential, hlive⟩ := hadmitted
    have hpresented : namedNode (resultPath (assignment task)) (resultBody agent.node_id
        (assignment task) (outcomeOf turn.result)) = some node.id := by
      rw [namedNode, hnode, hid]
      rfl
    have hcredentialed : credentialAuthorized store (resultPath (assignment task))
        (resultBody agent.node_id (assignment task) (outcomeOf turn.result)) agent.token = true :=
      credentialAuthorized_iff.mpr ⟨node, hmem, hpresented, hcredential, hlive⟩
    have hauthorized : (authenticateRequest turn.st (turn.envAt time) store
        (resultPath (assignment task)) (resultBody agent.node_id (assignment task)
          (outcomeOf turn.result)) agent.token).authorized = true := by
      unfold authenticateRequest
      split_ifs
      · rfl
      · rfl
    have hrouted := RecordOperation.routedArm_path .agentResult task.id
      (resultBody agent.node_id (assignment task) (outcomeOf turn.result)) true
    rw [handle_served _ _ _ hreceived rfl]
    unfold serve routeWithActor
    dsimp only
    rw [hauthorized]
    exact congrArg (fun arm : Arm => (arm.run turn.st (turn.envAt time) store).2) (hrouted _ _)
  · rw [if_neg hdelivers]
    have hread := readRequest_postJson hendpoint htoken.printable hword.printable hsize hpieces
    rw [if_neg hdelivers] at hread
    unfold handle receivedFrom
    rw [hread]
    rfl

omit [LawfulRingDigest] [Ed25519] in
/-- The message of a result is handled as a result. -/
theorem messageCall_resultMessage (h : HandedOut task) (hadmitted : agent.Admitted store) :
    messageCall turn.st (turn.envAt time) store
        (resultMessage agent.node_id (assignment task) (outcomeOf turn.result)) agent.node_id
        agent.token =
      .ok ⟨task.request_id, .agentResult (resultPath (assignment task))
        (resultMessage agent.node_id (assignment task) (outcomeOf turn.result)),
        "task.result.ack"⟩ := by
  obtain ⟨hdenotes, hbounded⟩ := denotes_resultMessage agent.node_id (assignment task) turn.result
  have hfields : ∀ m ∈ [("node_id", agent.node_id), ("request_id", task.request_id),
      ("type", "task.result"), ("task_id", task.id)],
      jsonField (resultMessage agent.node_id (assignment task) (outcomeOf turn.result)) m.1 =
        some m.2 := by
    have hget : ∀ m ∈ [("node_id", agent.node_id), ("request_id", task.request_id),
        ("type", "task.result"), ("task_id", task.id)],
        (Value.object (messageMembers agent.node_id (assignment task)
          (outcomeOf turn.result))).get m.1 = some (.string m.2) := by
      simp only [List.forall_mem_cons]
      exact ⟨rfl, rfl, rfl, rfl, List.forall_mem_nil _⟩
    intro m hm
    rw [jsonField_denotes hdenotes hbounded, hget m hm]
    rfl
  simp only [List.forall_mem_cons] at hfields
  obtain ⟨hnode, hrequest, htype, htask, -⟩ := hfields
  obtain ⟨node, hmem, hid, hcredential, hlive⟩ := hadmitted
  have hcredentialed : credentialAuthorized store
      (resultMessage agent.node_id (assignment task) (outcomeOf turn.result))
      (resultMessage agent.node_id (assignment task) (outcomeOf turn.result)) agent.token =
        true := by
    refine credentialAuthorized_iff.mpr ⟨node, hmem, ?_, hcredential, hlive⟩
    rw [namedNode, hnode, hid]
    rfl
  have hpath : resultPath (assignment task) = "/v1/agent/tasks/" ++ task.id ++ "/result" := rfl
  unfold messageCall
  rw [hnode, hrequest, htype, htask, hcredentialed]
  simp [h.request_id, hpath]

omit [Serde] [Rfc8259] [Ed25519] [RingDigest] [LawfulRingDigest] in
/-- A text is taken back from a round exactly when it is within the limit of a frame. -/
theorem awaitText_write (mask : Vector UInt8 4) (text : String) (stays : Bool) :
    (awaitText mask (Round.write 0x1 (bytes text) stays store).written).isSome = true ↔
      len text ≤ 1024 * 1024 := by
  have harrives := @frame_arrives_iff none (fun m hm => by cases hm) (bytes text)
  rw [← len_eq_length] at harrives
  unfold Round.write ControlPlane.websocketWriteFrame
  constructor
  · intro hsome
    refine harrives.mp ?_
    cases hwrite : writeFrame none 0x1 (bytes text) with
    | error error =>
      rw [hwrite, awaitText_nil] at hsome
      cases hsome
    | ok frame =>
      exact ⟨frame, rfl, readFrame_writeFrame (fun m hm => by cases hm) (by decide) hwrite⟩
  · intro hlimit
    obtain ⟨frame, hwrite, hread⟩ := harrives.mpr hlimit
    rw [hwrite]
    have hreadback : NodeRuntime.websocketReadFrame frame = .ok (some (0x1, bytes text), []) := by
      have h := hread []
      rwa [List.append_nil] at h
    rw [awaitText_eq hreadback]
    rfl

omit [Serde] [Rfc8259] [Ed25519] [RingDigest] [LawfulRingDigest] in
/-- A round keeps the store that it is given. -/
theorem store_write (opcode : UInt8) (payload : List UInt8) (stays : Bool) :
    (Round.write opcode payload stays store).store = store := by
  unfold Round.write
  cases ControlPlane.websocketWriteFrame opcode payload <;> rfl

/-- **What becomes of a result.** It is recorded exactly when it comes to the control plane before
the lease of its task is over, and the backend persists it. -/
theorem upload_answers (transport : Transport) (turn : Turn) (time : ℕ) (h : HandedOut task)
    (hfound : store.tasks.find? (named agent.node_id task.id) = some task)
    (hadmitted : agent.Admitted store) (hendpoint : Printable agent.endpoint)
    (htoken : Word agent.token)
    (hsize : postSize agent.endpoint agent.token agent.node_id (assignment task)
      (outcomeOf turn.result) < 2^64) :
    Answers transport agent task turn time store
      (transport.upload agent turn time (assignment task) store) := by
  cases transport with
  | polling =>
    -- A post is a connection of its own, so that the loop goes on whatever it is answered.
    have hstored := handle_post turn time h hendpoint htoken hadmitted hsize
    unfold Transport.upload
    dsimp only
    rw [hstored]
    by_cases hdelivers : postSize agent.endpoint agent.token agent.node_id (assignment task)
      (outcomeOf turn.result) ≤ maxRequestBytes
    · rw [if_pos hdelivers]
      rcases agentResult_handedOut turn time h hfound List.mem_cons_self with
        ⟨htime, hpersists, new, hanswer, htasks, hnodes⟩ | ⟨hover, response, hanswer⟩
      · rw [hanswer]
        exact .recorded new true htime hpersists hdelivers (iff_of_true rfl trivial) htasks hnodes
      · rw [hanswer]
        exact .refused true fun hall => hover ⟨hall.1, hall.2.1⟩
    · rw [if_neg hdelivers]
      exact .refused true fun hall => hdelivers hall.2.2
  | websocket =>
    have hmask : ∀ m ∈ some turn.mask.toList, m.length = 4 := by
      intro m hm
      rw [← Option.some.inj hm]
      exact turn.mask.length_toList
    have harrives := @frame_arrives_iff _ hmask (bytes (resultMessage agent.node_id
      (assignment task) (outcomeOf turn.result)))
    rw [← len_eq_length, len_resultMessage] at harrives
    unfold Transport.upload
    dsimp only
    cases hwrite : NodeRuntime.websocketWriteFrame turn.mask 0x1 (bytes (resultMessage agent.node_id
      (assignment task) (outcomeOf turn.result))) with
    | error error =>
      refine .lost fun hdelivers => ?_
      obtain ⟨frame, hframe, -⟩ := harrives.mpr hdelivers.2
      rw [NodeRuntime.websocketWriteFrame, hframe] at hwrite
      cases hwrite
    | ok frame =>
      have hback := readFrame_writeFrame hmask (by decide) hwrite
      have hread : ControlPlane.websocketReadFrame frame = .ok (some (0x1, bytes (resultMessage
          agent.node_id (assignment task) (outcomeOf turn.result))), []) := by
        have hframe := hback []
        rwa [List.append_nil] at hframe
      have hsmall := harrives.mp ⟨frame, hwrite, hback⟩
      dsimp only
      -- The message is read unless the channel was closed while the agent was at the task.
      by_cases hsilent : turn.duration < connectionTimeout
      · have hdelivers : Transport.websocket.Delivers agent task turn := ⟨hsilent, hsmall⟩
        rw [websocketRound_message _ _ _ _ _ hsilent hread, websocketMessage,
          messageCall_resultMessage h hadmitted, Option.map_some]
        dsimp only
        rw [store_write]
        rcases agentResult_handedOut turn time h hfound
            (List.mem_cons_of_mem _ List.mem_cons_self) with
          ⟨htime, hpersists, new, hanswer, htasks, hnodes⟩ | ⟨hover, response, hanswer⟩
        · rw [Arm.run, hanswer]
          refine .recorded new _ htime hpersists hdelivers ?_ htasks hnodes
          rw [awaitText_write, len_ack]
          rfl
        · rw [Arm.run, hanswer]
          exact .refused _ fun hall => hover ⟨hall.1, hall.2.1⟩
      · rw [websocketRound, if_pos (Nat.not_lt.mp hsilent)]
        exact .lost fun hdelivers => hsilent hdelivers.1

end Uploads

end NodeWe.NodeRuntime
