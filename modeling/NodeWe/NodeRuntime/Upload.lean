import NodeWe.ControlPlane.Approvable
import NodeWe.ControlPlane.Intake
import NodeWe.ControlPlane.Delivery
import NodeWe.NodeRuntime.Exchange

/-!
# Results on their way

The agent posts a result or sends it in a frame. The text takes what the fields take after they are
escaped, and the output is most of it: the task limits it to 1 MiB before it is escaped. It arrives
exactly when the whole request is within the 64 KiB of `handle`, or the whole message within the
1 MiB of a frame.
-/

namespace NodeWe.NodeRuntime

open Text Wire ControlPlane

/-! ## Sizes -/

/-- The bytes of the members of an outcome. -/
def outcomeSize (outcome : Outcome) : ℕ :=
  121 + len outcome.state + escapedLen outcome.output + len outcome.exit_code.repr

/-- The bytes of the body of a result. -/
def bodySize (node_id : String) (task : Assignment) (outcome : Outcome) : ℕ :=
  47 + escapedLen node_id + escapedLen task.request_id + escapedLen task.lease_token +
    outcomeSize outcome

/-- The bytes of the request that posts a result. -/
def postSize (endpoint token node_id : String) (task : Assignment) (outcome : Outcome) : ℕ :=
  142 + len task.task_id + len endpoint + len token + len (bodySize node_id task outcome).repr +
    bodySize node_id task outcome

/-- The bytes of the message that sends a result. -/
def messageSize (node_id : String) (task : Assignment) (outcome : Outcome) : ℕ :=
  126 + escapedLen node_id + escapedLen task.request_id + escapedLen task.task_id +
    escapedLen task.lease_token + outcomeSize outcome

section Sizes

variable [RingDigest] [LawfulRingDigest] (node_id : String) (task : Assignment) (outcome : Outcome)

omit [RingDigest] [LawfulRingDigest] in
/-- A member takes its name and its escaped value. -/
theorem len_member (name value : String) : len (member name value) = len name + escapedLen value + 5 := by
  have hmarks : len "\"" = 1 ∧ len "\":" = 2 := ⟨rfl, rfl⟩
  rw [member_eq, len_append, len_append, len_append, len_quoted, hmarks.1, hmarks.2]
  omega

/-- The members of an outcome take their size. -/
theorem len_outcomeMembers : len (outcomeMembers outcome) = outcomeSize outcome := by
  have hhash : len (sha256Hex (bytes outcome.output)) = 64 := by
    rw [sha256Hex, LawfulRingDigest.digests]
    exact (digest_checked outcome.output).1
  have htexts : (["\"state\":\"", "\",", "output", ",\"output_sha256\":\"", "\",\"exit_code\":\"",
      "\"\x7d"].map len).sum = 52 := rfl
  unfold outcomeMembers outcomeSize
  simp only [len_append, len_member, hhash, List.map_cons, List.map_nil, List.sum_cons,
    List.sum_nil] at htexts ⊢
  omega

/-- A body takes its size. -/
theorem len_resultBody : len (resultBody node_id task outcome) = bodySize node_id task outcome := by
  have htexts : (["\x7b", "node_id", ",", "request_id", ",", "lease_token", ","].map len).sum = 32 :=
    rfl
  unfold resultBody bodySize
  simp only [len_append, len_member, len_outcomeMembers, List.map_cons, List.map_nil,
    List.sum_cons, List.sum_nil] at htexts ⊢
  omega

/-- A message takes its size. -/
theorem len_resultMessage :
    len (resultMessage node_id task outcome) = messageSize node_id task outcome := by
  have htexts : (["\x7b\"protocol_version\":1,\"agent_version\":\"", version, "\",", "node_id", ",",
      "request_id", ",\"type\":\"task.result\",", "task_id", ",", "lease_token", ","].map
        len).sum = 106 := rfl
  unfold resultMessage messageSize
  simp only [len_append, len_member, len_outcomeMembers, List.map_cons, List.map_nil,
    List.sum_cons, List.sum_nil] at htexts ⊢
  omega

/-- A request takes its size. -/
theorem len_postJson (endpoint token : String) :
    len (postJson endpoint (resultPath task) (resultBody node_id task outcome) token) =
      postSize endpoint token node_id task outcome := by
  have htexts : (["POST ", "/v1/agent/tasks/", "/result", " HTTP/1.1\r\nHost: ",
      "\r\nAuthorization: Bearer ", "\r\nContent-Type: application/json\r\nContent-Length: ",
      "\r\nConnection: close\r\n\r\n"].map len).sum = 142 := rfl
  unfold postJson resultPath postSize
  simp only [len_append, len_resultBody, List.map_cons, List.map_nil, List.sum_cons,
    List.sum_nil] at htexts ⊢
  omega

end Sizes

/-! ## The request -/

/-- The lines of the header of `post_json`. -/
def postLines (endpoint path body token : String) : List String :=
  ["POST " ++ path ++ " HTTP/1.1", "Host: " ++ endpoint, "Authorization: Bearer " ++ token,
    "Content-Type: application/json", "Content-Length: " ++ (len body).repr, "Connection: close"]

/-- The request is its header, a blank line, and its body. -/
theorem postJson_eq (endpoint path body token : String) :
    postJson endpoint path body token =
      "\r\n".intercalate (postLines endpoint path body token) ++ "\r\n\r\n" ++ body := by
  -- The literals of the source run from one line into the next.
  have hhost : " HTTP/1.1\r\nHost: " = " HTTP/1.1" ++ "\r\n" ++ "Host: " := by decide
  have hauthorization : "\r\nAuthorization: Bearer " = "\r\n" ++ "Authorization: Bearer " := by
    decide
  have hlength : "\r\nContent-Type: application/json\r\nContent-Length: " =
      "\r\n" ++ "Content-Type: application/json" ++ "\r\n" ++ "Content-Length: " := by decide
  have hclose : "\r\nConnection: close\r\n\r\n" =
      "\r\n" ++ "Connection: close" ++ "\r\n\r\n" := by decide
  unfold postJson postLines
  simp only [hhost, hauthorization, hlength, hclose, String.intercalate_cons_cons,
    String.intercalate_singleton, String.append_assoc, -String.reduceAppend]

/-- A text that a line of a header may have. -/
def Printable (s : String) : Prop := ∀ c ∈ s.toList, isAsciiControl c = false

/-- Texts in a row are one when each of them is. -/
theorem printable_append {s t : String} : Printable (s ++ t) ↔ Printable s ∧ Printable t := by
  unfold Printable
  rw [String.toList_append, List.forall_mem_append]

/-- Such texts in a row are one. -/
theorem Printable.append {s t : String} (hs : Printable s) (ht : Printable t) :
    Printable (s ++ t) := printable_append.mpr ⟨hs, ht⟩

/-- A literal is such a text. -/
theorem printable_of_decide {s : String}
    (h : s.toList.all (fun c => !isAsciiControl c) = true) : Printable s := by
  intro c hc
  simpa using List.all_eq_true.mp h c hc

/-- The literals of the header are such texts. -/
theorem printable_literals : ∀ s ∈ ["POST ", " HTTP/1.1", "Host: ", "Authorization: Bearer ",
    "Bearer ", "Content-Type: application/json", "application/json", "Content-Length: ",
    "Connection: close", "close", "/v1/agent/tasks/", "/result"], Printable s := by
  have hall : ∀ s ∈ ["POST ", " HTTP/1.1", "Host: ", "Authorization: Bearer ", "Bearer ",
      "Content-Type: application/json", "application/json", "Content-Length: ",
      "Connection: close", "close", "/v1/agent/tasks/", "/result"],
      s.toList.all (fun c => !isAsciiControl c) = true := by
    decide +kernel
  exact fun s hs => printable_of_decide (hall s hs)

/-- The number of a length is one. -/
theorem printable_repr (n : ℕ) : Printable n.repr := by
  intro c hc
  have hcode : 48 ≤ c.toNat ∧ c.toNat ≤ 57 := by
    simpa [Char.isDigit, UInt32.le_iff_toNat_le] using isDigit_of_mem_repr hc
  simp only [isAsciiControl, Bool.or_eq_false_iff, decide_eq_false_iff_not, beq_eq_false_iff_ne]
  omega

/-- The header announces the body. -/
theorem contentLengthOf_postLines {endpoint path body token : String} (hendpoint : Printable endpoint)
    (htoken : Printable token) (hbody : len body ≤ u64Max) :
    contentLengthOf none (((postLines endpoint path body token).map String.toList).drop 1) =
      .ok (len body) := by
  have hblank {value : List Char} (h : ∀ c ∈ value, isAsciiControl c = false) :
      ∀ c ∈ ' ' :: value, isAsciiControl c = false :=
    List.forall_mem_cons.mpr ⟨by decide, h⟩
  have hbearer : Printable ("Bearer " ++ token) :=
    (printable_literals "Bearer " (by simp)).append htoken
  have hjson : Printable "application/json" := printable_literals _ (by simp)
  have hclose : Printable "close" := printable_literals _ (by simp)
  have hlines : ((postLines endpoint path body token).map String.toList).drop 1 =
      ["Host".toList ++ ':' :: ' ' :: endpoint.toList,
        "Authorization".toList ++ ':' :: ' ' :: ("Bearer " ++ token).toList,
        "Content-Type".toList ++ ':' :: ' ' :: "application/json".toList,
        "Content-Length".toList ++ ':' :: ' ' :: (len body).repr.toList,
        "Connection".toList ++ ':' :: ' ' :: "close".toList] := by
    simp [postLines]
  rw [hlines, contentLengthOf_plain (by decide) (hblank hendpoint),
    contentLengthOf_plain (by decide) (hblank hbearer),
    contentLengthOf_plain (by decide) (hblank hjson), contentLengthOf_length hbody,
    contentLengthOf_plain (by decide) (hblank hclose)]
  rfl

/-- The lines of the header are lines. -/
theorem headerLine_postLines {endpoint path body token : String} (hendpoint : Printable endpoint)
    (hpath : Printable path) (htoken : Printable token) :
    ∀ line ∈ postLines endpoint path body token, HeaderLine line := by
  have hline {s t : String} (hne : s ≠ "") (hs : Printable s) (ht : Printable t) :
      HeaderLine (s ++ t) := by
    refine ⟨fun hempty => hne ?_, hs.append ht⟩
    exact (String.append_eq_empty_iff.mp hempty).1
  have hversion : Printable " HTTP/1.1" := printable_literals _ (by simp)
  have hjson : Printable "Content-Type: application/json" := printable_literals _ (by simp)
  have hclose : Printable "Connection: close" := printable_literals _ (by simp)
  simp only [postLines, List.forall_mem_cons, List.not_mem_nil, false_imp_iff, implies_true,
    and_true]
  refine ⟨?_, ?_, ?_, ⟨by decide, hjson⟩, ?_, ⟨by decide, hclose⟩⟩
  · rw [String.append_assoc]
    exact hline (by decide) (printable_literals "POST " (by simp)) (hpath.append hversion)
  · exact hline (by decide) (printable_literals "Host: " (by simp)) hendpoint
  · exact hline (by decide) (printable_literals "Authorization: Bearer " (by simp)) htoken
  · exact hline (by decide) (printable_literals "Content-Length: " (by simp)) (printable_repr _)

/-! ## Delivery -/

section Delivery

variable [RingDigest] [LawfulRingDigest] {endpoint token node_id : String} {task : Assignment}
  {outcome : Outcome}

/-- A request is read if it is within the limit, and refused as too large otherwise. -/
theorem readRequest_postJson (hendpoint : Printable endpoint) (htoken : Printable token)
    (htask : Printable task.task_id) (hsize : postSize endpoint token node_id task outcome < 2^64)
    {pieces : List (List UInt8)}
    (hpieces : PiecesOf 4096
      (bytes (postJson endpoint (resultPath task) (resultBody node_id task outcome) token)) pieces) :
    readRequest pieces =
      if postSize endpoint token node_id task outcome ≤ maxRequestBytes then .ok pieces.flatten
      else .error requestTooLarge := by
  have hroot : Printable "/v1/agent/tasks/" := printable_literals _ (by simp)
  have hleaf : Printable "/result" := printable_literals _ (by simp)
  have hpath : Printable (resultPath task) := (hroot.append htask).append hleaf
  have hlength : pieces.flatten.length = postSize endpoint token node_id task outcome := by
    rw [hpieces.whole, ← len_eq_length, len_postJson]
  have hbody : len (resultBody node_id task outcome) ≤ u64Max := by
    rw [len_resultBody]
    unfold postSize at hsize
    unfold u64Max
    omega
  rw [← hlength] at hsize ⊢
  refine readRequest_lines (headerLine_postLines hendpoint hpath htoken) (List.cons_ne_nil _ _)
    (contentLengthOf_postLines hendpoint htoken hbody) ?_ hsize
  rw [hpieces.whole, postJson_eq]

/-- **A result arrives exactly when it is within the limit of its channel.** -/
theorem result_delivered_iff (hendpoint : Printable endpoint) (htoken : Printable token)
    (htask : Printable task.task_id) (hsize : postSize endpoint token node_id task outcome < 2^64)
    {pieces : List (List UInt8)}
    (hpieces : PiecesOf 4096
      (bytes (postJson endpoint (resultPath task) (resultBody node_id task outcome) token)) pieces)
    (mask : Vector UInt8 4) :
    (readRequest pieces ≠ .error requestTooLarge ↔
      postSize endpoint token node_id task outcome ≤ maxRequestBytes) ∧
    ((∃ frame, websocketWriteFrame mask 1 (bytes (resultMessage node_id task outcome)) = .ok frame ∧
        ∀ rest, ControlPlane.websocketReadFrame (frame ++ rest) =
          .ok (some (1, bytes (resultMessage node_id task outcome)), rest)) ↔
      messageSize node_id task outcome ≤ 1024 * 1024) := by
  constructor
  · rw [readRequest_postJson hendpoint htoken htask hsize hpieces]
    by_cases hlimit : postSize endpoint token node_id task outcome ≤ maxRequestBytes
    · rw [if_pos hlimit]
      exact iff_of_true nofun hlimit
    · rw [if_neg hlimit]
      exact iff_of_false (fun hne => hne rfl) hlimit
  · have hmask : ∀ m ∈ some mask.toList, m.length = 4 := by
      intro m hm
      rw [← Option.some.inj hm]
      exact mask.length_toList
    rw [← len_resultMessage, len_eq_length]
    exact frame_arrives_iff hmask

end Delivery

/-! ## A long output and a short one -/

section Example

attribute [local instance] compactSerde noKeys ownDigest lawful_ownDigest

/-- A task that reads a file, as its node polls it. -/
def readingTask : Task where
  id := "task_0_7_1"
  request_id := "request_0_7_1"
  actor := "admin"
  node_id := "n1"
  ability := "file.read"
  state := "dispatched"
  idempotency_key := ""
  program := "notes"
  argument := ""
  output := ""
  output_sha256 := ""
  output_truncated := false
  output_limit := 1048576
  exit_code := none
  lease_until := 35000
  lease_token := "000000000000000000000000000000000000000000000000"
  timeout_ms := 30000

/-- The store after the task is accepted. -/
def readingStore : Store :=
  (createTaskAs recordState (exampleEnv 0) (abilityBody "file.read") none recordStore).2

/-- The output of such a task on a file of 1 MiB. -/
def longOutput : String := String.ofList (List.replicate 1048576 'x')

/-- A text of one letter takes a byte for each. -/
theorem len_letters (n : ℕ) : len (String.ofList (List.replicate n 'x')) = n ∧
    escapedLen (String.ofList (List.replicate n 'x')) = n := by
  have hsize : 'x'.utf8Size = 1 ∧ escapedSize 'x' = 1 := by decide
  rw [len_ofList, escapedLen, String.toList_ofList, List.map_replicate, List.map_replicate, hsize.1,
    hsize.2, List.sum_replicate]
  exact ⟨Nat.mul_one n, Nat.mul_one n⟩

/-- What is posted for an output of the task. -/
def readingPost (output : String) : String :=
  postJson "127.0.0.1:8080" (resultPath (assignment readingTask))
    (resultBody "n1" (assignment readingTask) (outcomeOf (.ok (output, 0)))) "credential"

/-- The sizes of the fields that are sent. -/
theorem readingFields :
    (escapedLen "n1" = 2 ∧ escapedLen readingTask.request_id = 13 ∧
      escapedLen readingTask.lease_token = 48 ∧ escapedLen readingTask.id = 10 ∧
      len "succeeded" = 9 ∧ len (0 : ℤ).repr = 1) ∧
    len readingTask.id = 10 ∧ len "127.0.0.1:8080" = 14 ∧ len "credential" = 10 ∧
    ∀ s ∈ ["127.0.0.1:8080", "credential", readingTask.id],
      s.toList.all (fun c => !isAsciiControl c) = true := by
  decide +kernel

/-- The lines of the header may have the fields. -/
theorem printable_reading : Printable "127.0.0.1:8080" ∧ Printable "credential" ∧
    Printable (assignment readingTask).task_id := by
  have hfields {s : String} (hs : s ∈ ["127.0.0.1:8080", "credential", readingTask.id]) :
      Printable s :=
    printable_of_decide (readingFields.2.2.2.2 s hs)
  exact ⟨hfields (by simp), hfields (by simp), hfields (by simp [assignment])⟩

/-- The sizes of what is sent for an output. -/
theorem readingSizes (output : String) :
    bodySize "n1" (assignment readingTask) (outcomeOf (.ok (output, 0))) =
        241 + escapedLen output ∧
      messageSize "n1" (assignment readingTask) (outcomeOf (.ok (output, 0))) =
        330 + escapedLen output := by
  obtain ⟨hnode, hrequest, htoken, htask, hstate, hcode⟩ := readingFields.1
  have houtcome : outcomeSize (outcomeOf (.ok (output, 0))) = 131 + escapedLen output := by
    show 121 + len "succeeded" + escapedLen output + len (0 : ℤ).repr = _
    omega
  constructor
  · rw [bodySize, houtcome, hnode]
    simp only [assignment, hrequest, htoken]
    omega
  · rw [messageSize, houtcome, hnode]
    simp only [assignment, hrequest, htask, htoken]
    omega

/-- The size of what is posted for an output. -/
theorem readingPostSize {output : String} {n : ℕ}
    (h : bodySize "n1" (assignment readingTask) (outcomeOf (.ok (output, 0))) = n) :
    postSize "127.0.0.1:8080" "credential" "n1" (assignment readingTask)
      (outcomeOf (.ok (output, 0))) = 176 + len n.repr + n := by
  obtain ⟨htask, hendpoint, htoken, -⟩ := readingFields.2
  unfold postSize
  rw [h]
  show 142 + len readingTask.id + len "127.0.0.1:8080" + len "credential" + len n.repr + n = _
  omega

/-- The task is accepted, and its node polls it. -/
theorem reading_dispatched :
    (createTaskAs recordState (exampleEnv 0) (abilityBody "file.read") none recordStore).1.status =
        .accepted ∧
      (agentTasks recordState (exampleEnv 0) "/v1/agent/tasks?node_id=n1"
        readingStore).1.reply.shownTasks = [readingTask] := by
  decide +kernel

/-- A file of 1 MiB is within the limit of the task, and no channel takes its content. -/
theorem long_output_refused :
    (createTaskAs recordState (exampleEnv 0) (abilityBody "file.read") none recordStore).1.status =
        .accepted ∧
      (agentTasks recordState (exampleEnv 0) "/v1/agent/tasks?node_id=n1"
        readingStore).1.reply.shownTasks = [readingTask] ∧
      len longOutput ≤ readingTask.output_limit ∧
      (∀ pieces, PiecesOf 4096 (bytes (readingPost longOutput)) pieces →
        readRequest pieces = .error requestTooLarge) ∧
      ∀ mask, websocketWriteFrame mask 1
        (bytes (resultMessage "n1" (assignment readingTask) (outcomeOf (.ok (longOutput, 0))))) =
          .error .tooLarge := by
  obtain ⟨hlen, hescaped⟩ : len longOutput = 1048576 ∧ escapedLen longOutput = 1048576 :=
    len_letters 1048576
  obtain ⟨hbody, hmessage⟩ := readingSizes longOutput
  rw [hescaped] at hbody hmessage
  obtain ⟨hendpoint, htoken, htask⟩ := printable_reading
  refine ⟨reading_dispatched.1, reading_dispatched.2, hlen.le, fun pieces hpieces => ?_,
    fun mask => ?_⟩
  · have hpost := readingPostSize hbody
    have hread := readRequest_postJson hendpoint htoken htask (hpost.trans_lt (by decide)) hpieces
    rw [hpost, if_neg (by decide)] at hread
    exact hread
  · have hlarge : frameTooLarge 1 (bytes (resultMessage "n1" (assignment readingTask)
        (outcomeOf (.ok (longOutput, 0))))).length = true := by
      rw [← len_eq_length, len_resultMessage, hmessage]
      decide
    rw [websocketWriteFrame, writeFrame, if_pos hlarge]

/-- A short output is posted and sent. -/
theorem result_delivered_short :
    readRequest [bytes (readingPost "x")] ≠ .error requestTooLarge ∧
      ∃ frame, websocketWriteFrame (Vector.replicate 4 7) 1
        (bytes (resultMessage "n1" (assignment readingTask) (outcomeOf (.ok ("x", 0))))) =
          .ok frame := by
  have hescaped : escapedLen "x" = 1 := by decide
  obtain ⟨hbody, hmessage⟩ := readingSizes "x"
  rw [hescaped] at hbody hmessage
  have hpost := readingPostSize hbody
  have hlength : (bytes (readingPost "x")).length = 421 := by
    rw [← len_eq_length, readingPost, len_postJson, hpost]
    rfl
  have hpieces : PiecesOf 4096 (bytes (readingPost "x")) [bytes (readingPost "x")] := by
    refine ⟨List.flatten_singleton, ?_⟩
    intro piece hpiece
    rw [List.mem_singleton.mp hpiece]
    exact ⟨List.ne_nil_of_length_pos (by omega), by omega⟩
  obtain ⟨hendpoint, htoken, htask⟩ := printable_reading
  have hdelivered := result_delivered_iff hendpoint htoken htask (hpost.trans_lt (by decide)) hpieces
    (Vector.replicate 4 7)
  refine ⟨hdelivered.1.mpr (hpost.trans_le (by decide)), ?_⟩
  obtain ⟨frame, hwrite, -⟩ := hdelivered.2.mpr (hmessage.trans_le (by decide))
  exact ⟨frame, hwrite⟩

end Example

end NodeWe.NodeRuntime
