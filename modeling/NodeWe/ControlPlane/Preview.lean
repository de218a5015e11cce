import NodeWe.ControlPlane.Representation
import NodeWe.NodeRuntime.Digests

/-!
# Previews of results

A task stores the beginning of its output, the digest of all of it, and whether they differ.
`preview_faithful` is about the upload of one result to any store: what the task then stores is a
preview of the output that was uploaded.
-/

namespace NodeWe.ControlPlane

open Text InPlace Transition SecureHash

/-! ## The longest beginning -/

/-- What is kept of a text begins it. -/
theorem truncateChars_prefix (room : ℕ) (cs : List Char) : truncateChars room cs <+: cs := by
  induction cs generalizing room with
  | nil => exact List.prefix_rfl
  | cons c cs ih =>
    rw [truncateChars]
    split_ifs
    · exact (List.prefix_cons_inj c).mpr (ih _)
    · exact List.nil_prefix

/-- Every beginning for which there is room is kept. -/
theorem prefix_truncateChars {room : ℕ} {front cs : List Char} (hfront : front <+: cs)
    (hroom : (front.map Char.utf8Size).sum ≤ room) : front <+: truncateChars room cs := by
  induction front generalizing room cs with
  | nil => exact List.nil_prefix
  | cons c front ih =>
    obtain ⟨rest, rfl⟩ := hfront
    rw [List.map_cons, List.sum_cons] at hroom
    rw [List.cons_append, truncateChars, if_pos (by omega), List.prefix_cons_inj]
    exact ih (List.prefix_append _ _) (by omega)

/-- A text is the longest that begins another one, ends between two characters of it and has at most
so many bytes. -/
structure LongestPrefix (raw : String) (budget : ℕ) (output : String) : Prop where
  boundary : ∃ rest, raw = output ++ rest
  fits : len output ≤ budget
  longest : ∀ front rest, raw = front ++ rest → len front ≤ budget → len front ≤ len output

/-- A beginning has at most as many bytes. -/
theorem len_le_of_prefix {s t : String} (h : s.toList <+: t.toList) : len s ≤ len t := by
  obtain ⟨rest, hrest⟩ := h
  rw [← String.ofList_toList (s := s), ← String.ofList_toList (s := t), len_ofList, len_ofList,
    ← hrest, List.map_append, List.sum_append]
  exact Nat.le_add_right _ _

/-- That is what `truncate_utf8` returns. -/
theorem longestPrefix_truncateUtf8 (raw : String) (budget : ℕ) :
    LongestPrefix raw budget (truncateUtf8 raw budget) := by
  refine ⟨?_, len_truncateUtf8_le raw budget, fun front rest hraw hfits => ?_⟩
  · unfold truncateUtf8
    split_ifs
    · exact ⟨"", (String.append_empty).symm⟩
    · obtain ⟨rest, hrest⟩ := truncateChars_prefix budget raw.toList
      refine ⟨String.ofList rest, ?_⟩
      rw [← String.ofList_append, hrest, String.ofList_toList]
  · have hfront : front.toList <+: raw.toList := by
      rw [hraw, String.toList_append]
      exact List.prefix_append _ _
    apply len_le_of_prefix
    unfold truncateUtf8
    split_ifs
    · exact hfront
    · rw [String.toList_ofList]
      rw [← String.ofList_toList (s := front), len_ofList] at hfits
      exact prefix_truncateChars hfront hfits

/-! ## One upload -/

/-- What a task stores of an output, and of the digest that came with it. -/
structure Preview (raw : String) (supplied : Option String) (task : Task) : Prop where
  output : LongestPrefix raw (min task.output_limit 4096) task.output
  truncated : task.output_truncated = true ↔ task.output ≠ raw
  digest : task.output_sha256 = hexEncodeBytes (sha256Bytes (bytes raw))
  lower : ∀ c ∈ task.output_sha256.toList, c ∈ "0123456789abcdef".toList
  supplied : ∀ value, supplied = some value → toAsciiLowercase value = task.output_sha256

/-- A digest has lower-case letters. -/
theorem lower_hexEncodeBytes (bs : List UInt8) :
    ∀ c ∈ (hexEncodeBytes bs).toList, c ∈ "0123456789abcdef".toList := by
  intro c hc
  obtain ⟨n, hn, rfl⟩ := mem_hexEncodeBytes hc
  interval_cases n <;> decide

/-- An upload that is read names its task by the path, and carries the digest of its output, which
is the one that came with it. -/
theorem parseResultUpload_ok [Serde] {path body : String} {upload : ResultUpload}
    (h : parseResultUpload path body = .ok upload) :
    upload.task_id = resultTaskId path ∧ upload.output = (jsonField body "output").getD "" ∧
      upload.output_sha256 = hexEncodeBytes (sha256 (bytes upload.output)) ∧
      ∀ value, jsonField body "output_sha256" = some value →
        toAsciiLowercase value = upload.output_sha256 := by
  unfold parseResultUpload at h
  dsimp only at h
  split_ifs at h with htypes hrequest hdigest
  obtain rfl := Except.ok.inj h
  refine ⟨rfl, rfl, rfl, fun value hvalue => ?_⟩
  rw [hvalue, Option.any_some, Bool.not_eq_true', Bool.not_eq_false, Bool.and_eq_true,
    constantTimeEq_iff] at hdigest
  exact hdigest.2

/-- A task that is completed previews the output of the upload. -/
theorem preview_completed [Serde] {path body : String} {upload : ResultUpload} (task : Task)
    (h : parseResultUpload path body = .ok upload) :
    Preview ((jsonField body "output").getD "") (jsonField body "output_sha256")
      (completed task upload) := by
  obtain ⟨-, houtput, hdigest, hsupplied⟩ := parseResultUpload_ok h
  have hlongest := longestPrefix_truncateUtf8 upload.output (min task.output_limit 4096)
  rw [← houtput]
  refine ⟨hlongest, ?_, ?_, ?_, hsupplied⟩
  · show decide (len upload.output > min task.output_limit 4096) = true ↔
      truncateUtf8 upload.output (min task.output_limit 4096) ≠ upload.output
    rw [decide_eq_true_eq]
    constructor
    · -- What fits is shorter than what does not.
      intro hlong hsame
      have hfits := hlongest.fits
      rw [hsame] at hfits
      omega
    · intro hne
      by_contra hfits
      exact hne (if_pos (by omega))
  · show upload.output_sha256 = _
    rw [hdigest, sha256_eq]
  · show ∀ c ∈ upload.output_sha256.toList, _
    rw [hdigest]
    exact lower_hexEncodeBytes _

section Uploads

variable [Serde] {st : State} {env : Env} {path body : String} {store new : Store} {reply : Reply}

/-- A result that is accepted is stored, for the task that its path and its node name, as a preview
of the output. -/
theorem preview_faithful (h : agentResult st env path body store = (⟨.ok, reply⟩, new)) :
    ∃ task ∈ store.tasks, ∃ stored ∈ new.tasks,
      (task.id = resultTaskId path ∧ task.node_id = (jsonField body "node_id").getD "") ∧
      (stored.id = task.id ∧ stored.output_limit = task.output_limit ∧ reply = .task stored) ∧
      Preview ((jsonField body "output").getD "") (jsonField body "output_sha256") stored := by
  have hok : Status.isSuccess .ok = true := by decide
  -- Results need no keys, so any will do.
  have : Ed25519 := noKeys
  have heffect := agentResult_effect st env path body store
  rw [h] at heffect
  cases heffect with
  | unchanged _ _ hread _ => exact absurd (hread hok) Bool.false_ne_true
  | resultAccepted _ _ upload task haccepted =>
    have htarget := List.find?_some haccepted.found
    rw [uploadTarget, Bool.and_eq_true, beq_iff_eq, beq_iff_eq, (parseResultUpload_ok
      haccepted.parsed).1, parseResultUpload_node haccepted.parsed] at htarget
    have hstored : completed task upload ∈
        setFirst (uploadTarget upload) (completed task upload) store.tasks :=
      List.mem_set (List.getElem?_eq_some_iff.mp (getElem?_findIdx haccepted.found)).1 _
    exact ⟨task, List.mem_of_find?_eq_some haccepted.found, completed task upload, hstored, htarget,
      ⟨rfl, rfl, rfl⟩, preview_completed task haccepted.parsed⟩

end Uploads

section Example

/-- A result of two characters in three bytes. -/
def shortResult : String :=
  "\x7b\"node_id\":\"n\",\"state\":\"succeeded\",\"lease_token\":\"t\",\"output\":\"aé\"\x7d"

/-- A parser that reads it. -/
@[reducible] def shortParser : Serde := tableParser [(shortResult, .object [("node_id", .string "n"),
  ("state", .string "succeeded"), ("lease_token", .string "t"), ("output", .string "aé")])]

attribute [local instance] shortParser

/-- The store of a node at work on a task that may have two bytes of output. -/
def shortStore : Store := { Store.empty with
  tasks := [{ exampleTask "task-1" "admin" "n" with
    state := "dispatched", lease_until := 9, lease_token := "t", output_limit := 2 }] }

/-- What the control plane does with the result. -/
def shortAnswer : Response × Store :=
  agentResult exampleState (exampleEnv 5) "/v1/agent/tasks/task-1/result" shortResult shortStore

/-- The second character does not fit, so the first is stored. -/
theorem preview_faithful_short : shortAnswer.2.tasks.map Task.output = ["a"] ∧
    ∃ stored ∈ shortAnswer.2.tasks, Preview "aé" none stored := by
  have hevaluates : shortAnswer.1.status = .ok ∧ shortAnswer.2.tasks.map Task.output = ["a"] ∧
      jsonField shortResult "output" = some "aé" ∧
        jsonField shortResult "output_sha256" = none := by
    decide +kernel
  obtain ⟨hok, houtputs, houtput, hsupplied⟩ := hevaluates
  have hanswer : shortAnswer = (⟨.ok, shortAnswer.1.reply⟩, shortAnswer.2) := by rw [← hok]
  obtain ⟨-, -, stored, hstored, -, -, hpreview⟩ := preview_faithful hanswer
  rw [houtput, hsupplied] at hpreview
  exact ⟨houtputs, stored, hstored, hpreview⟩

end Example

end NodeWe.ControlPlane
