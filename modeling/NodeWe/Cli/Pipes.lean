import NodeWe.NodeRuntime.Output

/-!
# Reading the pipes of a command

`read_pipe_bounded` of the command line is a copy of the agent's, with the same loop. What either
returns is a function of the stream alone: its first bytes and whether there are more.
-/

namespace NodeWe.Cli

open Wire

/-- `read_pipe_bounded` of the command line, over what each read returns, as the agent's
`readPipeBounded`. -/
def readPipeBounded (limit : ℕ) : List UInt8 × Bool → List (Except String (List UInt8)) →
    Except String ((List UInt8 × Bool) × List (Except String (List UInt8)))
  | (output, truncated), [] => .ok ((output, truncated), [])
  | _, .error error :: _ => .error error
  | (output, truncated), .ok read :: rest =>
    if read.length = 0 then .ok ((output, truncated), rest)
    else if output.length < limit then
      let keep := min (limit - output.length) read.length
      readPipeBounded limit
        (output ++ read.take keep, truncated || decide (keep < read.length)) rest
    else readPipeBounded limit (output, true) rest

/-- The two programs read alike, also where a read fails. -/
theorem readPipeBounded_eq_agent (limit : ℕ) (state : List UInt8 × Bool)
    (reader : List (Except String (List UInt8))) :
    readPipeBounded limit state reader = NodeRuntime.readPipeBounded limit state reader := by
  induction reader generalizing state with
  | nil => rfl
  | cons read rest ih =>
    cases read with
    | error error => rfl
    | ok read =>
      -- The agent sets the flag in a branch, and the command line by a disjunction.
      obtain ⟨output, truncated⟩ := state
      rw [readPipeBounded, NodeRuntime.readPipeBounded]
      split_ifs
      · rfl
      · dsimp only
        rw [ih, NodeRuntime.setFlag_eq]
      · exact ih _

/-- **Bounded reading does not depend on the chunks.** Both programs return the first bytes of the
stream, and whether it is longer than the limit, and have read all of it. -/
theorem bounded_reading {stream : List UInt8} {pieces : List (List UInt8)}
    (h : PiecesOf 8192 stream pieces) (limit : ℕ) (rest : List (Except String (List UInt8))) :
    NodeRuntime.readPipeBounded limit ([], false) (pieces.map .ok ++ .ok [] :: rest) =
        .ok ((stream.take limit, decide (limit < stream.length)), rest) ∧
      readPipeBounded limit ([], false) (pieces.map .ok ++ .ok [] :: rest) =
        .ok ((stream.take limit, decide (limit < stream.length)), rest) := by
  have hpieces : ∀ piece ∈ pieces, piece ≠ [] := fun piece hpiece => (h.sized piece hpiece).1
  have hagent : NodeRuntime.readPipeBounded limit ([], false) (pieces.map .ok ++ .ok [] :: rest) =
      .ok (NodeRuntime.keptOf limit stream, rest) := by
    rw [NodeRuntime.readPipeBounded_reads limit _ hpieces, NodeRuntime.readPipe_pieces h]
  refine ⟨hagent, ?_⟩
  rw [readPipeBounded_eq_agent]
  exact hagent

/-- A limit within the second of two chunks. -/
theorem bounded_reading_two :
    NodeRuntime.readPipeBounded 3 ([], false) [.ok [1, 2], .ok [3, 4], .ok []] =
        .ok (([1, 2, 3], true), []) ∧
      readPipeBounded 3 ([], false) [.ok [1, 2], .ok [3, 4], .ok []] =
        .ok (([1, 2, 3], true), []) :=
  have h : PiecesOf 8192 [1, 2, 3, 4] [[1, 2], ([3, 4] : List UInt8)] := ⟨rfl, by decide⟩
  bounded_reading h 3 []

end NodeWe.Cli
