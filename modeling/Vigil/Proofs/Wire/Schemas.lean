import Mathlib
import Vigil.Proofs.Wire.Messages
import Vigil.Wire.Schema

/-! The messages of the daemon's services keep the law of messages, and so each is read as it was
written, and whatever is read stays the same when it is written and read again. -/
namespace Vigil.Wire.Schema

open Message

theorem timestamp_lawful : timestamp.Lawful 0 := by
  refine ⟨by decide, by decide, by decide, _,
    .cons (int64_lawful ?_) <| .cons (int32_lawful ?_) .nil, fun _ => rfl⟩
  -- each part of the record is a slot of its own
  all_goals constructor <;> intros <;> rfl

theorem aboutProject_lawful (name : String) : (aboutProject name).Lawful 0 := by
  refine ⟨List.nodup_singleton 1, List.forall_mem_singleton.mpr (by decide),
    List.forall_mem_singleton.mpr rfl, _, .cons (text_lawful ?_) .nil, fun _ => rfl⟩
  constructor <;> intros <;> rfl

theorem project_lawful : project.Lawful 0 := by
  refine ⟨by decide, by decide, by decide, _,
    .cons (text_lawful ?_) <| .cons (text_lawful ?_) <| .cons (text_lawful ?_) <|
    .cons (text_lawful ?_) .nil, fun _ => rfl⟩
  all_goals constructor <;> intros <;> rfl

theorem projectList_lawful : projectList.Lawful 1 := by
  refine ⟨by decide, by decide, by decide, _,
    .cons (nestedList_lawful project_lawful ?_) .nil, fun _ => rfl⟩
  all_goals constructor <;> intros <;> rfl

theorem daemonStatus_lawful : daemonStatus.Lawful 1 := by
  refine ⟨by decide, by decide, by decide, _,
    .cons (text_lawful ?_) <| .cons (int32_lawful ?_) <| .cons (int32_lawful ?_) <|
    .cons (nested_lawful timestamp_lawful ?_) <| .cons (int32_lawful ?_) <|
    .cons (texts_lawful ?_) <| .cons (bool_lawful ?_) <| .cons (text_lawful ?_) <|
    .cons (text_lawful ?_) .nil, fun _ => rfl⟩
  all_goals constructor <;> intros <;> rfl

theorem agentIssue_lawful : agentIssue.Lawful 1 := by
  refine ⟨by decide, by decide, by decide, _,
    .cons (text_lawful ?_) <| .cons (nested_lawful timestamp_lawful ?_) <| .cons (text_lawful ?_) <|
    .cons (nested_lawful timestamp_lawful ?_) <|
    .cons (nested_lawful timestamp_lawful ?_) .nil, fun _ => rfl⟩
  all_goals constructor <;> intros <;> rfl

theorem startAgentRequest_lawful : startAgentRequest.Lawful 0 := by
  refine ⟨by decide, by decide, by decide, _,
    .cons (text_lawful ?_) <| .cons (text_lawful ?_) <| .cons (int32_lawful ?_) <|
    .cons (int32_lawful ?_) <| .cons (int32_lawful ?_) .nil, fun _ => rfl⟩
  all_goals constructor <;> intros <;> rfl

theorem agentStatus_lawful : agentStatus.Lawful 2 := by
  refine ⟨by decide, by decide, by decide, _,
    .cons (text_lawful ?_) <| .cons (bool_lawful ?_) <| .cons (text_lawful ?_) <|
    .cons (int32_lawful ?_) <| .cons (text_lawful ?_) <| .cons (text_lawful ?_) <|
    .cons (nested_lawful agentIssue_lawful ?_) .nil, fun _ => rfl⟩
  all_goals constructor <;> intros <;> rfl

theorem sendInputRequest_lawful : sendInputRequest.Lawful 0 := by
  refine ⟨by decide, by decide, by decide, _,
    .cons (text_lawful ?_) <| .cons (bytes_lawful ?_) .nil, fun _ => rfl⟩
  all_goals constructor <;> intros <;> rfl

theorem resizeRequest_lawful : resizeRequest.Lawful 0 := by
  refine ⟨by decide, by decide, by decide, _,
    .cons (text_lawful ?_) <| .cons (int32_lawful ?_) <| .cons (int32_lawful ?_) .nil, fun _ => rfl⟩
  all_goals constructor <;> intros <;> rfl

theorem screenBuffer_lawful : screenBuffer.Lawful 0 := by
  refine ⟨by decide, by decide, by decide, _,
    .cons (text_lawful ?_) <| .cons (texts_lawful ?_) <| .cons (int32_lawful ?_) <|
    .cons (int32_lawful ?_) <| .cons (int32_lawful ?_) <| .cons (int32_lawful ?_) <|
    .cons (text_lawful ?_) .nil, fun _ => rfl⟩
  all_goals constructor <;> intros <;> rfl

theorem rawOutputChunk_lawful : rawOutputChunk.Lawful 0 := by
  refine ⟨by decide, by decide, by decide, _,
    .cons (text_lawful ?_) <| .cons (bytes_lawful ?_) .nil, fun _ => rfl⟩
  all_goals constructor <;> intros <;> rfl

/-- The messages that the services declare, and the moments inside them. -/
inductive Declared : {α : Type} → Message α → Prop
  | timestamp : Declared timestamp
  | aboutProject (name : String) : Declared (aboutProject name)
  | project : Declared project
  | projectList : Declared projectList
  | daemonStatus : Declared daemonStatus
  | agentIssue : Declared agentIssue
  | startAgentRequest : Declared startAgentRequest
  | agentStatus : Declared agentStatus
  | sendInputRequest : Declared sendInputRequest
  | resizeRequest : Declared resizeRequest
  | screenBuffer : Declared screenBuffer
  | rawOutputChunk : Declared rawOutputChunk

theorem Declared.lawful {α : Type} {m : Message α} (h : Declared m) :
    ∃ height ≤ depthLimit, m.Lawful height := by
  cases h with
  | timestamp => exact ⟨0, by decide, timestamp_lawful⟩
  | aboutProject name => exact ⟨0, by decide, aboutProject_lawful name⟩
  | project => exact ⟨0, by decide, project_lawful⟩
  | projectList => exact ⟨1, by decide, projectList_lawful⟩
  | daemonStatus => exact ⟨1, by decide, daemonStatus_lawful⟩
  | agentIssue => exact ⟨1, by decide, agentIssue_lawful⟩
  | startAgentRequest => exact ⟨0, by decide, startAgentRequest_lawful⟩
  | agentStatus => exact ⟨2, by decide, agentStatus_lawful⟩
  | sendInputRequest => exact ⟨0, by decide, sendInputRequest_lawful⟩
  | resizeRequest => exact ⟨0, by decide, resizeRequest_lawful⟩
  | screenBuffer => exact ⟨0, by decide, screenBuffer_lawful⟩
  | rawOutputChunk => exact ⟨0, by decide, rawOutputChunk_lawful⟩

/-- Every message is read as it was written, and whatever is read from some bytes, with unknown
fields, repeated ones and fields in any order among them, is read again when it is written. The
bounds are those of memory with addresses of 64 bits, where no stretch of bytes is longer than half
of what they count. -/
theorem messages_round_trip {α : Type} {m : Message α} (h : Declared m) :
    (∀ a, (m.encode a).length ≤ u64Max → m.decode (m.encode a) = .ok a) ∧
      ∀ bytes a, 2 * bytes.length ≤ u64Max → m.decode bytes = .ok a →
        (m.encode a).length ≤ 2 * bytes.length ∧ m.decode (m.encode a) = .ok a := by
  obtain ⟨height, hdepth, hlaw⟩ := h.lawful
  refine ⟨fun a hfits => decode_encode hlaw hdepth hfits, fun bytes a hfits hread => ?_⟩
  have hroom := decode_room hlaw hread
  exact ⟨hroom, decode_encode hlaw hdepth (Nat.le_trans hroom hfits)⟩

/-- An issue in two parts, a group that no field knows, a number of 32 bits below zero in five
bytes, and a name that is written twice; and an empty line in front of another. -/
theorem scrambled_status_kept :
    let bytes : Bytes := [0x3A, 3, 0x0A, 1, 0x78, 0x4B, 0x78, 1, 0x4C, 0x20, 0xFF, 0xFF, 0xFF, 0xFF,
      0x0F, 0x0A, 0, 0x10, 2, 0x3A, 2, 0x12, 0, 0x0A, 1, 0x70]
    let status : AgentStatus :=
      { projectId := "p", isRunning := true, taskNumber := -1
        issue := some { issueType := "x", detectedAt := some {} } }
    let screen : ScreenBuffer := { lines := ["", "é"], cursorRow := -2147483648 }
    Declared agentStatus ∧ 2 * bytes.length ≤ u64Max ∧ agentStatus.decode bytes = .ok status ∧
      agentStatus.encode status = [0x0A, 1, 0x70, 0x10, 1, 0x20, 0xFF, 0xFF, 0xFF, 0xFF, 0xFF, 0xFF,
        0xFF, 0xFF, 0xFF, 1, 0x3A, 5, 0x0A, 1, 0x78, 0x12, 0] ∧
      (agentStatus.encode status).length ≤ 2 * bytes.length ∧
      agentStatus.decode (agentStatus.encode status) = .ok status ∧ Declared screenBuffer ∧
      (screenBuffer.encode screen).length ≤ u64Max ∧
      screenBuffer.decode (screenBuffer.encode screen) = .ok screen := by
  intro bytes status screen
  have hread : agentStatus.decode bytes = .ok status := by decide +kernel
  have hwritten : agentStatus.encode status = [0x0A, 1, 0x70, 0x10, 1, 0x20, 0xFF, 0xFF, 0xFF, 0xFF,
      0xFF, 0xFF, 0xFF, 0xFF, 0xFF, 1, 0x3A, 5, 0x0A, 1, 0x78, 0x12, 0] := by decide +kernel
  have hagain := (messages_round_trip .agentStatus).2 bytes status (by decide) hread
  have hfits : (screenBuffer.encode screen).length ≤ u64Max := by decide +kernel
  have hscreen := (messages_round_trip .screenBuffer).1 screen hfits
  obtain ⟨hroom, hkept⟩ := hagain
  exact ⟨.agentStatus, by decide, hread, hwritten, hroom, hkept, .screenBuffer, hfits, hscreen⟩

end Vigil.Wire.Schema
