import Vigil.Text.Blank
import Vigil.Wire.Message
/-! The messages of the daemon's services. -/
namespace Vigil

structure Timestamp where
  seconds : Int64 := 0
  nanos : Int32 := 0
deriving DecidableEq, Repr

structure ProjectId where
  projectId : String := ""
deriving DecidableEq, Repr

structure Project where
  projectId : String := ""
  name : String := ""
  path : String := ""
  status : String := ""
deriving DecidableEq, Repr

structure ProjectList where
  projects : List Project := []
deriving DecidableEq, Repr

structure DaemonStatus where
  host : String := ""
  port : Int32 := 0
  pid : Int32 := 0
  startedAt : Option Timestamp := none
  activeAgents : Int32 := 0
  activeProjects : List String := []
  updateAvailable : Bool := false
  updateVersion : String := ""
  updateUrl : String := ""
deriving DecidableEq, Repr

structure AgentIssue where
  issueType : String := ""
  detectedAt : Option Timestamp := none
  message : String := ""
  resetAt : Option Timestamp := none
  cooldownUntil : Option Timestamp := none
deriving DecidableEq, Repr

/-- An issue without a type says that the one before it is resolved. -/
def AgentIssue.isCleared (i : AgentIssue) : Bool := Text.isBlank i.issueType

def AgentIssue.active? (i : AgentIssue) : Option AgentIssue := if i.isCleared then none else some i

structure StartAgentRequest where
  projectId : String := ""
  mode : String := ""
  taskNumber : Int32 := 0
  rows : Int32 := 0
  cols : Int32 := 0
deriving DecidableEq, Repr

structure AgentStatus where
  projectId : String := ""
  isRunning : Bool := false
  mode : String := ""
  taskNumber : Int32 := 0
  taskTitle : String := ""
  wildfirePhase : String := ""
  issue : Option AgentIssue := none
deriving DecidableEq, Repr

structure SendInputRequest where
  projectId : String := ""
  data : List UInt8 := []
deriving DecidableEq, Repr

structure ResizeRequest where
  projectId : String := ""
  rows : Int32 := 0
  cols : Int32 := 0
deriving DecidableEq, Repr

/-- One full frame of an agent's terminal. -/
structure ScreenBuffer where
  projectId : String := ""
  lines : List String := []
  cursorRow : Int32 := 0
  cursorCol : Int32 := 0
  rows : Int32 := 0
  cols : Int32 := 0
  ansiContent : String := ""
deriving DecidableEq, Repr

structure RawOutputChunk where
  projectId : String := ""
  data : List UInt8 := []
deriving DecidableEq, Repr

namespace Wire.Schema

open Vigil.Wire.Field

def timestamp : Message Timestamp := ⟨"Timestamp", {}, [
  int64 1 "seconds" (·.seconds) fun m v => { m with seconds := v },
  int32 2 "nanos" (·.nanos) fun m v => { m with nanos := v }]⟩

/-- Several messages hold nothing but the project they are about. -/
def aboutProject (name : String) : Message ProjectId := ⟨name, {}, [
  text 1 "project_id" (·.projectId) fun m v => { m with projectId := v }]⟩

def project : Message Project := ⟨"Project", {}, [
  text 1 "project_id" (·.projectId) fun m v => { m with projectId := v },
  text 2 "name" (·.name) fun m v => { m with name := v },
  text 3 "path" (·.path) fun m v => { m with path := v },
  text 4 "status" (·.status) fun m v => { m with status := v }]⟩

def projectList : Message ProjectList := ⟨"ProjectList", {}, [
  nestedList 1 "projects" project (·.projects) fun m v => { m with projects := v }]⟩

def daemonStatus : Message DaemonStatus := ⟨"DaemonStatus", {}, [
  text 1 "host" (·.host) fun m v => { m with host := v },
  int32 2 "port" (·.port) fun m v => { m with port := v },
  int32 3 "pid" (·.pid) fun m v => { m with pid := v },
  nested 4 "started_at" timestamp (·.startedAt) fun m v => { m with startedAt := v },
  int32 5 "active_agents" (·.activeAgents) fun m v => { m with activeAgents := v },
  texts 6 "active_projects" (·.activeProjects) fun m v => { m with activeProjects := v },
  bool 7 "update_available" (·.updateAvailable) fun m v => { m with updateAvailable := v },
  text 8 "update_version" (·.updateVersion) fun m v => { m with updateVersion := v },
  text 9 "update_url" (·.updateUrl) fun m v => { m with updateUrl := v }]⟩

def agentIssue : Message AgentIssue := ⟨"AgentIssue", {}, [
  text 1 "issue_type" (·.issueType) fun m v => { m with issueType := v },
  nested 2 "detected_at" timestamp (·.detectedAt) fun m v => { m with detectedAt := v },
  text 3 "message" (·.message) fun m v => { m with message := v },
  nested 4 "reset_at" timestamp (·.resetAt) fun m v => { m with resetAt := v },
  nested 5 "cooldown_until" timestamp (·.cooldownUntil) fun m v => { m with cooldownUntil := v }]⟩

def startAgentRequest : Message StartAgentRequest := ⟨"StartAgentRequest", {}, [
  text 1 "project_id" (·.projectId) fun m v => { m with projectId := v },
  text 2 "mode" (·.mode) fun m v => { m with mode := v },
  int32 3 "task_number" (·.taskNumber) fun m v => { m with taskNumber := v },
  int32 4 "rows" (·.rows) fun m v => { m with rows := v },
  int32 5 "cols" (·.cols) fun m v => { m with cols := v }]⟩

def agentStatus : Message AgentStatus := ⟨"AgentStatus", {}, [
  text 1 "project_id" (·.projectId) fun m v => { m with projectId := v },
  bool 2 "is_running" (·.isRunning) fun m v => { m with isRunning := v },
  text 3 "mode" (·.mode) fun m v => { m with mode := v },
  int32 4 "task_number" (·.taskNumber) fun m v => { m with taskNumber := v },
  text 5 "task_title" (·.taskTitle) fun m v => { m with taskTitle := v },
  text 6 "wildfire_phase" (·.wildfirePhase) fun m v => { m with wildfirePhase := v },
  nested 7 "issue" agentIssue (·.issue) fun m v => { m with issue := v }]⟩

def sendInputRequest : Message SendInputRequest := ⟨"SendInputRequest", {}, [
  text 1 "project_id" (·.projectId) fun m v => { m with projectId := v },
  bytes 2 "data" (·.data) fun m v => { m with data := v }]⟩

def resizeRequest : Message ResizeRequest := ⟨"ResizeRequest", {}, [
  text 1 "project_id" (·.projectId) fun m v => { m with projectId := v },
  int32 2 "rows" (·.rows) fun m v => { m with rows := v },
  int32 3 "cols" (·.cols) fun m v => { m with cols := v }]⟩

def screenBuffer : Message ScreenBuffer := ⟨"ScreenBuffer", {}, [
  text 1 "project_id" (·.projectId) fun m v => { m with projectId := v },
  texts 2 "lines" (·.lines) fun m v => { m with lines := v },
  int32 3 "cursor_row" (·.cursorRow) fun m v => { m with cursorRow := v },
  int32 4 "cursor_col" (·.cursorCol) fun m v => { m with cursorCol := v },
  int32 5 "rows" (·.rows) fun m v => { m with rows := v },
  int32 6 "cols" (·.cols) fun m v => { m with cols := v },
  text 7 "ansi_content" (·.ansiContent) fun m v => { m with ansiContent := v }]⟩

def rawOutputChunk : Message RawOutputChunk := ⟨"RawOutputChunk", {}, [
  text 1 "project_id" (·.projectId) fun m v => { m with projectId := v },
  bytes 2 "data" (·.data) fun m v => { m with data := v }]⟩

end Wire.Schema

end Vigil
