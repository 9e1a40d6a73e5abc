import EnjiGuard.Foundation.Selection
import Mathlib.Data.Rat.Defs

/-!
# Lifecycles of audit runs

The runs that the upstream service and the local ledger project, the lifecycle of a projection, and
the choice of a representative among several projections of one action.
-/

namespace EnjiGuard.Audit

open Foundation

/-- The standard library's part: texts without surrounding blanks in lower case, and the instants
that timestamps stand for. -/
structure StatusCodec where
  normalize : String → String
  timestamp : String → Option Rat

/-- The codec of texts that are lower-case already, when no timestamp is looked at. -/
def plainStatusCodec : StatusCodec := ⟨fun status => status, fun _ => none⟩

/-- One audit run as a service projects it. -/
structure AuditRun where
  taskId : Option String
  actionKey : Option String
  status : Option String
  createdAt : Option String
  startedAt : Option String
  completedAt : Option String
  projectionSource : Option String := none
  projectionStatusSource : Option String := none
  expiresAt : Option String := none
  currentHeadSha : Option String := none
  lastAuditedHeadSha : Option String := none
  deriving DecidableEq, Repr

/-- The audit identity of an upstream task. -/
structure AuditTaskLink where
  taskId : Option String
  actionKey : Option String
  status : Option String
  artifactSchemaName : Option String := none
  createdAt : Option String := none
  startedAt : Option String := none
  completedAt : Option String := none
  deriving DecidableEq, Repr

/-- Where a task is in its life; `none` stands for no task. -/
inductive AuditTaskLifecycle
  | none
  | queued
  | running
  | failed
  | completed
  deriving DecidableEq, Repr

def failureStatuses : List String := ["failed", "failure", "error"]

def terminalStatuses : List String :=
  ["completed", "canceled", "cancelled", "skipped"] ++ failureStatuses

def runningStatuses : List String := ["running", "started", "in_progress", "in-progress"]

def queuedStatuses : List String := ["queued", "pending"]

variable (codec : StatusCodec)

/-- Whether a status is the end of a task. -/
def isTerminalStatus (status : Option String) : Bool :=
  decide (codec.normalize (status.getD "") ∈ terminalStatuses)

def taskLifecycle (status startedAt completedAt : Option String) : AuditTaskLifecycle :=
  let normalized := codec.normalize (status.getD "")
  if normalized ∈ failureStatuses then .failed
  else if completedAt ≠ none ∨ normalized ∈ terminalStatuses then .completed
  else if normalized ∈ runningStatuses then .running
  else if normalized ∈ queuedStatuses then .queued
  else if startedAt ≠ none then .running
  else .queued

def AuditRun.lifecycle (run : AuditRun) : AuditTaskLifecycle :=
  taskLifecycle codec run.status run.startedAt run.completedAt

def AuditTaskLink.lifecycle (link : AuditTaskLink) : AuditTaskLifecycle :=
  taskLifecycle codec link.status link.startedAt link.completedAt

/-- Whether a run is queued or running. -/
def isActiveRun (run : AuditRun) : Bool :=
  run.lifecycle codec = .queued || run.lifecycle codec = .running

def activeRunsForAction (runs : List AuditRun) (actionKey : String) : List AuditRun :=
  runs.filter fun run => run.actionKey = some actionKey && isActiveRun codec run

/-- The priority of a lifecycle among conflicting projections. -/
def AuditTaskLifecycle.priority : AuditTaskLifecycle → Nat
  | running => 4
  | queued => 3
  | failed => 2
  | completed => 1
  | none => 0

/-! ### Ranking projections -/

/-- What the ranking of projections looks at; a projection that lacks a text has none. -/
structure Projection where
  taskId : Option String
  status : Option String
  createdAt : Option String
  startedAt : Option String
  completedAt : Option String
  actionKey : Option String
  projectionSource : Option String := none
  projectionStatusSource : Option String := none
  expiresAt : Option String := none
  currentHeadSha : Option String := none
  lastAuditedHeadSha : Option String := none
  artifactSchemaName : Option String := none

def AuditRun.projection (run : AuditRun) : Projection where
  taskId := run.taskId
  status := run.status
  createdAt := run.createdAt
  startedAt := run.startedAt
  completedAt := run.completedAt
  actionKey := run.actionKey
  projectionSource := run.projectionSource
  projectionStatusSource := run.projectionStatusSource
  expiresAt := run.expiresAt
  currentHeadSha := run.currentHeadSha
  lastAuditedHeadSha := run.lastAuditedHeadSha

def AuditTaskLink.projection (link : AuditTaskLink) : Projection where
  taskId := link.taskId
  status := link.status
  createdAt := link.createdAt
  startedAt := link.startedAt
  completedAt := link.completedAt
  actionKey := link.actionKey
  artifactSchemaName := link.artifactSchemaName

/-- The key projections are ranked by; no instant is before every instant. -/
structure SortKey where
  priority : Nat
  newest : Option Rat
  texts : List String
  deriving DecidableEq

/-- Whether an instant is before another one. -/
def newestLt : Option Rat → Option Rat → Bool
  | _, none => false
  | none, some _ => true
  | some a, some b => decide (a < b)

/-- The lexicographic order of keys. -/
def SortKey.lt (a b : SortKey) : Bool :=
  a.priority < b.priority ||
    (a.priority = b.priority && (newestLt a.newest b.newest ||
      (a.newest = b.newest && decide (a.texts < b.texts))))

def projectionSortKey (p : Projection) : SortKey where
  priority := (taskLifecycle codec p.status p.startedAt p.completedAt).priority
  newest := maxOf? (fun a b => decide (a < b))
    ([p.createdAt, p.startedAt, p.completedAt].filterMap fun text => text.bind codec.timestamp)
  texts := [p.actionKey.getD "", p.taskId.getD "", codec.normalize (p.status.getD ""),
    p.completedAt.getD "", p.startedAt.getD "", p.createdAt.getD "", p.projectionSource.getD "",
    p.projectionStatusSource.getD "", p.expiresAt.getD "", p.currentHeadSha.getD "",
    p.lastAuditedHeadSha.getD "", p.artifactSchemaName.getD ""]

/-- The representative of duplicate projections of a run; none only for no projection. -/
def representativeProjection (runs : List AuditRun) : Option AuditRun :=
  maxOf? (fun a b => (projectionSortKey codec a.projection).lt
    (projectionSortKey codec b.projection)) runs

/-! ### Active runs -/

variable {codec} {run : AuditRun} {runs : List AuditRun} {actionKey : String}

lemma isActiveRun_iff : isActiveRun codec run = true ↔
    run.lifecycle codec = .queued ∨ run.lifecycle codec = .running := by
  simp [isActiveRun]

lemma mem_activeRunsForAction : run ∈ activeRunsForAction codec runs actionKey ↔
    run ∈ runs ∧ run.actionKey = some actionKey ∧ isActiveRun codec run = true := by
  simp [activeRunsForAction]

lemma representativeProjection_mem (h : representativeProjection codec runs = some run) :
    run ∈ runs := maxOf?_mem h

@[simp] lemma representativeProjection_eq_none :
    representativeProjection codec runs = none ↔ runs = [] := maxOf?_eq_none

end EnjiGuard.Audit
