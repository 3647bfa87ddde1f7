import Mathlib.Data.List.Basic
import Termroom.Data.Strip
import Termroom.Data.Table
import Termroom.RemoteRun.Row

/-!
# The stored runs and their Activity events

`StateStore` (`db.py`), as far as it keeps File Runs, Remote Runs and the events of their
ends: the tables, their constraints, and the transactions that write them.

A writing transaction holds SQLite's one write lock from its first writing statement to its
commit, and every other connection reads what was last committed. So it is one function of
the tables: it answers and leaves new tables, or it raises and its statements are rolled
back. What a method reads before its first writing statement is not part of it.
-/

set_option autoImplicit false

namespace Termroom.Store

open Data RemoteRun

/-! ## 1. Exceptions and times -/

inductive StoreError where
  | value (message : String)
  | runtime (message : String)
  | type
  /-- `sqlite3.IntegrityError`: a constraint of the tables. -/
  | integrity
  /-- Any other failure of SQLite: a locked database, a full disk. -/
  | database (message : String)
  deriving DecidableEq, Repr

/-- A stored time as `datetime.fromisoformat` reads it: with a time zone, without one, or
    not at all. -/
inductive StoredTime where
  | aware (micros : Int)
  | naive (micros : Int)
  | text (text : String)
  deriving DecidableEq, Repr

/-- `utc_now()` at a second. -/
def StoredTime.utc (seconds : Nat) : StoredTime := .aware (seconds * 1000000)

def StoredTime.ofTimestamp : Timestamp → StoredTime
  | .at seconds => .utc seconds
  | .raw iso => .text iso

/-- `ended_at or created_at`. -/
def occurredAt (endedAt : Option StoredTime) (createdAt : Nat) : StoredTime :=
  match endedAt with
  | none | some (.text "") => .utc createdAt
  | some time => time

/-! ## 2. Rows -/

structure Workspace where
  id : String
  displayName : String
  deriving DecidableEq, Repr

structure Computer where
  id : String
  name : String
  deriving DecidableEq, Repr

/-- A `file_runs` row. -/
structure FileRun where
  id : String
  workspaceId : String
  idempotencyKey : String
  relativePath : String
  sourceDigest : String
  runnerId : String
  runnerVersion : Int
  argv : List String
  state : RunState
  lifecycleRevision : Nat
  createdAt : Nat
  startedAt : Option StoredTime
  stopRequestedAt : Option StoredTime
  endedAt : Option StoredTime
  exitCode : Option Int
  errorCode : Option String
  errorDetail : Option String
  deriving DecidableEq, Repr

/-- A `remote_runs` row: its lifecycle columns and what the events say of it. -/
structure RemoteRunRow where
  id : String
  sourceLabel : String
  targetComputerId : String
  createdAt : Nat
  row : RunRow
  deriving DecidableEq, Repr

/-- `subject_type` and `subject_id`. -/
inductive Subject where
  | fileRun (id : String)
  | remoteRun (id : String)
  deriving DecidableEq, Repr

/-- The second half of an event's `kind`. -/
inductive EventKind where
  | completed
  | failed
  | stopped
  | attention
  deriving DecidableEq, Repr

structure Event where
  kind : EventKind
  subject : Subject
  subjectRevision : Nat
  primaryLabel : String
  secondaryLabel : String
  exitCode : Option Int
  durationSeconds : Option Nat
  occurredAt : StoredTime
  createdAt : Nat
  readAt : Option StoredTime
  notify : Bool
  deriving DecidableEq, Repr

structure Tables where
  workspaces : List Workspace
  computers : List Computer
  fileRuns : List FileRun
  remoteRuns : List RemoteRunRow
  /-- In the order of `sequence`. -/
  events : List Event
  deriving DecidableEq, Repr

/-- `FILE_RUN_TERMINAL_STATES` leaves out the states of the partial index. -/
def FileRun.active (run : FileRun) : Bool := !run.state.terminal

namespace Tables

variable (T : Tables)

def workspace (id : String) : Option Workspace := Table.find Workspace.id id T.workspaces

def computer (id : String) : Option Computer := Table.find Computer.id id T.computers

def fileRun (id : String) : Option FileRun := Table.find FileRun.id id T.fileRuns

def remoteRun (id : String) : Option RemoteRunRow := Table.find RemoteRunRow.id id T.remoteRuns

/-- Where a run is in its lifecycle: its state and `lifecycle_revision`. -/
def lifecycle : Subject → Option (RunState × Nat)
  | .fileRun id => (T.fileRun id).map fun run => (run.state, run.lifecycleRevision)
  | .remoteRun id =>
    (T.remoteRun id).map fun run => (run.row.state, run.row.lifecycleRevision)

end Tables

/-- `UNIQUE(workspace_id, idempotency_key)`. -/
def FileRun.keyIndex (run : FileRun) : Option (String × String) :=
  some (run.workspaceId, run.idempotencyKey)

/-- `idx_file_runs_workspace_active`. -/
def FileRun.activeIndex (run : FileRun) : Option String :=
  if run.active then some run.workspaceId else none

/-- What the schema keeps of every stored table. -/
structure Tables.Constrained (T : Tables) : Prop where
  fileRunIds : (T.fileRuns.map FileRun.id).Nodup
  keys : Table.Indexed FileRun.id FileRun.keyIndex T.fileRuns
  active : Table.Indexed FileRun.id FileRun.activeIndex T.fileRuns
  workspaces : ∀ run ∈ T.fileRuns, (T.workspace run.workspaceId).isSome
  computers : ∀ run ∈ T.remoteRuns, (T.computer run.targetComputerId).isSome

/-- A store without runs. -/
def Tables.fresh (workspaces : List Workspace) (computers : List Computer) : Tables :=
  ⟨workspaces, computers, [], [], []⟩

theorem Tables.fresh_constrained (workspaces : List Workspace) (computers : List Computer) :
    (Tables.fresh workspaces computers).Constrained := by
  constructor <;> simp [fresh, Table.Indexed]

/-! ## 3. Events -/

/-- `_event_label`. -/
def eventLabel (value fallback : String) : String :=
  let words := (value.toList.splitOnP isSpace).filter fun word => !word.isEmpty
  let label := ([' '].intercalate words).take 160
  if label.isEmpty then fallback else String.ofList label

/-- `_run_duration_seconds`. The times of one row can differ in having a zone, and their
    difference is a `TypeError` then. -/
def runDurationSeconds : Option StoredTime → Option StoredTime →
    Except StoreError (Option Nat)
  | some (.aware started), some (.aware ended)
  | some (.naive started), some (.naive ended) =>
    .ok (some ((ended - started).tdiv 1000000).toNat)
  | some (.aware _), some (.naive _) | some (.naive _), some (.aware _) => .error .type
  | _, _ => .ok none

def eventKind (state : RunState) (exitCode : Option Int) : EventKind :=
  match state with
  | .finished => if exitCode = some 0 then .completed else .failed
  | .failed => .failed
  | .stopped => .stopped
  | _ => .attention

/-- The event `_insert_file_run_event` inserts. -/
def fileRunEvent (run : FileRun) (workspaceName : String) (now : Nat) :
    Except StoreError (Option Event) :=
  if run.state.terminal then do
    let duration ← runDurationSeconds run.startedAt run.endedAt
    let kind := eventKind run.state run.exitCode
    return some {
      kind := kind
      subject := .fileRun run.id
      subjectRevision := run.lifecycleRevision
      primaryLabel := eventLabel run.relativePath "File"
      secondaryLabel := eventLabel workspaceName "Workspace"
      exitCode := run.exitCode
      durationSeconds := duration
      occurredAt := occurredAt run.endedAt run.createdAt
      createdAt := now
      readAt := none
      -- a short success is not announced
      notify := kind != .completed || duration.any (30 ≤ ·) }
  else return none

/-- The event `_insert_remote_run_event` inserts. -/
def remoteRunEvent (run : RemoteRunRow) (targetName : String) (now : Nat)
    (historical : Bool) : Option Event :=
  if run.row.state.terminal then
    let occurred := occurredAt (run.row.endedAt.map .ofTimestamp) run.createdAt
    some {
      kind := eventKind run.row.state run.row.exitCode
      subject := .remoteRun run.id
      subjectRevision := run.row.lifecycleRevision
      primaryLabel := eventLabel run.sourceLabel "Remote Run"
      secondaryLabel := eventLabel targetName "Remote"
      exitCode := run.row.exitCode
      durationSeconds := none
      occurredAt := occurred
      createdAt := now
      readAt := if historical then some occurred else none
      notify := !historical }
  else none

/-- INSERT INTO events … ON CONFLICT DO NOTHING. -/
def Tables.insertEvent (T : Tables) (event : Option Event) : Tables :=
  match event with
  | none => T
  | some e =>
    if T.events.any fun f => f.subject = e.subject && f.subjectRevision = e.subjectRevision
    then T
    else { T with events := T.events ++ [e] }

section

variable (T : Tables) (event : Option Event)

theorem Tables.insertEvent_frame :
    T.insertEvent event = { T with events := (T.insertEvent event).events } := by
  unfold insertEvent
  split
  · rfl
  · split <;> rfl

@[simp] theorem Tables.insertEvent_workspace (id : String) :
    (T.insertEvent event).workspace id = T.workspace id := by rw [insertEvent_frame]; rfl

@[simp] theorem Tables.insertEvent_computer (id : String) :
    (T.insertEvent event).computer id = T.computer id := by rw [insertEvent_frame]; rfl

@[simp] theorem Tables.insertEvent_fileRuns :
    (T.insertEvent event).fileRuns = T.fileRuns := by rw [insertEvent_frame]

@[simp] theorem Tables.insertEvent_remoteRuns :
    (T.insertEvent event).remoteRuns = T.remoteRuns := by rw [insertEvent_frame]

end

/-! ## 4. File Runs -/

/-- The payload of `claim_file_run`. -/
structure FileRunClaim where
  id : String
  workspaceId : String
  idempotencyKey : String
  relativePath : String
  sourceDigest : String
  runnerId : String
  runnerVersion : Int
  argv : List String
  deriving DecidableEq, Repr

/-- None of the compared columns differs. -/
def FileRun.matches (run : FileRun) (claim : FileRunClaim) : Bool :=
  run.relativePath = claim.relativePath && run.sourceDigest = claim.sourceDigest &&
    run.runnerId = claim.runnerId && run.runnerVersion = claim.runnerVersion &&
    run.argv = claim.argv

inductive ClaimStatus where
  | created
  | idempotent
  | occupied
  deriving DecidableEq, Repr

/-- The inserted row. -/
def FileRunClaim.run (claim : FileRunClaim) (now : Nat) : FileRun where
  id := claim.id
  workspaceId := claim.workspaceId
  idempotencyKey := claim.idempotencyKey
  relativePath := claim.relativePath
  sourceDigest := claim.sourceDigest
  runnerId := claim.runnerId
  runnerVersion := claim.runnerVersion
  argv := claim.argv
  state := .preparing
  lifecycleRevision := 0
  createdAt := now
  startedAt := none
  stopRequestedAt := none
  endedAt := none
  exitCode := none
  errorCode := none
  errorDetail := none

def reusedKey : StoreError :=
  .value "File Run idempotency key was reused with a different payload"

/-- `StateStore.claim_file_run`, from its BEGIN IMMEDIATE on. -/
def claimFileRun (claim : FileRunClaim) (now : Nat) (T : Tables) :
    Except StoreError ((ClaimStatus × FileRun) × Tables) :=
  match T.fileRuns.find? fun run =>
      run.workspaceId = claim.workspaceId && run.idempotencyKey = claim.idempotencyKey with
  | some row => if row.matches claim then .ok ((.idempotent, row), T) else .error reusedKey
  | none =>
    match T.fileRuns.find? fun run => run.workspaceId = claim.workspaceId && run.active with
    | some row => .ok ((.occupied, row), T)
    | none =>
      -- the primary key and the foreign key; the unique indexes were just looked at
      if (T.fileRun claim.id).isSome || (T.workspace claim.workspaceId).isNone then
        .error .integrity
      else
        .ok ((.created, claim.run now), { T with fileRuns := T.fileRuns ++ [claim.run now] })

/-- The keyword arguments of `transition_file_run`; `none` is `...`. -/
structure FileTransition where
  expectedStates : List RunState
  state : Option RunState := none
  startedAt : Option (Option StoredTime) := none
  stopRequestedAt : Option (Option StoredTime) := none
  endedAt : Option (Option StoredTime) := none
  exitCode : Option (Option Int) := none
  errorCode : Option (Option String) := none
  errorDetail : Option (Option String) := none
  deriving DecidableEq

namespace FileTransition

/-- `if not assignments: return False`. -/
def assigns (t : FileTransition) : Bool :=
  t.state.isSome || t.startedAt.isSome || t.stopRequestedAt.isSome || t.endedAt.isSome ||
    t.exitCode.isSome || t.errorCode.isSome || t.errorDetail.isSome

/-- The SET clause. -/
def update (t : FileTransition) (run : FileRun) : FileRun :=
  { run with
    state := t.state.getD run.state
    startedAt := t.startedAt.getD run.startedAt
    stopRequestedAt := t.stopRequestedAt.getD run.stopRequestedAt
    endedAt := t.endedAt.getD run.endedAt
    exitCode := t.exitCode.getD run.exitCode
    errorCode := t.errorCode.getD run.errorCode
    errorDetail := t.errorDetail.getD run.errorDetail
    lifecycleRevision := run.lifecycleRevision + 1 }

@[simp] theorem update_lifecycleRevision (t : FileTransition) (run : FileRun) :
    (t.update run).lifecycleRevision = run.lifecycleRevision + 1 := rfl

end FileTransition

/-- `previous is not None and previous["state"] not in …_TERMINAL_STATES`. -/
def wasActive (previous : Option RunState) : Bool := previous.any fun state => !state.terminal

/-- `transition_file_run` from its UPDATE on; `previous` is what its first SELECT read. -/
def updateFileRun (id : String) (t : FileTransition) (previous : Option RunState) (now : Nat)
    (T : Tables) : Except StoreError (Bool × Tables) :=
  match T.fileRun id with
  | none => .ok (false, T)
  | some run =>
    if t.expectedStates.contains run.state then
      if Table.clashes FileRun.id FileRun.activeIndex (t.update run) T.fileRuns then
        .error .integrity
      else
        let T' := { T with fileRuns := Table.replace FileRun.id (t.update run) T.fileRuns }
        match T'.workspace run.workspaceId with
        | none => .ok (true, T')
        | some workspace =>
          if wasActive previous && (t.update run).state.terminal then do
            let event ← fileRunEvent (t.update run) workspace.displayName now
            return (true, T'.insertEvent event)
          else .ok (true, T')
    else .ok (false, T)

/-! ## 5. Remote Runs -/

/-- The values of `create_remote_run`. -/
structure RemoteRunValues where
  id : String
  sourceLabel : String
  targetComputerId : String
  createdAt : Nat
  sourceKind : SourceKind
  archiveName : String
  state : RunState
  phase : Option Phase
  expiresAt : Option Nat
  sourceRevision : Option String
  sourceSize : Option Nat
  workspaceId : Option String
  deriving DecidableEq, Repr

/-- The inserted row. -/
def RemoteRunValues.run (values : RemoteRunValues) : RemoteRunRow where
  id := values.id
  sourceLabel := values.sourceLabel
  targetComputerId := values.targetComputerId
  createdAt := values.createdAt
  row := {
    sourceKind := values.sourceKind
    archiveName := values.archiveName
    state := values.state
    phase := values.phase
    startedAt := none
    stopRequestedAt := none
    endedAt := none
    expiresAt := values.expiresAt
    exitCode := none
    errorCode := none
    errorDetail := none
    sourceRevision := values.sourceRevision
    sourceSize := values.sourceSize
    workspaceId := values.workspaceId
    lifecycleRevision := 0 }

/-- `StateStore.create_remote_run`: INSERT … ON CONFLICT(id) DO NOTHING, and the row. -/
def createRemoteRun (values : RemoteRunValues) (T : Tables) :
    Except StoreError ((RemoteRunRow × Bool) × Tables) :=
  match T.remoteRun values.id with
  | some run => .ok ((run, false), T)
  | none =>
    if (T.computer values.targetComputerId).isNone then .error .integrity
    else .ok ((values.run, true), { T with remoteRuns := T.remoteRuns ++ [values.run] })

/-- `transition_remote_run` from its UPDATE on; `previous` is what its first SELECT read. -/
def updateRemoteRun (id : String) (t : Transition) (previous : Option RunState) (now : Nat)
    (T : Tables) : Except StoreError (Bool × Tables) :=
  match T.remoteRun id with
  | none => .ok (false, T)
  | some run =>
    if t.selects run.row then
      let run' := { run with row := t.update run.row }
      let T' := { T with remoteRuns := Table.replace RemoteRunRow.id run' T.remoteRuns }
      match T'.computer run.targetComputerId with
      | none => .ok (true, T')
      | some computer =>
        if wasActive previous && run'.row.state.terminal then
          .ok (true, T'.insertEvent (remoteRunEvent run' computer.name now false))
        else .ok (true, T')
    else .ok (false, T)

/-- One turn of the loop at the end of `initialize`. -/
def backfillRun (now : Nat) (T : Tables) (run : RemoteRunRow) : Tables :=
  match T.computer run.targetComputerId with
  | none => T
  | some computer => T.insertEvent (remoteRunEvent run computer.name now true)

/-- What `StateStore.initialize` does to tables that have today's schema. -/
def backfill (now : Nat) (T : Tables) : Tables :=
  let ended := T.remoteRuns.filter fun run => run.row.state.terminal
  (ended.mergeSort fun a b => a.createdAt ≤ b.createdAt).foldl (backfillRun now) T

theorem backfillRun_frame (now : Nat) (T : Tables) (run : RemoteRunRow) :
    backfillRun now T run = { T with events := (backfillRun now T run).events } := by
  unfold backfillRun
  split
  · rfl
  · exact T.insertEvent_frame _

/-- A startup writes events only. -/
theorem backfill_frame (now : Nat) (T : Tables) :
    backfill now T = { T with events := (backfill now T).events } := by
  have fold (runs : List RemoteRunRow) (T' : Tables) (h : T' = { T with events := T'.events }) :
      runs.foldl (backfillRun now) T' =
        { T with events := (runs.foldl (backfillRun now) T').events } := by
    induction runs generalizing T' with
    | nil => exact h
    | cons run runs ih =>
      refine ih _ ?_
      rw [backfillRun_frame, h]
  exact fold _ T rfl

/-! ## 6. What a transaction can do

One inversion lemma a transaction: what its answer says, and the tables it leaves. -/

variable {T T' : Tables}

/-- The event of a run that ended at `revision`, if it is announced. -/
def Announces (s : Subject) (revision : Nat) (announced : Bool) (event : Option Event) : Prop :=
  if announced then ∃ e, event = some e ∧ e.subject = s ∧ e.subjectRevision = revision
  else event = none

theorem fileRunEvent_announces {run : FileRun} {name : String} {now : Nat}
    {event : Option Event} (h : fileRunEvent run name now = .ok event)
    (ended : run.state.terminal = true) :
    Announces (.fileRun run.id) run.lifecycleRevision true event := by
  unfold fileRunEvent at h
  rw [if_pos ended] at h
  cases hd : runDurationSeconds run.startedAt run.endedAt with
  | error e =>
    rw [hd] at h
    exact nomatch h
  | ok duration =>
    rw [hd] at h
    obtain rfl := Except.ok.inj h
    exact ⟨_, rfl, rfl, rfl⟩

theorem remoteRunEvent_announces (run : RemoteRunRow) (name : String) (now : Nat)
    (historical : Bool) :
    Announces (.remoteRun run.id) run.row.lifecycleRevision run.row.state.terminal
      (remoteRunEvent run name now historical) := by
  unfold remoteRunEvent Announces
  cases run.row.state.terminal with
  | false => rfl
  | true => exact ⟨_, rfl, rfl, rfl⟩

/-- A stored run with the claim's key. -/
def FileRunClaim.Keyed (claim : FileRunClaim) (run : FileRun) : Prop :=
  run.workspaceId = claim.workspaceId ∧ run.idempotencyKey = claim.idempotencyKey

theorem claimFileRun_cases {claim : FileRunClaim} {now : Nat}
    {r : Except StoreError ((ClaimStatus × FileRun) × Tables)}
    (h : claimFileRun claim now T = r) :
    (∃ row ∈ T.fileRuns, claim.Keyed row ∧
      r = if row.matches claim then .ok ((.idempotent, row), T) else .error reusedKey) ∨
    (∀ row ∈ T.fileRuns, ¬ claim.Keyed row) ∧
      ((∃ row ∈ T.fileRuns, row.workspaceId = claim.workspaceId ∧ row.active = true ∧
          r = .ok ((.occupied, row), T)) ∨
       (∀ row ∈ T.fileRuns, row.workspaceId = claim.workspaceId → row.active = false) ∧
         (r = .error .integrity ∨
          T.fileRun claim.id = none ∧ (T.workspace claim.workspaceId).isSome ∧
            r = .ok ((.created, claim.run now),
              { T with fileRuns := T.fileRuns ++ [claim.run now] }))) := by
  unfold claimFileRun at h
  split at h
  · rename_i row hrow
    have hkey : claim.Keyed row := by simpa [FileRunClaim.Keyed] using List.find?_some hrow
    exact .inl ⟨row, List.mem_of_find?_eq_some hrow, hkey, h.symm⟩
  · rename_i hnone
    have hkeys : ∀ row ∈ T.fileRuns, ¬ claim.Keyed row := by
      intro row hrow hk
      simpa [hk.1, hk.2] using List.find?_eq_none.mp hnone row hrow
    refine .inr ⟨hkeys, ?_⟩
    split at h
    · rename_i row hrow
      have hactive : row.workspaceId = claim.workspaceId ∧ row.active = true := by
        simpa using List.find?_some hrow
      exact .inl ⟨row, List.mem_of_find?_eq_some hrow, hactive.1, hactive.2, h.symm⟩
    · rename_i hfree
      refine .inr ⟨fun row hrow hws => ?_, ?_⟩
      · simpa [hws] using List.find?_eq_none.mp hfree row hrow
      · split at h
        · exact .inl h.symm
        · rename_i hfk
          obtain ⟨hid, hws⟩ : T.fileRun claim.id = none ∧ ¬ T.workspace claim.workspaceId = none := by
            simpa using hfk
          exact .inr ⟨hid, Option.isSome_iff_ne_none.mpr hws, h.symm⟩

theorem updateFileRun_cases {id : String} {t : FileTransition} {previous : Option RunState}
    {now : Nat} {changed : Bool} (h : updateFileRun id t previous now T = .ok (changed, T')) :
    (changed = false ∧ T' = T) ∨
    ∃ run event, changed = true ∧ T.fileRun id = some run ∧ run.state ∈ t.expectedStates ∧
      Table.clashes FileRun.id FileRun.activeIndex (t.update run) T.fileRuns = false ∧
      T' = Tables.insertEvent
        { T with fileRuns := Table.replace FileRun.id (t.update run) T.fileRuns } event ∧
      Announces (.fileRun id) (run.lifecycleRevision + 1)
        ((T.workspace run.workspaceId).isSome && wasActive previous &&
          (t.update run).state.terminal) event := by
  unfold updateFileRun at h
  split at h
  · exact .inl (by simpa [eq_comm] using h)
  · rename_i run hrun
    have hid : run.id = id := Table.find_key hrun
    split at h
    · rename_i hstate
      have hstate : run.state ∈ t.expectedStates := by simpa using hstate
      split at h
      · cases h
      · rename_i hclash
        have hclash := Bool.eq_false_iff.mpr hclash
        refine .inr ⟨run, ?_⟩
        dsimp only at h
        split at h
        · rename_i hws
          obtain ⟨rfl, rfl⟩ : true = changed ∧ _ = T' := by simpa using h
          have hws : T.workspace run.workspaceId = none := hws
          exact ⟨none, rfl, hrun, hstate, hclash, rfl, by simp [Announces, hws]⟩
        · rename_i ws hws
          have hws : T.workspace run.workspaceId = some ws := hws
          split at h
          · rename_i hends
            cases he : fileRunEvent (t.update run) ws.displayName now with
            | error e =>
              rw [he] at h
              cases h
            | ok event =>
              rw [he] at h
              obtain ⟨rfl, rfl⟩ : true = changed ∧ _ = T' := by simpa using Except.ok.inj h
              refine ⟨event, rfl, hrun, hstate, hclash, rfl, ?_⟩
              have := fileRunEvent_announces he (by simpa using (Bool.and_eq_true_iff.mp hends).2)
              rw [show (t.update run).id = id from hid] at this
              simpa [hws, hends, Bool.and_assoc] using this
          · rename_i hends
            obtain ⟨rfl, rfl⟩ : true = changed ∧ _ = T' := by simpa using h
            refine ⟨none, rfl, hrun, hstate, hclash, rfl, ?_⟩
            simp [Announces, hws, Bool.eq_false_iff.mpr hends]
    · exact .inl (by simpa [eq_comm] using h)

theorem createRemoteRun_cases {values : RemoteRunValues} {answer : RemoteRunRow × Bool}
    (h : createRemoteRun values T = .ok (answer, T')) :
    T' = T ∨ T.remoteRun values.id = none ∧ (T.computer values.targetComputerId).isSome ∧
      T' = { T with remoteRuns := T.remoteRuns ++ [values.run] } := by
  unfold createRemoteRun at h
  split at h
  · exact .inl (by simpa using (Prod.mk.inj (Except.ok.inj h)).2.symm)
  · rename_i hnone
    split at h
    · exact nomatch h
    · rename_i hfk
      refine .inr ⟨hnone, ?_, (Prod.mk.inj (Except.ok.inj h)).2.symm⟩
      exact Option.isSome_iff_ne_none.mpr (by simpa using hfk)

theorem updateRemoteRun_cases {id : String} {t : Transition} {previous : Option RunState}
    {now : Nat} {changed : Bool}
    (h : updateRemoteRun id t previous now T = .ok (changed, T')) :
    (changed = false ∧ T' = T) ∨
    ∃ run event, changed = true ∧ T.remoteRun id = some run ∧ t.selects run.row = true ∧
      T' = Tables.insertEvent
        { T with
          remoteRuns :=
            Table.replace RemoteRunRow.id { run with row := t.update run.row } T.remoteRuns }
        event ∧
      Announces (.remoteRun id) (run.row.lifecycleRevision + 1)
        ((T.computer run.targetComputerId).isSome && wasActive previous &&
          (t.update run.row).state.terminal) event := by
  unfold updateRemoteRun at h
  split at h
  · exact .inl (by simpa [eq_comm] using h)
  · rename_i run hrun
    have hid : run.id = id := Table.find_key hrun
    split at h
    · rename_i hsel
      refine .inr ⟨run, ?_⟩
      dsimp only at h
      split at h
      · rename_i hc
        obtain ⟨rfl, rfl⟩ : true = changed ∧ _ = T' := by simpa using h
        have hc : T.computer run.targetComputerId = none := hc
        exact ⟨none, rfl, hrun, hsel, rfl, by simp [Announces, hc]⟩
      · rename_i c hc
        have hc : T.computer run.targetComputerId = some c := hc
        split at h
        · rename_i hends
          obtain ⟨rfl, rfl⟩ : true = changed ∧ _ = T' := by simpa using h
          refine ⟨_, rfl, hrun, hsel, rfl, ?_⟩
          have hends := Bool.and_eq_true_iff.mp hends
          have := remoteRunEvent_announces { run with row := t.update run.row } c.name now false
          rw [hends.2] at this
          have hrev : (t.update run.row).lifecycleRevision = run.row.lifecycleRevision + 1 := rfl
          simpa [hc, hends, hid, hrev] using this
        · rename_i hends
          obtain ⟨rfl, rfl⟩ : true = changed ∧ _ = T' := by simpa using h
          exact ⟨none, rfl, hrun, hsel, rfl,
            by simp [Announces, hc, Bool.eq_false_iff.mpr hends]⟩
    · exact .inl (by simpa [eq_comm] using h)

end Termroom.Store
