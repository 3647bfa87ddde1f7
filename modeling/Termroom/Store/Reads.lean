import Mathlib.Data.List.Sort
import Termroom.Conc.Run
import Termroom.Store.Terminals

/-!
# Which Terminals have unread activity

A row of `terminals` has the revision of its last activity, and a row of
`terminal_activity_reads` the revision that was acknowledged last. Reconciliation and observation
raise the first; a summary writes the second where it is missing, and an acknowledgement raises it
to the revision that its caller has seen. The second goes with its Terminal (ON DELETE CASCADE).

`read_state_exact` compares two states of one run. Neither revision of a Terminal goes back; what
is acknowledged is not later than the activity; a Terminal is reported unread exactly when its
activity is later; and activity that no acknowledgement has reached stays unread.
-/

set_option autoImplicit false

namespace Termroom.Store.Reads

open Conc Data

/-! ## 1. The source -/

/-- A row of `terminal_activity_reads`. -/
structure ActivityRead where
  terminalId : String
  acknowledgedActivityAt : Int
  createdAt : Nat
  updatedAt : Nat
  deriving DecidableEq, Repr

/-- A record of the activity of one window, as the provider lists it. -/
structure ActivityRecord where
  tmuxWindow : Option String
  activityAt : Option Json
  deriving DecidableEq

/-- An entry of `terminals` in a summary, and the answer to an acknowledgement. -/
structure TerminalActivity where
  terminalId : String
  workspaceId : String
  activityAt : Int
  acknowledgedActivityAt : Int
  unread : Bool
  deriving DecidableEq, Repr

structure WorkspaceActivity where
  workspaceId : String
  terminalCount : Nat
  unreadTerminalCount : Nat
  unreadCount : Nat
  latestUnreadTerminalId : Option String
  deriving DecidableEq, Repr

structure ActivitySummary where
  terminals : List TerminalActivity
  workspaces : List WorkspaceActivity
  unreadCount : Nat
  latestUnreadTerminalId : Option String
  deriving DecidableEq, Repr

inductive ReadError where
  | value (message : String)
  | key (message : String)
  | type
  deriving DecidableEq, Repr

structure TerminalStore where
  terminals : List Terminal
  reads : List ActivityRead
  /-- Every id that a Terminal had. -/
  drawn : List String

/-- `_terminal_activity_revision`, without `allow_none`. -/
def activityRevision (value : Option Json) : Except StoreError Int :=
  match terminalActivityRevision value with
  | .ok (some revision) => .ok revision
  | .ok none => .error (.value "Terminal activity revision is invalid")
  | .error e => .error e

/-- The loop over the records of one Workspace. -/
def observedWindows (observed : List (String × Int)) :
    List ActivityRecord → Except StoreError (List (String × Int))
  | [] => .ok observed
  | record :: rest =>
    let window := orText record.tmuxWindow ""
    match activityRevision record.activityAt with
    | .error _ => .error (.value "tmux exposed an invalid Terminal activity record")
    | .ok revision =>
      if window = "" ∨ window ∈ observed.map Prod.fst then
        .error (.value "tmux exposed an invalid Terminal activity record")
      else observedWindows (observed ++ [(window, revision)]) rest

/-- `normalized`; a mapping has each of its keys once. -/
def normalizedRecords : List (String × List ActivityRecord) →
    Except StoreError (List (String × List (String × Int)))
  | [] => .ok []
  | (workspaceId, records) :: rest => do
    let observed ← observedWindows [] records
    let tail ← normalizedRecords rest
    return if observed.isEmpty then tail else (workspaceId, observed) :: tail

/-- What `observed_terminal_activity` has for a row that is a shell. -/
def observedRevision (normalized : List (String × List (String × Int))) (row : Terminal) :
    Option Int :=
  if row.role = .shell then
    (normalized.lookup row.workspaceId).bind fun observed => observed.lookup row.tmuxWindow
  else none

/-- UPDATE terminals SET activity_at = MAX(COALESCE(activity_at, 0), …) -/
def observed (normalized : List (String × List (String × Int))) (row : Terminal) : Terminal :=
  match observedRevision normalized row with
  | some revision => { row with activityAt := some (max (row.activityAt.getD 0) revision) }
  | none => row

/-- The arguments of `terminal_activity_summary`. -/
structure Scope where
  workspaceId : Option String
  workspaceIds : Option (List String)
  terminalId : Option String

/-- The condition on a row of `terminals`, `activity_at IS NOT NULL` apart. -/
def Scope.admits (scope : Scope) (row : Terminal) : Bool :=
  row.role = .shell && scope.workspaceId.all (· = row.workspaceId) &&
    scope.workspaceIds.all (row.workspaceId ∈ ·) && scope.terminalId.all (· = row.id)

/-- The row that a summary would insert. -/
def baseline (scope : Scope) (now : Nat) (row : Terminal) : Option ActivityRead :=
  if scope.admits row then row.activityAt.map fun activityAt => ⟨row.id, activityAt, now, now⟩
  else none

/-- INSERT … SELECT … ON CONFLICT(terminal_id) DO NOTHING -/
def insertBaselines : List ActivityRead → List ActivityRead → List ActivityRead
  | [], reads => reads
  | read :: rest, reads =>
    insertBaselines rest
      (if (Table.find ActivityRead.terminalId read.terminalId reads).isSome then reads
      else reads ++ [read])

/-- A row of the join of `terminals` and `terminal_activity_reads`. -/
def joined (scope : Scope) (reads : List ActivityRead) (row : Terminal) :
    Option TerminalActivity :=
  if scope.admits row then
    row.activityAt.bind fun activityAt =>
      (Table.find ActivityRead.terminalId row.id reads).map fun read =>
        { terminalId := row.id
          workspaceId := row.workspaceId
          activityAt
          acknowledgedActivityAt := read.acknowledgedActivityAt
          unread := read.acknowledgedActivityAt < activityAt }
  else none

/-- ORDER BY activity_at DESC, created_at DESC -/
def latestFirst (a b : Terminal) : Prop :=
  b.activityAt.getD 0 < a.activityAt.getD 0 ∨
    b.activityAt.getD 0 = a.activityAt.getD 0 ∧ b.createdAt ≤ a.createdAt

instance : DecidableRel latestFirst := fun a b => by
  dsimp only [latestFirst]
  infer_instance

/-- One turn of the loop over the rows, once `setdefault` has found the entry. -/
def WorkspaceActivity.count (summary : WorkspaceActivity) (row : TerminalActivity) :
    WorkspaceActivity :=
  if row.unread then
    { summary with
      terminalCount := summary.terminalCount + 1
      unreadTerminalCount := summary.unreadTerminalCount + 1
      unreadCount := summary.unreadCount + 1
      latestUnreadTerminalId := summary.latestUnreadTerminalId.or (some row.terminalId) }
  else { summary with terminalCount := summary.terminalCount + 1 }

/-- The loop over the rows. -/
def workspaceSummaries (summaries : List WorkspaceActivity) :
    List TerminalActivity → List WorkspaceActivity
  | [] => summaries
  | row :: rest =>
    let summaries :=
      if (Table.find WorkspaceActivity.workspaceId row.workspaceId summaries).isSome then summaries
      else summaries ++ [⟨row.workspaceId, 0, 0, 0, none⟩]
    workspaceSummaries
      (summaries.map fun summary =>
        if summary.workspaceId = row.workspaceId then summary.count row else summary) rest

/-- INSERT … ON CONFLICT(terminal_id) DO UPDATE SET acknowledged_activity_at = MAX(…) -/
def upsertRead (terminalId : String) (observedActivityAt : Int) (now : Nat)
    (reads : List ActivityRead) : List ActivityRead :=
  match Table.find ActivityRead.terminalId terminalId reads with
  | none => reads ++ [⟨terminalId, observedActivityAt, now, now⟩]
  | some read =>
    Table.replace ActivityRead.terminalId
      { read with
        acknowledgedActivityAt := max read.acknowledgedActivityAt observedActivityAt
        updatedAt := now } reads

namespace TerminalStore

def new : TerminalStore := ⟨[], [], []⟩

/-- The rows of `terminals` after a transaction; what was read of a row goes with it. -/
def withTerminals (w : TerminalStore) (terminals : List Terminal) : TerminalStore where
  terminals
  reads := w.reads.filter fun read => (Table.find Terminal.id read.terminalId terminals).isSome
  drawn := w.drawn ++ terminals.map Terminal.id

/-- `create_terminal` -/
def create (w : TerminalStore) (workspaces : List String) (row : Terminal) :
    Except StoreError Terminal × TerminalStore :=
  match insertTerminal workspaces row w.terminals with
  | .error e => (.error e, w)
  | .ok terminals => (.ok row, w.withTerminals terminals)

def reconcile (w : TerminalStore) (workspaces : List String) (workspaceId : String)
    (windows : List TmuxWindow) (now : Nat) (uuids : Nat → String) :
    Except StoreError (List Terminal) × TerminalStore :=
  let (answer, terminals) :=
    reconcileTerminals workspaces workspaceId windows now uuids w.terminals
  (answer, w.withTerminals terminals)

/-- `observe_terminal_activity_batch`, and `observe_terminal_activity` for one Workspace. -/
def observe (w : TerminalStore) (records : List (String × List ActivityRecord)) :
    Except StoreError (List (String × List Terminal)) × TerminalStore :=
  match normalizedRecords records with
  | .error e => (.error e, w)
  | .ok normalized =>
    let terminals := w.terminals.map (observed normalized)
    let answer := normalized.map fun (workspaceId, _) =>
      (workspaceId, (listTerminals workspaceId terminals).filter fun row =>
        (observedRevision normalized row).isSome)
    (.ok answer, { w with terminals })

/-- `terminal_activity_summary` -/
def summary (w : TerminalStore) (scope : Scope) (now : Nat) : ActivitySummary × TerminalStore :=
  let reads := insertBaselines (w.terminals.filterMap (baseline scope now)) w.reads
  let rows := (w.terminals.insertionSort latestFirst).filterMap (joined scope reads)
  let unreadRows := rows.filter TerminalActivity.unread
  ({ terminals := rows
     workspaces := workspaceSummaries [] rows
     unreadCount := unreadRows.length
     latestUnreadTerminalId := unreadRows.head?.map TerminalActivity.terminalId },
    { w with reads })

/-- `acknowledge_terminal_activity` -/
def acknowledge (w : TerminalStore) (terminalId : String) (observedActivityAt : Option Json)
    (now : Nat) : Except ReadError TerminalActivity × TerminalStore :=
  match activityRevision observedActivityAt with
  | .error _ => (.error (.value "Terminal activity revision is invalid"), w)
  | .ok observedActivityAt =>
    match (Table.find Terminal.id terminalId w.terminals).filter (·.role = .shell) with
    | none => (.error (.key ("Unknown shell Terminal: " ++ terminalId)), w)
    | some terminal =>
      match terminal.activityAt with
      | none => (.error (.key ("Terminal activity is unavailable: " ++ terminalId)), w)
      | some currentRevision =>
        if currentRevision < observedActivityAt then
          (.error (.value "Terminal activity revision is newer than the server cache"), w)
        else
          let reads := upsertRead terminalId observedActivityAt now w.reads
          match Table.find ActivityRead.terminalId terminalId reads with
          | none => (.error .type, w)
          | some read =>
            let acknowledged := read.acknowledgedActivityAt
            (.ok ⟨terminalId, terminal.workspaceId, currentRevision, acknowledged,
              acknowledged < currentRevision⟩, { w with reads })

/-- `delete_terminal`, `reset_terminals`, and a Workspace that is deleted with its Terminals. -/
def remove (w : TerminalStore) (gone : Terminal → Bool) : TerminalStore :=
  w.withTerminals (w.terminals.filter fun row => !gone row)

end TerminalStore

/-! ## 2. Runs -/

inductive Act where
  | create (workspaces : List String) (row : Terminal)
  | remove (gone : Terminal → Bool)
  | reconcile (workspaces : List String) (workspaceId : String) (windows : List TmuxWindow)
      (now : Nat) (uuids : Nat → String)
  | observe (records : List (String × List ActivityRecord))
  | summary (scope : Scope) (now : Nat)
  | acknowledge (terminalId : String) (observedActivityAt : Option Json) (now : Nat)

/-- Each call is one transaction; one that raises leaves the tables as they were. `uuid4` draws no
    id twice. -/
inductive Step (w : TerminalStore) : Act → TerminalStore → Prop
  | create (workspaces : List String) (row : Terminal) (fresh : row.id ∉ w.drawn) :
      Step w (.create workspaces row) (w.create workspaces row).2
  | remove (gone : Terminal → Bool) : Step w (.remove gone) (w.remove gone)
  | reconcile (workspaces : List String) (workspaceId : String) (windows : List TmuxWindow)
      (now : Nat) (uuids : Nat → String) (fresh : ∀ n, uuids n ∉ w.drawn) :
      Step w (.reconcile workspaces workspaceId windows now uuids)
        (w.reconcile workspaces workspaceId windows now uuids).2
  | observe (records : List (String × List ActivityRecord)) :
      Step w (.observe records) (w.observe records).2
  | summary (scope : Scope) (now : Nat) : Step w (.summary scope now) (w.summary scope now).2
  | acknowledge (terminalId : String) (observedActivityAt : Option Json) (now : Nat) :
      Step w (.acknowledge terminalId observedActivityAt now)
        (w.acknowledge terminalId observedActivityAt now).2

namespace TerminalStore

/-- The Terminal is there. -/
def Has (w : TerminalStore) (id : String) : Prop :=
  (Table.find Terminal.id id w.terminals).isSome

def activity (w : TerminalStore) (id : String) : Option Int :=
  (Table.find Terminal.id id w.terminals).bind Terminal.activityAt

def acknowledged (w : TerminalStore) (id : String) : Option Int :=
  (Table.find ActivityRead.terminalId id w.reads).map ActivityRead.acknowledgedActivityAt

end TerminalStore

/-- What is reported of a Terminal is what is stored of it. -/
structure Reported (w : TerminalStore) (report : TerminalActivity) : Prop where
  activity : w.activity report.terminalId = some report.activityAt
  acknowledged : w.acknowledged report.terminalId = some report.acknowledgedActivityAt
  unread : report.unread = true ↔ report.acknowledgedActivityAt < report.activityAt

/-! ## 3. The rows of `terminals` -/

/-- A revision that is there stays, or a later one comes. -/
def Rises (a b : Option Int) : Prop := ∀ x, a = some x → ∃ y, b = some y ∧ x ≤ y

theorem Rises.refl (a : Option Int) : Rises a a := fun x h => ⟨x, h, le_refl x⟩

theorem Rises.trans {a b c : Option Int} (h : Rises a b) (h' : Rises b c) : Rises a c := by
  intro x hx
  obtain ⟨y, hy, hxy⟩ := h x hx
  obtain ⟨z, hz, hyz⟩ := h' y hy
  exact ⟨z, hz, hxy.trans hyz⟩

theorem observed_id (normalized : List (String × List (String × Int))) (row : Terminal) :
    (observed normalized row).id = row.id := by
  unfold observed
  split <;> rfl

/-- Every row is a new one, or it was there and its activity has not gone back. -/
structure Carried (fresh : String → Prop) (rows rows' : List Terminal) : Prop where
  ids : (rows.map Terminal.id).Nodup → (rows'.map Terminal.id).Nodup
  row : ∀ row' ∈ rows', fresh row'.id ∨
    ∃ row ∈ rows, row.id = row'.id ∧ Rises row.activityAt row'.activityAt

namespace Carried

variable {fresh fresh' : String → Prop} {rows rows' rows'' : List Terminal}

theorem refl (fresh : String → Prop) (rows : List Terminal) : Carried fresh rows rows :=
  ⟨id, fun row' mem => .inr ⟨row', mem, rfl, .refl _⟩⟩

theorem trans (h : Carried fresh rows rows') (h' : Carried fresh rows' rows'') :
    Carried fresh rows rows'' := by
  refine ⟨fun nodup => h'.ids (h.ids nodup), fun row'' mem => ?_⟩
  rcases h'.row row'' mem with hfresh | ⟨row', mem', heq', hrises'⟩
  · exact .inl hfresh
  · rcases h.row row' mem' with hfresh | ⟨row, mem, heq, hrises⟩
    · exact .inl (heq' ▸ hfresh)
    · exact .inr ⟨row, mem, heq.trans heq', hrises.trans hrises'⟩

theorem mono (h : Carried fresh rows rows') (sub : ∀ id, fresh id → fresh' id) :
    Carried fresh' rows rows' :=
  ⟨h.ids, fun row' mem => (h.row row' mem).imp_left (sub _)⟩

theorem sublist (h : rows'.Sublist rows) : Carried fresh rows rows' :=
  ⟨fun nodup => (h.map _).nodup nodup,
    fun row' mem => .inr ⟨row', h.subset mem, rfl, .refl _⟩⟩

theorem update {id : String} {update : Terminal → Terminal}
    (h : updateTerminal id update rows = .ok rows') (keeps : ∀ row, (update row).id = row.id)
    (rises : ∀ row, Rises row.activityAt (update row).activityAt) : Carried fresh rows rows' := by
  unfold updateTerminal at h
  split at h
  · obtain rfl := Except.ok.inj h
    exact .refl _ _
  · rename_i row hfind
    split at h
    · obtain rfl := Except.ok.inj h
      refine ⟨fun nodup => ?_, fun row' mem => .inr ?_⟩
      · rw [Table.map_key_replace]
        exact nodup
      · rcases Table.mem_replace mem with rfl | ⟨mem, -⟩
        · exact ⟨row, Table.find_mem hfind, (keeps row).symm, rises row⟩
        · exact ⟨row', mem, rfl, .refl _⟩
    · cases h

theorem insert {workspaces : List String} {row : Terminal}
    (h : insertTerminal workspaces row rows = .ok rows') (new : fresh row.id) :
    Carried fresh rows rows' := by
  unfold insertTerminal at h
  split at h
  · rename_i admitted
    obtain rfl := Except.ok.inj h
    have absent := Table.find_eq_none.mp (Option.isNone_iff_eq_none.mp admitted.2.1)
    refine ⟨fun nodup => ?_, fun row' mem => ?_⟩
    · rw [List.map_append, List.nodup_append]
      refine ⟨nodup, by simp, ?_⟩
      intro id hid other hother heq
      obtain ⟨old, mem, rfl⟩ := List.mem_map.mp hid
      obtain rfl : other = row.id := by simpa using hother
      exact absent old mem heq
    · rcases List.mem_append.mp mem with mem | mem
      · exact .inr ⟨row', mem, rfl, .refl _⟩
      · obtain rfl := List.mem_singleton.mp mem
        exact .inl new
  · cases h

theorem deleteUnclaimed {assigned : Assigned} (stored : List Terminal) :
    Carried fresh rows (deleteUnclaimed assigned stored rows) := by
  induction stored generalizing rows with
  | nil => exact .refl _ _
  | cons row rest ih =>
    unfold Store.deleteUnclaimed
    split
    · exact ih
    · have deleted : Carried fresh rows (deleteTerminal row.id rows) := .sublist List.filter_sublist
      exact deleted.trans ih

theorem holdAll {as : List (DesiredTerminal × Option Terminal)}
    (h : holdAll as rows = .ok rows') : Carried fresh rows rows' := by
  induction as generalizing rows with
  | nil =>
    obtain rfl := Except.ok.inj h
    exact .refl _ _
  | cons a as ih =>
    obtain ⟨item, claimed⟩ := a
    cases claimed with
    | none => exact ih h
    | some row =>
      obtain ⟨held, hheld, hrest⟩ := bind_eq_ok.mp h
      have first : Carried fresh rows held := .update hheld (fun _ => rfl) fun _ => .refl _
      exact first.trans (ih hrest)

theorem writeAll {workspaces : List String} {workspaceId : String} {now : Nat}
    {as : List (DesiredTerminal × Option Terminal)} {uuids : Nat → String}
    (h : writeAll workspaces workspaceId now as uuids rows = .ok rows') :
    Carried (fun id => ∃ n, uuids n = id) rows rows' := by
  induction as generalizing rows uuids with
  | nil =>
    obtain rfl := Except.ok.inj h
    exact .refl _ _
  | cons a as ih =>
    obtain ⟨item, claimed⟩ := a
    cases claimed with
    | none =>
      obtain ⟨inserted, hinserted, hrest⟩ := bind_eq_ok.mp h
      have first : Carried (fun id => ∃ n, uuids n = id) rows inserted :=
        .insert hinserted ⟨0, rfl⟩
      have rest : Carried (fun id => ∃ n, uuids n = id) inserted rows' := by
        apply (ih hrest).mono
        intro id hid
        obtain ⟨n, hn⟩ := hid
        exact ⟨n + 1, hn⟩
      exact first.trans rest
    | some row =>
      obtain ⟨followed, hfollowed, hrest⟩ := bind_eq_ok.mp h
      have first : Carried (fun id => ∃ n, uuids n = id) rows followed := by
        refine .update hfollowed (fun _ => rfl) fun stored x hx => ?_
        exact laterActivity_le hx
      exact first.trans (ih hrest)

theorem reconcile {workspaces : List String} {workspaceId : String} {windows : List TmuxWindow}
    {now : Nat} {uuids : Nat → String} :
    Carried (fun id => ∃ n, uuids n = id) rows
      (reconcileTerminals workspaces workspaceId windows now uuids rows).2 := by
  unfold reconcileTerminals
  split
  · exact .refl _ _
  · split
    · exact .refl _ _
    · rename_i hsync
      obtain ⟨held, hheld, hwritten⟩ := bind_eq_ok.mp hsync
      exact ((deleteUnclaimed _).trans (holdAll hheld)).trans (writeAll hwritten)

theorem observed (normalized : List (String × List (String × Int))) :
    Carried fresh rows (rows.map (observed normalized)) := by
  refine ⟨fun nodup => ?_, fun row' mem => .inr ?_⟩
  · rw [List.map_map]
    have hids : (Terminal.id ∘ Reads.observed normalized) = Terminal.id :=
      funext (observed_id normalized)
    rw [hids]
    exact nodup
  · obtain ⟨row, hrow, rfl⟩ := List.mem_map.mp mem
    refine ⟨row, hrow, (observed_id normalized row).symm, fun x hx => ?_⟩
    unfold Reads.observed
    split
    · rename_i revision _
      exact ⟨_, rfl, by simp [hx]⟩
    · exact ⟨x, hx, le_refl x⟩

end Carried

/-! ## 4. The invariant -/

/-- What was acknowledged of a Terminal is not later than its activity. -/
structure Ok (w : TerminalStore) : Prop where
  ids : (w.terminals.map Terminal.id).Nodup
  drawn : ∀ row ∈ w.terminals, row.id ∈ w.drawn
  read : ∀ read ∈ w.reads, ∃ x, w.activity read.terminalId = some x ∧
    read.acknowledgedActivityAt ≤ x

/-- What became of the Terminals of one state in a later one. -/
structure Later (w w' : TerminalStore) : Prop where
  drawn : ∀ id ∈ w.drawn, id ∈ w'.drawn
  /-- The id of a Terminal that is gone does not come back. -/
  has : ∀ id ∈ w.drawn, w'.Has id → w.Has id
  activity : ∀ id ∈ w.drawn, w'.Has id → Rises (w.activity id) (w'.activity id)
  acknowledged : ∀ id, w'.Has id → Rises (w.acknowledged id) (w'.acknowledged id)

namespace TerminalStore

variable {w w' w'' : TerminalStore} {row : Terminal} {id : String}

theorem activity_of_mem (ids : (w.terminals.map Terminal.id).Nodup) (mem : row ∈ w.terminals) :
    w.activity row.id = row.activityAt := by
  unfold activity
  rw [Table.find_of_mem ids mem]
  rfl

theorem has_of_mem (ids : (w.terminals.map Terminal.id).Nodup) (mem : row ∈ w.terminals) :
    w.Has row.id := by
  unfold Has
  rw [Table.find_of_mem ids mem]
  rfl

theorem exists_of_has (h : w.Has id) : ∃ row ∈ w.terminals, row.id = id := by
  obtain ⟨row, hrow⟩ := Option.isSome_iff_exists.mp h
  exact ⟨row, Table.find_mem hrow, Table.find_key hrow⟩

theorem has_of_activity {x : Int} (h : w.activity id = some x) : w.Has id := by
  unfold activity at h
  obtain ⟨row, hrow, -⟩ := Option.bind_eq_some_iff.mp h
  unfold Has
  rw [hrow]
  rfl

end TerminalStore

open TerminalStore

variable {w w' w'' : TerminalStore}

theorem Ok.new : Ok .new where
  ids := List.nodup_nil
  drawn := by simp [TerminalStore.new]
  read := by simp [TerminalStore.new]

theorem Ok.acknowledged_le (h : Ok w) {id : String} {x : Int} (hack : w.acknowledged id = some x) :
    ∃ y, w.activity id = some y ∧ x ≤ y := by
  unfold TerminalStore.acknowledged at hack
  obtain ⟨read, hread, rfl⟩ := Option.map_eq_some_iff.mp hack
  have hbound := h.read read (Table.find_mem hread)
  rw [Table.find_key hread] at hbound
  exact hbound

theorem Ok.has_drawn (h : Ok w) {id : String} (hhas : w.Has id) : id ∈ w.drawn := by
  obtain ⟨row, mem, rfl⟩ := exists_of_has hhas
  exact h.drawn row mem

theorem Later.refl (w : TerminalStore) : Later w w :=
  ⟨fun _ h => h, fun _ _ h => h, fun _ _ _ => .refl _, fun _ _ => .refl _⟩

theorem Later.trans (ok : Ok w) (h : Later w w') (h' : Later w' w'') : Later w w'' where
  drawn id hid := h'.drawn id (h.drawn id hid)
  has id hid hhas := h.has id hid (h'.has id (h.drawn id hid) hhas)
  activity id hid hhas := by
    have hid' := h.drawn id hid
    exact (h.activity id hid (h'.has id hid' hhas)).trans (h'.activity id hid' hhas)
  acknowledged id hhas := by
    intro x hx
    -- what is acknowledged has a Terminal, so its id was drawn
    obtain ⟨_, hactivity, -⟩ := ok.acknowledged_le hx
    have hid' := h.drawn id (ok.has_drawn (has_of_activity hactivity))
    exact ((h.acknowledged id (h'.has id hid' hhas)).trans (h'.acknowledged id hhas)) x hx

/-- The rows of `terminals` change, and what is read of them goes with those that are gone. -/
theorem Ok.carry (ok : Ok w)
    (carried : Carried (fun id => id ∉ w.drawn) w.terminals w'.terminals)
    (drawn : ∀ id ∈ w.drawn, id ∈ w'.drawn)
    (known : ∀ row ∈ w'.terminals, row.id ∈ w'.drawn)
    (reads : ∀ read ∈ w'.reads, read ∈ w.reads ∧ w'.Has read.terminalId)
    (kept : ∀ id, w'.Has id → w'.acknowledged id = w.acknowledged id) : Ok w' ∧ Later w w' := by
  have ids := carried.ids ok.ids
  -- a row that is there has its id from a row that was there, or the id is new
  have back : ∀ id ∈ w.drawn, w'.Has id → w.Has id ∧ Rises (w.activity id) (w'.activity id) := by
    intro id hid hhas
    obtain ⟨row', mem', rfl⟩ := exists_of_has hhas
    rcases carried.row row' mem' with hfresh | ⟨row, mem, heq, hrises⟩
    · exact absurd hid hfresh
    · rw [activity_of_mem ids mem', ← heq, activity_of_mem ok.ids mem]
      exact ⟨has_of_mem ok.ids mem, hrises⟩
  refine ⟨⟨ids, known, fun read mem => ?_⟩, ⟨drawn, fun id hid hhas => (back id hid hhas).1,
    fun id hid hhas => (back id hid hhas).2, fun id hhas => ?_⟩⟩
  · obtain ⟨old, hhas⟩ := reads read mem
    obtain ⟨x, hx, hle⟩ := ok.read read old
    have hid := ok.has_drawn (has_of_activity hx)
    obtain ⟨y, hy, hxy⟩ := (back _ hid hhas).2 x hx
    exact ⟨y, hy, hle.trans hxy⟩
  · rw [kept id hhas]
    exact .refl _

/-- The rows of `terminal_activity_reads` change. -/
theorem Ok.reread (ok : Ok w) {reads : List ActivityRead}
    (bounded : ∀ read ∈ reads, ∃ x, w.activity read.terminalId = some x ∧
      read.acknowledgedActivityAt ≤ x)
    (rises : ∀ id, Rises (w.acknowledged id) (TerminalStore.acknowledged { w with reads } id)) :
    Ok { w with reads } ∧ Later w { w with reads } :=
  ⟨⟨ok.ids, ok.drawn, bounded⟩,
    ⟨fun _ h => h, fun _ _ h => h, fun _ _ _ => .refl _, fun id _ => rises id⟩⟩

theorem find_filter {p : ActivityRead → Bool} {id : String} {reads : List ActivityRead}
    (h : ∀ read, read.terminalId = id → p read = true) :
    Table.find ActivityRead.terminalId id (reads.filter p) =
      Table.find ActivityRead.terminalId id reads := by
  unfold Table.find
  rw [List.find?_filter]
  congr 1
  funext read
  by_cases heq : read.terminalId = id
  · simp [heq, h read heq]
  · simp [heq]

theorem Ok.withTerminals (ok : Ok w) {terminals : List Terminal}
    (carried : Carried (fun id => id ∉ w.drawn) w.terminals terminals) :
    Ok (w.withTerminals terminals) ∧ Later w (w.withTerminals terminals) := by
  apply ok.carry carried
  · intro id hid
    exact List.mem_append_left _ hid
  · intro row mem
    exact List.mem_append_right _ (List.mem_map.mpr ⟨row, mem, rfl⟩)
  · intro read mem
    obtain ⟨old, hhas⟩ := List.mem_filter.mp mem
    exact ⟨old, hhas⟩
  · intro id hhas
    unfold TerminalStore.acknowledged TerminalStore.withTerminals
    rw [find_filter]
    rintro read rfl
    exact hhas

/-! ## 5. The rows of `terminal_activity_reads` -/

theorem find_insertBaselines (id : String) (new reads : List ActivityRead) :
    Table.find ActivityRead.terminalId id (insertBaselines new reads) =
      (Table.find ActivityRead.terminalId id reads).or
        (Table.find ActivityRead.terminalId id new) := by
  induction new generalizing reads with
  | nil => simp [insertBaselines, Table.find]
  | cons read rest ih =>
    unfold insertBaselines
    rw [ih]
    have hhead : Table.find ActivityRead.terminalId id (read :: rest) =
        if read.terminalId = id then some read
        else Table.find ActivityRead.terminalId id rest := by
      unfold Table.find
      by_cases heq : read.terminalId = id
      · simp [heq]
      · simp [heq]
    rw [hhead]
    by_cases heq : read.terminalId = id
    · subst heq
      cases hfind : Table.find ActivityRead.terminalId read.terminalId reads with
      | some old => simp [hfind]
      | none => simp [Table.find_append_self hfind]
    · rw [if_neg heq]
      split
      · rfl
      · rw [Table.find_append_ne heq]

theorem mem_insertBaselines {read : ActivityRead} {new reads : List ActivityRead}
    (h : read ∈ insertBaselines new reads) : read ∈ reads ∨ read ∈ new := by
  induction new generalizing reads with
  | nil => exact .inl h
  | cons first rest ih =>
    rcases ih h with old | new
    · split at old
      · exact .inl old
      · rcases List.mem_append.mp old with old | first
        · exact .inl old
        · exact .inr (List.mem_cons.mpr (.inl (List.mem_singleton.mp first)))
    · exact .inr (List.mem_cons_of_mem _ new)

/-- A row that a summary inserts has the activity of its Terminal. -/
theorem baseline_activity (ok : Ok w) {scope : Scope} {now : Nat} {read : ActivityRead}
    (h : read ∈ w.terminals.filterMap (baseline scope now)) :
    w.activity read.terminalId = some read.acknowledgedActivityAt := by
  obtain ⟨row, mem, hrow⟩ := List.mem_filterMap.mp h
  unfold baseline at hrow
  split at hrow
  · obtain ⟨x, hx, rfl⟩ := Option.map_eq_some_iff.mp hrow
    exact (activity_of_mem ok.ids mem).trans hx
  · cases hrow

theorem find_upsertRead (terminalId : String) (observedActivityAt : Int) (now : Nat)
    (reads : List ActivityRead) (id : String) :
    (Table.find ActivityRead.terminalId id (upsertRead terminalId observedActivityAt now
        reads)).map ActivityRead.acknowledgedActivityAt =
      if id = terminalId then
        some (match (Table.find ActivityRead.terminalId id reads).map
            ActivityRead.acknowledgedActivityAt with
          | none => observedActivityAt
          | some old => max old observedActivityAt)
      else (Table.find ActivityRead.terminalId id reads).map
        ActivityRead.acknowledgedActivityAt := by
  unfold upsertRead
  by_cases heq : id = terminalId
  · subst heq
    rw [if_pos rfl]
    cases hfind : Table.find ActivityRead.terminalId id reads with
    | none =>
      simp only
      rw [Table.find_append_key (by rfl) hfind]
      rfl
    | some read =>
      obtain rfl := Table.find_key hfind
      simp only
      rw [Table.find_replace_key (by rfl) hfind]
      rfl
  · rw [if_neg heq]
    cases hfind : Table.find ActivityRead.terminalId terminalId reads with
    | none =>
      simp only
      rw [Table.find_append_ne (Ne.symm heq)]
    | some read =>
      have hkey := Table.find_key hfind
      simp only
      rw [Table.find_replace_ne]
      simpa [hkey] using Ne.symm heq

theorem mem_upsertRead {terminalId : String} {observedActivityAt : Int} {now : Nat}
    {reads : List ActivityRead} {read : ActivityRead}
    (h : read ∈ upsertRead terminalId observedActivityAt now reads) :
    read ∈ reads ∨ read.terminalId = terminalId ∧
      (read.acknowledgedActivityAt = observedActivityAt ∨ ∃ old ∈ reads,
        old.terminalId = terminalId ∧ read.acknowledgedActivityAt =
          max old.acknowledgedActivityAt observedActivityAt) := by
  unfold upsertRead at h
  split at h
  · rcases List.mem_append.mp h with old | new
    · exact .inl old
    · obtain rfl := List.mem_singleton.mp new
      exact .inr ⟨rfl, .inl rfl⟩
  · rename_i found hfind
    have hkey := Table.find_key hfind
    rcases Table.mem_replace h with rfl | ⟨old, -⟩
    · exact .inr ⟨hkey, .inr ⟨found, Table.find_mem hfind, hkey, rfl⟩⟩
    · exact .inl old

/-! ## 6. Steps -/

theorem Ok.observe (ok : Ok w) (records : List (String × List ActivityRecord)) :
    Ok (w.observe records).2 ∧ Later w (w.observe records).2 := by
  unfold TerminalStore.observe
  split
  · exact ⟨ok, .refl w⟩
  · rename_i normalized _
    have carried : Carried (fun id => id ∉ w.drawn) w.terminals
        (w.terminals.map (observed normalized)) := .observed normalized
    apply ok.carry carried
    · exact fun _ hid => hid
    · intro row mem
      obtain ⟨old, hold, rfl⟩ := List.mem_map.mp mem
      rw [observed_id]
      exact ok.drawn old hold
    · intro read mem
      refine ⟨mem, ?_⟩
      obtain ⟨_, hx, -⟩ := ok.read read mem
      obtain ⟨row, hrow, heq⟩ := exists_of_has (has_of_activity hx)
      have hids := carried.ids ok.ids
      have hmem : observed normalized row ∈ w.terminals.map (observed normalized) :=
        List.mem_map.mpr ⟨row, hrow, rfl⟩
      have hid : (observed normalized row).id = read.terminalId :=
        (observed_id normalized row).trans heq
      rw [← hid]
      exact has_of_mem hids hmem
    · exact fun _ _ => rfl

theorem Ok.summary (ok : Ok w) (scope : Scope) (now : Nat) :
    Ok (w.summary scope now).2 ∧ Later w (w.summary scope now).2 := by
  apply ok.reread
  · intro read mem
    rcases mem_insertBaselines mem with old | new
    · exact ok.read read old
    · exact ⟨_, baseline_activity ok new, le_refl _⟩
  · intro id x hx
    unfold TerminalStore.acknowledged at hx ⊢
    obtain ⟨read, hread, rfl⟩ := Option.map_eq_some_iff.mp hx
    refine ⟨_, ?_, le_refl _⟩
    rw [find_insertBaselines, hread]
    rfl

/-- An acknowledgement is refused, or it is of a revision that the Terminal has reached. -/
theorem acknowledge_cases (w : TerminalStore) (id : String) (observedActivityAt : Option Json)
    (now : Nat) :
    (∃ e, w.acknowledge id observedActivityAt now = (.error e, w)) ∨
    ∃ revision terminal current read, activityRevision observedActivityAt = .ok revision ∧
      Table.find Terminal.id id w.terminals = some terminal ∧ terminal.activityAt = some current ∧
      revision ≤ current ∧
      Table.find ActivityRead.terminalId id (upsertRead id revision now w.reads) = some read ∧
      w.acknowledge id observedActivityAt now =
        (.ok ⟨id, terminal.workspaceId, current, read.acknowledgedActivityAt,
            read.acknowledgedActivityAt < current⟩,
          { w with reads := upsertRead id revision now w.reads }) := by
  unfold TerminalStore.acknowledge
  split
  · exact .inl ⟨_, rfl⟩
  · rename_i revision hrevision
    split
    · exact .inl ⟨_, rfl⟩
    · rename_i terminal hterminal
      split
      · exact .inl ⟨_, rfl⟩
      · rename_i current hcurrent
        split
        · exact .inl ⟨_, rfl⟩
        · rename_i hle
          dsimp only
          split
          · exact .inl ⟨_, rfl⟩
          · rename_i read hread
            have hfind := (Option.filter_eq_some_iff.mp hterminal).1
            exact .inr ⟨revision, terminal, current, read, hrevision, hfind, hcurrent,
              Int.not_lt.mp hle, hread, rfl⟩

theorem Ok.acknowledge (ok : Ok w) (id : String) (observedActivityAt : Option Json) (now : Nat) :
    Ok (w.acknowledge id observedActivityAt now).2 ∧
      Later w (w.acknowledge id observedActivityAt now).2 := by
  rcases acknowledge_cases w id observedActivityAt now with
    ⟨e, heq⟩ | ⟨revision, terminal, current, _, _, hfind, hcurrent, hle, _, heq⟩
  · rw [heq]
    exact ⟨ok, .refl w⟩
  · rw [heq]
    have hactivity : w.activity id = some current := by
      unfold TerminalStore.activity
      rw [hfind]
      exact hcurrent
    apply ok.reread
    · intro read mem
      rcases mem_upsertRead mem with old | ⟨heq, hnew | ⟨old, hold, hkey, hmax⟩⟩
      · exact ok.read read old
      · exact ⟨current, heq ▸ hactivity, hnew ▸ hle⟩
      · obtain ⟨x, hx, hbound⟩ := ok.read old hold
        rw [hkey, hactivity] at hx
        obtain rfl := Option.some.inj hx
        refine ⟨current, heq ▸ hactivity, ?_⟩
        rw [hmax]
        exact max_le hbound hle
    · intro other x hx
      unfold TerminalStore.acknowledged at hx ⊢
      rw [find_upsertRead, hx]
      split
      · exact ⟨_, rfl, le_max_left _ _⟩
      · exact ⟨x, rfl, le_refl x⟩

theorem Ok.create (ok : Ok w) (workspaces : List String) (row : Terminal)
    (fresh : row.id ∉ w.drawn) :
    Ok (w.create workspaces row).2 ∧ Later w (w.create workspaces row).2 := by
  unfold TerminalStore.create
  split
  · exact ⟨ok, .refl w⟩
  · rename_i terminals hinsert
    exact ok.withTerminals (.insert hinsert fresh)

theorem Ok.step {act : Act} (ok : Ok w) (step : Step w act w') : Ok w' ∧ Later w w' := by
  cases step with
  | create workspaces row fresh => exact ok.create workspaces row fresh
  | remove gone => exact ok.withTerminals (.sublist List.filter_sublist)
  | reconcile workspaces workspaceId windows now uuids fresh =>
    apply ok.withTerminals
    apply Carried.reconcile.mono
    rintro id ⟨n, rfl⟩
    exact fresh n
  | observe records => exact ok.observe records
  | summary scope now => exact ok.summary scope now
  | acknowledge terminalId observedActivityAt now =>
    exact ok.acknowledge terminalId observedActivityAt now

theorem acknowledged_withTerminals {terminals : List Terminal} {id : String} {y : Int}
    (h : (w.withTerminals terminals).acknowledged id = some y) : w.acknowledged id = some y := by
  unfold TerminalStore.acknowledged TerminalStore.withTerminals at h
  obtain ⟨read, hread, rfl⟩ := Option.map_eq_some_iff.mp h
  have hhas := (List.mem_filter.mp (Table.find_mem hread)).2
  have hkey := Table.find_key hread
  unfold TerminalStore.acknowledged
  rw [find_filter] at hread
  · rw [hread]
    rfl
  · intro other heq
    rw [hkey] at hhas
    rwa [heq]

/-- A revision that is acknowledged was before, or an acknowledgement carried it. -/
theorem acknowledged_step {act : Act} (step : Step w act w') {id : String} {x y : Int}
    (hx : w.acknowledged id = some x) (hy : w'.acknowledged id = some y) :
    y = x ∨ ∃ observedActivityAt now, act = .acknowledge id observedActivityAt now ∧
      activityRevision observedActivityAt = .ok y := by
  have unchanged (h : w.acknowledged id = some y) : y = x := Option.some.inj (h.symm.trans hx)
  cases step with
  | create workspaces row _ =>
    unfold TerminalStore.create at hy
    split at hy
    · exact .inl (unchanged hy)
    · exact .inl (unchanged (acknowledged_withTerminals hy))
  | remove gone => exact .inl (unchanged (acknowledged_withTerminals hy))
  | reconcile workspaces workspaceId windows now uuids _ =>
    exact .inl (unchanged (acknowledged_withTerminals hy))
  | observe records =>
    unfold TerminalStore.observe at hy
    split at hy
    · exact .inl (unchanged hy)
    · exact .inl (unchanged hy)
  | summary scope now =>
    unfold TerminalStore.acknowledged TerminalStore.summary at hy
    rw [find_insertBaselines] at hy
    obtain ⟨read, hread, rfl⟩ := Option.map_eq_some_iff.mp hx
    rw [hread] at hy
    exact .inl (Option.some.inj hy).symm
  | acknowledge terminalId observedActivityAt now =>
    rcases acknowledge_cases w terminalId observedActivityAt now with
      ⟨e, heq⟩ | ⟨revision, _, _, _, hrevision, _, _, _, _, heq⟩
    · rw [heq] at hy
      exact .inl (unchanged hy)
    · rw [heq] at hy
      unfold TerminalStore.acknowledged at hx hy
      rw [find_upsertRead, hx] at hy
      split at hy
      · rename_i hid
        subst hid
        obtain rfl := Option.some.inj hy
        rcases le_total revision x with hle | hle
        · exact .inl (max_eq_left hle)
        · refine .inr ⟨observedActivityAt, now, rfl, ?_⟩
          dsimp only
          rw [max_eq_right hle]
          exact hrevision
      · exact .inl (Option.some.inj hy).symm

/-- What was acknowledged in a state, along a run from it. -/
theorem run_later {acts : List Act} (ok : Ok w) (run : Run Step w acts w') (id : String) :
    Ok w' ∧ Later w w' ∧ ∀ x y, w.acknowledged id = some x → w'.acknowledged id = some y →
      y = x ∨ ∃ observedActivityAt now, .acknowledge id observedActivityAt now ∈ acts ∧
        activityRevision observedActivityAt = .ok y := by
  induction run with
  | refl =>
    refine ⟨ok, .refl w, fun x y hx hy => .inl ?_⟩
    exact Option.some.inj (hy.symm.trans hx)
  | @snoc acts act t u run last ih =>
    obtain ⟨okt, hlater, ih⟩ := ih
    obtain ⟨oku, hlast⟩ := okt.step last
    refine ⟨oku, hlater.trans ok hlast, fun x y hx hy => ?_⟩
    -- the Terminal is there in the end, so it was there all along, and so was what was read of it
    obtain ⟨_, hx', -⟩ := ok.acknowledged_le hx
    obtain ⟨_, hy', -⟩ := oku.acknowledged_le hy
    have hid := ok.has_drawn (has_of_activity hx')
    have hhas := hlast.has id (hlater.drawn id hid) (has_of_activity hy')
    obtain ⟨z, hz, -⟩ := hlater.acknowledged id hhas x hx
    rcases acknowledged_step last hz hy with rfl | ⟨observedActivityAt, now, rfl, hrevision⟩
    · rcases ih x y hx hz with heq | ⟨observedActivityAt, now, mem, hrevision⟩
      · exact .inl heq
      · exact .inr ⟨observedActivityAt, now, List.mem_append_left _ mem, hrevision⟩
    · exact .inr ⟨observedActivityAt, now, by simp, hrevision⟩

/-! ## 7. Reports -/

/-- A summary reports every shell in its scope that has activity, as it is stored. -/
theorem summary_reported (ok : Ok w) {scope : Scope} {now : Nat} {report : TerminalActivity}
    (h : report ∈ (w.summary scope now).1.terminals) : Reported (w.summary scope now).2 report := by
  obtain ⟨row, hrow, hjoined⟩ := List.mem_filterMap.mp h
  have mem : row ∈ w.terminals := (List.perm_insertionSort _ _).mem_iff.mp hrow
  unfold joined at hjoined
  split at hjoined
  · obtain ⟨x, hx, hread⟩ := Option.bind_eq_some_iff.mp hjoined
    obtain ⟨read, hfind, rfl⟩ := Option.map_eq_some_iff.mp hread
    refine ⟨(activity_of_mem ok.ids mem).trans hx, ?_, by simp⟩
    unfold TerminalStore.acknowledged TerminalStore.summary
    rw [hfind]
    rfl
  · cases hjoined

theorem summary_reports {row : Terminal} (mem : row ∈ w.terminals) {scope : Scope} (now : Nat)
    (admitted : scope.admits row = true) (active : row.activityAt.isSome) :
    ∃ report ∈ (w.summary scope now).1.terminals, report.terminalId = row.id := by
  obtain ⟨x, hx⟩ := Option.isSome_iff_exists.mp active
  -- the row has what was read of it before, or its baseline
  have hread : (Table.find ActivityRead.terminalId row.id (insertBaselines
      (w.terminals.filterMap (baseline scope now)) w.reads)).isSome := by
    have hbaseline : (⟨row.id, x, now, now⟩ : ActivityRead) ∈
        w.terminals.filterMap (baseline scope now) := by
      refine List.mem_filterMap.mpr ⟨row, mem, ?_⟩
      simp [baseline, admitted, hx]
    rw [find_insertBaselines, Option.isSome_or, Bool.or_eq_true]
    right
    unfold Table.find
    rw [List.find?_isSome]
    exact ⟨_, hbaseline, by simp⟩
  obtain ⟨read, hread⟩ := Option.isSome_iff_exists.mp hread
  refine ⟨⟨row.id, row.workspaceId, x, read.acknowledgedActivityAt,
    read.acknowledgedActivityAt < x⟩, List.mem_filterMap.mpr ⟨row, ?_, ?_⟩, rfl⟩
  · exact (List.perm_insertionSort _ _).mem_iff.mpr mem
  · simp [joined, admitted, hx, hread]

theorem acknowledge_reported {id : String} {observedActivityAt : Option Json} {now : Nat}
    {report : TerminalActivity}
    (h : w.acknowledge id observedActivityAt now = (.ok report, w')) :
    report.terminalId = id ∧ Reported w' report := by
  rcases acknowledge_cases w id observedActivityAt now with
    ⟨e, heq⟩ | ⟨revision, terminal, current, read, _, hfind, hcurrent, _, hread, heq⟩
  · rw [heq] at h
    cases h
  · rw [heq] at h
    obtain ⟨hreport, rfl⟩ := Prod.mk.inj h
    obtain rfl := Except.ok.inj hreport
    refine ⟨rfl, ?_, ?_, by simp⟩
    · unfold TerminalStore.activity
      rw [hfind]
      exact hcurrent
    · unfold TerminalStore.acknowledged
      rw [hread]
      rfl

/-- **The read state.** Between two states of a run, for a Terminal that is there in both: its
    activity does not go back, nor does what is acknowledged of it; that is not later than the
    activity, and it is what was acknowledged before or what one acknowledgement in between
    carried. A summary and an acknowledgement report the Terminal as it is stored, unread exactly
    when its activity is later. -/
theorem read_state_exact {acts acts' : List Act} {w w' : TerminalStore}
    (run : Run Step .new acts w) (later : Run Step w acts' w') (id : String) :
    (w.Has id → w'.Has id → ∀ x, w.activity id = some x →
      ∃ y, w'.activity id = some y ∧ x ≤ y) ∧
    (w'.Has id → ∀ x, w.acknowledged id = some x → ∃ y, w'.acknowledged id = some y ∧ x ≤ y ∧
      (y = x ∨ ∃ observedActivityAt now, .acknowledge id observedActivityAt now ∈ acts' ∧
        activityRevision observedActivityAt = .ok y)) ∧
    (∀ x, w.acknowledged id = some x → ∃ y, w.activity id = some y ∧ x ≤ y) ∧
    (∀ scope now, (∀ report ∈ (w.summary scope now).1.terminals,
        Reported (w.summary scope now).2 report) ∧
      ∀ row ∈ w.terminals, scope.admits row = true → row.activityAt.isSome →
        ∃ report ∈ (w.summary scope now).1.terminals, report.terminalId = row.id) ∧
    (∀ observedActivityAt now report w₁,
      w.acknowledge id observedActivityAt now = (.ok report, w₁) →
        report.terminalId = id ∧ Reported w₁ report) := by
  have ok : Ok w := by
    apply run.invariant ?_ Ok.new
    intro _ _ _ step ok
    exact (ok.step step).1
  obtain ⟨ok', hlater, hcarried⟩ := run_later ok later id
  refine ⟨fun hhas hhas' => hlater.activity id (ok.has_drawn hhas) hhas',
    fun hhas' x hx => ?_, fun x hx => ok.acknowledged_le hx, fun scope now => ⟨?_, ?_⟩, ?_⟩
  · obtain ⟨y, hy, hle⟩ := hlater.acknowledged id hhas' x hx
    exact ⟨y, hy, hle, hcarried x y hx hy⟩
  · intro report mem
    exact summary_reported ok mem
  · intro row mem admitted active
    exact summary_reports mem now admitted active
  · intro observedActivityAt now report w₁ h
    exact acknowledge_reported h

/-- A Terminal with a baseline of 5. -/
def baselined : TerminalStore :=
  let created := TerminalStore.new.create ["w"]
    { shellRow "a" "@1" "shell" with activityAt := some 5 }
  (created.2.summary ⟨none, none, none⟩ 1).2

/-- Its activity comes to 9, and then a caller acknowledges the 7 that it has seen. -/
def acknowledgedLate : TerminalStore :=
  ((baselined.observe [("w", [⟨some "@1", some (.int 9)⟩])]).2.acknowledge "a" (some (.int 7)) 2).2

theorem read_state_exact_late :
    (∃ y, acknowledgedLate.activity "a" = some y ∧ 5 ≤ y) ∧
      (∃ y, acknowledgedLate.acknowledged "a" = some y ∧ 5 ≤ y) ∧
      (acknowledgedLate.summary ⟨none, none, none⟩ 3).1.unreadCount = 1 := by
  have run : Run Step .new [.create ["w"] { shellRow "a" "@1" "shell" with activityAt := some 5 },
      .summary ⟨none, none, none⟩ 1] baselined :=
    .snoc (.snoc .refl (.create _ _ (by decide +kernel))) (.summary _ _)
  have later : Run Step baselined [.observe [("w", [⟨some "@1", some (.int 9)⟩])],
      .acknowledge "a" (some (.int 7)) 2] acknowledgedLate :=
    .snoc (.snoc .refl (.observe _)) (.acknowledge _ _ _)
  have state := read_state_exact run later "a"
  have there : baselined.Has "a" := by
    unfold TerminalStore.Has
    decide +kernel
  have stays : acknowledgedLate.Has "a" := by
    unfold TerminalStore.Has
    decide +kernel
  obtain ⟨y, hy, hle, -⟩ := state.2.1 stays 5 (by decide +kernel)
  exact ⟨state.1 there stays 5 (by decide +kernel), ⟨y, hy, hle⟩, by decide +kernel⟩

end Termroom.Store.Reads
