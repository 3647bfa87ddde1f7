import Mathlib
import Termroom.Conc.Prog
import Termroom.Data.Json
import Termroom.Store.Tables

/-!
# The stored Terminals and the live tmux windows

`reconcile_terminals` projects the windows that tmux lists onto the rows of a Workspace. A row
keeps its id, and with it its URL, its activity and its acknowledgements, so the rows are
matched before any is written: first those of the managed roles, then the shells, each with the
row of its exact window or else with a row that is still free.

The transaction deletes the rows that no window was given, moves the others out of the way
under a placeholder, and then writes them one by one. Each statement is checked against the
constraints of the table on its own.
-/

set_option autoImplicit false

namespace Termroom.Store

open Conc Data

/-! ## 1. Rows and windows -/

inductive TerminalRole where
  | shell | fileRun | remoteRun
  deriving DecidableEq, Repr

/-- A row of `terminals`. -/
structure Terminal where
  id : String
  workspaceId : String
  name : String
  tmuxWindow : String
  role : TerminalRole
  managedRunId : Option String
  createdAt : Nat
  lastOpenedAt : Nat
  lastOutputAt : Option Nat
  activityAt : Option Int
  deriving DecidableEq, Repr

/-- A window as the provider lists it; an absent field is `none`. -/
structure TmuxWindow where
  tmuxWindow : Option String
  name : Option String
  role : Option String
  managedRunId : Option String
  activityAt : Option Json
  deriving DecidableEq

structure DesiredTerminal where
  tmuxWindow : String
  name : String
  role : TerminalRole
  managedRunId : Option String
  activityAt : Option Int
  deriving DecidableEq, Repr

def SQLITE_MAX_INTEGER : Int := 2 ^ 63 - 1

/-- `str(value or default)`. -/
def orText (value : Option String) (default : String) : String :=
  match value with
  | none => default
  | some text => if text = "" then default else text

/-- `_terminal_role`. -/
def terminalRole (value : Option String) : Except StoreError TerminalRole :=
  let role := orText value "shell"
  if role = "shell" then .ok .shell
  else if role = "file_run" then .ok .fileRun
  else if role = "remote_run" then .ok .remoteRun
  else .error (.value ("Unsupported Terminal role: " ++ role))

/-- The role as it is written in the row. -/
def TerminalRole.text : TerminalRole → String
  | .shell => "shell"
  | .fileRun => "file_run"
  | .remoteRun => "remote_run"

/-- `_terminal_activity_revision`, with `allow_none`. -/
def terminalActivityRevision : Option Json → Except StoreError (Option Int)
  | none | some .null => .ok none
  | some (.int value) =>
    if value < 0 ∨ SQLITE_MAX_INTEGER < value then
      .error (.value "Terminal activity revision is invalid")
    else .ok (some value)
  | some _ => .error (.value "Terminal activity revision is invalid")

/-- The loop over the windows; `seenWindows` and `seenManagedRoles` are those before. -/
def desiredTerminals (seenWindows : List String) (seenManagedRoles : List TerminalRole) :
    List TmuxWindow → Except StoreError (List DesiredTerminal)
  | [] => .ok []
  | raw :: rest => do
    let tmuxWindow := orText raw.tmuxWindow ""
    if tmuxWindow = "" ∨ tmuxWindow ∈ seenWindows then
      .error (.value "tmux exposed an invalid or duplicate window identity")
    else
      let role ← terminalRole raw.role
      let managedRunId := raw.managedRunId.filter (· ≠ "")
      let activityAt ← (terminalActivityRevision raw.activityAt).mapError fun _ =>
        .value "tmux exposed an invalid Terminal activity revision"
      let name := orText raw.name "shell"
      if role = .shell then
        let tail ← desiredTerminals (tmuxWindow :: seenWindows) seenManagedRoles rest
        return ⟨tmuxWindow, name, .shell, none, activityAt⟩ :: tail
      else if role ∈ seenManagedRoles then
        .error (.value ("tmux exposed more than one " ++ role.text ++ " Terminal"))
      else
        let tail ← desiredTerminals (tmuxWindow :: seenWindows) (role :: seenManagedRoles) rest
        return ⟨tmuxWindow, name, role, managedRunId, activityAt⟩ :: tail

/-! ## 2. Matching rows with windows -/

/-- `assigned_by_window`. The keys of its rows are `claimed_ids`. -/
abbrev Assigned := List (String × Terminal)

/-- `id in claimed_ids`. -/
def Assigned.claims (assigned : Assigned) (id : String) : Bool := assigned.any fun p => p.2.id = id

/-- `by_window.get`; the constraint leaves one row a window. -/
def byWindow (stored : List Terminal) (tmuxWindow : String) : Option Terminal :=
  stored.find? fun row => row.tmuxWindow = tmuxWindow

/-- `by_managed_role.get`; the constraint leaves one row a managed role. -/
def byManagedRole (stored : List Terminal) (role : TerminalRole) : Option Terminal :=
  stored.find? fun row => row.role ≠ .shell && row.role = role

def managedCandidate (stored : List Terminal) (item : DesiredTerminal) : Option Terminal :=
  match byManagedRole stored item.role with
  | some row => some row
  | none => (byWindow stored item.tmuxWindow).filter fun row => row.role = .shell

/-- The loop over the managed windows. -/
def matchManaged (stored : List Terminal) : Assigned → List DesiredTerminal → Assigned
  | assigned, [] => assigned
  | assigned, item :: rest =>
    if item.role = .shell then matchManaged stored assigned rest
    else
      match managedCandidate stored item with
      | some row =>
        if assigned.claims row.id then matchManaged stored assigned rest
        else matchManaged stored (assigned ++ [(item.tmuxWindow, row)]) rest
      | none => matchManaged stored assigned rest

/-- `remaining_shells`. -/
def remainingShells (stored : List Terminal) (assigned : Assigned) : List Terminal :=
  stored.filter fun row => row.role = .shell && !assigned.claims row.id

/-- The first shell of the window's name, or the first one. -/
def fallbackShell (remaining : List Terminal) (item : DesiredTerminal) : Option Terminal :=
  match remaining.find? fun row => orText (some row.name) "shell" = item.name with
  | some row => some row
  | none => remaining.head?

def shellCandidate (stored : List Terminal) (assigned : Assigned) (item : DesiredTerminal) :
    Option Terminal :=
  match (byWindow stored item.tmuxWindow).filter fun row =>
      row.role = .shell && !assigned.claims row.id with
  | some row => some row
  | none => fallbackShell (remainingShells stored assigned) item

/-- The loop over the shell windows. -/
def matchShells (stored : List Terminal) : Assigned → List DesiredTerminal → Assigned
  | assigned, [] => assigned
  | assigned, item :: rest =>
    if item.role = .shell then
      match shellCandidate stored assigned item with
      | some row => matchShells stored (assigned ++ [(item.tmuxWindow, row)]) rest
      | none => matchShells stored assigned rest
    else matchShells stored assigned rest

def assignedByWindow (stored : List Terminal) (desired : List DesiredTerminal) : Assigned :=
  matchShells stored (matchManaged stored [] desired) desired

/-- `assignments`. -/
def assignments (stored : List Terminal) (desired : List DesiredTerminal) :
    List (DesiredTerminal × Option Terminal) :=
  let assigned := assignedByWindow stored desired
  desired.map fun item => (item, assigned.lookup item.tmuxWindow)

/-! ## 3. The transaction -/

/-- `UNIQUE(workspace_id, tmux_window)`. -/
def Terminal.windowIndex (row : Terminal) : Option (String × String) :=
  some (row.workspaceId, row.tmuxWindow)

/-- `idx_terminals_managed_role`. -/
def Terminal.managedIndex (row : Terminal) : Option (String × TerminalRole) :=
  if row.role = .shell then none else some (row.workspaceId, row.role)

/-- What the constraints of the table ask of its rows. -/
structure TerminalsConstrained (rows : List Terminal) : Prop where
  ids : (rows.map Terminal.id).Nodup
  windows : Table.Indexed Terminal.id Terminal.windowIndex rows
  managed : Table.Indexed Terminal.id Terminal.managedIndex rows

/-- A row may stand in the table: neither unique index has its value already. -/
def admits (rows : List Terminal) (row : Terminal) : Bool :=
  !Table.clashes Terminal.id Terminal.windowIndex row rows &&
    !Table.clashes Terminal.id Terminal.managedIndex row rows

/-- DELETE FROM terminals WHERE id = ? -/
def deleteTerminal (id : String) (rows : List Terminal) : List Terminal :=
  rows.filter fun row => row.id ≠ id

/-- UPDATE terminals SET … WHERE id = ? -/
def updateTerminal (id : String) (update : Terminal → Terminal) (rows : List Terminal) :
    Except StoreError (List Terminal) :=
  match Table.find Terminal.id id rows with
  | none => .ok rows
  | some row =>
    if admits rows (update row) then .ok (Table.replace Terminal.id (update row) rows)
    else .error .integrity

/-- INSERT INTO terminals; `workspaces` are the ids that `workspace_id` may refer to. -/
def insertTerminal (workspaces : List String) (row : Terminal) (rows : List Terminal) :
    Except StoreError (List Terminal) :=
  if row.workspaceId ∈ workspaces ∧ (Table.find Terminal.id row.id rows).isNone ∧
      admits rows row then .ok (rows ++ [row])
  else .error .integrity

def placeholder (id : String) : String := "__termroom_sync__" ++ id

/-- The row out of the way of the others. -/
def Terminal.held (row : Terminal) : Terminal :=
  { row with tmuxWindow := placeholder row.id, role := .shell, managedRunId := none }

/-- `MAX(activity_at, ?)` where both are there. -/
def laterActivity : Option Int → Option Int → Option Int
  | stored, none => stored
  | none, some seen => some seen
  | some stored, some seen => some (max stored seen)

def Terminal.follow (item : DesiredTerminal) (row : Terminal) : Terminal :=
  { row with
    name := item.name
    tmuxWindow := item.tmuxWindow
    role := item.role
    managedRunId := item.managedRunId
    activityAt := laterActivity row.activityAt item.activityAt }

def DesiredTerminal.newRow (item : DesiredTerminal) (id workspaceId : String) (now : Nat) :
    Terminal where
  id
  workspaceId
  name := item.name
  tmuxWindow := item.tmuxWindow
  role := item.role
  managedRunId := item.managedRunId
  createdAt := now
  lastOpenedAt := now
  lastOutputAt := none
  activityAt := item.activityAt

/-- The rows that no window was given are deleted. -/
def deleteUnclaimed (assigned : Assigned) : List Terminal → List Terminal → List Terminal
  | [], rows => rows
  | row :: rest, rows =>
    deleteUnclaimed assigned rest
      (if assigned.claims row.id then rows else deleteTerminal row.id rows)

def holdAll : List (DesiredTerminal × Option Terminal) → List Terminal →
    Except StoreError (List Terminal)
  | [], rows => .ok rows
  | (_, none) :: rest, rows => holdAll rest rows
  | (_, some row) :: rest, rows => updateTerminal row.id Terminal.held rows >>= holdAll rest

/-- The last loop; `uuids` are what `uuid4` draws. -/
def writeAll (workspaces : List String) (workspaceId : String) (now : Nat) :
    List (DesiredTerminal × Option Terminal) → (uuids : Nat → String) → List Terminal →
      Except StoreError (List Terminal)
  | [], _, rows => .ok rows
  | (item, none) :: rest, uuids, rows =>
    insertTerminal workspaces (item.newRow (uuids 0) workspaceId now) rows >>=
      writeAll workspaces workspaceId now rest fun n => uuids (n + 1)
  | (item, some row) :: rest, uuids, rows =>
    updateTerminal row.id (Terminal.follow item) rows >>=
      writeAll workspaces workspaceId now rest uuids

/-- SELECT * FROM terminals WHERE workspace_id = ? ORDER BY created_at. The rows of a Workspace
    are found in the index of its windows, and those created together stay in its order. -/
def listTerminals (workspaceId : String) (rows : List Terminal) : List Terminal :=
  (rows.filter fun row => row.workspaceId = workspaceId).insertionSort fun a b =>
    a.createdAt < b.createdAt ∨ a.createdAt = b.createdAt ∧ a.tmuxWindow ≤ b.tmuxWindow

/-- The statements, from the first SELECT to the last. -/
def syncTerminals (workspaces : List String) (workspaceId : String)
    (desired : List DesiredTerminal) (now : Nat) (uuids : Nat → String) (rows : List Terminal) :
    Except StoreError (List Terminal) :=
  let stored := listTerminals workspaceId rows
  let assigned := assignedByWindow stored desired
  let assignments := assignments stored desired
  holdAll assignments (deleteUnclaimed assigned stored rows) >>=
    writeAll workspaces workspaceId now assignments uuids

/-- `StateStore.reconcile_terminals`: its answer, and the rows that it leaves. What raises is
    not committed. -/
def reconcileTerminals (workspaces : List String) (workspaceId : String)
    (windows : List TmuxWindow) (now : Nat) (uuids : Nat → String) (rows : List Terminal) :
    Except StoreError (List Terminal) × List Terminal :=
  match desiredTerminals [] [] windows with
  | .error e => (.error e, rows)
  | .ok desired =>
    match syncTerminals workspaces workspaceId desired now uuids rows with
    | .error e => (.error e, rows)
    | .ok rows' => (.ok (listTerminals workspaceId rows'), rows')

/-! ## 4. Statements -/

section statements

variable {row x y : Terminal} {rows rest others : List Terminal} {id : String}
variable {workspaces : List String} {workspaceId : String}

/-- Two rows that neither unique index keeps apart from each other. -/
structure Compatible (a b : Terminal) : Prop where
  window : a.workspaceId = b.workspaceId → a.tmuxWindow ≠ b.tmuxWindow
  role : a.workspaceId = b.workspaceId → a.role ≠ .shell → a.role ≠ b.role

theorem Compatible.symm (h : Compatible x y) : Compatible y x where
  window same := (h.window same.symm).symm
  role same managed he := h.role same.symm (he ▸ managed) he.symm

theorem Compatible.elsewhere (h : x.workspaceId ≠ y.workspaceId) : Compatible x y :=
  ⟨fun same => absurd same h, fun same => absurd same h⟩

theorem admits_of_compatible (h : ∀ x ∈ rows, x.id ≠ row.id → Compatible row x) :
    admits rows row = true := by
  have window : Table.clashes Terminal.id Terminal.windowIndex row rows = false := by
    apply Table.clashes_eq_false.mpr
    intro x hx hne
    right
    intro he
    obtain ⟨hworkspace, hwindow⟩ := Prod.mk.inj (Option.some.inj he)
    exact (h x hx hne).window hworkspace.symm hwindow.symm
  have managed : Table.clashes Terminal.id Terminal.managedIndex row rows = false := by
    apply Table.clashes_eq_false.mpr
    intro x hx hne
    unfold Terminal.managedIndex
    by_cases hshell : x.role = .shell
    · left
      exact if_pos hshell
    · right
      rw [if_neg hshell]
      split
      · exact nofun
      · rename_i hrow
        intro he
        obtain ⟨hworkspace, hrole⟩ := Prod.mk.inj (Option.some.inj he)
        exact (h x hx hne).role hworkspace.symm hrow hrole.symm
  unfold admits
  rw [window, managed]
  rfl

theorem deleteTerminal_perm (h : rows.Perm (row :: rest))
    (nodup : ((row :: rest).map Terminal.id).Nodup) : (deleteTerminal row.id rows).Perm rest := by
  have hfilter : (row :: rest).filter (fun x => x.id ≠ row.id) = rest := by
    rw [List.filter_cons_of_neg (by simp), List.filter_eq_self]
    intro x hx
    apply decide_eq_true
    intro he
    exact (List.nodup_cons.mp nodup).1 (he ▸ List.mem_map.mpr ⟨x, hx, rfl⟩)
  have moved := h.filter fun x => x.id ≠ row.id
  rwa [hfilter] at moved

theorem updateTerminal_perm {update : Terminal → Terminal} (h : rows.Perm (row :: rest))
    (nodup : ((row :: rest).map Terminal.id).Nodup) (same : (update row).id = row.id)
    (fits : ∀ x ∈ rest, Compatible (update row) x) :
    ∃ rows', updateTerminal row.id update rows = .ok rows' ∧ rows'.Perm (update row :: rest) := by
  have nodupRows : (rows.map Terminal.id).Nodup := (h.map _).nodup_iff.mpr nodup
  have admitted : admits rows (update row) = true := by
    apply admits_of_compatible
    intro x hx hne
    rcases List.mem_cons.mp (h.mem_iff.mp hx) with rfl | hx
    · exact absurd same.symm hne
    · exact fits x hx
  unfold updateTerminal
  rw [Table.find_perm h nodupRows]
  dsimp only
  rw [if_pos admitted]
  exact ⟨_, rfl, Table.replace_perm h nodupRows same.symm⟩

theorem insertTerminal_perm (h : rows.Perm rest) (workspace : row.workspaceId ∈ workspaces)
    (fresh : ∀ x ∈ rest, x.id ≠ row.id) (fits : ∀ x ∈ rest, Compatible row x) :
    ∃ rows', insertTerminal workspaces row rows = .ok rows' ∧ rows'.Perm (row :: rest) := by
  have unfound : Table.find Terminal.id row.id rows = none :=
    Table.find_eq_none.mpr fun x hx => fresh x (h.mem_iff.mp hx)
  have admitted : admits rows row = true :=
    admits_of_compatible fun x hx _ => fits x (h.mem_iff.mp hx)
  unfold insertTerminal
  rw [if_pos ⟨workspace, by rw [unfound]; rfl, admitted⟩]
  refine ⟨_, rfl, List.perm_append_comm.trans ?_⟩
  exact h.cons row

/-! ## 5. Loops of statements -/

theorem deleteUnclaimed_perm {assigned : Assigned} {stored : List Terminal}
    (h : rows.Perm (stored ++ others)) (nodup : ((stored ++ others).map Terminal.id).Nodup) :
    (deleteUnclaimed assigned stored rows).Perm
      (stored.filter (fun row => assigned.claims row.id) ++ others) := by
  induction stored generalizing rows others with
  | nil => exact h
  | cons row rest ih =>
    unfold deleteUnclaimed
    split
    · rename_i hclaimed
      -- a claimed row joins the others
      have h' : rows.Perm (rest ++ row :: others) := h.trans List.perm_middle.symm
      have kept := ih h' ((List.perm_middle.map _).nodup_iff.mpr nodup)
      rw [List.filter_cons, if_pos hclaimed]
      exact kept.trans List.perm_middle
    · rename_i hunclaimed
      rw [List.filter_cons, if_neg hunclaimed]
      exact ih (deleteTerminal_perm h nodup) (List.nodup_cons.mp nodup).2

variable {as : List (DesiredTerminal × Option Terminal)}

/-- The rows of the assignments. -/
def claimedRows (as : List (DesiredTerminal × Option Terminal)) : List Terminal :=
  as.filterMap Prod.snd

theorem held_id : (Terminal.held row).id = row.id := rfl

theorem placeholder_injective {a b : String} (h : placeholder a = placeholder b) : a = b :=
  (String.append_right_inj _).mp h

theorem held_compatible (h : x.id ≠ y.id) : Compatible x.held y.held where
  window _ he := h (placeholder_injective he)
  role _ hshell := absurd rfl hshell

theorem holdAll_perm (h : rows.Perm (claimedRows as ++ others))
    (nodup : ((claimedRows as ++ others).map Terminal.id).Nodup)
    (waiting : ∀ row ∈ claimedRows as, ∀ x ∈ claimedRows as, x.id ≠ row.id →
      Compatible row.held x)
    (fits : ∀ row ∈ claimedRows as, ∀ x ∈ others, Compatible row.held x) :
    ∃ rows', holdAll as rows = .ok rows' ∧
      rows'.Perm ((claimedRows as).map Terminal.held ++ others) := by
  induction as generalizing rows others with
  | nil => exact ⟨rows, rfl, h⟩
  | cons a as ih =>
    obtain ⟨item, claimed⟩ := a
    cases claimed with
    | none => exact ih h nodup waiting fits
    | some row =>
      have hrows : claimedRows ((item, some row) :: as) = row :: claimedRows as := rfl
      rw [hrows] at h nodup waiting fits ⊢
      have hne : ∀ x ∈ claimedRows as ++ others, x.id ≠ row.id := by
        intro x hx he
        exact (List.nodup_cons.mp nodup).1 (he ▸ List.mem_map.mpr ⟨x, hx, rfl⟩)
      obtain ⟨rows₁, hrows₁, moved⟩ := updateTerminal_perm h nodup held_id fun x hx => by
        rcases List.mem_append.mp hx with hx' | hx'
        · exact waiting row List.mem_cons_self x (List.mem_cons_of_mem _ hx') (hne x hx)
        · exact fits row List.mem_cons_self x hx'
      have moved : rows₁.Perm (claimedRows as ++ row.held :: others) :=
        moved.trans List.perm_middle.symm
      have nodup₁ : ((claimedRows as ++ row.held :: others).map Terminal.id).Nodup :=
        (List.perm_middle.map _).nodup_iff.mpr nodup
      obtain ⟨rows₂, hrows₂, final⟩ := ih moved nodup₁
        (fun r hr x hx => waiting r (List.mem_cons_of_mem _ hr) x (List.mem_cons_of_mem _ hx))
        (fun r hr x hx => by
          rcases List.mem_cons.mp hx with rfl | hx
          · exact held_compatible (hne r (List.mem_append_left _ hr))
          · exact fits r (List.mem_cons_of_mem _ hr) x hx)
      refine ⟨rows₂, ?_, final.trans List.perm_middle⟩
      unfold holdAll
      rw [hrows₁]
      exact hrows₂

/-- The rows that the last loop leaves, in the order of the windows. -/
def writtenRows (workspaceId : String) (now : Nat) :
    List (DesiredTerminal × Option Terminal) → (uuids : Nat → String) → List Terminal
  | [], _ => []
  | (item, none) :: rest, uuids =>
    item.newRow (uuids 0) workspaceId now :: writtenRows workspaceId now rest fun n => uuids (n + 1)
  | (item, some row) :: rest, uuids =>
    row.follow item :: writtenRows workspaceId now rest uuids

theorem held_compatible_of_window (h : x.tmuxWindow ≠ placeholder y.id) :
    Compatible x y.held where
  window _ := h
  role _ hmanaged := hmanaged

theorem writeAll_perm {now : Nat} {uuids : Nat → String} (workspace : workspaceId ∈ workspaces)
    (h : rows.Perm ((claimedRows as).map Terminal.held ++ others))
    (nodup : ((claimedRows as ++ others).map Terminal.id).Nodup)
    (injective : ∀ m n, uuids m = uuids n → m = n)
    (fresh : ∀ n, ∀ x ∈ claimedRows as ++ others, x.id ≠ uuids n)
    (pairwise : (writtenRows workspaceId now as uuids).Pairwise Compatible)
    (waiting : ∀ x ∈ writtenRows workspaceId now as uuids, ∀ id, x.tmuxWindow ≠ placeholder id)
    (fits : ∀ x ∈ writtenRows workspaceId now as uuids, ∀ y ∈ others, Compatible x y) :
    ∃ rows', writeAll workspaces workspaceId now as uuids rows = .ok rows' ∧
      rows'.Perm (writtenRows workspaceId now as uuids ++ others) ∧
      (rows'.map Terminal.id).Nodup := by
  induction as generalizing rows others uuids with
  | nil => exact ⟨rows, rfl, h, (h.map _).nodup_iff.mpr nodup⟩
  | cons a as ih =>
    -- the row of this window is written, and joins the others
    have step : ∀ (new : Terminal) (rows₁ : List Terminal) (uuids' : Nat → String),
        writtenRows workspaceId now (a :: as) uuids =
          new :: writtenRows workspaceId now as uuids' →
        rows₁.Perm (new :: ((claimedRows as).map Terminal.held ++ others)) →
        ((claimedRows as ++ new :: others).map Terminal.id).Nodup →
        (∀ m n, uuids' m = uuids' n → m = n) →
        (∀ n, ∀ x ∈ claimedRows as ++ new :: others, x.id ≠ uuids' n) →
        ∃ rows', writeAll workspaces workspaceId now as uuids' rows₁ = .ok rows' ∧
          rows'.Perm (writtenRows workspaceId now (a :: as) uuids ++ others) ∧
          (rows'.map Terminal.id).Nodup := by
      intro new rows₁ uuids' hwritten moved nodup₁ injective₁ fresh₁
      rw [hwritten] at pairwise waiting fits ⊢
      obtain ⟨head, tail⟩ := List.pairwise_cons.mp pairwise
      obtain ⟨rows₂, hrows₂, final, ids⟩ := ih (moved.trans List.perm_middle.symm) nodup₁ injective₁
        fresh₁ tail (fun x hx => waiting x (List.mem_cons_of_mem _ hx)) fun x hx y hy => by
          rcases List.mem_cons.mp hy with rfl | hy
          · exact (head x hx).symm
          · exact fits x (List.mem_cons_of_mem _ hx) y hy
      exact ⟨rows₂, hrows₂, final.trans List.perm_middle, ids⟩
    obtain ⟨item, claimed⟩ := a
    cases claimed with
    | none =>
      let new := item.newRow (uuids 0) workspaceId now
      have hnew : new ∈ writtenRows workspaceId now ((item, none) :: as) uuids :=
        List.mem_cons_self
      have unheld : ∀ x ∈ (claimedRows as).map Terminal.held ++ others, x.id ≠ new.id := by
        intro x hx
        rcases List.mem_append.mp hx with hx | hx
        · obtain ⟨r, hr, rfl⟩ := List.mem_map.mp hx
          exact fresh 0 r (List.mem_append_left _ hr)
        · exact fresh 0 x (List.mem_append_right _ hx)
      have compatible : ∀ x ∈ (claimedRows as).map Terminal.held ++ others, Compatible new x := by
        intro x hx
        rcases List.mem_append.mp hx with hx | hx
        · obtain ⟨r, hr, rfl⟩ := List.mem_map.mp hx
          exact held_compatible_of_window (waiting new hnew r.id)
        · exact fits new hnew x hx
      obtain ⟨rows₁, hrows₁, moved⟩ := insertTerminal_perm h workspace unheld compatible
      have nodup₁ : ((claimedRows as ++ new :: others).map Terminal.id).Nodup := by
        rw [(List.perm_middle.map _).nodup_iff, List.map_cons, List.nodup_cons]
        refine ⟨fun hmem => ?_, nodup⟩
        obtain ⟨x, hx, he⟩ := List.mem_map.mp hmem
        exact fresh 0 x hx he
      obtain ⟨rows₂, hrows₂, final⟩ := step new rows₁ (fun n => uuids (n + 1)) rfl moved nodup₁
        (fun m n he => Nat.succ.inj (injective _ _ he)) fun n x hx he => by
          rcases List.mem_cons.mp (List.perm_middle.mem_iff.mp hx) with rfl | hx
          · exact nomatch injective _ _ he
          · exact fresh (n + 1) x hx he
      refine ⟨rows₂, ?_, final⟩
      unfold writeAll
      rw [hrows₁]
      exact hrows₂
    | some row =>
      have hrows : claimedRows ((item, some row) :: as) = row :: claimedRows as := rfl
      rw [hrows] at h nodup fresh
      let new := row.follow item
      have hnew : new ∈ writtenRows workspaceId now ((item, some row) :: as) uuids :=
        List.mem_cons_self
      have hne : ∀ x ∈ claimedRows as ++ others, x.id ≠ row.id := by
        intro x hx he
        exact (List.nodup_cons.mp nodup).1 (he ▸ List.mem_map.mpr ⟨x, hx, rfl⟩)
      have nodupHeld : ((row.held :: ((claimedRows as).map Terminal.held ++ others)).map
          Terminal.id).Nodup := by
        simpa [Function.comp_def, held_id] using nodup
      have compatible : ∀ x ∈ (claimedRows as).map Terminal.held ++ others,
          Compatible (row.held.follow item) x := by
        intro x hx
        rcases List.mem_append.mp hx with hx | hx
        · obtain ⟨r, hr, rfl⟩ := List.mem_map.mp hx
          exact held_compatible_of_window (waiting new hnew r.id)
        · exact fits new hnew x hx
      obtain ⟨rows₁, hrows₁, moved⟩ := updateTerminal_perm h nodupHeld rfl compatible
      have nodup₁ : ((claimedRows as ++ new :: others).map Terminal.id).Nodup :=
        (List.perm_middle.map _).nodup_iff.mpr nodup
      obtain ⟨rows₂, hrows₂, final⟩ := step new rows₁ uuids rfl moved nodup₁ injective
        fun n x hx => by
          rcases List.mem_cons.mp (List.perm_middle.mem_iff.mp hx) with rfl | hx
          · exact fresh n row List.mem_cons_self
          · exact fresh n x (List.mem_cons_of_mem _ hx)
      refine ⟨rows₂, ?_, final⟩
      unfold writeAll
      rw [show updateTerminal row.id (Terminal.follow item) rows = .ok rows₁ from hrows₁]
      exact hrows₂

end statements

/-! ## 6. What is matched -/

section matching

variable {stored : List Terminal} {assigned : Assigned} {desired items : List DesiredTerminal}
variable {item : DesiredTerminal} {row : Terminal} {w : String} {all todo : List String}

/-- The rows matched so far; `todo` are the windows still to come, and `all` are all of them. -/
structure Matched (stored : List Terminal) (all todo : List String) (assigned : Assigned) :
    Prop where
  rows : ∀ p ∈ assigned, p.2 ∈ stored
  ids : (assigned.map fun p => p.2.id).Nodup
  windows : (assigned.map Prod.fst).Nodup
  ahead : ∀ w ∈ todo, w ∉ assigned.map Prod.fst
  known : ∀ w, w ∈ todo ∨ w ∈ assigned.map Prod.fst → w ∈ all

theorem claims_iff {id : String} : assigned.claims id = true ↔ ∃ p ∈ assigned, p.2.id = id := by
  simp [Assigned.claims]

theorem Matched.skip (h : Matched stored all (w :: todo) assigned) :
    Matched stored all todo assigned where
  rows := h.rows
  ids := h.ids
  windows := h.windows
  ahead v hv := h.ahead v (List.mem_cons_of_mem _ hv)
  known v hv := h.known v (hv.imp_left (List.mem_cons_of_mem _))

theorem Matched.claim (h : Matched stored all (w :: todo) assigned) (hw : w ∉ todo)
    (hrow : row ∈ stored) (free : assigned.claims row.id = false) :
    Matched stored all todo (assigned ++ [(w, row)]) where
  rows p hp := by
    rcases List.mem_append.mp hp with hp | hp
    · exact h.rows p hp
    · rw [List.mem_singleton.mp hp]
      exact hrow
  ids := by
    rw [List.map_append, List.nodup_append]
    refine ⟨h.ids, List.nodup_singleton _, ?_⟩
    intro id hid id' hid' he
    obtain ⟨p, hp, rfl⟩ := List.mem_map.mp hid
    rw [List.mem_singleton.mp hid'] at he
    exact nomatch free.symm.trans (claims_iff.mpr ⟨p, hp, he⟩)
  windows := by
    rw [List.map_append, List.nodup_append]
    refine ⟨h.windows, List.nodup_singleton _, ?_⟩
    intro v hv v' hv' he
    rw [List.mem_singleton.mp hv'] at he
    rw [show v = w from he] at hv
    exact h.ahead w List.mem_cons_self hv
  ahead v hv hmem := by
    rw [List.map_append] at hmem
    rcases List.mem_append.mp hmem with hmem | hmem
    · exact h.ahead v (List.mem_cons_of_mem _ hv) hmem
    · rw [show v = w from List.mem_singleton.mp hmem] at hv
      exact hw hv
  known v hv := by
    rw [List.map_append] at hv
    rcases hv with hv | hv
    · exact h.known v (.inl (List.mem_cons_of_mem _ hv))
    · rcases List.mem_append.mp hv with hv | hv
      · exact h.known v (.inr hv)
      · rw [show v = w from List.mem_singleton.mp hv]
        exact h.known w (.inl List.mem_cons_self)

theorem byWindow_mem (h : byWindow stored w = some row) : row ∈ stored ∧ row.tmuxWindow = w :=
  ⟨List.mem_of_find?_eq_some h, by simpa using List.find?_some h⟩

theorem byManagedRole_mem {role : TerminalRole} (h : byManagedRole stored role = some row) :
    row ∈ stored ∧ row.role ≠ .shell ∧ row.role = role :=
  ⟨List.mem_of_find?_eq_some h, by simpa using List.find?_some h⟩

theorem managedCandidate_mem (h : managedCandidate stored item = some row) :
    row ∈ stored ∧ (row.role ≠ .shell → row.role = item.role) := by
  unfold managedCandidate at h
  split at h
  · rename_i found
    obtain rfl := Option.some.inj h
    obtain ⟨hmem, -, hrole⟩ := byManagedRole_mem found
    exact ⟨hmem, fun _ => hrole⟩
  · obtain ⟨found, hshell⟩ := Option.filter_eq_some_iff.mp h
    exact ⟨(byWindow_mem found).1, fun hne => absurd (of_decide_eq_true hshell) hne⟩

theorem fallbackShell_mem {remaining : List Terminal}
    (h : fallbackShell remaining item = some row) : row ∈ remaining := by
  unfold fallbackShell at h
  split at h
  · rename_i found
    obtain rfl := Option.some.inj h
    exact List.mem_of_find?_eq_some found
  · exact List.mem_of_mem_head? h

theorem mem_remainingShells :
    row ∈ remainingShells stored assigned ↔
      row ∈ stored ∧ row.role = .shell ∧ assigned.claims row.id = false := by
  simp [remainingShells]

theorem shellCandidate_mem (h : shellCandidate stored assigned item = some row) :
    row ∈ remainingShells stored assigned := by
  unfold shellCandidate at h
  split at h
  · rename_i found
    obtain rfl := Option.some.inj h
    obtain ⟨found, hfree⟩ := Option.filter_eq_some_iff.mp found
    simp only [Bool.and_eq_true, decide_eq_true_eq, Bool.not_eq_true'] at hfree
    exact mem_remainingShells.mpr ⟨(byWindow_mem found).1, hfree⟩
  · exact fallbackShell_mem h

def DesiredTerminal.isShell (item : DesiredTerminal) : Bool := item.role = .shell

/-- The windows of a kind of items. -/
def windowsOf (p : DesiredTerminal → Bool) (items : List DesiredTerminal) : List String :=
  (items.filter p).map DesiredTerminal.tmuxWindow

theorem matchManaged_matched
    (nodup : (windowsOf (fun item => !item.isShell) items ++ todo).Nodup)
    (h : Matched stored all (windowsOf (fun item => !item.isShell) items ++ todo) assigned) :
    Matched stored all todo (matchManaged stored assigned items) := by
  induction items generalizing assigned with
  | nil => exact h
  | cons item rest ih =>
    unfold matchManaged
    split
    · rename_i hshell
      have hskip : windowsOf (fun item => !item.isShell) (item :: rest) =
          windowsOf (fun item => !item.isShell) rest := by
        simp [windowsOf, DesiredTerminal.isShell, hshell]
      rw [hskip] at nodup h
      exact ih nodup h
    · rename_i hmanaged
      have hcons : windowsOf (fun item => !item.isShell) (item :: rest) =
          item.tmuxWindow :: windowsOf (fun item => !item.isShell) rest := by
        simp [windowsOf, DesiredTerminal.isShell, hmanaged]
      rw [hcons] at nodup h
      obtain ⟨hw, nodup⟩ := List.nodup_cons.mp nodup
      split
      · rename_i row found
        split
        · exact ih nodup h.skip
        · rename_i free
          apply ih nodup
          exact h.claim hw (managedCandidate_mem found).1 (Bool.eq_false_iff.mpr free)
      · exact ih nodup h.skip

theorem matchShells_matched (nodup : (windowsOf DesiredTerminal.isShell items ++ todo).Nodup)
    (h : Matched stored all (windowsOf DesiredTerminal.isShell items ++ todo) assigned) :
    Matched stored all todo (matchShells stored assigned items) := by
  induction items generalizing assigned with
  | nil => exact h
  | cons item rest ih =>
    unfold matchShells
    split
    · rename_i hshell
      have hcons : windowsOf DesiredTerminal.isShell (item :: rest) =
          item.tmuxWindow :: windowsOf DesiredTerminal.isShell rest := by
        simp [windowsOf, DesiredTerminal.isShell, hshell]
      rw [hcons] at nodup h
      obtain ⟨hw, nodup⟩ := List.nodup_cons.mp nodup
      split
      · rename_i row found
        obtain ⟨hmem, -, free⟩ := mem_remainingShells.mp (shellCandidate_mem found)
        exact ih nodup (h.claim hw hmem free)
      · exact ih nodup h.skip
    · rename_i hmanaged
      have hskip : windowsOf DesiredTerminal.isShell (item :: rest) =
          windowsOf DesiredTerminal.isShell rest := by
        simp [windowsOf, DesiredTerminal.isShell, hmanaged]
      rw [hskip] at nodup h
      exact ih nodup h

theorem assignedByWindow_matched (nodup : (desired.map DesiredTerminal.tmuxWindow).Nodup) :
    Matched stored (desired.map DesiredTerminal.tmuxWindow) []
      (assignedByWindow stored desired) := by
  have perm : (windowsOf (fun item => !item.isShell) desired ++
      (windowsOf DesiredTerminal.isShell desired ++ [])).Perm
        (desired.map DesiredTerminal.tmuxWindow) := by
    have perm := (List.filter_append_perm DesiredTerminal.isShell desired).map
      DesiredTerminal.tmuxWindow
    rw [List.map_append] at perm
    rw [List.append_nil]
    exact List.perm_append_comm.trans perm
  have split := perm.nodup_iff.mpr nodup
  apply matchShells_matched (List.nodup_append.mp split).2.1
  apply matchManaged_matched split
  refine ⟨nofun, List.nodup_nil, List.nodup_nil, fun _ _ => List.not_mem_nil, fun w hw => ?_⟩
  rcases hw with hw | hw
  · exact perm.mem_iff.mp hw
  · exact absurd hw List.not_mem_nil

theorem matchShells_subset {p : String × Terminal} (h : p ∈ assigned) :
    p ∈ matchShells stored assigned items := by
  induction items generalizing assigned with
  | nil => exact h
  | cons item rest ih =>
    unfold matchShells
    split
    · split
      · exact ih (List.mem_append_left _ h)
      · exact ih h
    · exact ih h

theorem matchManaged_subset {p : String × Terminal} (h : p ∈ assigned) :
    p ∈ matchManaged stored assigned items := by
  induction items generalizing assigned with
  | nil => exact h
  | cons item rest ih =>
    unfold matchManaged
    split
    · exact ih h
    · split
      · split
        · exact ih h
        · exact ih (List.mem_append_left _ h)
      · exact ih h

/-- The managed roles of the items that are left. -/
def rolesOf (items : List DesiredTerminal) : List TerminalRole :=
  (items.filter fun item => !item.isShell).map DesiredTerminal.role

/-- **A managed role keeps its row**: no item before can have taken it. -/
theorem matchManaged_role (ids : (stored.map Terminal.id).Nodup)
    (managed : Table.Indexed Terminal.id Terminal.managedIndex stored)
    (elsewhere : ∀ r ∈ stored, ∀ s ∈ stored, r.workspaceId = s.workspaceId)
    (roles : (rolesOf items).Nodup) (rows : ∀ p ∈ assigned, p.2 ∈ stored)
    (earlier : ∀ p ∈ assigned, p.2.role ≠ .shell → p.2.role ∉ rolesOf items)
    (hitem : item ∈ items) (hrole : item.role ≠ .shell) (hrow : row ∈ stored)
    (same : row.role = item.role) :
    (item.tmuxWindow, row) ∈ matchManaged stored assigned items := by
  induction items generalizing assigned with
  | nil => exact absurd hitem List.not_mem_nil
  | cons next rest ih =>
    unfold matchManaged
    split
    · rename_i hshell
      have hskip : rolesOf (next :: rest) = rolesOf rest := by
        simp [rolesOf, DesiredTerminal.isShell, hshell]
      rw [hskip] at roles earlier
      rcases List.mem_cons.mp hitem with rfl | hitem
      · exact absurd hshell hrole
      · exact ih roles rows earlier hitem
    · rename_i hmanaged
      have hcons : rolesOf (next :: rest) = next.role :: rolesOf rest := by
        simp [rolesOf, DesiredTerminal.isShell, hmanaged]
      rw [hcons] at roles earlier
      obtain ⟨hnext, roles⟩ := List.nodup_cons.mp roles
      have later : ∀ p ∈ assigned, p.2.role ≠ .shell → p.2.role ∉ rolesOf rest :=
        fun p hp hne hmem => earlier p hp hne (List.mem_cons_of_mem _ hmem)
      rcases List.mem_cons.mp hitem with rfl | hitem
      · -- the item itself: its candidate is the row, and the row is free
        have found : managedCandidate stored item = some row := by
          unfold managedCandidate
          cases hby : byManagedRole stored item.role with
          | none =>
            have := List.find?_eq_none.mp hby row hrow
            simp [same, hrole] at this
          | some r =>
            obtain ⟨hr, hne, hrr⟩ := byManagedRole_mem hby
            have key : r.id = row.id := by
              apply managed r hr row hrow (r.workspaceId, r.role)
              · exact if_neg hne
              · unfold Terminal.managedIndex
                rw [if_neg (by rw [same]; exact hrole), elsewhere r hr row hrow, hrr, same]
            rw [List.inj_on_of_nodup_map ids hr hrow key]
        have free : assigned.claims row.id = false := by
          rw [Bool.eq_false_iff]
          intro hclaimed
          obtain ⟨p, hp, hid⟩ := claims_iff.mp hclaimed
          have := List.inj_on_of_nodup_map ids (rows p hp) hrow hid
          apply earlier p hp
          · rw [this, same]
            exact hrole
          · rw [this, same]
            exact List.mem_cons_self
        rw [found]
        dsimp only
        rw [if_neg (by rw [free]; nofun)]
        exact matchManaged_subset (List.mem_append_right _ (List.mem_singleton.mpr rfl))
      · split
        · rename_i r found
          split
          · exact ih roles rows later hitem
          · obtain ⟨hr, hrr⟩ := managedCandidate_mem found
            apply ih roles _ _ hitem
            · intro p hp
              rcases List.mem_append.mp hp with hp | hp
              · exact rows p hp
              · rw [List.mem_singleton.mp hp]
                exact hr
            · intro p hp hne
              rcases List.mem_append.mp hp with hp | hp
              · exact later p hp hne
              · rw [List.mem_singleton.mp hp] at hne ⊢
                rw [hrr hne]
                exact hnext
        · exact ih roles rows later hitem

end matching

/-! ## 7. The desired windows -/

section desired

variable {windows : List TmuxWindow} {desired : List DesiredTerminal} {item : DesiredTerminal}

/-- What `reconcile_terminals` has checked of the windows. -/
structure Listed (desired : List DesiredTerminal) : Prop where
  windows : (desired.map DesiredTerminal.tmuxWindow).Nodup
  roles : (rolesOf desired).Nodup

theorem desiredTerminals_ok {seenWindows : List String} {seenManagedRoles : List TerminalRole}
    (h : desiredTerminals seenWindows seenManagedRoles windows = .ok desired) :
    Listed desired ∧ (∀ item ∈ desired, item.tmuxWindow ∉ seenWindows) ∧
      (∀ role ∈ rolesOf desired, role ∉ seenManagedRoles) ∧
      ∀ item ∈ desired, ∃ raw ∈ windows, item.tmuxWindow = orText raw.tmuxWindow "" := by
  induction windows generalizing seenWindows seenManagedRoles desired with
  | nil =>
    obtain rfl := Except.ok.inj h
    exact ⟨⟨List.nodup_nil, List.nodup_nil⟩, nofun, nofun, nofun⟩
  | cons raw rest ih =>
    unfold desiredTerminals at h
    dsimp only at h
    split at h
    · exact nomatch h
    rename_i hwindow
    obtain ⟨role, -, h⟩ := bind_eq_ok.mp h
    obtain ⟨activityAt, -, h⟩ := bind_eq_ok.mp h
    have unseen : orText raw.tmuxWindow "" ∉ seenWindows := fun hmem => hwindow (.inr hmem)
    split at h
    · obtain ⟨tail, htail, h⟩ := bind_eq_ok.mp h
      obtain rfl := Except.ok.inj h
      obtain ⟨listed, hseen, hroles, hraw⟩ := ih htail
      refine ⟨⟨List.nodup_cons.mpr ⟨fun hmem => ?_, listed.windows⟩, listed.roles⟩, ?_, hroles, ?_⟩
      · obtain ⟨item, hitem, he⟩ := List.mem_map.mp hmem
        exact hseen item hitem (he ▸ List.mem_cons_self)
      · intro item hitem
        rcases List.mem_cons.mp hitem with rfl | hitem
        · exact unseen
        · exact fun hmem => hseen item hitem (List.mem_cons_of_mem _ hmem)
      · intro item hitem
        rcases List.mem_cons.mp hitem with rfl | hitem
        · exact ⟨raw, List.mem_cons_self, rfl⟩
        · exact (hraw item hitem).imp fun _ h => h.imp_left (List.mem_cons_of_mem _)
    · rename_i hmanaged
      split at h
      · exact nomatch h
      rename_i hrole
      obtain ⟨tail, htail, h⟩ := bind_eq_ok.mp h
      obtain rfl := Except.ok.inj h
      obtain ⟨listed, hseen, hroles, hraw⟩ := ih htail
      have hcons : ∀ w n m a, rolesOf (⟨w, n, role, m, a⟩ :: tail) = role :: rolesOf tail := by
        intro w n m a
        simp [rolesOf, DesiredTerminal.isShell, hmanaged]
      refine ⟨⟨List.nodup_cons.mpr ⟨fun hmem => ?_, listed.windows⟩, ?_⟩, ?_, ?_, ?_⟩
      · obtain ⟨item, hitem, he⟩ := List.mem_map.mp hmem
        exact hseen item hitem (he ▸ List.mem_cons_self)
      · rw [hcons]
        exact List.nodup_cons.mpr ⟨fun hmem => hroles role hmem List.mem_cons_self, listed.roles⟩
      · intro item hitem
        rcases List.mem_cons.mp hitem with rfl | hitem
        · exact unseen
        · exact fun hmem => hseen item hitem (List.mem_cons_of_mem _ hmem)
      · rw [hcons]
        intro r hr
        rcases List.mem_cons.mp hr with rfl | hr
        · exact hrole
        · exact fun hmem => hroles r hr (List.mem_cons_of_mem _ hmem)
      · intro item hitem
        rcases List.mem_cons.mp hitem with rfl | hitem
        · exact ⟨raw, List.mem_cons_self, rfl⟩
        · exact (hraw item hitem).imp fun _ h => h.imp_left (List.mem_cons_of_mem _)

theorem Listed.inj (h : Listed desired) {a b : DesiredTerminal} (ha : a ∈ desired)
    (hb : b ∈ desired) (same : a.tmuxWindow = b.tmuxWindow) : a = b :=
  List.inj_on_of_nodup_map h.windows ha hb same

theorem Listed.apart (h : Listed desired) :
    desired.Pairwise fun a b => a.tmuxWindow ≠ b.tmuxWindow ∧ (a.role ≠ .shell → a.role ≠ b.role) := by
  apply List.Pairwise.and (List.pairwise_map.mp h.windows)
  have roles := List.pairwise_filter.mp (List.pairwise_map.mp h.roles)
  apply roles.imp
  intro a b hab hmanaged he
  have hb : b.role ≠ .shell := he ▸ hmanaged
  exact hab (by simpa [DesiredTerminal.isShell] using hmanaged)
    (by simpa [DesiredTerminal.isShell] using hb) he

/-! ## 8. The assignments -/

variable {stored : List Terminal} {row : Terminal} {workspaceId : String} {now : Nat}

theorem lookup_of_mem {assigned : Assigned} (nodup : (assigned.map Prod.fst).Nodup)
    {w : String} : assigned.lookup w = some row ↔ (w, row) ∈ assigned := by
  induction assigned with
  | nil => simp
  | cons p rest ih =>
    obtain ⟨v, r⟩ := p
    obtain ⟨hv, nodup⟩ := List.nodup_cons.mp nodup
    by_cases he : w = v
    · subst he
      rw [List.lookup_cons_self, List.mem_cons]
      constructor
      · rintro ⟨⟩
        exact .inl rfl
      · intro h
        rcases h with h | h
        · rw [(Prod.mk.inj h).2]
        · exact absurd (List.mem_map.mpr ⟨_, h, rfl⟩) hv
    · rw [List.lookup_cons, beq_eq_false_iff_ne.mpr he, List.mem_cons]
      dsimp only
      rw [ih nodup]
      constructor
      · exact .inr
      · intro h
        rcases h with h | h
        · exact absurd (Prod.mk.inj h).1 he
        · exact h

theorem mem_assignments (listed : Listed desired) :
    (item, some row) ∈ assignments stored desired ↔
      item ∈ desired ∧ (item.tmuxWindow, row) ∈ assignedByWindow stored desired := by
  have matched : Matched stored _ _ _ := assignedByWindow_matched listed.windows
  unfold assignments
  rw [List.mem_map]
  constructor
  · rintro ⟨item', hitem, he⟩
    obtain ⟨rfl, found⟩ := Prod.mk.inj he
    exact ⟨hitem, (lookup_of_mem matched.windows).mp found⟩
  · intro h
    exact ⟨item, h.1, by rw [(lookup_of_mem matched.windows).mpr h.2]⟩

theorem mem_claimedRows (listed : Listed desired) :
    row ∈ claimedRows (assignments stored desired) ↔
      ∃ w, (w, row) ∈ assignedByWindow stored desired := by
  have matched : Matched stored _ _ _ := assignedByWindow_matched listed.windows
  unfold claimedRows
  rw [List.mem_filterMap]
  constructor
  · rintro ⟨⟨item, claimed⟩, ha, he⟩
    obtain rfl : claimed = some row := he
    exact ⟨_, ((mem_assignments listed).mp ha).2⟩
  · rintro ⟨w, hw⟩
    have known := matched.known w (.inr (List.mem_map.mpr ⟨_, hw, rfl⟩))
    obtain ⟨item, hitem, rfl⟩ := List.mem_map.mp known
    exact ⟨(item, some row), (mem_assignments listed).mpr ⟨hitem, hw⟩, rfl⟩

theorem claimedRows_ids (listed : Listed desired) :
    ((claimedRows (assignments stored desired)).map Terminal.id).Nodup := by
  have matched : Matched stored _ _ _ := assignedByWindow_matched listed.windows
  apply List.pairwise_map.mpr
  apply List.pairwise_filterMap.mpr
  unfold assignments
  apply List.pairwise_map.mpr
  apply (List.pairwise_map.mp listed.windows).imp
  intro a b hne r hr s hs he
  have ha := (lookup_of_mem matched.windows).mp hr
  have hb := (lookup_of_mem matched.windows).mp hs
  have same := List.inj_on_of_nodup_map matched.ids ha hb he
  exact hne (Prod.mk.inj same).1

theorem claimedRows_perm (listed : Listed desired) (nodup : (stored.map Terminal.id).Nodup) :
    (stored.filter fun row => (assignedByWindow stored desired).claims row.id).Perm
      (claimedRows (assignments stored desired)) := by
  have matched : Matched stored _ _ _ := assignedByWindow_matched listed.windows
  apply (List.perm_ext_iff_of_nodup (nodup.of_map.filter _) (claimedRows_ids listed).of_map).mpr
  intro row
  rw [mem_claimedRows listed, List.mem_filter, claims_iff]
  constructor
  · rintro ⟨hrow, p, hp, hid⟩
    rw [← List.inj_on_of_nodup_map nodup (matched.rows p hp) hrow hid]
    exact ⟨p.1, hp⟩
  · rintro ⟨w, hw⟩
    exact ⟨matched.rows _ hw, (w, row), hw, rfl⟩

theorem mem_writtenRows {as : List (DesiredTerminal × Option Terminal)} {uuids : Nat → String}
    {x : Terminal} (h : x ∈ writtenRows workspaceId now as uuids) :
    (∃ item n, (item, none) ∈ as ∧ x = item.newRow (uuids n) workspaceId now) ∨
      ∃ item row, (item, some row) ∈ as ∧ x = row.follow item := by
  induction as generalizing uuids with
  | nil => exact absurd h List.not_mem_nil
  | cons a as ih =>
    obtain ⟨item, claimed⟩ := a
    cases claimed with
    | none =>
      rcases List.mem_cons.mp h with rfl | h
      · exact .inl ⟨item, 0, List.mem_cons_self, rfl⟩
      · rcases ih h with ⟨item, n, ha, rfl⟩ | ⟨item, row, ha, rfl⟩
        · exact .inl ⟨item, n + 1, List.mem_cons_of_mem _ ha, rfl⟩
        · exact .inr ⟨item, row, List.mem_cons_of_mem _ ha, rfl⟩
    | some row =>
      rcases List.mem_cons.mp h with rfl | h
      · exact .inr ⟨item, row, List.mem_cons_self, rfl⟩
      · rcases ih h with ⟨item, n, ha, rfl⟩ | ⟨item, row, ha, rfl⟩
        · exact .inl ⟨item, n, List.mem_cons_of_mem _ ha, rfl⟩
        · exact .inr ⟨item, row, List.mem_cons_of_mem _ ha, rfl⟩

theorem follow_mem_writtenRows {as : List (DesiredTerminal × Option Terminal)}
    {uuids : Nat → String} (h : (item, some row) ∈ as) :
    row.follow item ∈ writtenRows workspaceId now as uuids := by
  induction as generalizing uuids with
  | nil => exact absurd h List.not_mem_nil
  | cons a as ih =>
    rcases List.mem_cons.mp h with rfl | hrest
    · exact List.mem_cons_self
    · obtain ⟨other, claimed⟩ := a
      cases claimed with
      | none => exact List.mem_cons_of_mem _ (ih hrest)
      | some _ => exact List.mem_cons_of_mem _ (ih hrest)

/-- The row shows the window. -/
structure Projects (workspaceId : String) (item : DesiredTerminal) (row : Terminal) : Prop where
  workspaceId : row.workspaceId = workspaceId
  tmuxWindow : row.tmuxWindow = item.tmuxWindow
  role : row.role = item.role
  managedRunId : row.managedRunId = item.managedRunId
  name : row.name = item.name

theorem writtenRows_projects {as : List (DesiredTerminal × Option Terminal)}
    {uuids : Nat → String} (h : ∀ row ∈ claimedRows as, row.workspaceId = workspaceId) :
    List.Forall₂ (Projects workspaceId) (as.map Prod.fst)
      (writtenRows workspaceId now as uuids) := by
  induction as generalizing uuids with
  | nil => exact .nil
  | cons a as ih =>
    obtain ⟨item, claimed⟩ := a
    cases claimed with
    | none => exact .cons ⟨rfl, rfl, rfl, rfl, rfl⟩ (ih h)
    | some row =>
      have tail := fun r hr => h r (List.mem_cons_of_mem _ hr)
      exact .cons ⟨h row List.mem_cons_self, rfl, rfl, rfl, rfl⟩ (ih tail)

theorem assignments_fst : (assignments stored desired).map Prod.fst = desired := by
  unfold assignments
  rw [List.map_map]
  exact List.map_id _

/-- Rows that show windows apart from each other are compatible. -/
theorem Listed.compatible (listed : Listed desired) {rows : List Terminal}
    (h : List.Forall₂ (Projects workspaceId) desired rows) : rows.Pairwise Compatible := by
  have apart := listed.apart
  clear listed
  induction h with
  | nil => exact .nil
  | cons hhead htail ih =>
    rename_i item row items rows
    obtain ⟨first, rest⟩ := List.pairwise_cons.mp apart
    apply List.Pairwise.cons _ (ih rest)
    intro x hx
    obtain ⟨other, hother, hp⟩ : ∃ other ∈ items, Projects workspaceId other x := by
      clear ih rest apart first hhead
      induction htail with
      | nil => exact absurd hx List.not_mem_nil
      | cons h _ ih =>
        rcases List.mem_cons.mp hx with rfl | hx
        · exact ⟨_, List.mem_cons_self, h⟩
        · exact (ih hx).imp fun _ h => h.imp_left (List.mem_cons_of_mem _)
    obtain ⟨hwindow, hrole⟩ := first other hother
    constructor
    · intro _
      rw [hhead.tmuxWindow, hp.tmuxWindow]
      exact hwindow
    · intro _
      rw [hhead.role, hp.role]
      exact hrole

end desired

/-! ## 9. The transaction -/

section transaction

variable {workspaces : List String} {workspaceId : String} {windows : List TmuxWindow}
variable {desired : List DesiredTerminal} {now : Nat} {uuids : Nat → String}
variable {rows : List Terminal}

/-- What `uuid4` draws: each time something new. -/
structure Drawn (uuids : Nat → String) (rows : List Terminal) : Prop where
  injective : ∀ m n, uuids m = uuids n → m = n
  fresh : ∀ n, ∀ row ∈ rows, row.id ≠ uuids n

/-- No row of the Workspace has the placeholder of another one for its window. -/
def Unreserved (workspaceId : String) (rows : List Terminal) : Prop :=
  ∀ a ∈ rows, ∀ b ∈ rows, a.workspaceId = workspaceId → b.workspaceId = workspaceId →
    a.id ≠ b.id → a.tmuxWindow ≠ placeholder b.id

/-- The windows of tmux: `parse_tmux_terminal_records` lets no other pass. -/
def FromTmux (windows : List TmuxWindow) : Prop :=
  ∀ raw ∈ windows, ∃ name, raw.tmuxWindow = some ("@" ++ name)

def elsewhere (workspaceId : String) (rows : List Terminal) : List Terminal :=
  rows.filter fun row => !decide (row.workspaceId = workspaceId)

theorem mem_listTerminals {row : Terminal} :
    row ∈ listTerminals workspaceId rows ↔ row ∈ rows ∧ row.workspaceId = workspaceId := by
  unfold listTerminals
  rw [(List.perm_insertionSort _ _).mem_iff, List.mem_filter, decide_eq_true_eq]

theorem mem_elsewhere {row : Terminal} :
    row ∈ elsewhere workspaceId rows ↔ row ∈ rows ∧ row.workspaceId ≠ workspaceId := by
  simp [elsewhere]

theorem rows_perm : rows.Perm (listTerminals workspaceId rows ++ elsewhere workspaceId rows) := by
  apply List.Perm.trans (List.filter_append_perm _ rows).symm
  exact (List.perm_insertionSort _ _).symm.append_right _

theorem listTerminals_ids (ids : (rows.map Terminal.id).Nodup) :
    ((listTerminals workspaceId rows).map Terminal.id).Nodup := by
  have all : ((listTerminals workspaceId rows ++ elsewhere workspaceId rows).map
      Terminal.id).Nodup := (rows_perm.map _).nodup_iff.mp ids
  rw [List.map_append] at all
  exact (List.nodup_append.mp all).1

theorem TerminalsConstrained.compatible (h : TerminalsConstrained rows) {a b : Terminal}
    (ha : a ∈ rows) (hb : b ∈ rows) (hne : a.id ≠ b.id) : Compatible a b where
  window same he := hne <| h.windows a ha b hb (a.workspaceId, a.tmuxWindow) rfl (by
    rw [same, he]
    rfl)
  role same hmanaged he := hne <| h.managed a ha b hb (a.workspaceId, a.role) (if_neg hmanaged) (by
    rw [same, he]
    exact if_neg (he ▸ hmanaged))

theorem constrained_of_compatible (ids : (rows.map Terminal.id).Nodup)
    (h : ∀ a ∈ rows, ∀ b ∈ rows, a.id ≠ b.id → Compatible a b) : TerminalsConstrained rows where
  ids := ids
  windows a ha b hb i hai hbi := by
    by_contra hne
    obtain ⟨hworkspace, hwindow⟩ := Prod.mk.inj (Option.some.inj (hai.trans hbi.symm))
    exact (h a ha b hb hne).window hworkspace hwindow
  managed a ha b hb i hai hbi := by
    by_contra hne
    unfold Terminal.managedIndex at hai hbi
    split at hai
    · exact nomatch hai
    rename_i hmanaged
    split at hbi
    · exact nomatch hbi
    obtain ⟨hworkspace, hrole⟩ := Prod.mk.inj (Option.some.inj (hai.trans hbi.symm))
    exact (h a ha b hb hne).role hworkspace hmanaged hrole

theorem fromTmux_window (tmux : FromTmux windows)
    (accepted : desiredTerminals [] [] windows = .ok desired) {item : DesiredTerminal}
    (hitem : item ∈ desired) (id : String) : item.tmuxWindow ≠ placeholder id := by
  obtain ⟨raw, hraw, he⟩ := (desiredTerminals_ok accepted).2.2.2 item hitem
  obtain ⟨name, hname⟩ := tmux raw hraw
  have window : item.tmuxWindow = "@" ++ name := by
    rw [he, hname]
    show (if "@" ++ name = "" then "" else "@" ++ name) = _
    apply if_neg
    intro h
    have text := congrArg String.toList h
    rw [String.toList_append] at text
    exact List.append_ne_nil_of_left_ne_nil (by decide) _ text
  rw [window]
  intro h
  have text : ("@" ++ name).toList = ("__termroom_sync__" ++ id).toList := congrArg _ h
  rw [String.toList_append, String.toList_append] at text
  have head : '@' = '_' := (List.cons.inj text).1
  exact absurd head (by decide)

/-- **The statements go through**, and leave the rows of the windows beside those of the other
    Workspaces. -/
theorem syncTerminals_perm (workspace : workspaceId ∈ workspaces)
    (constrained : TerminalsConstrained rows) (unreserved : Unreserved workspaceId rows)
    (tmux : FromTmux windows) (drawn : Drawn uuids rows)
    (accepted : desiredTerminals [] [] windows = .ok desired) :
    ∃ rows', syncTerminals workspaces workspaceId desired now uuids rows = .ok rows' ∧
      rows'.Perm (writtenRows workspaceId now
        (assignments (listTerminals workspaceId rows) desired) uuids ++
          elsewhere workspaceId rows) ∧ (rows'.map Terminal.id).Nodup := by
  have listed := (desiredTerminals_ok accepted).1
  let stored := listTerminals workspaceId rows
  let others := elsewhere workspaceId rows
  have all : rows.Perm (stored ++ others) := rows_perm
  have ids : ((stored ++ others).map Terminal.id).Nodup := (all.map _).nodup_iff.mp constrained.ids
  have storedIds : (stored.map Terminal.id).Nodup := listTerminals_ids constrained.ids
  have claimed : ∀ r ∈ claimedRows (assignments stored desired),
      r ∈ rows ∧ r.workspaceId = workspaceId := by
    intro r hr
    obtain ⟨w, hw⟩ := (mem_claimedRows listed).mp hr
    exact mem_listTerminals.mp ((assignedByWindow_matched listed.windows).rows _ hw)
  -- the rows that are left, those of the windows under their placeholders
  have left : (deleteUnclaimed (assignedByWindow stored desired) stored rows).Perm
      (claimedRows (assignments stored desired) ++ others) :=
    (deleteUnclaimed_perm all ids).trans ((claimedRows_perm listed storedIds).append_right _)
  have leftIds : ((claimedRows (assignments stored desired) ++ others).map Terminal.id).Nodup := by
    rw [List.map_append, List.nodup_append] at ids ⊢
    refine ⟨claimedRows_ids listed, ids.2.1, fun a ha b hb => ids.2.2 a ?_ b hb⟩
    obtain ⟨r, hr, rfl⟩ := List.mem_map.mp ha
    exact List.mem_map.mpr ⟨r, mem_listTerminals.mpr (claimed r hr), rfl⟩
  have away : ∀ x : Terminal, x.workspaceId = workspaceId → ∀ y ∈ others, Compatible x y := by
    intro x hx y hy
    apply Compatible.elsewhere
    rw [hx]
    exact (mem_elsewhere.mp hy).2.symm
  obtain ⟨rows₁, hrows₁, held⟩ := holdAll_perm left leftIds
    (fun r hr x hx hne => by
      have window := unreserved x (claimed x hx).1 r (claimed r hr).1 (claimed x hx).2
        (claimed r hr).2 hne
      exact ⟨fun _ => window.symm, fun _ hshell => absurd rfl hshell⟩)
    (fun r hr x hx => away r.held (claimed r hr).2 x hx)
  have projects : List.Forall₂ (Projects workspaceId) desired
      (writtenRows workspaceId now (assignments stored desired) uuids) := by
    have h := @writtenRows_projects workspaceId now (assignments stored desired) uuids
      fun r hr => (claimed r hr).2
    rwa [assignments_fst] at h
  have shows : ∀ x ∈ writtenRows workspaceId now (assignments stored desired) uuids,
      ∃ item ∈ desired, Projects workspaceId item x := by
    intro x hx
    have first : ∀ a ∈ assignments stored desired, a.1 ∈ desired := by
      intro a ha
      rw [← @assignments_fst desired stored]
      exact List.mem_map.mpr ⟨a, ha, rfl⟩
    rcases mem_writtenRows hx with ⟨item, n, ha, rfl⟩ | ⟨item, row, ha, rfl⟩
    · exact ⟨item, first _ ha, rfl, rfl, rfl, rfl, rfl⟩
    · have hrow : row ∈ claimedRows (assignments stored desired) :=
        List.mem_filterMap.mpr ⟨_, ha, rfl⟩
      exact ⟨item, first _ ha, (claimed row hrow).2, rfl, rfl, rfl, rfl⟩
  obtain ⟨rows₂, hrows₂, final, finalIds⟩ := writeAll_perm workspace held leftIds drawn.injective
    (fun n x hx => by
      apply drawn.fresh n x
      rcases List.mem_append.mp hx with hx | hx
      · exact (claimed x hx).1
      · exact (mem_elsewhere.mp hx).1)
    (listed.compatible projects)
    (fun x hx id => by
      obtain ⟨item, hitem, hp⟩ := shows x hx
      rw [hp.tmuxWindow]
      exact fromTmux_window tmux accepted hitem id)
    (fun x hx y hy => by
      obtain ⟨item, -, hp⟩ := shows x hx
      exact away x hp.workspaceId y hy)
  refine ⟨rows₂, ?_, final, finalIds⟩
  unfold syncTerminals
  dsimp only
  rw [hrows₁]
  exact hrows₂

/-- What the transaction makes of the rows. -/
structure Synced (workspaceId : String) (desired : List DesiredTerminal)
    (rows rows' : List Terminal) : Prop where
  constrained : TerminalsConstrained rows'
  /-- The rows of the Workspace are one to one with the windows. -/
  projects : ∃ written, (rows'.filter fun row => row.workspaceId = workspaceId).Perm written ∧
    List.Forall₂ (Projects workspaceId) desired written
  managed : ∀ item ∈ desired, item.role ≠ .shell → ∀ row ∈ rows, row.workspaceId = workspaceId →
    row.role = item.role → ∃ row' ∈ rows', row'.id = row.id ∧ Projects workspaceId item row'
  activity : ∀ row ∈ rows, row.workspaceId = workspaceId → ∀ row' ∈ rows', row'.id = row.id →
    ∀ a, row.activityAt = some a → ∃ b, row'.activityAt = some b ∧ a ≤ b
  elsewhere : ∀ row, row.workspaceId ≠ workspaceId → (row ∈ rows' ↔ row ∈ rows)

theorem laterActivity_le {stored seen : Option Int} {a : Int} (h : stored = some a) :
    ∃ b, laterActivity stored seen = some b ∧ a ≤ b := by
  subst h
  cases seen with
  | none => exact ⟨a, rfl, Int.le_refl a⟩
  | some s => exact ⟨max a s, rfl, Int.le_max_left a s⟩

theorem synced_of_perm {rows' : List Terminal} (constrained : TerminalsConstrained rows)
    (drawn : Drawn uuids rows) (listed : Listed desired)
    (final : rows'.Perm (writtenRows workspaceId now
      (assignments (listTerminals workspaceId rows) desired) uuids ++ elsewhere workspaceId rows))
    (ids : (rows'.map Terminal.id).Nodup) : Synced workspaceId desired rows rows' := by
  have matched : Matched (listTerminals workspaceId rows) _ _ _ :=
    assignedByWindow_matched listed.windows
  have claimed : ∀ {item row}, (item, some row) ∈ assignments (listTerminals workspaceId rows)
      desired → row ∈ rows ∧ row.workspaceId = workspaceId := by
    intro item row ha
    exact mem_listTerminals.mp (matched.rows _ ((mem_assignments listed).mp ha).2)
  have projects : List.Forall₂ (Projects workspaceId) desired (writtenRows workspaceId now
      (assignments (listTerminals workspaceId rows) desired) uuids) := by
    have h := @writtenRows_projects workspaceId now
      (assignments (listTerminals workspaceId rows) desired) uuids fun r hr => by
        obtain ⟨w, hw⟩ := (mem_claimedRows listed).mp hr
        exact (mem_listTerminals.mp (matched.rows _ hw)).2
    rwa [assignments_fst] at h
  have here : ∀ x ∈ writtenRows workspaceId now (assignments (listTerminals workspaceId rows)
      desired) uuids, x.workspaceId = workspaceId := by
    intro x hx
    rcases mem_writtenRows hx with ⟨item, n, -, rfl⟩ | ⟨item, row, ha, rfl⟩
    · rfl
    · exact (claimed ha).2
  refine ⟨constrained_of_compatible ids ?_, ⟨_, ?_, projects⟩, ?_, ?_, ?_⟩
  · intro a ha b hb hne
    rcases List.mem_append.mp (final.mem_iff.mp ha) with hwa | hea <;>
      rcases List.mem_append.mp (final.mem_iff.mp hb) with hwb | heb
    · have symm : Std.Symm Compatible := ⟨fun _ _ h => h.symm⟩
      exact (listed.compatible projects).forall hwa hwb fun he => hne (he ▸ rfl)
    · apply Compatible.elsewhere
      rw [here a hwa]
      exact (mem_elsewhere.mp heb).2.symm
    · apply Compatible.elsewhere
      rw [here b hwb]
      exact (mem_elsewhere.mp hea).2
    · exact constrained.compatible (mem_elsewhere.mp hea).1 (mem_elsewhere.mp heb).1 hne
  · have filtered := final.filter fun row => decide (row.workspaceId = workspaceId)
    have none : (elsewhere workspaceId rows).filter (fun row => row.workspaceId = workspaceId) = [] := by
      apply List.filter_eq_nil_iff.mpr
      intro x hx
      simpa using (mem_elsewhere.mp hx).2
    rw [List.filter_append, none, List.append_nil,
      List.filter_eq_self.mpr fun x hx => decide_eq_true (here x hx)] at filtered
    exact filtered
  · intro item hitem hmanaged row hrow hworkspace hrole
    have kept : (item.tmuxWindow, row) ∈ matchManaged (listTerminals workspaceId rows) [] desired := by
      apply matchManaged_role (listTerminals_ids constrained.ids) _ _ listed.roles
        (fun _ h => absurd h List.not_mem_nil) (fun _ h => absurd h List.not_mem_nil) hitem hmanaged
        (mem_listTerminals.mpr ⟨hrow, hworkspace⟩) hrole
      · intro a ha b hb
        exact constrained.managed a (mem_listTerminals.mp ha).1 b (mem_listTerminals.mp hb).1
      · intro a ha b hb
        rw [(mem_listTerminals.mp ha).2, (mem_listTerminals.mp hb).2]
    have assigned : (item, some row) ∈ assignments (listTerminals workspaceId rows) desired :=
      (mem_assignments listed).mpr ⟨hitem, matchShells_subset kept⟩
    refine ⟨row.follow item, ?_, rfl, hworkspace, rfl, rfl, rfl, rfl⟩
    exact final.mem_iff.mpr (List.mem_append_left _ (follow_mem_writtenRows assigned))
  · intro row hrow hworkspace row' hrow' hid a ha
    rcases List.mem_append.mp (final.mem_iff.mp hrow') with hw | he
    · rcases mem_writtenRows hw with ⟨item, n, -, rfl⟩ | ⟨item, other, hother, rfl⟩
      · exact absurd hid.symm (drawn.fresh n row hrow)
      · have same := List.inj_on_of_nodup_map constrained.ids (claimed hother).1 hrow hid
        subst same
        exact laterActivity_le ha
    · obtain ⟨hmem, hne⟩ := mem_elsewhere.mp he
      rw [List.inj_on_of_nodup_map constrained.ids hmem hrow hid] at hne
      exact absurd hworkspace hne
  · intro row hne
    rw [final.mem_iff, List.mem_append, mem_elsewhere]
    constructor
    · intro h
      rcases h with h | h
      · exact absurd (here row h) hne
      · exact h.1
    · exact fun h => .inr ⟨h, hne⟩

/-- **Terminal reconciliation reaches the desired state.** Whatever rows are stored, unless one
    of the Workspace has the placeholder of another for its window: what raises changes nothing,
    and every list of windows that is accepted is committed, with no statement against a
    constraint. -/
theorem reconcileTerminals_synced (workspace : workspaceId ∈ workspaces)
    (constrained : TerminalsConstrained rows) (unreserved : Unreserved workspaceId rows)
    (tmux : FromTmux windows) (drawn : Drawn uuids rows) :
    (∀ e rows', reconcileTerminals workspaces workspaceId windows now uuids rows =
      (.error e, rows') → rows' = rows) ∧
    ∀ desired, desiredTerminals [] [] windows = .ok desired →
      ∃ rows', reconcileTerminals workspaces workspaceId windows now uuids rows =
        (.ok (listTerminals workspaceId rows'), rows') ∧
          Synced workspaceId desired rows rows' := by
  constructor
  · intro e rows' h
    unfold reconcileTerminals at h
    split at h
    · exact (Prod.mk.inj h).2.symm
    · split at h
      · exact (Prod.mk.inj h).2.symm
      · exact nomatch (Prod.mk.inj h).1
  · intro desired accepted
    obtain ⟨rows', hrows', final, ids⟩ := @syncTerminals_perm _ _ _ _ now _ _ workspace constrained
      unreserved tmux drawn accepted
    refine ⟨rows', ?_, synced_of_perm constrained drawn (desiredTerminals_ok accepted).1 final ids⟩
    unfold reconcileTerminals
    rw [accepted]
    dsimp only
    rw [hrows']

end transaction

/-- A shell of the Workspace `w`. -/
def shellRow (id window name : String) : Terminal :=
  ⟨id, "w", name, window, .shell, none, 0, 0, none, none⟩

def shellWindow (window name : String) : TmuxWindow :=
  ⟨some window, some name, some "shell", none, none⟩

/-- Ids that none of the rows below has. -/
def newIds (n : Nat) : String := String.ofList (List.replicate (n + 1) 'u')

theorem newIds_injective (m n : Nat) (h : newIds m = newIds n) : m = n := by
  have := congrArg (fun s => s.toList.length) h
  simpa [newIds] using this

theorem newIds_drawn {rows : List Terminal} (h : ∀ row ∈ rows, row.id.toList.head? ≠ some 'u') :
    Drawn newIds rows where
  injective := newIds_injective
  fresh n row hrow he := by
    apply h row hrow
    rw [he]
    simp [newIds, List.replicate_succ]

/-- Two windows that have changed places. -/
theorem reconcileTerminals_swaps :
    (∀ e rows', reconcileTerminals ["w"] "w" [shellWindow "@2" "a", shellWindow "@1" "b"] 5 newIds
      [shellRow "a" "@1" "a", shellRow "b" "@2" "b"] = (.error e, rows') →
        rows' = [shellRow "a" "@1" "a", shellRow "b" "@2" "b"]) ∧
    ∀ desired, desiredTerminals [] [] [shellWindow "@2" "a", shellWindow "@1" "b"] = .ok desired →
      ∃ rows', reconcileTerminals ["w"] "w" [shellWindow "@2" "a", shellWindow "@1" "b"] 5 newIds
          [shellRow "a" "@1" "a", shellRow "b" "@2" "b"] = (.ok (listTerminals "w" rows'), rows') ∧
        Synced "w" desired [shellRow "a" "@1" "a", shellRow "b" "@2" "b"] rows' := by
  apply reconcileTerminals_synced
  · decide
  · apply constrained_of_compatible (by decide +kernel)
    intro a ha b hb hne
    simp only [List.mem_cons, List.not_mem_nil, or_false] at ha hb
    rcases ha with rfl | rfl <;> rcases hb with rfl | rfl
    · exact absurd rfl hne
    · exact ⟨fun _ => by decide +kernel, fun _ hshell => absurd rfl hshell⟩
    · exact ⟨fun _ => by decide +kernel, fun _ hshell => absurd rfl hshell⟩
    · exact absurd rfl hne
  · unfold Unreserved
    decide +kernel
  · intro raw hraw
    simp only [List.mem_cons, List.not_mem_nil, or_false] at hraw
    rcases hraw with rfl | rfl
    · exact ⟨"2", by decide +kernel⟩
    · exact ⟨"1", by decide +kernel⟩
  · exact newIds_drawn (by decide +kernel)

/-- A row whose window is the placeholder of another: the statements stop at a constraint. -/
theorem placeholder_taken :
    TerminalsConstrained [shellRow "a" "@1" "a", shellRow "b" (placeholder "a") "b"] ∧
      reconcileTerminals ["w"] "w" [shellWindow "@1" "a", shellWindow "@2" "b"] 5 newIds
          [shellRow "a" "@1" "a", shellRow "b" (placeholder "a") "b"] =
        (.error .integrity, [shellRow "a" "@1" "a", shellRow "b" (placeholder "a") "b"]) := by
  constructor
  · apply constrained_of_compatible (by decide +kernel)
    intro a ha b hb hne
    simp only [List.mem_cons, List.not_mem_nil, or_false] at ha hb
    rcases ha with rfl | rfl <;> rcases hb with rfl | rfl
    · exact absurd rfl hne
    · exact ⟨fun _ => by decide +kernel, fun _ hshell => absurd rfl hshell⟩
    · exact ⟨fun _ => by decide +kernel, fun _ hshell => absurd rfl hshell⟩
    · exact absurd rfl hne
  · decide +kernel

/-! ## 10. Whose row a shell window gets

The shells are matched in the order of the windows. A window without a row of its own falls
back on a free one, and that can be the row of a window that comes after it. -/

section identity

variable {stored free : List Terminal} {desired items : List DesiredTerminal}
variable {item : DesiredTerminal} {row : Terminal} {assigned : Assigned}

/-- The shells that no managed window takes for its exact window. -/
def freeShells (stored : List Terminal) (desired : List DesiredTerminal) : List Terminal :=
  stored.filter fun row => row.role = .shell && !desired.any fun item =>
    !item.isShell && item.tmuxWindow = row.tmuxWindow && (byManagedRole stored item.role).isNone

def without (row : Terminal) (free : List Terminal) : List Terminal :=
  free.filter fun other => other.id ≠ row.id

/-- `matchShells`, on the rows that are free. -/
def serveShells : List Terminal → List DesiredTerminal → Assigned
  | _, [] => []
  | free, item :: rest =>
    match (byWindow free item.tmuxWindow).or (fallbackShell free item) with
    | some row => (item.tmuxWindow, row) :: serveShells (without row free) rest
    | none => serveShells free rest

/-- No window falls back on the row of a window after it. -/
def keepsRows : List Terminal → List DesiredTerminal → Bool
  | _, [] => true
  | free, item :: rest =>
    match byWindow free item.tmuxWindow with
    | some row => keepsRows (without row free) rest
    | none =>
      match fallbackShell free item with
      | some row => rest.all (fun later => later.tmuxWindow ≠ row.tmuxWindow) &&
          keepsRows (without row free) rest
      | none => keepsRows free rest

theorem byWindow_of_mem (windows : (free.map Terminal.tmuxWindow).Nodup) (h : row ∈ free) :
    byWindow free row.tmuxWindow = some row := by
  cases hfound : byWindow free row.tmuxWindow with
  | none => exact absurd (decide_eq_true rfl) (List.find?_eq_none.mp hfound row h)
  | some other =>
    obtain ⟨hmem, hwindow⟩ := byWindow_mem hfound
    rw [List.inj_on_of_nodup_map windows hmem h hwindow]

theorem mem_without {other : Terminal} : other ∈ without row free ↔ other ∈ free ∧ other.id ≠ row.id := by
  simp [without]

theorem serveShells_mem {p : String × Terminal} (h : p ∈ serveShells free items) : p.2 ∈ free := by
  induction items generalizing free with
  | nil => exact absurd h List.not_mem_nil
  | cons item rest ih =>
    unfold serveShells at h
    split at h
    · rename_i row found
      have hrow : row ∈ free := by
        rcases Option.or_eq_some_iff.mp found with own | ⟨-, fallback⟩
        · exact (byWindow_mem own).1
        · exact fallbackShell_mem fallback
      rcases List.mem_cons.mp h with rfl | h
      · exact hrow
      · exact (mem_without.mp (ih h)).1
    · exact ih h

/-- **When every window keeps its row**, among the shells. -/
theorem serveShells_keeps_iff (windows : (free.map Terminal.tmuxWindow).Nodup)
    (ids : (free.map Terminal.id).Nodup)
    (distinct : (items.map DesiredTerminal.tmuxWindow).Nodup) :
    (∀ item ∈ items, ∀ row ∈ free, row.tmuxWindow = item.tmuxWindow →
      (item.tmuxWindow, row) ∈ serveShells free items) ↔ keepsRows free items = true := by
  induction items generalizing free with
  | nil => exact ⟨fun _ => rfl, fun _ => nofun⟩
  | cons item rest ih =>
    obtain ⟨hitem, distinct⟩ := List.nodup_cons.mp distinct
    have later : ∀ other ∈ rest, other.tmuxWindow ≠ item.tmuxWindow :=
      fun other hother he => hitem (he ▸ List.mem_map.mpr ⟨other, hother, rfl⟩)
    have sub : ∀ row, (without row free).Sublist free := fun row => List.filter_sublist
    unfold serveShells keepsRows
    cases hown : byWindow free item.tmuxWindow with
    | some own =>
      obtain ⟨hmem, hwindow⟩ := byWindow_mem hown
      rw [Option.some_or]
      dsimp only
      rw [← ih (windows.sublist ((sub own).map _)) (ids.sublist ((sub own).map _)) distinct]
      constructor
      · intro keeps other hother row hrow he
        have kept := keeps other (List.mem_cons_of_mem _ hother) row (mem_without.mp hrow).1 he
        rcases List.mem_cons.mp kept with heq | kept
        · exact absurd (Prod.mk.inj heq).1 (later other hother)
        · exact kept
      · intro keeps other hother row hrow he
        rcases List.mem_cons.mp hother with rfl | hother
        · rw [List.inj_on_of_nodup_map windows hrow hmem (he.trans hwindow.symm)]
          exact List.mem_cons_self
        · apply List.mem_cons_of_mem
          apply keeps other hother row _ he
          apply mem_without.mpr ⟨hrow, fun hid => ?_⟩
          rw [List.inj_on_of_nodup_map ids hrow hmem hid, hwindow] at he
          exact later other hother he.symm
    | none =>
      have unowned : ∀ row ∈ free, row.tmuxWindow ≠ item.tmuxWindow := by
        intro row hrow he
        rw [← he, byWindow_of_mem windows hrow] at hown
        exact nomatch hown
      rw [Option.none_or]
      cases hfallback : fallbackShell free item with
      | none =>
        dsimp only
        rw [← ih windows ids distinct]
        constructor
        · intro keeps other hother row hrow he
          exact keeps other (List.mem_cons_of_mem _ hother) row hrow he
        · intro keeps other hother row hrow he
          rcases List.mem_cons.mp hother with rfl | hother
          · exact absurd he (unowned row hrow)
          · exact keeps other hother row hrow he
      | some taken =>
        have htaken := fallbackShell_mem hfallback
        dsimp only
        rw [Bool.and_eq_true, List.all_eq_true,
          ← ih (windows.sublist ((sub taken).map _)) (ids.sublist ((sub taken).map _)) distinct]
        constructor
        · intro keeps
          constructor
          · intro other hother
            apply decide_eq_true
            intro he
            -- the row is gone, and no window after this one can have it
            rcases List.mem_cons.mp
              (keeps other (List.mem_cons_of_mem _ hother) taken htaken he.symm) with heq | kept
            · exact later other hother (Prod.mk.inj heq).1
            · exact (mem_without.mp (serveShells_mem kept)).2 rfl
          · intro other hother row hrow he
            have kept := keeps other (List.mem_cons_of_mem _ hother) row (mem_without.mp hrow).1 he
            rcases List.mem_cons.mp kept with heq | kept
            · exact absurd (Prod.mk.inj heq).1 (later other hother)
            · exact kept
        · intro ⟨untaken, keeps⟩ other hother row hrow he
          rcases List.mem_cons.mp hother with rfl | hother
          · exact absurd he (unowned row hrow)
          · apply List.mem_cons_of_mem
            apply keeps other hother row _ he
            apply mem_without.mpr ⟨hrow, fun hid => ?_⟩
            rw [List.inj_on_of_nodup_map ids hrow htaken hid] at he
            exact of_decide_eq_true (untaken other hother) he.symm

theorem claims_append {w id : String} :
    Assigned.claims (assigned ++ [(w, row)]) id = (assigned.claims id || decide (row.id = id)) := by
  simp [Assigned.claims]

theorem remainingShells_claim {w : String} :
    remainingShells stored (assigned ++ [(w, row)]) = without row (remainingShells stored assigned) := by
  unfold remainingShells without
  rw [List.filter_filter]
  congr 1
  funext other
  rw [claims_append]
  by_cases he : row.id = other.id
  · simp [he]
  · simp [he, Ne.symm he]

theorem shellCandidate_eq (windows : (stored.map Terminal.tmuxWindow).Nodup) :
    shellCandidate stored assigned item =
      (byWindow (remainingShells stored assigned) item.tmuxWindow).or
        (fallbackShell (remainingShells stored assigned) item) := by
  have own : ((byWindow stored item.tmuxWindow).filter fun row =>
      row.role = .shell && !assigned.claims row.id) =
        byWindow (remainingShells stored assigned) item.tmuxWindow := by
    have sub : (remainingShells stored assigned).Sublist stored := List.filter_sublist
    cases hfound : byWindow (remainingShells stored assigned) item.tmuxWindow with
    | some row =>
      obtain ⟨hmem, hwindow⟩ := byWindow_mem hfound
      obtain ⟨hrow, hfree⟩ := List.mem_filter.mp hmem
      rw [← hwindow, byWindow_of_mem windows hrow]
      exact Option.filter_eq_some_iff.mpr ⟨rfl, hfree⟩
    | none =>
      rw [Option.filter_eq_none_iff]
      intro row hrow hfree
      obtain ⟨hmem, hwindow⟩ := byWindow_mem hrow
      have := byWindow_of_mem (windows.sublist (sub.map _)) (List.mem_filter.mpr ⟨hmem, hfree⟩)
      rw [hwindow, hfound] at this
      exact nomatch this
  unfold shellCandidate
  rw [own]
  cases byWindow (remainingShells stored assigned) item.tmuxWindow with
  | some row => rfl
  | none => rfl

theorem matchShells_eq (windows : (stored.map Terminal.tmuxWindow).Nodup) :
    matchShells stored assigned items =
      assigned ++
        serveShells (remainingShells stored assigned) (items.filter DesiredTerminal.isShell) := by
  induction items generalizing assigned with
  | nil => simp [matchShells, serveShells]
  | cons item rest ih =>
    unfold matchShells
    split
    · rename_i hshell
      have hisShell : item.isShell = true := by simpa [DesiredTerminal.isShell] using hshell
      rw [List.filter_cons, if_pos hisShell, serveShells, shellCandidate_eq windows]
      split
      · rw [ih, remainingShells_claim, List.append_assoc, List.singleton_append]
      · exact ih
    · rename_i hmanaged
      have hnot : ¬item.isShell = true := by simpa [DesiredTerminal.isShell] using hmanaged
      rw [List.filter_cons, if_neg hnot]
      exact ih

theorem matchManaged_window {p : String × Terminal}
    (h : p ∈ matchManaged stored assigned items) :
    p ∈ assigned ∨ ∃ item ∈ items, item.isShell = false ∧ p.1 = item.tmuxWindow ∧
      managedCandidate stored item = some p.2 := by
  induction items generalizing assigned with
  | nil => exact .inl h
  | cons item rest ih =>
    have deeper : (∃ other ∈ rest, other.isShell = false ∧ p.1 = other.tmuxWindow ∧
        managedCandidate stored other = some p.2) → ∃ other ∈ item :: rest,
          other.isShell = false ∧ p.1 = other.tmuxWindow ∧
            managedCandidate stored other = some p.2 :=
      fun h => h.imp fun _ h => h.imp_left (List.mem_cons_of_mem _)
    unfold matchManaged at h
    split at h
    · exact (ih h).imp_right deeper
    · rename_i hmanaged
      split at h
      · rename_i row found
        split at h
        · exact (ih h).imp_right deeper
        · rcases ih h with h | h
          · rcases List.mem_append.mp h with h | h
            · exact .inl h
            · rw [List.mem_singleton.mp h]
              have hnot : item.isShell = false := by simpa [DesiredTerminal.isShell] using hmanaged
              exact .inr ⟨item, List.mem_cons_self, hnot, rfl, found⟩
          · exact .inr (deeper h)
      · exact (ih h).imp_right deeper

theorem matchManaged_claims (hitem : item ∈ items) (hmanaged : item.isShell = false)
    (found : managedCandidate stored item = some row) :
    (matchManaged stored assigned items).claims row.id = true := by
  induction items generalizing assigned with
  | nil => exact absurd hitem List.not_mem_nil
  | cons next rest ih =>
    have kept : ∀ {assigned : Assigned}, assigned.claims row.id = true →
        (matchManaged stored assigned rest).claims row.id = true := by
      intro assigned h
      obtain ⟨p, hp, hid⟩ := claims_iff.mp h
      exact claims_iff.mpr ⟨p, matchManaged_subset hp, hid⟩
    unfold matchManaged
    rcases List.mem_cons.mp hitem with rfl | hitem
    · rw [if_neg (by simpa [DesiredTerminal.isShell] using hmanaged), found]
      dsimp only
      split
      · rename_i hclaimed
        exact kept hclaimed
      · apply kept
        rw [claims_append, decide_eq_true rfl, Bool.or_true]
    · split
      · exact ih hitem
      · split
        · split
          · exact ih hitem
          · exact ih hitem
        · exact ih hitem

theorem remainingShells_matchManaged (windows : (stored.map Terminal.tmuxWindow).Nodup)
    (ids : (stored.map Terminal.id).Nodup) :
    remainingShells stored (matchManaged stored [] desired) = freeShells stored desired := by
  unfold remainingShells freeShells
  apply List.filter_congr
  intro row hrow
  by_cases hshell : row.role = .shell
  swap
  · simp [hshell]
  congr 2
  rw [Bool.eq_iff_iff, claims_iff, List.any_eq_true]
  constructor
  · rintro ⟨p, hp, hid⟩
    rcases matchManaged_window hp with hp | ⟨item, hitem, hmanaged, -, found⟩
    · exact absurd hp List.not_mem_nil
    obtain ⟨hmem, -⟩ := managedCandidate_mem found
    obtain rfl := List.inj_on_of_nodup_map ids hmem hrow hid
    unfold managedCandidate at found
    split at found
    · rename_i other hother
      obtain rfl := Option.some.inj found
      exact absurd hshell (byManagedRole_mem hother).2.1
    · rename_i hnone
      obtain ⟨hwindow, -⟩ := Option.filter_eq_some_iff.mp found
      refine ⟨item, hitem, ?_⟩
      simp [hmanaged, hnone, (byWindow_mem hwindow).2]
  · rintro ⟨item, hitem, h⟩
    simp only [Bool.and_eq_true, Bool.not_eq_true', decide_eq_true_eq, Option.isNone_iff_eq_none]
      at h
    obtain ⟨⟨hmanaged, hwindow⟩, hnone⟩ := h
    have found : managedCandidate stored item = some row := by
      unfold managedCandidate
      rw [hnone, hwindow, byWindow_of_mem windows hrow]
      exact Option.filter_eq_some_iff.mpr ⟨rfl, decide_eq_true hshell⟩
    exact claims_iff.mp (matchManaged_claims hitem hmanaged found)

theorem mem_freeShells (listed : Listed desired) (hitem : item ∈ desired)
    (hshell : item.isShell = true) (hrow : row ∈ stored) (hrole : row.role = .shell)
    (hwindow : row.tmuxWindow = item.tmuxWindow) : row ∈ freeShells stored desired := by
  apply List.mem_filter.mpr ⟨hrow, _⟩
  have untaken : desired.any (fun other => !other.isShell && other.tmuxWindow = row.tmuxWindow &&
      (byManagedRole stored other.role).isNone) = false := by
    apply List.any_eq_false.mpr
    intro other hother h
    simp only [Bool.and_eq_true, Bool.not_eq_true', decide_eq_true_eq] at h
    rw [listed.inj hother hitem (h.1.2.trans hwindow), hshell] at h
    exact nomatch h.1.1
  rw [untaken, hrole]
  rfl

/-- The window is assigned the row among the shells. -/
theorem assigned_iff_served (windows : (stored.map Terminal.tmuxWindow).Nodup)
    (ids : (stored.map Terminal.id).Nodup) (listed : Listed desired) (hitem : item ∈ desired)
    (hshell : item.isShell = true) :
    (item, some row) ∈ assignments stored desired ↔ (item.tmuxWindow, row) ∈
      serveShells (freeShells stored desired) (desired.filter DesiredTerminal.isShell) := by
  rw [mem_assignments listed, and_iff_right hitem]
  unfold assignedByWindow
  rw [matchShells_eq windows, remainingShells_matchManaged windows ids, List.mem_append]
  apply or_iff_right
  intro h
  rcases matchManaged_window h with h | ⟨other, hother, hmanaged, hwindow, -⟩
  · exact absurd h List.not_mem_nil
  · rw [listed.inj hitem hother hwindow, hmanaged] at hshell
    exact nomatch hshell

end identity

section identity

variable {workspaces : List String} {workspaceId : String} {windows : List TmuxWindow}
variable {desired : List DesiredTerminal} {now : Nat} {uuids : Nat → String}
variable {rows : List Terminal}

theorem listTerminals_windows (constrained : TerminalsConstrained rows) :
    ((listTerminals workspaceId rows).map Terminal.tmuxWindow).Nodup := by
  have ids := List.pairwise_map.mp
    (@listTerminals_ids workspaceId rows constrained.ids)
  apply List.pairwise_map.mpr
  apply ids.imp_of_mem
  intro a b ha hb hne
  obtain ⟨hrow, hworkspace⟩ := mem_listTerminals.mp ha
  obtain ⟨hrow', hworkspace'⟩ := mem_listTerminals.mp hb
  exact (constrained.compatible hrow hrow' hne).window (hworkspace.trans hworkspace'.symm)

/-- **When a shell keeps its id.** Whatever rows are stored and whatever windows are listed:
    every shell window whose exact window is stored with a shell keeps the id of that row if
    and only if no window falls back on the row of a window after it. -/
theorem shells_keep_ids_iff (workspace : workspaceId ∈ workspaces)
    (constrained : TerminalsConstrained rows) (unreserved : Unreserved workspaceId rows)
    (tmux : FromTmux windows) (drawn : Drawn uuids rows)
    (accepted : desiredTerminals [] [] windows = .ok desired) :
    ∃ rows', reconcileTerminals workspaces workspaceId windows now uuids rows =
        (.ok (listTerminals workspaceId rows'), rows') ∧
      ((∀ item ∈ desired, item.isShell = true → ∀ row ∈ rows, row.workspaceId = workspaceId →
          row.role = .shell → row.tmuxWindow = item.tmuxWindow →
            ∃ row' ∈ rows', row'.id = row.id ∧ Projects workspaceId item row') ↔
        keepsRows (freeShells (listTerminals workspaceId rows) desired)
          (desired.filter DesiredTerminal.isShell) = true) := by
  have listed := (desiredTerminals_ok accepted).1
  have ids := @listTerminals_ids workspaceId rows constrained.ids
  have distinct := @listTerminals_windows workspaceId rows constrained
  have sub : (freeShells (listTerminals workspaceId rows) desired).Sublist
      (listTerminals workspaceId rows) := List.filter_sublist
  obtain ⟨rows', hrows', final, -⟩ := @syncTerminals_perm _ _ _ _ now _ _ workspace constrained
    unreserved tmux drawn accepted
  refine ⟨rows', ?_, ?_⟩
  · unfold reconcileTerminals
    rw [accepted]
    dsimp only
    rw [hrows']
  rw [← serveShells_keeps_iff (distinct.sublist (sub.map _)) (ids.sublist (sub.map _))
    (listed.windows.sublist (List.filter_sublist.map _))]
  constructor
  · intro keeps item hitem row hrow hwindow
    obtain ⟨hitem, hshell⟩ := List.mem_filter.mp hitem
    obtain ⟨hstored, hfree⟩ := List.mem_filter.mp hrow
    obtain ⟨hmem, hworkspace⟩ := mem_listTerminals.mp hstored
    simp only [Bool.and_eq_true, decide_eq_true_eq] at hfree
    obtain ⟨row', hrow', hid, hp⟩ := keeps item hitem hshell row hmem hworkspace hfree.1 hwindow
    rw [← assigned_iff_served distinct ids listed hitem hshell]
    rcases List.mem_append.mp (final.mem_iff.mp hrow') with hw | he
    · rcases mem_writtenRows hw with ⟨other, n, -, rfl⟩ | ⟨other, row₂, ha, rfl⟩
      · exact absurd hid.symm (drawn.fresh n row hmem)
      · have hother := (mem_assignments listed).mp ha
        have hrow₂ : row₂ ∈ listTerminals workspaceId rows :=
          (assignedByWindow_matched listed.windows).rows _ hother.2
        rw [List.inj_on_of_nodup_map ids hrow₂ hstored hid,
          listed.inj hother.1 hitem hp.tmuxWindow] at ha
        exact ha
    · exact absurd hp.workspaceId (mem_elsewhere.mp he).2
  · intro keeps item hitem hshell row hrow hworkspace hrole hwindow
    have hstored := mem_listTerminals.mpr ⟨hrow, hworkspace⟩
    have served := keeps item (List.mem_filter.mpr ⟨hitem, hshell⟩) row
      (mem_freeShells listed hitem hshell hstored hrole hwindow) hwindow
    have assigned := (assigned_iff_served distinct ids listed hitem hshell).mpr served
    refine ⟨row.follow item, ?_, rfl, hworkspace, rfl, rfl, rfl, rfl⟩
    exact final.mem_iff.mpr (List.mem_append_left _ (follow_mem_writtenRows assigned))

end identity

/-- A new window after the one that is stored. -/
theorem shells_keep_ids_appended :
    ∃ rows', reconcileTerminals ["w"] "w" [shellWindow "@1" "a", shellWindow "@2" "b"] 5 newIds
        [shellRow "a" "@1" "a"] = (.ok (listTerminals "w" rows'), rows') ∧
      ((∀ item ∈ [⟨"@1", "a", .shell, none, none⟩, ⟨"@2", "b", .shell, none, none⟩],
          item.isShell = true → ∀ row ∈ [shellRow "a" "@1" "a"], row.workspaceId = "w" →
            row.role = .shell → row.tmuxWindow = item.tmuxWindow →
              ∃ row' ∈ rows', row'.id = row.id ∧ Projects "w" item row') ↔
        keepsRows (freeShells (listTerminals "w" [shellRow "a" "@1" "a"])
            [⟨"@1", "a", .shell, none, none⟩, ⟨"@2", "b", .shell, none, none⟩])
          ([⟨"@1", "a", .shell, none, none⟩, ⟨"@2", "b", .shell, none, none⟩].filter
            DesiredTerminal.isShell) = true) := by
  apply shells_keep_ids_iff
  · decide
  · apply constrained_of_compatible (by decide +kernel)
    intro a ha b hb hne
    rw [List.mem_singleton.mp ha, List.mem_singleton.mp hb] at hne
    exact absurd rfl hne
  · unfold Unreserved
    decide +kernel
  · intro raw hraw
    simp only [List.mem_cons, List.not_mem_nil, or_false] at hraw
    rcases hraw with rfl | rfl
    · exact ⟨"1", by decide +kernel⟩
    · exact ⟨"2", by decide +kernel⟩
  · exact newIds_drawn (by decide +kernel)
  · decide +kernel

/-- A new window listed before the one that is stored takes its row, and the stored one is a new
    Terminal. -/
theorem new_window_takes_row :
    ∃ rows', reconcileTerminals ["w"] "w" [shellWindow "@2" "b", shellWindow "@1" "a"] 5 newIds
        [shellRow "a" "@1" "a"] = (.ok rows', rows') ∧
      rows' = [shellRow "a" "@2" "b",
        { shellRow "u" "@1" "a" with createdAt := 5, lastOpenedAt := 5 }] ∧
      ¬∃ row' ∈ rows', row'.id = "a" ∧ row'.tmuxWindow = "@1" := by
  refine ⟨_, ?_, rfl, ?_⟩
  · decide +kernel
  · decide +kernel

end Termroom.Store
