import Mathlib
import Termroom.Conc.Pool
import Termroom.Data.JsonText
import Termroom.Store.Pairing

/-!
# The commands of a Workspace

A Workspace keeps up to three command shortcuts, as the text of a JSON array in its row. A client
adds one, replaces or deletes the one at a slot, or runs it; it names the command it means by the
digest that its page showed. The request reads the list, checks the digest, and then writes the
whole list, if the text in the row is still the one of the list it read. A run consumes the launch
id of its page before it is dispatched.

The reads and the transactions of all requests interleave. **No update is lost**
(`commands_lose_no_update`): what is stored is what the requests that reported success make of the
empty list, in the order of their writes, each at the command with its digest.
-/

set_option autoImplicit false

namespace Termroom.Store.Commands

open Conc Data

/-! ## 1. Command lists -/

inductive CommandError where
  | value (message : String)
  | runtime (message : String)
  /-- `KeyError`. -/
  | unknown (message : String)
  | http (status : Nat) (detail : String)
  /-- `TerminalError`, `SSHBackendError` or `RemoteAccessError`. -/
  | terminal (message : String)
  /-- A constraint, a locked database, a full disk. -/
  | database
  deriving DecidableEq, Repr

def maxWorkspaceCommands : Nat := 3

def maxWorkspaceCommandBytes : Nat := 4096

/-- What the loop of `normalize_workspace_commands` does with a value, which may be no text. -/
def normalizeValue : Option String → Except CommandError (Option String)
  | none => .error (.value "Workspace commands must be text")
  | some value =>
    let command := strip value.toList
    if value.toList.any Pairing.breaksLine then
      .error (.value "Workspace commands must be one line without control characters")
    else if command = [] then .ok none
    else if maxWorkspaceCommandBytes < (utf8 command).length then
      .error (.value "Workspace command exceeds 4096 UTF-8 bytes")
    else .ok (some (String.ofList command))

def normalizeValues : List (Option String) → Except CommandError (List String)
  | [] => .ok []
  | value :: values => do
    let command ← normalizeValue value
    let commands ← normalizeValues values
    return command.toList ++ commands

/-- `normalize_workspace_commands`. -/
def normalizeWorkspaceCommands (values : List (Option String)) :
    Except CommandError (List String) := do
  let commands ← normalizeValues values
  if maxWorkspaceCommands < commands.length then
    .error (.value "A Workspace can store at most three commands")
  else .ok commands

/-- `normalize_workspace_command`. -/
def normalizeWorkspaceCommand (value : Option String) : Except CommandError String := do
  let commands ← normalizeWorkspaceCommands [value]
  match commands with
  | [command] => .ok command
  | _ => .error (.value "Workspace command cannot be empty")

/-- `json.dumps(commands, ensure_ascii=False, separators=(",", ":"))`. -/
def encode (commands : List String) : List Char := Json.dumps (.arr (commands.map .str))

/-- A value that is a `str`. -/
def asText : Json → Option String
  | .str value => some value
  | _ => none

/-- Any way to write a float: there is none in a list that is accepted. -/
def noFloats (text : List Char) : String := String.ofList text

/-- `workspace_commands_from`. -/
def workspaceCommandsFrom (raw : List Char) : Except CommandError (List String) :=
  let invalid := .error (.runtime "Stored Workspace commands are invalid")
  match Json.loads noFloats (if raw = [] then "[]".toList else raw) with
  | some (.arr values) =>
    match normalizeWorkspaceCommands (values.map asText) with
    | .ok commands => if commands.map .str = values then .ok commands else invalid
    | .error _ => invalid
  | _ => invalid

section lists

variable {value : Option String} {command : String} {commands : List String}
variable {values : List (Option String)}

/-- A command as it is stored. -/
structure IsCommand (command : String) : Prop where
  line : command.toList.any Pairing.breaksLine = false
  stripped : strip command.toList = command.toList
  nonempty : command.toList ≠ []
  short : (utf8 command.toList).length ≤ maxWorkspaceCommandBytes

theorem normalizeValue_command (h : IsCommand command) :
    normalizeValue (some command) = .ok (some command) := by
  unfold normalizeValue
  simp only [h.stripped, h.line, h.nonempty, Nat.not_lt.mpr h.short, String.ofList_toList,
    if_false, Bool.false_eq_true]

theorem isCommand_of_ok (h : normalizeValue value = .ok (some command)) : IsCommand command := by
  cases value with
  | none => cases h
  | some value =>
    unfold normalizeValue at h
    dsimp only at h
    split at h
    · cases h
    rename_i line
    split at h
    · cases h
    rename_i nonempty
    split at h
    · cases h
    rename_i short
    cases h
    constructor
    · rw [String.toList_ofList, List.any_eq_false]
      intro c hc
      exact List.any_eq_false.mp (Bool.not_eq_true _ ▸ line) c (strip_subset _ hc)
    · rw [String.toList_ofList]
      exact strip_strip _
    · rw [String.toList_ofList]
      exact nonempty
    · rw [String.toList_ofList]
      exact Nat.not_lt.mp short

theorem normalizeValues_commands (h : ∀ command ∈ commands, IsCommand command) :
    normalizeValues (commands.map some) = .ok commands := by
  induction commands with
  | nil => rfl
  | cons command commands ih =>
    have rest := ih fun c hc => h c (List.mem_cons_of_mem _ hc)
    rw [List.map_cons]
    unfold normalizeValues
    rw [normalizeValue_command (h command List.mem_cons_self), rest]
    rfl

theorem isCommand_of_values (h : normalizeValues values = .ok commands) :
    ∀ command ∈ commands, IsCommand command := by
  induction values generalizing commands with
  | nil =>
    cases h
    simp
  | cons value values ih =>
    unfold normalizeValues at h
    obtain ⟨first, hfirst, h⟩ := bind_eq_ok.mp h
    obtain ⟨rest, hrest, h⟩ := bind_eq_ok.mp h
    cases h
    intro command hcommand
    rcases List.mem_append.mp hcommand with hc | hc
    · cases first with
      | none => cases hc
      | some first =>
        rw [Option.toList_some, List.mem_singleton] at hc
        rw [hc]
        exact isCommand_of_ok hfirst
    · exact ih hrest command hc

/-- A command list as it is stored. -/
structure Normal (commands : List String) : Prop where
  each : ∀ command ∈ commands, IsCommand command
  few : commands.length ≤ maxWorkspaceCommands

theorem normalize_normal (h : Normal commands) :
    normalizeWorkspaceCommands (commands.map some) = .ok commands := by
  unfold normalizeWorkspaceCommands
  rw [normalizeValues_commands h.each, ok_bind, if_neg (Nat.not_lt.mpr h.few)]

theorem normal_of_ok (h : normalizeWorkspaceCommands values = .ok commands) :
    Normal commands := by
  unfold normalizeWorkspaceCommands at h
  obtain ⟨found, hfound, h⟩ := bind_eq_ok.mp h
  split at h
  · cases h
  · rename_i few
    cases h
    exact ⟨isCommand_of_values hfound, Nat.not_lt.mp few⟩

theorem isCommand_of_normalized (h : normalizeWorkspaceCommand value = .ok command) :
    IsCommand command := by
  unfold normalizeWorkspaceCommand at h
  obtain ⟨commands, hcommands, h⟩ := bind_eq_ok.mp h
  split at h
  · cases h
    exact (normal_of_ok hcommands).each command (List.mem_singleton_self _)
  · cases h

theorem normalizeWorkspaceCommand_command (h : IsCommand command) :
    normalizeWorkspaceCommand (some command) = .ok command := by
  have normal : Normal [command] := by
    refine ⟨?_, by simp [maxWorkspaceCommands]⟩
    intro c hc
    rw [List.mem_singleton.mp hc]
    exact h
  unfold normalizeWorkspaceCommand
  rw [show [some command] = [command].map some from rfl, normalize_normal normal]
  rfl

theorem readable_strings : Json.ReadableItems noFloats (commands.map .str) := by
  induction commands with
  | nil => trivial
  | cons command commands ih => exact ⟨trivial, ih⟩

theorem loads_encode : Json.loads noFloats (encode commands) = some (.arr (commands.map .str)) :=
  Json.loads_dumps noFloats readable_strings

/-- **Two lists of one text are one list**, so that the text stands for the list. -/
theorem encode_inj {others : List String} (h : encode commands = encode others) :
    commands = others := by
  have same := @loads_encode commands
  rw [h, loads_encode] at same
  have items := Json.arr.inj (Option.some.inj same)
  exact (List.map_injective_iff.mpr (fun _ _ => Json.str.inj) items).symm

theorem normal_of_read {raw : List Char} (h : workspaceCommandsFrom raw = .ok commands) :
    Normal commands := by
  unfold workspaceCommandsFrom at h
  dsimp only at h
  split at h
  · split at h
    · rename_i hnormal
      split at h
      · cases h
        exact normal_of_ok hnormal
      · cases h
    · cases h
  · cases h

end lists

/-! ## 2. The requests -/

inductive WorkspaceKind where
  | workspace | remoteRun | serverTerminal
  deriving DecidableEq, Repr

/-- What `claim_workspace_command` returns. -/
inductive Admission where
  | created | replayed
  deriving DecidableEq, Repr

inductive CommandOp where
  /-- `manager.require`: whether the Workspace is transient, and its kind. -/
  | require
  /-- `get_workspace`: the text of the list. -/
  | get
  /-- `SELECT workspace_kind`. -/
  | kind
  /-- The `UPDATE` where the text is `expected`, and the commit: the number of rows. -/
  | update (expected encoded : List Char)
  /-- The transaction of `claim_workspace_command`. -/
  | claim (launchId : String) (slot : Int) (digest : String)
  /-- `run_workspace_command`, local or remote. -/
  | dispatch (slot : Int) (command launchId : String)
  deriving DecidableEq, Repr

abbrev CommandOp.Ans : CommandOp → Type
  | .require => Except CommandError (Option (Bool × WorkspaceKind))
  | .get => Except CommandError (Option (List Char))
  | .kind => Except CommandError (Option WorkspaceKind)
  | .update _ _ => Except CommandError Nat
  | .claim _ _ _ => Except CommandError Admission
  | .dispatch _ _ _ => Except CommandError String

abbrev CommandSig : Sig := ⟨CommandOp, CommandOp.Ans⟩

abbrev CommandProg := Prog CommandSig CommandError

def perform (o : CommandOp) : CommandProg o.Ans := @Prog.perform CommandSig CommandError o

/-- Where the client is redirected to. -/
inductive CommandReply where
  | saved
  | invalid
  | changed
  | alreadySubmitted
  | failed (message : String)
  | launched (terminal : String)
  deriving DecidableEq, Repr

/-- `workspace_command_digest`. -/
def workspaceCommandDigest (sha256 : List UInt8 → String) (command : String) :
    Except CommandError String := do
  let command ← normalizeWorkspaceCommand (some command)
  return sha256 (utf8 command.toList)

def secureCompare (left right : String) : Bool := left ≠ "" && left = right

def requireCommands : CommandProg Unit := do
  let r ← perform .require
  let seen ← Prog.ofExcept r
  match seen with
  | none => .raise (.http 404 "Workspace not found")
  | some (transient, kind) =>
    if transient ∨ kind ≠ .workspace then
      .raise (.http 404 "Workspace commands are available only for persistent Workspaces")
    else pure ()

/-- `list_workspace_commands`. -/
def listWorkspaceCommands : CommandProg (List String) := do
  let r ← perform .get
  let raw ← Prog.ofExcept r
  match raw with
  | none => .raise (.unknown "Unknown Workspace")
  | some raw => Prog.ofExcept (workspaceCommandsFrom raw)

/-- `replace_workspace_commands_if_current`. -/
def replaceWorkspaceCommandsIfCurrent (expectedValues values : List (Option String)) :
    CommandProg (Option (List String)) := do
  let expected ← Prog.ofExcept (normalizeWorkspaceCommands expectedValues)
  let commands ← Prog.ofExcept (normalizeWorkspaceCommands values)
  let r ← perform .kind
  let kind ← Prog.ofExcept r
  match kind with
  | none => .raise (.unknown "Unknown Workspace")
  | some kind =>
    if kind ≠ .workspace then
      .raise (.value "Commands are available only for persistent Workspaces")
    else do
      let r ← perform (.update (encode expected) (encode commands))
      let rowcount ← Prog.ofExcept r
      if rowcount ≠ 1 then pure none else pure (some commands)

/-- The list is replaced by `commands`, if it is still the one that was read. -/
def replace (read commands : List String) : CommandProg CommandReply := do
  let changed ← replaceWorkspaceCommandsIfCurrent (read.map some) (commands.map some)
  match changed with
  | none => pure .changed
  | some _ => pure .saved

/-- `except ValueError`. -/
def orInvalid (p : CommandProg CommandReply) : CommandProg CommandReply := do
  let r ← p.attempt
  match r with
  | .ok reply => pure reply
  | .error (.value _) => pure .invalid
  | .error e => .raise e

def addWorkspaceRunCommand (command : Option String) : CommandProg CommandReply := do
  requireCommands
  let commands ← listWorkspaceCommands
  orInvalid
    (if maxWorkspaceCommands ≤ commands.length then
      .raise (.value "Workspace command limit reached")
    else do
      let command ← Prog.ofExcept (normalizeWorkspaceCommand command)
      replace commands (commands ++ [command]))

/-- `commands[slot]`, where there is one. -/
def commandAt (commands : List String) (slot : Int) : Except CommandError String :=
  if slot < 0 then .error (.http 404 "Workspace command not found")
  else
    match commands[slot.toNat]? with
    | none => .error (.http 404 "Workspace command not found")
    | some command => .ok command

/-- How the requests for a slot begin: the list, and the command at the slot if its digest is the
    submitted one. -/
def readSlot (sha256 : List UInt8 → String) (slot : Int) (digest : String) :
    CommandProg (List String × Option String) := do
  requireCommands
  let commands ← listWorkspaceCommands
  let command ← Prog.ofExcept (commandAt commands slot)
  let current ← Prog.ofExcept (workspaceCommandDigest sha256 command)
  if secureCompare digest current then pure (commands, some command) else pure (commands, none)

/-- What `save_workspace_run_command` does with the list it read. -/
def saveSlot (slot : Int) (command : Option String) :
    List String × Option String → CommandProg CommandReply
  | (_, none) => pure .changed
  | (commands, some _) =>
    orInvalid do
      let command ← Prog.ofExcept (normalizeWorkspaceCommand command)
      replace commands
        (commands.take slot.toNat ++ [command] ++ commands.drop (slot.toNat + 1))

def saveWorkspaceRunCommand (sha256 : List UInt8 → String) (slot : Int) (digest : String)
    (command : Option String) : CommandProg CommandReply := do
  let read ← readSlot sha256 slot digest
  saveSlot slot command read

def deleteSlot (slot : Int) : List String × Option String → CommandProg CommandReply
  | (_, none) => pure .changed
  | (commands, some _) =>
    replace commands (commands.take slot.toNat ++ commands.drop (slot.toNat + 1))

def deleteWorkspaceCommand (sha256 : List UInt8 → String) (slot : Int) (digest : String) :
    CommandProg CommandReply := do
  let read ← readSlot sha256 slot digest
  deleteSlot slot read

/-- `claim_workspace_command`. -/
def claimWorkspaceCommand (launchId : String) (slot : Int) (digest : String) :
    CommandProg Admission :=
  if launchId = "" then .raise (.value "Workspace command launch identity is required")
  else do
    let r ← perform (.claim launchId slot digest)
    Prog.ofExcept r

/-- From the admission on. -/
def launch (launchId : String) (slot : Int) (command : String) :
    Except CommandError Admission → CommandProg CommandReply
  | .error (.value _) => pure .alreadySubmitted
  | .error e => .raise e
  | .ok .replayed => pure .alreadySubmitted
  | .ok .created => do
    let r ← perform (.dispatch slot command launchId)
    match r with
    | .ok terminal => pure (.launched terminal)
    | .error (.value message) => pure (.failed message)
    | .error (.terminal message) => pure (.failed message)
    | .error e => .raise e

def runSlot (sha256 : List UInt8 → String) (launchId : String) (slot : Int) :
    List String × Option String → CommandProg CommandReply
  | (_, none) => pure .changed
  | (_, some command) => do
    let digest ← Prog.ofExcept (workspaceCommandDigest sha256 command)
    let admission ← (claimWorkspaceCommand launchId slot digest).attempt
    launch launchId slot command admission

def runWorkspaceCommand (sha256 : List UInt8 → String) (slot : Int) (digest launchId : String) :
    CommandProg CommandReply := do
  let read ← readSlot sha256 slot digest
  runSlot sha256 launchId slot read

/-- A request, with the fields of its form; the command may be missing or be a file. -/
inductive CommandRequest where
  | add (command : Option String)
  | save (slot : Int) (digest : String) (command : Option String)
  | delete (slot : Int) (digest : String)
  | run (slot : Int) (digest launchId : String)
  deriving DecidableEq, Repr

def CommandRequest.body (sha256 : List UInt8 → String) : CommandRequest → CommandProg CommandReply
  | .add command => addWorkspaceRunCommand command
  | .save slot digest command => saveWorkspaceRunCommand sha256 slot digest command
  | .delete slot digest => deleteWorkspaceCommand sha256 slot digest
  | .run slot digest launchId => runWorkspaceCommand sha256 slot digest launchId

/-! ## 3. The steps -/

/-- The columns of a `workspaces` row. -/
structure CommandRow where
  kind : WorkspaceKind
  commandsJson : List Char
  deriving DecidableEq, Repr

/-- A `workspace_command_claims` row of the Workspace. -/
structure Claim where
  launchId : String
  slot : Int
  digest : String
  deriving DecidableEq, Repr

/-- A dispatch that took place. -/
structure Dispatched where
  thread : Nat
  request : CommandRequest
  slot : Int
  command : String
  launchId : String
  deriving DecidableEq, Repr

structure CommandWorld where
  row : Option CommandRow
  claims : List Claim
  /-- The requests that wrote the list; history that no step depends on, as what follows. -/
  writes : List (Nat × CommandRequest)
  /-- The launch ids that were consumed. -/
  consumed : List (Nat × String)
  dispatched : List Dispatched
  deriving DecidableEq, Repr

/-- A new Workspace: the column's default is `'[]'`. -/
def CommandWorld.init (kind : WorkspaceKind) : CommandWorld :=
  ⟨some ⟨kind, "[]".toList⟩, [], [], [], []⟩

namespace CommandWorld

def write (w : CommandWorld) (t : Nat) (l : CommandRequest) (encoded : List Char) :
    CommandWorld :=
  { w with
    row := w.row.map fun row => { row with commandsJson := encoded }
    writes := w.writes ++ [(t, l)] }

def consume (w : CommandWorld) (t : Nat) (claim : Claim) : CommandWorld :=
  { w with
    claims := w.claims ++ [claim]
    consumed := w.consumed ++ [(t, claim.launchId)] }

def dispatch (w : CommandWorld) (d : Dispatched) : CommandWorld :=
  { w with dispatched := w.dispatched ++ [d] }

end CommandWorld

/-- What the operations do; any of them can fail in the database. A remote run can make the
    Workspace transient. -/
def CommandOp.step (t : Nat) (l : CommandRequest) :
    (o : CommandOp) → o.Ans → CommandWorld → CommandWorld → Prop
  | .require, a, u, v => v = u ∧
    (a = .error .database ∨ ∃ transient, a = .ok (u.row.map fun row => (transient, row.kind)))
  | .get, a, u, v => v = u ∧
    (a = .error .database ∨ a = .ok (u.row.map CommandRow.commandsJson))
  | .kind, a, u, v => v = u ∧ (a = .error .database ∨ a = .ok (u.row.map CommandRow.kind))
  | .update expected encoded, a, u, v =>
    (a = .error .database ∧ v = u) ∨
    (a = .ok 1 ∧ u.row.map CommandRow.commandsJson = some expected ∧ v = u.write t l encoded) ∨
    (a = .ok 0 ∧ u.row.map CommandRow.commandsJson ≠ some expected ∧ v = u)
  | .claim launchId slot digest, a, u, v =>
    (a = .error .database ∧ v = u) ∨
    match u.claims.find? fun claim => claim.launchId = launchId with
    | some existing =>
      v = u ∧
        if existing.slot ≠ slot ∨ existing.digest ≠ digest then
          a = .error (.value
            "Workspace command launch identity was reused with a different command")
        else a = .ok .replayed
    | none => u.row ≠ none ∧ a = .ok .created ∧ v = u.consume t ⟨launchId, slot, digest⟩
  | .dispatch slot command launchId, _, u, v =>
    v = u.dispatch ⟨t, l, slot, command, launchId⟩

/-- `update_workspace_kind` and `delete_workspace`, with which the claims go. -/
def commandEnv (u v : CommandWorld) : Prop :=
  (∃ kind, v = { u with row := u.row.map fun row => { row with kind := kind } }) ∨
  v = { u with row := none, claims := [] }

def commandSystem (sha256 : List UInt8 → String) : System CommandSig CommandError where
  World := CommandWorld
  Label := CommandRequest
  Ret := fun _ => CommandReply
  body := CommandRequest.body sha256
  step := CommandOp.step
  start := fun _ _ u v => v = u
  env := commandEnv

/-! ## 4. What the requests mean -/

/-- The command at the slot has the digest. -/
def Submitted (sha256 : List UInt8 → String) (commands : List String) (slot : Int)
    (digest : String) : Prop :=
  0 ≤ slot ∧ commands[slot.toNat]?.map (fun command => sha256 (utf8 command.toList)) = some digest

instance (sha256 : List UInt8 → String) (commands : List String) (slot : Int) (digest : String) :
    Decidable (Submitted sha256 commands slot digest) :=
  inferInstanceAs (Decidable (_ ∧ _))

/-- **What a request makes of the list**: it adds its command at the end, or replaces or removes
    the one at its slot, which has to have its digest. -/
def CommandRequest.apply (sha256 : List UInt8 → String) (commands : List String) :
    CommandRequest → Option (List String)
  | .add command =>
    if commands.length < maxWorkspaceCommands then
      (normalizeWorkspaceCommand command).toOption.map fun command => commands ++ [command]
    else none
  | .save slot digest command =>
    if Submitted sha256 commands slot digest then
      (normalizeWorkspaceCommand command).toOption.map fun command =>
        commands.set slot.toNat command
    else none
  | .delete slot digest =>
    if Submitted sha256 commands slot digest then some (commands.eraseIdx slot.toNat) else none
  | .run _ _ _ => none

/-- The requests one after the other, from the empty list. -/
def replay (sha256 : List UInt8 → String) (requests : List CommandRequest) :
    Option (List String) :=
  requests.foldlM (CommandRequest.apply sha256) []

section apply

variable {sha256 : List UInt8 → String} {commands : List String} {command digest : String}
variable {value : Option String} {slot : Int}

theorem replay_snoc {requests : List CommandRequest} {request : CommandRequest}
    (h : replay sha256 requests = some commands) :
    replay sha256 (requests ++ [request]) = request.apply sha256 commands := by
  unfold replay at h ⊢
  rw [List.foldlM_append, h]
  show (request.apply sha256 commands >>= fun s => pure s) = _
  rw [bind_pure]

theorem digest_command (h : IsCommand command) :
    workspaceCommandDigest sha256 command = .ok (sha256 (utf8 command.toList)) := by
  unfold workspaceCommandDigest
  rw [normalizeWorkspaceCommand_command h]
  rfl

theorem commandAt_ok (h : commandAt commands slot = .ok command) :
    0 ≤ slot ∧ commands[slot.toNat]? = some command := by
  unfold commandAt at h
  split at h
  · cases h
  · rename_i hslot
    split at h
    · cases h
    · rename_i found hfound
      cases h
      exact ⟨not_lt.mp hslot, hfound⟩

theorem apply_save (hslot : Submitted sha256 commands slot digest)
    (h : normalizeWorkspaceCommand value = .ok command) :
    CommandRequest.apply sha256 commands (.save slot digest value) =
      some (commands.take slot.toNat ++ [command] ++ commands.drop (slot.toNat + 1)) := by
  have hlength : slot.toNat < commands.length := by
    by_contra hge
    have none := List.getElem?_eq_none (not_lt.mp hge)
    have found := hslot.2
    rw [none] at found
    cases found
  dsimp only [CommandRequest.apply]
  rw [if_pos hslot, h, Except.toOption, Option.map_some, List.append_assoc,
    List.singleton_append, List.set_eq_take_append_cons_drop, if_pos hlength]

theorem apply_delete (hslot : Submitted sha256 commands slot digest) :
    CommandRequest.apply sha256 commands (.delete slot digest) =
      some (commands.take slot.toNat ++ commands.drop (slot.toNat + 1)) := by
  dsimp only [CommandRequest.apply]
  rw [if_pos hslot, List.eraseIdx_eq_take_drop_succ]

theorem apply_add (hfew : commands.length < maxWorkspaceCommands)
    (h : normalizeWorkspaceCommand value = .ok command) :
    CommandRequest.apply sha256 commands (.add value) = some (commands ++ [command]) := by
  dsimp only [CommandRequest.apply]
  rw [if_pos hfew, h]
  rfl

end apply

/-! ## 5. The invariant -/

/-- A dispatch of a run request, with the digest that it submitted. -/
def Dispatched.Proper (sha256 : List UInt8 → String) (d : Dispatched) : Prop :=
  d.request = .run d.slot (sha256 (utf8 d.command.toList)) d.launchId

structure CommandInv (sha256 : List UInt8 → String) (w : CommandWorld) : Prop where
  stored : ∃ commands, replay sha256 (w.writes.map Prod.snd) = some commands ∧
    ∀ row, w.row = some row → row.commandsJson = encode commands
  lone : (w.writes.map Prod.fst).Nodup
  held : w.row ≠ none → ∀ entry ∈ w.consumed, ∃ claim ∈ w.claims, claim.launchId = entry.2
  once : (w.consumed.map Prod.snd).Nodup
  single : (w.dispatched.map Dispatched.thread).Nodup
  covered : ∀ d ∈ w.dispatched, (d.thread, d.launchId) ∈ w.consumed
  proper : ∀ d ∈ w.dispatched, d.Proper sha256

/-- What a request wrote into the history. -/
structure Own where
  writes : List (Nat × CommandRequest)
  consumed : List (Nat × String)
  dispatched : List Dispatched
  deriving DecidableEq

def CommandWorld.own (w : CommandWorld) (t : Nat) : Own where
  writes := w.writes.filter fun entry => entry.1 = t
  consumed := w.consumed.filter fun entry => entry.1 = t
  dispatched := w.dispatched.filter fun d => d.thread = t

/-- What an operation needs: a write makes of a list what its request asks for, and a dispatch
    comes after its launch id is consumed, with the submitted digest. -/
def Safe (sha256 : List UInt8 → String) (t : Nat) (l : CommandRequest) (m : Own) :
    CommandOp → Prop
  | .update expected encoded => ∃ commands others, expected = encode commands ∧
    encoded = encode others ∧ l.apply sha256 commands = some others
  | .dispatch slot command launchId => (t, launchId) ∈ m.consumed ∧ m.dispatched = [] ∧
    l = .run slot (sha256 (utf8 command.toList)) launchId
  | _ => True

section steps

variable {sha256 : List UInt8 → String} {t t' : Nat} {l : CommandRequest} {u v : CommandWorld}
variable {encoded : List Char} {claim : Claim} {d : Dispatched}

theorem CommandInv.init {kind : WorkspaceKind} : CommandInv sha256 (.init kind) := by
  refine ⟨⟨[], rfl, ?_⟩, List.nodup_nil, ?_, List.nodup_nil, List.nodup_nil, ?_, ?_⟩
  · intro row hrow
    cases hrow
    rfl
  · intro _ entry h
    cases h
  · intro d h
    cases h
  · intro d h
    cases h

/-- A request without an entry is none of those that have one. -/
theorem notMem_of_filter {α : Type} {entries : List α} {key : α → Nat}
    (h : entries.filter (fun entry => key entry = t) = []) : t ∉ entries.map key := by
  intro hmem
  obtain ⟨entry, hentry, hsame⟩ := List.mem_map.mp hmem
  have hfilter := List.filter_eq_nil_iff.mp h entry hentry
  simp [hsame] at hfilter

/-- **A write finds the list that the requests before it left**, since the text is its list's. -/
theorem CommandInv.write {commands others : List String} (h : CommandInv sha256 u)
    (first : (u.own t).writes = [])
    (current : u.row.map CommandRow.commandsJson = some (encode commands))
    (happly : l.apply sha256 commands = some others) :
    CommandInv sha256 (u.write t l (encode others)) := by
  obtain ⟨before, hbefore, htext⟩ := Option.map_eq_some_iff.mp current
  obtain ⟨found, hfound, hstored⟩ := h.stored
  rw [hstored before hbefore] at htext
  obtain rfl : found = commands := encode_inj htext
  refine ⟨⟨others, ?_, ?_⟩, ?_, ?_, h.once, h.single, h.covered, h.proper⟩
  · show replay sha256 ((u.writes ++ [(t, l)]).map Prod.snd) = _
    rw [List.map_append, List.map_singleton, replay_snoc hfound, happly]
  · intro row hrow
    obtain ⟨-, -, rfl⟩ := Option.map_eq_some_iff.mp hrow
    rfl
  · show ((u.writes ++ [(t, l)]).map Prod.fst).Nodup
    have new : t ∉ u.writes.map Prod.fst := notMem_of_filter first
    rw [List.map_append, List.map_singleton]
    exact h.lone.append (List.nodup_singleton _) (by simpa using new)
  · intro hrow
    exact h.held fun hnone => hrow (by rw [CommandWorld.write, hnone, Option.map_none])

theorem CommandInv.consume (h : CommandInv sha256 u) (there : u.row ≠ none)
    (fresh : u.claims.find? (fun c => c.launchId = claim.launchId) = none) :
    CommandInv sha256 (u.consume t claim) := by
  have new : claim.launchId ∉ u.consumed.map Prod.snd := by
    intro hmem
    obtain ⟨entry, hentry, heq⟩ := List.mem_map.mp hmem
    obtain ⟨other, hother, hsame⟩ := h.held there entry hentry
    have differs := List.find?_eq_none.mp fresh other hother
    simp [hsame, heq] at differs
  refine ⟨h.stored, h.lone, ?_, ?_, h.single, ?_, h.proper⟩
  · intro _ entry hentry
    rcases List.mem_append.mp hentry with hentry | hentry
    · obtain ⟨other, hother, hsame⟩ := h.held there entry hentry
      exact ⟨other, List.mem_append_left _ hother, hsame⟩
    · rw [List.mem_singleton.mp hentry]
      exact ⟨claim, List.mem_append_right _ (List.mem_singleton_self _), rfl⟩
  · show ((u.consumed ++ [(t, claim.launchId)]).map Prod.snd).Nodup
    rw [List.map_append, List.map_singleton]
    exact h.once.append (List.nodup_singleton _) (by simpa using new)
  · intro d hd
    exact List.mem_append_left _ (h.covered d hd)

theorem CommandInv.dispatch (h : CommandInv sha256 u) (first : (u.own d.thread).dispatched = [])
    (consumed : (d.thread, d.launchId) ∈ u.consumed) (hproper : d.Proper sha256) :
    CommandInv sha256 (u.dispatch d) := by
  have new : d.thread ∉ u.dispatched.map Dispatched.thread := notMem_of_filter first
  refine ⟨h.stored, h.lone, h.held, h.once, ?_, ?_, ?_⟩
  · show ((u.dispatched ++ [d]).map Dispatched.thread).Nodup
    rw [List.map_append, List.map_singleton]
    exact h.single.append (List.nodup_singleton _) (by simpa using new)
  · intro other hother
    rcases List.mem_append.mp hother with hother | hother
    · exact h.covered other hother
    · rw [List.mem_singleton.mp hother]
      exact consumed
  · intro other hother
    rcases List.mem_append.mp hother with hother | hother
    · exact h.proper other hother
    · rw [List.mem_singleton.mp hother]
      exact hproper

theorem CommandInv.env (h : CommandInv sha256 u) (moved : commandEnv u v) :
    CommandInv sha256 v := by
  obtain ⟨commands, hreplay, hstored⟩ := h.stored
  rcases moved with ⟨kind, rfl⟩ | rfl
  · refine ⟨⟨commands, hreplay, ?_⟩, h.lone, ?_, h.once, h.single, h.covered, h.proper⟩
    · intro row hrow
      obtain ⟨before, hbefore, rfl⟩ := Option.map_eq_some_iff.mp hrow
      exact hstored before hbefore
    · intro hrow
      exact h.held fun hnone => hrow (by dsimp only; rw [hnone, Option.map_none])
  · refine ⟨⟨commands, hreplay, ?_⟩, h.lone, ?_, h.once, h.single, h.covered, h.proper⟩
    · intro row hrow
      cases hrow
    · intro hrow
      exact absurd rfl hrow

theorem own_write (ht : t' ≠ t) : (u.write t l encoded).own t' = u.own t' := by
  simp [CommandWorld.own, CommandWorld.write, Ne.symm ht]

theorem own_consume (ht : t' ≠ t) : (u.consume t claim).own t' = u.own t' := by
  simp [CommandWorld.own, CommandWorld.consume, Ne.symm ht]

theorem own_dispatch (ht : t' ≠ d.thread) : (u.dispatch d).own t' = u.own t' := by
  simp [CommandWorld.own, CommandWorld.dispatch, Ne.symm ht]

/-- **What a safe operation keeps**: the invariant, and what is of the others. -/
theorem step_keeps {o : CommandOp} {a : o.Ans} (h : CommandInv sha256 u) (step : o.step t l a u v)
    (first : (u.own t).writes = []) (safe : Safe sha256 t l (u.own t) o) :
    CommandInv sha256 v ∧ ∀ t', t' ≠ t → v.own t' = u.own t' := by
  cases o with
  | require =>
    obtain ⟨rfl, -⟩ := step
    exact ⟨h, fun _ _ => rfl⟩
  | get =>
    obtain ⟨rfl, -⟩ := step
    exact ⟨h, fun _ _ => rfl⟩
  | kind =>
    obtain ⟨rfl, -⟩ := step
    exact ⟨h, fun _ _ => rfl⟩
  | update expected encoded =>
    obtain ⟨commands, others, rfl, rfl, happly⟩ := safe
    rcases step with ⟨-, rfl⟩ | ⟨-, current, rfl⟩ | ⟨-, -, rfl⟩
    · exact ⟨h, fun _ _ => rfl⟩
    · exact ⟨h.write first current happly, fun _ ht => own_write ht⟩
    · exact ⟨h, fun _ _ => rfl⟩
  | claim launchId slot digest =>
    rcases step with ⟨-, rfl⟩ | step
    · exact ⟨h, fun _ _ => rfl⟩
    split at step
    · obtain ⟨rfl, -⟩ := step
      exact ⟨h, fun _ _ => rfl⟩
    · rename_i fresh
      obtain ⟨there, -, rfl⟩ := step
      exact ⟨h.consume there fresh, fun _ ht => own_consume ht⟩
  | dispatch slot command launchId =>
    obtain rfl : v = u.dispatch ⟨t, l, slot, command, launchId⟩ := step
    obtain ⟨hconsumed, hfirst, hproper⟩ := safe
    have consumed : (t, launchId) ∈ u.consumed := List.mem_of_mem_filter hconsumed
    exact ⟨h.dispatch hfirst consumed hproper, fun _ ht => own_dispatch ht⟩

end steps

/-! ## 6. The programs -/

/-- A request that succeeds with a list has written it, and no other has. -/
def Outcome (t : Nat) (l : CommandRequest) (r : Except CommandError CommandReply)
    (w : CommandWorld) : Prop :=
  (r = .ok .saved ∧ (w.own t).writes = [(t, l)]) ∨ (r ≠ .ok .saved ∧ (w.own t).writes = [])

/-- Each request relies on what it wrote, and writes at most once, last of all. -/
def commandOutline (sha256 : List UInt8 → String) : Outline (commandSystem sha256) where
  inv := CommandInv sha256
  rely := fun t _ u v => v.own t = u.own t
  ok := fun t _ _ _ u _ => (u.own t).writes = []
  post := Outcome
  rely_refl := fun _ _ _ => rfl
  rely_trans := fun _ _ _ _ _ h h' => h'.trans h
  start_keeps := by
    intro t l u v h hv
    obtain rfl : v = u := hv
    exact ⟨h, fun _ _ _ => rfl⟩
  env_keeps := by
    intro u v h moved
    refine ⟨h.env moved, fun t _ => ?_⟩
    rcases moved with ⟨kind, rfl⟩ | rfl
    · rfl
    · rfl

abbrev commandContract (sha256 : List UInt8 → String) (t : Nat) (l : CommandRequest) :
    Contract CommandSig CommandWorld :=
  (commandOutline sha256).contract t l

def Own.blank : Own := ⟨[], [], []⟩

section programs

variable {sha256 : List UInt8 → String} {t : Nat} {l : CommandRequest} {w : CommandWorld}
variable {commands read : List String} {slot : Int} {digest : String}

/-- **An operation**, from a state with this of the request's own. -/
theorem perform_wp {o : CommandOp} {m : Own} {Q : Except CommandError o.Ans → CommandWorld → Prop}
    (hw : w.own t = m) (hm : m.writes = []) (safe : Safe sha256 t l m o)
    (h : ∀ (u : CommandWorld) a v, u.own t = m → o.step t l a u v → Q (.ok a) v) :
    (perform o).wp (commandContract sha256 t l) Q w := by
  intro u hu hinv a v step
  have own : u.own t = m := hu.trans hw
  have first : (u.own t).writes = [] := by
    rw [own]
    exact hm
  have kept := step_keeps hinv step first (own ▸ safe)
  exact ⟨⟨kept.1, fun t' _ ht => kept.2 t' ht, first⟩, h u a v own step⟩

theorem failed {r : Except CommandError CommandReply} (hw : (w.own t).writes = [])
    (hr : r ≠ .ok .saved) : Outcome t l r w := .inr ⟨hr, hw⟩

theorem outcome_blank {r : Except CommandError CommandReply} (hw : w.own t = .blank)
    (hr : r ≠ .ok .saved) : Outcome t l r w := failed (congrArg Own.writes hw) hr

theorem requireCommands_wp {Q : Except CommandError Unit → CommandWorld → Prop}
    (hw : w.own t = .blank) (ok : ∀ v : CommandWorld, v.own t = .blank → Q (.ok ()) v)
    (error : ∀ e (v : CommandWorld), v.own t = .blank → Q (.error e) v) :
    requireCommands.wp (commandContract sha256 t l) Q w := by
  unfold requireCommands
  rw [Prog.wp_bind]
  refine perform_wp hw rfl trivial fun u a v hu step => ?_
  obtain rfl : v = u := step.1
  rw [onResult_ok, Prog.wp_bind, Prog.wp_ofExcept]
  cases a with
  | error e => exact error e v hu
  | ok seen =>
    rw [onResult_ok]
    cases seen with
    | none => exact error _ v hu
    | some seen =>
      dsimp only
      split
      · exact error _ v hu
      · exact ok v hu

theorem listWorkspaceCommands_wp {Q : Except CommandError (List String) → CommandWorld → Prop}
    (hw : w.own t = .blank)
    (ok : ∀ commands (v : CommandWorld), Normal commands → v.own t = .blank → Q (.ok commands) v)
    (error : ∀ e (v : CommandWorld), v.own t = .blank → Q (.error e) v) :
    listWorkspaceCommands.wp (commandContract sha256 t l) Q w := by
  unfold listWorkspaceCommands
  rw [Prog.wp_bind]
  refine perform_wp hw rfl trivial fun u a v hu step => ?_
  obtain rfl : v = u := step.1
  rw [onResult_ok, Prog.wp_bind, Prog.wp_ofExcept]
  cases a with
  | error e => exact error e v hu
  | ok raw =>
    rw [onResult_ok]
    cases raw with
    | none => exact error _ v hu
    | some raw =>
      dsimp only
      rw [Prog.wp_ofExcept]
      cases hread : workspaceCommandsFrom raw with
      | error e => exact error e v hu
      | ok commands => exact ok commands v (normal_of_read hread) hu

/-- **The list is replaced**, or is another by now, or nothing is. -/
theorem replace_wp (hw : w.own t = .blank) (hread : Normal read)
    (hcommands : ∀ command ∈ commands, IsCommand command)
    (happly : l.apply sha256 read = some commands) :
    (replace read commands).wp (commandContract sha256 t l) (Outcome t l) w := by
  unfold replace
  rw [Prog.wp_bind]
  unfold replaceWorkspaceCommandsIfCurrent
  rw [Prog.wp_bind, Prog.wp_ofExcept, normalize_normal hread, onResult_ok, Prog.wp_bind,
    Prog.wp_ofExcept]
  unfold normalizeWorkspaceCommands
  rw [normalizeValues_commands hcommands, ok_bind]
  split
  · exact outcome_blank hw (by simp)
  rw [onResult_ok, Prog.wp_bind]
  refine perform_wp hw rfl trivial fun u a v hu step => ?_
  obtain rfl : v = u := step.1
  rw [onResult_ok, Prog.wp_bind, Prog.wp_ofExcept]
  cases a with
  | error e => exact outcome_blank hu (by simp)
  | ok kind =>
    rw [onResult_ok]
    cases kind with
    | none => exact outcome_blank hu (by simp)
    | some kind =>
      dsimp only
      split
      · exact outcome_blank hu (by simp)
      rw [Prog.wp_bind]
      have safe : Safe sha256 t l .blank (.update (encode read) (encode commands)) :=
        ⟨read, commands, rfl, rfl, happly⟩
      refine perform_wp hu rfl safe fun u a v hu step => ?_
      rw [onResult_ok, Prog.wp_bind, Prog.wp_ofExcept]
      rcases step with ⟨rfl, rfl⟩ | ⟨rfl, -, rfl⟩ | ⟨rfl, -, rfl⟩
      · exact outcome_blank hu (by simp)
      · refine .inl ⟨rfl, ?_⟩
        show (u.writes ++ [(t, l)]).filter (fun entry => entry.1 = t) = _
        have none : u.writes.filter (fun entry => entry.1 = t) = [] := congrArg Own.writes hu
        rw [List.filter_append, none]
        simp
      · exact outcome_blank hu (by simp)

theorem Outcome.write {r : Except CommandError CommandReply} (h : Outcome t l r w)
    (hr : r ≠ .ok .saved) : (w.own t).writes = [] := by
  rcases h with ⟨rfl, -⟩ | ⟨-, h⟩
  · exact absurd rfl hr
  · exact h

theorem orInvalid_wp {p : CommandProg CommandReply}
    (h : p.wp (commandContract sha256 t l) (Outcome t l) w) :
    (orInvalid p).wp (commandContract sha256 t l) (Outcome t l) w := by
  unfold orInvalid
  rw [Prog.wp_bind, Prog.wp_attempt]
  refine Prog.wp_mono (fun r v hv => ?_) h
  rw [onResult_ok]
  cases r with
  | ok reply => exact hv
  | error e =>
    have none := hv.write (by simp)
    cases e <;> exact failed none (by simp)

theorem addWorkspaceRunCommand_wp {command : Option String} (hw : w.own t = .blank)
    (hl : l = .add command) :
    (addWorkspaceRunCommand command).wp (commandContract sha256 t l) (Outcome t l) w := by
  unfold addWorkspaceRunCommand
  rw [Prog.wp_bind]
  refine requireCommands_wp hw (fun v hv => ?_) fun e v hv => outcome_blank hv (by simp)
  rw [onResult_ok, Prog.wp_bind]
  refine listWorkspaceCommands_wp hv (fun commands v normal hv => ?_)
    fun e v hv => outcome_blank hv (by simp)
  rw [onResult_ok]
  apply orInvalid_wp
  split
  · exact outcome_blank hv (by simp)
  rename_i hfew
  rw [Prog.wp_bind, Prog.wp_ofExcept]
  cases hcommand : normalizeWorkspaceCommand command with
  | error e => exact outcome_blank hv (by simp)
  | ok normalized =>
    rw [onResult_ok]
    refine replace_wp hv normal (fun c hc => ?_) ?_
    · rcases List.mem_append.mp hc with hc | hc
      · exact normal.each c hc
      · rw [List.mem_singleton.mp hc]
        exact isCommand_of_normalized hcommand
    · rw [hl]
      exact apply_add (not_le.mp hfew) hcommand

/-- What a request for a slot has read: the command is at the slot and has the digest. -/
theorem readSlot_wp {Q : Except CommandError (List String × Option String) → CommandWorld → Prop}
    (hw : w.own t = .blank)
    (found : ∀ commands command (v : CommandWorld), Normal commands → IsCommand command →
      Submitted sha256 commands slot digest → digest = sha256 (utf8 command.toList) →
      v.own t = .blank → Q (.ok (commands, some command)) v)
    (other : ∀ commands (v : CommandWorld), v.own t = .blank → Q (.ok (commands, none)) v)
    (error : ∀ e (v : CommandWorld), v.own t = .blank → Q (.error e) v) :
    (readSlot sha256 slot digest).wp (commandContract sha256 t l) Q w := by
  unfold readSlot
  rw [Prog.wp_bind]
  refine requireCommands_wp hw (fun v hv => ?_) error
  rw [onResult_ok, Prog.wp_bind]
  refine listWorkspaceCommands_wp hv (fun commands v normal hv => ?_) error
  rw [onResult_ok, Prog.wp_bind, Prog.wp_ofExcept]
  cases hat : commandAt commands slot with
  | error e => exact error e v hv
  | ok command =>
    obtain ⟨hslot, hcommand⟩ := commandAt_ok hat
    have isCommand := normal.each command (List.mem_of_getElem? hcommand)
    rw [onResult_ok, Prog.wp_bind, Prog.wp_ofExcept, digest_command isCommand, onResult_ok]
    split
    · rename_i hdigest
      have same : digest = sha256 (utf8 command.toList) := by
        unfold secureCompare at hdigest
        simp only [Bool.and_eq_true, decide_eq_true_eq] at hdigest
        exact hdigest.2
      refine found commands command v normal isCommand ⟨hslot, ?_⟩ same hv
      rw [hcommand, same]
      rfl
    · exact other commands v hv

theorem saveWorkspaceRunCommand_wp {command : Option String} (hw : w.own t = .blank)
    (hl : l = .save slot digest command) :
    (saveWorkspaceRunCommand sha256 slot digest command).wp (commandContract sha256 t l)
      (Outcome t l) w := by
  unfold saveWorkspaceRunCommand
  rw [Prog.wp_bind]
  refine readSlot_wp hw (fun commands current v normal _ submitted _ hv => ?_)
    (fun commands v hv => outcome_blank hv (by simp)) fun e v hv => outcome_blank hv (by simp)
  rw [onResult_ok]
  unfold saveSlot
  apply orInvalid_wp
  rw [Prog.wp_bind, Prog.wp_ofExcept]
  cases hcommand : normalizeWorkspaceCommand command with
  | error e => exact outcome_blank hv (by simp)
  | ok normalized =>
    rw [onResult_ok]
    refine replace_wp hv normal (fun c hc => ?_) ?_
    · rcases List.mem_append.mp hc with hc | hc
      · rcases List.mem_append.mp hc with hc | hc
        · exact normal.each c (List.mem_of_mem_take hc)
        · rw [List.mem_singleton.mp hc]
          exact isCommand_of_normalized hcommand
      · exact normal.each c (List.mem_of_mem_drop hc)
    · rw [hl]
      exact apply_save submitted hcommand

theorem deleteWorkspaceCommand_wp (hw : w.own t = .blank) (hl : l = .delete slot digest) :
    (deleteWorkspaceCommand sha256 slot digest).wp (commandContract sha256 t l)
      (Outcome t l) w := by
  unfold deleteWorkspaceCommand
  rw [Prog.wp_bind]
  refine readSlot_wp hw (fun commands current v normal _ submitted _ hv => ?_)
    (fun commands v hv => outcome_blank hv (by simp)) fun e v hv => outcome_blank hv (by simp)
  rw [onResult_ok]
  unfold deleteSlot
  refine replace_wp hv normal (fun c hc => ?_) ?_
  · rcases List.mem_append.mp hc with hc | hc
    · exact normal.each c (List.mem_of_mem_take hc)
    · exact normal.each c (List.mem_of_mem_drop hc)
  · rw [hl]
    exact apply_delete submitted

/-- From the admission on: the launch id is consumed before the dispatch. -/
theorem launch_wp {launchId command : String} {admission : Except CommandError Admission}
    (hw : (w.own t).writes = [])
    (created : admission = .ok .created → w.own t = ⟨[], [(t, launchId)], []⟩)
    (hl : l = .run slot (sha256 (utf8 command.toList)) launchId) :
    (launch launchId slot command admission).wp (commandContract sha256 t l) (Outcome t l) w := by
  cases admission with
  | error e => cases e <;> exact failed hw (by simp)
  | ok admission =>
    cases admission with
    | replayed => exact failed hw (by simp)
    | created =>
      unfold launch
      rw [Prog.wp_bind]
      have safe : Safe sha256 t l ⟨[], [(t, launchId)], []⟩ (.dispatch slot command launchId) :=
        ⟨List.mem_singleton_self _, rfl, hl⟩
      refine perform_wp (created rfl) rfl safe fun u a v hu step => ?_
      obtain rfl : v = u.dispatch ⟨t, l, slot, command, launchId⟩ := step
      have none : ((u.dispatch ⟨t, l, slot, command, launchId⟩).own t).writes = [] :=
        congrArg Own.writes hu
      rw [onResult_ok]
      split <;> exact failed none (by simp)

theorem runWorkspaceCommand_wp {launchId : String} (hw : w.own t = .blank)
    (hl : l = .run slot digest launchId) :
    (runWorkspaceCommand sha256 slot digest launchId).wp (commandContract sha256 t l)
      (Outcome t l) w := by
  unfold runWorkspaceCommand
  rw [Prog.wp_bind]
  refine readSlot_wp hw (fun commands command v _ isCommand _ same hv => ?_)
    (fun commands v hv => outcome_blank hv (by simp)) fun e v hv => outcome_blank hv (by simp)
  rw [onResult_ok]
  unfold runSlot
  rw [Prog.wp_bind, Prog.wp_ofExcept, digest_command isCommand, onResult_ok, Prog.wp_bind,
    Prog.wp_attempt]
  rw [same] at hl
  unfold claimWorkspaceCommand
  split
  · exact launch_wp (congrArg Own.writes hv) (by simp) hl
  rw [Prog.wp_bind]
  refine perform_wp hv rfl trivial fun u a v hu step => ?_
  rw [onResult_ok, Prog.wp_ofExcept, onResult_ok]
  have writes : (u.own t).writes = [] := congrArg Own.writes hu
  rcases step with ⟨rfl, rfl⟩ | step
  · exact launch_wp writes (by simp) hl
  split at step
  · obtain ⟨rfl, ha⟩ := step
    refine launch_wp writes (fun hcreated => ?_) hl
    split at ha <;> rw [ha] at hcreated <;> cases hcreated
  · obtain ⟨-, rfl, rfl⟩ := step
    refine launch_wp writes (fun _ => ?_) hl
    have consumed : u.consumed.filter (fun entry => entry.1 = t) = [] := congrArg Own.consumed hu
    have dispatched : u.dispatched.filter (fun d => d.thread = t) = [] :=
      congrArg Own.dispatched hu
    have hwrites : u.writes.filter (fun entry => entry.1 = t) = [] := writes
    unfold CommandWorld.own CommandWorld.consume
    dsimp only
    rw [List.filter_append, consumed, dispatched, hwrites]
    simp

end programs

/-! ## 7. Every run -/

/-- Request `t`, which is `l`, has reported that the list is saved. -/
def ReportsSaved {sha256 : List UInt8 → String} (p : Pool (commandSystem sha256)) (t : Nat)
    (l : CommandRequest) : Prop :=
  ∃ prog, p.threads[t]? = some ⟨l, prog⟩ ∧
    @Thread.ended _ _ (commandSystem sha256) ⟨l, prog⟩ (.ok CommandReply.saved)

section runs

variable {sha256 : List UInt8 → String} {kind : WorkspaceKind}

theorem commands_proved : (commandOutline sha256).Proved (.init kind) := by
  intro t l u v _ rely started
  obtain rfl : v = u := started
  have own : v.own t = .blank := rely
  cases l with
  | add command => exact addWorkspaceRunCommand_wp own rfl
  | save slot digest command => exact saveWorkspaceRunCommand_wp own rfl
  | delete slot digest => exact deleteWorkspaceCommand_wp own rfl
  | run slot digest launchId => exact runWorkspaceCommand_wp own rfl

/-- Each operation can fail in the database, and a dispatch can be answered. -/
theorem live (t : Nat) (l : CommandRequest) (u : CommandWorld) (o : CommandOp) :
    ∃ a v, o.step t l a u v := by
  cases o with
  | require => exact ⟨_, u, rfl, .inl rfl⟩
  | get => exact ⟨_, u, rfl, .inl rfl⟩
  | kind => exact ⟨_, u, rfl, .inl rfl⟩
  | update expected encoded => exact ⟨_, u, .inl ⟨rfl, rfl⟩⟩
  | claim launchId slot digest => exact ⟨_, u, .inl ⟨rfl, rfl⟩⟩
  | dispatch slot command launchId => exact ⟨.ok "", _, rfl⟩

variable {es : List (Conc.Event (commandSystem sha256))} {p : Pool (commandSystem sha256)}

/-- **A request wrote the list where it reported success, and only there.** -/
theorem wrote_iff (run : (commandSystem sha256).Runs (.init kind) es p) {t : Nat}
    {l : CommandRequest} :
    (t, l) ∈ p.world.writes ↔ ReportsSaved p t l := by
  constructor
  · intro hmem
    have mine : (t, l) ∈ (p.world.own t).writes := List.mem_filter.mpr ⟨hmem, by simp⟩
    have wrote : (p.world.own t).writes ≠ [] := List.ne_nil_of_mem mine
    have born : t < p.threads.length := by
      by_contra hge
      have unborn : p.world.own t = .blank :=
        (Outline.holds_of_run commands_proved CommandInv.init run).unborn t l (not_lt.mp hge)
      exact wrote (congrArg Own.writes unborn)
    obtain ⟨⟨l', prog⟩, there⟩ : ∃ th, p.threads[t]? = some th :=
      ⟨p.threads[t], List.getElem?_eq_getElem born⟩
    -- a request that has written has no operation left
    obtain ⟨r, ended⟩ := Outline.ended_of_blocked commands_proved CommandInv.init run there
      (live t l' p.world) fun o a v none => wrote none
    obtain ⟨w, hrely, hpost⟩ :=
      Outline.ended_of_run commands_proved CommandInv.init run there ended
    have same : p.world.own t = w.own t := hrely
    rw [same] at mine wrote
    rcases hpost with ⟨rfl, hwrites⟩ | ⟨-, hwrites⟩
    · rw [hwrites, List.mem_singleton] at mine
      cases mine
      exact ⟨prog, there, ended⟩
    · exact absurd hwrites wrote
  · rintro ⟨prog, there, ended⟩
    obtain ⟨w, hrely, hpost⟩ :=
      Outline.ended_of_run commands_proved CommandInv.init run there ended
    have same : p.world.own t = w.own t := hrely
    rcases hpost with ⟨-, hwrites⟩ | ⟨hr, -⟩
    · have mine : (t, l) ∈ (p.world.own t).writes := by
        rw [same, hwrites]
        exact List.mem_singleton_self _
      exact List.mem_of_mem_filter mine
    · exact absurd rfl hr

/-- Two dispatches with one launch id are one: they are of the request that consumed it. -/
theorem CommandInv.launches {w : CommandWorld} (h : CommandInv sha256 w) :
    (w.dispatched.map Dispatched.launchId).Nodup := by
  refine List.Nodup.map_on ?_ h.single.of_map
  intro d hd d' hd' same
  have entries : (d.thread, d.launchId) = (d'.thread, d'.launchId) :=
    List.inj_on_of_nodup_map h.once (h.covered d hd) (h.covered d' hd') same
  exact List.inj_on_of_nodup_map h.single hd hd' (congrArg Prod.fst entries)

end runs

/-- **Workspace commands lose no update**, however the requests of any clients interleave: the
    stored list is what the requests that reported success make of the empty list, each once and
    in the order of their writes; and what is dispatched has the submitted digest and a launch id
    that its request consumed, and none is dispatched twice. -/
theorem commands_lose_no_update (sha256 : List UInt8 → String) (kind : WorkspaceKind) :
    (∀ es p, (commandSystem sha256).Runs (.init kind) es p →
      ∃ commands, replay sha256 (p.world.writes.map Prod.snd) = some commands ∧
        ∀ row, p.world.row = some row → row.commandsJson = encode commands) ∧
    (∀ es p, (commandSystem sha256).Runs (.init kind) es p →
      (p.world.writes.map Prod.fst).Nodup ∧
        ∀ t l, (t, l) ∈ p.world.writes ↔ ReportsSaved p t l) ∧
    (∀ es p, (commandSystem sha256).Runs (.init kind) es p → ∀ d ∈ p.world.dispatched,
      d.Proper sha256 ∧ (d.thread, d.launchId) ∈ p.world.consumed ∧
        (p.world.row ≠ none → ∃ claim ∈ p.world.claims, claim.launchId = d.launchId)) ∧
    ∀ es p, (commandSystem sha256).Runs (.init kind) es p →
      (p.world.dispatched.map Dispatched.launchId).Nodup := by
  have inv : ∀ {es p}, (commandSystem sha256).Runs (.init kind) es p →
      CommandInv sha256 p.world := Outline.inv_of_run commands_proved CommandInv.init
  refine ⟨?_, ?_, ?_, ?_⟩
  · intro es p run
    exact (inv run).stored
  · intro es p run
    exact ⟨(inv run).lone, fun t l => wrote_iff run⟩
  · intro es p run d hd
    have covered := (inv run).covered d hd
    exact ⟨(inv run).proper d hd, covered, fun there => (inv run).held there _ covered⟩
  · intro es p run
    exact (inv run).launches

end Termroom.Store.Commands
