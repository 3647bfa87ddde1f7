import Mathlib
import Termroom.Conc.Pool
import Termroom.Terminal.CommandRecords

/-!
# Workspace commands in windows of a remote tmux

A launch lists the windows of the Workspace, detaches, kills or takes over the one that carries
its slot, and starts a wrapper in a window. The wrapper itself puts the options on its window, the
slot last, and then runs the command. Who has a slot is known from these options only.

One launch at a time holds the lock of the Workspace. But the Core may be cut off from the remote
part of a launch, which goes on by itself, and it gives up on a wrapper that is slow: **the next
launch then lists the windows before the slot is on one**, and two windows end up with one slot, or
a command that runs is killed (`two_windows`). `launches_safe` is what holds where no launch lists
the windows in such a moment (`Calm`).
-/

set_option autoImplicit false

namespace Termroom.Ssh.CommandWindows

open Conc Terminal
open Store.Commands (CommandError normalizeWorkspaceCommand)

/-! ## 1. The windows -/

/-- What a wrapper is started with. -/
structure Launch where
  slot : Fin 3
  launchId : LaunchId
  digest : Digest
  deriving DecidableEq

/-- Where a wrapper is; history that no step depends on. -/
inductive Phase where
  /-- Its options are not all on the window. -/
  | publishing
  | starting
  /-- Its command runs. -/
  | running
  | ended
  deriving DecidableEq, Repr

/-- A wrapper in a window. -/
structure Process where
  launch : Launch
  /-- The thread that it runs as. -/
  thread : Option Nat
  phase : Phase
  deriving DecidableEq

/-- A window with one pane. -/
structure Window where
  shown : Shown
  /-- `none` for a window that no command was launched in. -/
  process : Option Process
  deriving DecidableEq

namespace Window

def phase (w : Window) : Phase := (w.process.map Process.phase).getD .ended

/-- The slot that its wrapper was launched for. -/
def home (w : Window) : Option (Fin 3) := w.process.map fun p => p.launch.slot

def holder (w : Window) : Option Nat := w.process.bind Process.thread

end Window

structure TmuxWorld where
  windows : Nat → Option Window
  /-- Ids are not used again. -/
  next : Nat
  /-- `_workspace_command_lock`. -/
  lock : Option Nat
  /-- The launches that the Core was cut off from. -/
  cut : List Nat
  /-- The launches that have listed the windows for a slot and have started no wrapper yet; history,
      too. -/
  listed : List (Nat × Fin 3)

def TmuxWorld.init : TmuxWorld := ⟨fun _ => none, 0, none, [], []⟩

/-- The windows as `list-windows` shows them. -/
def TmuxWorld.shown (w : TmuxWorld) : List (Nat × Shown) :=
  (List.range w.next).filterMap fun id => (w.windows id).map fun window => (id, window.shown)

/-! ## 2. The programs -/

/-- An option of a window, with the value it gets. -/
inductive Setting where
  | slot (value : Fin 3)
  | launch (value : LaunchId)
  | digest (value : Digest)
  | state (value : CommandState)
  deriving DecidableEq

/-- `TMUX_WORKSPACE_COMMAND_OPTIONS`. -/
inductive CommandOption where
  | slot | launch | digest | state
  deriving DecidableEq, Repr

inductive TmuxOp where
  | lock
  /-- `ensure_workspace`: the windows that are Terminals of the Workspace. -/
  | ensureWorkspace
  /-- `list-windows`; `slot` is for the history. -/
  | list (slot : Fin 3)
  | kill (window : Nat)
  | unset (window : Nat) (option : CommandOption)
  | rename (window : Nat)
  | respawn (window : Nat) (launch : Launch)
  | newWindow (launch : Launch)
  /-- `display-message`. -/
  | poll (window : Nat)
  /-- The `kill-window` of a launch whose wrapper does not get ready. -/
  | giveUp (window : Nat)
  /-- The Core receives what the remote part printed. -/
  | receive
  /-- The remote part is over, and the lock is released. -/
  | leave
  /-- `set-window-option`, by a wrapper. -/
  | set (window : Nat) (setting : Setting)
  /-- The command of a wrapper begins. -/
  | begin (window : Nat)
  /-- It ends. -/
  | finish (window : Nat)
  /-- `show-window-option`, by the shell of a wrapper. -/
  | showOption (window : Nat)
  /-- The Core is cut off from a launch. -/
  | cut (thread : Nat)
  /-- A window closes. -/
  | close (window : Nat)
  /-- The program in a window ends, and the window remains. -/
  | die (window : Nat)
  /-- A window of another kind opens. -/
  | open_
  deriving DecidableEq

abbrev TmuxOp.Ans : TmuxOp → Type
  | .ensureWorkspace => Except CommandError (List Nat)
  | .list _ => Except CommandError (List Char)
  | .kill _ | .rename _ | .respawn _ _ => Bool
  | .newWindow _ => Option Nat
  | .poll _ => Option Shown
  | .receive => Except CommandError Unit
  | .showOption _ => Option LaunchId
  | _ => Unit

abbrev TmuxSig : Sig := ⟨TmuxOp, TmuxOp.Ans⟩

abbrev TmuxProg := Prog TmuxSig CommandError

def perform (o : TmuxOp) : TmuxProg o.Ans := @Prog.perform TmuxSig CommandError o

/-- An exit status that `_exec` checks. -/
def check (status : Bool) : TmuxProg Unit :=
  if status then pure () else .raise (.terminal "Remote command failed")

def receive : TmuxProg Unit := do
  let r ← perform .receive
  Prog.ofExcept r

def ensureWorkspace : TmuxProg (List Nat) := do
  let r ← perform .ensureWorkspace
  Prog.ofExcept r

/-- The listing, as records. -/
def listRecords (slot : Fin 3) : TmuxProg (List CommandRecord) := do
  let r ← perform (.list slot)
  let listed ← Prog.ofExcept r
  receive
  match parseRecords listed with
  | .ok records => pure records
  | .error (.value message) => .raise (.terminal message)
  | .error e => .raise e

def killWindow (window : Nat) : TmuxProg Unit := do
  let status ← perform (.kill window)
  check status
  receive

/-- The identity of the window is taken off, one option after the other, and it is renamed. -/
def detach (window : Nat) : TmuxProg Unit := do
  perform (.unset window .slot)
  perform (.unset window .launch)
  perform (.unset window .digest)
  perform (.unset window .state)
  let status ← perform (.rename window)
  check status
  receive

def readinessAttempts : Nat := 200

/-- The window shows `slot|launch|digest|state`, in one of the three states. -/
def isReady (l : Launch) : Option Shown → Bool
  | some shown => shown.slot = some l.slot && shown.launch = some l.launchId &&
      shown.digest = some l.digest && shown.state.isSome
  | none => false

/-- The loop of the remote script; a window that was made for the launch is killed in the end. -/
def awaitReady (l : Launch) (window : Nat) (created : Bool) : Nat → TmuxProg Unit
  | 0 =>
    if created then do
      perform (.giveUp window)
      .raise (.terminal "Remote command failed")
    else .raise (.terminal "Remote command failed")
  | attempts + 1 => do
    let shown ← perform (.poll window)
    if isReady l shown then pure () else awaitReady l window created attempts

/-- The wrapper is started, in a new window or in the one that is given. -/
def startWrapper (l : Launch) : Option Nat → TmuxProg Nat
  | some window => do
    let status ← perform (.respawn window l)
    check status
    awaitReady l window false readinessAttempts
    pure window
  | none => do
    let created ← perform (.newWindow l)
    match created with
    | none => .raise (.terminal "Remote command failed")
    | some window => do
      awaitReady l window true readinessAttempts
      pure window

/-- The window that the remote part printed is looked for. -/
def started (window : Nat) : TmuxProg Nat := do
  receive
  let terminals ← ensureWorkspace
  if window ∈ terminals then pure window
  else .raise (.terminal "Workspace command Terminal disappeared while starting")

/-- From `start` on. -/
def start (l : Launch) (window : Option Nat) : TmuxProg Nat := do
  let window ← startWrapper l window
  started window

/-- What becomes of the window that carries the slot. -/
def place (l : Launch) (terminals : List Nat) : Option CommandRecord → TmuxProg Nat
  | none => start l none
  | some existing =>
    if existing.window ∉ terminals then
      .raise (.terminal "Workspace command Terminal is missing")
    else if existing.launch = l.launchId then
      if existing.digest ≠ l.digest then
        .raise (.terminal "Workspace command launch identity was reused for another command")
      else pure existing.window
    else if existing.digest ≠ l.digest then
      if existing.dead then do
        killWindow existing.window
        start l none
      else do
        detach existing.window
        start l none
    else if ¬ existing.dead ∧ (existing.state = .running ∨ existing.state = .settling) then
      pure existing.window
    else if existing.dead then do
      killWindow existing.window
      start l none
    else start l (some existing.window)

/-- What is checked of a request, before anything is done. -/
def validate (sha256 : List UInt8 → Digest) (slot : Int) (command : String)
    (launchId : List Char) : Except CommandError Launch := do
  let slot ← validateSlot slot
  let command ← normalizeWorkspaceCommand (some command)
  let launchId ← validateLaunch launchId
  return ⟨slot, launchId, sha256 (Data.utf8 command.toList)⟩

/-- `_run_workspace_command_locked`. -/
def runWorkspaceCommandLocked (sha256 : List UInt8 → Digest) (slot : Int) (command : String)
    (launchId : List Char) : TmuxProg Nat := do
  let l ← Prog.ofExcept (validate sha256 slot command launchId)
  let terminals ← ensureWorkspace
  let records ← listRecords l.slot
  place l terminals (records.find? fun record => record.slot = l.slot)

/-- `run_workspace_command`. -/
def runWorkspaceCommand (sha256 : List UInt8 → Digest) (slot : Int) (command : String)
    (launchId : List Char) : TmuxProg Nat := do
  perform .lock
  (runWorkspaceCommandLocked sha256 slot command launchId).finally_ (perform .leave)

/-- `WORKSPACE_COMMAND_WRAPPER`, with the function that its shell runs at its first prompt. -/
def wrapper (window : Nat) (l : Launch) : TmuxProg Unit := do
  perform (.set window (.state .running))
  perform (.set window (.digest l.digest))
  perform (.set window (.launch l.launchId))
  perform (.set window (.slot l.slot))
  perform (.begin window)
  perform (.finish window)
  perform (.set window (.state .settling))
  let launch ← perform (.showOption window)
  if launch = some l.launchId then perform (.set window (.state .shell)) else pure ()

/-- What happens by itself. -/
inductive TmuxEvent where
  | cut (thread : Nat)
  | close (window : Nat)
  | die (window : Nat)
  | open_
  deriving DecidableEq, Repr

inductive TmuxLabel where
  | call (slot : Int) (command : String) (launchId : List Char)
  | wrapper (window : Nat) (launch : Launch)
  | event (e : TmuxEvent)
  deriving DecidableEq

abbrev TmuxLabel.Ret : TmuxLabel → Type
  | .call _ _ _ => Nat
  | _ => Unit

def TmuxLabel.body (sha256 : List UInt8 → Digest) :
    (l : TmuxLabel) → TmuxProg l.Ret
  | .call slot command launchId => runWorkspaceCommand sha256 slot command launchId
  | .wrapper window launch => CommandWindows.wrapper window launch
  | .event (.cut thread) => perform (.cut thread)
  | .event (.close window) => perform (.close window)
  | .event (.die window) => perform (.die window)
  | .event .open_ => perform .open_

/-! ## 3. The steps -/

/-- The option is set. -/
def Setting.apply (w : Shown) : Setting → Shown
  | .slot value => { w with slot := some value }
  | .launch value => { w with launch := some value }
  | .digest value => { w with digest := some value }
  | .state value => { w with state := some value }

/-- The option is taken off. -/
def CommandOption.clear (w : Shown) : CommandOption → Shown
  | .slot => { w with slot := none }
  | .launch => { w with launch := none }
  | .digest => { w with digest := none }
  | .state => { w with state := none }

def bare : Shown := ⟨false, none, none, none, none⟩

namespace Window

/-- Once the slot is on the window, all options are. -/
def set (w : Window) (setting : Setting) : Window where
  shown := setting.apply w.shown
  process := match setting with
    | .slot _ => w.process.map fun p => { p with phase := .starting }
    | _ => w.process

def clear (w : Window) (option : CommandOption) : Window :=
  { w with shown := option.clear w.shown }

def setPhase (w : Window) (phase : Phase) : Window :=
  { w with process := w.process.map fun p => { p with phase := phase } }

/-- The program in the window ends. -/
def die (w : Window) : Window where
  shown := { w.shown with dead := true }
  process := w.process.map fun p => { p with phase := .ended }

/-- A wrapper is started; the options are those that the window had. -/
def launch (w : Shown) (l : Launch) : Window :=
  ⟨{ w with dead := false }, some ⟨l, none, .publishing⟩⟩

def hold (w : Window) (t : Nat) : Window :=
  { w with process := w.process.map fun p => { p with thread := some t } }

end Window

namespace TmuxWorld

def put (u : TmuxWorld) (id : Nat) (window : Option Window) : TmuxWorld :=
  { u with windows := Function.update u.windows id window }

def modify (u : TmuxWorld) (id : Nat) (f : Window → Window) : TmuxWorld :=
  u.put id ((u.windows id).map f)

def create (u : TmuxWorld) (window : Window) : TmuxWorld :=
  { u.put u.next (some window) with next := u.next + 1 }

/-- The launch has listed the windows for a slot. -/
def list (u : TmuxWorld) (t : Nat) (slot : Fin 3) : TmuxWorld :=
  { u with listed := (t, slot) :: u.listed }

/-- It has started a wrapper, or does not. -/
def settle (u : TmuxWorld) (t : Nat) : TmuxWorld :=
  { u with listed := u.listed.filter fun e => e.1 ≠ t }

end TmuxWorld

/-- The thread is the program in the window. -/
def Holds (u : TmuxWorld) (id t : Nat) : Prop :=
  ∃ w, u.windows id = some w ∧ w.holder = some t ∧ w.shown.dead = false

/-- What the operations do. A command of tmux can fail; a wrapper acts only while it is in its
    window. -/
def TmuxOp.step (t : Nat) : (o : TmuxOp) → o.Ans → TmuxWorld → TmuxWorld → Prop
  | .lock, _, u, v => u.lock = none ∧ v = { u with lock := some t }
  | .ensureWorkspace, _, u, v => v = u
  | .list slot, a, u, v => (a = .ok (listing u.shown) ∧ v = u.list t slot) ∨
    ∃ e, a = .error e ∧ v = u
  | .kill id, a, u, v => (a = true ∧ u.windows id ≠ none ∧ v = u.put id none) ∨
    (a = false ∧ v = u)
  | .unset id option, _, u, v => v = u.modify id fun w => w.clear option
  | .rename id, a, u, v => v = u ∧ (a = true → u.windows id ≠ none)
  | .respawn id l, a, u, v =>
    (a = true ∧ ∃ w, u.windows id = some w ∧
      v = (u.put id (some (Window.launch w.shown l))).settle t) ∨
    (a = false ∧ v = u)
  | .newWindow l, a, u, v =>
    (a = some u.next ∧ v = (u.create (Window.launch bare l)).settle t) ∨
    (a = none ∧ v = u)
  | .poll id, a, u, v => v = u ∧ (a = (u.windows id).map Window.shown ∨ a = none)
  | .giveUp id, _, u, v => v = u.put id none
  | .receive, a, u, v => v = u ∧ if t ∈ u.cut then ∃ e, a = .error e else a = .ok ()
  | .leave, _, u, v => v = { u.settle t with lock := if u.lock = some t then none else u.lock }
  | .set id setting, _, u, v => Holds u id t ∧ v = u.modify id fun w => w.set setting
  | .begin id, _, u, v => Holds u id t ∧ v = u.modify id fun w => w.setPhase .running
  | .finish id, _, u, v => Holds u id t ∧ v = u.modify id fun w => w.setPhase .ended
  | .showOption id, a, u, v => Holds u id t ∧ v = u ∧
    a = (u.windows id).bind fun w => w.shown.launch
  | .cut thread, _, u, v => u.lock = some thread ∧
    v = { u with lock := none, cut := thread :: u.cut }
  | .close id, _, u, v => v = u.put id none
  | .die id, _, u, v => v = u.modify id Window.die
  | .open_, _, u, v => v = u.create ⟨bare, none⟩

/-- A wrapper starts in the window that it was launched in. -/
def TmuxLabel.started (t : Nat) (l : TmuxLabel) (u v : TmuxWorld) : Prop :=
  match l with
  | .wrapper id launch =>
    (∃ w, u.windows id = some w ∧ w.shown.dead = false ∧
      w.process = some ⟨launch, none, .publishing⟩) ∧ v = u.modify id fun w => w.hold t
  | _ => v = u

def tmuxSystem (sha256 : List UInt8 → Digest) : System TmuxSig CommandError where
  World := TmuxWorld
  Label := TmuxLabel
  Ret := TmuxLabel.Ret
  body := TmuxLabel.body sha256
  step := fun t _ => TmuxOp.step t
  start := TmuxLabel.started
  env := fun _ _ => False

/-- **No launch lists the windows for a slot while an earlier one that has listed them for it may
    still start its wrapper, or while a wrapper for the slot is putting its options on a window**,
    and none gives up on a window whose command runs. -/
def Calm (_ : Nat) (_ : TmuxLabel) (o : TmuxOp) (_ : o.Ans) (u _ : TmuxWorld) : Prop :=
  match o with
  | .list slot => (∀ e ∈ u.listed, e.2 ≠ slot) ∧
    ∀ id w, u.windows id = some w → w.home = some slot → w.phase ≠ .publishing
  | .giveUp id => ∀ w, u.windows id = some w → w.phase ≠ .running
  | _ => True

/-! ## 4. The invariant -/

/-- What happens to a window while the launch that has listed it waits: its wrapper goes on and its
    program may end, and it gets no slot but from a wrapper that was starting. -/
structure Drifts (w w' : Window) : Prop where
  home : w'.home = w.home
  settled : w.phase ≠ .publishing → w'.phase ≠ .publishing
  ended : w.phase = .ended → w'.phase = .ended
  dead : w.shown.dead = true → w'.shown.dead = true
  slot : w.phase ≠ .publishing → ∀ s, w'.shown.slot = some s → w.shown.slot = some s

/-- What a wrapper relies on: nobody else moves it on, or sets an option before it has set them. -/
structure Mine (w w' : Window) : Prop where
  launch : w'.process.map Process.launch = w.process.map Process.launch
  phase : w'.phase = w.phase
  options : w.phase = .publishing → w'.shown = w.shown

/-- The windows that commands of the slot were launched in, between two moments. -/
structure Evolves (s : Fin 3) (u v : TmuxWorld) : Prop where
  next : u.next ≤ v.next
  homes : ∀ id w', id < u.next → v.windows id = some w' →
    ∃ w, u.windows id = some w ∧ w'.home = w.home
  drifts : ∀ id w', v.windows id = some w' → w'.home = some s →
    ∃ w, u.windows id = some w ∧ Drifts w w'

/-- The window that thread `t` is in, between two moments. -/
def Kept (t id : Nat) (u v : TmuxWorld) : Prop :=
  ∀ w', v.windows id = some w' → w'.holder = some t → w'.shown.dead = false →
    ∃ w, u.windows id = some w ∧ w.holder = some t ∧ w.shown.dead = false ∧ Mine w w'

/-- What a window always is by itself. -/
structure Sound (w : Window) : Prop where
  whole : w.shown.Whole
  home : ∀ s, w.shown.slot = some s → w.home = some s
  quiet : w.phase = .starting ∨ w.phase = .running → w.shown.slot ≠ none →
    w.shown.state = some .running
  dead : w.shown.dead = true → w.phase = .ended

structure TmuxInv (u : TmuxWorld) : Prop where
  fresh : ∀ id, u.next ≤ id → u.windows id = none
  sound : ∀ id w, u.windows id = some w → Sound w
  unique : ∀ id id' w w' s, u.windows id = some w → u.windows id' = some w' →
    w.shown.slot = some s → w'.shown.slot = some s → id = id'
  /-- A wrapper that has not set the slot yet is the only one, and no other window carries it. -/
  pending : ∀ id id' w w' s, u.windows id = some w → u.windows id' = some w' →
    w.home = some s → w.phase = .publishing →
    w'.shown.slot = some s ∨ (w'.home = some s ∧ w'.phase = .publishing) → id = id'
  lone : ∀ t t' s, (t, s) ∈ u.listed → (t', s) ∈ u.listed → t = t'
  /-- While a launch has listed the windows for a slot, no wrapper for the slot is starting. -/
  still : ∀ t s, (t, s) ∈ u.listed → ∀ id w, u.windows id = some w → w.home = some s →
    w.phase ≠ .publishing

/-- What a step of thread `t` leaves to the others. -/
structure Leaves (t : Nat) (u v : TmuxWorld) : Prop where
  listed : ∀ t' s, t' ≠ t → (t', s) ∈ u.listed → (t', s) ∈ v.listed ∧ Evolves s u v
  kept : ∀ t' id, t' ≠ t → Kept t' id u v

/-- The one is of a wrapper that is to set the slot, and so is the other, or it carries the slot. -/
def Rivals (s : Fin 3) (w w' : Window) : Prop :=
  w.home = some s ∧ w.phase = .publishing ∧
    (w'.shown.slot = some s ∨ (w'.home = some s ∧ w'.phase = .publishing))

section relations

variable {t t' id id' : Nat} {s : Fin 3} {u v x : TmuxWorld} {w w' w'' : Window}

theorem Drifts.refl : Drifts w w := ⟨rfl, fun h => h, fun h => h, fun h => h, fun _ _ h => h⟩

theorem Drifts.trans (h : Drifts w w') (h' : Drifts w' w'') : Drifts w w'' where
  home := h'.home.trans h.home
  settled := fun hw => h'.settled (h.settled hw)
  ended := fun hw => h'.ended (h.ended hw)
  dead := fun hw => h'.dead (h.dead hw)
  slot := fun hw s hs => h.slot hw s (h'.slot (h.settled hw) s hs)

theorem Mine.refl : Mine w w := ⟨rfl, rfl, fun _ => rfl⟩

theorem Mine.trans (h : Mine w w') (h' : Mine w' w'') : Mine w w'' where
  launch := h'.launch.trans h.launch
  phase := h'.phase.trans h.phase
  options := fun hw => (h'.options (h.phase.trans hw)).trans (h.options hw)

theorem Evolves.of_windows (hwindows : v.windows = u.windows) (hnext : v.next = u.next) :
    Evolves s u v := by
  refine ⟨hnext.ge, fun id w _ hw => ⟨w, hwindows ▸ hw, rfl⟩, fun id w hw _ => ?_⟩
  exact ⟨w, hwindows ▸ hw, .refl⟩

theorem Evolves.refl : Evolves s u u := .of_windows rfl rfl

theorem Evolves.trans (h : Evolves s u v) (h' : Evolves s v x) : Evolves s u x := by
  refine ⟨Nat.le_trans h.next h'.next, ?_, ?_⟩
  · intro id w'' hid hw''
    obtain ⟨w', hw', hhome'⟩ := h'.homes id w'' (Nat.lt_of_lt_of_le hid h.next) hw''
    obtain ⟨w, hw, hhome⟩ := h.homes id w' hid hw'
    exact ⟨w, hw, hhome'.trans hhome⟩
  · intro id w'' hw'' hhome
    obtain ⟨w', hw', drifts'⟩ := h'.drifts id w'' hw'' hhome
    obtain ⟨w, hw, drifts⟩ := h.drifts id w' hw' (drifts'.home ▸ hhome)
    exact ⟨w, hw, drifts.trans drifts'⟩

theorem Kept.refl : Kept t id u u := fun w hw hholder hdead => ⟨w, hw, hholder, hdead, .refl⟩

theorem Kept.trans (h : Kept t id u v) (h' : Kept t id v x) : Kept t id u x := by
  intro w'' hw'' hholder hdead
  obtain ⟨w', hw', hholder', hdead', mine'⟩ := h' w'' hw'' hholder hdead
  obtain ⟨w, hw, hholder'', hdead'', mine⟩ := h w' hw' hholder' hdead'
  exact ⟨w, hw, hholder'', hdead'', mine.trans mine'⟩

theorem Leaves.refl : Leaves t u u :=
  ⟨fun _ _ _ h => ⟨h, .refl⟩, fun _ _ _ => .refl⟩

/-- A step that changes no window, and takes no other launch for settled. -/
theorem Leaves.of_windows (hwindows : v.windows = u.windows) (hnext : v.next = u.next)
    (hlisted : ∀ e ∈ u.listed, e.1 ≠ t → e ∈ v.listed) : Leaves t u v := by
  refine ⟨fun t' s ht h => ⟨hlisted _ h ht, .of_windows hwindows hnext⟩, fun t' id ht => ?_⟩
  intro w hw hholder hdead
  exact ⟨w, hwindows ▸ hw, hholder, hdead, .refl⟩

/-- What the windows are after one of them has changed. -/
theorem windows_put {window : Option Window} {x : Window}
    (hwindows : v.windows = Function.update u.windows id window)
    (hx : v.windows id' = some x) :
    (id' = id ∧ window = some x) ∨ (id' ≠ id ∧ u.windows id' = some x) := by
  rw [hwindows] at hx
  by_cases hid : id' = id
  · rw [hid, Function.update_self] at hx
    exact .inl ⟨hid, hx⟩
  · rw [Function.update_of_ne hid] at hx
    exact .inr ⟨hid, hx⟩

/-- Two windows in a relation are one window: it is enough to look at the one that has changed. -/
theorem pairs_put {R : Window → Window → Prop} {id₁ id₂ : Nat} {w₁ w₂ : Window}
    (hwindows : v.windows = Function.update u.windows id (some w'))
    (old : ∀ id₁ id₂ w₁ w₂, u.windows id₁ = some w₁ → u.windows id₂ = some w₂ → R w₁ w₂ →
      id₁ = id₂)
    (left : ∀ id' x, u.windows id' = some x → R w' x → id' = id)
    (right : ∀ id' x, u.windows id' = some x → R x w' → id' = id)
    (h₁ : v.windows id₁ = some w₁) (h₂ : v.windows id₂ = some w₂) (related : R w₁ w₂) :
    id₁ = id₂ := by
  rcases windows_put hwindows h₁ with ⟨rfl, heq₁⟩ | ⟨-, h₁⟩
  · cases heq₁
    rcases windows_put hwindows h₂ with ⟨rfl, -⟩ | ⟨-, h₂⟩
    · rfl
    · exact (left id₂ w₂ h₂ related).symm
  · rcases windows_put hwindows h₂ with ⟨rfl, heq₂⟩ | ⟨-, h₂⟩
    · cases heq₂
      exact right id₁ w₁ h₁ related
    · exact old id₁ id₂ w₁ w₂ h₁ h₂ related

/-- **A step that changes one window**, as it drifts, where it is not of a slot that only the thread
    itself has listed the windows for. -/
theorem Leaves.of_put {window : Option Window}
    (hwindows : v.windows = Function.update u.windows id window) (hnext : u.next ≤ v.next)
    (hlisted : ∀ e ∈ u.listed, e.1 ≠ t → e ∈ v.listed)
    (same : ∀ w', window = some w' → id < u.next →
      ∃ w, u.windows id = some w ∧ w'.home = w.home)
    (drifts : ∀ w', window = some w' → ∀ t' s, t' ≠ t → (t', s) ∈ u.listed → w'.home = some s →
      ∃ w, u.windows id = some w ∧ Drifts w w')
    (mine : ∀ w', window = some w' → ∀ t', t' ≠ t → w'.holder = some t' →
      w'.shown.dead = false → ∃ w, u.windows id = some w ∧ w.holder = some t' ∧
        w.shown.dead = false ∧ Mine w w') : Leaves t u v := by
  refine ⟨fun t' s ht h => ⟨hlisted _ h ht, hnext, ?_, ?_⟩, fun t' id' ht => ?_⟩
  · intro id' w' hid' hw'
    rcases windows_put hwindows hw' with ⟨rfl, heq⟩ | ⟨-, hw'⟩
    · exact same w' heq hid'
    · exact ⟨w', hw', rfl⟩
  · intro id' w' hw' hhome
    rcases windows_put hwindows hw' with ⟨rfl, heq⟩ | ⟨-, hw'⟩
    · exact drifts w' heq t' s ht h hhome
    · exact ⟨w', hw', .refl⟩
  · intro w' hw' hholder hdead
    rcases windows_put hwindows hw' with ⟨rfl, heq⟩ | ⟨-, hw'⟩
    · exact mine w' heq t' ht hholder hdead
    · exact ⟨w', hw', hholder, hdead, .refl⟩

/-- Nothing that the invariant is about has come up. -/
theorem TmuxInv.of_windows (h : TmuxInv u) (hwindows : v.windows = u.windows)
    (hnext : v.next = u.next) (hlisted : ∀ e ∈ v.listed, e ∈ u.listed) : TmuxInv v := by
  constructor
  · rw [hwindows, hnext]
    exact h.fresh
  · rw [hwindows]
    exact h.sound
  · rw [hwindows]
    exact h.unique
  · rw [hwindows]
    exact h.pending
  · intro t t' s ht ht'
    exact h.lone t t' s (hlisted _ ht) (hlisted _ ht')
  · intro t s ht
    rw [hwindows]
    exact h.still t s (hlisted _ ht)

theorem TmuxInv.remove (h : TmuxInv u) (hwindows : v.windows = Function.update u.windows id none)
    (hnext : v.next = u.next) (hlisted : ∀ e ∈ v.listed, e ∈ u.listed) : TmuxInv v := by
  have old : ∀ {id' w}, v.windows id' = some w → u.windows id' = some w := by
    intro id' w hw
    rw [hwindows] at hw
    by_cases hid : id' = id
    · rw [hid, Function.update_self] at hw
      cases hw
    · rw [Function.update_of_ne hid] at hw
      exact hw
  constructor
  · intro id' hid'
    rw [hnext] at hid'
    rw [hwindows]
    by_cases hid : id' = id
    · rw [hid, Function.update_self]
    · rw [Function.update_of_ne hid]
      exact h.fresh id' hid'
  · intro id' w hw
    exact h.sound id' w (old hw)
  · intro id₁ id₂ w₁ w₂ s h₁ h₂
    exact h.unique id₁ id₂ w₁ w₂ s (old h₁) (old h₂)
  · intro id₁ id₂ w₁ w₂ s h₁ h₂
    exact h.pending id₁ id₂ w₁ w₂ s (old h₁) (old h₂)
  · intro t t' s ht ht'
    exact h.lone t t' s (hlisted _ ht) (hlisted _ ht')
  · intro t s ht id' w hw
    exact h.still t s (hlisted _ ht) id' w (old hw)

/-- **A window goes on**: it gets a slot only from its wrapper, which has then set all options. -/
theorem TmuxInv.drift (h : TmuxInv u) (hw : u.windows id = some w)
    (hwindows : v.windows = Function.update u.windows id (some w')) (hnext : v.next = u.next)
    (hlisted : ∀ e ∈ v.listed, e ∈ u.listed) (sound : Sound w') (home : w'.home = w.home)
    (publishing : w'.phase = .publishing → w.phase = .publishing)
    (slot : ∀ s, w'.shown.slot = some s → w.shown.slot = some s ∨
      (w.phase = .publishing ∧ w.home = some s ∧ w'.phase ≠ .publishing)) : TmuxInv v := by
  constructor
  · intro id' hid'
    rw [hnext] at hid'
    rw [hwindows, Function.update_of_ne]
    · exact h.fresh id' hid'
    · rintro rfl
      rw [h.fresh id' hid'] at hw
      cases hw
  · intro id' x hx
    rcases windows_put hwindows hx with ⟨-, heq⟩ | ⟨-, hx⟩
    · cases heq
      exact sound
    · exact h.sound id' x hx
  · -- another window with the slot is the window itself, by what held before
    have apart : ∀ id' x s, u.windows id' = some x → w'.shown.slot = some s →
        x.shown.slot = some s → id' = id := by
      intro id' x s hx hs hs'
      rcases slot s hs with hs | ⟨hphase, hhome, -⟩
      · exact h.unique id' id x w s hx hw hs' hs
      · exact (h.pending id id' w x s hw hx hhome hphase (.inl hs')).symm
    intro id₁ id₂ w₁ w₂ s h₁ h₂ hs₁ hs₂
    refine pairs_put (R := fun a b => a.shown.slot = some s ∧ b.shown.slot = some s) hwindows
      ?_ ?_ ?_ h₁ h₂ ⟨hs₁, hs₂⟩
    · intro id₁ id₂ w₁ w₂ h₁ h₂ hs
      exact h.unique id₁ id₂ w₁ w₂ s h₁ h₂ hs.1 hs.2
    · intro id' x hx hs
      exact apart id' x s hx hs.1 hs.2
    · intro id' x hx hs
      exact apart id' x s hx hs.2 hs.1
  · intro id₁ id₂ w₁ w₂ s h₁ h₂ hhome hphase hother
    refine pairs_put (R := Rivals s) hwindows ?_ ?_ ?_ h₁ h₂ ⟨hhome, hphase, hother⟩
    · intro id₁ id₂ w₁ w₂ h₁ h₂ rivals
      exact h.pending id₁ id₂ w₁ w₂ s h₁ h₂ rivals.1 rivals.2.1 rivals.2.2
    · intro id' x hx rivals
      have hhome : w.home = some s := home ▸ rivals.1
      exact (h.pending id id' w x s hw hx hhome (publishing rivals.2.1) rivals.2.2).symm
    · intro id' x hx rivals
      refine h.pending id' id x w s hx hw rivals.1 rivals.2.1 ?_
      rcases rivals.2.2 with hs | ⟨hhome', hphase'⟩
      · rcases slot s hs with hs | ⟨hphase', hhome', -⟩
        · exact .inl hs
        · exact .inr ⟨hhome', hphase'⟩
      · exact .inr ⟨home ▸ hhome', publishing hphase'⟩
  · intro t t' s ht ht'
    exact h.lone t t' s (hlisted _ ht) (hlisted _ ht')
  · intro t s ht id' x hx hhome hphase
    rcases windows_put hwindows hx with ⟨rfl, heq⟩ | ⟨-, hx⟩
    · cases heq
      exact h.still t s (hlisted _ ht) id' w hw (home ▸ hhome) (publishing hphase)
    · exact h.still t s (hlisted _ ht) id' x hx hhome hphase

/-- **A wrapper is started** by the launch that has listed the windows for its slot, where no other
    window carries the slot. -/
theorem TmuxInv.launch (h : TmuxInv u)
    (hwindows : v.windows = Function.update u.windows id (some w')) (hid : id < v.next)
    (hnext : u.next ≤ v.next) (hlisted : v.listed = u.listed.filter fun e => e.1 ≠ t)
    (mine : (t, s) ∈ u.listed) (sound : Sound w') (home : w'.home = some s)
    (slot : ∀ s', w'.shown.slot = some s' → s' = s)
    (alone : ∀ id' x, u.windows id' = some x → x.shown.slot = some s → id' = id) :
    TmuxInv v := by
  have before : ∀ {e}, e ∈ v.listed → e ∈ u.listed ∧ e.1 ≠ t := by
    intro e he
    rw [hlisted] at he
    simpa using he
  constructor
  · intro id' hid'
    have hne : id' ≠ id := by
      rintro rfl
      exact absurd hid (Nat.not_lt.mpr hid')
    rw [hwindows, Function.update_of_ne hne]
    exact h.fresh id' (Nat.le_trans hnext hid')
  · intro id' x hx
    rcases windows_put hwindows hx with ⟨-, heq⟩ | ⟨-, hx⟩
    · cases heq
      exact sound
    · exact h.sound id' x hx
  · intro id₁ id₂ w₁ w₂ s' h₁ h₂ hs₁ hs₂
    refine pairs_put (R := fun a b => a.shown.slot = some s' ∧ b.shown.slot = some s') hwindows
      ?_ ?_ ?_ h₁ h₂ ⟨hs₁, hs₂⟩
    · intro id₁ id₂ w₁ w₂ h₁ h₂ hs
      exact h.unique id₁ id₂ w₁ w₂ s' h₁ h₂ hs.1 hs.2
    · intro id' x hx hs
      exact alone id' x hx (slot s' hs.1 ▸ hs.2)
    · intro id' x hx hs
      exact alone id' x hx (slot s' hs.2 ▸ hs.1)
  · intro id₁ id₂ w₁ w₂ s' h₁ h₂ hhome hphase hother
    refine pairs_put (R := Rivals s') hwindows ?_ ?_ ?_ h₁ h₂ ⟨hhome, hphase, hother⟩
    · intro id₁ id₂ w₁ w₂ h₁ h₂ rivals
      exact h.pending id₁ id₂ w₁ w₂ s' h₁ h₂ rivals.1 rivals.2.1 rivals.2.2
    · intro id' x hx rivals
      obtain rfl : s = s' := Option.some.inj (home.symm.trans rivals.1)
      rcases rivals.2.2 with hs | ⟨hhome', hphase'⟩
      · exact alone id' x hx hs
      · exact absurd hphase' (h.still t s mine id' x hx hhome')
    · intro id' x hx rivals
      have same : s' = s := by
        rcases rivals.2.2 with hs | ⟨hhome', -⟩
        · exact slot s' hs
        · exact (Option.some.inj (home.symm.trans hhome')).symm
      subst same
      exact absurd rivals.2.1 (h.still t s' mine id' x hx rivals.1)
  · intro t₁ t₂ s' h₁ h₂
    exact h.lone t₁ t₂ s' (before h₁).1 (before h₂).1
  · intro t' s' ht' id' x hx hhome
    rcases windows_put hwindows hx with ⟨rfl, heq⟩ | ⟨-, hx⟩
    · cases heq
      obtain rfl : s = s' := Option.some.inj (home.symm.trans hhome)
      exact absurd (h.lone t' t s (before ht').1 mine) (before ht').2
    · exact h.still t' s' (before ht').1 id' x hx hhome

end relations

/-! ## 5. The operations -/

/-- What every operation of thread `t` does. -/
def Good (t : Nat) (u v : TmuxWorld) : Prop := TmuxInv v ∧ Leaves t u v

section operations

variable {t id : Nat} {s : Fin 3} {u v : TmuxWorld} {w w' : Window} {l : Launch}

theorem good_same (h : TmuxInv u) (hwindows : v.windows = u.windows) (hnext : v.next = u.next)
    (hlisted : v.listed = u.listed ∨ v.listed = u.listed.filter fun e => e.1 ≠ t) :
    Good t u v := by
  rcases hlisted with hlisted | hlisted
  · exact ⟨h.of_windows hwindows hnext fun e he => hlisted ▸ he,
      .of_windows hwindows hnext fun e he _ => hlisted ▸ he⟩
  · refine ⟨h.of_windows hwindows hnext fun e he => ?_,
      .of_windows hwindows hnext fun e he hne => ?_⟩
    · rw [hlisted] at he
      exact List.mem_of_mem_filter he
    · rw [hlisted]
      exact List.mem_filter.mpr ⟨he, by simpa using hne⟩

theorem good_remove (h : TmuxInv u) : Good t u (u.put id none) := by
  refine ⟨h.remove rfl rfl fun _ he => he, ?_⟩
  refine .of_put rfl (Nat.le_refl _) (fun _ he _ => he) ?_ ?_ ?_
  · intro w' heq
    cases heq
  · intro w' heq
    cases heq
  · intro w' heq
    cases heq

/-- A window goes on, and if not as it drifts by itself then as its own wrapper moves it. -/
theorem good_drift (h : TmuxInv u) (hw : u.windows id = some w) (sound : Sound w')
    (drifts : Drifts w w')
    (publishing : w'.phase = .publishing → w.phase = .publishing)
    (slot : ∀ s, w'.shown.slot = some s → w.shown.slot = some s ∨
      (w.phase = .publishing ∧ w.home = some s ∧ w'.phase ≠ .publishing))
    (mine : ∀ t', t' ≠ t → w'.holder = some t' → w'.shown.dead = false →
      w.holder = some t' ∧ w.shown.dead = false ∧ Mine w w') :
    Good t u (u.put id (some w')) := by
  refine ⟨h.drift hw rfl rfl (fun _ he => he) sound drifts.home publishing slot, ?_⟩
  refine .of_put rfl (Nat.le_refl _) (fun _ he _ => he) ?_ ?_ ?_
  · intro x heq _
    cases heq
    exact ⟨w, hw, drifts.home⟩
  · intro x heq _ _ _ _ _
    cases heq
    exact ⟨w, hw, drifts⟩
  · intro x heq t' ht hholder hdead
    cases heq
    exact ⟨w, hw, mine t' ht hholder hdead⟩

/-- A wrapper is started in a window that had its slot before, or in a new one. -/
theorem good_launch (h : TmuxInv u)
    (hwindows : v.windows = Function.update u.windows id (some w')) (hid : id < v.next)
    (hnext : u.next ≤ v.next) (hlisted : v.listed = u.listed.filter fun e => e.1 ≠ t)
    (mine : (t, s) ∈ u.listed) (sound : Sound w') (home : w'.home = some s)
    (holder : w'.holder = none) (slot : ∀ s', w'.shown.slot = some s' → s' = s)
    (alone : ∀ id' x, u.windows id' = some x → x.shown.slot = some s → id' = id)
    (same : id < u.next → ∃ w, u.windows id = some w ∧ w.home = some s) : Good t u v := by
  refine ⟨h.launch hwindows hid hnext hlisted mine sound home slot alone, ?_⟩
  refine .of_put hwindows hnext (fun e he hne => ?_) ?_ ?_ ?_
  · rw [hlisted]
    exact List.mem_filter.mpr ⟨he, by simpa using hne⟩
  · intro x heq hid'
    cases heq
    obtain ⟨w, hw, hhome⟩ := same hid'
    exact ⟨w, hw, home.trans hhome.symm⟩
  · intro x heq t' s' ht hlisted' hhome
    cases heq
    obtain rfl : s = s' := Option.some.inj (home.symm.trans hhome)
    exact absurd (h.lone t' t s hlisted' mine) ht
  · intro x heq t' _ hholder
    cases heq
    rw [holder] at hholder
    cases hholder

/-- A window that is none of a command opens. -/
theorem good_open (h : TmuxInv u) : Good t u (u.create ⟨bare, none⟩) := by
  have old : ∀ {id w}, (u.create ⟨bare, none⟩).windows id = some w →
      w = ⟨bare, none⟩ ∨ u.windows id = some w := by
    intro id w hw
    rcases windows_put rfl hw with ⟨-, heq⟩ | ⟨-, hw⟩
    · cases heq
      exact .inl rfl
    · exact .inr hw
  refine ⟨⟨?_, ?_, ?_, ?_, h.lone, ?_⟩, ?_⟩
  · intro id hid
    show Function.update u.windows u.next _ id = none
    rw [Function.update_of_ne (Nat.ne_of_gt hid)]
    exact h.fresh id (Nat.le_of_lt hid)
  · intro id w hw
    rcases old hw with rfl | hw
    · refine ⟨fun hslot => absurd rfl hslot, fun s hs => ?_, fun hphase => ?_, fun _ => rfl⟩
      · cases hs
      · rcases hphase with hphase | hphase <;> cases hphase
    · exact h.sound id w hw
  · intro id id' w w' s hw hw' hs hs'
    rcases old hw with rfl | hw
    · cases hs
    · rcases old hw' with rfl | hw'
      · cases hs'
      · exact h.unique id id' w w' s hw hw' hs hs'
  · intro id id' w w' s hw hw' hhome hphase hother
    rcases old hw with rfl | hw
    · cases hhome
    · rcases old hw' with rfl | hw'
      · rcases hother with hs | ⟨hhome', -⟩
        · cases hs
        · cases hhome'
      · exact h.pending id id' w w' s hw hw' hhome hphase hother
  · intro t s ht id w hw hhome
    rcases old hw with rfl | hw
    · cases hhome
    · exact h.still t s ht id w hw hhome
  · refine .of_put rfl (Nat.le_succ _) (fun _ he _ => he) ?_ ?_ ?_
    · intro w' _ hlt
      exact absurd hlt (Nat.lt_irrefl _)
    · intro w' heq t' s _ _ hhome
      cases heq
      cases hhome
    · intro w' heq t' _ hholder
      cases heq
      cases hholder

theorem Window.phase_setPhase {phase : Phase} (h : w.process ≠ none) :
    (w.setPhase phase).phase = phase := by
  obtain ⟨p, hp⟩ := Option.ne_none_iff_exists'.mp h
  unfold Window.setPhase Window.phase
  rw [hp]
  rfl

@[simp] theorem Window.home_setPhase {phase : Phase} : (w.setPhase phase).home = w.home := by
  unfold Window.setPhase Window.home
  rw [Option.map_map]
  rfl

@[simp] theorem Window.holder_setPhase {phase : Phase} :
    (w.setPhase phase).holder = w.holder := by
  unfold Window.setPhase Window.holder
  rw [Option.bind_map]
  rfl

theorem Window.process_of_holder (h : w.holder = some t) : w.process ≠ none := by
  intro hnone
  unfold Window.holder at h
  rw [hnone] at h
  cases h

theorem Window.phase_die : w.die.phase = .ended := by
  unfold Window.die Window.phase
  cases w.process <;> rfl

theorem Window.home_die : w.die.home = w.home := by
  unfold Window.die Window.home
  rw [Option.map_map]
  rfl

theorem good_die (h : TmuxInv u) : Good t u (u.modify id Window.die) := by
  unfold TmuxWorld.modify
  cases hw : u.windows id with
  | none => exact good_remove h
  | some w =>
    have sound := h.sound id w hw
    have ended : ∀ {phase : Phase}, phase ≠ .ended → w.die.phase ≠ phase := by
      intro phase hne heq
      rw [Window.phase_die] at heq
      exact hne heq.symm
    refine good_drift h hw ?_ ?_ ?_ (fun s hs => .inl hs) ?_
    · refine ⟨sound.whole, fun s hs => ?_, fun hphase => ?_, fun _ => Window.phase_die⟩
      · rw [Window.home_die]
        exact sound.home s hs
      · rcases hphase with hphase | hphase
        · exact absurd hphase (ended (by decide))
        · exact absurd hphase (ended (by decide))
    · exact ⟨Window.home_die, fun _ => ended (by decide), fun _ => Window.phase_die,
        fun _ => rfl, fun _ _ hs => hs⟩
    · intro hphase
      exact absurd hphase (ended (by decide))
    · intro t' _ _ hdead
      cases hdead

/-- An option is taken off a window whose wrapper has set them all: the slot first. -/
theorem good_unset (h : TmuxInv u) {option : CommandOption}
    (settled : ∀ w, u.windows id = some w → w.phase ≠ .publishing ∧
      (option = .slot ∨ w.shown.slot = none)) :
    Good t u (u.modify id fun w => w.clear option) := by
  unfold TmuxWorld.modify
  cases hw : u.windows id with
  | none => exact good_remove h
  | some w =>
    have sound := h.sound id w hw
    obtain ⟨hphase, hslot⟩ := settled w hw
    have cleared : (w.clear option).shown.slot = none := by
      cases option with
      | slot => rfl
      | launch | digest | state => exact hslot.resolve_left (by decide)
    have dead : (w.clear option).shown.dead = w.shown.dead := by cases option <;> rfl
    have none : ∀ s, (w.clear option).shown.slot = some s → w.shown.slot = some s := by
      intro s hs
      rw [cleared] at hs
      cases hs
    refine good_drift h hw ?_ ?_ (fun hp => hp) (fun s hs => .inl (none s hs)) ?_
    · refine ⟨fun hne => absurd cleared hne, fun s hs => sound.home s (none s hs),
        fun _ hne => absurd cleared hne, fun hdead => sound.dead (dead ▸ hdead)⟩
    · exact ⟨rfl, fun hp => hp, fun hp => hp, fun hd => dead.trans hd, fun _ => none⟩
    · intro t' _ hholder hdead
      exact ⟨hholder, dead ▸ hdead, rfl, rfl, fun hp => absurd hp hphase⟩

/-- Where a wrapper is, and what it has put on its window by then. -/
structure Stage (l : Launch) (phase : Phase) (R : Shown → Prop) (w : Window) : Prop where
  launched : w.process.map Process.launch = some l
  reached : w.phase = phase
  options : phase = .publishing → R w.shown

/-- Thread `t`, while it is in its window, is at the stage. -/
def At (t id : Nat) (l : Launch) (phase : Phase) (R : Shown → Prop) (u : TmuxWorld) : Prop :=
  ∀ w, u.windows id = some w → w.holder = some t → w.shown.dead = false → Stage l phase R w

variable {phase phase' : Phase} {R R' : Shown → Prop}

theorem At.kept (h : At t id l phase R u) (kept : Kept t id u v) : At t id l phase R v := by
  intro w' hw' hholder hdead
  obtain ⟨w, hw, hholder, hdead, mine⟩ := kept w' hw' hholder hdead
  have stage := h w hw hholder hdead
  refine ⟨mine.launch.trans stage.launched, mine.phase.trans stage.reached, fun hphase => ?_⟩
  rw [mine.options (stage.reached.trans hphase)]
  exact stage.options hphase

theorem Stage.home (h : Stage l phase R w) : w.home = some l.slot := by
  have slot := congrArg (Option.map Launch.slot) h.launched
  rw [Option.map_map] at slot
  exact slot

/-- The window of the thread is the one that has been put. -/
theorem At.of_put (h : Stage l phase R w) : At t id l phase R (u.put id (some w)) := by
  intro w' hw' _ _
  rcases windows_put rfl hw' with ⟨-, heq⟩ | ⟨hne, -⟩
  · cases heq
    exact h
  · exact absurd rfl hne

/-- A wrapper moves on to the next phase. -/
theorem good_phase (h : TmuxInv u) (holds : Holds u id t) (hat : At t id l phase R u)
    (next : (phase = .starting ∧ phase' = .running) ∨ (phase = .running ∧ phase' = .ended)) :
    Good t u (u.modify id fun w => w.setPhase phase') ∧
      At t id l phase' R' (u.modify id fun w => w.setPhase phase') := by
  obtain ⟨w, hw, hholder, hdead⟩ := holds
  have stage := hat w hw hholder hdead
  have sound := h.sound id w hw
  have hphase : (w.setPhase phase').phase = phase' :=
    Window.phase_setPhase (Window.process_of_holder hholder)
  have apart : phase' ≠ .publishing ∧ phase ≠ .publishing := by
    rcases next with ⟨rfl, rfl⟩ | ⟨rfl, rfl⟩ <;> decide
  unfold TmuxWorld.modify
  rw [hw, Option.map_some]
  refine ⟨good_drift h hw ?_ ?_ ?_ (fun s hs => .inl hs) ?_, ?_⟩
  · refine ⟨sound.whole, fun s hs => ?_, fun hp => ?_, fun hd => ?_⟩
    · rw [Window.home_setPhase]
      exact sound.home s hs
    · refine sound.quiet ?_
      rw [stage.reached]
      rcases next with ⟨rfl, -⟩ | ⟨rfl, -⟩
      · exact .inl rfl
      · exact .inr rfl
    · exact absurd (hdead.symm.trans hd) Bool.false_ne_true
  · refine ⟨Window.home_setPhase, fun _ hp => apart.1 (hphase.symm.trans hp), fun hp => ?_,
      fun hd => hd, fun _ _ hs => hs⟩
    rw [stage.reached] at hp
    rcases next with ⟨rfl, -⟩ | ⟨rfl, -⟩ <;> cases hp
  · intro hp
    exact absurd (hphase.symm.trans hp) apart.1
  · intro t' ht hholder'
    rw [Window.holder_setPhase, hholder] at hholder'
    exact absurd (Option.some.inj hholder').symm ht
  · refine .of_put ⟨?_, hphase, fun hp => absurd hp apart.1⟩
    show (w.process.map _).map _ = _
    rw [Option.map_map]
    exact stage.launched

/-- A wrapper sets another option than the slot, before it sets that or after its command. -/
theorem good_set (h : TmuxInv u) {setting : Setting} (holds : Holds u id t)
    (hat : At t id l phase R u) (quiet : phase = .publishing ∨ phase = .ended)
    (plain : ∀ s, setting ≠ .slot s)
    (options : phase = .publishing → ∀ x, R x → R' (setting.apply x)) :
    Good t u (u.modify id fun w => w.set setting) ∧
      At t id l phase R' (u.modify id fun w => w.set setting) := by
  obtain ⟨w, hw, hholder, hdead⟩ := holds
  have stage := hat w hw hholder hdead
  have sound := h.sound id w hw
  have hprocess : (w.set setting).process = w.process := by
    cases setting with
    | slot s => exact absurd rfl (plain s)
    | launch value | digest value | state value => rfl
  have hslot : (w.set setting).shown.slot = w.shown.slot := by
    cases setting with
    | slot s => exact absurd rfl (plain s)
    | launch value | digest value | state value => rfl
  have hdead' : (w.set setting).shown.dead = w.shown.dead := by cases setting <;> rfl
  have home : (w.set setting).home = w.home := by rw [Window.home, hprocess, Window.home]
  have holder : (w.set setting).holder = w.holder := by
    rw [Window.holder, hprocess, Window.holder]
  have hphase : (w.set setting).phase = w.phase := by rw [Window.phase, hprocess, Window.phase]
  have whole : (w.set setting).shown.Whole := by
    intro hne
    rw [hslot] at hne
    obtain ⟨hlaunch, hdigest, hstate⟩ := sound.whole hne
    cases setting with
    | slot s => exact absurd rfl (plain s)
    | launch value => exact ⟨Option.some_ne_none _, hdigest, hstate⟩
    | digest value => exact ⟨hlaunch, Option.some_ne_none _, hstate⟩
    | state value => exact ⟨hlaunch, hdigest, Option.some_ne_none _⟩
  unfold TmuxWorld.modify
  rw [hw, Option.map_some]
  refine ⟨good_drift h hw ?_ ?_ (fun hp => hphase ▸ hp) (fun s hs => .inl (hslot ▸ hs)) ?_, ?_⟩
  · refine ⟨whole, fun s hs => home.trans (sound.home s (hslot ▸ hs)), fun hp => ?_,
      fun hd => ?_⟩
    · rw [hphase, stage.reached] at hp
      rcases quiet with rfl | rfl <;> rcases hp with hp | hp <;> cases hp
    · exact absurd ((hdead'.trans hdead).symm.trans hd) Bool.false_ne_true
  · exact ⟨home, fun hp => hphase ▸ hp, fun hp => hphase.trans hp, fun hd => hdead'.trans hd,
      fun _ s hs => hslot ▸ hs⟩
  · intro t' ht hholder'
    rw [holder, hholder] at hholder'
    exact absurd (Option.some.inj hholder').symm ht
  · refine .of_put ⟨?_, hphase.trans stage.reached, fun hp => options hp _ (stage.options hp)⟩
    rw [hprocess]
    exact stage.launched

/-- **A wrapper sets the slot**, after all other options. -/
theorem good_set_slot (h : TmuxInv u) (holds : Holds u id t) (hat : At t id l .publishing R u)
    (options : ∀ x, R x → x.launch ≠ none ∧ x.digest ≠ none ∧ x.state = some .running) :
    Good t u (u.modify id fun w => w.set (.slot l.slot)) ∧
      At t id l .starting R' (u.modify id fun w => w.set (.slot l.slot)) := by
  obtain ⟨w, hw, hholder, hdead⟩ := holds
  have stage := hat w hw hholder hdead
  obtain ⟨hlaunch, hdigest, hstate⟩ := options _ (stage.options rfl)
  obtain ⟨p, hp⟩ := Option.ne_none_iff_exists'.mp (Window.process_of_holder hholder)
  have home : (w.set (.slot l.slot)).home = some l.slot := by
    have before := stage.home
    unfold Window.home at before ⊢
    rw [hp] at before
    show ((w.process.map _).map _) = _
    rw [hp]
    exact before
  have holder : (w.set (.slot l.slot)).holder = some t := by
    unfold Window.holder at hholder ⊢
    rw [hp] at hholder
    show ((w.process.map _).bind _) = _
    rw [hp]
    exact hholder
  have hphase : (w.set (.slot l.slot)).phase = .starting := by
    show (((w.process.map _).map _).getD _) = _
    rw [hp]
    rfl
  unfold TmuxWorld.modify
  rw [hw, Option.map_some]
  refine ⟨good_drift h hw ?_ ?_ ?_ ?_ ?_, ?_⟩
  · refine ⟨fun _ => ⟨hlaunch, hdigest, ?_⟩, fun s hs => ?_, fun _ _ => hstate, fun hd => ?_⟩
    · show w.shown.state ≠ none
      rw [hstate]
      exact Option.some_ne_none _
    · cases hs
      exact home
    · exact absurd (hdead.symm.trans hd) Bool.false_ne_true
  · refine ⟨home.trans stage.home.symm, fun hp => absurd stage.reached hp, fun hp => ?_,
      fun hd => hd, fun hp => absurd stage.reached hp⟩
    rw [stage.reached] at hp
    cases hp
  · intro hp
    rw [hphase] at hp
    cases hp
  · intro s hs
    cases hs
    exact .inr ⟨stage.reached, stage.home, by rw [hphase]; decide⟩
  · intro t' ht hholder'
    rw [holder] at hholder'
    exact absurd (Option.some.inj hholder').symm ht
  · refine .of_put ⟨?_, hphase, fun hp => ?_⟩
    · show (w.process.map _).map _ = _
      rw [Option.map_map]
      exact stage.launched
    · cases hp

end operations

/-! ## 6. The programs -/

/-- A launch kills and takes over no window whose command runs. -/
def Spares (o : TmuxOp) (u : TmuxWorld) : Prop :=
  match o with
  | .kill id | .respawn id _ | .giveUp id => ∀ w, u.windows id = some w → w.phase ≠ .running
  | _ => True

/-- What a thread relies on: a launch on the windows of the slot that it has listed them for, a
    wrapper on its window. -/
def Relies (t : Nat) (l : TmuxLabel) (u v : TmuxWorld) : Prop :=
  match l with
  | .call _ _ _ => ∀ s, (t, s) ∈ u.listed → (t, s) ∈ v.listed ∧ Evolves s u v
  | .wrapper id _ => Kept t id u v
  | .event _ => True

theorem Leaves.relies {t t' : Nat} {l : TmuxLabel} {u v : TmuxWorld} (h : Leaves t u v)
    (ht : t' ≠ t) : Relies t' l u v := by
  cases l with
  | call slot command launchId => exact fun s hs => h.listed t' s ht hs
  | wrapper id launch => exact h.kept t' id ht
  | event e => trivial

abbrev calmSystem (sha256 : List UInt8 → Digest) : System TmuxSig CommandError :=
  (tmuxSystem sha256).restrict Calm

/-- A wrapper that starts is nobody else's. -/
theorem good_started {t : Nat} {l : TmuxLabel} {u v : TmuxWorld} (h : TmuxInv u)
    (started : l.started t u v) : Good t u v := by
  have same : Good t u u := good_same h rfl rfl (.inl rfl)
  cases l with
  | call slot command launchId =>
    obtain rfl : v = u := started
    exact same
  | event e =>
    obtain rfl : v = u := started
    exact same
  | wrapper id launch =>
    obtain ⟨⟨w, hw, hdead, hprocess⟩, rfl⟩ := started
    have sound := h.sound id w hw
    have home : (w.hold t).home = w.home := by
      unfold Window.hold Window.home
      rw [Option.map_map]
      rfl
    have hphase : (w.hold t).phase = w.phase := by
      unfold Window.hold Window.phase
      rw [Option.map_map]
      rfl
    have holder : (w.hold t).holder = some t := by
      unfold Window.hold Window.holder
      rw [hprocess]
      rfl
    unfold TmuxWorld.modify
    rw [hw, Option.map_some]
    refine good_drift h hw ?_ ?_ (fun hp => hphase ▸ hp) (fun s hs => .inl hs) ?_
    · exact ⟨sound.whole, fun s hs => home.trans (sound.home s hs),
        fun hp => sound.quiet (hphase ▸ hp), fun hd => hphase.trans (sound.dead hd)⟩
    · exact ⟨home, fun hp => hphase ▸ hp, fun hp => hphase.trans hp, fun hd => hd,
        fun _ _ hs => hs⟩
    · intro t' ht hholder
      rw [holder] at hholder
      exact absurd (Option.some.inj hholder).symm ht

def tmuxOutline (sha256 : List UInt8 → Digest) : Outline (calmSystem sha256) where
  inv := TmuxInv
  rely := Relies
  ok := fun _ _ o _ u _ => Spares o u
  post := fun _ _ _ _ => True
  rely_refl := by
    intro t l u
    exact (@Leaves.refl (t + 1) u).relies (Nat.ne_of_lt (Nat.lt_succ_self t))
  rely_trans := by
    intro t l u v w h h'
    cases l with
    | call slot command launchId =>
      intro s hs
      obtain ⟨hs', evolves⟩ := h s hs
      obtain ⟨hs'', evolves'⟩ := h' s hs'
      exact ⟨hs'', evolves.trans evolves'⟩
    | wrapper id launch => exact Kept.trans h h'
    | event e => trivial
  start_keeps := by
    intro t l u v h started
    have good := good_started h started
    exact ⟨good.1, fun t' l' ht => good.2.relies ht⟩
  env_keeps := fun _ _ _ h => h.elim

abbrev tmuxContract (sha256 : List UInt8 → Digest) (t : Nat) (l : TmuxLabel) :
    Contract TmuxSig TmuxWorld :=
  (tmuxOutline sha256).contract t l

section programs

variable {sha256 : List UInt8 → Digest} {t : Nat} {l : TmuxLabel} {w : TmuxWorld}

/-- **An operation**, in a state that the thread may find. -/
theorem perform_wp {o : TmuxOp} {Q : Except CommandError o.Ans → TmuxWorld → Prop}
    (h : ∀ (u : TmuxWorld) a v, Relies t l w u → TmuxInv u → o.step t a u v →
      Calm t l o a u v → Good t u v ∧ Spares o u ∧ Q (.ok a) v) :
    (perform o).wp (tmuxContract sha256 t l) Q w := by
  intro u hu hinv a v hstep
  obtain ⟨step, calm⟩ := hstep
  obtain ⟨good, spares, post⟩ := h u a v hu hinv step calm
  exact ⟨⟨good.1, fun t' l' ht => good.2.relies ht, spares⟩, post⟩

section wrappers

variable {id : Nat} {launch : Launch} {phase : Phase} {R R' : Shown → Prop}
variable {Q : Except CommandError Unit → TmuxWorld → Prop}

theorem set_wp {setting : Setting} (hw : At t id launch phase R w)
    (quiet : phase = .publishing ∨ phase = .ended) (plain : ∀ s, setting ≠ .slot s)
    (options : phase = .publishing → ∀ x, R x → R' (setting.apply x))
    (h : ∀ v, At t id launch phase R' v → Q (.ok ()) v) :
    (perform (.set id setting)).wp (tmuxContract sha256 t (.wrapper id launch)) Q w := by
  refine perform_wp fun u a v hu hinv step _ => ?_
  obtain ⟨holds, rfl⟩ := step
  obtain ⟨good, hat⟩ := good_set hinv holds (hw.kept hu) quiet plain options
  exact ⟨good, trivial, h _ hat⟩

/-- **A wrapper** goes through its phases. -/
theorem wrapper_wp (hw : At t id launch .publishing (fun _ => True) w) :
    (wrapper id launch).wp (tmuxContract sha256 t (.wrapper id launch)) (fun _ _ => True) w := by
  unfold wrapper
  rw [Prog.wp_bind]
  refine @set_wp sha256 t w id launch _ _ (fun x => x.state = some .running) _ _ hw (.inl rfl)
    (by simp) (fun _ _ _ => rfl) fun v hv => ?_
  rw [onResult_ok, Prog.wp_bind]
  refine @set_wp sha256 t v id launch _ _ (fun x => x.state = some .running ∧ x.digest ≠ none) _ _
    hv (.inl rfl) (by simp) (fun _ x hx => ⟨hx, Option.some_ne_none _⟩) fun v hv => ?_
  rw [onResult_ok, Prog.wp_bind]
  refine @set_wp sha256 t v id launch _ _
    (fun x => x.launch ≠ none ∧ x.digest ≠ none ∧ x.state = some .running) _ _
    hv (.inl rfl) (by simp) (fun _ x hx => ⟨Option.some_ne_none _, hx.2, hx.1⟩) fun v hv => ?_
  rw [onResult_ok, Prog.wp_bind]
  refine perform_wp fun u a v hu hinv step _ => ?_
  obtain ⟨holds, rfl⟩ := step
  obtain ⟨good, hv⟩ := @good_set_slot t id u launch _ (fun _ => True) hinv holds (hv.kept hu)
    fun x hx => hx
  refine ⟨good, trivial, ?_⟩
  rw [onResult_ok, Prog.wp_bind]
  refine perform_wp fun u a v hu hinv step _ => ?_
  obtain ⟨holds, rfl⟩ := step
  obtain ⟨good, hv⟩ := @good_phase t id u launch _ .running _ (fun _ => True) hinv holds
    (hv.kept hu) (.inl ⟨rfl, rfl⟩)
  refine ⟨good, trivial, ?_⟩
  rw [onResult_ok, Prog.wp_bind]
  refine perform_wp fun u a v hu hinv step _ => ?_
  obtain ⟨holds, rfl⟩ := step
  obtain ⟨good, hv⟩ := @good_phase t id u launch _ .ended _ (fun _ => True) hinv holds
    (hv.kept hu) (.inr ⟨rfl, rfl⟩)
  refine ⟨good, trivial, ?_⟩
  rw [onResult_ok, Prog.wp_bind]
  refine @set_wp sha256 t _ id launch _ _ (fun _ => True) _ _ hv (.inr rfl) (by simp)
    (fun hp => by cases hp) fun v hv => ?_
  rw [onResult_ok, Prog.wp_bind]
  refine perform_wp fun u a v hu hinv step _ => ?_
  obtain ⟨-, rfl, -⟩ := step
  refine ⟨good_same hinv rfl rfl (.inl rfl), trivial, ?_⟩
  rw [onResult_ok]
  split
  · exact @set_wp sha256 t _ id launch _ _ (fun _ => True) _ _ (hv.kept hu) (.inr rfl) (by simp)
      (fun hp => by cases hp) fun _ _ => trivial
  · trivial

end wrappers

/-! ### What a launch knows -/

/-- The launch has listed the windows for the slot. -/
structure Listed (t : Nat) (s : Fin 3) (u : TmuxWorld) : Prop where
  mem : (t, s) ∈ u.listed
  still : ∀ id w, u.windows id = some w → w.home = some s → w.phase ≠ .publishing

/-- No window carries the slot. -/
def Clear (s : Fin 3) (u : TmuxWorld) : Prop :=
  ∀ id w, u.windows id = some w → w.shown.slot ≠ some s

/-- A window that a command of the slot was launched in, if it is still there. -/
structure Placed (id : Nat) (s : Fin 3) (u : TmuxWorld) : Prop where
  old : id < u.next
  home : ∀ w, u.windows id = some w → w.home = some s

/-- What the record of a window says of it from then on. -/
structure Known (r : CommandRecord) (u : TmuxWorld) : Prop where
  placed : Placed r.window r.slot u
  alone : ∀ id w, u.windows id = some w → w.shown.slot = some r.slot → id = r.window
  dead : r.dead = true → ∀ w, u.windows r.window = some w → w.shown.dead = true
  shell : r.state = .shell → ∀ w, u.windows r.window = some w → w.phase = .ended

section knowledge

variable {s : Fin 3} {id : Nat} {u v : TmuxWorld} {r : CommandRecord}

theorem Listed.kept (h : Listed t s u) (evolves : Evolves s u v) (mem : (t, s) ∈ v.listed) :
    Listed t s v := by
  refine ⟨mem, fun id w' hw' hhome => ?_⟩
  obtain ⟨w, hw, drifts⟩ := evolves.drifts id w' hw' hhome
  exact drifts.settled (h.still id w hw (drifts.home ▸ hhome))

/-- A window with the slot had it before. -/
theorem Listed.carried (h : Listed t s u) (evolves : Evolves s u v) (hinv : TmuxInv v)
    {w' : Window} (hw' : v.windows id = some w') (hslot : w'.shown.slot = some s) :
    ∃ w, u.windows id = some w ∧ w.shown.slot = some s := by
  have hhome := (hinv.sound id w' hw').home s hslot
  obtain ⟨w, hw, drifts⟩ := evolves.drifts id w' hw' hhome
  exact ⟨w, hw, drifts.slot (h.still id w hw (drifts.home ▸ hhome)) s hslot⟩

theorem Clear.kept (h : Clear s u) (listed : Listed t s u) (evolves : Evolves s u v)
    (hinv : TmuxInv v) : Clear s v := by
  intro id w' hw' hslot
  obtain ⟨w, hw, hslot⟩ := listed.carried evolves hinv hw' hslot
  exact h id w hw hslot

theorem Placed.kept (h : Placed id s u) (evolves : Evolves s u v) : Placed id s v := by
  refine ⟨Nat.lt_of_lt_of_le h.old evolves.next, fun w' hw' => ?_⟩
  obtain ⟨w, hw, hhome⟩ := evolves.homes id w' h.old hw'
  exact hhome.trans (h.home w hw)

theorem Placed.drifts (h : Placed id s u) (evolves : Evolves s u v) {w' : Window}
    (hw' : v.windows id = some w') : ∃ w, u.windows id = some w ∧ Drifts w w' :=
  evolves.drifts id w' hw' ((h.kept evolves).home w' hw')

theorem Known.kept (h : Known r u) (listed : Listed t r.slot u) (evolves : Evolves r.slot u v)
    (hinv : TmuxInv v) : Known r v := by
  refine ⟨h.placed.kept evolves, ?_, ?_, ?_⟩
  · intro id w' hw' hslot
    obtain ⟨w, hw, hslot⟩ := listed.carried evolves hinv hw' hslot
    exact h.alone id w hw hslot
  · intro hdead w' hw'
    obtain ⟨w, hw, drifts⟩ := h.placed.drifts evolves hw'
    exact drifts.dead (h.dead hdead w hw)
  · intro hshell w' hw'
    obtain ⟨w, hw, drifts⟩ := h.placed.drifts evolves hw'
    exact drifts.ended (h.shell hshell w hw)

/-- The windows that carry a slot, as records. -/
def TmuxWorld.records (u : TmuxWorld) : List CommandRecord :=
  u.shown.filterMap fun (id, x) => x.record id

theorem record_eq_some {x : Shown} (h : x.record id = some r) :
    r.window = id ∧ r.dead = x.dead ∧ x.slot = some r.slot ∧ x.state = some r.state := by
  unfold Shown.record at h
  split at h
  · cases h
    exact ⟨rfl, rfl, ‹_›, ‹_›⟩
  · cases h

theorem record_of_slot {x : Shown} (whole : x.Whole) (h : x.slot = some s) :
    ∃ r, x.record id = some r ∧ r.slot = s := by
  obtain ⟨hlaunch, hdigest, hstate⟩ := whole (by rw [h]; exact Option.some_ne_none s)
  obtain ⟨launch, hlaunch⟩ := Option.ne_none_iff_exists'.mp hlaunch
  obtain ⟨digest, hdigest⟩ := Option.ne_none_iff_exists'.mp hdigest
  obtain ⟨state, hstate⟩ := Option.ne_none_iff_exists'.mp hstate
  refine ⟨⟨id, x.dead, s, launch, digest, state⟩, ?_, rfl⟩
  unfold Shown.record
  rw [h, hlaunch, hdigest, hstate]

theorem mem_shown (h : TmuxInv u) {x : Shown} :
    (id, x) ∈ u.shown ↔ ∃ w, u.windows id = some w ∧ w.shown = x := by
  unfold TmuxWorld.shown
  constructor
  · intro hmem
    obtain ⟨id', -, heq⟩ := List.mem_filterMap.mp hmem
    obtain ⟨w, hw, heq⟩ := Option.map_eq_some_iff.mp heq
    cases heq
    exact ⟨w, hw, rfl⟩
  · rintro ⟨w, hw, rfl⟩
    have old : id < u.next := by
      by_contra hge
      rw [h.fresh id (Nat.le_of_not_lt hge)] at hw
      cases hw
    exact List.mem_filterMap.mpr ⟨id, List.mem_range.mpr old, by rw [hw]; rfl⟩

theorem mem_records (h : TmuxInv u) : r ∈ u.records ↔
    ∃ w, u.windows r.window = some w ∧ w.shown.record r.window = some r := by
  unfold TmuxWorld.records
  constructor
  · intro hmem
    obtain ⟨⟨id, x⟩, hx, hr⟩ := List.mem_filterMap.mp hmem
    obtain ⟨w, hw, rfl⟩ := (mem_shown h).mp hx
    obtain rfl := (record_eq_some hr).1
    exact ⟨w, hw, hr⟩
  · rintro ⟨w, hw, hr⟩
    exact List.mem_filterMap.mpr ⟨(r.window, w.shown), (mem_shown h).mpr ⟨w, hw, rfl⟩, hr⟩

theorem records_nodup (h : TmuxInv u) : (u.records.map CommandRecord.slot).Nodup := by
  have nodup : u.records.Nodup := by
    unfold TmuxWorld.records TmuxWorld.shown
    rw [List.filterMap_filterMap]
    refine List.nodup_range.filterMap fun id id' r hr hr' => ?_
    have number : ∀ {id}, r ∈ ((u.windows id).map fun window => (id, window.shown)).bind
        (fun (id, x) => x.record id) → r.window = id := by
      intro id hr
      obtain ⟨⟨id', x⟩, hx, hr⟩ := Option.bind_eq_some_iff.mp hr
      obtain ⟨w, -, heq⟩ := Option.map_eq_some_iff.mp hx
      cases heq
      exact (record_eq_some hr).1
    exact (number hr).symm.trans (number hr')
  refine List.Nodup.map_on (fun r hr r' hr' same => ?_) nodup
  obtain ⟨w, hw, hrecord⟩ := (mem_records h).mp hr
  obtain ⟨w', hw', hrecord'⟩ := (mem_records h).mp hr'
  have hslot := (record_eq_some hrecord).2.2.1
  have hslot' := (record_eq_some hrecord').2.2.1
  have window := h.unique _ _ w w' r.slot hw hw' hslot (same ▸ hslot')
  rw [window, hw'] at hw
  cases hw
  rw [window, hrecord'] at hrecord
  exact (Option.some.inj hrecord).symm

/-- **The listing is accepted**, and gives the windows that carry a slot. -/
theorem TmuxInv.accepted (h : TmuxInv u) : parseRecords (listing u.shown) = .ok u.records := by
  refine parseRecords_listing ?_ (records_nodup h)
  intro e he
  obtain ⟨w, hw, hx⟩ := (mem_shown h).mp he
  rw [← hx]
  exact (h.sound _ w hw).whole

theorem clear_of_find (h : TmuxInv u)
    (none : u.records.find? (fun r => r.slot = s) = none) : Clear s u := by
  intro id w hw hslot
  obtain ⟨r, hr, hs⟩ := @record_of_slot s id _ (h.sound id w hw).whole hslot
  obtain rfl := (record_eq_some hr).1
  have absent := List.find?_eq_none.mp none r ((mem_records h).mpr ⟨w, hw, hr⟩)
  simp [hs] at absent

theorem known_of_find (h : TmuxInv u) (listed : Listed t s u)
    (found : u.records.find? (fun r => r.slot = s) = some r) : r.slot = s ∧ Known r u := by
  have hs : r.slot = s := by simpa using List.find?_some found
  subst hs
  obtain ⟨w, hw, hr⟩ := (mem_records h).mp (List.mem_of_find?_eq_some found)
  obtain ⟨-, hdead, hslot, hstate⟩ := record_eq_some hr
  have sound := h.sound _ w hw
  have only : ∀ w', u.windows r.window = some w' → w' = w := by
    intro w' hw'
    rw [hw] at hw'
    exact (Option.some.inj hw').symm
  refine ⟨rfl, ⟨?_, fun w' hw' => ?_⟩, fun id w' hw' hslot' => ?_, fun hd w' hw' => ?_,
    fun hshell w' hw' => ?_⟩
  · by_contra hge
    rw [h.fresh _ (Nat.le_of_not_lt hge)] at hw
    cases hw
  · rw [only w' hw']
    exact sound.home _ hslot
  · exact h.unique _ _ w' w r.slot hw' hw hslot' hslot
  · rw [only w' hw', ← hdead]
    exact hd
  · rw [only w' hw']
    -- a window with the slot whose command has begun and not ended shows that it runs
    have published := listed.still _ w hw (sound.home _ hslot)
    by_contra hphase
    have busy : w.phase = .starting ∨ w.phase = .running := by
      cases hp : w.phase with
      | publishing => exact absurd hp published
      | starting => exact .inl rfl
      | running => exact .inr rfl
      | ended => exact absurd hp hphase
    have running := sound.quiet busy (by rw [hslot]; exact Option.some_ne_none _)
    rw [hstate, hshell] at running
    cases running

end knowledge

/-! ### What a launch does -/

/-- A program that needs to know nothing. -/
def Free {α : Type} (sha256 : List UInt8 → Digest) (t : Nat) (l : TmuxLabel) (p : TmuxProg α) :
    Prop := ∀ w, p.wp (tmuxContract sha256 t l) (fun _ _ => True) w

section free

variable {α β : Type} {p : TmuxProg α}

theorem Free.wp {Q : Except CommandError α → TmuxWorld → Prop} (h : Free sha256 t l p)
    (hQ : ∀ r v, Q r v) : p.wp (tmuxContract sha256 t l) Q w :=
  Prog.wp_mono (fun r v _ => hQ r v) (h w)

theorem Free.bind {f : α → TmuxProg β} (h : Free sha256 t l p)
    (hf : ∀ a, Free sha256 t l (f a)) : Free sha256 t l (p >>= f) := by
  intro w
  rw [Prog.wp_bind]
  refine h.wp fun r v => ?_
  cases r with
  | ok a => exact hf a v
  | error e => trivial

theorem Free.pure {a : α} : Free sha256 t l (Pure.pure a) := fun _ => trivial

theorem Free.raise {e : CommandError} : Free sha256 t l (Prog.raise e : TmuxProg α) :=
  fun _ => trivial

theorem Free.ofExcept {r : Except CommandError α} : Free sha256 t l (Prog.ofExcept r) := by
  intro w
  rw [Prog.wp_ofExcept]
  trivial

/-- An operation that changes no window. -/
theorem Free.op {o : TmuxOp} (same : ∀ u a v, o.step t a u v → v.windows = u.windows ∧
    v.next = u.next ∧ (v.listed = u.listed ∨ v.listed = u.listed.filter fun e => e.1 ≠ t))
    (spares : ∀ u, Spares o u) : Free sha256 t l (perform o) := by
  intro w
  refine perform_wp fun u a v _ hinv step _ => ?_
  obtain ⟨hwindows, hnext, hlisted⟩ := same u a v step
  exact ⟨good_same hinv hwindows hnext hlisted, spares u, trivial⟩

theorem free_receive : Free sha256 t l receive := by
  refine .bind (.op (fun u a v step => ?_) fun _ => trivial) fun r => .ofExcept
  obtain rfl := step.1
  exact ⟨rfl, rfl, .inl rfl⟩

theorem free_ensureWorkspace : Free sha256 t l ensureWorkspace := by
  refine .bind (.op (fun u a v step => ?_) fun _ => trivial) fun r => .ofExcept
  obtain rfl : v = u := step
  exact ⟨rfl, rfl, .inl rfl⟩

theorem free_awaitReady {launch : Launch} {window : Nat} {created : Bool} {attempts : Nat} :
    Free sha256 t l (awaitReady launch window created attempts) := by
  induction attempts with
  | zero =>
    unfold awaitReady
    split
    · refine .bind (fun w => ?_) fun _ => .raise
      refine perform_wp fun u a v _ hinv step calm => ?_
      obtain rfl : v = u.put window none := step
      exact ⟨good_remove hinv, calm, trivial⟩
    · exact .raise
  | succ attempts ih =>
    unfold awaitReady
    refine .bind (.op (fun u a v step => ?_) fun _ => trivial) fun shown => ?_
    · obtain rfl := step.1
      exact ⟨rfl, rfl, .inl rfl⟩
    · split
      · exact .pure
      · exact ih

theorem free_started {window : Nat} : Free sha256 t l (started window) := by
  refine free_receive.bind fun _ => free_ensureWorkspace.bind fun terminals => ?_
  split
  · exact .pure
  · exact .raise

end free

section launches

variable {slot : Int} {command : String} {launchId : List Char} {launch : Launch}
variable {r : CommandRecord} {s : Fin 3}

/-- The contract of a launch. -/
abbrev callContract (sha256 : List UInt8 → Digest) (t : Nat) (slot : Int) (command : String)
    (launchId : List Char) : Contract TmuxSig TmuxWorld :=
  tmuxContract sha256 t (.call slot command launchId)

/-- **A launch opens a window** once no window carries its slot. -/
theorem start_new_wp (listed : Listed t launch.slot w) (clear : Clear launch.slot w) :
    (start launch none).wp (callContract sha256 t slot command launchId) (fun _ _ => True) w := by
  unfold start
  rw [Prog.wp_bind]
  unfold startWrapper
  rw [Prog.wp_bind]
  refine perform_wp fun u a v hu hinv step _ => ?_
  obtain ⟨mem, evolves⟩ := hu launch.slot listed.mem
  have clear := clear.kept listed evolves hinv
  rcases step with ⟨rfl, rfl⟩ | ⟨rfl, rfl⟩
  · refine ⟨?_, trivial, ?_⟩
    · refine @good_launch t u.next launch.slot u _ (Window.launch bare launch) hinv rfl
        (Nat.lt_succ_self _) (Nat.le_succ _) rfl mem ?_ rfl rfl ?_ ?_ ?_
      · refine ⟨fun hne => absurd rfl hne, fun s hs => ?_, fun hp => ?_, fun hd => ?_⟩
        · cases hs
        · rcases hp with hp | hp <;> cases hp
        · cases hd
      · intro s hs
        cases hs
      · intro id x hx hs
        exact absurd hs (clear id x hx)
      · intro hlt
        exact absurd hlt (Nat.lt_irrefl _)
    · rw [onResult_ok]
      refine (free_awaitReady.bind fun _ => .pure).wp fun r v => ?_
      cases r with
      | ok window => exact free_started v
      | error e => trivial
  · exact ⟨good_same hinv rfl rfl (.inl rfl), trivial, trivial⟩

/-- **A launch takes over a window** whose command is over. -/
theorem start_respawn_wp (listed : Listed t launch.slot w) (known : Known r w)
    (hslot : r.slot = launch.slot) (shell : r.state = .shell) :
    (start launch (some r.window)).wp (callContract sha256 t slot command launchId)
      (fun _ _ => True) w := by
  rw [← hslot] at listed
  unfold start
  rw [Prog.wp_bind]
  unfold startWrapper
  rw [Prog.wp_bind]
  refine perform_wp fun u a v hu hinv step _ => ?_
  obtain ⟨mem, evolves⟩ := hu r.slot listed.mem
  have known := known.kept listed evolves hinv
  have spares : Spares (.respawn r.window launch) u := by
    intro x hx hp
    rw [known.shell shell x hx] at hp
    cases hp
  rcases step with ⟨rfl, x, hx, rfl⟩ | ⟨rfl, rfl⟩
  · have home := known.placed.home x hx
    have sound := hinv.sound _ x hx
    have carried : ∀ s, x.shown.slot = some s → s = r.slot := by
      intro s hs
      exact Option.some.inj ((sound.home s hs).symm.trans home)
    refine ⟨?_, spares, ?_⟩
    · refine @good_launch t r.window r.slot u _ (Window.launch x.shown launch) hinv rfl
        known.placed.old (Nat.le_refl _) rfl mem ?_ (congrArg some hslot.symm) rfl carried
        known.alone fun _ => ⟨x, hx, home⟩
      refine ⟨sound.whole, fun s hs => ?_, fun hp => ?_, fun hd => ?_⟩
      · rw [carried s hs]
        exact congrArg some hslot.symm
      · rcases hp with hp | hp <;> cases hp
      · cases hd
    · rw [onResult_ok]
      refine Free.wp (p := _) ?_ fun r v => ?_
      · refine .bind .pure fun _ => free_awaitReady.bind fun _ => .pure
      cases r with
      | ok window => exact free_started v
      | error e => trivial
  · exact ⟨good_same hinv rfl rfl (.inl rfl), spares, trivial⟩

theorem receive_wp {Q : Except CommandError Unit → TmuxWorld → Prop}
    (ok : ∀ v, Relies t l w v → TmuxInv v → Q (.ok ()) v) (error : ∀ e v, Q (.error e) v) :
    receive.wp (tmuxContract sha256 t l) Q w := by
  unfold receive
  rw [Prog.wp_bind]
  refine perform_wp fun u a v hu hinv step _ => ?_
  obtain rfl := step.1
  refine ⟨good_same hinv rfl rfl (.inl rfl), trivial, ?_⟩
  rw [onResult_ok, Prog.wp_ofExcept]
  cases a with
  | ok _ => exact ok v hu hinv
  | error e => exact error e v

/-- What is known to a launch when no window carries its slot any more. -/
structure Cleared (t : Nat) (s : Fin 3) (u : TmuxWorld) : Prop where
  listed : Listed t s u
  clear : Clear s u

theorem Cleared.kept {v : TmuxWorld} (h : Cleared t s w)
    (hu : Relies t (.call slot command launchId) w v) (hinv : TmuxInv v) : Cleared t s v := by
  obtain ⟨mem, evolves⟩ := hu s h.listed.mem
  exact ⟨h.listed.kept evolves mem, h.clear.kept h.listed evolves hinv⟩

/-- A window that is dead is killed. -/
theorem killWindow_wp {Q : Except CommandError Unit → TmuxWorld → Prop}
    (listed : Listed t r.slot w) (known : Known r w) (dead : r.dead = true)
    (ok : ∀ v, Cleared t r.slot v → Q (.ok ()) v) (error : ∀ e v, Q (.error e) v) :
    (killWindow r.window).wp (callContract sha256 t slot command launchId) Q w := by
  unfold killWindow
  rw [Prog.wp_bind]
  refine perform_wp fun u a v hu hinv step _ => ?_
  obtain ⟨mem, evolves⟩ := hu r.slot listed.mem
  have known := known.kept listed evolves hinv
  have spares : Spares (.kill r.window) u := by
    intro x hx hp
    rw [(hinv.sound _ x hx).dead (known.dead dead x hx)] at hp
    cases hp
  rcases step with ⟨rfl, -, rfl⟩ | ⟨rfl, rfl⟩
  · have cleared : Cleared t r.slot (u.put r.window none) := by
      refine ⟨⟨mem, fun id x hx hhome => ?_⟩, fun id x hx hs => ?_⟩
      · rcases windows_put rfl hx with ⟨-, heq⟩ | ⟨-, hx⟩
        · cases heq
        · exact (listed.kept evolves mem).still id x hx hhome
      · rcases windows_put rfl hx with ⟨-, heq⟩ | ⟨hne, hx⟩
        · cases heq
        · exact hne (known.alone id x hx hs)
    refine ⟨good_remove hinv, spares, ?_⟩
    rw [onResult_ok, Prog.wp_bind]
    exact receive_wp (fun v hu hinv => ok v (cleared.kept hu hinv)) error
  · exact ⟨good_same hinv rfl rfl (.inl rfl), spares, error _ _⟩

/-- The window that a launch takes the identity off, one option after the other. -/
theorem unset_wp {option : CommandOption} {id : Nat}
    {Q : Except CommandError Unit → TmuxWorld → Prop} (listed : Listed t s w)
    (placed : Placed id s w)
    (alone : ∀ u, Evolves s w u → TmuxInv u → ∀ id' x, u.windows id' = some x →
      x.shown.slot = some s → option = .slot ∧ id' = id)
    (h : ∀ v, Cleared t s v → Placed id s v → Q (.ok ()) v) :
    (perform (.unset id option)).wp (callContract sha256 t slot command launchId) Q w := by
  refine perform_wp fun u a v hu hinv step _ => ?_
  obtain rfl : v = u.modify id fun w => w.clear option := step
  obtain ⟨mem, evolves⟩ := hu s listed.mem
  have listed := listed.kept evolves mem
  have placed := placed.kept evolves
  have alone := alone u evolves hinv
  have settled : ∀ x, u.windows id = some x → x.phase ≠ .publishing ∧
      (option = .slot ∨ x.shown.slot = none) := by
    intro x hx
    have home := placed.home x hx
    refine ⟨listed.still id x hx home, ?_⟩
    cases hs : x.shown.slot with
    | none => exact .inr rfl
    | some s' =>
      obtain rfl : s = s' := Option.some.inj (home.symm.trans ((hinv.sound id x hx).home s' hs))
      exact .inl (alone id x hx hs).1
  -- what a window is after the option is taken off the one
  have after : ∀ {id' x'}, (u.modify id fun w => w.clear option).windows id' = some x' →
      ∃ x, u.windows id' = some x ∧ x'.home = x.home ∧ x'.phase = x.phase ∧
        (x'.shown.slot = some s → x.shown.slot = some s ∧ (id' = id → option ≠ .slot)) := by
    intro id' x' hx'
    rcases windows_put rfl hx' with ⟨rfl, heq⟩ | ⟨hne, hx⟩
    · obtain ⟨x, hx, rfl⟩ := Option.map_eq_some_iff.mp heq
      refine ⟨x, hx, rfl, rfl, fun hs => ?_⟩
      cases option with
      | slot => cases hs
      | launch | digest | state => exact ⟨hs, fun _ => by decide⟩
    · exact ⟨x', hx, rfl, rfl, fun hs => ⟨hs, fun heq => absurd heq hne⟩⟩
  refine ⟨good_unset hinv settled, trivial, ?_⟩
  refine h _ ⟨⟨mem, fun id' x' hx' hhome hp => ?_⟩, fun id' x' hx' hs => ?_⟩ ⟨placed.old, ?_⟩
  · obtain ⟨x, hx, home, phase, -⟩ := after hx'
    exact listed.still id' x hx (home ▸ hhome) (phase ▸ hp)
  · obtain ⟨x, hx, -, -, slot⟩ := after hx'
    obtain ⟨hs, hoption⟩ := slot hs
    obtain ⟨heq, hid⟩ := alone id' x hx hs
    exact hoption hid heq
  · intro x' hx'
    obtain ⟨x, hx, home, -⟩ := after hx'
    exact home.trans (placed.home x hx)

/-- **A window is detached**, whatever its command does. -/
theorem detach_wp {Q : Except CommandError Unit → TmuxWorld → Prop}
    (listed : Listed t r.slot w) (known : Known r w)
    (ok : ∀ v, Cleared t r.slot v → Q (.ok ()) v) (error : ∀ e v, Q (.error e) v) :
    (detach r.window).wp (callContract sha256 t slot command launchId) Q w := by
  have none : ∀ {option : CommandOption} {v : TmuxWorld}, Cleared t r.slot v →
      ∀ u, Evolves r.slot v u → TmuxInv u → ∀ id' x, u.windows id' = some x →
        x.shown.slot = some r.slot → option = .slot ∧ id' = r.window := by
    intro option v cleared u evolves hinv id' x hx hs
    exact absurd hs (cleared.clear.kept cleared.listed evolves hinv id' x hx)
  unfold detach
  rw [Prog.wp_bind]
  refine unset_wp listed known.placed (fun u evolves hinv id' x hx hs => ?_)
    fun v cleared placed => ?_
  · exact ⟨rfl, (known.kept listed evolves hinv).alone id' x hx hs⟩
  rw [onResult_ok, Prog.wp_bind]
  refine unset_wp cleared.listed placed (none cleared) fun v cleared placed => ?_
  rw [onResult_ok, Prog.wp_bind]
  refine unset_wp cleared.listed placed (none cleared) fun v cleared placed => ?_
  rw [onResult_ok, Prog.wp_bind]
  refine unset_wp cleared.listed placed (none cleared) fun v cleared placed => ?_
  rw [onResult_ok, Prog.wp_bind]
  refine perform_wp fun u a v hu hinv step _ => ?_
  obtain rfl := step.1
  refine ⟨good_same hinv rfl rfl (.inl rfl), trivial, ?_⟩
  have cleared := cleared.kept hu hinv
  rw [onResult_ok, Prog.wp_bind]
  cases a with
  | false => exact error _ _
  | true =>
    show (pure () : TmuxProg Unit).wp _ _ _
    rw [Prog.wp_pure, onResult_ok]
    exact receive_wp (fun v hu hinv => ok v (cleared.kept hu hinv)) error

/-- **What becomes of the window with the slot**, from what its record says. -/
theorem place_wp {terminals : List Nat} {existing : Option CommandRecord}
    (listed : Listed t launch.slot w) (none : existing = none → Clear launch.slot w)
    (some : ∀ r, existing = some r → r.slot = launch.slot ∧ Known r w) :
    (place launch terminals existing).wp (callContract sha256 t slot command launchId)
      (fun _ _ => True) w := by
  cases existing with
  | none => exact start_new_wp listed (none rfl)
  | some r =>
    obtain ⟨hslot, known⟩ := some r rfl
    have listed' : Listed t r.slot w := by
      rw [hslot]
      exact listed
    have opens : ∀ v, Cleared t r.slot v → (start launch Option.none).wp
        (callContract sha256 t slot command launchId) (fun _ _ => True) v := by
      intro v cleared
      rw [hslot] at cleared
      exact start_new_wp cleared.listed cleared.clear
    unfold place
    dsimp only
    split
    · trivial
    split
    · split
      · trivial
      · trivial
    split
    · split
      · rename_i hdead
        rw [Prog.wp_bind]
        exact killWindow_wp listed' known hdead opens fun _ _ => trivial
      · rw [Prog.wp_bind]
        exact detach_wp listed' known opens fun _ _ => trivial
    split
    · trivial
    split
    · rename_i hdead
      rw [Prog.wp_bind]
      exact killWindow_wp listed' known hdead opens fun _ _ => trivial
    · rename_i hbusy hdead
      have shell : r.state = .shell := by
        cases hstate : r.state with
        | running => exact absurd ⟨hdead, .inl hstate⟩ hbusy
        | settling => exact absurd ⟨hdead, .inr hstate⟩ hbusy
        | shell => rfl
      exact start_respawn_wp listed known hslot shell

/-- The windows are listed, when nobody else has listed them for the slot or starts a wrapper for
    it. -/
theorem listRecords_wp {Q : Except CommandError (List CommandRecord) → TmuxWorld → Prop}
    (ok : ∀ records v, Listed t s v →
      (records.find? (fun r => r.slot = s) = none → Clear s v) →
      (∀ r, records.find? (fun r => r.slot = s) = some r → r.slot = s ∧ Known r v) →
      Q (.ok records) v)
    (error : ∀ e v, Q (.error e) v) :
    (listRecords s).wp (callContract sha256 t slot command launchId) Q w := by
  unfold listRecords
  rw [Prog.wp_bind]
  refine perform_wp fun u a v _ hinv step calm => ?_
  obtain ⟨nobody, quiet⟩ := calm
  rcases step with ⟨rfl, rfl⟩ | ⟨e, rfl, rfl⟩
  · have listed : Listed t s (u.list t s) := ⟨List.mem_cons_self, quiet⟩
    have hinv' : TmuxInv (u.list t s) := by
      refine ⟨hinv.fresh, hinv.sound, hinv.unique, hinv.pending, ?_, ?_⟩
      · intro t₁ t₂ s' h₁ h₂
        rcases List.mem_cons.mp h₁ with heq₁ | h₁
        · cases heq₁
          rcases List.mem_cons.mp h₂ with heq₂ | h₂
          · cases heq₂
            rfl
          · exact absurd rfl (nobody _ h₂)
        · rcases List.mem_cons.mp h₂ with heq₂ | h₂
          · cases heq₂
            exact absurd rfl (nobody _ h₁)
          · exact hinv.lone t₁ t₂ s' h₁ h₂
      · intro t' s' ht
        rcases List.mem_cons.mp ht with heq | ht
        · cases heq
          exact quiet
        · exact hinv.still t' s' ht
    have leaves : Leaves t u (u.list t s) :=
      .of_windows rfl rfl fun e he _ => List.mem_cons_of_mem _ he
    refine ⟨⟨hinv', leaves⟩, trivial, ?_⟩
    rw [onResult_ok, Prog.wp_bind, Prog.wp_ofExcept, onResult_ok, Prog.wp_bind]
    refine receive_wp (fun v hu hinv'' => ?_) error
    obtain ⟨mem, evolves⟩ := hu s listed.mem
    have accepted : parseRecords (listing u.shown) = .ok u.records := hinv.accepted
    rw [onResult_ok, accepted]
    refine ok u.records v (listed.kept evolves mem) (fun none => ?_) fun r found => ?_
    · exact (clear_of_find hinv' none).kept listed evolves hinv''
    · obtain ⟨hslot, known⟩ := known_of_find hinv' listed found
      subst hslot
      exact ⟨rfl, known.kept listed evolves hinv''⟩
  · refine ⟨good_same hinv rfl rfl (.inl rfl), trivial, ?_⟩
    rw [onResult_ok, Prog.wp_bind, Prog.wp_ofExcept]
    exact error e v

/-- **A launch.** -/
theorem runWorkspaceCommand_wp :
    (runWorkspaceCommand sha256 slot command launchId).wp
      (callContract sha256 t slot command launchId) (fun _ _ => True) w := by
  have locks : Free sha256 t (.call slot command launchId) (perform .lock) := by
    refine .op (fun u a v step => ?_) fun _ => trivial
    obtain ⟨-, rfl⟩ := step
    exact ⟨rfl, rfl, .inl rfl⟩
  have leave : Free sha256 t (.call slot command launchId) (perform .leave) := by
    refine .op (fun u a v step => ?_) fun _ => trivial
    obtain rfl : v = _ := step
    exact ⟨rfl, rfl, .inr rfl⟩
  have locked : Free sha256 t (.call slot command launchId)
      (runWorkspaceCommandLocked sha256 slot command launchId) := by
    unfold runWorkspaceCommandLocked
    refine Free.ofExcept.bind fun launch => free_ensureWorkspace.bind fun terminals => ?_
    intro w
    rw [Prog.wp_bind]
    refine listRecords_wp (fun records v listed none some => ?_) fun _ _ => trivial
    exact place_wp listed none some
  have whole : Free sha256 t (.call slot command launchId)
      (runWorkspaceCommand sha256 slot command launchId) := by
    unfold runWorkspaceCommand Prog.finally_
    refine locks.bind fun _ => ?_
    intro w
    rw [Prog.wp_bind, Prog.wp_attempt]
    refine locked.wp fun r v => ?_
    exact (leave.bind fun _ => Free.ofExcept) v
  exact whole w

end launches

/-- What happens by itself. -/
theorem event_wp {e : TmuxEvent} :
    (TmuxLabel.body sha256 (.event e)).wp (tmuxContract sha256 t (.event e)) (fun _ _ => True)
      w := by
  cases e with
  | cut thread =>
    refine perform_wp fun u a v _ hinv step _ => ?_
    obtain ⟨-, rfl⟩ := step
    exact ⟨good_same hinv rfl rfl (.inl rfl), trivial, trivial⟩
  | close id =>
    refine perform_wp fun u a v _ hinv step _ => ?_
    obtain rfl : v = u.put id none := step
    exact ⟨good_remove hinv, trivial, trivial⟩
  | die id =>
    refine perform_wp fun u a v _ hinv step _ => ?_
    obtain rfl : v = u.modify id Window.die := step
    exact ⟨good_die hinv, trivial, trivial⟩
  | open_ =>
    refine perform_wp fun u a v _ hinv step _ => ?_
    obtain rfl : v = u.create ⟨bare, none⟩ := step
    exact ⟨good_open hinv, trivial, trivial⟩

end programs

/-! ## 7. Every run -/

theorem TmuxInv.init : TmuxInv .init := by
  refine ⟨fun _ _ => rfl, ?_, ?_, ?_, ?_, ?_⟩
  · intro id w h
    cases h
  · intro id id' w w' s h
    cases h
  · intro id id' w w' s h
    cases h
  · intro t t' s h
    cases h
  · intro t s h
    cases h

theorem tmux_proved {sha256 : List UInt8 → Digest} : (tmuxOutline sha256).Proved .init := by
  intro t l u v _ _ started
  cases l with
  | call slot command launchId => exact runWorkspaceCommand_wp
  | event e => exact event_wp
  | wrapper id launch =>
    obtain ⟨⟨w, hw, hdead, hprocess⟩, rfl⟩ := started
    refine wrapper_wp ?_
    unfold TmuxWorld.modify
    rw [hw, Option.map_some]
    refine .of_put ⟨?_, ?_, fun _ => trivial⟩
    · unfold Window.hold
      rw [hprocess]
      rfl
    · unfold Window.hold Window.phase
      rw [hprocess]
      rfl

/-- **Launches are safe where they are calm**: in every state every listing of the windows is
    accepted and no two windows carry one slot, and no step of a launch kills or takes over a window
    whose command runs. -/
theorem launches_safe (sha256 : List UInt8 → Digest) :
    (∀ es p, (calmSystem sha256).Runs .init es p →
      parseRecords (listing p.world.shown) = .ok p.world.records ∧
        ∀ id id' w w' s, p.world.windows id = some w → p.world.windows id' = some w' →
          w.shown.slot = some s → w'.shown.slot = some s → id = id') ∧
    ∀ es p t l o a p', (calmSystem sha256).Runs .init es p →
      Pool.Step (calmSystem sha256) p (.act t l o a) p' → Spares o p.world := by
  refine ⟨?_, ?_⟩
  · intro es p run
    have inv : TmuxInv p.world := Outline.inv_of_run tmux_proved .init run
    exact ⟨inv.accepted, inv.unique⟩
  · intro es p t l o a p' run step
    exact Outline.ok_of_run tmux_proved .init run step

/-! ## 8. Two windows with one slot -/

def holdsNow (u : TmuxWorld) (id t : Nat) : Bool :=
  match u.windows id with
  | some w => w.holder = some t && !w.shown.dead
  | none => false

theorem holds_of_now {u : TmuxWorld} {id t : Nat} (h : holdsNow u id t = true) : Holds u id t := by
  unfold holdsNow at h
  split at h
  · rename_i w hw
    simp only [Bool.and_eq_true, decide_eq_true_eq, Bool.not_eq_true'] at h
    exact ⟨w, hw, h.1, h.2⟩
  · cases h

/-- The commands of tmux that a launch and a wrapper perform, where they succeed. -/
def TmuxOp.succeed (t : Nat) : (o : TmuxOp) → TmuxWorld → Option (o.Ans × TmuxWorld)
  | .lock, u => if u.lock = none then some ((), { u with lock := some t }) else none
  | .ensureWorkspace, u => some (.ok (List.range u.next), u)
  | .list slot, u => some (.ok (listing u.shown), u.list t slot)
  | .newWindow l, u => some (some u.next, (u.create (Window.launch bare l)).settle t)
  | .receive, u =>
    some (if t ∈ u.cut then .error (.terminal "Connection lost") else .ok (), u)
  | .set id setting, u =>
    if holdsNow u id t then some ((), u.modify id fun w => w.set setting) else none
  | .cut thread, u =>
    if u.lock = some thread then some ((), { u with lock := none, cut := thread :: u.cut })
    else none
  | _, _ => none

theorem TmuxOp.succeed_sound {t : Nat} {o : TmuxOp} {a : o.Ans} {u v : TmuxWorld}
    (h : o.succeed t u = some (a, v)) : o.step t a u v := by
  cases o with
  | lock =>
    dsimp only [TmuxOp.succeed] at h
    split at h
    · cases h
      exact ⟨‹_›, rfl⟩
    · cases h
  | ensureWorkspace =>
    cases h
    rfl
  | list slot =>
    cases h
    exact .inl ⟨rfl, rfl⟩
  | newWindow l =>
    cases h
    exact .inl ⟨rfl, rfl⟩
  | receive =>
    cases h
    refine ⟨rfl, ?_⟩
    split
    · exact ⟨_, rfl⟩
    · rfl
  | set id setting =>
    dsimp only [TmuxOp.succeed] at h
    split at h
    · cases h
      exact ⟨holds_of_now ‹_›, rfl⟩
    · cases h
  | cut thread =>
    dsimp only [TmuxOp.succeed] at h
    split at h
    · cases h
      exact ⟨‹_›, rfl⟩
    · cases h
  | kill _ | unset _ _ | rename _ | respawn _ _ | poll _ | giveUp _ | leave | begin _ | finish _
  | showOption _ | close _ | die _ | open_ => cases h

/-- A wrapper that is started where it was launched. -/
def TmuxLabel.startNow (t : Nat) (l : TmuxLabel) (u : TmuxWorld) : Option TmuxWorld :=
  match l with
  | .wrapper id launch =>
    match u.windows id with
    | some w =>
      if w.shown.dead = false ∧ w.process = some ⟨launch, none, .publishing⟩ then
        some (u.modify id fun w => w.hold t)
      else none
    | none => none
  | _ => some u

theorem TmuxLabel.startNow_sound {t : Nat} {l : TmuxLabel} {u v : TmuxWorld}
    (h : l.startNow t u = some v) : l.started t u v := by
  cases l with
  | call slot command launchId =>
    cases h
    rfl
  | event e =>
    cases h
    rfl
  | wrapper id launch =>
    dsimp only [TmuxLabel.startNow] at h
    split at h
    · rename_i w hw
      split at h
      · rename_i fits
        cases h
        exact ⟨⟨w, hw, fits⟩, rfl⟩
      · cases h
    · cases h

def tmuxPlayer (sha256 : List UInt8 → Digest) : Player (tmuxSystem sha256) Unit where
  start := TmuxLabel.startNow
  act := fun _ t _ o u => o.succeed t u
  start_sound := TmuxLabel.startNow_sound
  act_sound := TmuxOp.succeed_sound

/-- A digest for every command, in place of the real one. -/
def sameDigest (_ : List UInt8) : Digest := ⟨List.replicate 64 '0', by decide⟩

def firstLaunch : Launch := ⟨0, ⟨List.replicate 32 'a', by decide⟩, sameDigest []⟩

def secondLaunch : Launch := ⟨0, ⟨List.replicate 32 'b', by decide⟩, sameDigest []⟩

/-- The Core is cut off from a launch that has opened its window, and launches the command again
    before the first wrapper has put an option on it. -/
def twoLaunches : List (Move (tmuxSystem sameDigest) Unit) :=
  [.call (.call 0 "make" (List.replicate 32 'a'))] ++ List.replicate 5 (.act 0 ()) ++
    [.call (.event (.cut 0)), .act 1 (), .call (.call 0 "make" (List.replicate 32 'b'))] ++
    List.replicate 5 (.act 2 ()) ++
    [.call (.wrapper 0 firstLaunch), .call (.wrapper 1 secondLaunch)] ++
    List.replicate 4 (.act 3 ()) ++ List.replicate 4 (.act 4 ())

theorem twoLaunches_refused :
    (((tmuxPlayer sameDigest).play (.init .init) twoLaunches).map fun p =>
      (parseRecords (listing p.world.shown)).toOption.isNone) = some true := by
  decide +kernel

/-- **Two windows carry one slot**, and their listing is not accepted. -/
theorem two_windows : ¬ ∀ sha256 es p, (tmuxSystem sha256).Runs .init es p →
    ∃ records, parseRecords (listing p.world.shown) = .ok records := by
  intro h
  obtain ⟨p, hp, refused⟩ := Option.map_eq_some_iff.mp twoLaunches_refused
  obtain ⟨es, run⟩ := (tmuxPlayer sameDigest).play_sound hp
  obtain ⟨records, accepted⟩ := h sameDigest es p run
  rw [accepted] at refused
  cases refused

end Termroom.Ssh.CommandWindows
