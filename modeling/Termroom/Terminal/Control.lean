import Termroom.Conc.Run
import Mathlib.Logic.Function.Basic

/-!
# Who controls a terminal

`TerminalControl` (`terminal_control.py`) keeps, for each terminal, which browser may send input,
which one may resize the grid of its tmux window, and the resize that is under way. A resize is a
plan: it is begun, applied to the terminal, and committed or aborted. While a plan is in flight no
other is begun.

The owners are registered clients, and only one abort ever makes two of them (`owned_iff`). The
first browser of a fresh grid may size it once, and while the grid is pending the right to do so is
not lost (`bootstrap_once`).
-/

set_option autoImplicit false

namespace Termroom.Terminal

open Conc

/-! ## 1. The state of a terminal -/

structure TerminalResizePlan where
  terminalId : String
  clientId : String
  rows : Int
  cols : Int
  revision : Nat
  token : String
  bootstrap : Bool
  apply : Bool
  deriving DecidableEq, Repr

/-- What the maps of a `TerminalControl` hold for one terminal. -/
structure Grid where
  controller : Option String := none
  controlRevision : Nat := 0
  clients : List String := []
  inputOwner : Option String := none
  bootstrapPending : Bool := false
  bootstrapOwner : Option String := none
  inputRevision : Nat := 0
  appliedResize : Option (String × Int × Int) := none
  resizePlan : Option TerminalResizePlan := none
  bootstrapApplied : Bool := false
  deriving DecidableEq, Repr

structure TerminalControl where
  grids : String → Grid
  appliedPlanTokens : List String

namespace Grid

/-- A terminal nobody has opened. -/
def empty : Grid where

def register (g : Grid) (clientId : String) : Grid :=
  { g with
    controller := if g.clients = [] then some clientId else g.controller
    controlRevision := if g.clients = [] then g.controlRevision + 1 else g.controlRevision
    clients := g.clients ++ [clientId]
    bootstrapOwner :=
      if g.bootstrapPending ∧ g.inputOwner = none ∧ g.bootstrapOwner = none ∧ g.resizePlan = none
      then some clientId
      else g.bootstrapOwner }

def claimControl (g : Grid) (clientId : String) : Grid :=
  if clientId ∉ g.clients then g
  else if g.controller ≠ some clientId then
    { g with controller := some clientId, controlRevision := g.controlRevision + 1,
             inputOwner := none }
  else g

def markGridFresh (g : Grid) (clientId : String) : Grid :=
  { g with
    bootstrapPending := true
    bootstrapOwner :=
      if clientId ≠ "" ∧ clientId ∈ g.clients ∧ g.inputOwner = none ∧ g.bootstrapOwner = none
      then some clientId
      else g.bootstrapOwner }

def markInput (g : Grid) (clientId : String) : Grid :=
  if clientId ∈ g.clients then
    { g with inputOwner := some clientId, bootstrapPending := false, bootstrapOwner := none,
             inputRevision := g.inputRevision + 1 }
  else g

def markGridExisting (g : Grid) : Grid :=
  { g with bootstrapPending := false, bootstrapOwner := none }

/-- `_resize_owner`. -/
def resizeOwner (g : Grid) : Option String :=
  if g.clients = [] then none
  else
    match g.inputOwner.filter (· ∈ g.clients) with
    | some owner => some owner
    | none => g.bootstrapOwner.filter fun owner => owner ∈ g.clients && !g.bootstrapApplied

/-- The plan that `begin_resize` makes, under the token it draws. -/
def beginResize (g : Grid) (terminalId clientId : String) (rows cols : Int) (token : String) :
    Option TerminalResizePlan :=
  if g.resizeOwner ≠ some clientId ∨ g.resizePlan ≠ none then none
  else some {
    terminalId, clientId, rows, cols
    revision := g.inputRevision
    token
    bootstrap := g.bootstrapOwner = some clientId
    apply := g.appliedResize ≠ some (clientId, rows, cols) }

/-- `_plan_current`. -/
def planCurrent (g : Grid) (plan : TerminalResizePlan) : Bool :=
  let owner := if plan.bootstrap then g.bootstrapOwner else g.inputOwner
  g.resizePlan = some plan && decide (plan.clientId ∈ g.clients) && owner = some plan.clientId &&
    g.inputRevision = plan.revision

/-- `resize_applied`, for the plan in flight. -/
def resizeApplied (g : Grid) (plan : TerminalResizePlan) : Grid :=
  if plan.bootstrap then { g with bootstrapPending := false, bootstrapApplied := true } else g

/-- `commit_resize` goes through. -/
def commits (g : Grid) (plan : TerminalResizePlan) (applied : Bool) : Bool :=
  g.planCurrent plan && (!plan.apply || applied) && (!plan.bootstrap || g.bootstrapApplied)

def commitResize (g : Grid) (plan : TerminalResizePlan) : Grid :=
  { g with
    appliedResize := some (plan.clientId, plan.rows, plan.cols)
    resizePlan := none
    bootstrapPending := if plan.bootstrap then false else g.bootstrapPending
    bootstrapOwner := if plan.bootstrap then none else g.bootstrapOwner
    bootstrapApplied := if plan.bootstrap then false else g.bootstrapApplied }

/-- `abort_resize`, for the plan in flight. -/
def abortResize (g : Grid) (plan : TerminalResizePlan) : Grid :=
  if plan.bootstrap ∧ g.bootstrapApplied then
    { g with resizePlan := none, bootstrapOwner := none, bootstrapApplied := false }
  else if g.bootstrapPending ∧ g.bootstrapOwner = none then
    { g with resizePlan := none, bootstrapOwner := g.clients.head? }
  else { g with resizePlan := none }

def unregister (g : Grid) (clientId : String) : Grid :=
  if g.clients = [] then
    { g with inputOwner := none, bootstrapOwner := none, appliedResize := none }
  else if clientId ∉ g.clients then g
  else
    let clients := g.clients.erase clientId
    { g with
      clients
      controller := if g.controller = some clientId then none else g.controller
      controlRevision :=
        if g.controller = some clientId then g.controlRevision + 1 else g.controlRevision
      inputOwner := if clients = [] ∨ g.inputOwner = some clientId then none else g.inputOwner
      bootstrapOwner :=
        if clients = [] then none
        else if g.bootstrapOwner = some clientId then
          if g.bootstrapPending ∧ g.resizePlan = none then clients.head? else none
        else g.bootstrapOwner
      appliedResize :=
        if clients = [] ∨ g.appliedResize.map Prod.fst = some clientId then none
        else g.appliedResize }

end Grid

namespace TerminalControl

/-- `TerminalControl()`. -/
def new : TerminalControl := ⟨fun _ => .empty, []⟩

/-- Change what the maps hold for one terminal. -/
def onGrid (c : TerminalControl) (terminalId : String) (f : Grid → Grid) : TerminalControl :=
  { c with grids := Function.update c.grids terminalId (f (c.grids terminalId)) }

/-- The plan is the one in flight. -/
def InFlight (c : TerminalControl) (plan : TerminalResizePlan) : Prop :=
  (c.grids plan.terminalId).resizePlan = some plan

instance (c : TerminalControl) (plan : TerminalResizePlan) : Decidable (c.InFlight plan) :=
  inferInstanceAs (Decidable (_ = _))

def beginResize (c : TerminalControl) (terminalId clientId : String) (rows cols : Int)
    (token : String) : TerminalControl × Option TerminalResizePlan :=
  match (c.grids terminalId).beginResize terminalId clientId rows cols token with
  | none => (c, none)
  | some plan => (c.onGrid terminalId fun g => { g with resizePlan := some plan }, some plan)

def resizeApplied (c : TerminalControl) (plan : TerminalResizePlan) : TerminalControl × Bool :=
  if c.InFlight plan then
    let c := { c with appliedPlanTokens := plan.token :: c.appliedPlanTokens }
    let c := c.onGrid plan.terminalId (·.resizeApplied plan)
    (c, (c.grids plan.terminalId).planCurrent plan)
  else (c, false)

def commitResize (c : TerminalControl) (plan : TerminalResizePlan) : TerminalControl × Bool :=
  if (c.grids plan.terminalId).commits plan (plan.token ∈ c.appliedPlanTokens) then
    let c := c.onGrid plan.terminalId (·.commitResize plan)
    ({ c with appliedPlanTokens := c.appliedPlanTokens.filter (· ≠ plan.token) }, true)
  else (c, false)

def abortResize (c : TerminalControl) (plan : TerminalResizePlan) : TerminalControl :=
  if c.InFlight plan then
    let c := { c with appliedPlanTokens := c.appliedPlanTokens.filter (· ≠ plan.token) }
    c.onGrid plan.terminalId (·.abortResize plan)
  else c

end TerminalControl

/-! ## 2. Runs

The lock makes each operation one step, so the clients of all the terminals interleave as a
sequence of operations. `uuid4` is a draw of an id that was not drawn before. -/

inductive Op where
  | register (terminalId clientId : String)
  | claimControl (terminalId clientId : String)
  | markGridFresh (terminalId clientId : String)
  | markInput (terminalId clientId : String)
  | markGridExisting (terminalId : String)
  | beginResize (terminalId clientId : String) (rows cols : Int) (token : String)
  | resizeApplied (plan : TerminalResizePlan)
  | commitResize (plan : TerminalResizePlan)
  | abortResize (plan : TerminalResizePlan)
  | unregister (terminalId clientId : String)
  deriving DecidableEq

def Op.terminalId : Op → String
  | .register t _ | .claimControl t _ | .markGridFresh t _ | .markInput t _
  | .markGridExisting t | .beginResize t _ _ _ _ | .unregister t _ => t
  | .resizeApplied plan | .commitResize plan | .abortResize plan => plan.terminalId

/-- What `uuid4` returned to the operation. -/
def Op.draws : Op → Option String
  | .register _ clientId => some clientId
  | .beginResize _ _ _ _ token => some token
  | _ => none

def TerminalControl.play (c : TerminalControl) : Op → TerminalControl
  | .register t client => c.onGrid t (·.register client)
  | .claimControl t client => c.onGrid t (·.claimControl client)
  | .markGridFresh t client => c.onGrid t (·.markGridFresh client)
  | .markInput t client => c.onGrid t (·.markInput client)
  | .markGridExisting t => c.onGrid t (·.markGridExisting)
  | .beginResize t client rows cols token => (c.beginResize t client rows cols token).1
  | .resizeApplied plan => (c.resizeApplied plan).1
  | .commitResize plan => (c.commitResize plan).1
  | .abortResize plan => c.abortResize plan
  | .unregister t client => c.onGrid t (·.unregister client)

/-- The control with what its operations did outside it. -/
structure World where
  control : TerminalControl
  /-- The ids that `uuid4` returned. -/
  drawn : List String
  /-- The size that the last `resize_applied` gave a terminal, since its grid was last fresh. -/
  shown : String → Option (Int × Int)
  /-- The bootstrap plans applied to a terminal since its grid was last fresh. -/
  bootstraps : String → List TerminalResizePlan

namespace World

def new : World := ⟨.new, [], fun _ => none, fun _ => []⟩

/-- What an operation does to the terminals themselves. A `resize_applied` of a plan that is not
    in flight is refused. -/
def witness (w : World) : Op → World
  | .markGridFresh t _ =>
      { w with shown := Function.update w.shown t none,
               bootstraps := Function.update w.bootstraps t [] }
  | .resizeApplied plan =>
      if w.control.InFlight plan then
        { w with
          shown := Function.update w.shown plan.terminalId (some (plan.rows, plan.cols))
          bootstraps :=
            if plan.bootstrap then
              Function.update w.bootstraps plan.terminalId (plan :: w.bootstraps plan.terminalId)
            else w.bootstraps }
      else w
  | _ => w

def next (w : World) (op : Op) : Option World :=
  let w' := { w.witness op with control := w.control.play op }
  match op.draws with
  | none => some w'
  | some id => if id ∈ w.drawn then none else some { w' with drawn := id :: w.drawn }

end World

abbrev Step (w : World) (op : Op) (w' : World) : Prop := w.next op = some w'

/-! ### What an operation can do to a terminal -/

/-- The ways in which an operation changes the maps of its terminal, while the plans of `tokens`
    are applied. -/
inductive Grid.Moves (tokens : List String) (g : Grid) : Op → Grid → Prop
  | register (t client : String) : Moves tokens g (.register t client) (g.register client)
  | claimControl (t client : String) :
      Moves tokens g (.claimControl t client) (g.claimControl client)
  | markGridFresh (t client : String) :
      Moves tokens g (.markGridFresh t client) (g.markGridFresh client)
  | markInput (t client : String) : Moves tokens g (.markInput t client) (g.markInput client)
  | markGridExisting (t : String) : Moves tokens g (.markGridExisting t) g.markGridExisting
  | beginResize {t client : String} {rows cols : Int} {token : String}
      {plan : TerminalResizePlan} (h : g.beginResize t client rows cols token = some plan) :
      Moves tokens g (.beginResize t client rows cols token) { g with resizePlan := some plan }
  | resizeApplied {plan : TerminalResizePlan} (h : g.resizePlan = some plan) :
      Moves tokens g (.resizeApplied plan) (g.resizeApplied plan)
  | commitResize {plan : TerminalResizePlan} (h : g.commits plan (plan.token ∈ tokens)) :
      Moves tokens g (.commitResize plan) (g.commitResize plan)
  | abortResize {plan : TerminalResizePlan} (h : g.resizePlan = some plan) :
      Moves tokens g (.abortResize plan) (g.abortResize plan)
  | unregister (t client : String) : Moves tokens g (.unregister t client) (g.unregister client)

namespace TerminalControl

variable {c : TerminalControl} {t : String}

@[simp] theorem onGrid_self (f : Grid → Grid) : (c.onGrid t f).grids t = f (c.grids t) := by
  simp [onGrid]

theorem onGrid_elsewhere {s : String} (f : Grid → Grid) (h : s ≠ t) :
    (c.onGrid t f).grids s = c.grids s := by
  simp [onGrid, h]

@[simp] theorem onGrid_tokens (f : Grid → Grid) :
    (c.onGrid t f).appliedPlanTokens = c.appliedPlanTokens := rfl

theorem play_elsewhere {op : Op} (h : t ≠ op.terminalId) : (c.play op).grids t = c.grids t := by
  cases op <;> simp only [Op.terminalId] at h <;> simp only [play]
  case beginResize =>
    simp only [beginResize]
    split
    · rfl
    · rw [onGrid_elsewhere _ h]
  case resizeApplied =>
    simp only [resizeApplied]
    split
    · rw [onGrid_elsewhere _ h]
    · rfl
  case commitResize =>
    simp only [commitResize]
    split
    · exact onGrid_elsewhere (·.commitResize _) h
    · rfl
  case abortResize =>
    simp only [abortResize]
    split
    · rw [onGrid_elsewhere _ h]
    · rfl
  all_goals exact onGrid_elsewhere _ h

theorem play_moves (op : Op) :
    (c.play op).grids op.terminalId = c.grids op.terminalId ∨
      (c.grids op.terminalId).Moves c.appliedPlanTokens op
        ((c.play op).grids op.terminalId) := by
  cases op <;> simp only [Op.terminalId, play, onGrid_self]
  case beginResize =>
    simp only [beginResize]
    split
    · left; rfl
    · rename_i h
      right; simpa using .beginResize h
  case resizeApplied =>
    simp only [resizeApplied]
    split
    · rename_i h
      right; simpa using .resizeApplied h
    · left; rfl
  case commitResize =>
    simp only [commitResize]
    split
    · rename_i h
      right; simpa using .commitResize h
    · left; rfl
  case abortResize =>
    simp only [abortResize]
    split
    · rename_i h
      right; simpa using .abortResize h
    · left; rfl
  all_goals right; constructor

end TerminalControl

/-! ## 3. The owners are clients -/

/-- The controller and the two owners are clients. -/
structure Grid.Registered (g : Grid) : Prop where
  controller : ∀ client, g.controller = some client → client ∈ g.clients
  inputOwner : ∀ client, g.inputOwner = some client → client ∈ g.clients
  bootstrapOwner : ∀ client, g.bootstrapOwner = some client → client ∈ g.clients

/-- They are, and there is one owner at most. -/
structure Grid.Owned (g : Grid) : Prop extends g.Registered where
  single : g.inputOwner = none ∨ g.bootstrapOwner = none

/-- Aborting the plan gives the first client the bootstrap right, though another has the input:
    `register` and `mark_grid_fresh` look for an input owner, and `abort_resize` does not. -/
def Grid.Misgives (g : Grid) (plan : TerminalResizePlan) : Prop :=
  g.resizePlan = some plan ∧ ¬ (plan.bootstrap ∧ g.bootstrapApplied) ∧ g.bootstrapPending ∧
    g.bootstrapOwner = none ∧ g.clients ≠ [] ∧ g.inputOwner ≠ none

def Op.Misgives (c : TerminalControl) : Op → Prop
  | .abortResize plan => (c.grids plan.terminalId).Misgives plan
  | _ => False

instance (g : Grid) (plan : TerminalResizePlan) : Decidable (g.Misgives plan) :=
  inferInstanceAs (Decidable (_ ∧ _))

namespace Grid

variable {g : Grid} {client : String}

theorem Owned.empty : Grid.empty.Owned :=
  ⟨⟨by simp [Grid.empty], by simp [Grid.empty], by simp [Grid.empty]⟩, .inl rfl⟩

theorem Registered.register (h : g.Registered) : (g.register client).Registered := by
  have hmem {owner : String} (h : owner ∈ g.clients) : owner ∈ g.clients ++ [client] := by
    simp [h]
  refine ⟨fun owner howner => ?_, fun owner howner => hmem (h.inputOwner owner howner),
    fun owner howner => ?_⟩
  · simp only [Grid.register] at howner ⊢
    split at howner
    · obtain rfl : client = owner := by simpa using howner
      simp
    · exact hmem (h.controller owner howner)
  · simp only [Grid.register] at howner ⊢
    split at howner
    · obtain rfl : client = owner := by simpa using howner
      simp
    · exact hmem (h.bootstrapOwner owner howner)

theorem Registered.claimControl (h : g.Registered) : (g.claimControl client).Registered := by
  unfold Grid.claimControl
  split
  · exact h
  · rename_i hmem
    split
    · exact ⟨by simpa using hmem, by simp, h.bootstrapOwner⟩
    · exact h

theorem Registered.markGridFresh (h : g.Registered) : (g.markGridFresh client).Registered := by
  refine ⟨h.controller, h.inputOwner, fun owner howner => ?_⟩
  simp only [Grid.markGridFresh] at howner ⊢
  split at howner
  · rename_i fresh
    obtain rfl : client = owner := by simpa using howner
    exact fresh.2.1
  · exact h.bootstrapOwner owner howner

theorem Registered.markInput (h : g.Registered) : (g.markInput client).Registered := by
  unfold Grid.markInput
  split
  · rename_i hmem
    exact ⟨h.controller, by simpa using hmem, by simp⟩
  · exact h

theorem Registered.commitResize {plan : TerminalResizePlan} (h : g.Registered) :
    (g.commitResize plan).Registered := by
  refine ⟨h.controller, h.inputOwner, fun owner howner => ?_⟩
  simp only [Grid.commitResize] at howner ⊢
  split at howner
  · simp at howner
  · exact h.bootstrapOwner owner howner

theorem Registered.abortResize {plan : TerminalResizePlan} (h : g.Registered) :
    (g.abortResize plan).Registered := by
  unfold Grid.abortResize
  split
  · exact ⟨h.controller, h.inputOwner, by simp⟩
  · split
    · exact ⟨h.controller, h.inputOwner, fun owner howner => List.mem_of_mem_head? howner⟩
    · exact ⟨h.controller, h.inputOwner, h.bootstrapOwner⟩

theorem Registered.unregister (h : g.Registered) : (g.unregister client).Registered := by
  unfold Grid.unregister
  split
  · exact ⟨h.controller, by simp, by simp⟩
  · split
    · exact h
    · -- the others stay registered
      have hmem {owner : String} (hne : owner ≠ client) (h : owner ∈ g.clients) :
          owner ∈ g.clients.erase client := (List.mem_erase_of_ne hne).mpr h
      refine ⟨fun owner howner => ?_, fun owner howner => ?_, fun owner howner => ?_⟩
      · simp only at howner
        split at howner
        · simp at howner
        · rename_i hne
          exact hmem (fun heq => hne (heq ▸ howner)) (h.controller owner howner)
      · simp only at howner
        split at howner
        · simp at howner
        · rename_i hne
          exact hmem (fun heq => hne (.inr (heq ▸ howner))) (h.inputOwner owner howner)
      · simp only at howner
        split at howner
        · simp at howner
        · split at howner
          · split at howner
            · exact List.mem_of_mem_head? howner
            · simp at howner
          · rename_i hne
            exact hmem (fun heq => hne (heq ▸ howner)) (h.bootstrapOwner owner howner)

variable {tokens : List String} {op : Op} {g' : Grid}

theorem Registered.moves (h : g.Registered) (moves : g.Moves tokens op g') : g'.Registered := by
  cases moves with
  | register t client => exact h.register
  | claimControl t client => exact h.claimControl
  | markGridFresh t client => exact h.markGridFresh
  | markInput t client => exact h.markInput
  | markGridExisting t =>
    exact ⟨h.controller, h.inputOwner, by simp [Grid.markGridExisting]⟩
  | beginResize found => exact ⟨h.controller, h.inputOwner, h.bootstrapOwner⟩
  | resizeApplied found =>
    unfold Grid.resizeApplied
    split
    · exact ⟨h.controller, h.inputOwner, h.bootstrapOwner⟩
    · exact h
  | commitResize current => exact h.commitResize
  | abortResize found => exact h.abortResize
  | unregister t client => exact h.unregister

/-- An abort alone can make a second owner. -/
theorem Moves.single (moves : g.Moves tokens op g')
    (h : g.inputOwner = none ∨ g.bootstrapOwner = none)
    (fair : ∀ plan, op = .abortResize plan → ¬ g.Misgives plan) :
    g'.inputOwner = none ∨ g'.bootstrapOwner = none := by
  cases moves with
  | register t client =>
    simp only [Grid.register]
    split
    · rename_i fresh
      exact .inl fresh.2.1
    · exact h
  | claimControl t client =>
    unfold Grid.claimControl
    split
    · exact h
    · split
      · exact .inl rfl
      · exact h
  | markGridFresh t client =>
    simp only [Grid.markGridFresh]
    split
    · rename_i fresh
      exact .inl fresh.2.2.1
    · exact h
  | markInput t client =>
    unfold Grid.markInput
    split
    · exact .inr rfl
    · exact h
  | markGridExisting t => exact .inr rfl
  | beginResize found => exact h
  | resizeApplied found =>
    unfold Grid.resizeApplied
    split <;> exact h
  | commitResize current =>
    simp only [Grid.commitResize]
    split
    · exact .inr rfl
    · exact h
  | @abortResize plan found =>
    unfold Grid.abortResize
    split
    · exact .inr rfl
    · rename_i unapplied
      split
      · rename_i pending
        by_cases hclients : g.clients = []
        · right; simp [hclients]
        · left
          by_contra hinput
          exact fair plan rfl ⟨found, unapplied, pending.1, pending.2, hclients, hinput⟩
      · exact h
  | unregister t client =>
    unfold Grid.unregister
    split
    · exact .inl rfl
    · split
      · exact h
      · rcases h with hnone | hnone
        · left; simp [hnone]
        · right; simp [hnone]

/-- After an abort that misgives the right, both owners are set. -/
theorem Misgives.both {plan : TerminalResizePlan} (h : g.Misgives plan) :
    ¬ (g.abortResize plan).Owned := by
  obtain ⟨_, unapplied, hpending, howner, hclients, hinput⟩ := h
  obtain ⟨first, rest, hclients⟩ := List.exists_cons_of_ne_nil hclients
  intro after
  have single := after.single
  simp only [Grid.abortResize, if_neg unapplied, if_pos (And.intro hpending howner),
    hclients] at single
  rcases single with hnone | hnone
  · exact hinput hnone
  · simp at hnone

/-- The revision counts the changes of the controller. -/
def Recounts (g g' : Grid) : Prop :=
  g.controlRevision ≤ g'.controlRevision ∧
    (g'.controller ≠ g.controller → g.controlRevision < g'.controlRevision)

theorem Recounts.same {g' : Grid} (hcontroller : g'.controller = g.controller)
    (hrevision : g'.controlRevision = g.controlRevision) : g.Recounts g' :=
  ⟨by omega, fun hne => absurd hcontroller hne⟩

theorem Recounts.next {g' : Grid} (h : g'.controlRevision = g.controlRevision + 1) :
    g.Recounts g' :=
  ⟨by omega, fun _ => by omega⟩

theorem Moves.recounts (h : g.Moves tokens op g') : g.Recounts g' := by
  cases h with
  | register t client =>
    by_cases hclients : g.clients = []
    · exact .next (by simp [Grid.register, hclients])
    · exact .same (by simp [Grid.register, hclients]) (by simp [Grid.register, hclients])
  | claimControl t client =>
    unfold Grid.claimControl
    split
    · exact .same rfl rfl
    · split
      · exact .next rfl
      · exact .same rfl rfl
  | markGridFresh t client => exact .same rfl rfl
  | markInput t client =>
    unfold Grid.markInput
    split <;> exact .same rfl rfl
  | markGridExisting t => exact .same rfl rfl
  | beginResize h => exact .same rfl rfl
  | resizeApplied h =>
    unfold Grid.resizeApplied
    split <;> exact .same rfl rfl
  | commitResize h => exact .same rfl rfl
  | abortResize h =>
    unfold Grid.abortResize
    split
    · exact .same rfl rfl
    · split <;> exact .same rfl rfl
  | unregister t client =>
    unfold Grid.unregister
    split
    · exact .same rfl rfl
    · split
      · exact .same rfl rfl
      · by_cases hcontroller : g.controller = some client
        · exact .next (by simp [hcontroller])
        · exact .same (by simp [hcontroller]) (by simp [hcontroller])

theorem Owned.moves (h : g.Owned) (moves : g.Moves tokens op g')
    (fair : ∀ plan, op = .abortResize plan → ¬ g.Misgives plan) : g'.Owned :=
  ⟨h.toRegistered.moves moves, moves.single h.single fair⟩

end Grid

/-- Every terminal has owners that are its clients. -/
def TerminalControl.Owned (c : TerminalControl) : Prop := ∀ t, (c.grids t).Owned

/-- What a step does besides drawing an id. -/
theorem World.next_spec {w w' : World} {op : Op} (h : w.next op = some w') :
    w'.control = w.control.play op ∧ w'.shown = (w.witness op).shown ∧
      w'.bootstraps = (w.witness op).bootstraps := by
  simp only [World.next] at h
  split at h
  · obtain rfl := by simpa using h
    exact ⟨rfl, rfl, rfl⟩
  · split at h
    · simp at h
    · obtain rfl := by simpa using h
      exact ⟨rfl, rfl, rfl⟩

theorem World.next_control {w w' : World} {op : Op} (h : w.next op = some w') :
    w'.control = w.control.play op := (w.next_spec h).1

theorem TerminalControl.Owned.play {c : TerminalControl} (h : c.Owned) (op : Op) :
    (c.play op).Owned ↔ ¬ op.Misgives c := by
  constructor
  · intro after misgives
    cases op with
    | abortResize plan =>
      have hfound : c.InFlight plan := misgives.1
      have hafter := after plan.terminalId
      simp only [TerminalControl.play, TerminalControl.abortResize, if_pos hfound,
        TerminalControl.onGrid_self] at hafter
      exact misgives.both hafter
    | _ => exact misgives
  · intro fair t
    by_cases ht : t = op.terminalId
    · subst ht
      rcases c.play_moves op with hstill | hmoves
      · rw [hstill]
        exact h _
      · refine (h _).moves hmoves fun plan hop => ?_
        subst hop
        exact fair
    · rw [TerminalControl.play_elsewhere ht]
      exact h t

theorem TerminalControl.play_recounts (c : TerminalControl) (op : Op) (t : String) :
    (c.grids t).Recounts ((c.play op).grids t) := by
  by_cases ht : t = op.terminalId
  · subst ht
    rcases c.play_moves op with hstill | hmoves
    · rw [hstill]
      exact .same rfl rfl
    · exact hmoves.recounts
  · rw [TerminalControl.play_elsewhere ht]
    exact .same rfl rfl

/-- **Ownership.** The controller, the input owner and the bootstrap owner of every terminal are
    registered on it and no terminal has both owners, in every state of a run, exactly as long as
    no abort gives the bootstrap right away beside an input owner. The revision counts the
    controllers in every run. -/
theorem owned_iff {ops : List Op} {w : World} :
    World.new.control.Owned ∧
    (Run (Guard Step fun w _ w' => w'.control.Owned ∧
        ∀ t, (w.control.grids t).Recounts (w'.control.grids t)) .new ops w ↔
      Run (Guard Step fun w op _ => ¬ op.Misgives w.control) .new ops w) := by
  have start : World.new.control.Owned := fun _ => .empty
  refine ⟨start, ?_, ?_⟩
  · intro run
    -- the state before a step is owned too
    have keep {ops : List Op} {v : World}
        (run : Run (Guard Step fun w _ w' => w'.control.Owned ∧
          ∀ t, (w.control.grids t).Recounts (w'.control.grids t)) .new ops v) :
        v.control.Owned := by
      apply run.invariant ?_ start
      intro _ _ _ g _
      exact g.2.1
    induction run with
    | refl => exact .refl
    | snoc before last ih =>
      refine ih.snoc ⟨last.1, ?_⟩
      have hafter := last.2.1
      rw [World.next_control last.1] at hafter
      exact ((keep before).play _).mp hafter
  · intro run
    have keep {ops : List Op} {v : World}
        (run : Run (Guard Step fun w op _ => ¬ op.Misgives w.control) .new ops v) :
        v.control.Owned := by
      apply run.invariant ?_ start
      intro u op v g h
      rw [World.next_control g.1]
      exact (h.play op).mpr g.2
    induction run with
    | refl => exact .refl
    | snoc before last ih =>
      refine ih.snoc ⟨last.1, ?_⟩
      simp only [World.next_control last.1]
      exact ⟨((keep before).play _).mpr last.2, fun t => TerminalControl.play_recounts _ _ t⟩

/-- The grid is replaced while the browser that has the input sizes it; that resize is given up. -/
def freshAbort : List Op :=
  [.register "terminal" "a", .markInput "terminal" "a",
   .beginResize "terminal" "a" 24 80 "1", .markGridFresh "terminal" "",
   .abortResize ⟨"terminal", "a", 24, 80, 1, "1", false, true⟩]

theorem abort_makes_two_owners :
    ∃ w, Run Step .new freshAbort w ∧
      (w.control.grids "terminal").inputOwner = some "a" ∧
      (w.control.grids "terminal").bootstrapOwner = some "a" ∧ ¬ w.control.Owned := by
  have played : (exec World.next .new freshAbort).isSome ∧
      ∀ w ∈ exec World.next .new freshAbort,
        (w.control.grids "terminal").inputOwner = some "a" ∧
        (w.control.grids "terminal").bootstrapOwner = some "a" := by
    decide +kernel
  obtain ⟨w, hw⟩ := Option.isSome_iff_exists.mp played.1
  obtain ⟨hinput, hbootstrap⟩ := played.2 w hw
  refine ⟨w, .ofExec hw, hinput, hbootstrap, fun owned => ?_⟩
  have single := (owned "terminal").single
  simp [hinput, hbootstrap] at single

/-! ## 4. A fresh grid is sized once -/

/-- Only a bootstrap plan in flight is ever applied as one. Once it is, the grid is not pending any
    more, and either the plan is still in flight or there is no right to bootstrap left. -/
structure Grid.Once (g : Grid) (bootstraps : List TerminalResizePlan) : Prop where
  applying : g.bootstrapApplied = true → ∃ plan, g.resizePlan = some plan ∧ plan.bootstrap = true
  settled : ∀ plan ∈ bootstraps, g.bootstrapPending = false
  spent : ∀ plan ∈ bootstraps, g.resizePlan = some plan ∧ g.bootstrapApplied = true ∨
    g.bootstrapOwner = none ∧ ∀ other, g.resizePlan = some other → other.bootstrap = false
  single : ∀ plan ∈ bootstraps, ∀ other ∈ bootstraps, plan = other

namespace Grid

variable {g g' : Grid} {tokens : List String} {op : Op} {bootstraps : List TerminalResizePlan}

theorem Once.congr (h : g.Once bootstraps) (happlied : g'.bootstrapApplied = g.bootstrapApplied)
    (hplan : g'.resizePlan = g.resizePlan)
    (hpending : g.bootstrapPending = false → g'.bootstrapPending = false)
    (howner : g.bootstrapPending = false → g.bootstrapOwner = none → g'.bootstrapOwner = none) :
    g'.Once bootstraps := by
  refine ⟨?_, fun plan hplan => hpending (h.settled plan hplan), fun plan hmem => ?_, h.single⟩
  · rw [happlied, hplan]
    exact h.applying
  · rw [happlied, hplan]
    rcases h.spent plan hmem with hflight | ⟨hnone, hother⟩
    · exact .inl hflight
    · exact .inr ⟨howner (h.settled plan hmem) hnone, hother⟩

/-- A plan that is not applied as a bootstrap leaves, once settled, none in flight. -/
theorem Once.unapplied {plan : TerminalResizePlan} (h : g.Once bootstraps)
    (found : g.resizePlan = some plan) (hplan : ¬ (plan.bootstrap ∧ g.bootstrapApplied)) :
    g.bootstrapApplied = false ∧ ∀ other ∈ bootstraps, g.bootstrapOwner = none := by
  have happlied : g.bootstrapApplied = false := by
    by_contra happlied
    have happlied : g.bootstrapApplied = true := by simpa using happlied
    obtain ⟨other, hother, hbootstrap⟩ := h.applying happlied
    rw [found] at hother
    obtain rfl := by simpa using hother
    exact hplan ⟨hbootstrap, happlied⟩
  refine ⟨happlied, fun other hmem => ?_⟩
  rcases h.spent other hmem with hflight | hspent
  · simp [happlied] at hflight
  · exact hspent.1

theorem Once.unregister {client : String} (h : g.Once bootstraps) :
    (g.unregister client).Once bootstraps := by
  unfold Grid.unregister
  split
  · exact h.congr rfl rfl id fun _ _ => rfl
  · split
    · exact h
    · refine h.congr rfl rfl id fun _ hnone => ?_
      simp [hnone]

theorem Once.abortResize {plan : TerminalResizePlan} (h : g.Once bootstraps)
    (found : g.resizePlan = some plan) : (g.abortResize plan).Once bootstraps := by
  unfold Grid.abortResize
  split
  · exact ⟨by simp, h.settled, fun _ _ => .inr ⟨rfl, by simp⟩, h.single⟩
  · rename_i unapplied
    obtain ⟨happlied, hnone⟩ := h.unapplied found unapplied
    split
    · rename_i pending
      refine ⟨by simp [happlied], h.settled, fun other hmem => ?_, h.single⟩
      have hsettled := h.settled other hmem
      rw [pending.1] at hsettled
      simp at hsettled
    · exact ⟨by simp [happlied], h.settled,
        fun other hmem => .inr ⟨hnone other hmem, by simp⟩, h.single⟩

theorem Once.commitResize {plan : TerminalResizePlan} (h : g.Once bootstraps)
    (found : g.resizePlan = some plan) : (g.commitResize plan).Once bootstraps := by
  unfold Grid.commitResize
  cases hbootstrap : plan.bootstrap with
  | true =>
    exact ⟨by simp, fun _ _ => rfl, fun _ _ => .inr ⟨rfl, by simp⟩, h.single⟩
  | false =>
    obtain ⟨happlied, hnone⟩ := h.unapplied found (by simp [hbootstrap])
    exact ⟨by simp [happlied], h.settled, fun other hmem => .inr ⟨hnone other hmem, by simp⟩,
      h.single⟩

theorem Once.beginResize {t client : String} {rows cols : Int} {token : String}
    {plan : TerminalResizePlan} (h : g.Once bootstraps)
    (found : g.beginResize t client rows cols token = some plan) :
    Once { g with resizePlan := some plan } bootstraps := by
  simp only [Grid.beginResize] at found
  split at found
  · simp at found
  · rename_i idle
    have hidle : g.resizePlan = none := by
      by_contra hne
      exact idle (.inr hne)
    have happlied : g.bootstrapApplied = false := by
      by_contra happlied
      obtain ⟨other, hother, _⟩ := h.applying (by simpa using happlied)
      simp [hidle] at hother
    obtain rfl := by simpa using found
    refine ⟨by simp [happlied], h.settled, fun other hmem => ?_, h.single⟩
    -- no right is left, so the new plan is not a bootstrap
    rcases h.spent other hmem with hflight | ⟨hnone, _⟩
    · simp [hidle] at hflight
    · exact .inr ⟨hnone, by simp [hnone]⟩

theorem Once.resizeApplied {plan : TerminalResizePlan} (h : g.Once bootstraps)
    (found : g.resizePlan = some plan) :
    (g.resizeApplied plan).Once (if plan.bootstrap then plan :: bootstraps else bootstraps) := by
  unfold Grid.resizeApplied
  cases hbootstrap : plan.bootstrap with
  | false => simpa using h
  | true =>
    -- those applied before are this plan
    have same (other : TerminalResizePlan) (hmem : other ∈ bootstraps) : other = plan := by
      rcases h.spent other hmem with ⟨hflight, _⟩ | ⟨_, hother⟩
      · rw [found] at hflight
        exact (Option.some.inj hflight).symm
      · simp [hother plan found] at hbootstrap
    have all (other : TerminalResizePlan) (hmem : other ∈ plan :: bootstraps) :
        other = plan := by
      rcases List.mem_cons.mp hmem with heq | hmem
      · exact heq
      · exact same other hmem
    simp only [if_true]
    refine ⟨fun _ => ⟨plan, found, hbootstrap⟩, fun _ _ => rfl, fun other hmem => ?_,
      fun one hone other hother => by rw [all one hone, all other hother]⟩
    rw [all other hmem]
    exact .inl ⟨found, rfl⟩

theorem Once.empty : Grid.empty.Once [] :=
  ⟨by simp [Grid.empty], by simp, by simp, by simp⟩

theorem Once.fresh (h : g.Once bootstraps) (client : String) : (g.markGridFresh client).Once [] :=
  ⟨h.applying, by simp, by simp, by simp⟩

end Grid

namespace World

variable {w w' : World} {t : String} {op : Op}

@[simp] theorem witness_drawn : (w.witness op).drawn = w.drawn := by
  cases op <;> simp only [witness]
  split <;> rfl

theorem witness_elsewhere (h : t ≠ op.terminalId) :
    (w.witness op).shown t = w.shown t ∧ (w.witness op).bootstraps t = w.bootstraps t := by
  cases op <;> simp only [Op.terminalId] at h <;> simp only [witness]
  case markGridFresh => simp [h]
  case resizeApplied plan =>
    split
    · cases plan.bootstrap <;> simp [h]
    · simp
  all_goals simp

theorem once_play (h : (w.control.grids t).Once (w.bootstraps t)) :
    ((w.control.play op).grids t).Once ((w.witness op).bootstraps t) := by
  by_cases ht : t = op.terminalId
  case neg =>
    rw [TerminalControl.play_elsewhere ht, (witness_elsewhere ht).2]
    exact h
  subst ht
  cases op <;> simp only [Op.terminalId] at h <;>
    simp only [Op.terminalId, TerminalControl.play, TerminalControl.onGrid_self, witness]
  case register terminalId clientId =>
    refine h.congr rfl rfl id fun hpending hnone => ?_
    simp [Grid.register, hpending, hnone]
  case claimControl terminalId clientId =>
    unfold Grid.claimControl
    split
    · exact h
    · split
      · exact h.congr rfl rfl id fun _ hnone => hnone
      · exact h
  case markGridFresh terminalId clientId =>
    simpa using h.fresh clientId
  case markInput terminalId clientId =>
    unfold Grid.markInput
    split
    · exact h.congr rfl rfl (fun _ => rfl) fun _ _ => rfl
    · exact h
  case markGridExisting terminalId =>
    exact h.congr rfl rfl (fun _ => rfl) fun _ _ => rfl
  case beginResize terminalId clientId rows cols token =>
    simp only [TerminalControl.beginResize]
    split
    · exact h
    · rename_i found
      simpa using h.beginResize found
  case resizeApplied plan =>
    simp only [TerminalControl.resizeApplied]
    split
    · rename_i found
      have hafter := h.resizeApplied found
      cases hbootstrap : plan.bootstrap <;> simpa [hbootstrap] using hafter
    · exact h
  case commitResize plan =>
    simp only [TerminalControl.commitResize]
    split
    · rename_i current
      have found : (w.control.grids plan.terminalId).resizePlan = some plan := by
        simp only [Grid.commits, Grid.planCurrent, Bool.and_eq_true, decide_eq_true_eq] at current
        exact current.1.1.1.1.1
      simpa using h.commitResize found
    · exact h
  case abortResize plan =>
    simp only [TerminalControl.abortResize]
    split
    · rename_i found
      simpa using h.abortResize found
    · exact h
  case unregister terminalId clientId => exact h.unregister

theorem once_of_run {ops : List Op} (run : Run Step .new ops w) (t : String) :
    (w.control.grids t).Once (w.bootstraps t) := by
  induction run with
  | refl => exact .empty
  | snoc before last ih =>
    obtain ⟨hcontrol, _, hbootstraps⟩ := next_spec last
    rw [hcontrol, hbootstraps]
    exact once_play ih

theorem registered_of_run {ops : List Op} (run : Run Step .new ops w) (t : String) :
    (w.control.grids t).Registered := by
  induction run with
  | refl => exact Grid.Owned.empty.toRegistered
  | @snoc ops op v u before last ih =>
    rw [next_control last]
    by_cases ht : t = op.terminalId
    · subst ht
      rcases v.control.play_moves op with hstill | hmoves
      · rw [hstill]
        exact ih
      · exact ih.moves hmoves
    · rw [TerminalControl.play_elsewhere ht]
      exact ih

end World

/-- **A fresh grid.** Between two `mark_grid_fresh` of a terminal one bootstrap plan is applied at
    most. While the grid is pending, nobody owns the input and no plan is in flight, a browser that
    registers leaves the terminal with a bootstrap owner, who may resize it. -/
theorem bootstrap_once {ops : List Op} {w : World} (run : Run Step .new ops w) (t : String) :
    (∀ plan ∈ w.bootstraps t, ∀ other ∈ w.bootstraps t, plan = other) ∧
    ((w.control.grids t).bootstrapPending = true → (w.control.grids t).inputOwner = none →
      (w.control.grids t).resizePlan = none →
      ∀ (client : String) (w' : World), w.next (.register t client) = some w' →
        ∃ owner ∈ (w'.control.grids t).clients,
          (w'.control.grids t).bootstrapOwner = some owner ∧
          (w'.control.grids t).resizeOwner = some owner) := by
  have once := World.once_of_run run t
  refine ⟨once.single, fun hpending hinput hplan client w' hstep => ?_⟩
  have hregistered := World.registered_of_run (run.snoc hstep) t
  have hgrid : w'.control.grids t = (w.control.grids t).register client := by
    rw [World.next_control hstep]
    simp [TerminalControl.play]
  have happlied : (w.control.grids t).bootstrapApplied = false := by
    by_contra happlied
    obtain ⟨plan, hflight, _⟩ := once.applying (by simpa using happlied)
    simp [hplan] at hflight
  -- the right is there already, or the new browser takes it
  have howner : ∃ owner, (w'.control.grids t).bootstrapOwner = some owner := by
    cases hbefore : (w.control.grids t).bootstrapOwner with
    | some owner => exact ⟨owner, by simp [hgrid, Grid.register, hbefore]⟩
    | none =>
      exact ⟨client, by simp [hgrid, Grid.register, hbefore, hpending, hinput, hplan]⟩
  obtain ⟨owner, howner⟩ := howner
  have hmem := hregistered.bootstrapOwner owner howner
  refine ⟨owner, hmem, howner, ?_⟩
  have hinput' : (w'.control.grids t).inputOwner = none := by simp [hgrid, Grid.register, hinput]
  have happlied' : (w'.control.grids t).bootstrapApplied = false := by
    simp [hgrid, Grid.register, happlied]
  simp [Grid.resizeOwner, hinput', howner, happlied', hmem, List.ne_nil_of_mem hmem]

/-- A browser finds a fresh grid and leaves before it sized it. -/
def freshLeft : List Op :=
  [.markGridFresh "terminal" "", .register "terminal" "a", .unregister "terminal" "a"]

theorem bootstrap_once_left :
    ∃ w w', Run Step .new freshLeft w ∧ w.next (.register "terminal" "b") = some w' ∧
      ∃ owner ∈ (w'.control.grids "terminal").clients,
        (w'.control.grids "terminal").bootstrapOwner = some owner ∧
        (w'.control.grids "terminal").resizeOwner = some owner := by
  have played : (exec World.next .new freshLeft).isSome ∧
      ∀ w ∈ exec World.next .new freshLeft,
        (w.control.grids "terminal").bootstrapPending = true ∧
        (w.control.grids "terminal").inputOwner = none ∧
        (w.control.grids "terminal").resizePlan = none ∧
        (w.next (.register "terminal" "b")).isSome := by
    decide +kernel
  obtain ⟨w, hw⟩ := Option.isSome_iff_exists.mp played.1
  obtain ⟨hpending, hinput, hplan, hregisters⟩ := played.2 w hw
  obtain ⟨w', hw'⟩ := Option.isSome_iff_exists.mp hregisters
  have run : Run Step .new freshLeft w := .ofExec hw
  exact ⟨w, w', run, hw', (bootstrap_once run "terminal").2 hpending hinput hplan "b" w' hw'⟩

end Termroom.Terminal
