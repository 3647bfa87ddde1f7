import Termroom.RemoteRun.Ops

/-!
# The Remote of one lifecycle

What the manager relies on of a Remote, for one Run from its layout to its end: whether the
layout is there, whether the stop marker is published, and what has become of the program.
`Site.call` is any Remote that keeps these promises: a status is exact when it is taken,
`interrupt` and `kill` publish the marker whenever the layout is there, and a program whose
start finds the marker is not run. A call that fails may have had its effect.

A `Settled` site is one whose program is not running and never will be. Nothing takes that
back (`Site.call_kept`, `Site.Moves.kept`).
-/

set_option autoImplicit false

namespace Termroom.RemoteRun

open Conc

/-! ## 1. What a lifecycle leaves on a Remote -/

/-- What has become of the Run's program: its start has not reached the Remote, or the runner
    has not looked for the stop marker yet, or it runs, or its records say that it is over. -/
inductive Program where
  | idle
  | pending
  | running
  | ended
  deriving DecidableEq

structure Site where
  layout : Bool
  marker : Bool
  program : Program
  deriving DecidableEq

namespace Site

/-- The program is not running and never will be. -/
def Settled (s : Site) : Prop := s.program = .ended ∨ s.marker = true ∧ s.program ≠ .running

/-- A start that reaches the Remote. It needs the layout, and does nothing a second time. -/
def issue (s : Site) : Site :=
  if s.layout = true ∧ s.program = .idle then { s with program := .pending } else s

/-- `_publish_stop_request`. -/
def publish (s : Site) : Site := { s with marker := s.marker || s.layout }

/-- `kill-session`: what has been started is over, except for a program whose session is yet
    to come. -/
inductive Killed (s : Site) : Site → Prop
  | ends (started : s.program ≠ .idle) : Killed s { s with program := .ended }
  | misses (missed : s.program ≠ .running) : Killed s s

/-- A status that is exact when it is taken. -/
structure Shows (s : Site) (remote : RemoteStatus) : Prop where
  missing : remote.layoutMissing = true → s.layout = false
  running : remote.state = some .running → s.layout = true
  ended : remote.state.any RunState.terminal = true → s.Settled

/-- The calls of a lifecycle, with what they may answer. A call that fails may have had its
    effect; a start that fails has had none, unless its status is unknown. -/
def call : (c : BackendCall) → Except RunError c.Result → Site → Site → Prop
  | .createLayout, .ok _, s, s' => s' = { s with layout := true }
  | .createLayout, .error _, s, s' => s' = s ∨ s' = { s with layout := true }
  | .start, .ok _, s, s' | .startGit, .ok _, s, s' => s' = s.issue
  | .start, .error e, s, s' | .startGit, .error e, s, s' =>
    s' = s ∨ e.startUnknown = true ∧ s' = s.issue
  | .reconcile, .ok remote, s, s' | .poll, .ok remote, s, s' => s' = s ∧ s.Shows remote
  | .interrupt, .ok result, s, s' =>
    result.layoutMissing = !s.layout ∧ (s' = s.publish ∨ result.completed = true ∧ s' = s)
  | .interrupt, .error _, s, s' => s' = s ∨ s' = s.publish
  | .kill, .ok result, s, s' =>
    result.layoutMissing = !s.layout ∧
      -- a session is there only where a program has been started, in a layout
      if s.layout then s.publish.Killed s' ∨ result.completed = true ∧ s' = s
      else result.killed = false ∧ s' = s
  | .kill, .error _, s, s' => s' = s ∨ s' = s.publish ∨ s.publish.Killed s'
  | _, _, s, s' => s' = s

/-- What the Remote does by itself. The runner looks for the stop marker and then runs the
    program; a program that has been started comes to its end. -/
inductive Moves (s : Site) : Site → Prop
  | runs (started : s.program = .pending) (unmarked : s.marker = false) :
      Moves s { s with program := .running }
  | ends (started : s.program = .pending ∨ s.program = .running) :
      Moves s { s with program := .ended }

/-- What no call and no move takes back. -/
structure Kept (s s' : Site) : Prop where
  layout : s.layout = true → s'.layout = true
  settled : s.Settled → s'.Settled

theorem Kept.refl (s : Site) : s.Kept s := ⟨id, id⟩

theorem Kept.trans {s s' s'' : Site} (h : s.Kept s') (h' : s'.Kept s'') : s.Kept s'' :=
  ⟨fun hl => h'.layout (h.layout hl), fun hs => h'.settled (h.settled hs)⟩

variable {s s' : Site}

theorem issue_kept : s.Kept s.issue := by
  unfold issue
  split
  · rename_i here
    refine ⟨id, fun h => ?_⟩
    rcases h with h | ⟨hm, -⟩
    · rw [here.2] at h
      exact absurd h (by simp)
    · exact .inr ⟨hm, by simp⟩
  · exact .refl s

theorem publish_kept : s.Kept s.publish := by
  refine ⟨id, fun h => ?_⟩
  rcases h with h | ⟨hm, hp⟩
  · exact .inl h
  · exact .inr ⟨by simp [publish, hm], hp⟩

theorem Killed.kept (h : s.Killed s') : s.Kept s' := by
  cases h with
  | ends => exact ⟨id, fun _ => .inl rfl⟩
  | misses => exact .refl s

/-- Killed behind the marker, the program is settled. -/
theorem Killed.settled (h : s.publish.Killed s') (layout : s.layout = true) : s'.Settled := by
  cases h with
  | ends => exact .inl rfl
  | misses missed => exact .inr ⟨by simp [publish, layout], missed⟩

theorem createLayout_kept : s.Kept { s with layout := true } := ⟨fun _ => rfl, id⟩

theorem call_kept {c : BackendCall} {a : Except RunError c.Result} (h : call c a s s') :
    s.Kept s' := by
  cases c with
  | createLayout =>
    cases a with
    | ok _ => obtain rfl := h; exact createLayout_kept
    | error e =>
      rcases h with rfl | rfl
      · exact .refl _
      · exact createLayout_kept
  | start | startGit =>
    cases a with
    | ok _ => obtain rfl := h; exact issue_kept
    | error e =>
      rcases h with rfl | ⟨-, rfl⟩
      · exact .refl _
      · exact issue_kept
  | reconcile | poll =>
    cases a with
    | ok remote => obtain ⟨rfl, -⟩ := h; exact .refl _
    | error e => obtain rfl := h; exact .refl _
  | interrupt =>
    cases a with
    | ok result =>
      rcases h.2 with rfl | ⟨-, rfl⟩
      · exact publish_kept
      · exact .refl _
    | error e =>
      rcases h with rfl | rfl
      · exact .refl _
      · exact publish_kept
  | kill =>
    cases a with
    | ok result =>
      have h := h.2
      split at h
      · rcases h with h | ⟨-, rfl⟩
        · exact publish_kept.trans h.kept
        · exact .refl _
      · obtain rfl := h.2; exact .refl _
    | error e =>
      rcases h with rfl | rfl | h
      · exact .refl _
      · exact publish_kept
      · exact publish_kept.trans h.kept
  | _ => obtain rfl := h; exact .refl _

theorem Moves.kept (h : s.Moves s') : s.Kept s' := by
  cases h with
  | runs started unmarked =>
    refine ⟨id, fun h => ?_⟩
    rcases h with h | ⟨hm, -⟩
    · rw [started] at h
      exact absurd h (by simp)
    · rw [unmarked] at hm
      exact absurd hm (by simp)
  | ends => exact ⟨id, fun _ => .inl rfl⟩

theorem Moves.ended (h : s.Moves s') (hs : s.program = .ended) : s'.program = .ended := by
  cases h with
  | runs started => rw [hs] at started; exact nomatch started
  | ends => rfl

end Site

/-- The Remote of one lifecycle. -/
abbrev siteRemote : Remote := ⟨Site, Site.call, Site.Moves⟩

/-- The operation is a start that may have had its effect. -/
def RunOp.issues : (o : RunOp) → o.Ans → Bool
  | .backend .start, .ok _ | .backend .startGit, .ok _ => true
  | .backend .start, .error e | .backend .startGit, .error e => e.startUnknown
  | _, _ => false

theorem Site.call_idle {c : BackendCall} {a : Except RunError c.Result} {s s' : Site}
    (h : Site.call c a s s') (hi : RunOp.issues (.backend c) a = false)
    (hs : s.program = .idle) : s'.program = .idle := by
  have killed : ∀ {s s' : Site}, s.Killed s' → s.program = .idle → s'.program = .idle := by
    intro s s' h hs
    cases h with
    | ends started => exact absurd hs started
    | misses => exact hs
  cases c with
  | createLayout =>
    cases a with
    | ok _ => obtain rfl := h; exact hs
    | error e => rcases h with rfl | rfl <;> exact hs
  | start | startGit =>
    cases a with
    | ok _ => exact absurd hi (by simp [RunOp.issues])
    | error e =>
      rcases h with rfl | ⟨hu, -⟩
      · exact hs
      · rw [show e.startUnknown = false from hi] at hu
        exact absurd hu (by simp)
  | reconcile | poll =>
    cases a with
    | ok remote => obtain ⟨rfl, -⟩ := h; exact hs
    | error e => obtain rfl := h; exact hs
  | interrupt =>
    cases a with
    | ok result => rcases h.2 with rfl | ⟨-, rfl⟩ <;> exact hs
    | error e => rcases h with rfl | rfl <;> exact hs
  | kill =>
    cases a with
    | ok result =>
      have h := h.2
      split at h
      · rcases h with h | ⟨-, rfl⟩
        · exact killed h hs
        · exact hs
      · obtain rfl := h.2; exact hs
    | error e =>
      rcases h with rfl | rfl | h
      · exact hs
      · exact hs
      · exact killed h hs
  | _ => obtain rfl := h; exact hs

/-! ## 2. Deciding what a call may do -/

instance {s : Site} : Decidable s.Settled := inferInstanceAs (Decidable (_ ∨ _))

instance {s s' : Site} : Decidable (s.Killed s') :=
  decidable_of_iff (s.program ≠ .idle ∧ s' = { s with program := .ended } ∨
    s.program ≠ .running ∧ s' = s)
    ⟨fun h => by
      rcases h with ⟨h, rfl⟩ | ⟨h, rfl⟩
      · exact .ends h
      · exact .misses h,
    fun h => by
      cases h with
      | ends h => exact .inl ⟨h, rfl⟩
      | misses h => exact .inr ⟨h, rfl⟩⟩

instance {s : Site} {remote : RemoteStatus} : Decidable (s.Shows remote) :=
  decidable_of_iff ((remote.layoutMissing = true → s.layout = false) ∧
    (remote.state = some .running → s.layout = true) ∧
    (remote.state.any RunState.terminal = true → s.Settled))
    ⟨fun ⟨hm, hr, he⟩ => ⟨hm, hr, he⟩, fun h => ⟨h.missing, h.running, h.ended⟩⟩

instance Site.decidableCall : ∀ (c : BackendCall) (a : Except RunError c.Result) (s s' : Site),
    Decidable (Site.call c a s s')
  | .createLayout, .ok _, _, _ => inferInstanceAs (Decidable (_ = _))
  | .createLayout, .error _, _, _ => inferInstanceAs (Decidable (_ ∨ _))
  | .start, .ok _, _, _ | .startGit, .ok _, _, _ => inferInstanceAs (Decidable (_ = _))
  | .start, .error _, _, _ | .startGit, .error _, _, _ => inferInstanceAs (Decidable (_ ∨ _))
  | .reconcile, .ok _, _, _ | .poll, .ok _, _, _ => inferInstanceAs (Decidable (_ ∧ _))
  | .reconcile, .error _, _, _ | .poll, .error _, _, _ => inferInstanceAs (Decidable (_ = _))
  | .interrupt, .ok _, _, _ => inferInstanceAs (Decidable (_ ∧ _))
  | .interrupt, .error _, _, _ => inferInstanceAs (Decidable (_ ∨ _))
  | .kill, .ok _, _, _ => inferInstanceAs (Decidable (_ ∧ ite _ _ _))
  | .kill, .error _, _, _ => inferInstanceAs (Decidable (_ ∨ _))
  | .preflight, _, _, _ | .snapshotSource, _, _, _ | .materialize, _, _, _
  | .commitSnapshot, _, _, _ | .writeJson _, _, _, _ | .gitInvocation, _, _, _
  | .deleteRoot, _, _, _ | .layoutExists, _, _, _ | .ensureWorkspaceShell, _, _, _ =>
    inferInstanceAs (Decidable (_ = _))

end Termroom.RemoteRun
