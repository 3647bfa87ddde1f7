import Termroom.RemoteRun.Reconcile
import Termroom.RemoteRun.Site

/-!
# The runner of a Remote Run

`REMOTE_RUNNER_SCRIPT` and `REMOTE_GIT_BOOTSTRAP_SCRIPT` as a machine: where they stand in
the Run's tmux pane, and the records they have published. A record is published atomically
(`mv`), so it is there as a whole or not at all. The scripts look at the stop marker three
times; a look that finds it publishes a prepare record and exits.

The launcher's `tmux new-session` and a stop's marker come from elsewhere
(`Machine.Controlled`). The pane may die at any time, by itself or with its session.

Seen from the manager a machine is a `Site` (`Machine.site`): its program runs from the last
look at the marker on. Each step of a machine is a move of its site or none.
-/

set_option autoImplicit false

namespace Termroom.RemoteRun

open Data

/-! ## 1. The scripts -/

/-- Where the pane of the Run is. -/
inductive Runner where
  /-- There is no session yet. -/
  | absent
  /-- The session has its first shell; `respawn-pane` is still to come. -/
  | shell
  | bootstrap
  /-- `cloning` is published, the stop marker not looked at. -/
  | announced
  | cloning
  /-- The bootstrap has looked for the last time. -/
  | cloned
  /-- `runner.sh`, before its look at the stop marker. -/
  | checking
  | passed
  /-- `running` is published. -/
  | published
  | running
  | finished (status : Int)
  /-- A terminal record is published, and the script exits. -/
  | recorded
  /-- The pane is dead, or its session is gone. -/
  | dead
  deriving DecidableEq

/-- `error_code` of `prepare-result.json`. -/
inductive PrepareCode where
  | cancelled
  | commandMissing
  | cwdMissing
  | cwdInvalid
  | cwdOutside
  | workMissing
  | gitMetadataInvalid
  | gitCloneFailed
  | gitEmptyRepository
  | gitRevisionInvalid
  | workAlreadyCommitted
  | workCommitFailed
  | statePublishFailed
  /-- The last two are of the script on a Node. -/
  | outputPipeUnavailable
  | outputPipeInvalid
  deriving DecidableEq

def PrepareCode.text : PrepareCode → String
  | .cancelled => "cancelled"
  | .commandMissing => "command_missing"
  | .cwdMissing => "cwd_missing"
  | .cwdInvalid => "cwd_invalid"
  | .cwdOutside => "cwd_outside"
  | .workMissing => "work_missing"
  | .gitMetadataInvalid => "git_metadata_invalid"
  | .gitCloneFailed => "git_clone_failed"
  | .gitEmptyRepository => "git_empty_repository"
  | .gitRevisionInvalid => "git_revision_invalid"
  | .workAlreadyCommitted => "work_already_committed"
  | .workCommitFailed => "work_commit_failed"
  | .statePublishFailed => "state_publish_failed"
  | .outputPipeUnavailable => "output_pipe_unavailable"
  | .outputPipeInvalid => "output_pipe_invalid"

/-- The record that `prepare_failed` and `prepare_result` publish. -/
def PrepareCode.record (code : PrepareCode) (now : Stamp) : PrepareRecord :=
  ⟨code = .cancelled, now, .str code.text⟩

/-- The pane, the stop marker and the records of one Run. -/
structure Machine where
  git : Bool
  runner : Runner
  stop : Bool
  state : Option StateRecord
  prepare : Option PrepareRecord
  completion : Option CompletionRecord
  deriving DecidableEq

namespace Machine

/-- `#{pane_dead}` of the pane would be `0`. -/
def live (m : Machine) : Bool := m.runner ≠ .absent && m.runner ≠ .dead

/-- Where the scripts can give up with a record. -/
def prepares (m : Machine) : Prop :=
  m.runner ∈ [.cloning, .cloned, .checking, .passed, .published]

/-- What the scripts do by themselves, and the end of the pane. -/
inductive Moves (m : Machine) : Machine → Prop
  | respawn (here : m.runner = .shell) :
      Moves m { m with runner := if m.git then .bootstrap else .checking }
  | announce (now : Stamp) (here : m.runner = .bootstrap) :
      Moves m { m with runner := .announced, state := some ⟨.cloning, now⟩ }
  | clone (here : m.runner = .announced) (unmarked : m.stop = false) :
      Moves m { m with runner := .cloning }
  | cloned (here : m.runner = .cloning) (unmarked : m.stop = false) :
      Moves m { m with runner := .cloned }
  /-- The bootstrap publishes `running` and becomes `runner.sh`. -/
  | become (now : Stamp) (here : m.runner = .cloned) :
      Moves m { m with runner := .checking, state := some ⟨.running, now⟩ }
  | pass (here : m.runner = .checking) (unmarked : m.stop = false) :
      Moves m { m with runner := .passed }
  | publish (now : Stamp) (here : m.runner = .passed) :
      Moves m { m with runner := .published, state := some ⟨.running, now⟩ }
  | run (here : m.runner = .published) : Moves m { m with runner := .running }
  | finish (status : Int) (here : m.runner = .running) :
      Moves m { m with runner := .finished status }
  | record (r : CompletionRecord) (here : m.runner = .finished r.exitCode)
      (marked : r.stopRequested = true → m.stop = true) :
      Moves m { m with runner := .recorded, completion := some r }
  /-- A look that finds the marker. -/
  | cancel (now : Stamp) (here : m.runner ∈ [.announced, .cloning, .checking])
      (marked : m.stop = true) :
      Moves m { m with runner := .recorded, prepare := some (PrepareCode.cancelled.record now) }
  | fail (code : PrepareCode) (now : Stamp) (here : m.prepares) (uncancelled : code ≠ .cancelled) :
      Moves m { m with runner := .recorded, prepare := some (code.record now) }
  | die (alive : m.live = true) : Moves m { m with runner := .dead }

/-- What the launcher and a stop do. -/
inductive Controlled (m : Machine) : Machine → Prop
  | launch (here : m.runner = .absent) : Controlled m { m with runner := .shell }
  | publishStop : Controlled m { m with stop := true }

/-! ## 2. The machine as a site -/

/-- What the manager knows of the pane. -/
def program (m : Machine) : Program :=
  match m.runner with
  | .absent => .idle
  | .passed | .published | .running => .running
  | .finished _ | .recorded | .dead => .ended
  | .shell | .bootstrap | .announced | .cloning | .cloned | .checking => .pending

def site (m : Machine) : Site where
  layout := true
  marker := m.stop
  program := m.program

variable {m m' : Machine}

/-- **The scripts refine the site.** -/
theorem Moves.site (h : m.Moves m') : m'.site = m.site ∨ m.site.Moves m'.site := by
  cases h with
  | respawn here => exact .inl (by cases hg : m.git <;> simp [Machine.site, program, here])
  | announce now here => exact .inl (by simp [Machine.site, program, here])
  | clone here => exact .inl (by simp [Machine.site, program, here])
  | cloned here => exact .inl (by simp [Machine.site, program, here])
  | become now here => exact .inl (by simp [Machine.site, program, here])
  | pass here unmarked =>
    have pending : m.site.program = .pending := by simp [Machine.site, program, here]
    exact .inr (.runs pending unmarked)
  | publish now here => exact .inl (by simp [Machine.site, program, here])
  | run here => exact .inl (by simp [Machine.site, program, here])
  | finish status here =>
    have running : m.site.program = .running := by simp [Machine.site, program, here]
    exact .inr (.ends (.inr running))
  | record r here marked => exact .inl (by simp [Machine.site, program, here])
  | cancel now here marked =>
    have pending : m.site.program = .pending := by
      simp only [List.mem_cons, List.not_mem_nil, or_false] at here
      rcases here with h | h | h <;> simp [Machine.site, program, h]
    exact .inr (.ends (.inl pending))
  | fail code now here =>
    have started : m.site.program = .pending ∨ m.site.program = .running := by
      simp only [prepares, List.mem_cons, List.not_mem_nil, or_false] at here
      rcases here with h | h | h | h | h <;> simp [Machine.site, program, h]
    exact .inr (.ends started)
  | die alive =>
    cases hp : m.site.program with
    | ended => exact .inl (by simpa [Machine.site, program] using hp.symm)
    | pending => exact .inr (.ends (.inl hp))
    | running => exact .inr (.ends (.inr hp))
    | idle =>
      have absent : m.runner = .absent := by
        cases hr : m.runner <;> simp [Machine.site, program, hr] at hp
        rfl
      exact absurd alive (by simp [live, absent])

/-- The launcher and a stop are the calls of the site. -/
theorem Controlled.site (h : m.Controlled m') :
    m'.site = m.site.issue ∨ m'.site = m.site.publish := by
  cases h with
  | launch here => exact .inl (by simp [Machine.site, program, here, Site.issue])
  | publishStop => exact .inr (by simp [Machine.site, program, Site.publish])

/-! ## 3. What stays -/

/-- What holds of a machine at every moment. -/
structure Wf (m : Machine) : Prop where
  completion : m.completion.isSome → m.program = .ended
  prepare : m.prepare.isSome → m.program = .ended
  state : m.state.isSome → m.runner ≠ .absent
  code : ∀ r, m.prepare = some r → ∃ code : PrepareCode, r.errorCode = .str code.text

/-- What is still so after any steps of the machine and its controllers. -/
structure Later (m m' : Machine) : Prop where
  launched : m.runner ≠ .absent → m'.runner ≠ .absent
  ended : m.program = .ended → m'.program = .ended
  settled : m.site.Settled → m'.site.Settled
  dead : m.runner = .dead → m'.runner = .dead ∧ m'.completion = m.completion ∧ m'.prepare = m.prepare

theorem Later.refl (m : Machine) : m.Later m := ⟨id, id, id, fun h => ⟨h, rfl, rfl⟩⟩

theorem Later.trans {m'' : Machine} (h : m.Later m') (h' : m'.Later m'') : m.Later m'' where
  launched := fun hm => h'.launched (h.launched hm)
  ended := fun hm => h'.ended (h.ended hm)
  settled := fun hm => h'.settled (h.settled hm)
  dead := fun hm => by
    obtain ⟨hd, hc, hp⟩ := h.dead hm
    obtain ⟨hd', hc', hp'⟩ := h'.dead hd
    exact ⟨hd', hc'.trans hc, hp'.trans hp⟩

theorem Moves.ended (h : m.Moves m') (hm : m.program = .ended) : m'.program = .ended := by
  rcases h.site with hs | hs
  · exact (congrArg Site.program hs).trans hm
  · exact hs.ended hm

/-- A dead pane moves no more. -/
theorem Moves.not_dead (h : m.Moves m') : m.runner ≠ .dead := by
  intro dead
  cases h with
  | cancel now here => simp [dead] at here
  | fail code now here => simp [prepares, dead] at here
  | die alive => simp [live, dead] at alive
  | _ => simp_all

theorem Moves.later (h : m.Moves m') : m.Later m' where
  launched := by
    intro _
    cases h with
    | respawn => cases hg : m.git <;> simp
    | _ => simp
  ended := h.ended
  settled := by
    rcases h.site with hs | hs
    · rw [hs]
      exact id
    · exact hs.kept.settled
  dead := fun hd => absurd hd h.not_dead

theorem Controlled.later (h : m.Controlled m') : m.Later m' where
  launched := by
    intro hm
    cases h with
    | launch => simp
    | publishStop => exact hm
  ended := by
    intro hm
    cases h with
    | launch here => simp [program, here] at hm
    | publishStop => exact hm
  settled := by
    rcases h.site with hs | hs
    · rw [hs]
      exact Site.issue_kept.settled
    · rw [hs]
      exact Site.publish_kept.settled
  dead := by
    intro hd
    cases h with
    | launch here => rw [hd] at here; exact nomatch here
    | publishStop => exact ⟨hd, rfl, rfl⟩

theorem Moves.wf (h : m.Moves m') (hm : m.Wf) : m'.Wf where
  completion := by
    intro hc
    cases h with
    | record r => rfl
    | _ => exact Moves.ended (by constructor <;> assumption) (hm.completion hc)
  prepare := by
    intro hp
    cases h with
    | cancel => rfl
    | fail => rfl
    | _ => exact Moves.ended (by constructor <;> assumption) (hm.prepare hp)
  state := by
    intro hs
    cases h with
    | respawn => cases hg : m.git <;> simp
    | _ => simp
  code := by
    intro r hr
    cases h with
    | cancel now => exact ⟨.cancelled, by rw [← Option.some.inj hr]; rfl⟩
    | fail code now => exact ⟨code, by rw [← Option.some.inj hr]; rfl⟩
    | _ => exact hm.code r hr

theorem Controlled.wf (h : m.Controlled m') (hm : m.Wf) : m'.Wf where
  completion := fun hc => by
    refine h.later.ended (hm.completion ?_)
    cases h <;> exact hc
  prepare := fun hp => by
    refine h.later.ended (hm.prepare ?_)
    cases h <;> exact hp
  state := fun hs => by
    refine h.later.launched (hm.state ?_)
    cases h <;> exact hs
  code := by
    intro r hr
    refine hm.code r ?_
    cases h <;> exact hr

end Machine

end Termroom.RemoteRun
