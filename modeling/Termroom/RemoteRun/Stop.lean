import Termroom.RemoteRun.Lifecycle

/-!
# A reported stop

`stop` answers `stopped` on five paths. On four of them the stored state is looked at after
the answer is decided: the row was read as ended, or an unconditional compare-and-set from
preparing or running was tried before, after which a row that is still there has ended
whatever the compare-and-set said. The fifth is the path of a Run that waits for its upload.
Its compare-and-set also expects the phase `waiting_upload`, and **its result is dropped**:
when an upload has begun in between, nothing is written, the Run goes on preparing, and
`stop` reports it as stopped (`stop_reported_while_uploading`).

`stop_reported_ended` is the converse: in every run in which that compare-and-set finds the
phase it expects, or a Run that has ended, a reported stop is one.
-/

set_option autoImplicit false

namespace Termroom.RemoteRun

open Conc Prog

/-! ## 1. The calls and the condition -/

/-- `stop` and what may run next to it. Nothing here deletes the Run or retries it. -/
def RunCall.besideStop : RunCall → Bool
  | .schedule | .prepare _ | .uploadArchive _ _ | .poll | .reconcile | .stop | .kill => true
  | .requestDelete | .forget | .cleanupExpired | .retryPreparation | .reconcileStartup
  | .spoolExpiry => false

/-- The Run has ended, as far as the stored row says. -/
def Ended {R : Type} (w : RunWorld R) : Prop :=
  ∃ row, w.row = some row ∧ row.state.terminal = true

/-- Where `stop` writes the end of a Run that waits for its upload, the Run is still waiting
    for it, or has ended. -/
def stillWaiting {R : Type} : RunCall → RunOp → RunWorld R → Bool
  | .stop, .transition tr, u =>
    if tr.expectedPhase = some (some .waitingUpload) then
      u.row.any fun row =>
        row.state = .preparing && row.phase = some .waitingUpload || row.state.terminal
    else true
  | _, _, _ => true

/-- The manager, in runs that meet the condition. -/
abbrev stopSystem (cfg : Config) (B : Remote) : System RunSig RunError :=
  (manager cfg B fun l => l.besideStop = true).restrict fun _ l o _ u _ => stillWaiting l o u = true

/-! ## 2. What the others do -/

/-- The Run is stored. -/
def Stored {R : Type} (w : RunWorld R) : Prop := ∃ row, w.row = some row

/-- The row stays, and so does its end. -/
structure EndKept {R : Type} (u v : RunWorld R) : Prop where
  stored : Stored u → Stored v
  ended : Ended u → Ended v

theorem EndKept.of_row {R : Type} {u v : RunWorld R} (h : v.row = u.row) : EndKept u v :=
  ⟨fun ⟨row, hu⟩ => ⟨row, h.trans hu⟩, fun ⟨row, hu, ht⟩ => ⟨row, h.trans hu, ht⟩⟩

/-- The operation neither takes the row away nor brings an ended Run back. -/
def RunOp.KeepsRow (o : RunOp) : Prop := o.Keeps ∧ o ≠ .deleteRow

theorem RunOp.Routine.keepsRow {o : RunOp} (h : o.Routine) : o.KeepsRow :=
  ⟨h.keeps, by rintro rfl; exact h⟩

theorem RunOp.Observes.keepsRow {o : RunOp} (h : o.Observes) : o.KeepsRow := by
  rcases h with h | rfl
  · exact h.keepsRow
  · exact ⟨trivial, by simp⟩

section

variable {cfg : Config} {B : Remote} {t : Nat} {l : RunCall}

theorem RunOp.KeepsRow.endKept {o : RunOp} {a : o.Ans} {u v : RunWorld B.State}
    (ho : o.KeepsRow) (h : o.step B t a u v) : EndKept u v := by
  rcases RunOp.step_row h with hr | ⟨tr, row, rfl, hu, hs, hr⟩ | ⟨now, row, -, hu, ht, hr⟩ |
    ⟨row, id, hu, hr⟩ | ⟨hdel, -⟩
  · exact .of_row hr
  · refine ⟨fun _ => ⟨_, hr⟩, fun ⟨row', hu', ht⟩ => ?_⟩
    rw [hu] at hu'
    rw [← Option.some.inj hu'] at ht
    rw [Transition.Forward.terminal ho.1 ht] at hs
    exact absurd hs (by simp)
  · exact ⟨fun _ => ⟨_, hr⟩, fun _ => ⟨_, hr, ht⟩⟩
  · refine ⟨fun _ => ⟨_, hr⟩, fun ⟨row', hu', ht⟩ => ⟨_, hr, ?_⟩⟩
    rw [hu] at hu'
    rw [← Option.some.inj hu'] at ht
    exact ht
  · exact absurd hdel ho.2

/-- What `stop` promises: if it says so, the Run has ended. -/
def StopKept {R : Type} (r : Except RunError StopResult) (w : RunWorld R) : Prop :=
  ∀ result, r = .ok result → result.stopped = true → Ended w

theorem StopKept.error {R : Type} {e : RunError} {w : RunWorld R} : StopKept (.error e) w :=
  fun _ h => absurd h (by simp)

/-- The proof outline of `stop`: the others keep the row and its end. -/
def stopOutline (cfg : Config) (B : Remote) : Outline (stopSystem cfg B) where
  inv := fun _ => True
  rely := fun _ _ => EndKept
  ok := fun _ _ _ _ _ _ => True
  post := fun _ l r w => match l, r with
    | .stop, r => StopKept r w
    | _, _ => True
  rely_refl := fun _ _ _ => ⟨id, id⟩
  rely_trans := fun _ _ _ _ _ h h' =>
    ⟨fun hu => h'.stored (h.stored hu), fun hu => h'.ended (h.ended hu)⟩
  start_keeps := by
    intro t l u v _ hs
    refine ⟨trivial, fun _ _ _ => .of_row ?_⟩
    cases l with
    | prepare h => rw [hs.2.2]; rfl
    | _ => rw [show v = u from hs.2]
  env_keeps := by
    rintro u v - ⟨r, -, rfl⟩
    exact ⟨trivial, fun _ _ => .of_row rfl⟩

/-- The contract of a thread in `stopOutline`. -/
abbrev stopContract (cfg : Config) (B : Remote) (t : Nat) (l : RunCall) :
    Contract RunSig (RunWorld B.State) := (stopOutline cfg B).contract t l

/-! ## 3. One operation -/

theorem stop_ok {o : RunOp} {a : o.Ans} {u v : RunWorld B.State} (ho : o.KeepsRow)
    (h : (stopContract cfg B t l).step o a u v) : (stopContract cfg B t l).ok o a u v :=
  ⟨trivial, fun _ _ _ => ho.endKept h.1, trivial⟩

/-- A routine program keeps what its caller knows. -/
theorem stop_routine {α : Type} {p : RunProg α} {F : RunWorld B.State → Prop}
    {w : RunWorld B.State} (kept : ∀ u v, EndKept u v → F u → F v)
    (h : p.All RunOp.Routine) (hw : F w) :
    p.wp (stopContract cfg B t l) (fun _ => F) w :=
  wp_mono (fun _ _ h => h.2) (wp_of_uses (R := fun _ => True) (fun u v => kept u v)
    (fun _ _ u v ho hu _ hs =>
      ⟨stop_ok ho.keepsRow hs, kept u v (ho.keepsRow.endKept hs.1) hu⟩) h hw)

/-- What `get` returned still holds of the end of the row. -/
theorem get_ended {w : RunWorld B.State} :
    get.wp (stopContract cfg B t l)
      (fun r v => ∀ run, r = .ok run → Stored v ∧ (run.state.terminal = true → Ended v)) w := by
  refine wp_mono (fun r v h run hrun => ?_) (get_spec fun o a u v ho _ hs => ?_)
  · obtain ⟨u, v₀, v₁, -, ⟨⟨hu, rfl⟩, -⟩, hk, ⟨-, rfl⟩, -⟩ := h run hrun
    exact ⟨hk.stored ⟨_, hu.symm⟩, fun ht => hk.ended ⟨_, hu.symm, ht⟩⟩
  · rcases ho with rfl | rfl
    · exact stop_ok ⟨trivial, by simp⟩ hs
    · exact stop_ok ⟨trivial, by simp⟩ hs

/-- After an unconditional write of an end, the Run has ended, whether or not this call was
    the one to write it. -/
theorem transition_ended {tr : Transition} {s : RunState} {Q : Except RunError Bool → _ → Prop}
    {w : RunWorld B.State} (hs : Stored w) (ht : tr.Forward)
    (hexp : tr.expectedStates = [.preparing, .running]) (hphase : tr.expectedPhase = none)
    (hstate : tr.state = some s) (hend : s.terminal = true)
    (hQ : ∀ won v, Ended v → Q (.ok won) v) :
    (atomic (.transition tr)).wp (stopContract cfg B t l) Q w := by
  simp only [atomic_wp]
  intro u hu _ won v h
  refine ⟨stop_ok ⟨ht, by simp⟩ h, hQ won v ?_⟩
  obtain ⟨row, hrow⟩ := hu.stored hs
  obtain ⟨⟨-, rfl⟩, -⟩ := h
  cases hterm : row.state.terminal with
  | true =>
    exact ⟨row, by simp [hrow, Transition.apply, ht.terminal hterm], hterm⟩
  | false =>
    have hsel : tr.selects row = true := by
      refine Transition.selects_iff.mpr ⟨by simp [Transition.assigns, hstate], ?_, ?_⟩
      · rw [hexp]
        cases hr : row.state <;> simp_all [RunState.terminal]
      · simp [hphase]
    refine ⟨tr.update row, by simp [hrow, Transition.apply, hsel], ?_⟩
    show (tr.state.getD row.state).terminal = true
    rw [hstate]
    exact hend

/-! ## 4. The parts of `stop` -/

theorem stopResult_kept {stopped needsKill pending : Bool} {w : RunWorld B.State}
    (h : stopped = true → Ended w) :
    (stopResult stopped needsKill pending).wp (stopContract cfg B t l) StopKept w := by
  unfold stopResult
  simp only [wp_bind]
  refine wp_mono (fun r v hv => ?_)
    (stop_routine (F := fun v => stopped = true → Ended v)
      (fun u v hk hu hs => hk.ended (hu hs)) get_all h)
  cases r with
  | error e => exact .error
  | ok run =>
    intro result hr hs
    obtain rfl := Except.ok.inj hr
    exact hv hs

/-- The status of a Run whose files are gone ends it, unless something else has. -/
theorem applyRemoteStatus_ended {run : Run} {startedAt : Option Timestamp} {now : Nat}
    {w : RunWorld B.State} (hs : Stored w) (ht : run.state.terminal = true → Ended w) :
    (applyRemoteStatus run (lostLayout startedAt now)).wp (stopContract cfg B t l)
      (fun r v => ∀ u, r = .ok u → Ended v) w := by
  unfold applyRemoteStatus
  simp only [lostLayout]
  by_cases hterm : run.state.terminal = true
  · rw [if_pos hterm]
    exact fun _ _ => ht hterm
  rw [if_neg hterm]
  refine wp_seq (stop_routine (fun _ _ h => h.stored) (all_atomic trivial) hs)
    (fun _ _ _ _ h => absurd h (by simp)) fun clock v hv => ?_
  simp only [terminalExpiryFrom, Option.getD_some, wp_bind, wp_pure, onResult_ok]
  refine transition_ended (s := .lost) hv ?_ rfl rfl rfl rfl fun _ _ hv _ _ => hv
  simp [Transition.forward_iff, RunState.terminal]

theorem stopReconciled_kept {w : RunWorld B.State} :
    stopReconciled.wp (stopContract cfg B t l) StopKept w := by
  unfold stopReconciled
  have skip {α : Type} {p : RunProg α} {w : RunWorld B.State} (h : p.All RunOp.Routine) :
      p.wp (stopContract cfg B t l) (fun _ _ => True) w :=
    stop_routine (fun _ _ _ _ => trivial) h trivial
  refine wp_seq (skip (all_call .reconcile trivial)) (fun _ _ _ => .error) fun remote _ _ => ?_
  refine wp_seq (skip get_all) (fun _ _ _ => .error) fun current _ _ => ?_
  refine wp_seq (skip applyRemoteStatus_all) (fun _ _ _ => .error) fun _ _ _ => ?_
  refine wp_seq get_ended (fun _ _ _ => .error) fun updated v hv => ?_
  intro result hr hs
  obtain rfl := Except.ok.inj hr
  exact (hv updated rfl).2 hs

theorem stopLayoutMissing_kept {run : Run} {now : Nat} {live : Bool} {result : StopStatus}
    {w : RunWorld B.State} (hw : Stored w) :
    (stopLayoutMissing run now live result).wp (stopContract cfg B t l) StopKept w := by
  unfold stopLayoutMissing
  split
  · exact stopResult_kept (by simp)
  split
  · refine wp_seq get_ended (fun _ _ _ => .error) fun current v hv => ?_
    refine wp_seq (applyRemoteStatus_ended (hv current rfl).1 (hv current rfl).2)
      (fun _ _ _ => .error) fun _ v hv => ?_
    exact stopResult_kept fun _ => hv () rfl
  split
  · exact .error
  split
  · exact stopResult_kept (by simp)
  · refine wp_seq (stop_routine (fun _ _ h => h.stored) terminalExpiry_all hw)
      (fun _ _ _ => .error) fun expiresAt v hv => ?_
    refine wp_seq (R := fun _ => Ended) (transition_ended (s := .stopped) hv
      endedTransition_forward rfl rfl rfl rfl fun _ _ h => h) (fun _ _ _ => .error) fun _ v hv => ?_
    exact stopResult_kept fun _ => hv

/-- Where the condition holds, the write of `stop` for a Run that waits for its upload
    leaves an ended Run. -/
theorem stopWaiting_kept {now expiresAt : Nat} {w : RunWorld B.State} :
    (do
      let _ ← atomic (.transition (unuploadedTransition now expiresAt))
      stopResult true false false : RunProg StopResult).wp (stopContract cfg B t .stop)
      StopKept w := by
  simp only [wp_bind, atomic_wp]
  intro u _ _ won v h
  refine ⟨stop_ok ⟨unuploadedTransition_forward, by simp⟩ h, ?_⟩
  obtain ⟨⟨-, rfl⟩, waiting⟩ := h
  refine stopResult_kept fun _ => ?_
  have still : ∃ row, u.row = some row ∧
      (row.state = .preparing ∧ row.phase = some .waitingUpload ∨ row.state.terminal = true) := by
    simpa [stillWaiting, unuploadedTransition, Option.any_eq_true] using waiting
  obtain ⟨row, hrow, ⟨hstate, hphase⟩ | hterm⟩ := still
  · have hsel : (unuploadedTransition now expiresAt).selects row = true := by
      simp [Transition.selects_iff, unuploadedTransition, Transition.assigns, hstate, hphase]
    exact ⟨(unuploadedTransition now expiresAt).update row,
      by simp [hrow, Transition.apply, hsel], rfl⟩
  · refine ⟨row, ?_, hterm⟩
    simp [hrow, Transition.apply, unuploadedTransition_forward.terminal hterm]

/-- **`stop` keeps its promise** where the condition holds. -/
theorem stop_kept {w : RunWorld B.State} :
    (stop cfg).wp (stopContract cfg B t .stop) StopKept w := by
  unfold stop
  refine wp_seq get_ended (fun _ _ _ => .error) fun run v hv => ?_
  obtain ⟨hstored, hended⟩ := hv run rfl
  split
  · rename_i hterm
    intro result hr hs
    exact hended hterm
  refine wp_seq (stop_routine (fun _ _ h => h.stored) (all_atomic trivial) hstored)
    (fun _ _ _ => .error) fun now v hv => ?_
  refine wp_seq (stop_routine (fun _ _ h => h.stored) (all_transition ?_) hv)
    (fun _ _ _ => .error) fun _ v hv => ?_
  · simp [Transition.forward_iff, RunState.terminal]
  refine wp_seq (stop_routine (fun _ _ h => h.stored) cancelPreparation_all hv)
    (fun _ _ _ => .error) fun live v hv => ?_
  split
  · refine wp_seq (stop_routine (fun _ _ h => h.stored) terminalExpiry_all hv)
      (fun _ _ _ => .error) fun expiresAt v hv => ?_
    exact stopWaiting_kept
  refine wp_seq (stop_routine (fun _ _ h => h.stored) targetBackend_all hv)
    (fun _ _ _ => .error) fun _ v hv => ?_
  refine wp_seq (stop_routine (fun _ _ h => h.stored) (all_atomic trivial) hv)
    (fun _ _ _ => .error) fun r v hv => ?_
  split
  · split
    · exact stopResult_kept (by simp)
    · exact .error
  · exact .error
  · split
    · exact stopReconciled_kept
    split
    · exact stopLayoutMissing_kept hv
    split
    · exact stopResult_kept (by simp)
    split
    · exact stopResult_kept (by simp)
    · exact stopReconciled_kept

/-! ## 5. Every run -/

theorem stop_proved {w : RunWorld B.State} : (stopOutline cfg B).Proved w := by
  have routine {α : Type} {p : RunProg α} {t : Nat} {l : RunCall} {w : RunWorld B.State}
      (h : p.All RunOp.KeepsRow) : p.wp (stopContract cfg B t l) (fun _ _ => True) w :=
    wp_of_all (fun o a u v ho _ hs => stop_ok ho hs) h fun _ _ => trivial
  intro t l u v _ _ hs
  cases l with
  | stop => exact stop_kept
  | schedule => exact routine (all_atomic ⟨trivial, by simp⟩)
  | prepare h => exact routine (prepare_all.mono fun _ => RunOp.Routine.keepsRow)
  | uploadArchive safeName contentLength =>
    refine routine (uploadArchive_all.mono fun o ho => ?_)
    rcases ho with ho | rfl
    · exact ho.keepsRow
    · exact ⟨trivial, by simp⟩
  | poll => exact routine (poll_all.mono fun _ => RunOp.Observes.keepsRow)
  | reconcile => exact routine (reconcile_all.mono fun _ => RunOp.Observes.keepsRow)
  | kill => exact routine (kill_all.mono fun _ => RunOp.Routine.keepsRow)
  | requestDelete | forget | cleanupExpired | retryPreparation | reconcileStartup
  | spoolExpiry => exact absurd hs.1 (by simp [RunCall.besideStop])

/-- **A reported stop is a real stop.** In every run of `stop`, uploads, observations and
    preparations whose waiting-upload writes meet the condition, a `stop` that returns
    `stopped` does so with the stored Run ended. -/
theorem stop_reported_ended {w : RunWorld B.State} {es : List (Event (stopSystem cfg B))}
    {p p' : Pool (stopSystem cfg B)} (run : (stopSystem cfg B).Runs w es p) {o : RunOp}
    {a : o.Ans} {result : StopResult}
    (returns : Pool.Step (stopSystem cfg B) p (.act t .stop o a) p')
    (returned : p'.threads[t]? = some ⟨.stop, .ret result⟩) (stopped : result.stopped = true) :
    Ended p'.world :=
  Outline.post_of_run stop_proved trivial run returns returned (r := .ok result) rfl result rfl
    stopped

end

/-! ## 6. The two ways it can go -/

/-- A `stop` of a Run that waits for its upload, with an upload in between or without one:
    `stop` has read the row, then goes on to its end. -/
def stopWithUpload {sys : System RunSig RunError} (upload : List (Move sys (Reply Unit)))
    (stop : sys.Label) : List (Move sys (Reply Unit)) :=
  .call stop :: List.replicate 2 (.act 0 { after := () }) ++ upload ++
    List.replicate 6 (.act 0 { after := () })

/-- The Run before any of it. -/
def waitingWorld : RunWorld Unit :=
  ⟨some (createdRow .archive "job.zip" 0), none, [], none, false, ()⟩

/-- **A stop that is none.** `stop` has read that the Run waits for its upload; an upload
    takes it to `uploading`; `stop` writes nothing and returns `stopped` all the same. -/
theorem stop_reported_while_uploading :
    ∃ es, ∃ p p' : Pool (manager ⟨false, 1000⟩ anyRemote fun l => l.besideStop = true),
      ∃ o a result,
        (manager ⟨false, 1000⟩ anyRemote fun l => l.besideStop = true).Runs waitingWorld es p ∧
          Pool.Step _ p (.act 0 .stop o a) p' ∧
          p'.threads[0]? = some ⟨.stop, .ret result⟩ ∧ result.stopped = true ∧
          ¬ Ended p'.world := by
  let player := managerPlayer ⟨false, 1000⟩ anyRemote fun l => l.besideStop = true
  have played : ∃ p p' result,
      player.play (.init waitingWorld) (stopWithUpload
        (.call (.uploadArchive (.ok "job.zip") none) ::
          List.replicate 3 (.act 1 { after := () })) .stop) = some p ∧
      player.next p (.act 0 { after := () }) = some p' ∧
      (∃ o k, p.threads[0]? = some ⟨.stop, .op o k⟩) ∧
      p'.threads[0]? = some ⟨.stop, .ret result⟩ ∧ result.stopped = true ∧
      p'.world.row.map RunRow.state = some .preparing :=
    ⟨_, _, _, rfl, rfl, ⟨_, _, rfl⟩, rfl, rfl, rfl⟩
  obtain ⟨p, p', result, hp, hp', ⟨o, k, here⟩, there, stopped, hstate⟩ := played
  obtain ⟨es, a, run, st⟩ := player.play_act hp here hp'
  refine ⟨es, p, p', o, a, result, run, st, there, stopped, ?_⟩
  rintro ⟨row, hrow, hterm⟩
  rw [hrow] at hstate
  rw [Option.some.inj hstate] at hterm
  exact absurd hterm (by simp [RunState.terminal])

/-- Without the upload the same `stop` does what it says. -/
theorem stop_reported_ended_waiting :
    ∃ p' : Pool (stopSystem ⟨false, 1000⟩ anyRemote),
      p'.world.row.map RunRow.state = some .stopped ∧ Ended p'.world := by
  let player : Player (stopSystem ⟨false, 1000⟩ anyRemote) (Reply Unit) :=
    (managerPlayer ⟨false, 1000⟩ anyRemote fun l => l.besideStop = true).restrict
      (fun _ l o _ u _ => stillWaiting l o u) fun _ _ _ _ _ _ h => h
  have played : ∃ p p' result,
      player.play (.init waitingWorld) (stopWithUpload [] .stop) = some p ∧
      player.next p (.act 0 { after := () }) = some p' ∧
      (∃ o k, p.threads[0]? = some ⟨.stop, .op o k⟩) ∧
      p'.threads[0]? = some ⟨.stop, .ret result⟩ ∧ result.stopped = true ∧
      p'.world.row.map RunRow.state = some .stopped :=
    ⟨_, _, _, rfl, rfl, ⟨_, _, rfl⟩, rfl, rfl, rfl⟩
  obtain ⟨p, p', result, hp, hp', ⟨o, k, here⟩, there, stopped, hstate⟩ := played
  obtain ⟨es, a, run, st⟩ := player.play_act hp here hp'
  exact ⟨p', hstate, stop_reported_ended run st there stopped⟩

end Termroom.RemoteRun
