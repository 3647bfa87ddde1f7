import Termroom.RemoteRun.Manager

/-!
# Playing the manager

A schedule of the manager as a list of moves. The state decides most answers; a `Reply` is
the rest: what the clock reads, what the Core's own steps come to, what the Remote answers
and the state it is in afterwards.
-/

set_option autoImplicit false

namespace Termroom.RemoteRun

open Conc

structure Reply (R : Type) where
  now : Nat := 0
  target : Option Target := some ⟨false⟩
  core : Except RunError Unit := .ok ()
  total : Except RunError Nat := .ok 0
  remote : (c : BackendCall) → Except RunError c.Result := fun _ => .error (.sshBackend "")
  after : R

/-- The Remote deletes the root, and answers nothing else. -/
def deletes : (c : BackendCall) → Except RunError c.Result
  | .deleteRoot => .ok ()
  | _ => .error (.sshBackend "")

variable {B : Remote}

section

variable [∀ c a r r', Decidable (B.call c a r r')]

/-- The operation under a reply. An operation without a rule here is not played. -/
def RunOp.play (reply : Reply B.State) (t : Nat) :
    (o : RunOp) → RunWorld B.State → Option (o.Ans × RunWorld B.State)
  | .getRemoteRun, u => some (u.row, u)
  | .getComputer, u => if reply.target = none then none else some (reply.target, u)
  | .transition tr, u => some ((tr.apply u.row).1, { u with row := (tr.apply u.row).2 })
  | .expireNow now, u =>
    some ((expireRemoteRunNow now u.row).1, { u with row := (expireRemoteRunNow now u.row).2 })
  | .listAbandoned now, u => some (u.row.any (abandonedUpload now), u)
  | .listExpired now, u => some (u.row.any (expired now), u)
  | .utcNow, u => some (reply.now, u)
  | .getPreparation, u => some (u.preparations, u)
  | .taskDone h, u => u.handles[h]?.map fun hd => (hd.done, u)
  | .setCancel h, u => some ((), u.modifyHandle h fun hd => { hd with cancel := true })
  | .isCancelled h, u => u.handles[h]?.map fun hd => (hd.cancel, u)
  | .schedule, u => some (!u.currentLive, if u.currentLive then u else u.createTask)
  | .taskFinish h, u => some ((), u.modifyHandle h fun hd => { hd with done := true })
  | .acquire, u => if u.lock = none then some ((), { u with lock := some (t, 1) }) else none
  | .release, u => if u.lock = some (t, 1) then some ((), { u with lock := none }) else none
  | .spoolReady, u => some (u.spool, u)
  | .removeSpool, u => some ((), { u with spool := false })
  | .receiveUpload, u | .validateZip, u => some (reply.total, u)
  | .requireWorkspace, u | .writeCollectionManifest, u => some (reply.core, u)
  | .backend c, u =>
    if B.call c (reply.remote c) u.remote reply.after then
      some (reply.remote c, { u with remote := reply.after })
    else none
  | _, _ => none

theorem RunOp.play_sound {reply : Reply B.State} {t : Nat} {o : RunOp} {a : o.Ans}
    {u v : RunWorld B.State} (h : o.play reply t u = some (a, v)) : o.step B t a u v := by
  cases o with
  | taskDone k | isCancelled k =>
    obtain ⟨hd, hk, he⟩ := Option.map_eq_some_iff.mp h
    cases he
    exact ⟨⟨hd, hk, rfl⟩, rfl⟩
  | getComputer =>
    simp only [play] at h
    split at h
    · exact absurd h (by simp)
    · rename_i ht; cases h; exact ⟨fun hn => absurd hn ht, rfl⟩
  | acquire =>
    simp only [play] at h
    split at h
    · rename_i hl; cases h; exact .inl ⟨hl, rfl⟩
    · exact absurd h (by simp)
  | release =>
    simp only [play] at h
    split at h
    · rename_i hl; cases h; exact ⟨0, hl, by simp⟩
    · exact absurd h (by simp)
  | backend c =>
    simp only [play] at h
    split at h
    · rename_i hc; cases h; exact ⟨_, hc, rfl⟩
    · exact absurd h (by simp)
  | deleteWorkspace | deleteRow | taskDoneCallback _ | writeSidecar | unlinkPart
  | scheduleSpoolExpiry | openWorkspace | connectWorkspace => exact absurd h (by simp [play])
  | getRemoteRun | transition _ | expireNow _ | listAbandoned _ | listExpired _
  | getPreparation | schedule | spoolReady => cases h; exact ⟨rfl, rfl⟩
  | utcNow | setCancel _ | taskFinish _ | removeSpool | receiveUpload
  | validateZip | requireWorkspace | writeCollectionManifest => cases h; rfl

/-- `RunCall.start`, computed. -/
def RunCall.play {R : Type} (u : RunWorld R) : RunCall → Option (RunWorld R)
  | .prepare h =>
    match u.handles[h]? with
    | some hd =>
      if hd.started then none
      else some (u.modifyHandle h fun hd => { hd with started := true })
    | none => none
  | _ => some u

theorem RunCall.play_sound {R : Type} {u v : RunWorld R} {l : RunCall}
    (h : l.play u = some v) : l.start u v := by
  cases l with
  | prepare k =>
    simp only [play] at h
    split at h
    · rename_i hd hk
      split at h
      · exact absurd h (by simp)
      · rename_i hs
        exact ⟨⟨hd, hk, by simpa using hs⟩, (Option.some.inj h).symm⟩
    · exact absurd h (by simp)
  | _ => exact (Option.some.inj h).symm

/-- A player of the manager, for schedules of calls in `allowed`. -/
def managerPlayer (cfg : Config) (B : Remote) [∀ c a r r', Decidable (B.call c a r r')]
    (allowed : RunCall → Prop) [DecidablePred allowed] :
    Player (manager cfg B allowed) (Reply B.State) where
  start := fun _ l u => if allowed l then l.play u else none
  act := fun reply t _ o u => o.play reply t u
  start_sound := by
    intro t l u v h
    dsimp only at h
    split at h
    · rename_i hl; exact ⟨hl, RunCall.play_sound h⟩
    · exact absurd h (by simp)
  act_sound := fun h => RunOp.play_sound h

end

instance : ∀ c a r r', Decidable (anyRemote.call c a r r') := fun _ _ _ _ => .isTrue trivial

end Termroom.RemoteRun
