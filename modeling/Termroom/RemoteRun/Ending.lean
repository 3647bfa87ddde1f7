import Termroom.RemoteRun.Site
import Termroom.RemoteRun.Stop

/-!
# After a recorded end

A stored end is meant to be final: the Run's program is not running and is not started later.
Three gates stand between a stop and a start. The cancel event of a live preparation is
looked at before the compare-and-set to phase `starting`; that compare-and-set fails on a Run
that has ended; and the Remote's stop marker keeps a program that has been started from
running. An end that a Remote has reported is behind the third gate. The ends that the Core
records on its own account, the failure of a preparation and the `cancelled` of a `stop` or
`kill` that found no layout, are behind the first two only, and `stop` looks at the handle
*before* it asks the Remote. A preparation that is scheduled after that look can be past both
gates when the end is written (`started_under_cancelled`), and so can one whose task is done
while a second preparation of the Run fails.

`nothing_runs_after_end` says that this is all: in every run where such an end is recorded
only while no other preparation has won its compare-and-set to phase `starting`, unless its
start was refused, a Run that has ended is not running and never runs later.
-/

set_option autoImplicit false

namespace Termroom.RemoteRun

open Conc Prog

/-! ## 1. The condition -/

/-- The preparation of one lifecycle and what may run next to it. -/
def RunCall.inLifecycle : RunCall → Bool
  | .schedule | .prepare _ | .stop | .kill | .poll | .reconcile => true
  | .uploadArchive _ _ | .requestDelete | .forget | .cleanupExpired | .retryPreparation
  | .reconcileStartup | .spoolExpiry => false

/-- How far a thread has come with a start: nowhere, past its compare-and-set to `starting`
    with the start as its next operation, or past a start that may have had its effect. -/
inductive Stage where
  | clear
  | armed
  | issued
  deriving DecidableEq

/-- The operation is the compare-and-set to `starting`, and has taken effect. -/
def RunOp.arms : (o : RunOp) → o.Ans → Bool
  | .transition tr, won => tr = startingTransition && won
  | _, _ => false

def Stage.track (s : Stage) (o : RunOp) (a : o.Ans) : Stage :=
  if s = .issued || o.issues a then .issued
  else if o.arms a then .armed
  else .clear

/-- The call records an end that no Remote has reported. What a Remote reports comes with the
    time of its start; the `killed` of `kill` comes after its kill. -/
def RunCall.ownEnd : RunCall → Transition → Bool
  | .kill, tr => tr.state.any RunState.terminal && tr.startedAt.isNone &&
      tr.errorCode ≠ some (some "killed")
  | _, tr => tr.state.any RunState.terminal && tr.startedAt.isNone

/-- Where the Core records an end on its own account, no other preparation has won its
    compare-and-set to `starting`, unless its start was refused. -/
def Alone {R : Type} (t : Nat) (l : RunCall) :
    (o : RunOp) → o.Ans → RunWorld R × (Nat → Stage) → Prop
  | .transition tr, true, u => l.ownEnd tr = true → ∀ t', t' ≠ t → u.2 t' = .clear
  | _, _, _ => True

/-- The manager with the stages recorded, in runs that meet the condition. -/
abbrev endSystem (cfg : Config) : System RunSig RunError :=
  ((manager cfg siteRemote fun l => l.inLifecycle = true).instrument Stage fun _ s o a =>
    s.track o a).restrict fun t l o a u _ => Alone t l o a u

/-! ## 2. The invariant -/

abbrev EndWorld := RunWorld Site × (Nat → Stage)

/-- The program has not been started, and nothing is about to start it. -/
def Unstarted (w : EndWorld) : Prop :=
  w.1.remote.program = .idle ∧ ∀ t, w.2 t ≠ .armed

structure EndInv (w : EndWorld) : Prop where
  idle : (∀ t, w.2 t ≠ .issued) → w.1.remote.program = .idle
  running : ∀ row, w.1.row = some row → row.state = .running → w.1.remote.layout = true
  ended : Ended w.1 → w.1.remote.Settled ∨ Unstarted w

/-- What thread `t` relies on. -/
structure Relied (t : Nat) (u v : EndWorld) : Prop where
  stage : v.2 t = u.2 t
  stored : Stored u.1 → Stored v.1
  remote : u.1.remote.Kept v.1.remote

theorem Relied.refl (t : Nat) (u : EndWorld) : Relied t u u := ⟨rfl, id, .refl _⟩

theorem Relied.trans {t : Nat} {u v w : EndWorld} (h : Relied t u v) (h' : Relied t v w) :
    Relied t u w :=
  ⟨h'.stage.trans h.stage, fun hs => h'.stored (h.stored hs), h.remote.trans h'.remote⟩

theorem Relied.unarmed {t : Nat} {u v : EndWorld} (h : Relied t u v) (hu : u.2 t ≠ .armed) :
    v.2 t ≠ .armed := by rw [h.stage]; exact hu

/-- What an operation has to meet where it is performed, for the invariant to survive it. -/
structure Allowed (t : Nat) (o : RunOp) (a : o.Ans) (u : EndWorld) : Prop where
  keeps : o.KeepsRow
  /-- Only a start that is the next operation after the compare-and-set. -/
  starts : o.issues a = true → u.2 t = .armed
  ends : ∀ tr state, o = .transition tr → (tr.apply u.1.row).1 = true → tr.state = some state →
    state.terminal = true → u.1.remote.Settled ∨ Unstarted u
  runs : ∀ tr, o = .transition tr → tr.state = some .running → u.1.remote.layout = true

section

variable {t : Nat} {o : RunOp} {a : o.Ans} {u v : EndWorld}

theorem RunOp.step_site (h : o.step siteRemote t a u.1 v.1) :
    u.1.remote.Kept v.1.remote := by
  by_cases hc : ∃ c, o = .backend c
  · obtain ⟨c, rfl⟩ := hc
    obtain ⟨r, hr, hv⟩ := h
    rw [hv]
    exact Site.call_kept hr
  · rw [RunOp.step_remote h fun c hoc => hc ⟨c, hoc⟩]
    exact .refl _

/-- Only a start makes something of an idle program. -/
theorem RunOp.step_idle (h : o.step siteRemote t a u.1 v.1) (hi : o.issues a = false)
    (hu : u.1.remote.program = .idle) : v.1.remote.program = .idle := by
  by_cases hc : ∃ c, o = .backend c
  · obtain ⟨c, rfl⟩ := hc
    obtain ⟨r, hr, hv⟩ := h
    rw [hv]
    exact Site.call_idle hr hi hu
  · rw [RunOp.step_remote h fun c hoc => hc ⟨c, hoc⟩]
    exact hu

/-- A transition that records an end is not the one that arms a start. -/
theorem RunOp.arms_row (h : o.step siteRemote t a u.1 v.1) (ha : o.arms a = true) :
    ∃ row, v.1.row = some row ∧ row.state = .preparing := by
  cases o with
  | transition tr =>
    obtain ⟨hwon, hv⟩ := h
    obtain ⟨rfl, rfl⟩ : tr = startingTransition ∧ a = true := by simpa [arms] using ha
    cases hrow : u.1.row with
    | none => rw [hrow] at hwon; exact absurd hwon (by simp [Transition.apply])
    | some row =>
      cases hs : startingTransition.selects row with
      | false => rw [hrow] at hwon; exact absurd hwon (by simp [Transition.apply, hs])
      | true =>
        refine ⟨startingTransition.update row, ?_, rfl⟩
        rw [hv]
        simp [hrow, Transition.apply, hs]
  | _ => exact absurd ha (by simp [arms])

theorem Stage.track_issued {s : Stage} (h : s.track o a ≠ .issued) :
    s ≠ .issued ∧ o.issues a = false := by
  unfold track at h
  split at h
  · exact absurd rfl h
  · rename_i hs
    simpa [not_or] using hs

theorem Stage.track_armed {s : Stage} (h : s.track o a = .armed) : o.arms a = true := by
  unfold track at h
  split at h
  · exact absurd h (by simp)
  · split at h
    · rename_i ha; exact ha
    · exact absurd h (by simp)

/-- Nothing is armed by an operation that leaves an ended Run. -/
theorem Unstarted.step (hu : Unstarted u) (h : o.step siteRemote t a u.1 v.1)
    (hg : v.2 = Function.update u.2 t ((u.2 t).track o a)) (hi : o.issues a = false)
    (hv : Ended v.1) : Unstarted v := by
  refine ⟨RunOp.step_idle h hi hu.1, fun t' ht' => ?_⟩
  by_cases ht : t' = t
  · subst ht
    rw [hg, Function.update_self] at ht'
    obtain ⟨row, hrow, hprep⟩ := RunOp.arms_row h (Stage.track_armed ht')
    obtain ⟨row', hrow', hterm⟩ := hv
    rw [hrow] at hrow'
    rw [← Option.some.inj hrow', hprep] at hterm
    exact absurd hterm (by simp [RunState.terminal])
  · rw [hg, Function.update_of_ne ht] at ht'
    exact hu.2 t' ht'

/-- A row that has ended over a step had ended before it, or a transition ended it. -/
theorem RunOp.step_ended (h : o.step siteRemote t a u.1 v.1) (hv : Ended v.1) :
    Ended u.1 ∨ ∃ tr state, o = .transition tr ∧ (tr.apply u.1.row).1 = true ∧
      tr.state = some state ∧ state.terminal = true := by
  obtain ⟨row', hrow', hterm⟩ := hv
  rcases RunOp.step_row h with hr | ⟨tr, row, rfl, hrow, hs, hr⟩ | ⟨now, row, -, hrow, ht, -⟩ |
    ⟨row, id, hrow, hr⟩ | ⟨-, hr⟩
  · exact .inl ⟨row', by rw [← hr]; exact hrow', hterm⟩
  · rw [hr] at hrow'
    rw [← Option.some.inj hrow'] at hterm
    cases hstate : tr.state with
    | none =>
      refine .inl ⟨row, hrow, ?_⟩
      simpa [Transition.update, hstate] using hterm
    | some state =>
      refine .inr ⟨tr, state, rfl, by simp [hrow, Transition.apply, hs], hstate, ?_⟩
      simpa [Transition.update, hstate] using hterm
  · exact .inl ⟨row, hrow, ht⟩
  · rw [hr] at hrow'
    rw [← Option.some.inj hrow'] at hterm
    exact .inl ⟨row, hrow, hterm⟩
  · rw [hr] at hrow'
    exact absurd hrow' (by simp)

/-- A row that runs after a step ran before it, or a transition made it run. -/
theorem RunOp.step_running {row' : RunRow} (h : o.step siteRemote t a u.1 v.1)
    (hrow' : v.1.row = some row') (hrun : row'.state = .running) :
    (∃ row, u.1.row = some row ∧ row.state = .running) ∨
      ∃ tr, o = .transition tr ∧ tr.state = some .running := by
  rcases RunOp.step_row h with hr | ⟨tr, row, rfl, hrow, hs, hr⟩ | ⟨now, row, -, hrow, ht, hr⟩ |
    ⟨row, id, hrow, hr⟩ | ⟨-, hr⟩
  · exact .inl ⟨row', by rw [← hr]; exact hrow', hrun⟩
  · rw [hr] at hrow'
    rw [← Option.some.inj hrow'] at hrun
    cases hstate : tr.state with
    | none => exact .inl ⟨row, hrow, by simpa [Transition.update, hstate] using hrun⟩
    | some state =>
      refine .inr ⟨tr, rfl, ?_⟩
      rw [hstate]
      simpa [Transition.update, hstate] using hrun
  · rw [hr] at hrow'
    rw [← Option.some.inj hrow'] at hrun
    exact .inl ⟨row, hrow, hrun⟩
  · rw [hr] at hrow'
    rw [← Option.some.inj hrow'] at hrun
    exact .inl ⟨row, hrow, hrun⟩
  · rw [hr] at hrow'
    exact absurd hrow' (by simp)

/-- **The step rule.** -/
theorem EndInv.step (hu : EndInv u) (ho : Allowed t o a u)
    (h : o.step siteRemote t a u.1 v.1)
    (hg : v.2 = Function.update u.2 t ((u.2 t).track o a)) : EndInv v where
  idle := by
    intro none_
    have ht := none_ t
    rw [hg, Function.update_self] at ht
    obtain ⟨hself, hi⟩ := Stage.track_issued ht
    refine RunOp.step_idle h hi (hu.idle fun t' => ?_)
    by_cases ht' : t' = t
    · rw [ht']; exact hself
    · have := none_ t'
      rwa [hg, Function.update_of_ne ht'] at this
  running := by
    intro row' hrow' hrun
    refine (RunOp.step_site h).layout ?_
    rcases RunOp.step_running h hrow' hrun with ⟨row, hrow, hrun⟩ | ⟨tr, rfl, hstate⟩
    · exact hu.running row hrow hrun
    · exact ho.runs tr rfl hstate
  ended := by
    intro hv
    have safe : u.1.remote.Settled ∨ Unstarted u := by
      rcases RunOp.step_ended h hv with hended | ⟨tr, state, rfl, hwon, hstate, hterm⟩
      · exact hu.ended hended
      · exact ho.ends tr state rfl hwon hstate hterm
    rcases safe with hs | hs
    · exact .inl ((RunOp.step_site h).settled hs)
    -- a start would have been armed
    · cases hi : o.issues a with
      | false => exact .inr (hs.step h hg hi hv)
      | true => exact absurd (ho.starts hi) (hs.2 t)

theorem Relied.other {t' : Nat} (ho : o.KeepsRow) (h : o.step siteRemote t a u.1 v.1)
    (hg : v.2 = Function.update u.2 t ((u.2 t).track o a)) (ht : t' ≠ t) : Relied t' u v :=
  ⟨by rw [hg, Function.update_of_ne ht], (ho.endKept h).stored, RunOp.step_site h⟩

theorem RunOp.Quiet.not_issues (ho : o.Quiet) : o.issues a = false := by
  cases o with
  | backend c => cases c <;> first | exact ho.elim | rfl
  | _ => rfl

theorem RunOp.Quiet.not_arms (ho : o.Quiet) : o.arms a = false := by
  cases o with
  | transition tr => simp [arms, ho.notStarting]
  | _ => rfl

theorem RunOp.Quiet.allowed (ho : o.Quiet) : Allowed t o a u where
  keeps := ho.routine.keepsRow
  starts := fun hi => by rw [ho.not_issues] at hi; exact absurd hi (by simp)
  ends := by
    rintro tr state rfl - hstate hterm
    rw [ho.preparing state hstate] at hterm
    exact absurd hterm (by simp [RunState.terminal])
  runs := by
    rintro tr rfl hstate
    exact absurd (ho.preparing _ hstate) (by simp)

/-- An operation that neither starts nor arms leaves its thread's stage, unless a start was
    next. -/
theorem Relied.own (ho : o.KeepsRow) (hi : o.issues a = false) (ha : o.arms a = false)
    (h : o.step siteRemote t a u.1 v.1)
    (hg : v.2 = Function.update u.2 t ((u.2 t).track o a)) (hu : u.2 t ≠ .armed) :
    Relied t u v := by
  refine ⟨?_, (ho.endKept h).stored, RunOp.step_site h⟩
  rw [hg, Function.update_self]
  cases hs : u.2 t with
  | clear => simp [Stage.track, hi, ha]
  | armed => exact absurd hs hu
  | issued => simp [Stage.track]

end

/-! ## 3. The proof outline -/

def endOutline (cfg : Config) : Outline (endSystem cfg) where
  inv := EndInv
  rely := fun t _ => Relied t
  ok := fun _ _ _ _ u v => Ended u.1 → Ended v.1
  post := fun _ _ _ _ => True
  rely_refl := fun t _ => Relied.refl t
  rely_trans := fun _ _ _ _ _ => Relied.trans
  start_keeps := by
    rintro t l u v hu ⟨⟨-, hs⟩, hg⟩
    have hrow : v.1.row = u.1.row := by
      cases l with
      | prepare h => rw [hs.2]; rfl
      | _ => rw [show v.1 = u.1 from hs]
    have hremote : v.1.remote = u.1.remote := by
      cases l with
      | prepare h => rw [hs.2]; rfl
      | _ => rw [show v.1 = u.1 from hs]
    refine ⟨⟨?_, ?_, ?_⟩, fun t' _ _ => ⟨by rw [hg], (EndKept.of_row hrow).stored, ?_⟩⟩
    · rw [hg, hremote]; exact hu.idle
    · rw [hrow, hremote]; exact hu.running
    · rintro ⟨row, hv, hterm⟩
      rw [hremote, Unstarted, hg, hremote]
      exact hu.ended ⟨row, hrow ▸ hv, hterm⟩
    · rw [hremote]; exact .refl _
  env_keeps := by
    rintro u v hu ⟨⟨r, moves, hv⟩, hg⟩
    have kept : u.1.remote.Kept v.1.remote := by rw [hv]; exact Site.Moves.kept moves
    -- an idle program does not move
    have idle : u.1.remote.program ≠ .idle := by
      intro h
      cases moves with
      | runs started => rw [started] at h; exact absurd h (by simp)
      | ends started => rcases started with hp | hp <;> rw [hp] at h <;> exact absurd h (by simp)
    have hrow : v.1.row = u.1.row := by rw [hv]
    refine ⟨⟨?_, ?_, ?_⟩, fun t _ => ⟨by rw [hg], (EndKept.of_row hrow).stored, kept⟩⟩
    · intro none_
      rw [hg] at none_
      exact absurd (hu.idle none_) idle
    · intro row hr hrun
      exact kept.layout (hu.running row (hrow ▸ hr) hrun)
    · rintro ⟨row, hr, hterm⟩
      rcases hu.ended ⟨row, hrow ▸ hr, hterm⟩ with hs | hs
      · exact .inl (kept.settled hs)
      · exact absurd hs.1 idle

abbrev endContract (cfg : Config) (t : Nat) (l : RunCall) : Contract RunSig EndWorld :=
  (endOutline cfg).contract t l

section

variable {cfg : Config} {t : Nat} {l : RunCall} {α : Type} {w : EndWorld}

theorem end_ok {o : RunOp} {a : o.Ans} {u v : EndWorld} (ho : Allowed t o a u) (hu : EndInv u)
    (h : (endContract cfg t l).step o a u v) : (endContract cfg t l).ok o a u v :=
  ⟨hu.step ho h.1.1 h.1.2, fun _ _ ht => .other ho.keeps h.1.1 h.1.2 ht,
    (ho.keeps.endKept h.1.1).ended⟩

/-- **The frame rule.** A quiet program keeps whatever its thread relies on. -/
theorem end_quiet {p : RunProg α} (h : p.All RunOp.Quiet) (hw : w.2 t ≠ .armed) :
    p.wp (endContract cfg t l) (fun _ v => Relied t w v) w := by
  refine wp_mono (fun _ _ h => h.2) (wp_of_uses (R := fun _ => True) (F := Relied t w)
    (fun u v h h' => h'.trans h) (fun o a u v ho hu hi hs => ?_) h (.refl t w))
  exact ⟨end_ok ho.allowed hi hs, hu.trans (.own ho.routine.keepsRow ho.not_issues ho.not_arms
    hs.1.1 hs.1.2 (hu.unarmed hw))⟩

/-- Where nothing is to be kept, a quiet program may be performed at any stage. -/
theorem end_any {p : RunProg α} (h : p.All RunOp.Quiet) :
    p.wp (endContract cfg t l) (fun _ _ => True) w :=
  wp_of_all (fun _ _ _ _ ho hi hs => end_ok ho.allowed hi hs) h fun _ _ => trivial

/-! ## 4. What the programs share -/

/-- A single quiet operation, with what it did. -/
theorem quiet_op {o : RunOp} {Q : Except RunError o.Ans → EndWorld → Prop} (ho : o.Quiet)
    (hw : w.2 t ≠ .armed)
    (h : ∀ u a v, Relied t w u → EndInv u → o.step siteRemote t a u.1 v.1 → Relied t u v →
      Q (.ok a) v) : (atomic o).wp (endContract cfg t l) Q w := by
  simp only [atomic_wp]
  intro u hu hi a v hs
  refine ⟨end_ok ho.allowed hi hs, h u a v hu hi hs.1.1 ?_⟩
  exact .own ho.routine.keepsRow ho.not_issues ho.not_arms hs.1.1 hs.1.2 (hu.unarmed hw)

/-- What `get` returns: a row that is stored, running only in a layout; and it does return it
    where there is one. -/
theorem get_relied (hw : w.2 t ≠ .armed) :
    get.wp (endContract cfg t l) (fun r v => Relied t w v ∧ (Stored w.1 → ∃ run, r = .ok run) ∧
      ∀ run, r = .ok run → Stored v.1 ∧ (run.state = .running → v.1.remote.layout = true)) w := by
  unfold get
  rw [wp_bind]
  refine quiet_op trivial hw fun u row v₀ hu hi hs hk => ?_
  obtain ⟨hrow, -⟩ := hs
  cases row with
  | none =>
    refine ⟨hu.trans hk, fun hstored => ?_, fun _ h => absurd h (by simp)⟩
    obtain ⟨row, hsome⟩ := hu.stored hstored
    rw [hsome] at hrow
    exact absurd hrow (by simp)
  | some row =>
    have stored : Stored u.1 := ⟨row, hrow.symm⟩
    rw [onResult_ok, wp_bind]
    refine quiet_op trivial ((hu.trans hk).unarmed hw) fun u' target v hu' _ hs' hk' => ?_
    cases target with
    | none =>
      -- the target of a stored Run is registered
      obtain ⟨row', hrow'⟩ := hu'.stored (hk.stored stored)
      rw [hs'.1 rfl] at hrow'
      exact absurd hrow' (by simp)
    | some target =>
      have since : Relied t u v := (hk.trans hu').trans hk'
      refine ⟨hu.trans since, fun _ => ⟨_, rfl⟩, fun run hrun => ⟨since.stored stored, ?_⟩⟩
      obtain rfl := Except.ok.inj hrun
      intro hstate
      exact since.remote.layout (hi.running row hrow.symm hstate)

/-- A transition that neither arms a start, nor ends a Run whose program is not settled, nor
    makes it run without a layout. -/
theorem transition_relied {tr : Transition} (ht : tr.Forward) (hns : tr ≠ startingTransition)
    (ends : ∀ state, tr.state = some state → state.terminal = true → w.1.remote.Settled)
    (runs : tr.state = some .running → w.1.remote.layout = true) (hw : w.2 t ≠ .armed) :
    (atomic (.transition tr)).wp (endContract cfg t l)
      (fun r v => Relied t w v ∧ ∃ won, r = .ok won) w := by
  simp only [atomic_wp]
  intro u hu hi won v hs
  have keeps : (RunOp.transition tr).KeepsRow := ⟨ht, by simp⟩
  refine ⟨end_ok ⟨keeps, fun h => absurd h (by simp [RunOp.issues]), ?_, ?_⟩ hi hs,
    hu.trans (.own keeps rfl (by simp [RunOp.arms, hns]) hs.1.1 hs.1.2 (hu.unarmed hw)), won, rfl⟩
  · rintro tr' state htr - hstate hterm
    obtain rfl := RunOp.transition.inj htr
    exact .inl (hu.remote.settled (ends state hstate hterm))
  · rintro tr' htr hstate
    obtain rfl := RunOp.transition.inj htr
    exact hu.remote.layout (runs hstate)

/-- An end that the Core records on its own account, by a thread that has started nothing. -/
theorem ownEnd_relied {tr : Transition} (ht : tr.Forward) (hown : l.ownEnd tr = true)
    (hw : w.2 t = .clear) :
    (atomic (.transition tr)).wp (endContract cfg t l) (fun _ v => Relied t w v) w := by
  have hterm : tr.state.any RunState.terminal = true := by
    cases l <;> simp_all [RunCall.ownEnd]
  have hns : tr ≠ startingTransition := by
    rintro rfl
    exact absurd hterm (by simp [startingTransition, RunState.terminal])
  simp only [atomic_wp]
  intro u hu hi won v hs
  have keeps : (RunOp.transition tr).KeepsRow := ⟨ht, by simp⟩
  refine ⟨end_ok ⟨keeps, fun h => absurd h (by simp [RunOp.issues]), ?_, ?_⟩ hi hs,
    hu.trans (.own keeps rfl (by simp [RunOp.arms, hns]) hs.1.1 hs.1.2 ?_)⟩
  · rintro tr' state htr hwon hstate -
    obtain rfl := RunOp.transition.inj htr
    -- no thread is past its compare-and-set, this one included
    have clear : ∀ t', u.2 t' = .clear := by
      intro t'
      by_cases ht' : t' = t
      · rw [ht', hu.stage, hw]
      · have halone := hs.2
        rw [show won = true from hs.1.1.1.trans hwon] at halone
        exact halone hown t' ht'
    refine .inr ⟨hi.idle fun t' h => ?_, fun t' h => ?_⟩
    · rw [clear t'] at h; exact absurd h (by simp)
    · rw [clear t'] at h; exact absurd h (by simp)
  · rintro tr' htr hstate
    obtain rfl := RunOp.transition.inj htr
    rw [hstate] at hterm
    exact absurd hterm (by simp [RunState.terminal])
  · rw [hu.stage, hw]
    simp

/-- What a report may still be applied for. -/
structure Reported (remote : RemoteStatus) (w : EndWorld) : Prop where
  running : remote.state = some .running → w.1.remote.layout = true
  ended : ∀ state, remote.state = some state → state.terminal = true → w.1.remote.Settled

theorem Reported.kept {remote : RemoteStatus} {u v : EndWorld} (h : Reported remote u)
    (hk : Relied t u v) : Reported remote v :=
  ⟨fun hs => hk.remote.layout (h.running hs),
    fun state hs ht => hk.remote.settled (h.ended state hs ht)⟩

/-- What a status says can be applied whenever; that the layout is missing, only to a Run
    whose layout has never been seen. -/
theorem Reported.ofShows {remote : RemoteStatus} {u v : EndWorld} (hu : Relied t w u)
    (h : u.1.remote.Shows remote) (hk : Relied t u v) :
    Reported remote v ∧ (remote.layoutMissing = true → w.1.remote.layout = false) := by
  refine ⟨⟨fun hs => hk.remote.layout (h.running hs),
    fun state hs ht => hk.remote.settled (h.ended (by rw [hs]; exact ht))⟩, fun hm => ?_⟩
  cases hl : w.1.remote.layout with
  | false => rfl
  | true =>
    have := hu.remote.layout hl
    rw [h.missing hm] at this
    exact absurd this (by simp)

theorem reconcile_relied (hw : w.2 t ≠ .armed) :
    (tryCall .reconcile).wp (endContract cfg t l) (fun r v => Relied t w v ∧
      ∀ remote, r = .ok (.ok remote) →
        Reported remote v ∧ (remote.layoutMissing = true → w.1.remote.layout = false)) w := by
  refine quiet_op trivial hw fun u a v hu _ hs hk => ⟨hu.trans hk, fun remote hr => ?_⟩
  obtain rfl := Except.ok.inj hr
  obtain ⟨r, ⟨-, shows⟩, -⟩ := hs
  exact Reported.ofShows hu shows hk

theorem poll_relied (hw : w.2 t ≠ .armed) :
    (tryCall .poll).wp (endContract cfg t l) (fun r v => Relied t w v ∧
      ∀ remote, r = .ok (.ok remote) →
        Reported remote v ∧ (remote.layoutMissing = true → w.1.remote.layout = false)) w := by
  refine quiet_op trivial hw fun u a v hu _ hs hk => ⟨hu.trans hk, fun remote hr => ?_⟩
  obtain rfl := Except.ok.inj hr
  obtain ⟨r, ⟨-, shows⟩, -⟩ := hs
  exact Reported.ofShows hu shows hk

theorem terminalExpiry_relied (hw : w.2 t ≠ .armed) :
    terminalExpiry.wp (endContract cfg t l)
      (fun r v => Relied t w v ∧ ∃ expiresAt, r = .ok expiresAt) w := by
  unfold terminalExpiry
  rw [wp_bind]
  exact quiet_op trivial hw fun u now v hu _ _ hk => ⟨hu.trans hk, _, rfl⟩

theorem terminalExpiryFrom_relied {ended : Timestamp} (hw : w.2 t ≠ .armed) :
    (terminalExpiryFrom ended).wp (endContract cfg t l)
      (fun r v => Relied t w v ∧ ∃ expiresAt, r = .ok expiresAt) w := by
  unfold terminalExpiryFrom
  split
  · exact ⟨.refl t w, _, rfl⟩
  · exact terminalExpiry_relied hw

/-- `applyRemoteStatus` applies a report that holds, and does not fail. -/
theorem applyRemoteStatus_relied {run : Run} {remote : RemoteStatus} (h : Reported remote w)
    (hw : w.2 t ≠ .armed) :
    (applyRemoteStatus run remote).wp (endContract cfg t l)
      (fun r v => Relied t w v ∧ r = .ok ()) w := by
  have written {w' : EndWorld} {tr : Transition} (hk : Relied t w w') (ht : tr.Forward)
      (hns : tr ≠ startingTransition) (hstate : tr.state = some .preparing ∨ tr.state = remote.state) :
      (do let _ ← atomic (.transition tr) : RunProg Unit).wp (endContract cfg t l)
        (fun r v => Relied t w v ∧ r = .ok ()) w' := by
    refine wp_seq (transition_relied ht hns ?_ ?_ (hk.unarmed hw)) ?_ ?_
    · intro state hs hterm
      rcases hstate with hp | hr
      · rw [hp] at hs
        rw [← Option.some.inj hs] at hterm
        exact absurd hterm (by simp [RunState.terminal])
      · exact (h.kept hk).ended state (hr ▸ hs) hterm
    · intro hs
      rcases hstate with hp | hr
      · rw [hp] at hs; exact absurd hs (by simp)
      · exact (h.kept hk).running (hr ▸ hs)
    · rintro e v ⟨-, won, hwon⟩
      exact absurd hwon (by simp)
    · rintro won v ⟨hv, -⟩
      exact ⟨hk.trans hv, rfl⟩
  unfold applyRemoteStatus
  split
  · exact ⟨.refl t w, rfl⟩
  rename_i state hstate
  split
  · exact ⟨.refl t w, rfl⟩
  split
  · split
    · refine written (.refl t w) ?_ ?_ (.inl rfl)
      · simp [Transition.forward_iff, RunState.terminal]
      · simp [startingTransition]
    · refine written (.refl t w) ?_ ?_ (.inl rfl)
      · simp [Transition.forward_iff, RunState.terminal]
      · simp [startingTransition]
  · rw [wp_bind]
    refine quiet_op trivial hw fun u now v hu _ _ hk => ?_
    refine written (hu.trans hk) ?_ ?_ (.inr hstate.symm)
    · simp [Transition.forward_iff, RunState.terminal]
    · simp [startingTransition]
  · rename_i hprep hrun
    rw [wp_bind]
    refine quiet_op trivial hw fun u now v hu _ _ hk => ?_
    refine wp_seq (terminalExpiryFrom_relied ((hu.trans hk).unarmed hw)) ?_ ?_
    · rintro e v' ⟨-, expires, hexpires⟩
      exact absurd hexpires (by simp)
    · rintro expiresAt v' ⟨hv', -⟩
      refine written ((hu.trans hk).trans hv') ?_ ?_ (.inr hstate.symm)
      · cases state <;> simp_all [Transition.forward_iff, RunState.terminal]
      · simp [startingTransition]

/-- A report that the layout is missing says nothing of a Run that has been seen running. -/
theorem applyRemoteObservation_relied {run : Run} {remote : RemoteStatus}
    (h : Reported remote w) (missing : remote.layoutMissing = true → run.state ≠ .running)
    (hw : w.2 t ≠ .armed) :
    (applyRemoteObservation run remote).wp (endContract cfg t l) (fun _ v => Relied t w v) w := by
  unfold applyRemoteObservation
  split
  · rename_i hm
    split
    · rename_i hrun
      simp only [Bool.and_eq_true, decide_eq_true_eq] at hrun
      exact absurd hrun.1 (missing hm)
    · exact .refl t w
  split
  · exact wp_mono (fun _ _ hv => hv.1) (applyRemoteStatus_relied h hw)
  · exact .refl t w

theorem callReconcile_relied (hw : w.2 t ≠ .armed) :
    (call .reconcile).wp (endContract cfg t l)
      (fun r v => Relied t w v ∧ ∀ remote, r = .ok remote → Reported remote v) w := by
  rw [orRaise_wp]
  refine wp_mono (fun r v hv => ?_) (reconcile_relied hw)
  rcases r with e | e | remote
  · exact ⟨hv.1, fun _ h => absurd h (by simp)⟩
  · exact ⟨hv.1, fun _ h => absurd h (by simp)⟩
  · refine ⟨hv.1, fun remote' h => ?_⟩
    obtain rfl := Except.ok.inj h
    exact (hv.2 remote rfl).1

/-! ## 5. `poll`, `reconcile`, `stop` and `kill` -/

theorem dropRunningSpool_relied {run : Run} (hw : w.2 t ≠ .armed) :
    (dropRunningSpool run).wp (endContract cfg t l) (fun _ v => Relied t w v) w := by
  unfold dropRunningSpool
  split
  · simp only [atomic_wp]
    intro u hu hi a v hs
    have keeps : RunOp.removeSpool.KeepsRow := ⟨trivial, by simp⟩
    refine ⟨end_ok ⟨keeps, fun h => absurd h (by simp [RunOp.issues]), ?_, ?_⟩ hi hs,
      hu.trans (.own keeps rfl rfl hs.1.1 hs.1.2 (hu.unarmed hw))⟩
    · rintro tr state htr
      exact absurd htr (by simp)
    · rintro tr htr
      exact absurd htr (by simp)
  · exact .refl t w

/-- A method under the Run's lock. -/
theorem locked_ends {p : RunProg α} (hw : w.2 t ≠ .armed)
    (h : ∀ v : EndWorld, v.2 t ≠ .armed → p.wp (endContract cfg t l) (fun _ _ => True) v) :
    (withLock p).wp (endContract cfg t l) (fun _ _ => True) w :=
  withLock_wp (F := fun v => v.2 t ≠ .armed)
    (quiet_op trivial hw fun _ _ _ hu _ _ hk => (hu.trans hk).unarmed hw)
    (fun _ => end_any (all_quiet .release trivial)) h

theorem poll_ends (hw : w.2 t ≠ .armed) :
    (poll cfg).wp (endContract cfg t l) (fun _ _ => True) w := by
  unfold poll
  refine locked_ends hw fun w hw => ?_
  refine wp_seq (get_relied hw) (fun _ _ _ => trivial) fun run v₁ ⟨h₁, _, hrun⟩ => ?_
  have hw := h₁.unarmed hw
  refine wp_seq (end_quiet targetBackend_all hw) (fun _ _ _ => trivial) fun _ v₂ h₂ => ?_
  have hw := h₂.unarmed hw
  refine wp_seq (poll_relied hw) (fun _ _ _ => trivial) fun r v₃ ⟨h₃, hr⟩ => ?_
  have hw := h₃.unarmed hw
  cases r with
  | error e =>
    dsimp only
    split
    · exact end_any offline_all
    · trivial
  | ok remote =>
    obtain ⟨reported, missing⟩ := hr remote rfl
    refine wp_seq (applyRemoteObservation_relied reported (fun hm hstate => ?_) hw)
      (fun _ _ _ => trivial) fun _ v₄ h₄ => ?_
    · have layout := h₂.remote.layout ((hrun run rfl).2 hstate)
      rw [missing hm] at layout
      exact absurd layout (by simp)
    have hw := h₄.unarmed hw
    refine wp_seq (end_quiet get_all hw) (fun _ _ _ => trivial) fun updated v₅ h₅ => ?_
    have hw := h₅.unarmed hw
    refine wp_seq (R := fun _ v => Relied t v₅ v) ?_ (fun _ _ _ => trivial) fun updated v₆ h₆ => ?_
    · split
      · refine wp_seq (R := fun _ v => Relied t v₅ v) ?_ (fun _ _ h => h) fun bridged v h => ?_
        · rw [wp_attempt]
          exact end_quiet ensureWorkspaceBridge_all hw
        · have again : get.wp (endContract cfg t l) (fun _ v' => Relied t v₅ v') v :=
            wp_mono (fun _ _ h' => h.trans h') (end_quiet get_all (h.unarmed hw))
          cases bridged with
          | ok _ => exact again
          | error e =>
            dsimp only
            split
            · exact again
            · exact h
      · exact .refl t v₅
    refine wp_seq (dropRunningSpool_relied (h₆.unarmed hw)) (fun _ _ _ => trivial) fun _ _ _ => ?_
    exact wp_seq (end_any cleanupPending_all) (fun _ _ _ => trivial) fun _ _ _ => trivial

theorem reconcile_ends (hw : w.2 t ≠ .armed) :
    (reconcile cfg).wp (endContract cfg t l) (fun _ _ => True) w := by
  unfold reconcile
  refine locked_ends hw fun w hw => ?_
  refine wp_seq (get_relied hw) (fun _ _ _ => trivial) fun run v₁ ⟨h₁, _, hrun⟩ => ?_
  have hw := h₁.unarmed hw
  split
  · exact wp_seq (end_any cleanupPending_all) (fun _ _ _ => trivial) fun _ _ _ => trivial
  refine wp_seq (end_quiet targetBackend_all hw) (fun _ _ _ => trivial) fun _ v₂ h₂ => ?_
  have hw := h₂.unarmed hw
  refine wp_seq (reconcile_relied hw) (fun _ _ _ => trivial) fun r v₃ ⟨h₃, hr⟩ => ?_
  have hw := h₃.unarmed hw
  cases r with
  | error e =>
    dsimp only
    split
    · exact end_any offline_all
    · trivial
  | ok remote =>
    obtain ⟨reported, missing⟩ := hr remote rfl
    refine wp_seq (applyRemoteObservation_relied reported (fun hm hstate => ?_) hw)
      (fun _ _ _ => trivial) fun _ v₄ h₄ => ?_
    · have layout := h₂.remote.layout ((hrun run rfl).2 hstate)
      rw [missing hm] at layout
      exact absurd layout (by simp)
    have hw := h₄.unarmed hw
    refine wp_seq (end_quiet get_all hw) (fun _ _ _ => trivial) fun updated v₅ h₅ => ?_
    have hw := h₅.unarmed hw
    refine wp_seq (dropRunningSpool_relied hw) (fun _ _ _ => trivial) fun _ _ _ => ?_
    exact wp_seq (end_any cleanupPending_all) (fun _ _ _ => trivial) fun _ _ _ => trivial

/-- What `interrupt` answers of the layout. -/
theorem interrupt_relied (hw : w.2 t ≠ .armed) :
    (tryCall .interrupt).wp (endContract cfg t l) (fun r v => Relied t w v ∧
      ∀ result, r = .ok (.ok result) → result.layoutMissing = true →
        w.1.remote.layout = false) w := by
  refine quiet_op trivial hw fun u a v hu _ hs hk => ⟨hu.trans hk, fun result hr hm => ?_⟩
  obtain rfl := Except.ok.inj hr
  obtain ⟨r, ⟨hlayout, -⟩, -⟩ := hs
  cases hl : w.1.remote.layout with
  | false => rfl
  | true =>
    rw [hm, hu.remote.layout hl] at hlayout
    exact absurd hlayout (by simp)

/-- What `kill` answers, and that the program is settled behind it. -/
theorem kill_relied (hw : w.2 t ≠ .armed) :
    (tryCall .kill).wp (endContract cfg t l) (fun r v => Relied t w v ∧
      ∀ result, r = .ok (.ok result) →
        (result.layoutMissing = true → w.1.remote.layout = false ∧ result.killed = false) ∧
        (result.layoutMissing = false → result.completed = false → v.1.remote.Settled)) w := by
  refine quiet_op trivial hw fun u a v hu _ hs hk => ⟨hu.trans hk, fun result hr => ?_⟩
  obtain rfl := Except.ok.inj hr
  obtain ⟨r, ⟨hlayout, hkill⟩, hv⟩ := hs
  refine ⟨fun hm => ?_, fun hm hc => ?_⟩
  · rw [hm] at hlayout
    have hl : u.1.remote.layout = false := by simpa using hlayout.symm
    rw [hl, if_neg (by simp)] at hkill
    refine ⟨?_, hkill.1⟩
    cases hl' : w.1.remote.layout with
    | false => rfl
    | true => rw [hu.remote.layout hl'] at hl; exact absurd hl (by simp)
  · rw [hm] at hlayout
    have hl : u.1.remote.layout = true := by simpa using hlayout.symm
    rw [if_pos hl] at hkill
    rcases hkill with hkill | ⟨hcompleted, -⟩
    · rw [hv]
      exact hkill.settled hl
    · rw [hc] at hcompleted
      exact absurd hcompleted (by simp)

theorem stopReconciled_ends (hw : w.2 t ≠ .armed) :
    stopReconciled.wp (endContract cfg t l) (fun _ _ => True) w := by
  unfold stopReconciled
  refine wp_seq (callReconcile_relied hw) (fun _ _ _ => trivial) fun remote v₁ ⟨h₁, hr⟩ => ?_
  have hw := h₁.unarmed hw
  refine wp_seq (end_quiet get_all hw) (fun _ _ _ => trivial) fun current v₂ h₂ => ?_
  refine wp_seq (applyRemoteStatus_relied ((hr remote rfl).kept h₂) (h₂.unarmed hw))
    (fun _ _ _ => trivial) fun _ _ _ => ?_
  exact wp_seq (end_any get_all) (fun _ _ _ => trivial) fun _ _ _ => trivial

/-- The end that `stop` and `kill` record of a Run without a layout. -/
theorem stopLayoutMissing_ends {run : Run} {now : Nat} {live : Bool} {result : StopStatus}
    (hrun : run.state ≠ .running) (hw : w.2 t = .clear) :
    (stopLayoutMissing run now live result).wp (endContract cfg t .stop) (fun _ _ => True) w := by
  have unarmed : w.2 t ≠ .armed := by rw [hw]; simp
  unfold stopLayoutMissing
  split
  · exact end_any stopResult_all
  split
  · rename_i hlost
    simp only [Bool.and_eq_true, decide_eq_true_eq] at hlost
    exact absurd hlost.1 hrun
  split
  · trivial
  split
  · exact end_any stopResult_all
  refine wp_seq (terminalExpiry_relied unarmed) (fun _ _ _ => trivial) fun expiresAt v ⟨h, _⟩ => ?_
  refine wp_seq (ownEnd_relied endedTransition_forward rfl (h.stage.trans hw))
    (fun _ _ _ => trivial) fun _ _ _ => ?_
  exact end_any stopResult_all

theorem stop_ends (hw : w.2 t = .clear) :
    (stop cfg).wp (endContract cfg t .stop) (fun _ _ => True) w := by
  have unarmed {v : EndWorld} (h : Relied t w v) : v.2 t ≠ .armed := by
    rw [h.stage, hw]
    simp
  unfold stop
  refine wp_seq (get_relied (unarmed (.refl t w))) (fun _ _ _ => trivial)
    fun run v₁ hread => ?_
  obtain ⟨h₁, _, hrun⟩ := hread
  split
  · trivial
  refine wp_seq (quiet_op (Q := fun _ v => Relied t v₁ v) trivial (unarmed h₁)
    fun _ _ _ hu _ _ hk => hu.trans hk) (fun _ _ _ => trivial) fun now v₂ h₂ => ?_
  have hw₂ := h₁.trans h₂
  refine wp_seq (end_quiet (all_quietTransition ?_) (unarmed hw₂)) (fun _ _ _ => trivial)
    fun _ v₃ h₃ => ?_
  · simp [Transition.quiet_iff, Transition.forward_iff, RunState.terminal, startingTransition]
  have hw₃ := hw₂.trans h₃
  refine wp_seq (end_quiet cancelPreparation_all (unarmed hw₃)) (fun _ _ _ => trivial)
    fun live v₄ h₄ => ?_
  have hw₄ := hw₃.trans h₄
  split
  · refine wp_seq (terminalExpiry_relied (unarmed hw₄)) (fun _ _ _ => trivial)
      fun expiresAt v hexpiry => ?_
    have h := hexpiry.1
    refine wp_seq (ownEnd_relied unuploadedTransition_forward rfl
      ((hw₄.trans h).stage.trans hw)) (fun _ _ _ => trivial) fun _ _ _ => ?_
    exact end_any stopResult_all
  refine wp_seq (end_quiet targetBackend_all (unarmed hw₄)) (fun _ _ _ => trivial)
    fun _ v₅ h₅ => ?_
  have hw₅ := hw₄.trans h₅
  refine wp_seq (interrupt_relied (unarmed hw₅)) (fun _ _ _ => trivial) fun r v₆ hcall => ?_
  obtain ⟨h₆, hr⟩ := hcall
  have hw₆ := hw₅.trans h₆
  split
  · split
    · exact end_any stopResult_all
    · trivial
  · trivial
  · rename_i result
    split
    · exact stopReconciled_ends (unarmed hw₆)
    split
    · rename_i hm
      refine stopLayoutMissing_ends (fun hstate => ?_) (hw₆.stage.trans hw)
      have layout := (((h₂.trans h₃).trans h₄).trans h₅).remote.layout ((hrun run rfl).2 hstate)
      rw [hr result rfl hm] at layout
      exact absurd layout (by simp)
    split
    · exact end_any stopResult_all
    split
    · exact end_any stopResult_all
    · exact stopReconciled_ends (unarmed hw₆)

theorem killLayoutMissing_ends {run : Run} {now : Nat} {live : Bool} {result : StopStatus}
    (hrun : run.state ≠ .running) (hkilled : result.killed = false) (hw : w.2 t = .clear) :
    (killLayoutMissing run now live result).wp (endContract cfg t .kill) (fun _ _ => True) w := by
  have unarmed : w.2 t ≠ .armed := by rw [hw]; simp
  unfold killLayoutMissing
  split
  · rename_i h
    rw [hkilled] at h
    exact absurd h (by simp)
  split
  · rename_i hlost
    simp only [Bool.and_eq_true, decide_eq_true_eq] at hlost
    exact absurd hlost.1 hrun
  split
  · trivial
  split
  · exact end_any get_all
  refine wp_seq (terminalExpiry_relied unarmed) (fun _ _ _ => trivial) fun expiresAt v ⟨h, _⟩ => ?_
  refine wp_seq (ownEnd_relied endedTransition_forward ?_ (h.stage.trans hw))
    (fun _ _ _ => trivial) fun _ _ _ => ?_
  · simp [RunCall.ownEnd, endedTransition, RunState.terminal]
  exact end_any get_all

/-- `kill` records `killed` behind its kill. -/
theorem killRecorded_ends {now : Nat} (settled : w.1.remote.Settled) (hw : w.2 t ≠ .armed) :
    (killRecorded now "killed").wp (endContract cfg t l) (fun _ _ => True) w := by
  unfold killRecorded
  refine wp_seq (terminalExpiry_relied hw) (fun _ _ _ => trivial) fun expiresAt v ⟨h, _⟩ => ?_
  refine wp_seq (transition_relied endedTransition_forward ?_ (fun _ _ _ => h.remote.settled settled)
    ?_ (h.unarmed hw)) (fun _ _ _ => trivial) fun _ _ _ => ?_
  · simp [endedTransition, startingTransition]
  · intro hstate
    exact absurd hstate (by simp [endedTransition])
  exact end_any get_all

theorem kill_ends (hw : w.2 t = .clear) :
    (kill cfg).wp (endContract cfg t .kill) (fun _ _ => True) w := by
  have unarmed {v : EndWorld} (h : Relied t w v) : v.2 t ≠ .armed := by
    rw [h.stage, hw]
    simp
  unfold kill
  refine wp_seq (get_relied (unarmed (.refl t w))) (fun _ _ _ => trivial)
    fun run v₁ hread => ?_
  obtain ⟨h₁, _, hrun⟩ := hread
  split
  · trivial
  refine wp_seq (end_quiet cancelPreparation_all (unarmed h₁)) (fun _ _ _ => trivial)
    fun live v₂ h₂ => ?_
  have hw₂ := h₁.trans h₂
  refine wp_seq (quiet_op (Q := fun _ v => Relied t v₂ v) trivial (unarmed hw₂)
    fun _ _ _ hu _ _ hk => hu.trans hk) (fun _ _ _ => trivial) fun now v₃ h₃ => ?_
  have hw₃ := hw₂.trans h₃
  refine wp_seq (end_quiet (all_quietTransition ?_) (unarmed hw₃)) (fun _ _ _ => trivial)
    fun _ v₄ h₄ => ?_
  · simp [Transition.quiet_iff, Transition.forward_iff, RunState.terminal, startingTransition]
  have hw₄ := hw₃.trans h₄
  refine wp_seq (end_quiet targetBackend_all (unarmed hw₄)) (fun _ _ _ => trivial)
    fun _ v₅ h₅ => ?_
  have hw₅ := hw₄.trans h₅
  refine wp_seq (kill_relied (unarmed hw₅)) (fun _ _ _ => trivial) fun r v₆ hcall => ?_
  obtain ⟨h₆, hr⟩ := hcall
  have hw₆ := hw₅.trans h₆
  split
  · split
    · exact end_any get_all
    · trivial
  · trivial
  · rename_i result
    obtain ⟨missing, killed⟩ := hr result rfl
    split
    · refine wp_seq (callReconcile_relied (unarmed hw₆)) (fun _ _ _ => trivial)
        fun remote v₇ hcall => ?_
      obtain ⟨h₇, hremote⟩ := hcall
      have hw₇ := hw₆.trans h₇
      refine wp_seq (end_quiet get_all (unarmed hw₇)) (fun _ _ _ => trivial)
        fun current v₈ h₈ => ?_
      refine wp_seq (applyRemoteStatus_relied ((hremote remote rfl).kept h₈)
        (unarmed (hw₇.trans h₈))) (fun _ _ _ => trivial) fun _ _ _ => ?_
      exact end_any get_all
    rename_i hcompleted
    split
    · rename_i hm
      refine killLayoutMissing_ends (fun hstate => ?_) (missing hm).2 (hw₆.stage.trans hw)
      have layout := (((h₂.trans h₃).trans h₄).trans h₅).remote.layout ((hrun run rfl).2 hstate)
      rw [(missing hm).1] at layout
      exact absurd layout (by simp)
    · rename_i hm
      exact killRecorded_ends (killed (by simpa using hm) (by simpa using hcompleted)) (unarmed hw₆)

/-! ## 6. The preparation

Where it fails it has not issued a start: what it does behind one, it does without failing. -/

/-- A failure that the preparation will record. -/
def Failed (t : Nat) (r : Except RunError α) (v : EndWorld) : Prop :=
  ∀ e, r = .error e → e.isException = true → v.2 t ≠ .issued

theorem Failed.of_ne {r : Except RunError α} {v : EndWorld} (h : v.2 t ≠ .issued) : Failed t r v :=
  fun _ _ _ => h

theorem Failed.ok {a : α} {v : EndWorld} : Failed t (.ok a) v := fun _ h => absurd h (by simp)

/-- An exception that goes on through a caller. -/
theorem Failed.error {β : Type} {e : RunError} {v : EndWorld}
    (h : Failed t (.error e : Except RunError α) v) : Failed t (.error e : Except RunError β) v :=
  fun e' he' => h e' (congrArg Except.error (Except.error.inj he'))

/-- A quiet part of the preparation, before its start. -/
theorem clear_seq {β : Type} {p : RunProg α} {f : α → RunProg β} (hp : p.All RunOp.Quiet)
    (hw : w.2 t = .clear)
    (h : ∀ a v, v.2 t = .clear → (f a).wp (endContract cfg t l) (Failed t) v) :
    (p >>= f).wp (endContract cfg t l) (Failed t) w := by
  refine wp_seq (end_quiet hp ?_) (fun e v hk => .of_ne ?_) fun a v hk => h a v (hk.stage.trans hw)
  · rw [hw]; simp
  · rw [hk.stage, hw]; simp

/-- The compare-and-set to `starting`. -/
theorem starting_seq {f : Bool → RunProg α} {Q : Except RunError α → EndWorld → Prop}
    (hw : w.2 t = .clear)
    (won : ∀ v, v.2 t = .armed → Stored v.1 → (f true).wp (endContract cfg t l) Q v)
    (lost : ∀ v, v.2 t = .clear → (f false).wp (endContract cfg t l) Q v) :
    (atomic (.transition startingTransition) >>= f).wp (endContract cfg t l) Q w := by
  simp only [wp_bind, atomic_wp]
  intro u hu hi a v hs
  have keeps : (RunOp.transition startingTransition).KeepsRow :=
    ⟨startingTransition_forward, by simp⟩
  refine ⟨end_ok ⟨keeps, fun h => absurd h (by simp [RunOp.issues]), ?_, ?_⟩ hi hs, ?_⟩
  · rintro tr state htr - hstate hterm
    obtain rfl := RunOp.transition.inj htr
    rw [← Option.some.inj hstate] at hterm
    exact absurd hterm (by simp [RunState.terminal])
  · rintro tr htr hstate
    obtain rfl := RunOp.transition.inj htr
    exact absurd hstate (by simp [startingTransition])
  have stage : v.2 t = Stage.track .clear (.transition startingTransition) a := by
    rw [hs.1.2, Function.update_self, hu.stage, hw]
  cases a with
  | true =>
    refine won v stage ?_
    obtain ⟨row, hrow, -⟩ :=
      RunOp.arms_row (t := t) (o := .transition startingTransition) hs.1.1 (by simp [RunOp.arms])
    exact ⟨row, hrow⟩
  | false => exact lost v (by rw [stage]; simp [Stage.track, RunOp.issues, RunOp.arms])

/-- How a start has gone, by what its caller sees. -/
def Started (t : Nat) (r : Except RunError (Except RunError Unit)) (v : EndWorld) : Prop :=
  Stored v.1 ∧ match r with
    | .ok (.ok _) => v.2 t = .issued
    | .ok (.error e) => v.2 t = if e.startUnknown then .issued else .clear
    | .error _ => v.2 t ≠ .issued

theorem start_ok {o : RunOp} {a : o.Ans} {u v : EndWorld}
    (ho : o = .backend .start ∨ o = .backend .startGit) (hu : u.2 t = .armed) (hi : EndInv u)
    (h : (endContract cfg t l).step o a u v) : (endContract cfg t l).ok o a u v := by
  refine end_ok ⟨?_, fun _ => hu, ?_, ?_⟩ hi h
  · rcases ho with rfl | rfl <;> exact ⟨trivial, by simp⟩
  · rcases ho with rfl | rfl <;> exact fun _ _ htr => absurd htr (by simp)
  · rcases ho with rfl | rfl <;> exact fun _ htr => absurd htr (by simp)

theorem start_started (hw : w.2 t = .armed) (stored : Stored w.1) :
    (tryCall .start).wp (endContract cfg t l) (Started t) w := by
  simp only [atomic_wp]
  intro u hu hi a v hs
  have armed : u.2 t = .armed := hu.stage.trans hw
  refine ⟨start_ok (.inl rfl) armed hi hs, ?_, ?_⟩
  · exact (RunOp.KeepsRow.endKept (t := t) (o := .backend .start) ⟨trivial, by simp⟩ hs.1.1).stored
      (hu.stored stored)
  · have stage : v.2 t = Stage.track .armed (.backend .start) a := by
      rw [hs.1.2, Function.update_self, armed]
    cases a with
    | ok _ => exact stage
    | error e => simpa [Stage.track, RunOp.issues, RunOp.arms] using stage

theorem startGit_started (hw : w.2 t = .armed) (stored : Stored w.1) :
    (tryCall .startGit).wp (endContract cfg t l) (Started t) w := by
  simp only [atomic_wp]
  intro u hu hi a v hs
  have armed : u.2 t = .armed := hu.stage.trans hw
  refine ⟨start_ok (.inr rfl) armed hi hs, ?_, ?_⟩
  · exact (RunOp.KeepsRow.endKept (t := t) (o := .backend .startGit) ⟨trivial, by simp⟩ hs.1.1).stored
      (hu.stored stored)
  · have stage : v.2 t = Stage.track .armed (.backend .startGit) a := by
      rw [hs.1.2, Function.update_self, armed]
    cases a with
    | ok _ => exact stage
    | error e => simpa [Stage.track, RunOp.issues, RunOp.arms] using stage

/-- What follows a start whose status is unknown does not fail. -/
theorem reconcileStartException_fails {target : Target} {exc : RunError}
    (hw : w.2 t = .issued) (stored : Stored w.1) :
    (reconcileStartException cfg target exc).wp (endContract cfg t l)
      (fun r v => v.2 t = .issued ∧ ∀ e, r = .error e → e.isException = false) w := by
  have unarmed {v : EndWorld} (h : Relied t w v) : v.2 t ≠ .armed := by
    rw [h.stage, hw]
    simp
  have unresolved {v : EndWorld} (h : Relied t w v) (current : Run) : (do
      let _ ← atomic (.transition
        { expectedStates := [.preparing], state := some .preparing,
          phase := some (some (current.phase.getD .starting)), endedAt := some none,
          expiresAt := some none, errorCode := some (some "start_status_unknown"),
          errorDetail := some (some (clip 1000 exc.message)) }) : RunProg Unit).wp
      (endContract cfg t l)
      (fun r v => v.2 t = .issued ∧ ∀ e, r = .error e → e.isException = false) v := by
    rw [wp_bind]
    refine quiet_op ?_ (unarmed h) fun u won v' hu _ _ hk => ?_
    · show Transition.Quiet _
      simp [Transition.quiet_iff, Transition.forward_iff, RunState.terminal, startingTransition]
    · exact ⟨((h.trans hu).trans hk).stage.trans hw, fun e he => absurd he (by simp)⟩
  unfold reconcileStartException
  refine wp_seq (R := fun r v => Relied t w v ∧
      ∃ a, r = .ok a ∧ ∀ remote, a = .ok remote → Reported remote v) ?_ ?_ ?_
  · rw [wp_attempt]
    refine wp_seq (end_quiet targetBackend_all (unarmed (.refl t w))) ?_ fun _ v₁ h₁ => ?_
    · exact fun e v h => ⟨h, _, rfl, fun _ hr => absurd hr (by simp)⟩
    · refine wp_mono (fun r v hv => ?_) (callReconcile_relied (unarmed h₁))
      exact ⟨h₁.trans hv.1, r, rfl, hv.2⟩
  · rintro e v ⟨-, a, ha, -⟩
    exact absurd ha (by simp)
  rintro remote v₂ ⟨h₂, a, ha, hremote⟩
  obtain rfl := Except.ok.inj ha
  refine wp_seq (get_relied (unarmed h₂)) ?_ ?_
  · rintro e v ⟨-, stored', -⟩
    obtain ⟨run, hrun⟩ := stored' (h₂.stored stored)
    exact absurd hrun (by simp)
  rintro current v₃ ⟨h₃, -, hrun⟩
  have hw₃ := h₂.trans h₃
  cases remote with
  | error e =>
    dsimp only
    split
    · exact unresolved hw₃ current
    · rename_i he
      exact ⟨hw₃.stage.trans hw, fun e' he' => by
        rw [← Except.error.inj he']; simpa using he⟩
  | ok remote =>
    refine wp_seq (applyRemoteStatus_relied ((hremote remote rfl).kept h₃) (unarmed hw₃)) ?_ ?_
    · rintro e v ⟨-, he⟩
      exact absurd he (by simp)
    rintro _ v₄ ⟨h₄, -⟩
    have hw₄ := hw₃.trans h₄
    refine wp_seq (get_relied (unarmed hw₄)) ?_ ?_
    · rintro e v ⟨-, stored', -⟩
      obtain ⟨run, hrun⟩ := stored' (hw₄.stored stored)
      exact absurd hrun (by simp)
    rintro current v₅ ⟨h₅, -⟩
    split
    · exact ⟨(hw₄.trans h₅).stage.trans hw, fun e he => absurd he (by simp)⟩
    · exact unresolved (hw₄.trans h₅) current

/-- A start and what follows it: where it fails, the start was refused. -/
theorem startWithReconciliation_fails {target : Target}
    {starter : RunProg (Except RunError Unit)}
    (hs : starter.wp (endContract cfg t l) (Started t) w) :
    (startWithReconciliation cfg target starter).wp (endContract cfg t l)
      (fun r v => Failed t r v ∧ ∀ started, r = .ok started → v.2 t = .issued) w := by
  unfold startWithReconciliation
  refine wp_seq hs ?_ ?_
  · exact fun e v h => ⟨.of_ne h.2, fun _ hr => absurd hr (by simp)⟩
  rintro r v ⟨stored, hstage⟩
  cases r with
  | ok _ =>
    have issued : v.2 t = .issued := hstage
    rw [wp_bind]
    refine quiet_op ?_ (by rw [issued]; simp) fun u _ v' hu _ _ hk => ?_
    · show Transition.Quiet _
      simp [Transition.quiet_iff, Transition.forward_iff, startingTransition, RunState.terminal]
    · exact ⟨.ok, fun _ _ => (hu.trans hk).stage.trans issued⟩
  | error e =>
    have hstage : v.2 t = if e.startUnknown then .issued else .clear := hstage
    dsimp only
    split
    · rename_i hunknown
      rw [if_pos hunknown] at hstage
      refine wp_seq (reconcileStartException_fails hstage stored) ?_ fun _ v h => ⟨.ok, fun _ _ => h.1⟩
      rintro e' v ⟨-, he'⟩
      refine ⟨fun e'' he'' hexc => ?_, fun _ hr => absurd hr (by simp)⟩
      rw [he' e'' (congrArg Except.error (Except.error.inj he''))] at hexc
      exact absurd hexc (by simp)
    · rename_i hunknown
      rw [if_neg hunknown] at hstage
      exact ⟨.of_ne (by rw [hstage]; simp), fun _ hr => absurd hr (by simp)⟩

theorem startMaterializedRun_fails {target : Target} {h : Nat} (hw : w.2 t = .clear) :
    (startMaterializedRun cfg target h).wp (endContract cfg t l) (Failed t) w := by
  unfold startMaterializedRun
  refine clear_seq checkCancel_all hw fun _ v hv => ?_
  refine starting_seq hv (fun v armed stored => ?_) fun v clear => ?_
  · simp only [if_true]
    refine wp_seq (startWithReconciliation_fails ?_) (fun e v h => h.1.error) fun _ v _ => .ok
    refine wp_seq (targetBackend_wp (Q := fun r u => u = v) rfl fun _ => rfl) ?_ ?_
    · rintro e _ rfl
      exact ⟨stored, by rw [armed]; simp⟩
    · rintro _ _ rfl
      exact start_started armed stored
  · rw [if_neg (by simp)]
    exact clear_seq checkCancel_all clear fun _ v hv => .of_ne (by rw [hv]; simp)

theorem prepareWorkspace_fails {target : Target} {h : Nat} (hw : w.2 t = .clear) :
    (prepareWorkspace cfg target h).wp (endContract cfg t l) (Failed t) w := by
  unfold prepareWorkspace
  refine clear_seq checkCancel_all hw fun _ _ hw => ?_
  refine clear_seq (all_orRaise (all_quiet .requireWorkspace trivial)) hw fun _ _ hw => ?_
  refine clear_seq targetBackend_all hw fun _ _ hw => ?_
  refine clear_seq (all_call .createLayout trivial) hw fun _ _ hw => ?_
  refine clear_seq materializeWorkspace_all hw fun _ _ hw => ?_
  refine clear_seq checkCancel_all hw fun _ _ hw => ?_
  refine clear_seq (all_call .commitSnapshot trivial) hw fun _ _ hw => ?_
  refine clear_seq writeSourceMetadata_all hw fun _ _ hw => ?_
  exact startMaterializedRun_fails hw

theorem prepareGit_fails {target : Target} {h : Nat} (hw : w.2 t = .clear) :
    (prepareGit cfg target h).wp (endContract cfg t l) (Failed t) w := by
  unfold prepareGit
  refine clear_seq checkCancel_all hw fun _ _ hw => ?_
  refine clear_seq targetBackend_all hw fun _ _ hw => ?_
  refine clear_seq (all_call .preflight trivial) hw fun _ _ hw => ?_
  refine clear_seq (all_call .createLayout trivial) hw fun _ _ hw => ?_
  refine clear_seq (all_call .gitInvocation trivial) hw fun _ _ hw => ?_
  refine clear_seq writeSourceMetadata_all hw fun _ _ hw => ?_
  refine clear_seq checkCancel_all hw fun _ _ hw => ?_
  refine starting_seq hw (fun v armed stored => ?_) fun v clear => ?_
  · simp only [if_true]
    refine wp_seq (startWithReconciliation_fails (startGit_started armed stored))
      (fun e v h => h.1.error) fun started v h => ?_
    have issued : v.2 t = .issued := h.2 started rfl
    split
    · rw [wp_bind]
      refine quiet_op ?_ (by rw [issued]; simp) fun _ _ _ _ _ _ _ => .ok
      show Transition.Quiet _
      simp [Transition.quiet_iff, Transition.forward_iff, startingTransition, RunState.terminal]
    · exact .ok
  · rw [if_neg (by simp)]
    exact clear_seq checkCancel_all clear fun _ v hv => .of_ne (by rw [hv]; simp)

theorem prepareZip_fails {target : Target} {h : Nat} (hw : w.2 t = .clear) :
    (prepareZip cfg target h).wp (endContract cfg t l) (Failed t) w := by
  unfold prepareZip
  refine clear_seq checkCancel_all hw fun _ _ hw => ?_
  refine clear_seq (all_quiet .spoolReady trivial) hw fun ready _ hw => ?_
  split
  · refine clear_seq (all_orRaise (all_quiet .validateZip trivial)) hw fun total _ hw => ?_
    refine clear_seq ensureTargetCapacity_all hw fun _ _ hw => ?_
    refine clear_seq (all_quietTransition copyingTransition_quiet) hw fun _ _ hw => ?_
    refine clear_seq targetBackend_all hw fun _ _ hw => ?_
    refine clear_seq (all_call .createLayout trivial) hw fun _ _ hw => ?_
    refine clear_seq checkCancel_all hw fun _ _ hw => ?_
    refine clear_seq (all_call .materialize trivial) hw fun _ _ hw => ?_
    refine clear_seq checkCancel_all hw fun _ _ hw => ?_
    refine clear_seq (all_call .commitSnapshot trivial) hw fun _ _ hw => ?_
    refine clear_seq writeZipManifest_all hw fun _ _ hw => ?_
    refine clear_seq writeSourceMetadata_all hw fun _ _ hw => ?_
    exact startMaterializedRun_fails hw
  · exact .of_ne (by rw [hw]; simp)

/-- **A preparation that fails has issued no start.** -/
theorem prepareSync_fails {h : Nat} (hw : w.2 t = .clear) :
    (prepareSync cfg h).wp (endContract cfg t l) (Failed t) w := by
  unfold prepareSync
  refine clear_seq get_all hw fun run _ hw => ?_
  split
  · cases run.sourceKind with
    | git => exact prepareGit_fails hw
    | workspace => exact prepareWorkspace_fails hw
    | archive => exact prepareZip_fails hw
  · exact .ok

/-- The failure of a preparation that has issued no start. -/
theorem recordPreparationFailure_ends {exc : RunError} {cancel : RunProg Bool}
    (hc : cancel.All RunOp.Quiet) (hl : ∃ h, l = .prepare h) (hw : w.2 t ≠ .issued) :
    (recordPreparationFailure exc cancel).wp (endContract cfg t l) (fun _ _ => True) w := by
  unfold recordPreparationFailure
  simp only [wp_bind, atomic_wp]
  intro u hu hi row v hs
  refine ⟨end_ok (RunOp.Quiet.allowed trivial) hi hs, ?_⟩
  -- whatever it was up to, the thread will not start any more
  have clear : v.2 t = .clear := by
    rw [hs.1.2, Function.update_self, hu.stage]
    simp [Stage.track, RunOp.issues, RunOp.arms, hw]
  have unarmed {v' : EndWorld} (h : Relied t v v') : v'.2 t ≠ .armed := by
    rw [h.stage, clear]
    simp
  rw [onResult_ok]
  cases row with
  | none => trivial
  | some current =>
    dsimp only
    split
    · refine wp_seq (end_quiet hc (unarmed (.refl t v))) (fun _ _ _ => trivial)
        fun isSet v₁ h₁ => ?_
      refine wp_seq (quiet_op (Q := fun _ v => Relied t v₁ v) trivial (unarmed h₁)
        fun _ _ _ hu _ _ hk => hu.trans hk) (fun _ _ _ => trivial) fun now v₂ h₂ => ?_
      have hw₂ := h₁.trans h₂
      refine wp_seq (terminalExpiry_relied (unarmed hw₂)) (fun _ _ _ => trivial)
        fun expiresAt v₃ hexpiry => ?_
      have h₃ := hexpiry.1
      refine wp_seq (ownEnd_relied ?_ ?_ ((hw₂.trans h₃).stage.trans clear))
        (fun _ _ _ => trivial) fun _ _ _ => trivial
      · generalize (isSet || _) = stopped
        cases stopped <;> simp [Transition.forward_iff, RunState.terminal]
      · obtain ⟨h, rfl⟩ := hl
        generalize (isSet || _) = stopped
        cases stopped <;> simp [RunCall.ownEnd, RunState.terminal]
    · trivial

theorem prepare_ends {h : Nat} (hw : w.2 t = .clear) :
    (prepare cfg h).wp (endContract cfg t (.prepare h)) (fun _ _ => True) w := by
  unfold prepare Prog.finally_
  refine wp_seq (R := fun _ _ => True) ?_ (fun _ _ _ => trivial) fun r v _ => ?_
  · rw [wp_attempt]
    refine wp_seq (R := fun r v => ∀ e, r = .ok (.error e) → e.isException = true → v.2 t ≠ .issued)
      ?_ (fun _ _ _ => trivial) fun r v hr => ?_
    · rw [wp_attempt]
      refine wp_mono (fun r v hv e he => ?_) (prepareSync_fails hw)
      exact hv e (Except.ok.inj he)
    · cases r with
      | ok _ => trivial
      | error e =>
        dsimp only
        split
        · rename_i he
          exact recordPreparationFailure_ends (all_quiet (.isCancelled h) trivial) ⟨h, rfl⟩
            (hr e rfl he)
        · trivial
  · refine wp_seq (end_any ((all_quiet (.taskFinish h) trivial).bind fun _ =>
      all_quiet (.taskDoneCallback h) trivial)) (fun _ _ _ => trivial) fun _ _ _ => ?_
    rw [wp_ofExcept]
    trivial

/-! ## 7. Every run -/

/-- The Run at the beginning of its lifecycle: preparing, and not started. -/
structure AtFirst (w : RunWorld Site) : Prop where
  preparing : ∀ row, w.row = some row → row.state = .preparing
  idle : w.remote.program = .idle

theorem AtFirst.inv {w : RunWorld Site} (h : AtFirst w) : EndInv (w, fun _ => .clear) where
  idle := fun _ => h.idle
  running := fun row hrow hrun => by
    rw [h.preparing row hrow] at hrun
    exact absurd hrun (by simp)
  ended := fun ⟨row, hrow, hterm⟩ => by
    rw [h.preparing row hrow] at hterm
    exact absurd hterm (by simp [RunState.terminal])

theorem end_proved {w : RunWorld Site} : (endOutline cfg).Proved (w, fun _ => .clear) := by
  rintro t l u v hu fresh ⟨⟨hl, hs⟩, hg⟩
  have clear : v.2 t = .clear := by
    rw [hg]
    exact fresh.stage
  have unarmed : v.2 t ≠ .armed := by
    rw [clear]
    simp
  cases l with
  | prepare h => exact prepare_ends clear
  | stop => exact stop_ends clear
  | kill => exact kill_ends clear
  | poll => exact poll_ends unarmed
  | reconcile => exact reconcile_ends unarmed
  | schedule =>
    simp only [RunCall.body, atomic_wp]
    intro u hu hi a v hs
    refine ⟨end_ok ⟨⟨trivial, by simp⟩, fun h => absurd h (by simp [RunOp.issues]), ?_, ?_⟩ hi hs,
      trivial⟩
    · exact fun _ _ htr => absurd htr (by simp)
    · exact fun _ htr => absurd htr (by simp)
  | uploadArchive _ _ | requestDelete | forget | cleanupExpired | retryPreparation
  | reconcileStartup | spoolExpiry => exact absurd hl (by simp [RunCall.inLifecycle])

/-- An end stays, whatever step is taken. -/
theorem ended_step {w : RunWorld Site} (first : AtFirst w) {es : List (Event (endSystem cfg))}
    {p p' : Pool (endSystem cfg)} (run : (endSystem cfg).Runs (w, fun _ => .clear) es p)
    {e : Event (endSystem cfg)} (st : Pool.Step (endSystem cfg) p e p')
    (ended : Ended p.world.1) : Ended p'.world.1 := by
  cases e with
  | call l =>
    cases st with
    | call started =>
      rename_i v
      refine (EndKept.of_row ?_).ended ended
      cases l with
      | prepare h => rw [started.1.2.2]; rfl
      | _ => rw [show v.1 = p.world.1 from started.1.2]
  | act t l o a => exact Outline.ok_of_run end_proved first.inv run st ended
  | env =>
    cases st with
    | env moved =>
      obtain ⟨⟨r, -, hv⟩, -⟩ := moved
      exact (EndKept.of_row (by rw [hv])).ended ended

/-- **Nothing runs after a recorded end.** In every run of schedules, preparations, stops,
    kills and observations of one Run in which an end of the Core's own is recorded only while
    no other preparation is past its compare-and-set: once the stored Run has ended, its
    program is not running, and never runs in any continuation. -/
theorem nothing_runs_after_end {w : RunWorld Site} (first : AtFirst w)
    {es : List (Event (endSystem cfg))} {p : Pool (endSystem cfg)}
    (run : (endSystem cfg).Runs (w, fun _ => .clear) es p) (ended : Ended p.world.1)
    {es' : List (Event (endSystem cfg))} {p' : Pool (endSystem cfg)}
    (later : Conc.Run (Pool.Step (endSystem cfg)) p es' p') :
    p'.world.1.remote.program ≠ .running := by
  have still : Ended p'.world.1 := by
    induction later with
    | refl => exact ended
    | snoc before last ih => exact ended_step first (run.append before) last ih
  rcases (Outline.inv_of_run end_proved first.inv (run.append later)).ended still with hs | hs
  · rcases hs with hp | ⟨-, hp⟩
    · rw [hp]; simp
    · exact hp
  · rw [hs.1]; simp

end

/-! ## 8. The two ways it can go -/

/-- A Remote on which everything goes well, where it ends up in `after`. -/
def siteReply (layoutMissing : Bool) (after : Site) : Reply Site where
  after := after
  remote := fun
    | .preflight => .ok none
    | .createLayout | .gitInvocation | .writeJson _ | .startGit => .ok ()
    | .interrupt => .ok ⟨false, layoutMissing, false, false, false, false⟩
    | .kill => .ok ⟨false, layoutMissing, false, !layoutMissing, false, false⟩
    | _ => .error (.sshBackend "")

/-- A new Git Run, before `create` has scheduled its preparation. -/
def newGitRun (site : Site) : RunWorld Site :=
  ⟨some (createdRow .git "" 0), none, [], none, false, site⟩

/-- **A Run that runs after its end.** `stop` finds no preparation to cancel, and no layout on
    the Remote. Then the preparation is scheduled, passes its compare-and-set to `starting`
    and starts the program. `stop` records `cancelled`; the program runs. -/
theorem started_under_cancelled :
    ∃ es, ∃ p p' : Pool (manager ⟨false, 0⟩ siteRemote fun l => l.inLifecycle = true),
      (manager ⟨false, 0⟩ siteRemote fun l => l.inLifecycle = true).Runs
          (newGitRun ⟨false, false, .idle⟩) es p ∧
        Ended p.world ∧ Pool.Step _ p .env p' ∧ p'.world.remote.program = .running := by
  let player := managerPlayer ⟨false, 0⟩ siteRemote fun l => l.inLifecycle = true
  let before := siteReply true ⟨false, false, .idle⟩
  let laidOut := siteReply false ⟨true, false, .idle⟩
  let started := siteReply false ⟨true, false, .pending⟩
  have played : (player.play (.init (newGitRun ⟨false, false, .idle⟩))
      (.call .stop :: List.replicate 7 (.act 0 before) ++
        .call .schedule :: .act 1 before :: .call (.prepare 0) ::
          List.replicate 4 (.act 2 before) ++ List.replicate 5 (.act 2 laidOut) ++
        .act 2 started :: .act 0 before :: [])).map
      (fun p => (p.world.row.map RunRow.state, p.world.remote)) =
      some (some .stopped, ⟨true, false, .pending⟩) := by decide +kernel
  obtain ⟨p, hp, hworld⟩ := Option.map_eq_some_iff.mp played
  obtain ⟨hrow, hsite⟩ := Prod.mk.inj hworld
  obtain ⟨es, run⟩ := player.play_sound hp
  obtain ⟨row, hsome, hstate⟩ := Option.map_eq_some_iff.mp hrow
  refine ⟨es, p, _, run, ⟨row, hsome, by rw [hstate]; rfl⟩, .env ⟨_, .runs ?_ ?_, rfl⟩, rfl⟩
  · rw [hsite]
  · rw [hsite]

/-- It is no transition that ends the Run. -/
def RunOp.endsNothing (l : RunCall) : RunOp → Bool
  | .transition tr => !l.ownEnd tr
  | _ => true

/-- A Run whose preparation has made its layout is killed, and stays killed. -/
theorem nothing_runs_after_kill :
    ∃ p : Pool (endSystem ⟨false, 0⟩),
      Ended p.world.1 ∧ p.world.1.remote.program ≠ .running := by
  let player : Player (endSystem ⟨false, 0⟩) (Reply Site) :=
    ((managerPlayer ⟨false, 0⟩ siteRemote fun l => l.inLifecycle = true).instrument _).restrict
      (fun _ l o _ _ _ => o.endsNothing l) fun t l o a u v h => by
          cases o with
          | transition tr =>
            cases a with
            | true => exact fun hown => absurd hown (by simpa [RunOp.endsNothing] using h)
            | false => trivial
          | _ => trivial
  have played : (player.play (.init (newGitRun ⟨true, false, .idle⟩, fun _ => .clear))
      (.call .kill :: List.replicate 8 (.act 0 (siteReply false ⟨true, true, .idle⟩)))).map
      (fun p => p.world.1.row.map RunRow.state) = some (some .stopped) := by decide +kernel
  obtain ⟨p, hp, hrow⟩ := Option.map_eq_some_iff.mp played
  obtain ⟨es, run⟩ := player.play_sound hp
  obtain ⟨row, hsome, hstate⟩ := Option.map_eq_some_iff.mp hrow
  have first : AtFirst (newGitRun ⟨true, false, .idle⟩) := by
    refine ⟨fun row hrow => ?_, rfl⟩
    rw [← Option.some.inj hrow]
    rfl
  have ended : Ended p.world.1 := ⟨row, hsome, by rw [hstate]; rfl⟩
  exact ⟨p, ended, nothing_runs_after_end first run ended .refl⟩

end Termroom.RemoteRun
