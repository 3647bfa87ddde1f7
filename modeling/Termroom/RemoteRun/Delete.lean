import Termroom.RemoteRun.Lifecycle
import Termroom.RemoteRun.Play

/-!
# Deleting a Run

A Run's row, files and spool are removed by four pieces of code, and each acts on a check it
made before: `request_delete` on its `expire_remote_run_now`, `cleanup_expired` on that or on
its compare-and-set of an abandoned upload, `retry_preparation` on the row it read, and the
observers on the row they read (they drop the spool of a running ZIP Run, which no longer
needs it).

Between such a check and the last removal is a **window**. What was checked stays true in it
unless a retry brings the Run back: nothing locks `retry_preparation` out, and no deleting
call asks whether a preparation is still at work. `removal_safe` says that this is all that
can go wrong. In every run where no retry takes effect inside a window and no window opens
while a preparation is active, whatever a deleting call removes belongs to a Run that has
ended and is not being prepared; `retry_inside_delete` is a run where a retry does.

Which window a thread is in is history, not state: `Visit` is recorded next to the world and
no step reads it.
-/

set_option autoImplicit false

namespace Termroom.RemoteRun

open Conc Prog

/-! ## 1. Windows -/

/-- The calls that act on one Run while it is being deleted. -/
def RunCall.besideDelete : RunCall → Bool
  | .requestDelete | .retryPreparation | .stop | .kill | .poll | .reconcile
  | .cleanupExpired | .prepare _ => true
  | .schedule | .uploadArchive _ _ | .forget | .reconcileStartup | .spoolExpiry => false

def RunCall.isRetry : RunCall → Bool
  | .retryPreparation => true
  | _ => false

def RunCall.isCleanup : RunCall → Bool
  | .cleanupExpired => true
  | _ => false

/-- Where a deleting call is: before its check, between the check and its last removal, or
    past it. -/
inductive Window where
  | fresh
  | opened
  | closed
  deriving DecidableEq

/-- What a thread has done so far, as far as deleting goes. -/
structure Visit where
  window : Window
  lastRead : Option RunRow
  deriving DecidableEq

/-- What an operation adds to a visit. -/
def Visit.track (l : RunCall) (x : Visit) : (o : RunOp) → o.Ans → Visit
  | .getRemoteRun, none => ⟨.closed, none⟩
  | .getRemoteRun, some row =>
    ⟨if l.isRetry && x.window = .fresh then
      if row.state = .failed && row.sourceKind = .archive then .opened else .closed
    else x.window, some row⟩
  | .getComputer, none => { x with window := .closed }
  | .expireNow _, true => { x with window := .opened }
  | .transition _, true => if l.isCleanup then { x with window := .opened } else x
  | .spoolReady, false => { x with window := .closed }
  | .backend .deleteRoot, a => if l.isRetry || !a.isOk then { x with window := .closed } else x
  | .deleteRow, _ => { x with window := .closed }
  | _, _ => x

/-- The visits of all threads. -/
abbrev Visits := Nat → Visit

/-- The operation brings an ended Run back, or starts a preparation. -/
def StartsOver : (o : RunOp) → o.Ans → Prop
  | .transition tr, won => tr = retryTransition ∧ won = true
  | .schedule, created => created = true
  | _, _ => False

/-- No retry takes effect inside a window, and no window opens while a preparation of the
    Run is active. -/
def Undisturbed {R : Type} (t : Nat) (_ : RunCall) (o : RunOp) (a : o.Ans)
    (u v : RunWorld R × Visits) : Prop :=
  (StartsOver o a → ∀ t', (u.2 t').window ≠ .opened) ∧
    ((u.2 t).window ≠ .opened → (v.2 t).window = .opened → ¬ u.1.preparing)

/-- The manager with the visits recorded, in runs that are undisturbed. -/
abbrev deleteSystem (cfg : Config) (B : Remote) : System RunSig RunError :=
  ((manager cfg B fun l => l.besideDelete = true).instrument Visit fun l x o a =>
    x.track l o a).restrict Undisturbed

/-! ## 2. The invariant -/

/-- The Run has ended, or its row is gone. -/
def Over {R : Type} (w : RunWorld R) : Prop :=
  ∀ row, w.row = some row → row.state.terminal = true

/-- In an open window the Run stays ended and no preparation is active. -/
def Calm {R : Type} (w : RunWorld R × Visits) : Prop :=
  ∀ t, (w.2 t).window = .opened → Over w.1 ∧ ¬ w.1.preparing

section

variable {B : Remote} {t : Nat} {l : RunCall} {o : RunOp} {a : o.Ans}

theorem mem_modify_live {hs : List Handle} {k : Nat} {f : Handle → Handle} {hd : Handle}
    (hmem : hd ∈ hs.modify k f) (hf : ∀ hd, (f hd).live = true → hd.live = true)
    (hlive : hd.live = true) : ∃ hd₀ ∈ hs, hd₀.live = true := by
  obtain ⟨i, hi⟩ := List.mem_iff_getElem?.mp hmem
  rw [List.getElem?_modify] at hi
  obtain ⟨hd₀, h₀, rfl⟩ := Option.map_eq_some_iff.mp hi
  refine ⟨hd₀, List.mem_of_getElem? h₀, ?_⟩
  split at hlive
  · exact hf hd₀ hlive
  · exact hlive

/-- Only `schedule` makes a preparation active. -/
theorem RunOp.step_preparing {u v : RunWorld B.State} (h : o.step B t a u v)
    (hv : v.preparing) : u.preparing ∨ StartsOver o a := by
  obtain ⟨hd, hmem, hlive⟩ := hv
  rcases RunOp.step_handles h with hh | ⟨k, -, hh⟩ | ⟨k, -, hh⟩ | ⟨rfl, hc, -⟩
  · exact .inl ⟨hd, by rw [← hh]; exact hmem, hlive⟩
  · rw [hh] at hmem
    exact .inl (mem_modify_live hmem (fun _ hl => hl) hlive)
  · rw [hh] at hmem
    exact .inl (mem_modify_live hmem (fun _ hl => absurd hl (by simp [Handle.live])) hlive)
  · exact .inr (by rw [show a = _ from h.1]; simp [StartsOver, hc])

/-- The transitions of the calls beside a delete. -/
def Deletes (l : RunCall) (o : RunOp) : Prop :=
  ∀ tr, o = .transition tr → l.isCleanup = false ∧ tr = retryTransition ∨
    tr.Forward ∧ (l.isCleanup = true → tr.state = some .failed)

/-- What is over stays over, if nothing starts the Run over. -/
theorem RunOp.step_over {u v : RunWorld B.State} (ho : Deletes l o) (h : o.step B t a u v)
    (hu : Over u) (calm : ¬ StartsOver o a) : Over v := by
  intro row' hv
  rcases RunOp.step_row h with hr | ⟨tr, row, rfl, hrow, hs, -⟩ | ⟨now, row, -, hrow, ht, hr⟩ |
    ⟨row, id, hrow, hr⟩ | ⟨-, hr⟩
  · exact hu row' (by rw [← hr]; exact hv)
  · rcases ho tr rfl with ⟨-, rfl⟩ | ⟨hf, -⟩
    · refine absurd ⟨rfl, ?_⟩ calm
      rw [show a = _ from h.1]
      simp [hrow, Transition.apply, hs]
    · rw [Transition.Forward.terminal hf (hu row hrow)] at hs
      exact absurd hs (by simp)
  · rw [hr] at hv
    rw [← Option.some.inj hv]
    exact ht
  · rw [hr] at hv
    rw [← Option.some.inj hv]
    exact hu row hrow
  · rw [hr] at hv
    exact absurd hv (by simp)

/-- How a window opens: by a check that the Run has ended. -/
theorem Visit.track_opened {x : Visit} {u v : RunWorld B.State} (ho : Deletes l o)
    (h : o.step B t a u v) (hx : x.window ≠ .opened) (hv : (x.track l o a).window = .opened) :
    Over v ∧ ¬ StartsOver o a := by
  unfold Visit.track at hv
  split at hv
  · exact absurd hv (by simp)
  · obtain ⟨hrow, rfl⟩ := h
    split at hv
    · split at hv
      · rename_i hfailed
        refine ⟨fun row' hrow' => ?_, id⟩
        rw [← hrow] at hrow'
        rw [← Option.some.inj hrow']
        simp only [Bool.and_eq_true, decide_eq_true_eq] at hfailed
        rw [hfailed.1]
        rfl
      · exact absurd hv (by simp)
    · exact absurd hv hx
  · exact absurd hv (by simp)
  · obtain ⟨hwon, rfl⟩ := h
    refine ⟨fun row' hrow' => ?_, id⟩
    cases hrow : u.row with
    | none => rw [hrow] at hwon; exact absurd hwon (by simp [expireRemoteRunNow])
    | some row =>
      cases ht : row.state.terminal with
      | false => rw [hrow] at hwon; exact absurd hwon (by simp [expireRemoteRunNow, ht])
      | true =>
        simp only [hrow, expireRemoteRunNow, ht, if_true] at hrow'
        rw [← Option.some.inj hrow']
        exact ht
  · rename_i tr
    split at hv
    · rename_i hcleanup
      obtain ⟨hwon, rfl⟩ := h
      rcases ho tr rfl with ⟨hnot, -⟩ | ⟨-, hfailed⟩
      · rw [hcleanup] at hnot; exact absurd hnot (by simp)
      · refine ⟨fun row' hrow' => ?_, ?_⟩
        · cases hrow : u.row with
          | none => rw [hrow] at hwon; exact absurd hwon (by simp [Transition.apply])
          | some row =>
            cases hs : tr.selects row with
            | false => rw [hrow] at hwon; exact absurd hwon (by simp [Transition.apply, hs])
            | true =>
              simp only [hrow, Transition.apply, hs, if_true] at hrow'
              rw [← Option.some.inj hrow']
              simp [Transition.update, hfailed hcleanup, RunState.terminal]
        · rintro ⟨rfl, -⟩
          exact absurd (hfailed hcleanup) (by simp [retryTransition])
    · exact absurd hv hx
  · exact absurd hv (by simp)
  · split at hv
    · exact absurd hv (by simp)
    · exact absurd hv hx
  · exact absurd hv (by simp)
  · exact absurd hv hx

/-- **The step rule.** An undisturbed operation keeps every open window calm. -/
theorem Calm.step {u v : RunWorld B.State × Visits} (ho : Deletes l o) (hu : Calm u)
    (h : o.step B t a u.1 v.1) (hg : v.2 = Function.update u.2 t ((u.2 t).track l o a))
    (hd : Undisturbed t l o a u v) : Calm v := by
  obtain ⟨noRestart, noneActive⟩ := hd
  -- inside a window that was open before
  have quiet : ∀ t', (u.2 t').window = .opened → Over v.1 ∧ ¬ v.1.preparing := by
    intro t' ht'
    obtain ⟨hover, hprep⟩ := hu t' ht'
    have calm : ¬ StartsOver o a := fun hs => noRestart hs t' ht'
    refine ⟨RunOp.step_over ho h hover calm, fun hv => ?_⟩
    rcases RunOp.step_preparing h hv with hp | hs
    · exact hprep hp
    · exact calm hs
  intro t' ht'
  by_cases ht : t' = t
  · subst ht
    by_cases hopen : (u.2 t').window = .opened
    · exact quiet t' hopen
    -- the window opens here
    · have hidle := noneActive hopen ht'
      rw [hg, Function.update_self] at ht'
      obtain ⟨hover, calm⟩ := Visit.track_opened ho h hopen ht'
      refine ⟨hover, fun hv => ?_⟩
      rcases RunOp.step_preparing h hv with hp | hs
      · exact hidle hp
      · exact calm hs
  · rw [hg, Function.update_of_ne ht] at ht'
    exact quiet t' ht'

end

/-! ## 3. The proof outline -/

/-- What may be removed when: by a deleting call, what belongs to a Run that is over and not
    being prepared; by an observer, the spool of a ZIP Run that it has read as running. -/
def SafeRemoval {R : Type} (t : Nat) (l : RunCall) (o : RunOp) (u : RunWorld R × Visits) :
    Prop :=
  (Over u.1 ∧ ¬ u.1.preparing) ∨
    (o = .removeSpool ∧ (l = .poll ∨ l = .reconcile) ∧
      ∃ row, (u.2 t).lastRead = some row ∧ row.state = .running ∧ row.sourceKind = .archive)

def deleteOutline (cfg : Config) (B : Remote) : Outline (deleteSystem cfg B) where
  inv := Calm
  rely := fun t _ u v => v.2 t = u.2 t
  ok := fun t l o _ u _ => o.Removes → SafeRemoval t l o u
  post := fun _ _ _ _ => True
  rely_refl := fun _ _ _ => rfl
  rely_trans := fun _ _ _ _ _ h h' => h'.trans h
  start_keeps := by
    rintro t l u v hu ⟨⟨-, hs⟩, hg⟩
    have hover : Over u.1 → Over v.1 := by
      intro h row hrow
      refine h row ?_
      cases l with
      | prepare k => rw [hs.2] at hrow; exact hrow
      | _ => rw [show v.1 = u.1 from hs] at hrow; exact hrow
    have hprep : v.1.preparing → u.1.preparing := by
      intro h
      cases l with
      | prepare k =>
        obtain ⟨hd, hmem, hlive⟩ := h
        rw [hs.2] at hmem
        exact mem_modify_live hmem (fun _ hl => hl) hlive
      | _ => rw [show v.1 = u.1 from hs] at h; exact h
    refine ⟨fun t' ht' => ?_, fun t' _ _ => by rw [hg]⟩
    rw [hg] at ht'
    exact ⟨hover (hu t' ht').1, fun h => (hu t' ht').2 (hprep h)⟩
  env_keeps := by
    rintro u v hu ⟨⟨r, -, hv⟩, hg⟩
    refine ⟨fun t ht => ?_, fun t _ => by rw [hg]⟩
    rw [hg] at ht
    rw [hv]
    exact hu t ht

abbrev deleteContract (cfg : Config) (B : Remote) (t : Nat) (l : RunCall) :
    Contract RunSig (RunWorld B.State × Visits) := (deleteOutline cfg B).contract t l

section

variable {cfg : Config} {B : Remote} {t : Nat} {l : RunCall} {α : Type}
variable {w : RunWorld B.State × Visits}

theorem delete_visits {o : RunOp} {a : o.Ans} {u v : RunWorld B.State × Visits}
    (h : (deleteContract cfg B t l).step o a u v) :
    v.2 = Function.update u.2 t ((u.2 t).track l o a) := h.1.2

theorem delete_visit {o : RunOp} {a : o.Ans} {u v : RunWorld B.State × Visits}
    (h : (deleteContract cfg B t l).step o a u v) : v.2 t = (u.2 t).track l o a := by
  rw [delete_visits h, Function.update_self]

theorem delete_ok {o : RunOp} {a : o.Ans} {u v : RunWorld B.State × Visits}
    (ho : Deletes l o) (hu : Calm u) (h : (deleteContract cfg B t l).step o a u v)
    (safe : o.Removes → SafeRemoval t l o u) : (deleteContract cfg B t l).ok o a u v := by
  refine ⟨hu.step ho h.1.1 (delete_visits h) h.2, fun t' l' ht' => ?_, safe⟩
  show v.2 t' = u.2 t'
  rw [delete_visits h, Function.update_of_ne ht']

/-- An operation of a deleting call, with what it adds to the visit. -/
theorem visit_op {o : RunOp} {x : Visit}
    {Q : Except RunError o.Ans → RunWorld B.State × Visits → Prop} (hw : w.2 t = x)
    (ho : Deletes l o)
    (safe : ∀ u : RunWorld B.State × Visits, Calm u → u.2 t = x → o.Removes →
      SafeRemoval t l o u)
    (hQ : ∀ a v, v.2 t = x.track l o a → Q (.ok a) v) :
    (atomic o).wp (deleteContract cfg B t l) Q w := by
  simp only [atomic_wp]
  intro u hu hi a v h
  have hx : u.2 t = x := Eq.trans hu hw
  exact ⟨delete_ok ho hi h (safe u hi hx), hQ a v (by rw [delete_visit h, hx])⟩

theorem visit_seq {o : RunOp} {x : Visit} {f : o.Ans → RunProg α}
    {Q : Except RunError α → RunWorld B.State × Visits → Prop} (hw : w.2 t = x)
    (ho : Deletes l o)
    (safe : ∀ u : RunWorld B.State × Visits, Calm u → u.2 t = x → o.Removes →
      SafeRemoval t l o u)
    (h : ∀ a v, v.2 t = x.track l o a → (f a).wp (deleteContract cfg B t l) Q v) :
    (atomic o >>= f).wp (deleteContract cfg B t l) Q w := by
  rw [wp_bind]
  exact visit_op hw ho safe h

theorem deletes_of_routine {o : RunOp} (ho : o.Routine) (hl : l.isCleanup = false) :
    Deletes l o := by
  rintro tr rfl
  exact .inr ⟨ho, fun h => by rw [hl] at h; exact absurd h (by simp)⟩

theorem RunOp.Routine.not_removes {o : RunOp} (ho : o.Routine) : ¬ o.Removes := by
  cases o with
  | backend c => cases c <;> first | exact ho.elim | exact id
  | deleteRow | removeSpool => exact ho.elim
  | _ => exact id

/-- A routine program of a call other than the cleanup asks nothing. -/
theorem delete_routine {p : RunProg α} (hl : l.isCleanup = false) (h : p.All RunOp.Routine) :
    p.wp (deleteContract cfg B t l) (fun _ _ => True) w :=
  wp_of_all (fun _ _ _ _ ho hu hs => delete_ok (deletes_of_routine ho hl) hu hs
    fun hr => absurd hr ho.not_removes) h fun _ _ => trivial

/-- The visit after `get` returned. -/
theorem get_visit {x : Visit} (hw : w.2 t = x) :
    get.wp (deleteContract cfg B t l) (fun r v => ∀ run, r = .ok run →
      v.2 t = x.track l .getRemoteRun (some run.toRunRow)) w := by
  refine wp_mono (fun r v h run hrun => ?_) (get_spec fun o a u v ho hu hs => ?_)
  · obtain ⟨u, v₀, v₁, hu, hs, hk, hs'⟩ := h run hrun
    have hx : u.2 t = x := Eq.trans hu hw
    rw [delete_visit hs', show v₁.2 t = v₀.2 t from hk, delete_visit hs, hx]
    rfl
  · rcases ho with rfl | rfl
    · exact delete_ok (fun _ h => absurd h (by simp)) hu hs False.elim
    · exact delete_ok (fun _ h => absurd h (by simp)) hu hs False.elim

/-! ## 4. The programs -/

/-- With its window open a deleting call may remove what it likes. -/
theorem safe_of_opened {o : RunOp} {x : Visit} (hx : x.window = .opened)
    (u : RunWorld B.State × Visits) (hu : Calm u) (hv : u.2 t = x) (_ : o.Removes) :
    SafeRemoval t l o u :=
  .inl (hu t (by rw [hv]; exact hx))

/-- An operation that is no transition is in every deleting call's footprint. -/
theorem deletes_of_ne {o : RunOp} (h : ∀ tr, o ≠ .transition tr) : Deletes l o :=
  fun tr htr => absurd htr (h tr)

theorem safe_of_not {o : RunOp} {x : Visit} (h : ¬ o.Removes)
    (u : RunWorld B.State × Visits) (_ : Calm u) (_ : u.2 t = x) (hr : o.Removes) :
    SafeRemoval t l o u := absurd hr h

theorem lock_wp {o : RunOp} (ho : o = .acquire ∨ o = .release) :
    (atomic o).wp (deleteContract cfg B t l) (fun _ _ => True) w := by
  rcases ho with rfl | rfl
  · exact visit_op rfl (deletes_of_ne (by simp)) (safe_of_not id) fun _ _ _ => trivial
  · exact visit_op rfl (deletes_of_ne (by simp)) (safe_of_not id) fun _ _ _ => trivial

/-- Past its check, `request_delete` removes things inside its window. -/
theorem requestDelete_safe (hl : l.isRetry = false) :
    (requestDelete cfg).wp (deleteContract cfg B t l) (fun _ _ => True) w := by
  unfold requestDelete
  refine withLock_wp (lock_wp (.inl rfl)) (fun _ => lock_wp (.inr rfl)) fun w _ => ?_
  refine wp_seq (get_visit rfl) (fun _ _ _ => trivial) fun run v _ => ?_
  split
  · refine visit_seq rfl (deletes_of_ne (by simp)) (safe_of_not id) fun now v _ => ?_
    refine visit_seq rfl (deletes_of_ne (by simp)) (safe_of_not id) fun won v hv => ?_
    cases won with
    | false => trivial
    | true =>
      have hopen : (v.2 t).window = .opened := by rw [hv]; rfl
      refine wp_seq (get_visit rfl) (fun _ _ _ => trivial) fun run v' hv' => ?_
      have hopen' : (v'.2 t).window = .opened := by
        rw [hv' run rfl]
        simpa [Visit.track, hl] using hopen
      refine wp_seq (targetBackend_wp (Q := fun _ v => (v.2 t).window = .opened) hopen'
        fun _ => hopen') (fun _ _ _ => trivial) fun _ v hv => ?_
      refine visit_seq rfl (deletes_of_ne (by simp)) (safe_of_opened hv) fun r v' hv' => ?_
      cases r with
      | error e =>
        dsimp only
        split <;> trivial
      | ok _ =>
        have hkept : (v'.2 t).window = .opened := by
          rw [hv']
          simpa [Visit.track, hl, Except.isOk, Except.toBool] using hv
        refine visit_seq rfl (deletes_of_ne (by simp)) (safe_of_opened hkept) fun _ v hv => ?_
        have hkept' : (v.2 t).window = .opened := by rw [hv]; exact hkept
        refine wp_seq (R := fun _ v => (v.2 t).window = .opened) ?_ (fun _ _ _ => trivial)
          fun _ v hv => ?_
        · rw [orRaise_wp]
          refine visit_op rfl (deletes_of_ne (by simp)) (safe_of_not id) fun r v hv => ?_
          cases r <;> exact (congrArg Visit.window hv).trans hkept'
        · refine wp_seq (R := fun _ _ => True) ?_ (fun _ _ _ => trivial) fun _ _ _ => trivial
          rw [orRaise_wp]
          refine visit_op rfl (deletes_of_ne (by simp)) (safe_of_opened hv) fun r v _ => ?_
          cases r <;> trivial
  · trivial

/-- The compare-and-set of an abandoned upload. -/
theorem cleanup_deletes {now : Nat} (tr : Transition)
    (h : RunOp.transition
      { expectedStates := [.preparing], expectedPhase := some (some .waitingUpload),
        state := some .failed, phase := some none, endedAt := some (some (.at now)),
        expiresAt := some (some now), errorCode := some (some "upload_expired"),
        errorDetail := some (some "ZIP upload was not completed") } = .transition tr) :
    RunCall.cleanupExpired.isCleanup = false ∧ tr = retryTransition ∨
      tr.Forward ∧ (RunCall.cleanupExpired.isCleanup = true → tr.state = some .failed) := by
  obtain rfl := RunOp.transition.inj h
  exact .inr ⟨by simp [Transition.forward_iff, RunState.terminal], fun _ => rfl⟩

theorem cleanupExpired_safe :
    (cleanupExpired cfg).wp (deleteContract cfg B t .cleanupExpired) (fun _ _ => True) w := by
  unfold cleanupExpired
  refine visit_seq rfl (deletes_of_ne (by simp)) (safe_of_not id) fun now v _ => ?_
  refine wp_seq (R := fun _ _ => True) ?_ (fun _ _ _ => trivial) fun abandoned v _ => ?_
  · refine visit_seq rfl (deletes_of_ne (by simp)) (safe_of_not id) fun listed v _ => ?_
    split
    · refine visit_seq rfl cleanup_deletes (safe_of_not id) fun won v hv => ?_
      cases won with
      | false => trivial
      | true =>
        have hopen : (v.2 t).window = .opened := by rw [hv]; rfl
        refine visit_seq rfl (deletes_of_ne (by simp)) (safe_of_opened hopen) fun _ v' hv' => ?_
        have hkept : (v'.2 t).window = .opened := by rw [hv']; exact hopen
        refine wp_seq (R := fun _ _ => True) ?_ (fun _ _ _ => trivial) fun _ _ _ => trivial
        rw [orRaise_wp]
        refine visit_op rfl (deletes_of_ne (by simp)) (safe_of_opened hkept) fun r v _ => ?_
        cases r <;> trivial
    · trivial
  · refine visit_seq rfl (deletes_of_ne (by simp)) (safe_of_not id) fun listed v _ => ?_
    split
    · refine wp_seq (R := fun _ _ => True) ?_ (fun _ _ _ => trivial) fun r v _ => ?_
      · rw [wp_attempt]
        exact requestDelete_safe rfl
      · split
        · trivial
        · split
          · trivial
          · split <;> trivial
    · trivial

/-- A retry removes the Run's files inside its window, which its first read opens. -/
theorem retryPreparation_safe (hw : w.2 t = ⟨.fresh, none⟩) :
    (retryPreparation cfg).wp (deleteContract cfg B t .retryPreparation) (fun _ _ => True) w := by
  unfold retryPreparation
  refine wp_seq (get_visit hw) (fun _ _ _ => trivial) fun run v hv => ?_
  split
  · trivial
  rename_i hrun
  have hopen : (v.2 t).window = .opened := by
    rw [hv run rfl]
    simp only [ne_eq, not_or, not_not] at hrun
    simp [Visit.track, RunCall.isRetry, hrun.1, hrun.2]
  refine visit_seq rfl (deletes_of_ne (by simp)) (safe_of_not id) fun ready v' hv' => ?_
  cases ready with
  | false => trivial
  | true =>
    have hkept : (v'.2 t).window = .opened := by rw [hv']; exact hopen
    refine wp_seq (targetBackend_wp (Q := fun _ v => (v.2 t).window = .opened) hkept
      fun _ => hkept) (fun _ _ _ => trivial) fun _ v hv => ?_
    refine visit_seq rfl (deletes_of_ne (by simp)) (safe_of_opened hv) fun deleted v _ => ?_
    have write {w : RunWorld B.State × Visits} : (do
        if ← atomic (.transition retryTransition) then do
          let _ ← atomic .schedule
          get
        else .raise (.conflict "Remote Run retry was superseded" "state_conflict") :
        RunProg Run).wp (deleteContract cfg B t .retryPreparation) (fun _ _ => True) w := by
      refine visit_seq rfl (fun tr htr => ?_) (safe_of_not id) fun won v _ => ?_
      · exact .inl ⟨rfl, (RunOp.transition.inj htr).symm⟩
      · split
        · exact visit_seq rfl (deletes_of_ne (by simp)) (safe_of_not id) fun _ v _ =>
            wp_mono (fun _ _ _ => trivial) (get_visit rfl)
        · trivial
    split
    · exact write
    · exact write
    · trivial

/-- The drop of a spool follows a read of a running ZIP Run. -/
theorem dropRunningSpool_safe {run : Run} (hl : l = .poll ∨ l = .reconcile)
    (hw : (w.2 t).lastRead = some run.toRunRow) :
    (dropRunningSpool run).wp (deleteContract cfg B t l) (fun _ _ => True) w := by
  unfold dropRunningSpool
  split
  · rename_i hrun
    refine visit_op rfl (deletes_of_ne (by simp)) (fun u _ hu _ => ?_) fun _ _ _ => trivial
    exact .inr ⟨rfl, hl, run.toRunRow, by rw [hu]; exact hw, hrun.1, hrun.2⟩
  · trivial

theorem get_lastRead :
    get.wp (deleteContract cfg B t l) (fun r v => ∀ run, r = .ok run →
      (v.2 t).lastRead = some run.toRunRow) w :=
  wp_mono (fun _ _ h run hrun => by rw [h run hrun]; rfl) (get_visit rfl)

theorem poll_safe :
    (poll cfg).wp (deleteContract cfg B t .poll) (fun _ _ => True) w := by
  have routine {α : Type} {p : RunProg α} {w : RunWorld B.State × Visits}
      (h : p.All RunOp.Routine) :
      p.wp (deleteContract cfg B t .poll) (fun _ _ => True) w := delete_routine rfl h
  unfold poll
  refine withLock_wp (lock_wp (.inl rfl)) (fun _ => lock_wp (.inr rfl)) fun w _ => ?_
  refine wp_seq (routine get_all) (fun _ _ _ => trivial) fun run v _ => ?_
  refine wp_seq (routine targetBackend_all) (fun _ _ _ => trivial) fun _ v _ => ?_
  refine wp_seq (routine (all_atomic trivial)) (fun _ _ _ => trivial) fun r v _ => ?_
  cases r with
  | error e =>
    dsimp only
    split
    · exact routine offline_all
    · trivial
  | ok remote =>
    refine wp_seq (routine applyRemoteObservation_all) (fun _ _ _ => trivial) fun _ v _ => ?_
    refine wp_seq get_lastRead (fun _ _ _ => trivial) fun updated v hv => ?_
    refine wp_seq (R := fun r v => ∀ run, r = .ok run →
      (v.2 t).lastRead = some run.toRunRow) ?_ (fun _ _ _ => trivial) fun updated v hv => ?_
    · split
      · refine wp_seq (R := fun _ _ => True) ?_ (fun _ _ _ _ h => absurd h (by simp))
          fun bridged v _ => ?_
        · rw [wp_attempt]
          exact routine ensureWorkspaceBridge_all
        · cases bridged with
          | ok _ => exact get_lastRead
          | error e =>
            dsimp only
            split
            · exact get_lastRead
            · exact fun _ h => absurd h (by simp)
      · intro run hrun
        obtain rfl := Except.ok.inj hrun
        exact hv updated rfl
    · refine wp_seq (dropRunningSpool_safe (.inl rfl) (hv updated rfl)) (fun _ _ _ => trivial)
        fun _ v _ => ?_
      exact wp_seq (routine cleanupPending_all) (fun _ _ _ => trivial) fun _ _ _ => trivial

theorem reconcile_safe :
    (reconcile cfg).wp (deleteContract cfg B t .reconcile) (fun _ _ => True) w := by
  have routine {α : Type} {p : RunProg α} {w : RunWorld B.State × Visits}
      (h : p.All RunOp.Routine) :
      p.wp (deleteContract cfg B t .reconcile) (fun _ _ => True) w := delete_routine rfl h
  unfold reconcile
  refine withLock_wp (lock_wp (.inl rfl)) (fun _ => lock_wp (.inr rfl)) fun w _ => ?_
  refine wp_seq (routine get_all) (fun _ _ _ => trivial) fun run v _ => ?_
  split
  · exact wp_seq (routine cleanupPending_all) (fun _ _ _ => trivial) fun _ _ _ => trivial
  refine wp_seq (routine targetBackend_all) (fun _ _ _ => trivial) fun _ v _ => ?_
  refine wp_seq (routine (all_atomic trivial)) (fun _ _ _ => trivial) fun r v _ => ?_
  cases r with
  | error e =>
    dsimp only
    split
    · exact routine offline_all
    · trivial
  | ok remote =>
    refine wp_seq (routine applyRemoteObservation_all) (fun _ _ _ => trivial) fun _ v _ => ?_
    refine wp_seq get_lastRead (fun _ _ _ => trivial) fun updated v hv => ?_
    refine wp_seq (dropRunningSpool_safe (.inr rfl) (hv updated rfl)) (fun _ _ _ => trivial)
      fun _ v _ => ?_
    exact wp_seq (routine cleanupPending_all) (fun _ _ _ => trivial) fun _ _ _ => trivial

end

/-! ## 5. Every run -/

section

variable {cfg : Config} {B : Remote}

theorem delete_proved {w : RunWorld B.State} :
    (deleteOutline cfg B).Proved (w, fun _ => ⟨.fresh, none⟩) := by
  rintro t l u v hu fresh ⟨⟨hl, hs⟩, hg⟩
  cases l with
  | requestDelete => exact requestDelete_safe rfl
  | cleanupExpired => exact cleanupExpired_safe
  | retryPreparation =>
    change v.2 = u.2 at hg
    exact retryPreparation_safe (by rw [hg]; exact fresh)
  | poll => exact poll_safe
  | reconcile => exact reconcile_safe
  | stop => exact delete_routine rfl stop_all
  | kill => exact delete_routine rfl kill_all
  | prepare h => exact delete_routine rfl prepare_all
  | schedule | uploadArchive _ _ | forget | reconcileStartup | spoolExpiry =>
    exact absurd hl (by simp [RunCall.besideDelete])

/-- **Deleting never destroys a live Run**, as long as nothing starts it over. In every
    undisturbed run of `request_delete`, `cleanup_expired`, any number of retries, stops,
    observations and preparations, whenever the row, the Remote's files or the spool are
    removed, the stored Run has ended (or its row is already gone) and no preparation of it
    is active; the one exception is the spool of a ZIP Run that an observer has read as
    running. -/
theorem removal_safe {w : RunWorld B.State} {es : List (Event (deleteSystem cfg B))}
    {p p' : Pool (deleteSystem cfg B)}
    (run : (deleteSystem cfg B).Runs (w, fun _ => ⟨.fresh, none⟩) es p) {t : Nat} {l : RunCall}
    {o : RunOp} {a : o.Ans} (st : Pool.Step (deleteSystem cfg B) p (.act t l o a) p')
    (removes : o.Removes) : SafeRemoval t l o p.world :=
  Outline.ok_of_run delete_proved (fun t h => absurd h (by simp)) run st removes

end

/-- Neither a transition nor a preparation. -/
def RunOp.startsNothing : RunOp → Bool
  | .transition _ | .schedule => false
  | _ => true

/-- A retry of a failed ZIP Run comes to remove the Run's files. -/
theorem removal_safe_retry :
    ∃ p : Pool (deleteSystem ⟨false, 0⟩ anyRemote),
      (∃ k, p.threads[0]? = some ⟨.retryPreparation, .op (.backend .deleteRoot) k⟩) ∧
        SafeRemoval 0 .retryPreparation (.backend .deleteRoot) p.world := by
  -- this schedule starts nothing over and meets no preparation
  let player : Player (deleteSystem ⟨false, 0⟩ anyRemote) (Reply Unit) :=
    ((managerPlayer ⟨false, 0⟩ anyRemote fun l => l.besideDelete = true).instrument _).restrict
      (fun _ _ o _ u _ => u.1.handles.isEmpty && o.startsNothing) fun t l o a u v h => by
          obtain ⟨hempty, ho⟩ := Bool.and_eq_true_iff.mp h
          refine ⟨fun hs => ?_, fun _ _ hstarts => ?_⟩
          · cases o <;> first | exact hs.elim | exact absurd ho (by simp [RunOp.startsNothing])
          · obtain ⟨_, hmem, _⟩ := hstarts
            rw [List.isEmpty_iff.mp hempty] at hmem
            exact absurd hmem (by simp)
  let reply : Reply Unit := { after := (), remote := deletes }
  have played : ∃ p p',
      player.play (.init (⟨some failedZip, none, [], none, true, ()⟩, fun _ => ⟨.fresh, none⟩))
        (.call .retryPreparation :: List.replicate 3 (.act 0 reply)) = some p ∧
      player.next p (.act 0 reply) = some p' ∧
      ∃ k, p.threads[0]? = some ⟨.retryPreparation, .op (.backend .deleteRoot) k⟩ :=
    ⟨_, _, rfl, rfl, _, rfl⟩
  obtain ⟨p, p', hp, hp', k, here⟩ := played
  obtain ⟨es, a, run, st⟩ := player.play_act hp here hp'
  exact ⟨p, ⟨k, here⟩, removal_safe run st trivial⟩

/-! ## 6. What can go wrong -/

/-- A running ZIP Run whose upload is still in the spool. -/
def runningZip : RunRow :=
  { createdRow .archive "job.zip" 0 with
    state := .running, phase := none, startedAt := some (.at 60), workspaceId := some "w1" }

def runningStatus : RemoteStatus where
  state := some .running
  phase := none
  startedAt := some (.at 60)
  endedAt := none
  exitCode := none
  errorCode := none
  errorDetail := none
  sourceRevision := none
  layoutMissing := false
  layoutError := false
  tmuxRunning := true
  tmuxExists := true
  recordErrors := false

/-- **An observer drops the spool of a Run that is running**, and means to. -/
theorem poll_drops_running_spool :
    ∃ es, ∃ p p' : Pool (manager ⟨false, 0⟩ anyRemote fun l => l.besideDelete = true), ∃ o a,
      (manager ⟨false, 0⟩ anyRemote fun l => l.besideDelete = true).Runs
          ⟨some runningZip, none, [], none, true, ()⟩ es p ∧
        Pool.Step _ p (.act 0 .poll o a) p' ∧ o = .removeSpool ∧ p.world.spool = true ∧
        p'.world.spool = false ∧ p.world.row.map RunRow.state = some .running := by
  let player := managerPlayer ⟨false, 0⟩ anyRemote fun l => l.besideDelete = true
  let reply : Reply Unit := { after := (), remote := fun
    | .poll => .ok runningStatus
    | _ => .error (.sshBackend "") }
  have played : ∃ p p',
      player.play (.init ⟨some runningZip, none, [], none, true, ()⟩)
        (.call .poll :: List.replicate 11 (.act 0 reply)) = some p ∧
      player.next p (.act 0 reply) = some p' ∧
      (∃ k, p.threads[0]? = some ⟨.poll, .op .removeSpool k⟩) ∧ p.world.spool = true ∧
      p'.world.spool = false ∧ p.world.row.map RunRow.state = some .running :=
    ⟨_, _, rfl, rfl, ⟨_, rfl⟩, rfl, rfl, rfl⟩
  obtain ⟨p, p', hp, hp', ⟨k, here⟩, hs, hs', hstate⟩ := played
  obtain ⟨es, a, run, st⟩ := player.play_act hp here hp'
  exact ⟨es, p, p', _, a, run, st, rfl, hs, hs', hstate⟩

/-- **A retry inside a delete.** `request_delete` has checked and expired the failed ZIP Run;
    a retry takes it back to preparing and starts a preparation; the Run's files are removed
    under it. -/
theorem retry_inside_delete :
    ∃ es, ∃ p p' : Pool (manager ⟨false, 0⟩ anyRemote fun l => l.besideDelete = true), ∃ o a,
      (manager ⟨false, 0⟩ anyRemote fun l => l.besideDelete = true).Runs
          ⟨some failedZip, none, [], none, true, ()⟩ es p ∧
        Pool.Step _ p (.act 0 .requestDelete o a) p' ∧ o = .backend .deleteRoot ∧
        p.world.row.map RunRow.state = some .preparing ∧ p.world.preparing := by
  let player := managerPlayer ⟨false, 0⟩ anyRemote fun l => l.besideDelete = true
  let reply : Reply Unit := { after := (), remote := deletes }
  have played : ∃ p p',
      player.play (.init ⟨some failedZip, none, [], none, true, ()⟩)
        (.call .requestDelete :: List.replicate 7 (.act 0 reply) ++
          .call .retryPreparation :: List.replicate 6 (.act 1 reply)) = some p ∧
      player.next p (.act 0 reply) = some p' ∧
      (∃ k, p.threads[0]? = some ⟨.requestDelete, .op (.backend .deleteRoot) k⟩) ∧
      p.world.row.map RunRow.state = some .preparing ∧
      p.world.handles = [⟨false, false, false⟩] :=
    ⟨_, _, rfl, rfl, ⟨_, rfl⟩, rfl, rfl⟩
  obtain ⟨p, p', hp, hp', ⟨k, here⟩, hstate, hhandles⟩ := played
  obtain ⟨es, a, run, st⟩ := player.play_act hp here hp'
  exact ⟨es, p, p', _, a, run, st, rfl, hstate, ⟨false, false, false⟩, by simp [hhandles], rfl⟩

end Termroom.RemoteRun
