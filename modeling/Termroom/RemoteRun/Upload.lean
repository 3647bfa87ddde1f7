import Termroom.RemoteRun.Lifecycle
import Termroom.RemoteRun.Play

/-!
# The upload window

`upload_archive` takes the Run from `waiting_upload` to `uploading` by a compare-and-set and
back, or on to `checking`, by another; in between it writes the part file. Here the manager's
operations `receiveUpload` and `unlinkPart` are implemented, chunk by chunk
(`implement`), so that `upload_archive`, `stop` and `cleanup_expired` are the manager's
programs over the part file.

Three things are asked of every interleaving. At most one call has the part file open; it
has, for the window is taken by a compare-and-set and nothing but its holder opens it again.
The Run is left in `uploading` by none: **`except Exception` does not see the cancellation of
the request**, nor does the handler get to the row when the part file cannot be unlinked. And
`cleanup_expired` removes an upload only when its stored expiry is over: **it trusts the
list it read**, and an upload that failed in between has opened the window for another hour.
`upload_window` is all three, for the runs without the two (`Tidy`).

The preparation that a finished upload schedules is not started here: by then the window is
shut for good.
-/

set_option autoImplicit false

namespace Termroom.RemoteRun

open Conc Prog

/-! ## 1. The part file -/

abbrev Chunk := List UInt8

inductive PartOp where
  /-- `part_path.open("xb")`. -/
  | open_
  | chmod
  /-- The next chunk of the request, or its end: the one `await` of `upload_archive`. -/
  | awaitChunk
  | write (chunk : Chunk)
  /-- `flush` and `fsync`. -/
  | sync
  /-- The end of the `with`. -/
  | close
  /-- `os.replace(part_path, archive_path)`. -/
  | replace
  | unlink
  deriving DecidableEq

inductive UploadOp where
  | run (o : RunOp)
  | part (o : PartOp)
  deriving DecidableEq

abbrev UploadOp.Ans : UploadOp → Type
  | .run o => o.Ans
  | .part _ => Except RunError Unit

abbrev UploadSig : Sig := ⟨UploadOp, UploadOp.Ans⟩

abbrev UploadProg := Prog UploadSig RunError

/-- An operation on the part file, or the wait for a chunk, that lets its exception through. -/
def onPart (o : PartOp) : UploadProg Unit := do
  let r ← @perform UploadSig RunError (.part o)
  .ofExcept r

section

variable (cfg : Config)

/-- `async for chunk in chunks`, from `total` bytes on. -/
def receiveChunks : List Chunk → Nat → UploadProg Nat
  | [], total => do
    onPart .awaitChunk
    pure total
  | chunk :: chunks, total => do
    onPart .awaitChunk
    if chunk.isEmpty then receiveChunks chunks total
    else if cfg.maxArchiveBytes < total + chunk.length then
      .raise (.value "ZIP upload exceeds the configured limit" (some "zip_upload_limit"))
    else do
      onPart (.write chunk)
      receiveChunks chunks (total + chunk.length)

/-- The part file, from its `open` to the `os.replace`; what closing it raises replaces what
    was raised before. -/
def receivePart (chunks : List Chunk) : UploadProg Nat := do
  onPart .open_
  let received ← (do
    onPart .chmod
    let total ← receiveChunks cfg chunks 0
    onPart .sync
    pure total : UploadProg Nat).attempt
  onPart .close
  let total ← .ofExcept received
  onPart .replace
  pure total

/-- The manager's operations over the part file, for a request of these chunks. -/
def implement (chunks : List Chunk) : (o : RunOp) → UploadProg o.Ans
  | .receiveUpload => (receivePart cfg chunks).attempt
  | .unlinkPart => onPart .unlink
  | o => @perform UploadSig RunError (.run o)

end

/-! ## 2. The system -/

/-- What has become of the window: history that no step depends on. -/
structure UploadWindow where
  /-- The call whose compare-and-set took the window and that has not given it back. -/
  holder : Option Nat
  /-- An upload has been completed. -/
  committed : Bool
  /-- How often the window was opened again. -/
  reopened : Nat
  /-- The same, when a cleanup listed the Run. -/
  listed : Nat → Option Nat

/-- The phase that a compare-and-set writes says what it is to the window. -/
def UploadWindow.note (w : UploadWindow) (t : Nat) : (o : RunOp) → o.Ans → UploadWindow
  | .transition tr, won =>
    match tr.phase with
    | some (some .uploading) => if won then { w with holder := some t } else w
    | some (some .checking) => if won then { w with holder := none, committed := true } else w
    | some (some .waitingUpload) =>
      { w with
        holder := if w.holder = some t then none else w.holder
        reopened := if won then w.reopened + 1 else w.reopened }
    | _ => w
  | .listAbandoned _, listed =>
    if listed then { w with listed := Function.update w.listed t (some w.reopened) } else w
  | _, _ => w

/-- The Remote of a Run that was never prepared: it has no layout there. -/
def bareRemote : Remote where
  State := Unit
  call := fun c a _ _ =>
    match c, a with
    | .interrupt, .ok result => result.completed = false ∧ result.layoutMissing = true
    | .reconcile, .ok status => status.state = none
    | _, _ => True
  env := fun _ _ => False

structure UploadWorld where
  run : RunWorld Unit
  clock : Nat
  /-- The part file is there. -/
  part : Bool
  /-- The calls that have it open. -/
  writers : List Nat
  window : UploadWindow

/-- A failure is an `Exception`. -/
def Synchronous (a : Except RunError Unit) : Prop := ∀ e, a = .error e → e.isException = true

/-- What an operation of the manager says of the clock; the sidecar is written without an
    `await`. -/
def RunOp.InTime (u : UploadWorld) : (o : RunOp) → o.Ans → Prop
  | .utcNow, now => now = u.clock
  | .writeSidecar, a => Synchronous a
  | _, _ => True

def PartOp.step (t : Nat) (a : Except RunError Unit) (u v : UploadWorld) : PartOp → Prop
  | .open_ => Synchronous a ∧
    if a = .ok () then u.part = false ∧ v = { u with part := true, writers := t :: u.writers }
    else v = u
  | .close => Synchronous a ∧ v = { u with writers := u.writers.erase t }
  | .replace | .unlink => Synchronous a ∧ v = { u with part := u.part && !a.isOk }
  | .chmod | .write _ | .sync => Synchronous a ∧ v = u
  | .awaitChunk => v = u

def UploadOp.step (t : Nat) : (o : UploadOp) → o.Ans → UploadWorld → UploadWorld → Prop
  | .run o, a, u, v =>
    o.InTime u a ∧ ∃ run, o.step bareRemote t a u.run run ∧
      v = { u with
        run
        part := if o = .removeSpool then false else u.part
        window := u.window.note t o a }
  | .part o, a, u, v => o.step t a u v

inductive UploadCall where
  | upload (safeName : Except RunError String) (contentLength : Option Nat)
      (chunks : List Chunk)
  | stop
  | cleanupExpired

def UploadCall.isUpload : UploadCall → Bool
  | .upload _ _ _ => true
  | _ => false

def UploadCall.call : UploadCall → RunCall
  | .upload safeName contentLength _ => .uploadArchive safeName contentLength
  | .stop => .stop
  | .cleanupExpired => .cleanupExpired

/-- The chunks of the request, if there is one. -/
def UploadCall.chunks : UploadCall → List Chunk
  | .upload _ _ chunks => chunks
  | _ => []

/-- Uploads, stops and cleanups of one Run. -/
abbrev uploadSystem (cfg : Config) : System UploadSig RunError where
  World := UploadWorld
  Label := UploadCall
  Ret := fun l => RunCall.Ret l.call
  body := fun l => (RunCall.body cfg l.call).interpret (implement cfg l.chunks)
  step := fun t _ o a u v => o.step t a u v
  start := fun _ _ u v => v = u
  env := fun u v => ∃ clock, u.clock ≤ clock ∧ v = { u with clock }

/-! ## 3. The condition -/

def RunRow.Waiting (row : RunRow) : Prop :=
  row.state = .preparing ∧ row.phase = some .waitingUpload

def RunRow.Uploading (row : RunRow) : Prop :=
  row.state = .preparing ∧ row.phase = some .uploading

/-- The stored row, if there is one, is as `P` says. -/
def UploadWorld.Row (P : RunRow → Prop) (u : UploadWorld) : Prop :=
  ∃ row, u.run.row = some row ∧ P row

/-- Nothing is to be uploaded, or not any more. -/
def UploadWorld.Shut (u : UploadWorld) : Prop :=
  ¬ u.Row RunRow.Waiting ∧ ¬ u.Row RunRow.Uploading

/-- `cleanup_expired` takes the Run for an upload that was never made. -/
def Transition.Abandons (tr : Transition) : Prop :=
  tr.errorCode = some (some "upload_expired")

/-- While the Run is `uploading`, the request is not cancelled and the part file can be
    unlinked; and where a cleanup writes the end of a waiting upload, the window has not been
    opened again since it listed the Run. -/
def Tidy (t : Nat) : UploadCall → (o : UploadOp) → o.Ans → UploadWorld → Prop
  | _, .part .awaitChunk, a, u => u.Row RunRow.Uploading → Synchronous a
  | _, .part .unlink, a, u => u.Row RunRow.Uploading → a = .ok ()
  | _, .run (.transition tr), _, u =>
    tr.Abandons → u.Row RunRow.Waiting → u.window.listed t = some u.window.reopened
  | _, _, _, _ => True

abbrev tidySystem (cfg : Config) : System UploadSig RunError :=
  (uploadSystem cfg).restrict fun t l o a u _ => Tidy t l o a u

/-! ## 4. The invariant -/

structure WindowInv (u : UploadWorld) : Prop where
  writers : ∀ t ∈ u.writers, u.window.holder = some t
  nodup : u.writers.Nodup
  /-- While the window is held it is not open. -/
  shut : u.window.holder.isSome → ¬ u.Row RunRow.Waiting
  held : u.window.holder = none → ¬ u.Row RunRow.Uploading
  done : u.window.committed = true → u.Shut
  counted : ∀ t n, u.window.listed t = some n → n ≤ u.window.reopened
  elapsed : ∀ t, u.window.listed t = some u.window.reopened → ∀ row, u.run.row = some row →
    row.Waiting → ∃ expires, row.expiresAt = some expires ∧ expires ≤ u.clock

/-- A compare-and-set that has nothing to do with the window. -/
def Transition.Windowless (tr : Transition) : Prop :=
  (tr.phase = none ∧ tr.state = none ∧ tr.expiresAt = none) ∨
    tr.phase = some none

def RunOp.Windowless : RunOp → Prop
  | .transition tr => tr.Windowless
  | .listAbandoned _ | .receiveUpload | .unlinkPart => False
  | _ => True

/-- No window is entered, and the expiry of an open one stays. -/
structure WindowKept (u v : Option RunRow) : Prop where
  waiting : ∀ row', v = some row' → row'.Waiting →
    ∃ row, u = some row ∧ row.Waiting ∧ row.expiresAt = row'.expiresAt
  uploading : ∀ row', v = some row' → row'.Uploading → ∃ row, u = some row ∧ row.Uploading

theorem WindowKept.refl (u : Option RunRow) : WindowKept u u :=
  ⟨fun row' h hw => ⟨row', h, hw, rfl⟩, fun row' h hw => ⟨row', h, hw⟩⟩

variable {t : Nat} {u v : UploadWorld}

theorem Transition.Windowless.kept {tr : Transition} {row : RunRow} (h : tr.Windowless) :
    WindowKept (some row) (some (tr.update row)) := by
  rcases h with ⟨hp, hs, he⟩ | hp
  · constructor
    · rintro row' hrow ⟨hstate, hphase⟩
      obtain rfl := Option.some.inj hrow
      refine ⟨row, rfl, ⟨?_, ?_⟩, ?_⟩
      · simpa [Transition.update, hs] using hstate
      · simpa [Transition.update, hp] using hphase
      · simp [Transition.update, he]
    · rintro row' hrow ⟨hstate, hphase⟩
      obtain rfl := Option.some.inj hrow
      refine ⟨row, rfl, ?_, ?_⟩
      · simpa [Transition.update, hs] using hstate
      · simpa [Transition.update, hp] using hphase
  · have noPhase : (tr.update row).phase = none := by simp [Transition.update, hp]
    constructor
    · rintro row' hrow ⟨-, hphase⟩
      rw [← Option.some.inj hrow, noPhase] at hphase
      cases hphase
    · rintro row' hrow ⟨-, hphase⟩
      rw [← Option.some.inj hrow, noPhase] at hphase
      cases hphase

theorem RunOp.Windowless.kept {o : RunOp} {a : o.Ans} {r r' : RunWorld bareRemote.State}
    (h : o.Windowless) (hs : o.step bareRemote t a r r') : WindowKept r.row r'.row := by
  rcases RunOp.step_row hs with heq | ⟨tr, row, rfl, hrow, -, hrow'⟩ |
      ⟨now, row, rfl, hrow, hterm, hrow'⟩ | ⟨row, id, hrow, hrow'⟩ | ⟨rfl, hrow'⟩
  · rw [heq]
    exact .refl _
  · rw [hrow, hrow']
    exact Transition.Windowless.kept h
  · rw [hrow, hrow']
    constructor
    · rintro row' heq ⟨hstate, -⟩
      rw [← Option.some.inj heq] at hstate
      rw [show row.state = .preparing from hstate] at hterm
      exact nomatch hterm
    · rintro row' heq ⟨hstate, -⟩
      rw [← Option.some.inj heq] at hstate
      rw [show row.state = .preparing from hstate] at hterm
      exact nomatch hterm
  · rw [hrow, hrow']
    constructor
    · rintro row' heq hw
      obtain rfl := Option.some.inj heq
      exact ⟨row, rfl, hw, rfl⟩
    · rintro row' heq hw
      obtain rfl := Option.some.inj heq
      exact ⟨row, rfl, hw⟩
  · rw [hrow']
    constructor
    · intro row' heq
      exact absurd heq (by simp)
    · intro row' heq
      exact absurd heq (by simp)

theorem RunOp.Windowless.note {o : RunOp} {a : o.Ans} {w : UploadWindow} (h : o.Windowless) :
    w.note t o a = w := by
  cases o with
  | transition tr =>
    rcases h with ⟨hp, -, -⟩ | hp
    · simp [UploadWindow.note, hp]
    · simp [UploadWindow.note, hp]
  | listAbandoned now => exact h.elim
  | _ => rfl

/-! ## 5. What the calls rely on -/

/-- What the others do between two operations of call `t`. -/
structure UploadRely (t : Nat) (u v : UploadWorld) : Prop where
  holder : v.window.holder = some t ↔ u.window.holder = some t
  writer : t ∈ v.writers ↔ t ∈ u.writers
  committed : u.window.committed = true → v.window.committed = true
  clock : u.clock ≤ v.clock
  /-- A held window that was taken away is not given back. -/
  lost : u.window.holder = some t → ¬ u.Row RunRow.Uploading → ¬ v.Row RunRow.Uploading
  shut : u.Shut → v.Shut

theorem UploadRely.refl (t : Nat) (u : UploadWorld) : UploadRely t u u :=
  ⟨Iff.rfl, Iff.rfl, id, Nat.le_refl _, fun _ => id, id⟩

theorem UploadRely.trans {w : UploadWorld} (h : UploadRely t u v) (h' : UploadRely t v w) :
    UploadRely t u w where
  holder := h'.holder.trans h.holder
  writer := h'.writer.trans h.writer
  committed := fun hc => h'.committed (h.committed hc)
  clock := Nat.le_trans h.clock h'.clock
  lost := fun hh hu => h'.lost (h.holder.mpr hh) (h.lost hh hu)
  shut := fun hu => h'.shut (h.shut hu)

theorem WindowKept.row_waiting (h : WindowKept u.run.row v.run.row)
    (hu : ¬ u.Row RunRow.Waiting) : ¬ v.Row RunRow.Waiting := by
  rintro ⟨row', hrow', hw⟩
  obtain ⟨row, hrow, hw, -⟩ := h.waiting row' hrow' hw
  exact hu ⟨row, hrow, hw⟩

theorem WindowKept.row_uploading (h : WindowKept u.run.row v.run.row)
    (hu : ¬ u.Row RunRow.Uploading) : ¬ v.Row RunRow.Uploading := by
  rintro ⟨row', hrow', hw⟩
  obtain ⟨row, hrow, hw⟩ := h.uploading row' hrow' hw
  exact hu ⟨row, hrow, hw⟩

theorem WindowKept.shut (h : WindowKept u.run.row v.run.row) (hu : u.Shut) : v.Shut :=
  ⟨h.row_waiting hu.1, h.row_uploading hu.2⟩

/-- A step that leaves the window and the part file's writers alone. -/
structure Aside (u v : UploadWorld) : Prop where
  window : v.window = u.window
  writers : v.writers = u.writers
  clock : u.clock ≤ v.clock
  row : WindowKept u.run.row v.run.row

theorem Aside.inv (h : Aside u v) (hu : WindowInv u) : WindowInv v where
  writers := by rw [h.window, h.writers]; exact hu.writers
  nodup := by rw [h.writers]; exact hu.nodup
  shut := by rw [h.window]; exact fun hs => h.row.row_waiting (hu.shut hs)
  held := by rw [h.window]; exact fun hn => h.row.row_uploading (hu.held hn)
  done := by
    rw [h.window]
    exact fun hc => h.row.shut (hu.done hc)
  counted := by rw [h.window]; exact hu.counted
  elapsed := by
    rw [h.window]
    intro t ht row' hrow' hw
    obtain ⟨row, hrow, hw, hexp⟩ := h.row.waiting row' hrow' hw
    obtain ⟨expires, he, hle⟩ := hu.elapsed t ht row hrow hw
    exact ⟨expires, hexp.symm.trans he, Nat.le_trans hle h.clock⟩

theorem Aside.rely (h : Aside u v) (t : Nat) : UploadRely t u v where
  holder := by rw [h.window]
  writer := by rw [h.writers]
  committed := by rw [h.window]; exact id
  clock := h.clock
  lost := fun _ => h.row.row_uploading
  shut := h.row.shut

theorem RunOp.Windowless.aside {o : RunOp} {a : o.Ans} (h : o.Windowless)
    (hs : UploadOp.step t (.run o) a u v) : Aside u v := by
  obtain ⟨-, run, hstep, rfl⟩ := hs
  exact ⟨h.note, rfl, Nat.le_refl _, h.kept hstep⟩

/-- What an operation other than a windowless one has to do: it keeps the invariant and what
    the other calls rely on. -/
def Keeps (t : Nat) (u v : UploadWorld) : Prop :=
  WindowInv v ∧ ∀ t', t' ≠ t → UploadRely t' u v

theorem Aside.keeps (h : Aside u v) (hu : WindowInv u) : Keeps t u v :=
  ⟨h.inv hu, fun t' _ => h.rely t'⟩

/-- A cleanup lists the Run at a time that is past. -/
theorem listAbandoned_keeps {now : Nat} {a : Bool} (hu : WindowInv u) (past : now ≤ u.clock)
    (hs : UploadOp.step t (.run (.listAbandoned now)) a u v) :
    Keeps t u v ∧ UploadRely t u v := by
  obtain ⟨-, run, ⟨ha, hrun⟩, rfl⟩ := hs
  have rely : ∀ t', UploadRely t' u { u with
      run, part := u.part, window := u.window.note t (.listAbandoned now) a } := by
    intro t'
    have hnote : ∀ b : Bool, (u.window.note t (.listAbandoned now) b).holder = u.window.holder ∧
        (u.window.note t (.listAbandoned now) b).committed = u.window.committed := by
      intro b
      cases b <;> exact ⟨rfl, rfl⟩
    refine ⟨by rw [(hnote a).1], Iff.rfl, by rw [(hnote a).2]; exact id, Nat.le_refl _, ?_, ?_⟩
    · intro _ hr
      simpa [UploadWorld.Row, hrun] using hr
    · intro hr
      simpa [UploadWorld.Shut, UploadWorld.Row, hrun] using hr
  refine ⟨⟨?_, fun t' _ => rely t'⟩, rely t⟩
  subst hrun
  cases a with
  | false => exact ⟨hu.writers, hu.nodup, hu.shut, hu.held, hu.done, hu.counted, hu.elapsed⟩
  | true =>
    refine ⟨hu.writers, hu.nodup, hu.shut, hu.held, hu.done, ?_, ?_⟩
    · intro t' n hn
      by_cases ht : t' = t
      · subst ht
        simp only [UploadWindow.note, if_true, Function.update_self] at hn
        exact Nat.le_of_eq (Option.some.inj hn).symm
      · simp only [UploadWindow.note, if_true, Function.update_of_ne ht] at hn
        exact hu.counted t' n hn
    · intro t' ht' row hrow hw
      -- the listing itself says that the expiry of the row is past
      have listed : abandonedUpload now row = true := by
        rw [show u.run.row = some row from hrow] at ha
        exact ha.symm
      simp only [abandonedUpload, Bool.and_eq_true] at listed
      cases he : row.expiresAt with
      | none => simp [he] at listed
      | some expires =>
        refine ⟨expires, rfl, Nat.le_trans ?_ past⟩
        simpa [he] using listed.2

/-! ## 6. The window's compare-and-sets -/

/-- The call is not in the window. -/
structure Outside (t : Nat) (u : UploadWorld) : Prop where
  holder : u.window.holder ≠ some t
  writer : t ∉ u.writers

/-- It is, and has the part file closed. -/
structure Inside (t : Nat) (u : UploadWorld) : Prop where
  holder : u.window.holder = some t
  writer : t ∉ u.writers

/-- It has the part file open. -/
structure Writing (t : Nat) (u : UploadWorld) : Prop where
  holder : u.window.holder = some t
  writer : t ∈ u.writers

theorem Outside.rely (h : Outside t u) (hr : UploadRely t u v) : Outside t v :=
  ⟨fun hv => h.holder (hr.holder.mp hv), fun hv => h.writer (hr.writer.mp hv)⟩

theorem Inside.rely (h : Inside t u) (hr : UploadRely t u v) : Inside t v :=
  ⟨hr.holder.mpr h.holder, fun hv => h.writer (hr.writer.mp hv)⟩

theorem Writing.rely (h : Writing t u) (hr : UploadRely t u v) : Writing t v :=
  ⟨hr.holder.mpr h.holder, hr.writer.mpr h.writer⟩

/-- In the window, or past a completed upload. -/
def Leaving (t : Nat) (u : UploadWorld) : Prop :=
  Inside t u ∨ Outside t u ∧ u.window.committed = true

theorem Leaving.rely (h : Leaving t u) (hr : UploadRely t u v) : Leaving t v :=
  h.imp (fun hi => hi.rely hr) fun ho => ⟨ho.1.rely hr, hr.committed ho.2⟩

/-- Nobody writes the part file while the window is not held. -/
theorem WindowInv.no_writers (hu : WindowInv u) (h : u.window.holder = none) (t : Nat) :
    t ∉ u.writers := by
  intro ht
  rw [hu.writers t ht] at h
  exact nomatch h

theorem WindowInv.one_writer (hu : WindowInv u) : u.writers.length ≤ 1 := by
  match hws : u.writers with
  | [] => exact Nat.zero_le 1
  | [_] => exact Nat.le_refl 1
  | t :: t' :: ts =>
    have hnodup := hu.nodup
    have hholder := hu.writers
    rw [hws] at hnodup hholder
    have same : t = t' := by
      have hsome := (hholder t (by simp)).symm.trans (hholder t' (by simp))
      exact Option.some.inj hsome
    exact absurd same (List.rel_of_pairwise_cons hnodup (by simp))

/-- What a compare-and-set of the window does: it finds the Run as it expects it, or changes
    nothing. -/
theorem transition_step {tr : Transition} {phase : Phase} {won : Bool}
    (states : tr.expectedStates = [.preparing]) (expected : tr.expectedPhase = some (some phase))
    (assigns : tr.assigns = true)
    (hs : UploadOp.step t (.run (.transition tr)) won u v) :
    (won = true ∧ ∃ row, u.run.row = some row ∧ row.state = .preparing ∧ row.phase = some phase ∧
      v = { u with
        run := { u.run with row := some (tr.update row) }
        window := u.window.note t (.transition tr) true }) ∨
    (won = false ∧ (¬ u.Row fun row => row.state = .preparing ∧ row.phase = some phase) ∧
      v = { u with window := u.window.note t (.transition tr) false }) := by
  obtain ⟨-, run, ⟨hwon, rfl⟩, rfl⟩ := hs
  have selects : ∀ row, tr.selects row = true ↔ row.state = .preparing ∧ row.phase = some phase := by
    intro row
    rw [Transition.selects_iff, states, expected]
    simp [assigns]
  have same : ∀ row, u.run.row = row → ({ u.run with row } : RunWorld Unit) = u.run := by
    rintro row rfl
    rfl
  cases hrow : u.run.row with
  | none =>
    rw [hrow] at hwon
    obtain rfl : won = false := hwon
    refine .inr ⟨rfl, ?_, ?_⟩
    · rintro ⟨row, hr, -⟩
      rw [hrow] at hr
      cases hr
    · rw [← same none hrow]
      rfl
  | some row =>
    cases hsel : tr.selects row with
    | true =>
      have happly : tr.apply (some row) = (true, some (tr.update row)) := by
        simp [Transition.apply, hsel]
      rw [hrow, happly] at hwon
      obtain rfl : won = true := hwon
      obtain ⟨hstate, hphase⟩ := (selects row).mp hsel
      exact .inl ⟨rfl, row, rfl, hstate, hphase, by rw [happly]; rfl⟩
    | false =>
      have happly : tr.apply (some row) = (false, some row) := by
        simp [Transition.apply, hsel]
      rw [hrow, happly] at hwon
      obtain rfl : won = false := hwon
      refine .inr ⟨rfl, ?_, ?_⟩
      · rintro ⟨row', hr, hw⟩
        rw [hrow] at hr
        cases Option.some.inj hr
        rw [(selects row).mpr hw] at hsel
        cases hsel
      · rw [happly]
        exact congrArg (fun run => ({ u with
          run, window := u.window.note t (.transition tr) false } : UploadWorld)) (same _ hrow)

def openWindow : Transition where
  expectedStates := [.preparing]
  expectedPhase := some (some .waitingUpload)
  state := some .preparing
  phase := some (some .uploading)

def commitUpload (total : Nat) : Transition where
  expectedStates := [.preparing]
  expectedPhase := some (some .uploading)
  state := some .preparing
  phase := some (some .checking)
  expiresAt := some none
  sourceSize := some (some total)

def reopenWindow (expiresAt : Nat) : Transition where
  expectedStates := [.preparing]
  expectedPhase := some (some .uploading)
  state := some .preparing
  phase := some (some .waitingUpload)
  expiresAt := some (some expiresAt)
  sourceSize := some none

theorem openWindow_keeps {won : Bool} (hu : WindowInv u) (out : Outside t u)
    (hs : UploadOp.step t (.run (.transition openWindow)) won u v) :
    Keeps t u v ∧ (won = true → Inside t v) ∧ (won = false → Outside t v) := by
  rcases transition_step rfl rfl rfl hs with ⟨rfl, row, hrow, hstate, hphase, rfl⟩ | ⟨rfl, -, rfl⟩
  · have waiting : u.Row RunRow.Waiting := ⟨row, hrow, hstate, hphase⟩
    have free : u.window.holder = none := by
      cases hh : u.window.holder with
      | none => rfl
      | some t' => exact absurd waiting (hu.shut (by rw [hh]; rfl))
    have notWaiting : ¬ (openWindow.update row).Waiting := fun hw => by cases hw.2
    refine ⟨⟨⟨?_, hu.nodup, ?_, (fun h => by cases h), ?_, hu.counted, ?_⟩, ?_⟩,
      fun _ => ⟨rfl, hu.no_writers free t⟩, (fun h => by cases h)⟩
    · exact fun t' ht' => absurd ht' (hu.no_writers free t')
    · rintro - ⟨row', hrow', hw⟩
      rw [← Option.some.inj hrow'] at hw
      exact notWaiting hw
    · exact fun hc => absurd waiting (hu.done hc).1
    · intro t' _ row' hrow' hw
      rw [← Option.some.inj hrow'] at hw
      exact absurd hw notWaiting
    · intro t' ht'
      refine ⟨⟨fun h => absurd (Option.some.inj h).symm ht', fun h => ?_⟩, Iff.rfl, id,
        Nat.le_refl _, fun h => ?_, fun h => absurd waiting h.1⟩
      · rw [free] at h
        cases h
      · rw [free] at h
        cases h
  · exact ⟨⟨hu, fun t' _ => .refl t' u⟩, (fun h => by cases h), fun _ => out⟩

theorem commitUpload_keeps {won : Bool} {total : Nat} (hu : WindowInv u) (hin : Inside t u)
    (hs : UploadOp.step t (.run (.transition (commitUpload total))) won u v) :
    Keeps t u v ∧ (won = true → Outside t v ∧ v.window.committed = true) ∧
      (won = false → Inside t v) := by
  rcases transition_step rfl rfl rfl hs with ⟨rfl, row, hrow, hstate, hphase, rfl⟩ | ⟨rfl, -, rfl⟩
  · have noWriters : ∀ t', t' ∉ u.writers := by
      intro t' ht'
      have := (hu.writers t' ht').symm.trans hin.holder
      exact hin.writer (Option.some.inj this ▸ ht')
    have uploading : u.Row RunRow.Uploading := ⟨row, hrow, hstate, hphase⟩
    have shut : ∀ row', some ((commitUpload total).update row) = some row' →
        ¬ row'.Waiting ∧ ¬ row'.Uploading := by
      rintro row' hrow'
      rw [← Option.some.inj hrow']
      exact ⟨fun hw => (nomatch hw.2), fun hw => (nomatch hw.2)⟩
    refine ⟨⟨⟨fun t' ht' => absurd ht' (noWriters t'), hu.nodup, nofun, ?_, ?_, hu.counted, ?_⟩,
      ?_⟩, fun _ => ⟨⟨nofun, noWriters t⟩, rfl⟩, nofun⟩
    · rintro - ⟨row', hrow', hw⟩
      exact (shut row' hrow').2 hw
    · refine fun _ => ⟨?_, ?_⟩
      · rintro ⟨row', hrow', hw⟩
        exact (shut row' hrow').1 hw
      · rintro ⟨row', hrow', hw⟩
        exact (shut row' hrow').2 hw
    · exact fun t' _ row' hrow' hw => absurd hw (shut row' hrow').1
    · intro t' ht'
      refine ⟨⟨nofun, fun h => ?_⟩, Iff.rfl, fun _ => rfl, Nat.le_refl _, fun h => ?_,
        fun h => absurd uploading h.2⟩
      · exact absurd (Option.some.inj (hin.holder.symm.trans h)).symm ht'
      · exact absurd (Option.some.inj (hin.holder.symm.trans h)).symm ht'
  · exact ⟨⟨hu, fun t' _ => .refl t' u⟩, nofun, fun _ => hin⟩

theorem reopenWindow_keeps {won : Bool} {expiresAt : Nat} (hu : WindowInv u) (h : Leaving t u)
    (hs : UploadOp.step t (.run (.transition (reopenWindow expiresAt))) won u v) :
    Keeps t u v ∧ Outside t v := by
  have writer : t ∉ u.writers := by
    rcases h with h | h
    · exact h.writer
    · exact h.1.writer
  -- whoever else holds the window goes on holding it
  have holder : ∀ t', t' ≠ t →
      ((if u.window.holder = some t then none else u.window.holder) = some t' ↔
        u.window.holder = some t') := by
    intro t' ht'
    split
    · rename_i hh
      rw [hh]
      exact ⟨(fun h => by cases h), fun h => absurd (Option.some.inj h).symm ht'⟩
    · exact Iff.rfl
  have own : (if u.window.holder = some t then none else u.window.holder) ≠ some t := by
    split
    · exact fun h => by cases h
    · assumption
  rcases transition_step rfl rfl rfl hs with ⟨rfl, row, hrow, hstate, hphase, rfl⟩ |
      ⟨rfl, missed, rfl⟩
  · have uploading : u.Row RunRow.Uploading := ⟨row, hrow, hstate, hphase⟩
    have hin : Inside t u := h.resolve_right fun ho => (hu.done ho.2).2 uploading
    have noWriters : ∀ t', t' ∉ u.writers := by
      intro t' ht'
      have := (hu.writers t' ht').symm.trans hin.holder
      exact hin.writer (Option.some.inj this ▸ ht')
    have notUploading : ∀ row', some ((reopenWindow expiresAt).update row) = some row' →
        ¬ row'.Uploading := by
      rintro row' hrow'
      rw [← Option.some.inj hrow']
      intro hw
      cases hw.2
    refine ⟨⟨⟨fun t' ht' => absurd ht' (noWriters t'), hu.nodup, ?_, ?_, ?_, ?_, ?_⟩, ?_⟩,
      ⟨own, writer⟩⟩
    · intro hs
      simp [UploadWindow.note, reopenWindow, hin.holder] at hs
    · rintro - ⟨row', hrow', hw⟩
      exact notUploading row' hrow' hw
    · exact fun hc => absurd uploading (hu.done hc).2
    · exact fun t' n hn => Nat.le_succ_of_le (hu.counted t' n hn)
    · intro t' ht'
      exact absurd (hu.counted t' _ ht') (Nat.not_succ_le_self _)
    · intro t' ht'
      refine ⟨holder t' ht', Iff.rfl, id, Nat.le_refl _, fun _ _ => ?_,
        fun h => absurd uploading h.2⟩
      rintro ⟨row', hrow', hw⟩
      exact notUploading row' hrow' hw
  · have notUploading : ¬ u.Row RunRow.Uploading := missed
    refine ⟨⟨⟨?_, hu.nodup, ?_, fun _ => notUploading, hu.done, hu.counted, hu.elapsed⟩, ?_⟩,
      ⟨own, writer⟩⟩
    · intro t' ht'
      have hne : t' ≠ t := fun heq => writer (heq ▸ ht')
      exact (holder t' hne).mpr (hu.writers t' ht')
    · intro hsome
      refine hu.shut ?_
      by_cases hh : u.window.holder = some t
      · rw [hh]
        rfl
      · simpa [UploadWindow.note, reopenWindow, hh] using hsome
    · exact fun t' ht' => ⟨holder t' ht', Iff.rfl, id, Nat.le_refl _, fun _ => id, id⟩

/-! ## 7. The part file's operations -/

theorem open_keeps {a : Except RunError Unit} (hu : WindowInv u) (hin : Inside t u)
    (hs : PartOp.open_.step t a u v) :
    Keeps t u v ∧ Synchronous a ∧ (a = .ok () → Writing t v) ∧ (a ≠ .ok () → Inside t v) := by
  obtain ⟨hsync, hs⟩ := hs
  split at hs
  · rename_i ha
    obtain ⟨-, rfl⟩ := hs
    have own : ∀ t' ∈ t :: u.writers, u.window.holder = some t' := by
      intro t' ht'
      rcases List.mem_cons.mp ht' with rfl | ht'
      · exact hin.holder
      · exact hu.writers t' ht'
    refine ⟨⟨⟨own, List.nodup_cons.mpr ⟨hin.writer, hu.nodup⟩, hu.shut, hu.held, hu.done,
      hu.counted, hu.elapsed⟩, fun t' ht' => ⟨Iff.rfl, ?_, id, Nat.le_refl _, fun _ => id, id⟩⟩,
      hsync, fun _ => ⟨hin.holder, List.mem_cons_self⟩, fun hne => absurd ha hne⟩
    rw [List.mem_cons]
    exact or_iff_right ht'
  · rename_i ha
    subst hs
    exact ⟨⟨hu, fun t' _ => .refl t' v⟩, hsync, fun h => absurd h ha, fun _ => hin⟩

theorem close_keeps {a : Except RunError Unit} (hu : WindowInv u) (hw : Writing t u)
    (hs : PartOp.close.step t a u v) : Keeps t u v ∧ Synchronous a ∧ Inside t v := by
  obtain ⟨hsync, rfl⟩ := hs
  refine ⟨⟨⟨fun t' ht' => hu.writers t' (List.mem_of_mem_erase ht'), hu.nodup.erase t, hu.shut,
    hu.held, hu.done, hu.counted, hu.elapsed⟩, fun t' ht' => ⟨Iff.rfl, ?_, id, Nat.le_refl _,
    fun _ => id, id⟩⟩, hsync, ⟨hw.holder, ?_⟩⟩
  · exact List.mem_erase_of_ne ht'
  · exact fun hm => absurd rfl (hu.nodup.mem_erase_iff.mp hm).1

/-- The other operations on the part file leave the row and the writers alone. -/
theorem PartOp.aside {o : PartOp} {a : Except RunError Unit} (open_ : o ≠ .open_)
    (close : o ≠ .close) (hs : o.step t a u v) : Aside u v := by
  cases o with
  | open_ => exact absurd rfl open_
  | close => exact absurd rfl close
  | replace | unlink =>
    obtain ⟨-, rfl⟩ := hs
    exact ⟨rfl, rfl, Nat.le_refl _, .refl _⟩
  | chmod | write _ | sync =>
    obtain ⟨-, rfl⟩ := hs
    exact ⟨rfl, rfl, Nat.le_refl _, .refl _⟩
  | awaitChunk =>
    obtain rfl : v = u := hs
    exact ⟨rfl, rfl, Nat.le_refl _, .refl _⟩

/-! ## 8. The outline -/

/-- The compare-and-set that takes the window. -/
def UploadOp.Opens (o : UploadOp) : Prop :=
  ∃ tr, o = .run (.transition tr) ∧ tr.phase = some (some .uploading)

def UploadOp.Abandons (o : UploadOp) : Prop := ∃ tr, o = .run (.transition tr) ∧ tr.Abandons

variable {cfg : Config}

/-- The outline: only uploads open the window, and none that holds it ends while the Run is
    `uploading`; where a cleanup ends a waiting upload it is by its compare-and-set. -/
def windowOutline (cfg : Config) : Outline (tidySystem cfg) where
  inv := WindowInv
  rely := fun t _ => UploadRely t
  ok := fun _ l o _ u v =>
    (o.Opens → l.isUpload = true) ∧
      (l = .cleanupExpired → u.Row RunRow.Waiting → v.Row RunRow.Waiting ∨ o.Abandons)
  post := fun t _ _ u => u.window.holder = some t → ¬ u.Row RunRow.Uploading
  rely_refl := fun t _ => UploadRely.refl t
  rely_trans := fun _ _ _ _ _ => UploadRely.trans
  start_keeps := by
    rintro t l u v hu rfl
    exact ⟨hu, fun t' _ _ => .refl t' v⟩
  env_keeps := by
    rintro u v hu ⟨clock, hclock, rfl⟩
    have aside : Aside u { u with clock } := ⟨rfl, rfl, hclock, .refl _⟩
    exact ⟨aside.inv hu, fun t _ => aside.rely t⟩

/-- An operation of the manager that is no more than that here. -/
def RunOp.Plain : RunOp → Prop
  | .receiveUpload | .unlinkPart => False
  | _ => True

/-- What the manager's own programs have to show: they are implemented by themselves, but for
    the two operations, which they may not use. -/
def plainContract (cfg : Config) (t : Nat) (l : UploadCall) : Contract RunSig UploadWorld where
  inv := WindowInv
  rely := UploadRely t
  step := fun o a u v => o.Plain → UploadOp.step t (.run o) a u v ∧ Tidy t l (.run o) a u
  ok := fun o a u v => o.Plain ∧ ((windowOutline cfg).contract t l).ok (.run o) a u v

section

variable {l : UploadCall} {chunks : List Chunk} {α β : Type} {w : UploadWorld}
variable {F : UploadWorld → Prop}

theorem plain_wp {p : RunProg α} {Q : Except RunError α → UploadWorld → Prop}
    (h : p.wp (plainContract cfg t l) Q w) :
    (p.interpret (implement cfg chunks)).wp ((windowOutline cfg).contract t l) Q w := by
  refine wp_interpret (fun o R w h => ?_) h
  have plain : o.Plain → (@Prog.perform UploadSig RunError (.run o)).wp
      ((windowOutline cfg).contract t l)
      (fun (r : Except RunError o.Ans) v => ∃ a, r = .ok a ∧ R a v) w := by
    intro _ u hu hi a v hs
    obtain ⟨⟨-, hok⟩, hR⟩ := h u hu hi a v fun _ => hs
    exact ⟨hok, hR⟩
  cases o with
  | receiveUpload =>
    intro u hu hi
    exact (h u hu hi (.ok 0) u nofun).1.1.elim
  | unlinkPart =>
    intro u hu hi
    exact (h u hu hi () u nofun).1.1.elim
  | _ => exact plain trivial

/-- What the others leave as it is. -/
def Settles (t : Nat) (F : UploadWorld → Prop) : Prop := ∀ u v, UploadRely t u v → F u → F v

/-- **The footprint rule of the window**: a fact that the others leave as it is stays across
    every program that has nothing to do with the window. In a cleanup such a program must
    leave the Run waiting where it waits. -/
theorem aside_wp {P : RunOp → Prop} {p : RunProg α} (h : p.All P)
    (windowless : ∀ o, P o → o.Windowless)
    (leaves : l = .cleanupExpired → ∀ o a u v, P o → F u → UploadOp.step t (.run o) a u v →
      u.Row RunRow.Waiting → v.Row RunRow.Waiting)
    (hF : Settles t F) (hw : F w) : p.wp (plainContract cfg t l) (fun _ => F) w := by
  refine wp_mono (fun r v hr => hr.2) (wp_of_uses hF ?_ h hw)
  intro o a u v ho hu hi hs
  have hwl := windowless o ho
  have plain : o.Plain := by
    cases o with
    | receiveUpload | unlinkPart => exact hwl.elim
    | _ => trivial
  have aside := hwl.aside (hs plain).1
  obtain ⟨hinv, hrely⟩ := aside.keeps (t := t) hi
  refine ⟨⟨plain, hinv, fun t' _ ht' => hrely t' ht', ?_, fun hl hrow =>
    .inl (leaves hl o a u v ho hu (hs plain).1 hrow)⟩, hF _ _ (aside.rely t) hu⟩
  rintro ⟨tr, htr, hphase⟩
  cases htr
  rcases hwl with ⟨hp, -⟩ | hp <;> exact nomatch hp.symm.trans hphase

theorem windowless_wp {p : RunProg α} (h : p.All RunOp.Windowless) (cleanup : l ≠ .cleanupExpired)
    (hF : Settles t F) (hw : F w) : p.wp (plainContract cfg t l) (fun _ => F) w :=
  aside_wp h (fun _ ho => ho) (fun hl => absurd hl cleanup) hF hw

/-- An operation of the manager by itself. -/
theorem runOp_wp {o : RunOp} {Q : Except RunError o.Ans → UploadWorld → Prop}
    (plain : o.Plain) (opens : UploadOp.Opens (.run o) → l.isUpload = true)
    (step : ∀ u a v, UploadRely t w u → WindowInv u → UploadOp.step t (.run o) a u v →
      Keeps t u v ∧ (l = .cleanupExpired → u.Row RunRow.Waiting →
        v.Row RunRow.Waiting ∨ UploadOp.Abandons (.run o)) ∧ Q (.ok a) v) :
    (atomic o).wp (plainContract cfg t l) Q w := by
  intro u hu hi a v hs
  obtain ⟨⟨hinv, hrely⟩, hcleanup, hQ⟩ := step u a v hu hi (hs plain).1
  exact ⟨⟨plain, hinv, fun t' _ ht' => hrely t' ht', opens, hcleanup⟩, hQ⟩

/-- An operation on the part file by itself. -/
theorem onPart_wp {o : PartOp} {Q : Except RunError Unit → UploadWorld → Prop}
    (cleanup : l ≠ .cleanupExpired)
    (step : ∀ u a v, UploadRely t w u → WindowInv u → o.step t a u v →
      Tidy t l (.part o) a u → Keeps t u v ∧ Q a v) :
    (onPart o).wp ((windowOutline cfg).contract t l) Q w := by
  unfold onPart
  rw [wp_bind]
  rintro u hu hi a v ⟨hs, tidy⟩
  obtain ⟨⟨hinv, hrely⟩, hQ⟩ := step u a v hu hi hs tidy
  refine ⟨⟨hinv, fun t' _ ht' => hrely t' ht', ?_, fun hl => absurd hl cleanup⟩, ?_⟩
  · rintro ⟨tr, htr, -⟩
    exact nomatch htr
  · show (Prog.ofExcept a).wp _ Q v
    rw [wp_ofExcept]
    exact hQ

end

/-! ## 9. Stops and cleanups -/

section

variable {P : RunOp → Prop} {l : UploadCall} {w : UploadWorld} {α β : Type}
variable {F : UploadWorld → Prop}

theorem get_reads (row : P .getRemoteRun) (target : P .getComputer) : get.All P := by
  unfold get
  refine (all_atomic row).bind fun row => ?_
  cases row with
  | none => exact .raise
  | some row =>
    refine (all_atomic target).bind fun target => ?_
    cases target with
    | none => exact .raise
    | some target => exact .pure

theorem terminalExpiry_reads (now : P .utcNow) : terminalExpiry.All P :=
  (all_atomic now).bind fun _ => .pure

theorem cancelPreparation_reads (preparation : P .getPreparation) (done : ∀ h, P (.taskDone h))
    (cancel : ∀ h, P (.setCancel h)) : cancelPreparation.All P := by
  unfold cancelPreparation
  refine (all_atomic preparation).bind fun handle => ?_
  cases handle with
  | none => exact .pure
  | some h =>
    refine (all_atomic (done h)).bind fun done => ?_
    split
    · exact .pure
    · exact (all_atomic (cancel h)).bind fun _ => .pure

theorem targetBackend_none {target : Target} : (targetBackend cfg target).All P := by
  unfold targetBackend
  split
  · exact .raise
  · exact .pure

theorem stopResult_windowless {stopped needsKill cancellationPending : Bool} :
    (stopResult stopped needsKill cancellationPending).All RunOp.Windowless :=
  (get_reads trivial trivial).bind fun _ => .pure

theorem endedTransition_windowless {now expiresAt : Nat} {errorCode : String} :
    RunOp.Windowless (.transition (endedTransition now expiresAt errorCode)) := .inr rfl

theorem stopLayoutMissing_windowless {run : Run} {now : Nat} {liveHandle : Bool}
    {result : StopStatus} :
    (stopLayoutMissing run now liveHandle result).All RunOp.Windowless := by
  unfold stopLayoutMissing
  split
  · exact stopResult_windowless
  split
  · refine (get_reads trivial trivial).bind fun current => .bind ?_ fun _ => stopResult_windowless
    unfold applyRemoteStatus
    dsimp only [lostLayout]
    split
    · exact .pure
    · refine (all_atomic trivial).bind fun now => ?_
      exact All.bind .pure fun _ => (all_atomic (.inr rfl)).bind fun _ => .pure
  split
  · exact .raise
  split
  · exact stopResult_windowless
  · refine (terminalExpiry_reads trivial).bind fun expiresAt => ?_
    exact (all_atomic endedTransition_windowless).bind fun _ => stopResult_windowless

/-- A windowless part of a program. -/
theorem then_windowless {p : RunProg α} {g : α → RunProg β} (h : p.All RunOp.Windowless)
    (cleanup : l ≠ .cleanupExpired) (hF : Settles t F) (hw : F w)
    (next : ∀ a v, F v → (g a).wp (plainContract cfg t l) (fun _ => F) v) :
    (p >>= g).wp (plainContract cfg t l) (fun _ => F) w :=
  wp_seq (windowless_wp h cleanup hF hw) (fun _ _ hv => hv) next

/-- **A stop is outside the window.** -/
theorem stopRequest_wp (hw : Outside t w) :
    (stop cfg).wp (plainContract cfg t .stop) (fun _ => Outside t) w := by
  have settles : Settles t (Outside t) := fun u v hr hu => hu.rely hr
  have cleanup : UploadCall.stop ≠ .cleanupExpired := nofun
  unfold stop
  refine then_windowless (get_reads trivial trivial) cleanup settles hw fun run w hw => ?_
  split
  · exact hw
  refine then_windowless (all_atomic trivial) cleanup settles hw fun now w hw => ?_
  refine then_windowless (all_atomic (.inl ⟨rfl, rfl, rfl⟩)) cleanup settles hw fun _ w hw => ?_
  refine then_windowless (cancelPreparation_reads trivial (fun _ => trivial) fun _ => trivial)
    cleanup settles hw fun liveHandle w hw => ?_
  split
  · refine windowless_wp ?_ cleanup settles hw
    refine (terminalExpiry_reads trivial).bind fun expiresAt => ?_
    exact (all_atomic (.inr rfl)).bind fun _ => stopResult_windowless
  refine then_windowless targetBackend_none cleanup settles hw fun _ w hw => ?_
  -- a Run that was never prepared has no layout: the target is not asked again
  refine wp_seq (R := fun r v => Outside t v ∧ ∀ result, r = .ok (.ok result) →
    result.completed = false ∧ result.layoutMissing = true) (runOp_wp trivial ?_ ?_) ?_ ?_
  · rintro ⟨tr, htr, -⟩
    cases htr
  · intro u a v hr hi hs
    have aside : Aside u v := RunOp.Windowless.aside (o := .backend .interrupt) trivial hs
    refine ⟨aside.keeps hi, nofun, (hw.rely hr).rely (aside.rely t), ?_⟩
    obtain ⟨-, run, ⟨r, hcall, -⟩, -⟩ := hs
    intro result hresult
    cases hresult
    exact hcall
  · exact fun e v hv => hv.1
  rintro answer v ⟨hv, hanswer⟩
  cases answer with
  | error e =>
    refine windowless_wp ?_ cleanup settles hv
    split
    · split
      · exact stopResult_windowless
      · exact .raise
    · exact .raise
    · rename_i heq
      exact nomatch heq
  | ok result =>
    obtain ⟨hcompleted, hmissing⟩ := hanswer result rfl
    simp only [hcompleted, hmissing, Bool.false_eq_true, if_false, if_true]
    exact windowless_wp stopLayoutMissing_windowless cleanup settles hv

/-- An operation that neither ends a waiting upload nor begins one. -/
def RunOp.Still : RunOp → Prop
  | .transition _ | .deleteRow | .listAbandoned _ | .receiveUpload | .unlinkPart => False
  | _ => True

theorem RunOp.Still.windowless {o : RunOp} (h : o.Still) : o.Windowless := by
  cases o with
  | transition _ | deleteRow | listAbandoned _ | receiveUpload | unlinkPart => exact h.elim
  | _ => trivial

theorem RunOp.Still.waiting {o : RunOp} {a : o.Ans} (h : o.Still)
    (hs : UploadOp.step t (.run o) a u v) (hu : u.Row RunRow.Waiting) : v.Row RunRow.Waiting := by
  obtain ⟨-, run, hstep, rfl⟩ := hs
  obtain ⟨row, hrow, hw⟩ := hu
  rcases RunOp.step_row hstep with heq | ⟨tr, _, rfl, -, -, -⟩ |
      ⟨now, row', rfl, hrow', hterm, -⟩ | ⟨row', id, hrow', hv⟩ | ⟨rfl, -⟩
  · exact ⟨row, heq.trans hrow, hw⟩
  · exact h.elim
  · rw [hrow] at hrow'
    obtain rfl := Option.some.inj hrow'
    rw [hw.1] at hterm
    exact nomatch hterm
  · rw [hrow] at hrow'
    obtain rfl := Option.some.inj hrow'
    exact ⟨_, hv, hw⟩
  · exact h.elim

theorem still_wp {p : RunProg α} (h : p.All RunOp.Still) (hF : Settles t F) (hw : F w) :
    p.wp (plainContract cfg t l) (fun _ => F) w :=
  aside_wp h (fun _ ho => ho.windowless) (fun _ _ _ _ _ ho _ hs => ho.waiting hs) hF hw

/-- Where nothing is to be uploaded any more, the row may be deleted. -/
theorem shut_wp {p : RunProg α} (h : p.All fun o : RunOp => o.Still ∨ o = .deleteRow)
    (hw : Outside t w ∧ w.Shut) :
    p.wp (plainContract cfg t l) (fun _ v => Outside t v ∧ v.Shut) w := by
  refine aside_wp h ?_ ?_ ?_ hw
  · rintro o (ho | rfl)
    · exact ho.windowless
    · trivial
  · intro _ o a u v _ hu _ hrow
    exact absurd hrow hu.2.1
  · intro u v hr hu
    exact ⟨hu.1.rely hr, hr.shut hu.2⟩

theorem expireNow_ended {now : Nat} {row : Option RunRow}
    (h : (expireRemoteRunNow now row).1 = true) {row' : RunRow}
    (hrow : (expireRemoteRunNow now row).2 = some row') : row'.state ≠ .preparing := by
  intro hstate
  cases row with
  | none => cases h
  | some row =>
    cases hterm : row.state.terminal with
    | false => simp [expireRemoteRunNow, hterm] at h
    | true =>
      simp only [expireRemoteRunNow, hterm, if_true] at hrow
      rw [← Option.some.inj hrow] at hstate
      rw [show row.state = .preparing from hstate] at hterm
      cases hterm

theorem requestDelete_wp (hw : Outside t w) :
    (requestDelete cfg).wp (plainContract cfg t l) (fun _ => Outside t) w := by
  have settles : Settles t (Outside t) := fun u v hr hu => hu.rely hr
  unfold requestDelete withLock Prog.finally_
  refine wp_seq (still_wp (all_atomic trivial) settles hw) (fun _ _ hv => hv) fun _ w hw => ?_
  refine wp_seq (R := fun _ => Outside t) ?_ (fun _ _ hv => hv) fun r v hv =>
    still_wp ((all_atomic trivial).bind fun _ => .ofExcept) settles hv
  rw [wp_attempt]
  refine wp_seq (still_wp (get_reads trivial trivial) settles hw) (fun _ _ hv => hv)
    fun run w hw => ?_
  split
  · refine wp_seq (still_wp (all_atomic trivial) settles hw) (fun _ _ hv => hv) fun now w hw => ?_
    refine wp_seq (R := fun r v => Outside t v ∧ (r = .ok true → v.Shut)) (runOp_wp trivial ?_ ?_)
      (fun _ _ hv => hv.1) ?_
    · rintro ⟨tr, htr, -⟩
      cases htr
    · intro u a v hr hi hs
      have still : RunOp.Still (.expireNow now) := trivial
      have aside : Aside u v := still.windowless.aside hs
      refine ⟨aside.keeps hi, fun _ hrow => .inl (still.waiting hs hrow),
        (hw.rely hr).rely (aside.rely t), ?_⟩
      intro ha
      cases ha
      obtain ⟨-, run, ⟨ha, rfl⟩, rfl⟩ := hs
      constructor
      · rintro ⟨row', hrow', hw⟩
        exact expireNow_ended ha.symm hrow' hw.1
      · rintro ⟨row', hrow', hw⟩
        exact expireNow_ended ha.symm hrow' hw.1
    · intro answer v hv
      split
      · rename_i hanswer
        refine wp_mono (fun _ _ h => h.1) (shut_wp ?_ ⟨hv.1, hv.2 (by rw [hanswer])⟩)
        refine (get_reads (.inl trivial) (.inl trivial)).bind fun run => ?_
        refine targetBackend_none.bind fun _ => (all_atomic (.inl trivial)).bind fun deleted => ?_
        cases deleted with
        | error e =>
          dsimp only
          split
          · exact .pure
          · exact .raise
        | ok _ =>
          refine (all_atomic (.inl trivial)).bind fun _ => ?_
          refine (all_orRaise (all_atomic (.inl trivial))).bind fun _ => ?_
          exact (all_orRaise (all_atomic (.inr rfl))).bind fun _ => .pure
      · exact hv.1
  · exact hw

def abandon (now : Nat) : Transition where
  expectedStates := [.preparing]
  expectedPhase := some (some .waitingUpload)
  state := some .failed
  phase := some none
  endedAt := some (some (.at now))
  expiresAt := some (some now)
  errorCode := some (some "upload_expired")
  errorDetail := some (some "ZIP upload was not completed")

theorem abandon_step {now : Nat} {won : Bool}
    (hs : UploadOp.step t (.run (.transition (abandon now))) won u v) :
    Aside u v ∧ (won = true → v.Shut) := by
  refine ⟨RunOp.Windowless.aside (o := .transition (abandon now)) (.inr rfl) hs, ?_⟩
  rintro rfl
  rcases transition_step rfl rfl rfl hs with ⟨-, row, -, -, -, rfl⟩ | ⟨h, -, -⟩
  · have failed : ∀ row', some ((abandon now).update row) = some row' → row'.state ≠ .preparing := by
      rintro row' hrow' hstate
      rw [← Option.some.inj hrow'] at hstate
      exact nomatch hstate
    constructor
    · rintro ⟨row', hrow', hw⟩
      exact failed row' hrow' hw.1
    · rintro ⟨row', hrow', hw⟩
      exact failed row' hrow' hw.1
  · exact nomatch h

/-- **So is a cleanup**; and where it removes an upload, it has taken the Run from
    `waiting_upload` to its end. -/
theorem cleanupExpired_wp (hw : Outside t w) :
    (cleanupExpired cfg).wp (plainContract cfg t .cleanupExpired) (fun _ => Outside t) w := by
  have settles : Settles t (Outside t) := fun u v hr hu => hu.rely hr
  unfold cleanupExpired
  -- the clock only goes on: what it read stays past
  refine wp_seq (R := fun r v => Outside t v ∧ ∀ now, r = .ok now → now ≤ v.clock)
    (runOp_wp trivial ?_ ?_) (fun _ _ hv => hv.1) ?_
  · rintro ⟨tr, htr, -⟩
    cases htr
  · intro u a v hr hi hs
    have still : RunOp.Still .utcNow := trivial
    have aside : Aside u v := still.windowless.aside hs
    refine ⟨aside.keeps hi, fun _ hrow => .inl (still.waiting hs hrow),
      (hw.rely hr).rely (aside.rely t), ?_⟩
    intro now hnow
    cases hnow
    obtain ⟨hnow, -, -, rfl⟩ := hs
    exact Nat.le_of_eq hnow
  rintro now v ⟨hv, hnow⟩
  have hnow := hnow now rfl
  refine wp_seq (R := fun _ => Outside t) ?_ (fun _ _ hv => hv) fun abandoned v hv => ?_
  · refine wp_seq (R := fun _ => Outside t) (runOp_wp trivial ?_ ?_) (fun _ _ hv => hv) ?_
    · rintro ⟨tr, htr, -⟩
      cases htr
    · intro u a v' hr hi hs
      obtain ⟨keeps, rely⟩ := listAbandoned_keeps hi (Nat.le_trans hnow hr.clock) hs
      refine ⟨keeps, fun _ hrow => .inl ?_, (hv.rely hr).rely rely⟩
      obtain ⟨-, run, ⟨-, rfl⟩, rfl⟩ := hs
      exact hrow
    intro listed v hv
    split
    · refine wp_seq (R := fun r v => Outside t v ∧ (r = .ok true → v.Shut))
        (runOp_wp (o := .transition (abandon now)) trivial ?_ ?_) (fun _ _ hv => hv.1) ?_
      · rintro ⟨tr, htr, hphase⟩
        cases htr
        exact nomatch hphase
      · intro u won v' hr hi hs
        obtain ⟨aside, hshut⟩ := abandon_step hs
        refine ⟨aside.keeps hi, fun _ _ => .inr ⟨_, rfl, rfl⟩, (hv.rely hr).rely (aside.rely t),
          fun hwon => hshut (Except.ok.inj hwon)⟩
      intro won v hv
      split
      · rename_i hwon
        refine wp_mono (fun _ _ h => h.1) (shut_wp ?_ ⟨hv.1, hv.2 (by rw [hwon])⟩)
        refine (all_atomic (.inl trivial)).bind fun _ => ?_
        exact (all_orRaise (all_atomic (.inr rfl))).bind fun _ => .pure
      · exact hv.1
    · exact hv
  · refine wp_seq (still_wp (all_atomic trivial) settles hv) (fun _ _ hv => hv) fun listed v hv => ?_
    split
    · rw [wp_bind, wp_attempt]
      refine wp_mono (fun r v hv => ?_) (requestDelete_wp hv)
      refine still_wp ?_ settles hv
      cases r with
      | ok deleted => exact .pure
      | error e =>
        dsimp only
        split
        · exact .pure
        · split
          · exact .pure
          · exact .raise
    · exact hv

end

/-! ## 10. The upload -/

/-- What is raised is an `Exception`, or the Run is not `uploading` any more. -/
def Excused {α : Type} (r : Except RunError α) (u : UploadWorld) : Prop :=
  ∀ e, r = .error e → e.isException = true ∨ ¬ u.Row RunRow.Uploading

theorem Excused.rely {α : Type} {r : Except RunError α} (h : Excused r u)
    (holder : u.window.holder = some t) (hr : UploadRely t u v) : Excused r v :=
  fun e he => (h e he).imp_right (hr.lost holder)

theorem Excused.again {α β : Type} {e : RunError} (h : Excused (.error e : Except RunError α) u) :
    Excused (.error e : Except RunError β) u :=
  fun e' he => h e' (congrArg _ (Except.error.inj he))

theorem PartOp.excused {o : PartOp} {a : Except RunError Unit} {l : UploadCall}
    (hs : o.step t a u v) (tidy : Tidy t l (.part o) a u) : Excused a v := by
  cases o with
  | awaitChunk =>
    obtain rfl : v = u := hs
    intro e he
    by_cases hup : v.Row RunRow.Uploading
    · exact .inl (tidy hup e he)
    · exact .inr hup
  | _ => exact fun e he => .inl (hs.1 e he)

section

variable {l : UploadCall} {chunks : List Chunk} {w : UploadWorld} {F : UploadWorld → Prop}

theorem aside_part_wp {o : PartOp} (open_ : o ≠ .open_) (close : o ≠ .close)
    (cleanup : l ≠ .cleanupExpired) (hF : Settles t F) (hw : F w) :
    (onPart o).wp ((windowOutline cfg).contract t l) (fun r v => F v ∧ Excused r v) w := by
  refine onPart_wp cleanup fun u a v hr hi hs tidy => ?_
  have aside := PartOp.aside open_ close hs
  exact ⟨aside.keeps hi, hF u v (aside.rely t) (hF w u hr hw), PartOp.excused hs tidy⟩

theorem excused_seq {α β : Type} {p : UploadProg α} {g : α → UploadProg β}
    {c : Contract UploadSig UploadWorld} (first : p.wp c (fun r v => F v ∧ Excused r v) w)
    (next : ∀ a v, F v → (g a).wp c (fun r v => F v ∧ Excused r v) v) :
    (p >>= g).wp c (fun r v => F v ∧ Excused r v) w :=
  wp_seq first (fun _ _ hv => ⟨hv.1, hv.2.again⟩) fun a v hv => next a v hv.1

/-- Chunk by chunk the part file stays open. -/
theorem receiveChunks_wp (cleanup : l ≠ .cleanupExpired) (total : Nat) (hw : Writing t w) :
    (receiveChunks cfg chunks total).wp ((windowOutline cfg).contract t l)
      (fun r v => Writing t v ∧ Excused r v) w := by
  have settles : Settles t (Writing t) := fun u v hr hu => hu.rely hr
  induction chunks generalizing total w with
  | nil =>
    exact excused_seq (aside_part_wp nofun nofun cleanup settles hw) fun _ v hv => ⟨hv, nofun⟩
  | cons chunk chunks ih =>
    refine excused_seq (aside_part_wp nofun nofun cleanup settles hw) fun _ v hv => ?_
    split
    · exact ih total hv
    split
    · exact ⟨hv, fun e he => .inl (by rw [← Except.error.inj he]; rfl)⟩
    · exact excused_seq (aside_part_wp nofun nofun cleanup settles hv) fun _ v hv => ih _ hv

/-- The part file is closed again, whatever became of the upload. -/
theorem receivePart_wp (cleanup : l ≠ .cleanupExpired) (hw : Inside t w) :
    (receivePart cfg chunks).wp ((windowOutline cfg).contract t l)
      (fun r v => Inside t v ∧ Excused r v) w := by
  have settles : Settles t (Writing t) := fun u v hr hu => hu.rely hr
  unfold receivePart
  refine wp_seq (R := fun r v => (r = .ok () → Writing t v) ∧ (r ≠ .ok () → Inside t v) ∧
    Excused r v) (onPart_wp cleanup fun u a v hr hi hs tidy => ?_) ?_ ?_
  · obtain ⟨keeps, -, opened, failed⟩ := open_keeps hi (hw.rely hr) hs
    exact ⟨keeps, opened, failed, PartOp.excused hs tidy⟩
  · intro e v hv
    exact ⟨hv.2.1 nofun, hv.2.2.again⟩
  rintro ⟨⟩ v ⟨opened, -, -⟩
  rw [wp_bind, wp_attempt]
  refine wp_mono (Q := fun r v => Writing t v ∧ Excused r v) ?_ ?_
  · -- the end of the `with`
    rintro received v ⟨hv, excused⟩
    refine wp_seq (R := fun r v => Inside t v ∧ Excused r v ∧ Excused received v)
      (onPart_wp cleanup fun u a v' hr hi hs tidy => ?_) ?_ ?_
    · obtain ⟨keeps, -, inside⟩ := close_keeps hi (hv.rely hr) hs
      refine ⟨keeps, inside, PartOp.excused hs tidy, ?_⟩
      obtain ⟨-, rfl⟩ := hs
      exact fun e he => excused.rely hv.holder hr e he
    · intro e v hv
      exact ⟨hv.1, hv.2.1.again⟩
    · rintro - v ⟨hv, -, excused⟩
      refine wp_seq (R := fun r v => Inside t v ∧ Excused r v) ?_ ?_ ?_
      · rw [wp_ofExcept]
        exact ⟨hv, excused⟩
      · intro e v hv
        exact ⟨hv.1, hv.2.again⟩
      · intro total v hv
        exact excused_seq (aside_part_wp nofun nofun cleanup (fun u v hr hu => hu.rely hr) hv.1)
          fun _ v hv => ⟨hv, nofun⟩
  · refine excused_seq (aside_part_wp nofun nofun cleanup settles (opened rfl)) fun _ v hv => ?_
    refine excused_seq (receiveChunks_wp cleanup 0 hv) fun total v hv => ?_
    exact excused_seq (aside_part_wp nofun nofun cleanup settles hv) fun _ v hv => ⟨hv, nofun⟩

/-- What `upload_archive` does inside the window. -/
def receiveAndCommit : RunProg Run := do
  let total ← orRaise (atomic .receiveUpload)
  orRaise (atomic .writeSidecar)
  if ← atomic (.transition (commitUpload total)) then do
    atomic .scheduleSpoolExpiry
    let _ ← atomic .schedule
    get
  else .raise (.conflict "ZIP upload completion was superseded" "state_conflict")

/-- Its handler. -/
def giveBack (e : RunError) : RunProg Run :=
  if e.isException then do
    atomic .unlinkPart
    let expiresAt ← waitingUploadExpiry
    let _ ← atomic (.transition (reopenWindow expiresAt))
    .raise e
  else .raise e

/-- What is known where it ended. -/
structure Received (t : Nat) (r : Except RunError Run) (u : UploadWorld) : Prop where
  outside : ∀ run, r = .ok run → Outside t u
  leaving : Leaving t u
  excused : Excused r u

theorem Received.error {α : Type} {e : RunError} (h : Inside t u)
    (he : Excused (.error e : Except RunError α) u) : Received t (.error e) u where
  outside := by
    intro run hrun
    exact nomatch hrun
  leaving := .inl h
  excused := he.again

theorem receiveAndCommit_wp (cleanup : l ≠ .cleanupExpired) (hw : Inside t w) :
    (receiveAndCommit.interpret (implement cfg chunks)).wp ((windowOutline cfg).contract t l)
      (Received t) w := by
  unfold receiveAndCommit
  rw [interpret_bind]
  refine wp_seq (R := fun r v => Inside t v ∧ Excused r v) ?_ ?_ ?_
  · unfold orRaise atomic
    rw [interpret_bind, interpret_perform, wp_bind]
    show ((receivePart cfg chunks).attempt).wp _ _ w
    rw [wp_attempt]
    refine wp_mono (fun r v hv => ?_) (receivePart_wp cleanup hw)
    rw [onResult_ok, interpret_ofExcept, wp_ofExcept]
    exact hv
  · intro e v hv
    exact .error hv.1 hv.2
  rintro total v ⟨hv, -⟩
  refine plain_wp ?_
  refine wp_seq (R := fun r v => Inside t v ∧ Excused r v) ?_ ?_ ?_
  · unfold orRaise
    rw [wp_bind]
    refine runOp_wp trivial ?_ fun u a v' hr hi hs => ?_
    · rintro ⟨tr, htr, -⟩
      cases htr
    · have aside : Aside u v' := RunOp.Windowless.aside (o := .writeSidecar) trivial hs
      refine ⟨aside.keeps hi, fun hl => absurd hl cleanup, ?_⟩
      show (Prog.ofExcept a).wp _ _ v'
      rw [wp_ofExcept]
      exact ⟨(hv.rely hr).rely (aside.rely t), fun e he => .inl (hs.1 e he)⟩
  · intro e v hv
    exact .error hv.1 hv.2
  rintro - v ⟨hv, -⟩
  refine wp_seq (R := fun r v => (r = .ok true → Outside t v ∧ v.window.committed = true ∧ v.Shut) ∧
    (r = .ok false → Inside t v) ∧ ∃ won, r = .ok won)
    (runOp_wp (o := .transition (commitUpload total)) trivial ?_ ?_) ?_ ?_
  · rintro ⟨tr, htr, hphase⟩
    cases htr
    exact nomatch hphase
  · intro u won v' hr hi hs
    obtain ⟨keeps, hwon, hlost⟩ := commitUpload_keeps hi (hv.rely hr) hs
    refine ⟨keeps, fun hl => absurd hl cleanup, fun h => ?_, fun h => ?_, won, rfl⟩
    · obtain ⟨out, committed⟩ := hwon (Except.ok.inj h)
      exact ⟨out, committed, keeps.1.done committed⟩
    · exact hlost (Except.ok.inj h)
  · rintro e v ⟨-, -, won, hwon⟩
    exact nomatch hwon
  rintro won v ⟨hwon, hlost, -⟩
  split
  · rename_i h
    obtain ⟨out, committed, shut⟩ := hwon (by rw [h])
    refine wp_mono (Q := fun _ v => Outside t v ∧ v.window.committed = true ∧ v.Shut) ?_ ?_
    · rintro r v ⟨out, committed, shut⟩
      exact ⟨fun _ _ => out, .inr ⟨out, committed⟩, fun _ _ => .inr shut.2⟩
    · refine windowless_wp ?_ cleanup ?_ ⟨out, committed, shut⟩
      · refine (all_atomic trivial).bind fun _ => (all_atomic trivial).bind fun _ => ?_
        exact get_reads trivial trivial
      · intro u v hr hu
        exact ⟨hu.1.rely hr, hr.committed hu.2.1, hr.shut hu.2.2⟩
  · rename_i h
    have inside := hlost (by rw [Bool.eq_false_iff.mpr h])
    have excused : Excused (.error (.conflict "ZIP upload completion was superseded"
        "state_conflict") : Except RunError Run) v :=
      fun e he => .inl (by rw [← Except.error.inj he]; rfl)
    exact .error inside excused

theorem giveBack_wp {e : RunError} (cleanup : l ≠ .cleanupExpired) (hw : Leaving t w)
    (excused : Excused (.error e : Except RunError Run) w) :
    ((giveBack e).interpret (implement cfg chunks)).wp ((windowOutline cfg).contract t l)
      (fun _ v => v.window.holder = some t → ¬ v.Row RunRow.Uploading) w := by
  unfold giveBack
  split
  · rw [interpret_bind]
    refine wp_seq (R := fun r v => Leaving t v ∧ ((∃ a, r = .ok a) ∨ ¬ v.Row RunRow.Uploading))
      ?_ ?_ ?_
    · unfold atomic
      rw [interpret_perform]
      refine onPart_wp cleanup fun u a v hr hi hs tidy => ?_
      have aside := PartOp.aside (o := .unlink) nofun nofun hs
      refine ⟨aside.keeps hi, (hw.rely hr).rely (aside.rely t), ?_⟩
      by_cases hup : u.Row RunRow.Uploading
      · exact .inl ⟨(), tidy hup⟩
      · exact .inr (aside.row.row_uploading hup)
    · rintro e v ⟨-, ⟨a, ha⟩ | hup⟩ _
      · exact nomatch ha
      · exact hup
    rintro - v ⟨hv, -⟩
    refine plain_wp ?_
    refine wp_seq (R := fun r v => Leaving t v ∧ ∃ a, r = .ok a) ?_ ?_ ?_
    · unfold waitingUploadExpiry
      rw [wp_bind]
      refine runOp_wp trivial ?_ fun u now v' hr hi hs => ?_
      · rintro ⟨tr, htr, -⟩
        cases htr
      · have aside : Aside u v' := RunOp.Windowless.aside (o := .utcNow) trivial hs
        exact ⟨aside.keeps hi, fun hl => absurd hl cleanup, (hv.rely hr).rely (aside.rely t), _, rfl⟩
    · rintro e v ⟨-, a, ha⟩
      exact nomatch ha
    rintro expiresAt v ⟨hv, -⟩
    refine wp_seq (R := fun _ => Outside t)
      (runOp_wp (o := .transition (reopenWindow expiresAt)) trivial ?_ ?_)
      (fun _ v hv hholder => absurd hholder hv.holder)
      fun _ v hv hholder => absurd hholder hv.holder
    · rintro ⟨tr, htr, hphase⟩
      cases htr
      exact nomatch hphase
    · intro u won v' hr hi hs
      obtain ⟨keeps, out⟩ := reopenWindow_keeps hi (hv.rely hr) hs
      exact ⟨keeps, fun hl => absurd hl cleanup, out⟩
  · rename_i he
    intro _
    exact (excused e rfl).resolve_left he

theorem implement_returns {o : RunOp} (h : o ≠ .unlinkPart) :
    (implement cfg chunks o).Returns := by
  cases o with
  | unlinkPart => exact absurd rfl h
  | receiveUpload => exact .attempt
  | _ => exact ⟨trivial, fun a => ⟨a, rfl⟩⟩

theorem receiveAndCommit_all : receiveAndCommit.All (· ≠ RunOp.unlinkPart) := by
  unfold receiveAndCommit
  refine (all_orRaise (all_atomic nofun)).bind fun total => ?_
  refine (all_orRaise (all_atomic nofun)).bind fun _ => (all_atomic nofun).bind fun won => ?_
  split
  · exact (all_atomic nofun).bind fun _ => (all_atomic nofun).bind fun _ => get_reads nofun nofun
  · exact .raise

/-- **An upload does not end in the window while the Run is `uploading`.** -/
theorem uploadArchive_wp {safeName : Except RunError String} {contentLength : Option Nat}
    (cleanup : l ≠ .cleanupExpired) (upload : l.isUpload = true) (hw : Outside t w) :
    ((uploadArchive cfg safeName contentLength).interpret (implement cfg chunks)).wp
      ((windowOutline cfg).contract t l)
      (fun _ v => v.window.holder = some t → ¬ v.Row RunRow.Uploading) w := by
  have settles : Settles t (Outside t) := fun u v hr hu => hu.rely hr
  have outside : ∀ v, Outside t v → v.window.holder = some t → ¬ v.Row RunRow.Uploading :=
    fun v hv hholder => absurd hholder hv.holder
  unfold uploadArchive
  rw [interpret_bind]
  refine wp_seq (plain_wp (windowless_wp (get_reads trivial trivial) cleanup settles hw))
    (fun _ => outside) fun run w hw => ?_
  split
  · exact outside _ hw
  rw [interpret_bind, interpret_ofExcept]
  cases safeName with
  | error e => exact outside _ hw
  | ok safeName =>
    show Prog.wp _ (Prog.interpret _ (ite _ _ _)) _ w
    split
    · exact outside _ hw
    split
    · exact outside _ hw
    rw [interpret_bind]
    refine wp_seq (R := fun r v => (r = .ok true → Inside t v) ∧ (r ≠ .ok true → Outside t v))
      (plain_wp (runOp_wp (o := .transition openWindow) trivial (fun _ => upload) ?_)) ?_ ?_
    · intro u won v hr hi hs
      obtain ⟨keeps, hwon, hlost⟩ := openWindow_keeps hi (hw.rely hr) hs
      refine ⟨keeps, fun hl => absurd hl cleanup, fun h => hwon (Except.ok.inj h), fun h => ?_⟩
      cases won with
      | true => exact absurd rfl h
      | false => exact hlost rfl
    · exact fun e v hv => outside v (hv.2 fun h => by cases h)
    intro won v hv
    split
    · rename_i hwon
      show Prog.wp _ (Prog.interpret _ (receiveAndCommit.attempt >>= _)) _ v
      have returns : receiveAndCommit.All fun o => (implement cfg chunks o).Returns :=
        receiveAndCommit_all.mono fun _ => implement_returns
      rw [interpret_bind, interpret_attempt returns, wp_bind, wp_attempt]
      refine wp_mono (fun r v hv => ?_) (receiveAndCommit_wp cleanup (hv.1 (by rw [hwon])))
      cases r with
      | ok run => exact outside v (hv.outside run rfl)
      | error e => exact giveBack_wp cleanup hv.leaving hv.excused
    · rename_i hwon
      refine wp_mono (fun _ => outside) (plain_wp (windowless_wp ?_ cleanup settles
        (hv.2 fun h => hwon (Except.ok.inj h))))
      refine (get_reads trivial trivial).bind fun current => ?_
      split
      · exact .pure
      · exact .raise

end

/-! ## 11. Over runs -/

/-- Nobody has taken the window, nor listed the Run. -/
structure UploadWorld.Fresh (u : UploadWorld) : Prop where
  writers : u.writers = []
  window : u.window = ⟨none, false, 0, fun _ => none⟩
  row : ¬ u.Row RunRow.Uploading

theorem UploadWorld.Fresh.inv (h : u.Fresh) : WindowInv u where
  writers := by
    intro t ht
    rw [h.writers] at ht
    exact nomatch ht
  nodup := by rw [h.writers]; exact .nil
  shut := by
    intro hs
    rw [h.window] at hs
    exact nomatch hs
  held := fun _ => h.row
  done := by
    intro hd
    rw [h.window] at hd
    exact nomatch hd
  counted := by
    intro t n hn
    rw [h.window] at hn
    exact nomatch hn
  elapsed := by
    intro t ht
    rw [h.window] at ht
    exact nomatch ht

theorem UploadWorld.Fresh.outside (h : u.Fresh) : Outside t u where
  holder := by
    rw [h.window]
    exact nofun
  writer := by
    rw [h.writers]
    exact nofun

theorem window_proved {u₀ : UploadWorld} (h : u₀.Fresh) : (windowOutline cfg).Proved u₀ := by
  rintro t l u v _ hrely rfl
  have hw : Outside t v := h.outside.rely hrely
  cases l with
  | upload safeName contentLength chunks => exact uploadArchive_wp nofun rfl hw
  | stop => exact wp_mono (fun r v hv hholder => absurd hholder hv.holder) (plain_wp (stopRequest_wp hw))
  | cleanupExpired =>
    exact wp_mono (fun r v hv hholder => absurd hholder hv.holder)
      (plain_wp (cleanupExpired_wp hw))

/-- The window is taken by an operation that opens it. -/
theorem UploadWindow.note_holder {w : UploadWindow} {o : RunOp} {a : o.Ans} {t' : Nat}
    (h : (w.note t o a).holder = some t') :
    w.holder = some t' ∨ t' = t ∧ UploadOp.Opens (.run o) := by
  cases o with
  | transition tr =>
    simp only [note] at h
    split at h
    · rename_i hphase
      split at h
      · exact .inr ⟨(Option.some.inj h).symm, tr, rfl, hphase⟩
      · exact .inl h
    · split at h
      · cases h
      · exact .inl h
    · dsimp only at h
      split at h
      · cases h
      · exact .inl h
    · exact .inl h
  | listAbandoned now =>
    simp only [note] at h
    split at h <;> exact .inl h
  | _ => exact .inl h

theorem UploadOp.step_holder {o : UploadOp} {a : o.Ans} {t' : Nat} (hs : o.step t a u v)
    (h : v.window.holder = some t') : u.window.holder = some t' ∨ t' = t ∧ o.Opens := by
  cases o with
  | run o =>
    obtain ⟨-, run, -, rfl⟩ := hs
    exact UploadWindow.note_holder h
  | part o =>
    refine .inl ?_
    cases o with
    | open_ =>
      obtain ⟨-, hs⟩ := hs
      split at hs
      · rw [hs.2] at h
        exact h
      · rw [hs] at h
        exact h
    | awaitChunk =>
      obtain rfl : v = u := hs
      exact h
    | _ =>
      obtain ⟨-, rfl⟩ := hs
      exact h

variable {es : List (Conc.Event (tidySystem cfg))} {p : Pool (tidySystem cfg)}
variable {u₀ : UploadWorld}

/-- **The window is held by an upload.** -/
theorem holder_upload (h : u₀.Fresh) (run : (tidySystem cfg).Runs u₀ es p) {t : Nat}
    (hholder : p.world.window.holder = some t) :
    ∃ th, p.threads[t]? = some th ∧ th.label.isUpload = true := by
  induction run with
  | refl =>
    rw [show (Pool.init u₀ : Pool (tidySystem cfg)).world = u₀ from rfl, h.window] at hholder
    exact nomatch hholder
  | snoc before last ih =>
    cases last with
    | call started =>
      cases started
      obtain ⟨th, hth, hupload⟩ := ih hholder
      exact ⟨th, List.getElem?_append_left (List.getElem?_eq_some_iff.mp hth).1 ▸ hth, hupload⟩
    | act here stepped =>
      rename_i q t' l o k a v
      have hlen : t' < q.threads.length := (List.getElem?_eq_some_iff.mp here).1
      by_cases heq : t' = t
      · subst heq
        refine ⟨⟨l, k a⟩, by simp [hlen], ?_⟩
        rcases UploadOp.step_holder stepped.1 hholder with hbefore | ⟨-, hopens⟩
        · obtain ⟨th, hth, hupload⟩ := ih hbefore
          rw [here] at hth
          rw [← Option.some.inj hth] at hupload
          exact hupload
        · exact (Outline.ok_of_run (window_proved h) h.inv before (.act here stepped)).1 hopens
      · rcases UploadOp.step_holder stepped.1 hholder with hbefore | ⟨hself, -⟩
        · obtain ⟨th, hth, hupload⟩ := ih hbefore
          exact ⟨th, by rw [List.getElem?_set_ne heq]; exact hth, hupload⟩
        · exact absurd hself.symm heq
    | env moved =>
      obtain ⟨clock, -, rfl⟩ := moved
      exact ih hholder

/-- **The upload window.** However uploads, stops and cleanups of a Run interleave, as long as
    no request is cancelled, nor its part file kept from being unlinked, while the Run is
    `uploading`, and no cleanup writes the end of an upload whose window was opened again since
    it listed the Run: at most one call has the part file open; where the Run is `uploading`,
    an upload that has not ended holds the window; and a cleanup that takes the Run from
    `waiting_upload` finds the stored expiry over. -/
theorem upload_window (h : u₀.Fresh) (run : (tidySystem cfg).Runs u₀ es p) :
    p.world.writers.length ≤ 1 ∧
    (p.world.Row RunRow.Uploading → ∃ t th, p.world.window.holder = some t ∧
      p.threads[t]? = some th ∧ th.label.isUpload = true ∧ ∀ r, ¬ th.ended r) ∧
    ∀ t o a p', Pool.Step (tidySystem cfg) p (.act t .cleanupExpired o a) p' →
      ∀ row, p.world.run.row = some row → row.Waiting → ¬ p'.world.Row RunRow.Waiting →
        ∃ expires, row.expiresAt = some expires ∧ expires ≤ p.world.clock := by
  have holds := Outline.holds_of_run (window_proved h) h.inv run
  have inv : WindowInv p.world := holds.inv
  refine ⟨?_, ?_, ?_⟩
  · exact inv.one_writer
  · intro huploading
    obtain ⟨t, hholder⟩ : ∃ t, p.world.window.holder = some t := by
      cases hh : p.world.window.holder with
      | none => exact absurd huploading (inv.held hh)
      | some t => exact ⟨t, rfl⟩
    obtain ⟨th, hth, hupload⟩ := holder_upload h run hholder
    refine ⟨t, th, hholder, hth, hupload, fun r hended => ?_⟩
    obtain ⟨w, hrely, hwp⟩ := holds.threads t th hth
    have hrely : UploadRely t w p.world := hrely
    have hpost : ¬ w.Row RunRow.Uploading := by
      refine (?_ : w.window.holder = some t → ¬ w.Row RunRow.Uploading) (hrely.holder.mp hholder)
      unfold Thread.ended at hended
      cases r <;> simp only at hended <;> rw [hended] at hwp <;> exact hwp
    exact hrely.lost (hrely.holder.mp hholder) hpost huploading
  · intro t o a p' st row hrow hw hgone
    have ok := Outline.ok_of_run (window_proved h) h.inv run st
    rcases ok.2 rfl ⟨row, hrow, hw⟩ with hstill | ⟨tr, rfl, habandons⟩
    · exact absurd hstill hgone
    · cases st with
      | act here stepped =>
        exact inv.elapsed t (stepped.2 habandons ⟨row, hrow, hw⟩) row hrow hw

/-! ## 12. Two windows -/

instance : ∀ c a r r', Decidable (bareRemote.call c a r r') := fun c a _ _ =>
  match c, a with
  | .interrupt, .ok result =>
    inferInstanceAs (Decidable (result.completed = false ∧ result.layoutMissing = true))
  | .reconcile, .ok status => inferInstanceAs (Decidable (status.state = none))
  | .interrupt, .error _ | .reconcile, .error _ => .isTrue trivial
  | .preflight, _ | .createLayout, _ | .snapshotSource, _ | .materialize, _ | .commitSnapshot, _
  | .writeJson _, _ | .gitInvocation, _ | .startGit, _ | .start, _ | .poll, _ | .kill, _
  | .deleteRoot, _ | .layoutExists, _ | .ensureWorkspaceShell, _ => .isTrue trivial

/-- The choice is what a wait for a chunk comes to. -/
def uploadPlayer (cfg : Config) : Player (uploadSystem cfg) (Except RunError Unit) where
  start := fun _ _ u => some u
  act := fun chunk t _ o u =>
    match o with
    | .run o =>
      (o.play ({ now := u.clock, after := () } : Reply bareRemote.State) t u.run).map
        fun (a, run) => (a, { u with
          run
          part := if o = .removeSpool then false else u.part
          window := u.window.note t o a })
    | .part .open_ =>
      if u.part then none
      else some (.ok (), { u with part := true, writers := t :: u.writers })
    | .part .awaitChunk => some (chunk, u)
    | .part .close => some (.ok (), { u with writers := u.writers.erase t })
    | .part .replace | .part .unlink => some (.ok (), { u with part := false })
    | .part .chmod | .part (.write _) | .part .sync => some (.ok (), u)
  start_sound := fun h => (Option.some.inj h).symm
  act_sound := by
    intro chunk t l o u a v h
    cases o with
    | run o =>
      obtain ⟨⟨b, run⟩, hplay, he⟩ := Option.map_eq_some_iff.mp h
      cases he
      refine ⟨?_, run, RunOp.play_sound hplay, rfl⟩
      cases o with
      | utcNow => exact (congrArg Prod.fst (Option.some.inj hplay)).symm
      | writeSidecar => exact nomatch hplay
      | _ => trivial
    | part o =>
      cases o with
      | open_ =>
        dsimp only at h
        split at h
        · exact nomatch h
        · rename_i hpart
          cases h
          exact ⟨nofun, by simpa using hpart⟩
      | close =>
        cases h
        exact ⟨nofun, rfl⟩
      | replace | unlink =>
        cases h
        exact ⟨nofun, by simp [Except.isOk, Except.toBool]⟩
      | chmod | write _ | sync =>
        cases h
        exact ⟨nofun, rfl⟩
      | awaitChunk =>
        cases h
        rfl

/-- A Run that waits for its upload, at the moment its window ends. -/
def waitingUpload : UploadWorld where
  run :=
    { row := some
        { sourceKind := .archive, archiveName := "source.zip", state := .preparing,
          phase := some .waitingUpload, startedAt := none, stopRequestedAt := none,
          endedAt := none, expiresAt := some 0, exitCode := none, errorCode := none,
          errorDetail := none, sourceRevision := none, sourceSize := none,
          workspaceId := none, lifecycleRevision := 0 }
      preparations := none, handles := [], lock := none, spool := false, remote := () }
  clock := 0
  part := false
  writers := []
  window := ⟨none, false, 0, fun _ => none⟩

theorem waitingUpload_fresh : waitingUpload.Fresh where
  writers := rfl
  window := rfl
  row := by
    rintro ⟨row, hrow, -, hphase⟩
    rw [← Option.some.inj hrow] at hphase
    exact nomatch hphase

def sourceUpload : UploadCall := .upload (.ok "source.zip") none [[1, 2]]

def smallConfig : Config := ⟨false, 100⟩

/-- No cancellation, no file that stays, no cleanup that writes. -/
def UploadOp.tidy : (o : UploadOp) → o.Ans → Bool
  | .part .awaitChunk, a | .part .unlink, a => a.isOk
  | .run (.transition tr), _ => tr.errorCode ≠ some (some "upload_expired")
  | _, _ => true

theorem UploadOp.tidy_sound {o : UploadOp} {a : o.Ans} {l : UploadCall} (h : o.tidy a = true) :
    Tidy t l o a u := by
  cases o with
  | run o =>
    cases o with
    | transition tr =>
      intro habandons
      have other : tr.errorCode ≠ some (some "upload_expired") := of_decide_eq_true h
      exact absurd habandons other
    | _ => trivial
  | part o =>
    cases o with
    | awaitChunk =>
      cases a with
      | ok _ => exact fun _ => nofun
      | error e => exact nomatch h
    | unlink =>
      cases a with
      | ok _ => exact fun _ => rfl
      | error e => exact nomatch h
    | _ => trivial

/-- An upload that writes its part file holds the window. -/
theorem upload_window_open :
    ∃ p : Pool (tidySystem smallConfig), p.world.Row RunRow.Uploading ∧
      p.world.writers = [0] ∧ p.world.writers.length ≤ 1 ∧
      ∃ t th, p.world.window.holder = some t ∧ p.threads[t]? = some th ∧
        th.label.isUpload = true ∧ ∀ r, ¬ th.ended r := by
  let player : Player (tidySystem smallConfig) (Except RunError Unit) :=
    (uploadPlayer smallConfig).restrict (fun _ _ o a _ _ => o.tidy a)
      fun _ _ _ _ _ _ => UploadOp.tidy_sound
  have played : ∃ p, player.play (.init waitingUpload)
      (.call sourceUpload :: List.replicate 6 (.act 0 (.ok ()))) = some p ∧
      p.world.Row RunRow.Uploading ∧ p.world.writers = [0] :=
    ⟨_, rfl, ⟨_, rfl, rfl, rfl⟩, rfl⟩
  obtain ⟨p, hp, hrow, hwriters⟩ := played
  obtain ⟨es, run⟩ := player.play_sound hp
  obtain ⟨hone, hheld, -⟩ := upload_window waitingUpload_fresh run
  exact ⟨p, hrow, hwriters, hone, hheld hrow⟩

/-- **An upload is stuck, and an open window is taken for an expired one.** A request that is
    cancelled while it uploads leaves the Run `uploading`, with no upload about; and a cleanup
    that listed a Run whose window was over removes it although an upload has failed since,
    and opened the window for another hour. -/
theorem upload_window_broken :
    (∃ es, ∃ p : Pool (uploadSystem smallConfig),
      (uploadSystem smallConfig).Runs waitingUpload es p ∧ p.world.Row RunRow.Uploading ∧
        ∀ th ∈ p.threads, ∃ r, th.ended r) ∧
    ∃ es, ∃ p p' : Pool (uploadSystem smallConfig), ∃ o a row expires,
      (uploadSystem smallConfig).Runs waitingUpload es p ∧
        Pool.Step (uploadSystem smallConfig) p (.act 0 .cleanupExpired o a) p' ∧
        p.world.run.row = some row ∧ row.Waiting ∧ row.expiresAt = some expires ∧
        p.world.clock < expires ∧ ¬ p'.world.Row RunRow.Waiting := by
  let player := uploadPlayer smallConfig
  have stuck : ∃ p, player.play (.init waitingUpload)
      (.call sourceUpload :: List.replicate 5 (.act 0 (.ok ())) ++
        [.act 0 (.error .asyncioCancelled), .act 0 (.ok ())]) = some p ∧
      p.world.Row RunRow.Uploading ∧ ∃ th r, p.threads = [th] ∧ th.ended r :=
    ⟨_, rfl, ⟨_, rfl, rfl, rfl⟩, _, .error .asyncioCancelled, rfl, rfl⟩
  -- the cleanup lists the Run, the upload fails, and the cleanup goes on
  have stale : ∃ p p' row row', player.play (.init waitingUpload)
      (.call .cleanupExpired :: .act 0 (.ok ()) :: .act 0 (.ok ()) :: .call sourceUpload ::
        List.replicate 5 (.act 1 (.ok ())) ++ .act 1 (.error (.os "")) ::
        List.replicate 4 (.act 1 (.ok ()))) = some p ∧
      (∃ o k, p.threads[0]? = some ⟨.cleanupExpired, .op o k⟩) ∧
      player.next p (.act 0 (.ok ())) = some p' ∧ p.world.run.row = some row ∧ row.Waiting ∧
      row.expiresAt = some WAITING_UPLOAD_TTL ∧ p.world.clock = 0 ∧
      p'.world.run.row = some row' ∧ row'.state = .failed :=
    ⟨_, _, _, _, rfl, ⟨_, _, rfl⟩, rfl, rfl, ⟨rfl, rfl⟩, rfl, rfl, rfl, rfl⟩
  constructor
  · obtain ⟨p, hp, hrow, th, r, hth, hended⟩ := stuck
    obtain ⟨es, run⟩ := player.play_sound hp
    refine ⟨es, p, run, hrow, fun th' hth' => ?_⟩
    rw [hth, List.mem_singleton] at hth'
    exact hth' ▸ ⟨r, hended⟩
  · obtain ⟨p, p', row, row', hp, ⟨o, k, here⟩, hp', hrow, hw, hexpires, hclock, hrow', hfailed⟩ :=
      stale
    obtain ⟨es, a, run, st⟩ := player.play_act hp here hp'
    refine ⟨es, p, p', o, a, row, _, run, st, hrow, hw, hexpires, by rw [hclock]; decide, ?_⟩
    rintro ⟨_, hrow'', hw'⟩
    rw [hrow'] at hrow''
    rw [← Option.some.inj hrow'', RunRow.Waiting, hfailed] at hw'
    exact nomatch hw'.1

end Termroom.RemoteRun
