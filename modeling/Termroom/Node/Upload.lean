import Mathlib.Logic.Basic
import Termroom.Conc.Run

/-!
# The upload stream of the Node agent

`UploadAgentStream` (`node_agent.py`) writes what it is fed to a temporary file beside its target.
`close` puts the file in the place of the target, `abort` removes it. Every operation on the file
system can fail, with or without its effect, and other processes may put another file in the place
of the target at any time; nobody else touches the temporary file, whose name is drawn at random.

`close` removes the temporary file in a `finally`. `abort` closes it before its `try`, so a close
that fails there leaves it (`abort_leaves_temporary`); and a write that fails does not end the
stream, so a `close` after it puts a part of the chunk in place. `upload_atomic` is the rest: the
target is as others left it or holds all that was fed, it is not replaced unless that was asked
for, and a stream that has ended has no temporary file.
-/

set_option autoImplicit false

namespace Termroom.Node.Upload

open Conc

/-! ## 1. The source -/

structure File where
  /-- `st_dev` and `st_ino` -/
  identity : Nat
  mode : Nat
  content : List UInt8
  deriving DecidableEq, Repr

inductive UploadError where
  | streamClosed
  | uploadTooLarge
  | fileExists
  | pathChanged
  /-- What the system raised, or the cancellation of the task. -/
  | os
  deriving DecidableEq, Repr

/-- How a call ends. -/
abbrev Result := Except UploadError Unit

/-- What the stream waits for. -/
inductive Phase where
  | idle
  /-- `feed`: `self._temporary.write` -/
  | writing (chunk : List UInt8)
  /-- `abort`: `self._temporary.close`, and what the call ends with after it -/
  | abortClosing (result : Result)
  | abortUnlinking (result : Result)
  /-- `close`, up to its `finally` -/
  | flushing
  | syncing
  | closing
  | checking
  | opening
  | changingMode
  | publishing
  | unlinking
  | syncingParent
  /-- the `finally` of `close` -/
  | cleaning (result : Result)
  deriving DecidableEq

structure UploadAgentStream where
  existingIdentity : Option Nat
  existingMode : Nat
  overwrite : Bool
  maxBytes : Nat
  total : Nat
  closed : Bool
  /-- The stream is in `registry`. -/
  registered : Bool
  parentOpen : Bool
  phase : Phase
  /-- What the last call came to. -/
  result : Result
  /-- The temporary file, and what is still in the buffer of `self._temporary`. -/
  file : File
  buffered : List UInt8
  /-- The directory has the name of the temporary file. -/
  temporary : Bool
  target : Option File
  /-- The target as others left it. -/
  others : Option File
  /-- What the calls of `feed` that returned were given. -/
  fed : List UInt8
  /-- A write failed after a part of its chunk. -/
  torn : Bool
  deriving DecidableEq

namespace UploadAgentStream

/-- `existing` is the target when it was looked up, `target` the one that is there now. -/
def new (existing target : Option File) (overwrite : Bool) (maxBytes identity : Nat) :
    UploadAgentStream where
  existingIdentity := existing.map File.identity
  existingMode := (existing.map File.mode).getD 0o644
  overwrite
  maxBytes
  total := 0
  closed := false
  registered := true
  parentOpen := true
  phase := .idle
  result := .ok ()
  file := ⟨identity, 0o600, []⟩
  buffered := []
  temporary := true
  target
  others := target
  fed := []
  torn := false

def finish (w : UploadAgentStream) (result : Result) : UploadAgentStream :=
  { w with phase := .idle, result }

/-- `n` bytes of the buffer, with `more` behind it, go to the file. -/
def write (w : UploadAgentStream) (more : List UInt8) (n : Nat) : UploadAgentStream :=
  { w with
    file := { w.file with content := w.file.content ++ (w.buffered ++ more).take n }
    buffered := (w.buffered ++ more).drop n }

/-- `abort` up to `self._temporary.close`. -/
def startAbort (w : UploadAgentStream) (result : Result) : UploadAgentStream :=
  { w with closed := true, registered := false, phase := .abortClosing result }

def feed (w : UploadAgentStream) (chunk : List UInt8) : UploadAgentStream :=
  if w.closed then w.finish (.error .streamClosed)
  else
    let w := { w with total := w.total + chunk.length }
    if w.total > w.maxBytes then w.startAbort (.error .uploadTooLarge)
    else { w with phase := .writing chunk }

def close (w : UploadAgentStream) : UploadAgentStream :=
  if w.closed then w.finish (.ok ())
  else { w with closed := true, registered := false, phase := .flushing }

def abort (w : UploadAgentStream) : UploadAgentStream :=
  if w.closed then w.finish (.ok ()) else w.startAbort (.ok ())

/-- The comparison with the target that was there when the stream was opened. -/
def check (w : UploadAgentStream) : Phase :=
  if w.target.map File.identity = w.existingIdentity then .opening
  else if !w.overwrite && w.target.isSome then .cleaning (.error .fileExists)
  else .cleaning (.error .pathChanged)

/-- `os.replace`, or `os.link`, which raises where there is a target. -/
def publish (w : UploadAgentStream) (next : Phase) : UploadAgentStream :=
  if w.overwrite then { w with target := some w.file, temporary := false, phase := next }
  else if w.target.isSome then { w with phase := .cleaning (.error .fileExists) }
  else { w with target := some w.file, phase := next }

/-- What the stream waits for has succeeded. `n` bytes go to the file where it was a write. -/
def succeed (w : UploadAgentStream) (n : Nat) : UploadAgentStream :=
  match w.phase with
  | .idle => w
  | .writing chunk => { w.write chunk n with fed := w.fed ++ chunk }.finish (.ok ())
  | .abortClosing result =>
      { w.write [] w.buffered.length with phase := .abortUnlinking result }
  | .abortUnlinking result => { w with temporary := false, parentOpen := false }.finish result
  | .flushing => { w.write [] w.buffered.length with phase := .syncing }
  | .syncing => { w with phase := .closing }
  | .closing => { w with phase := .checking }
  | .checking => { w with phase := w.check }
  | .opening => { w with phase := .changingMode }
  | .changingMode =>
      { w with file := { w.file with mode := w.existingMode }, phase := .publishing }
  | .publishing => w.publish (if w.overwrite then .syncingParent else .unlinking)
  | .unlinking => { w with temporary := false, phase := .syncingParent }
  | .syncingParent => { w with phase := .cleaning (.ok ()) }
  | .cleaning result => { w with temporary := false, parentOpen := false }.finish result

/-- It has failed. A write had taken `accepted` bytes of its chunk; `effect` says whether another
    operation had its effect nevertheless. -/
def fail (w : UploadAgentStream) (n accepted : Nat) (effect : Bool) : UploadAgentStream :=
  match w.phase with
  | .idle => w
  | .writing chunk =>
      { w.write (chunk.take accepted) n with
        torn := w.torn || !(chunk.take accepted).isEmpty }.finish (.error .os)
  | .abortClosing _ => (w.write [] n).finish (.error .os)
  | .abortUnlinking _ =>
      { w with temporary := w.temporary && !effect, parentOpen := false }.finish (.error .os)
  | .flushing => { w.write [] n with phase := .cleaning (.error .os) }
  | .syncing | .closing | .checking | .opening | .syncingParent =>
      { w with phase := .cleaning (.error .os) }
  | .changingMode =>
      { w with
        file := { w.file with mode := if effect then w.existingMode else w.file.mode }
        phase := .cleaning (.error .os) }
  | .publishing =>
      if effect then w.publish (.cleaning (.error .os))
      else { w with phase := .cleaning (.error .os) }
  | .unlinking =>
      { w with temporary := w.temporary && !effect, phase := .cleaning (.error .os) }
  | .cleaning _ => { w with temporary := w.temporary && !effect }.finish (.error .os)

end UploadAgentStream

open Termroom.Node.Upload.UploadAgentStream

/-! ## 2. Runs -/

inductive Act where
  | feed (chunk : List UInt8)
  | close
  | abort
  | succeed (n : Nat)
  | fail (n accepted : Nat) (effect : Bool)
  /-- Another process puts something in the place of the target, or takes it away. -/
  | other (target : Option File)
  deriving DecidableEq

/-- The calls come one after the other, and others in between. -/
inductive Step (w : UploadAgentStream) : Act → UploadAgentStream → Prop
  | feed (chunk : List UInt8) (idle : w.phase = .idle) : Step w (.feed chunk) (w.feed chunk)
  | close (idle : w.phase = .idle) : Step w .close w.close
  | abort (idle : w.phase = .idle) : Step w .abort w.abort
  | succeed (n : Nat) (under : w.phase ≠ .idle) : Step w (.succeed n) (w.succeed n)
  | fail (n accepted : Nat) (effect : Bool) (under : w.phase ≠ .idle) :
      Step w (.fail n accepted effect) (w.fail n accepted effect)
  | other (target : Option File) :
      Step w (.other target) { w with target, others := target }

/-- The steps that do not reach the defects: no `close` comes after a write that failed midway, and
    in an abort the temporary file closes. That an `unlink` fails is left out too. -/
def Sound (w : UploadAgentStream) (act : Act) (_ : UploadAgentStream) : Prop :=
  match act with
  | .close => w.torn = false
  | .fail _ _ _ => match w.phase with
    | .abortClosing _ | .abortUnlinking _ | .cleaning _ => False
    | _ => True
  | _ => True

/-! ## 3. The invariant -/

/-- `close` has not published yet. -/
def Phase.unpublished : Phase → Bool
  | .flushing | .syncing | .closing | .checking | .opening | .changingMode | .publishing => true
  | _ => false

/-- `close` has flushed. -/
def Phase.flushed : Phase → Bool
  | .syncing | .closing | .checking | .opening | .changingMode | .publishing => true
  | _ => false

structure Ok (w : UploadAgentStream) : Prop where
  data : w.torn = false → w.file.content ++ w.buffered = w.fed
  writing : ∀ chunk, w.phase = .writing chunk → w.closed = false
  /-- Nothing is published while the stream is open or `close` is on its way. -/
  opened : w.closed = false → w.target = w.others
  unpublished : w.phase.unpublished = true →
    w.closed = true ∧ w.torn = false ∧ w.target = w.others
  flushed : w.phase.flushed = true → w.buffered = []
  target : w.target = w.others ∨ ∃ file, w.target = some file ∧ file.content = w.fed
  kept : w.overwrite = false → w.target = w.others ∨ w.others = none
  ended : w.closed = true → w.phase = .idle → w.temporary = false

variable {w w' : UploadAgentStream}

theorem Ok.new (existing target : Option File) (overwrite : Bool) (maxBytes identity : Nat) :
    Ok (.new existing target overwrite maxBytes identity) where
  data _ := rfl
  writing _ h := by cases h
  opened _ := rfl
  unpublished h := by cases h
  flushed h := by cases h
  target := .inl rfl
  kept _ := .inl rfl
  ended h := by cases h

theorem write_data (w : UploadAgentStream) (more : List UInt8) (n : Nat) :
    (w.write more n).file.content ++ (w.write more n).buffered =
      w.file.content ++ w.buffered ++ more := by
  unfold UploadAgentStream.write
  simp

theorem Ok.write_nil (ok : Ok w) (n : Nat) (h : w.torn = false) :
    (w.write [] n).file.content ++ (w.write [] n).buffered = w.fed := by
  rw [write_data, List.append_nil]
  exact ok.data h

/-- The file that `close` puts in place has all that was fed. -/
theorem Ok.content (ok : Ok w) (h : w.phase = .publishing) : w.file.content = w.fed := by
  have hdata := ok.data (ok.unpublished (by simp [h, Phase.unpublished])).2.1
  have hflushed : w.buffered = [] := ok.flushed (by simp [h, Phase.flushed])
  rwa [hflushed, List.append_nil] at hdata

/-- A phase in which nothing is written any more, and nothing is published. -/
theorem Ok.later (ok : Ok w) {phase : Phase} (idle : phase ≠ .idle)
    (quiet : ∀ chunk, phase ≠ .writing chunk)
    (unpublished : phase.unpublished = true → w.phase.unpublished = true)
    (flushed : phase.flushed = true → w.phase.flushed = true) : Ok { w with phase } where
  data := ok.data
  writing chunk h := absurd h (quiet chunk)
  opened := ok.opened
  unpublished h := ok.unpublished (unpublished h)
  flushed h := ok.flushed (flushed h)
  target := ok.target
  kept := ok.kept
  ended _ h := absurd h idle

/-- The call ends, and the temporary file is gone. -/
theorem Ok.removed (ok : Ok w) (result : Result) :
    Ok ({ w with temporary := false, parentOpen := false }.finish result) where
  data := ok.data
  writing _ h := by cases h
  opened := ok.opened
  unpublished h := by cases h
  flushed h := by cases h
  target := ok.target
  kept := ok.kept
  ended _ _ := rfl

/-- A call that ends without an effect, on a stream that was idle. -/
theorem Ok.refused (ok : Ok w) (idle : w.phase = .idle) (result : Result) :
    Ok (w.finish result) where
  data := ok.data
  writing _ h := by cases h
  opened := ok.opened
  unpublished h := by cases h
  flushed h := by cases h
  target := ok.target
  kept := ok.kept
  ended h _ := ok.ended h idle

theorem Ok.startAbort (ok : Ok w) (result : Result) : Ok (w.startAbort result) where
  data := ok.data
  writing _ h := by cases h
  opened h := by cases h
  unpublished h := by cases h
  flushed h := by cases h
  target := ok.target
  kept := ok.kept
  ended _ h := by cases h

/-! ## 4. Steps -/

theorem Ok.feed (ok : Ok w) (idle : w.phase = .idle) (chunk : List UInt8) :
    Ok (w.feed chunk) := by
  unfold UploadAgentStream.feed
  split
  · exact ok.refused idle _
  · rename_i hopen
    have counted : Ok { w with total := w.total + chunk.length } :=
      ⟨ok.data, ok.writing, ok.opened, ok.unpublished, ok.flushed, ok.target, ok.kept, ok.ended⟩
    dsimp only
    split
    · exact counted.startAbort _
    · refine ⟨ok.data, fun _ _ => ?_, ok.opened, ?_, ?_, ok.target, ok.kept, ?_⟩
      · simpa using hopen
      · simp [Phase.unpublished]
      · simp [Phase.flushed]
      · simp

theorem Ok.close (ok : Ok w) (idle : w.phase = .idle) (whole : w.torn = false) : Ok w.close := by
  unfold UploadAgentStream.close
  split
  · exact ok.refused idle _
  · rename_i hopen
    have hsame : w.target = w.others := ok.opened (by simpa using hopen)
    refine ⟨ok.data, by simp, by simp, fun _ => ⟨rfl, whole, hsame⟩, ?_, ok.target, ok.kept,
      by simp⟩
    simp [Phase.flushed]

theorem Ok.abort (ok : Ok w) (idle : w.phase = .idle) : Ok w.abort := by
  unfold UploadAgentStream.abort
  split
  · exact ok.refused idle _
  · exact ok.startAbort _

/-- `close` puts its file in place, or finds a target that it may not replace. -/
theorem Ok.publish (ok : Ok w) (h : w.phase = .publishing) {next : Phase} (idle : next ≠ .idle)
    (quiet : ∀ chunk, next ≠ .writing chunk) (published : next.unpublished = false)
    (flushed : next.flushed = false) : Ok (w.publish next) := by
  have hcontent := ok.content h
  obtain ⟨hclosed, -, hsame⟩ := ok.unpublished (by simp [h, Phase.unpublished])
  unfold UploadAgentStream.publish
  split
  · rename_i hoverwrite
    refine ⟨ok.data, fun chunk hw => absurd hw (quiet chunk), fun hopen => ?_, ?_, ?_,
      .inr ⟨_, rfl, hcontent⟩, ?_, fun _ hidle => absurd hidle idle⟩
    · simp [hclosed] at hopen
    · simp [published]
    · simp [flushed]
    · simp [hoverwrite]
  · split
    · apply ok.later
      · simp
      · simp
      · simp [Phase.unpublished]
      · simp [Phase.flushed]
    · rename_i hnone
      refine ⟨ok.data, fun chunk hw => absurd hw (quiet chunk), fun hopen => ?_, ?_, ?_,
        .inr ⟨_, rfl, hcontent⟩, fun _ => .inr ?_, fun _ hidle => absurd hidle idle⟩
      · simp [hclosed] at hopen
      · simp [published]
      · simp [flushed]
      · rw [← hsame]
        simpa using hnone

theorem Ok.succeed (ok : Ok w) (n : Nat) (under : w.phase ≠ .idle) : Ok (w.succeed n) := by
  unfold UploadAgentStream.succeed
  cases hphase : w.phase with
  | idle => exact absurd hphase under
  | writing chunk =>
    have hopen := ok.writing chunk hphase
    refine ⟨fun whole => ?_, by simp [finish], ok.opened, by simp [finish, Phase.unpublished],
      by simp [finish, Phase.flushed], .inl (ok.opened hopen), fun _ => .inl (ok.opened hopen),
      fun hclosed _ => ?_⟩
    · show (w.write chunk n).file.content ++ (w.write chunk n).buffered = w.fed ++ chunk
      rw [write_data, ok.data whole]
    · simp only [finish, UploadAgentStream.write, hopen] at hclosed
      cases hclosed
  | abortClosing result =>
    refine ⟨fun whole => ok.write_nil _ whole, by simp, ok.opened, by simp [Phase.unpublished],
      by simp [Phase.flushed], ok.target, ok.kept, by simp⟩
  | flushing =>
    have hclosing := ok.unpublished (by simp [hphase, Phase.unpublished])
    refine ⟨fun whole => ok.write_nil _ whole, by simp, ok.opened, fun _ => hclosing,
      fun _ => ?_, ok.target, ok.kept, by simp⟩
    simp [UploadAgentStream.write]
  | abortUnlinking result | cleaning result => exact ok.removed result
  | syncing | closing | opening =>
    apply ok.later
    · simp
    · simp
    · simp [hphase, Phase.unpublished]
    · simp [hphase, Phase.flushed]
  | checking =>
    apply ok.later
    · unfold UploadAgentStream.check
      split_ifs <;> simp
    · intro chunk
      unfold UploadAgentStream.check
      split_ifs <;> simp
    · simp [hphase, Phase.unpublished]
    · simp [hphase, Phase.flushed]
  | changingMode =>
    have hclosing := ok.unpublished (by simp [hphase, Phase.unpublished])
    exact ⟨ok.data, by simp, ok.opened, fun _ => hclosing,
      fun _ => ok.flushed (by simp [hphase, Phase.flushed]), ok.target, ok.kept, by simp⟩
  | publishing =>
    apply ok.publish hphase
    · split <;> simp
    · intro chunk
      split <;> simp
    · split <;> rfl
    · split <;> rfl
  | unlinking =>
    refine ⟨ok.data, by simp, ok.opened, by simp [Phase.unpublished], by simp [Phase.flushed],
      ok.target, ok.kept, by simp⟩
  | syncingParent =>
    apply ok.later
    · simp
    · simp
    · simp [Phase.unpublished]
    · simp [Phase.flushed]

theorem Ok.fail (ok : Ok w) (n accepted : Nat) (effect : Bool) (under : w.phase ≠ .idle)
    (sound : Sound w (.fail n accepted effect) w') : Ok (w.fail n accepted effect) := by
  unfold UploadAgentStream.fail
  cases hphase : w.phase with
  | idle => exact absurd hphase under
  | abortClosing _ | abortUnlinking _ | cleaning _ => simp [Sound, hphase] at sound
  | writing chunk =>
    have hopen := ok.writing chunk hphase
    refine ⟨fun whole => ?_, by simp [finish], ok.opened, by simp [finish, Phase.unpublished],
      by simp [finish, Phase.flushed], .inl (ok.opened hopen), fun _ => .inl (ok.opened hopen),
      fun hclosed _ => ?_⟩
    · -- nothing of the chunk was taken
      simp only [finish, Bool.or_eq_false_iff, Bool.not_eq_false', List.isEmpty_iff] at whole
      show (w.write (chunk.take accepted) n).file.content ++
        (w.write (chunk.take accepted) n).buffered = w.fed
      rw [whole.2]
      exact ok.write_nil n whole.1
    · simp only [finish, UploadAgentStream.write, hopen] at hclosed
      cases hclosed
  | flushing =>
    refine ⟨fun whole => ok.write_nil _ whole, by simp, ok.opened, by simp [Phase.unpublished],
      by simp [Phase.flushed], ok.target, ok.kept, by simp⟩
  | syncing | closing | checking | opening | syncingParent =>
    apply ok.later
    · simp
    · simp
    · simp [Phase.unpublished]
    · simp [Phase.flushed]
  | changingMode =>
    exact ⟨ok.data, by simp, ok.opened, by simp [Phase.unpublished], by simp [Phase.flushed],
      ok.target, ok.kept, by simp⟩
  | publishing =>
    dsimp only
    split
    · apply ok.publish hphase
      · simp
      · simp
      · rfl
      · rfl
    · apply ok.later
      · simp
      · simp
      · simp [Phase.unpublished]
      · simp [Phase.flushed]
  | unlinking =>
    refine ⟨ok.data, by simp, ok.opened, by simp [Phase.unpublished], by simp [Phase.flushed],
      ok.target, ok.kept, by simp⟩

theorem Ok.step {act : Act} (ok : Ok w) (step : Guard Step Sound w act w') : Ok w' := by
  obtain ⟨step, sound⟩ := step
  cases step with
  | feed chunk idle => exact ok.feed idle chunk
  | close idle => exact ok.close idle sound
  | abort idle => exact ok.abort idle
  | succeed n under => exact ok.succeed n under
  | fail n accepted effect under => exact ok.fail n accepted effect under sound
  | other target =>
    refine ⟨ok.data, ok.writing, fun _ => rfl, fun h => ?_, ok.flushed, .inl rfl,
      fun _ => .inl rfl, ok.ended⟩
    obtain ⟨hclosed, whole, -⟩ := ok.unpublished h
    exact ⟨hclosed, whole, rfl⟩

theorem publish_overwrite (w : UploadAgentStream) (next : Phase) :
    (w.publish next).overwrite = w.overwrite := by
  unfold UploadAgentStream.publish
  split
  · rfl
  · split <;> rfl

theorem Step.overwrite {act : Act} (step : Step w act w') : w'.overwrite = w.overwrite := by
  cases step with
  | feed chunk _ =>
    unfold UploadAgentStream.feed
    split
    · rfl
    · dsimp only
      split <;> rfl
  | close _ =>
    unfold UploadAgentStream.close
    split <;> rfl
  | abort _ =>
    unfold UploadAgentStream.abort
    split <;> rfl
  | succeed n _ =>
    unfold UploadAgentStream.succeed
    cases w.phase with
    | publishing => exact publish_overwrite _ _
    | _ => rfl
  | fail n accepted effect _ =>
    unfold UploadAgentStream.fail
    cases w.phase with
    | publishing =>
      dsimp only
      split
      · exact publish_overwrite _ _
      · rfl
    | _ => rfl
  | other target => rfl

/-- **The upload.** In every run that does not reach the defects, whatever else fails and whatever
    others do to the target: it is as they left it, or holds all that was fed, in order; unless the
    upload may overwrite, there was none where it is put; and a stream that has ended has no
    temporary file. -/
theorem upload_atomic {existing target : Option File} {overwrite : Bool} {maxBytes identity : Nat}
    {acts : List Act} {w : UploadAgentStream}
    (run : Run (Guard Step Sound) (.new existing target overwrite maxBytes identity) acts w) :
    (w.target = w.others ∨ ∃ file, w.target = some file ∧ file.content = w.fed) ∧
    (overwrite = false → w.target = w.others ∨ w.others = none) ∧
    (w.closed = true → w.phase = .idle → w.temporary = false) := by
  have ok : Ok w ∧ w.overwrite = overwrite := by
    apply run.invariant ?_ ⟨Ok.new existing target overwrite maxBytes identity, rfl⟩
    intro _ _ _ step ok
    exact ⟨ok.1.step step, step.1.overwrite.trans ok.2⟩
  refine ⟨ok.1.target, fun h => ok.1.kept (ok.2.trans h), ok.1.ended⟩

/-- The disk is full: a write stays in the buffer, and the close of an abort cannot flush it. The
    temporary file is left. And a write fails midway, and `close` puts what there is in place. -/
theorem abort_leaves_temporary :
    (∃ acts w, Run Step (.new none none false 100 7) acts w ∧ w.closed = true ∧
      w.phase = .idle ∧ w.temporary = true) ∧
    ∃ acts w, Run Step (.new none none false 100 7) acts w ∧ w.fed = [1] ∧
      w.target.map File.content = some [1, 2] := by
  refine ⟨⟨[.feed [1], .succeed 0, .abort, .fail 0 0 false], _,
    .snoc (.snoc (.snoc (.snoc .refl (.feed [1] rfl)) (.succeed 0 (by decide))) (.abort rfl))
      (.fail 0 0 false (by decide)), by decide⟩, ?_⟩
  refine ⟨[.feed [1], .succeed 0, .feed [2, 3], .fail 2 1 false, .close, .succeed 0, .succeed 0,
    .succeed 0, .succeed 0, .succeed 0, .succeed 0, .succeed 0], _,
    .snoc (.snoc (.snoc (.snoc (.snoc (.snoc (.snoc (.snoc (.snoc (.snoc (.snoc (.snoc .refl
      (.feed [1] rfl)) (.succeed 0 (by decide))) (.feed [2, 3] rfl)) (.fail 2 1 false (by decide)))
      (.close rfl)) (.succeed 0 (by decide))) (.succeed 0 (by decide))) (.succeed 0 (by decide)))
      (.succeed 0 (by decide))) (.succeed 0 (by decide))) (.succeed 0 (by decide)))
      (.succeed 0 (by decide)), by decide⟩

/-- An upload that does not overwrite, whose target comes into being before it is published. -/
theorem upload_atomic_raced :
    ∃ acts w, Run (Guard Step Sound) (.new none none false 100 7) acts w ∧ w.closed = true ∧
      w.phase = .idle ∧ w.target = w.others ∧ w.temporary = false := by
  obtain ⟨w, run, closed, idle, there⟩ : ∃ w, Run (Guard Step Sound) (.new none none false 100 7)
      [.feed [1], .succeed 0, .close, .succeed 0, .succeed 0, .succeed 0, .succeed 0, .succeed 0,
        .succeed 0, .other (some ⟨8, 0o644, [5]⟩), .succeed 0, .succeed 0] w ∧ w.closed = true ∧
        w.phase = .idle ∧ w.others ≠ none :=
    ⟨_, .snoc (.snoc (.snoc (.snoc (.snoc (.snoc (.snoc (.snoc (.snoc (.snoc (.snoc (.snoc .refl
      ⟨.feed [1] rfl, trivial⟩) ⟨.succeed 0 (by decide), trivial⟩) ⟨.close rfl, rfl⟩)
      ⟨.succeed 0 (by decide), trivial⟩) ⟨.succeed 0 (by decide), trivial⟩)
      ⟨.succeed 0 (by decide), trivial⟩) ⟨.succeed 0 (by decide), trivial⟩)
      ⟨.succeed 0 (by decide), trivial⟩) ⟨.succeed 0 (by decide), trivial⟩) ⟨.other _, trivial⟩)
      ⟨.succeed 0 (by decide), trivial⟩) ⟨.succeed 0 (by decide), trivial⟩, by decide⟩
  obtain ⟨-, kept, ended⟩ := upload_atomic run
  exact ⟨_, w, run, closed, idle, (kept rfl).resolve_right there, ended closed idle⟩

end Termroom.Node.Upload
