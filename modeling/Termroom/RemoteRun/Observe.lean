import Mathlib
import Termroom.Conc.Pool
import Termroom.RemoteRun.Runner

/-!
# Observations of a moving Run

Both status functions run here against a `Machine` that moves between their reads, with a
launcher and a stop on other connections. On a Node an observation holds the Run's lock, and
the launcher and a stop take it too; over SSH nothing keeps them out.

A terminal status is *true* when the machine is settled and, if the status says that the
runner vanished, the pane is dead and no terminal record was ever published
(`ReconcileResult.TrueOf`). The Node's always are. The SSH backend reads the stop marker
last, and where its first tmux sample found no live pane and its reads found no record it
takes the marker alone for the end of the Run: a launch and a passed check of the runner in
between make that wrong (`stopped_while_running`). `Sighted` excludes just that.
-/

set_option autoImplicit false

namespace Termroom.RemoteRun

open Conc Data

/-! ## 1. What the reads see -/

def CompletionRecord.fields (r : CompletionRecord) : JsonObject :=
  [("exit_code", .int r.exitCode), ("stop_requested", .bool r.stopRequested),
    ("started_at", .str r.startedAt), ("ended_at", .str r.endedAt),
    ("log_incomplete", .bool r.logIncomplete)]

def PrepareRecord.fields (r : PrepareRecord) : JsonObject :=
  [("state", .str (if r.stopped then "stopped" else "failed")), ("error_code", r.errorCode),
    ("ended_at", .str r.endedAt)]

def LivePhase.text : LivePhase → String
  | .cloning => "cloning"
  | .running => "running"

def StateRecord.fields (r : StateRecord) : JsonObject :=
  [("phase", .str r.phase.text), ("started_at", .str r.startedAt)]

theorem stamp_str (s : Stamp) : stamp (.str s) = some s := by
  simp [stamp, s.2]

/-- A published record is valid and read as it was written. -/
theorem completionRecord_fields (r : CompletionRecord) : completionRecord r.fields = some r := by
  simp [completionRecord, CompletionRecord.fields, Json.get, List.lookup, stamp_str, Json.truthy]

theorem prepareRecord_fields (r : PrepareRecord) : prepareRecord r.fields = .ok (some r) := by
  obtain ⟨stopped, endedAt, errorCode⟩ := r
  cases stopped <;>
    simp [prepareRecord, PrepareRecord.fields, Json.get, List.lookup, stamp_str, member]

theorem stateRecord_fields (r : StateRecord) : stateRecord r.fields = .ok (some r) := by
  obtain ⟨phase, startedAt⟩ := r
  cases phase <;>
    simp [stateRecord, StateRecord.fields, LivePhase.text, Json.get, List.lookup, stamp_str,
      member]

/-- The fields of a record file that is there. -/
def Machine.record (m : Machine) : RecordFile → Option JsonObject
  | .completion => m.completion.map CompletionRecord.fields
  | .prepareResult => m.prepare.map PrepareRecord.fields
  | .state => m.state.map StateRecord.fields

def Machine.content (m : Machine) (file : RecordFile) : Content :=
  match m.record file with
  | some fields => .loaded (.obj fields)
  | none => .missing

/-! ## 2. The system -/

structure ObserveWorld where
  machine : Machine
  /-- The observation that holds the Run's lock. -/
  lock : Option Nat

/-- An answer, or a failure of the connection. -/
def Reports {α : Type} (x : α) (a : Except ObserveError α) : Prop := a = .ok x ∨ ∃ e, a = .error e

def ObserveOp.step (t : Nat) : (o : ObserveOp) → o.Ans → ObserveWorld → ObserveWorld → Prop
  | .tmuxStatus, a, u, v => v = u ∧ ∃ status, status.running = u.machine.live ∧ Reports status a
  | .exists_ file, a, u, v => v = u ∧ Reports (u.machine.record file).isSome a
  | .read file, a, u, v => v = u ∧ (a = u.machine.content file ∨ a = .unavailable)
  | .stopExists, a, u, v => v = u ∧ Reports u.machine.stop a
  | .readRevision, _, u, v => v = u
  | .acquire, _, u, v => u.lock = none ∧ v = { u with lock := some t }
  | .release, _, u, v => u.lock = some t ∧ v = { u with lock := none }

inductive Backend where
  | ssh
  | node
  deriving DecidableEq, Repr

def Backend.observe : Backend → ObserveProg ReconcileResult
  | .ssh => sshReconcile
  | .node => nodeObserve

/-- Observations of one Run while the Run, its launcher and stops go on. -/
abbrev observeSystem : System ObserveSig ObserveError where
  World := ObserveWorld
  Label := Backend
  Ret := fun _ => ReconcileResult
  body := Backend.observe
  step := fun t _ o => o.step t
  start := fun _ _ u v => v = u
  -- only the runner goes on under the Run's lock
  env := fun u v => v.lock = u.lock ∧
    (u.machine.Moves v.machine ∨ u.lock = none ∧ u.machine.Controlled v.machine)

/-- What an observation has seen so far: a live pane at its last tmux sample, a record. -/
structure Seen where
  live : Bool
  found : Bool
  deriving DecidableEq

def Seen.track (_ : Backend) (seen : Seen) : (o : ObserveOp) → o.Ans → Seen
  | .tmuxStatus, .ok status => { seen with live := status.running }
  | .read _, .loaded _ => { seen with found := true }
  | _, _ => seen

abbrev seenSystem : System ObserveSig ObserveError := observeSystem.instrument Seen Seen.track

/-- Over SSH, an observation that has seen neither a live pane nor a record finds the stop
    marker only while the runner is not past its check of the marker. -/
def Sighted (t : Nat) : Backend → (o : ObserveOp) → o.Ans → ObserveWorld × (Nat → Seen) → Prop
  | .ssh, .stopExists, .ok true, u =>
    u.2 t = ⟨false, false⟩ → u.1.machine.program ≠ .running
  | _, _, _, _ => True

abbrev sightedSystem : System ObserveSig ObserveError :=
  seenSystem.restrict fun t l o a u _ => Sighted t l o a u

/-- The status is true of the machine: a terminal one says that the program is not running and
    never will be, one that reports a lost runner that it died without a terminal record. -/
structure ReconcileResult.TrueOf (r : ReconcileResult) (m : Machine) : Prop where
  settled : r.state.terminal = true → m.site.Settled
  lost : r.state = .lost ∨ r.errorCode = .str "git_session_lost" →
    m.runner = .dead ∧ m.completion = none ∧ m.prepare = none

/-! ## 3. What an observation relies on -/

abbrev SeenWorld := ObserveWorld × (Nat → Seen)

/-- What the others do between two reads of thread `t`. -/
structure Undergone (t : Nat) (u v : SeenWorld) : Prop where
  later : u.1.machine.Later v.1.machine
  seen : v.2 t = u.2 t
  lock : u.1.lock = some t → v.1.lock = some t
  held : u.1.lock = some t → u.1.machine.runner = .absent → v.1.machine.runner = .absent

theorem Undergone.refl (t : Nat) (u : SeenWorld) : Undergone t u u :=
  ⟨.refl _, rfl, id, fun _ => id⟩

theorem Undergone.trans {t : Nat} {u v w : SeenWorld} (h : Undergone t u v)
    (h' : Undergone t v w) : Undergone t u w where
  later := h.later.trans h'.later
  seen := h'.seen.trans h.seen
  lock := fun hl => h'.lock (h.lock hl)
  held := fun hl hr => h'.held (h.lock hl) (h.held hl hr)

theorem Machine.Moves.absent {m m' : Machine} (h : m.Moves m') : m.runner ≠ .absent := by
  intro absent
  cases h with
  | cancel now here => simp [absent] at here
  | fail code now here => simp [Machine.prepares, absent] at here
  | die alive => simp [Machine.live, absent] at alive
  | _ => simp_all

/-- The outline: the machine is well formed, and a status is true of it. -/
def observeOutline : Outline sightedSystem where
  inv := fun w => w.1.machine.Wf
  rely := fun t _ => Undergone t
  ok := fun _ _ _ _ _ _ => True
  post := fun _ _ r w => ∀ status, r = .ok status → status.TrueOf w.1.machine
  rely_refl := fun t _ => Undergone.refl t
  rely_trans := fun _ _ _ _ _ => Undergone.trans
  start_keeps := by
    rintro t l u v hu ⟨hm, hs⟩
    obtain rfl : v = u := Prod.ext hm hs
    exact ⟨hu, fun t' _ _ => .refl t' v⟩
  env_keeps := by
    rintro u v hu ⟨⟨hl, h⟩, hs⟩
    rcases h with h | ⟨hfree, h⟩
    · refine ⟨h.wf hu, fun t _ => ⟨h.later, by rw [hs], fun hl' => hl.trans hl', ?_⟩⟩
      exact fun _ hr => absurd hr h.absent
    · refine ⟨h.wf hu, fun t _ => ⟨h.later, by rw [hs], fun hl' => hl.trans hl', ?_⟩⟩
      intro hl'
      rw [hfree] at hl'
      exact nomatch hl'

/-! ## 4. Rules for the reads -/

section

variable {t : Nat} {l : Backend} {w : SeenWorld} {α β : Type}

/-- A return is as `R` says; an exception tells nothing. -/
abbrev Returns (R : α → SeenWorld → Prop) : Except ObserveError α → SeenWorld → Prop :=
  onResult R fun _ _ => True

theorem then_wp {p : ObserveProg α} {f : α → ObserveProg β} {R : α → SeenWorld → Prop}
    {Q : β → SeenWorld → Prop} (first : p.wp (observeOutline.contract t l) (Returns R) w)
    (next : ∀ a v, R a v → (f a).wp (observeOutline.contract t l) (Returns Q) v) :
    (p >>= f).wp (observeOutline.contract t l) (Returns Q) w :=
  Prog.wp_seq first (fun _ _ _ => trivial) next

theorem ofExcept_wp {r : Except ObserveError α} {R : α → SeenWorld → Prop}
    (h : ∀ a, r = .ok a → R a w) :
    (Prog.ofExcept r).wp (observeOutline.contract t l) (Returns R) w := by
  cases r with
  | ok a => exact h a rfl
  | error e => trivial

/-- An operation that leaves the machine and the lock alone. -/
theorem reading_wp {o : ObserveOp} {R : o.Ans → SeenWorld → Prop}
    (quiet : ∀ a u v, o.step t a u v → v = u)
    (after : ∀ a u, Undergone t w u → u.1.machine.Wf → o.step t a u.1 u.1 → Sighted t l o a u →
      R a (u.1, Function.update u.2 t ((u.2 t).track l o a))) :
    @Prog.wp ObserveSig ObserveError (no_index o.Ans) SeenWorld (observeOutline.contract t l)
      (reading o) (onResult R fun _ _ => True) w := by
  intro u hu hi a v ⟨⟨hs, hseen⟩, hsighted⟩
  have hv : v = (u.1, Function.update u.2 t ((u.2 t).track l o a)) :=
    Prod.ext (quiet a u.1 v.1 hs) hseen
  subst hv
  refine ⟨⟨hi, fun t' _ ht' => ⟨.refl _, Function.update_of_ne ht' _ _, id, fun _ => id⟩,
    trivial⟩, ?_⟩
  exact after a u hu hi hs hsighted

/-- What an observation knows before its tmux sample: on a Node it holds the lock. `gone` says
    that the pane is known to be dead, `any` that a record was found. -/
structure Ready (t : Nat) (l : Backend) (gone : Bool) (any : Prop) (w : SeenWorld) : Prop where
  found : (w.2 t).found = true → any
  lock : l = .node → w.1.lock = some t
  dead : gone = true → w.1.machine.runner = .dead

/-- What it knows between its reads: what its last sample `pane` was, and on a Node that a pane
    that was not live is not. -/
structure Known (t : Nat) (l : Backend) (pane gone : Bool) (any : Prop) (w : SeenWorld) : Prop
    extends Ready t l gone any w where
  live : (w.2 t).live = pane
  still : l = .node → pane = false →
    w.1.machine.runner = .absent ∨ w.1.machine.runner = .dead

variable {pane gone : Bool} {any any' : Prop}

theorem Ready.undergone {u : SeenWorld} (h : Ready t l gone any w) (hu : Undergone t w u) :
    Ready t l gone any u where
  found := by rw [hu.seen]; exact h.found
  lock := fun hl => hu.lock (h.lock hl)
  dead := fun hd => (hu.later.dead (h.dead hd)).1

theorem Known.undergone {u : SeenWorld} (h : Known t l pane gone any w)
    (hu : Undergone t w u) : Known t l pane gone any u where
  toReady := h.toReady.undergone hu
  live := by rw [hu.seen]; exact h.live
  still := fun hl hlive => (h.still hl hlive).imp (hu.held (h.lock hl)) fun hd => (hu.later.dead hd).1

theorem Known.weaken (h : Known t l pane gone any w) (imp : any → any') :
    Known t l pane gone any' w :=
  { h with found := fun hf => imp (h.found hf) }

/-- A fact about the machine that stays. -/
def Lasting (G : Machine → Prop) : Prop := ∀ m m', m.Later m' → G m → G m'

theorem Lasting.and {G G' : Machine → Prop} (h : Lasting G) (h' : Lasting G') :
    Lasting fun m => G m ∧ G' m := fun m m' hm hg => ⟨h m m' hm hg.1, h' m m' hm hg.2⟩

/-- If the pane is known to be dead, the file exists for good or not. -/
def Gone (gone : Bool) (file : RecordFile) (present : Bool) (m : Machine) : Prop :=
  gone = true → m.runner = .dead ∧ (file ≠ .state → present = (m.record file).isSome)

theorem Gone.lasting {file : RecordFile} {present : Bool} : Lasting (Gone gone file present) := by
  intro m m' hm h hd
  obtain ⟨hdead, hp⟩ := h hd
  obtain ⟨hdead', hc, hpr⟩ := hm.dead hdead
  refine ⟨hdead', fun hf => ?_⟩
  rw [hp hf]
  cases file with
  | completion => simp [Machine.record, hc]
  | prepareResult => simp [Machine.record, hpr]
  | state => exact absurd rfl hf

/-- These are the fields of a record that was published at some moment. -/
def Published (file : RecordFile) (fields : JsonObject) (m : Machine) : Prop :=
  ∃ m₀ : Machine, m₀.Wf ∧ m₀.Later m ∧ m₀.record file = some fields

theorem Published.lasting {file : RecordFile} {fields : JsonObject} :
    Lasting (Published file fields) :=
  fun _ _ hm ⟨m₀, hw, hl, hr⟩ => ⟨m₀, hw, hl.trans hm, hr⟩

variable {G : Machine → Prop}

theorem exists_wp (file : RecordFile) (hG : Lasting G)
    (h : Known t l pane gone any w ∧ G w.1.machine) :
    (look (reading (.exists_ file))).wp (observeOutline.contract t l) (Returns fun present v =>
      Known t l pane gone any v ∧ Gone gone file present v.1.machine ∧ G v.1.machine) w := by
  refine then_wp (reading_wp (o := .exists_ file) (R := fun (a : Except ObserveError Bool) v =>
    ∀ present, a = .ok present → Known t l pane gone any v ∧ Gone gone file present v.1.machine ∧ G v.1.machine)
    (fun _ _ _ hs => hs.1) ?_) fun a v hr => ofExcept_wp hr
  intro a u hu hi hs _ present ha
  subst ha
  have hseen : (u.2 t).track l (.exists_ file) (.ok present) = u.2 t := rfl
  rw [hseen, Function.update_eq_self]
  refine ⟨h.1.undergone hu, fun hd => ⟨(h.1.undergone hu).dead hd, fun _ => ?_⟩,
    hG _ _ hu.later h.2⟩
  rcases hs.2 with hs | ⟨e, hs⟩
  · exact Except.ok.inj hs
  · exact nomatch hs

theorem stop_wp (hG : Lasting G) (h : Known t l pane gone any w ∧ G w.1.machine) :
    (look (reading .stopExists)).wp (observeOutline.contract t l) (Returns fun stop v =>
      Known t l pane gone any v ∧ v.1.machine.stop = stop ∧
      (l = .ssh → stop = true → pane = false → ¬ any → v.1.machine.program ≠ .running) ∧
      G v.1.machine) w := by
  refine then_wp (reading_wp (o := .stopExists) (R := fun (a : Except ObserveError Bool) v =>
    ∀ stop, a = .ok stop → Known t l pane gone any v ∧ v.1.machine.stop = stop ∧
      (l = .ssh → stop = true → pane = false → ¬ any → v.1.machine.program ≠ .running) ∧
      G v.1.machine) (fun _ _ _ hs => hs.1) ?_) fun a v hr => ofExcept_wp hr
  intro a u hu hi hs hsighted stop ha
  subst ha
  have hseen : (u.2 t).track l .stopExists (.ok stop) = u.2 t := rfl
  have hk := h.1.undergone hu
  rw [hseen, Function.update_eq_self]
  refine ⟨hk, ?_, ?_, hG _ _ hu.later h.2⟩
  · rcases hs.2 with hs | ⟨e, hs⟩
    · exact (Except.ok.inj hs).symm
    · exact nomatch hs
  · rintro rfl rfl hlive hfound
    refine hsighted ?_
    have hf : (u.2 t).found = false := Bool.eq_false_iff.mpr fun hf => hfound (hk.found hf)
    exact (Seen.mk.injEq _ _ _ _).mpr ⟨hk.live.trans hlive, hf⟩

theorem tmux_wp (hG : Lasting G) (h : Ready t l gone any w ∧ G w.1.machine) :
    (look (reading .tmuxStatus)).wp (observeOutline.contract t l) (Returns fun status v =>
      Known t l status.running gone any v ∧ status.running = v.1.machine.live ∧
      G v.1.machine) w := by
  refine then_wp (reading_wp (o := .tmuxStatus) (R := fun (a : Except ObserveError TmuxStatus) v =>
    ∀ status, a = .ok status → Known t l status.running gone any v ∧ status.running = v.1.machine.live ∧
      G v.1.machine) (fun _ _ _ hs => hs.1) ?_) fun a v hr => ofExcept_wp hr
  intro a u hu hi hs _ status ha
  subst ha
  have hk := h.1.undergone hu
  have hrun : status.running = u.1.machine.live := by
    obtain ⟨status', hs', ha⟩ := hs.2
    rcases ha with ha | ⟨e, ha⟩
    · rw [Except.ok.inj ha]; exact hs'
    · exact nomatch ha
  refine ⟨⟨⟨?_, hk.lock, hk.dead⟩, ?_, ?_⟩, hrun, hG _ _ hu.later h.2⟩
  · simpa [Seen.track] using hk.found
  · simp [Seen.track]
  · intro _ hlive
    rw [hrun] at hlive
    by_cases ha : u.1.machine.runner = .absent
    · exact .inl ha
    · exact .inr (by simpa [Machine.live, ha] using hlive)

/-- Reading a record file: its content as it is at that moment, or none. -/
theorem read_wp (file : RecordFile) (hG : Lasting G)
    (h : Known t l pane gone any w ∧ G w.1.machine) :
    @Prog.wp ObserveSig ObserveError Content SeenWorld (observeOutline.contract t l)
      (reading (.read file)) (Returns fun content v =>
        Known t l pane gone (any ∨ ∃ value, content = .loaded value) v ∧
        (∀ value, content = .loaded value →
          ∃ fields, value = .obj fields ∧ Published file fields v.1.machine) ∧
        G v.1.machine) w := by
  refine reading_wp (o := .read file) (fun _ _ _ hs => hs.1) ?_
  intro content u hu hi hs _
  have hk := h.1.undergone hu
  have hcontent : ∀ value, content = .loaded value →
      ∃ fields, value = .obj fields ∧ Published file fields u.1.machine := by
    rintro value rfl
    rcases hs.2 with hs | hs
    · unfold Machine.content at hs
      split at hs
      · rename_i fields hr
        exact ⟨fields, Content.loaded.inj hs, u.1.machine, hi, .refl _, hr⟩
      · exact nomatch hs
    · exact nomatch hs
  refine ⟨⟨⟨?_, hk.lock, hk.dead⟩, ?_, hk.still⟩, hcontent, hG _ _ hu.later h.2⟩
  · show (Function.update u.2 t _ t).found = true → _
    rw [Function.update_self]
    cases content with
    | loaded value => exact fun _ => .inr ⟨value, rfl⟩
    | _ => exact fun hf => .inl (hk.found hf)
  · show (Function.update u.2 t _ t).live = pane
    rw [Function.update_self]
    cases content <;> exact hk.live

/-! ## 5. One pass over the records -/

/-- What a valid record says. -/
def RecordFile.Evidence (file : RecordFile) (m : Machine) : Prop :=
  match file with
  | .state => m.runner ≠ .absent
  | _ => m.program = .ended

theorem RecordFile.Evidence.lasting (file : RecordFile) : Lasting file.Evidence := by
  intro m m' hm h
  cases file with
  | state => exact hm.launched h
  | completion => exact hm.ended h
  | prepareResult => exact hm.ended h

/-- What is known once a record file has been asked for and read. -/
structure Shows (gone : Bool) (file : RecordFile) (present valid : Bool) (m : Machine) :
    Prop where
  gone : Gone gone file present m
  evidence : valid = true → file.Evidence m

theorem Published.evidence {file : RecordFile} {fields : JsonObject} {m : Machine}
    (h : Published file fields m) : file.Evidence m := by
  obtain ⟨m₀, hw, hl, hr⟩ := h
  refine RecordFile.Evidence.lasting file m₀ m hl ?_
  cases file with
  | completion => exact hw.completion (by simpa [Machine.record] using congrArg Option.isSome hr)
  | prepareResult => exact hw.prepare (by simpa [Machine.record] using congrArg Option.isSome hr)
  | state => exact hw.state (by simpa [Machine.record] using congrArg Option.isSome hr)

theorem Published.completion {fields : JsonObject} {m : Machine}
    (h : Published .completion fields m) : (completionRecord fields).isSome := by
  obtain ⟨m₀, hw, hl, hr⟩ := h
  obtain ⟨r, -, rfl⟩ := Option.map_eq_some_iff.mp hr
  rw [completionRecord_fields]
  rfl

theorem Published.prepare {fields : JsonObject} {m : Machine}
    (h : Published .prepareResult fields m) :
    ∃ r, prepareRecord fields = .ok (some r) ∧ r.errorCode ≠ .str "git_session_lost" := by
  obtain ⟨m₀, hw, hl, hr⟩ := h
  obtain ⟨r, hp, rfl⟩ := Option.map_eq_some_iff.mp hr
  obtain ⟨code, hcode⟩ := hw.code r hp
  refine ⟨r, prepareRecord_fields r, ?_⟩
  rw [hcode]
  cases code <;> simp [PrepareCode.text]

theorem Published.state {fields : JsonObject} {m : Machine}
    (h : Published .state fields m) : ∃ r, stateRecord fields = .ok (some r) := by
  obtain ⟨m₀, hw, hl, hr⟩ := h
  obtain ⟨r, -, rfl⟩ := Option.map_eq_some_iff.mp hr
  exact ⟨r, stateRecord_fields r⟩

/-- What a sample says is true of the machine. `pane` is the tmux sample before it, `gone` says
    that the pane was known to be dead by then. -/
structure Sample.TrueOf (s : Sample) (pane gone : Bool) (m : Machine) : Prop where
  completion : s.completion.isSome → m.program = .ended
  prepare : ∀ r, s.prepare = some r → m.program = .ended ∧ r.errorCode ≠ .str "git_session_lost"
  state : s.state.isSome → m.runner ≠ .absent
  stopped : s.stop = true → pane = false → s.completion = none → s.prepare = none →
    s.state = none ∨ gone = true → m.site.Settled
  lost : gone = true → s.completion = none → s.prepare = none → s.errors = [] →
    m.runner = .dead ∧ m.completion = none ∧ m.prepare = none

theorem Sample.TrueOf.lasting {s : Sample} {pane gone : Bool} : Lasting (s.TrueOf pane gone) := by
  intro m m' hm h
  refine ⟨fun hc => hm.ended (h.completion hc), fun r hr => ⟨hm.ended (h.prepare r hr).1,
    (h.prepare r hr).2⟩, fun hs => hm.launched (h.state hs), ?_, ?_⟩
  · intro hstop hp hc hpr hs
    exact hm.settled (h.stopped hstop hp hc hpr hs)
  · intro hg hc hpr he
    obtain ⟨hd, hmc, hmp⟩ := h.lost hg hc hpr he
    obtain ⟨hd', hc', hp'⟩ := hm.dead hd
    exact ⟨hd', hc'.trans hmc, hp'.trans hmp⟩

/-- A live pane makes a sample no less true. -/
theorem Sample.TrueOf.live {s : Sample} {pane gone : Bool} {m : Machine}
    (h : s.TrueOf pane gone m) : s.TrueOf true gone m :=
  { h with stopped := fun _ hp => absurd hp (by simp) }

/-- A record that is missing from a sample without errors is missing. -/
theorem Shows.missing {gone present : Bool} {file : RecordFile} {m : Machine} {α : Type}
    {r : Option α} (h : Shows gone file present r.isSome m) (hfile : file ≠ .state)
    (hgone : gone = true) (hr : r = none) (hp : (present && !r.isSome) = false) :
    m.record file = none := by
  have hpresent := (h.gone hgone).2 hfile
  subst hr
  cases present with
  | false => simpa using hpresent.symm
  | true => simp at hp

theorem sample_trueOf {pane gone : Bool} {m : Machine} {cp pp sp stop : Bool}
    {c : Option CompletionRecord} {p : Option PrepareRecord} {st : Option StateRecord}
    (hc : Shows gone .completion cp c.isSome m) (hp : Shows gone .prepareResult pp p.isSome m)
    (hs : Shows gone .state sp st.isSome m)
    (code : ∀ r, p = some r → r.errorCode ≠ .str "git_session_lost")
    (stopped : stop = true → pane = false → c = none → p = none →
      st = none ∨ gone = true → m.site.Settled) :
    Sample.TrueOf ⟨c, p, st, recordErrors [(.completion, cp, c.isSome),
      (.prepareResult, pp, p.isSome), (.state, sp, st.isSome)], stop⟩ pane gone m where
  completion := hc.evidence
  prepare := fun r hr => ⟨hp.evidence (by simp only at hr; rw [hr]; rfl), code r hr⟩
  state := hs.evidence
  stopped := stopped
  lost := by
    intro hg hcn hpn he
    simp only [recordErrors, List.map_eq_nil_iff, List.filter_eq_nil_iff, List.mem_cons,
      List.not_mem_nil, or_false, forall_eq_or_imp, forall_eq, Bool.not_eq_true] at he
    have hmc := hc.missing (by simp) hg hcn he.1
    have hmp := hp.missing (by simp) hg hpn he.2.1
    exact ⟨(hc.gone hg).1, by simpa [Machine.record] using hmc,
      by simpa [Machine.record] using hmp⟩

/-- **The decision**: a true sample gives a true status. -/
theorem sshDecide_trueOf {tmux : TmuxStatus} {s : Sample} {m : Machine} (gone : Bool)
    (h : s.TrueOf tmux.running gone m)
    (sampled : tmux.running = false → s.state.isSome → s.completion = none →
      s.prepare = none → gone = true) : (sshDecide tmux s).TrueOf m := by
  have open_ : ∀ r : ReconcileResult, r.state.terminal = false → r.errorCode = .null →
      r.TrueOf m := by
    intro r hr hcode
    refine ⟨fun ht => absurd ht (by simp [hr]), ?_⟩
    rintro (hl | hl)
    · rw [hl] at hr
      exact nomatch hr
    · rw [hcode] at hl
      exact nomatch hl
  unfold sshDecide
  cases hc : s.completion with
  | some c =>
    refine ⟨fun _ => .inl (h.completion (by rw [hc]; rfl)), ?_⟩
    rintro (hl | hl)
    · simp only [ReconcileResult.complete] at hl
      split at hl <;> exact nomatch hl
    · exact nomatch hl
  | none =>
    cases hp : s.prepare with
    | some p =>
      obtain ⟨hend, hcode⟩ := h.prepare p hp
      refine ⟨fun _ => .inl hend, ?_⟩
      rintro (hl | hl)
      · simp only [ReconcileResult.unprepared, PrepareRecord.state] at hl
        split at hl <;> exact nomatch hl
      · exact absurd hl hcode
    | none =>
      dsimp only
      split
      · split <;> exact open_ _ rfl rfl
      · rename_i hrun
        have hrun : tmux.running = false := Bool.eq_false_iff.mpr hrun
        split
        · rename_i hstop
          refine ⟨fun _ => h.stopped hstop hrun hc hp ?_, ?_⟩
          · cases hs : s.state with
            | none => exact .inl rfl
            | some st => exact .inr (sampled hrun (by rw [hs]; rfl) hc hp)
          · rintro (hl | hl) <;> exact nomatch hl
        · split
          · exact open_ _ rfl rfl
          · rename_i he
            have lost : s.state.isSome →
                m.runner = .dead ∧ m.completion = none ∧ m.prepare = none := by
              intro hs
              exact h.lost (sampled hrun hs hc hp) hc hp (by simpa using he)
            have settled : s.state.isSome → m.site.Settled := by
              intro hs
              refine .inl ?_
              simp [Machine.site, Machine.program, (lost hs).1]
            split
            · rename_i hs
              have hs : s.state.isSome := by simpa using congrArg Option.isSome hs
              exact ⟨fun _ => settled hs, fun _ => lost hs⟩
            · split
              · rename_i hs
                have hs : s.state.isSome := by simpa using congrArg Option.isSome hs
                exact ⟨fun _ => settled hs, fun _ => lost hs⟩
              · exact open_ _ rfl rfl

/-! ## 6. The SSH backend -/

/-- What is known of a record file that was asked for and read over SSH. -/
def SftpShows (gone : Bool) (file : RecordFile) (present : Bool) (value : Option Json)
    (m : Machine) : Prop :=
  Gone gone file present m ∧
    ∀ j, value = some j → ∃ fields, j = .obj fields ∧ Published file fields m

theorem SftpShows.lasting {file : RecordFile} {present : Bool} {value : Option Json} :
    Lasting (SftpShows gone file present value) := by
  intro m m' hm h
  refine ⟨Gone.lasting m m' hm h.1, fun j hj => ?_⟩
  obtain ⟨fields, rfl, hp⟩ := h.2 j hj
  exact ⟨fields, rfl, Published.lasting m m' hm hp⟩

theorem readSftpJson_wp (file : RecordFile) (hG : Lasting G)
    (h : Known t l pane gone any w ∧ G w.1.machine) :
    (readSftpJson file).wp (observeOutline.contract t l) (Returns fun value v =>
      Known t l pane gone (any ∨ value.isSome) v ∧
      (∀ j, value = some j → ∃ fields, j = .obj fields ∧ Published file fields v.1.machine) ∧
      G v.1.machine) w := by
  refine then_wp (read_wp file hG h) fun content v hv => ?_
  obtain ⟨hk, hp, hg⟩ := hv
  cases content with
  | loaded value =>
    refine ⟨hk.weaken (Or.imp_right fun _ => rfl), fun j hj => ?_, hg⟩
    exact hp j (by rw [Option.some.inj hj])
  | missing => exact ⟨hk.weaken (Or.imp_right nofun), nofun, hg⟩
  | undecodable => exact ⟨hk.weaken (Or.imp_right nofun), nofun, hg⟩
  | unavailable => trivial
  | tooLarge => trivial
  | raises message => trivial

/-- One record: whether it exists, and what is in it. -/
theorem sftpFile_wp (file : RecordFile) (hG : Lasting G)
    (h : Known t l pane gone any w ∧ G w.1.machine) {f : Bool → Option Json → ObserveProg β}
    {Q : β → SeenWorld → Prop}
    (next : ∀ present value v, Known t l pane gone (any ∨ value.isSome) v ∧
      SftpShows gone file present value v.1.machine ∧ G v.1.machine →
      (f present value).wp (observeOutline.contract t l) (Returns Q) v) :
    (do
      let present ← look (reading (.exists_ file))
      let value ← readSftpJson file
      f present value).wp (observeOutline.contract t l) (Returns Q) w := by
  refine then_wp (exists_wp file hG h) fun present v hv => ?_
  refine then_wp (readSftpJson_wp file (Gone.lasting.and hG) hv) fun value v' hv' => ?_
  exact next present value v' ⟨hv'.1, ⟨hv'.2.2.1, hv'.2.1⟩, hv'.2.2.2⟩

theorem SftpShows.completion {present : Bool} {value : Option Json} {m : Machine}
    (h : SftpShows gone .completion present value m) :
    Shows gone .completion present (sftpCompletion value).isSome m ∧
      (value.isSome → (sftpCompletion value).isSome) := by
  cases value with
  | none => exact ⟨⟨h.1, nofun⟩, nofun⟩
  | some j =>
    obtain ⟨fields, rfl, hp⟩ := h.2 j rfl
    exact ⟨⟨h.1, fun _ => hp.evidence⟩, fun _ => hp.completion⟩

theorem SftpShows.prepare {present : Bool} {value : Option Json} {m : Machine}
    {r : Option PrepareRecord} (h : SftpShows gone .prepareResult present value m)
    (hr : sftpPrepare value = .ok r) :
    Shows gone .prepareResult present r.isSome m ∧ (value.isSome → r.isSome) ∧
      ∀ p, r = some p → p.errorCode ≠ .str "git_session_lost" := by
  cases value with
  | none =>
    cases hr
    exact ⟨⟨h.1, nofun⟩, nofun, nofun⟩
  | some j =>
    obtain ⟨fields, rfl, hp⟩ := h.2 j rfl
    obtain ⟨p, hrecord, hcode⟩ := hp.prepare
    obtain rfl : some p = r := Except.ok.inj (hrecord.symm.trans hr)
    refine ⟨⟨h.1, fun _ => hp.evidence⟩, fun _ => rfl, fun q hq => ?_⟩
    rw [← Option.some.inj hq]
    exact hcode

theorem SftpShows.state {present : Bool} {value : Option Json} {m : Machine}
    {r : Option StateRecord} (h : SftpShows gone .state present value m)
    (hr : sftpState value = .ok r) :
    Shows gone .state present r.isSome m ∧ (value.isSome → r.isSome) := by
  cases value with
  | none =>
    cases hr
    exact ⟨⟨h.1, nofun⟩, nofun⟩
  | some j =>
    obtain ⟨fields, rfl, hp⟩ := h.2 j rfl
    obtain ⟨st, hrecord⟩ := hp.state
    obtain rfl : some st = r := Except.ok.inj (hrecord.symm.trans hr)
    exact ⟨⟨h.1, fun _ => hp.evidence⟩, fun _ => rfl⟩

/-- The first pass. Nothing is known of the pane but its sample; if the records were missing,
    it is `Sighted` that makes the marker tell the truth. -/
theorem sshSample_wp (h : Known t .ssh pane false False w) :
    sshSample.wp (observeOutline.contract t .ssh)
      (Returns fun s v => Known t .ssh pane false True v ∧ s.TrueOf pane false v.1.machine)
      w := by
  have none_ : Lasting fun _ => True := fun _ _ _ _ => trivial
  refine sftpFile_wp .completion none_ ⟨h, trivial⟩ fun cp c v hc => ?_
  refine sftpFile_wp .prepareResult (SftpShows.lasting.and none_) hc fun pp p v hp => ?_
  refine sftpFile_wp .state (SftpShows.lasting.and (SftpShows.lasting.and none_)) hp
    fun sp st v hs => ?_
  refine then_wp (stop_wp (SftpShows.lasting.and (SftpShows.lasting.and
    (SftpShows.lasting.and none_))) hs) fun stop v hstop => ?_
  obtain ⟨hk, hmarker, hunstarted, hs, hp, hc, -⟩ := hstop
  refine then_wp (ofExcept_wp (R := fun p' v' => v' = v ∧ sftpPrepare p = .ok p')
    fun p' hp' => ⟨rfl, hp'⟩) fun p' v' hp' => ?_
  obtain ⟨rfl, hprep⟩ := hp'
  refine then_wp (ofExcept_wp (R := fun st' v => v = v' ∧ sftpState st = .ok st')
    fun st' hst' => ⟨rfl, hst'⟩) fun st' v hst' => ?_
  obtain ⟨rfl, hstate⟩ := hst'
  obtain ⟨shown, valid⟩ := hc.completion
  obtain ⟨shownP, validP, code⟩ := hp.prepare hprep
  obtain ⟨shownS, validS⟩ := hs.state hstate
  refine ⟨hk.weaken fun _ => trivial,
    sample_trueOf shown shownP shownS code fun hst hpane hcn hpn hsn => ?_⟩
  rcases hsn with hsn | hg
  · refine .inr ⟨hmarker.trans hst, hunstarted rfl hst hpane ?_⟩
    rintro (((hf | hf) | hf) | hf)
    · exact hf
    · rw [hcn] at valid
      exact nomatch valid hf
    · rw [hpn] at validP
      exact nomatch validP hf
    · rw [hsn] at validS
      exact nomatch validS hf
  · exact nomatch hg

/-- The second pass: the pane is dead, so the machine stands still. -/
theorem sshResample_wp (h : Known t l false true any w) :
    sshResample.wp (observeOutline.contract t l)
      (Returns fun s v => s.TrueOf false true v.1.machine) w := by
  have none_ : Lasting fun _ => True := fun _ _ _ _ => trivial
  refine sftpFile_wp .completion none_ ⟨h, trivial⟩ fun cp c v hc => ?_
  refine sftpFile_wp .prepareResult (SftpShows.lasting.and none_) hc fun pp p v hp => ?_
  refine sftpFile_wp .state (SftpShows.lasting.and (SftpShows.lasting.and none_)) hp
    fun sp st v hs => ?_
  refine then_wp (ofExcept_wp (R := fun p' v' => v' = v ∧ sftpPrepare p = .ok p')
    fun p' hp' => ⟨rfl, hp'⟩) fun p' v' hp' => ?_
  obtain ⟨rfl, hprep⟩ := hp'
  refine then_wp (ofExcept_wp (R := fun st' v => v = v' ∧ sftpState st = .ok st')
    fun st' hst' => ⟨rfl, hst'⟩) fun st' v hst' => ?_
  obtain ⟨rfl, hstate⟩ := hst'
  refine then_wp (stop_wp (SftpShows.lasting.and (SftpShows.lasting.and
    (SftpShows.lasting.and none_))) hs) fun stop v hstop => ?_
  obtain ⟨hk, -, -, hs, hp, hc, -⟩ := hstop
  obtain ⟨shownP, -, code⟩ := hp.prepare hprep
  refine sample_trueOf hc.completion.1 shownP (hs.state hstate).1 code fun _ _ _ _ _ => ?_
  exact .inl (by simp [Machine.site, Machine.program, hk.dead rfl])

/-- A pane that is not live although the Run has a state record is dead. -/
theorem Known.vanished {s : Sample} {before : Bool} (h : Known t l false gone any w)
    (live : w.1.machine.live = false) (hs : s.TrueOf before false w.1.machine)
    (state : s.state.isSome) : Known t l false true any w :=
  { h with dead := fun _ => by simpa [Machine.live, hs.state state] using live }

theorem sshReconcile_wp (h : Ready t .ssh false False w) :
    sshReconcile.wp (observeOutline.contract t .ssh)
      (Returns fun r v => r.TrueOf v.1.machine) w := by
  have none_ : Lasting fun _ => True := fun _ _ _ _ => trivial
  refine then_wp (tmux_wp none_ ⟨h, trivial⟩) fun tmux v htmux => ?_
  refine then_wp (sshSample_wp htmux.1) fun s v hs => ?_
  obtain ⟨hk, hs⟩ := hs
  split
  · rename_i hcond
    simp only [Bool.and_eq_true, Bool.not_eq_true'] at hcond
    obtain ⟨⟨⟨hc, hp⟩, hrun⟩, hstate⟩ := hcond
    refine then_wp (tmux_wp Sample.TrueOf.lasting ⟨hk.toReady, hs⟩) fun tmux' v htmux' => ?_
    obtain ⟨hk', hlive, hs'⟩ := htmux'
    split
    · rename_i hrun'
      have hrun' : tmux'.running = false := by simpa using hrun'
      rw [hrun'] at hk' hlive
      refine then_wp (sshResample_wp (hk'.vanished hlive.symm hs' hstate)) fun s' v hs'' => ?_
      exact sshDecide_trueOf true (hrun' ▸ hs'') fun _ _ _ _ => rfl
    · rename_i hrun'
      have hrun' : tmux'.running = true := by simpa using hrun'
      exact sshDecide_trueOf false (hrun' ▸ hs'.live)
        fun hdead => absurd hdead (by simp [hrun'])
  · rename_i hcond
    refine sshDecide_trueOf false hs fun hrun hst hc hp => ?_
    exact absurd (by simp [hrun, hst, hc, hp]) hcond

/-! ## 7. The Node runtime -/

/-- What is known of a record that the Node has read: `{}` tells nothing. -/
def Loads (file : RecordFile) (value : JsonObject) (m : Machine) : Prop :=
  value = [] ∨ Published file value m

theorem Loads.lasting {file : RecordFile} {value : JsonObject} : Lasting (Loads file value) :=
  fun m m' hm h => h.imp_right (Published.lasting m m' hm)

theorem Loads.completion {value : JsonObject} {m : Machine} (h : Loads .completion value m) :
    (completionRecord value).isSome = true → RecordFile.completion.Evidence m := by
  intro hr
  rcases h with rfl | hp
  · exact nomatch hr
  · exact hp.evidence

theorem Loads.prepare {value : JsonObject} {m : Machine} {r : Option PrepareRecord}
    (h : Loads .prepareResult value m) (hr : prepareRecord value = .ok r) :
    (r.isSome = true → RecordFile.prepareResult.Evidence m) ∧
      ∀ p, r = some p → p.errorCode ≠ .str "git_session_lost" := by
  rcases h with rfl | hp
  · obtain rfl : none = r := Except.ok.inj hr
    exact ⟨nofun, nofun⟩
  · obtain ⟨p, hrecord, hcode⟩ := hp.prepare
    obtain rfl : some p = r := Except.ok.inj (hrecord.symm.trans hr)
    refine ⟨fun _ => hp.evidence, fun q hq => ?_⟩
    rw [← Option.some.inj hq]
    exact hcode

theorem Loads.state {value : JsonObject} {m : Machine} {r : Option StateRecord}
    (h : Loads .state value m) (hr : stateRecord value = .ok r) :
    r.isSome = true → RecordFile.state.Evidence m := by
  rcases h with rfl | hp
  · obtain rfl : none = r := Except.ok.inj hr
    exact nofun
  · exact fun _ => hp.evidence

theorem readJsonRecord_wp (file : RecordFile) (hG : Lasting G)
    (h : Known t l pane gone True w ∧ G w.1.machine) :
    (readJsonRecord file).wp (observeOutline.contract t l) (Returns fun value v =>
      Known t l pane gone True v ∧ Loads file value v.1.machine ∧ G v.1.machine) w := by
  refine then_wp (read_wp file hG h) fun content v hv => ?_
  obtain ⟨hk, hp, hg⟩ := hv
  have known : Known t l pane gone True v := hk.weaken fun _ => trivial
  cases content with
  | loaded value =>
    obtain ⟨fields, rfl, published⟩ := hp value rfl
    exact ⟨known, .inr published, hg⟩
  | raises message => trivial
  | _ => exact ⟨known, .inl rfl, hg⟩

/-- The first pass, under the lock: a pane that was not live stays so. -/
theorem nodeSample_wp (h : Known t .node pane false True w) :
    nodeSample.wp (observeOutline.contract t .node)
      (Returns fun s v => Known t .node pane false True v ∧ s.TrueOf pane false v.1.machine)
      w := by
  have none_ : Lasting fun _ => True := fun _ _ _ _ => trivial
  refine then_wp (exists_wp .completion none_ ⟨h, trivial⟩) fun cp v h1 => ?_
  refine then_wp (readJsonRecord_wp .completion (Gone.lasting.and none_) h1) fun c v h2 => ?_
  have l2 : Lasting fun m => Loads .completion c m ∧ Gone false .completion cp m ∧ True :=
    Loads.lasting.and (Gone.lasting.and none_)
  refine then_wp (exists_wp .prepareResult l2 h2) fun pp v h3 => ?_
  refine then_wp (readJsonRecord_wp .prepareResult (Gone.lasting.and l2) h3) fun p v h4 => ?_
  have l4 : Lasting fun m => Loads .prepareResult p m ∧ Gone false .prepareResult pp m ∧
      Loads .completion c m ∧ Gone false .completion cp m ∧ True :=
    Loads.lasting.and (Gone.lasting.and l2)
  refine then_wp (exists_wp .state l4 h4) fun sp v h5 => ?_
  refine then_wp (readJsonRecord_wp .state (Gone.lasting.and l4) h5) fun st v h6 => ?_
  refine then_wp (ofExcept_wp (R := fun p' v' => v' = v ∧ prepareRecord p = .ok p')
    fun p' hp' => ⟨rfl, hp'⟩) fun p' v' hp' => ?_
  obtain ⟨rfl, hprep⟩ := hp'
  refine then_wp (ofExcept_wp (R := fun st' v => v = v' ∧ stateRecord st = .ok st')
    fun st' hst' => ⟨rfl, hst'⟩) fun st' v hst' => ?_
  obtain ⟨rfl, hstate⟩ := hst'
  refine then_wp (stop_wp (Loads.lasting.and (Gone.lasting.and l4)) h6) fun stop v h7 => ?_
  obtain ⟨hk, hmarker, -, hs, hsg, hp, hpg, hc, hcg, -⟩ := h7
  obtain ⟨evidence, code⟩ := hp.prepare hprep
  refine ⟨hk, sample_trueOf ⟨hcg, hc.completion⟩ ⟨hpg, evidence⟩ ⟨hsg, hs.state hstate⟩ code
    fun hst hpane _ _ _ => ?_⟩
  rcases hk.still rfl hpane with habsent | hdead
  · exact .inr ⟨hmarker.trans hst, by simp [Machine.site, Machine.program, habsent]⟩
  · exact .inl (by simp [Machine.site, Machine.program, hdead])

theorem nodeResample_wp (h : Known t l false true True w) :
    nodeResample.wp (observeOutline.contract t l)
      (Returns fun s v => s.TrueOf false true v.1.machine) w := by
  have none_ : Lasting fun _ => True := fun _ _ _ _ => trivial
  refine then_wp (readJsonRecord_wp .completion none_ ⟨h, trivial⟩) fun c v h1 => ?_
  refine then_wp (readJsonRecord_wp .prepareResult (Loads.lasting.and none_) h1)
    fun p v h2 => ?_
  have loads : Lasting fun m => Loads .prepareResult p m ∧ Loads .completion c m ∧ True :=
    Loads.lasting.and (Loads.lasting.and none_)
  refine then_wp (readJsonRecord_wp .state loads h2) fun st v h3 => ?_
  refine then_wp (ofExcept_wp (R := fun p' v' => v' = v ∧ prepareRecord p = .ok p')
    fun p' hp' => ⟨rfl, hp'⟩) fun p' v' hp' => ?_
  obtain ⟨rfl, hprep⟩ := hp'
  refine then_wp (ofExcept_wp (R := fun st' v => v = v' ∧ stateRecord st = .ok st')
    fun st' hst' => ⟨rfl, hst'⟩) fun st' v hst' => ?_
  obtain ⟨rfl, hstate⟩ := hst'
  refine then_wp (stop_wp (Loads.lasting.and loads) h3) fun stop v h4 => ?_
  refine then_wp (exists_wp .completion (Loads.lasting.and loads) ⟨h4.1, h4.2.2.2⟩)
    fun cp v h5 => ?_
  refine then_wp (exists_wp .prepareResult (Gone.lasting.and (Loads.lasting.and loads)) h5)
    fun pp v h6 => ?_
  refine then_wp (exists_wp .state (Gone.lasting.and (Gone.lasting.and
    (Loads.lasting.and loads))) h6) fun sp v h7 => ?_
  obtain ⟨hk, hsg, hpg, hcg, hs, hp, hc, -⟩ := h7
  obtain ⟨evidence, code⟩ := hp.prepare hprep
  refine sample_trueOf ⟨hcg, hc.completion⟩ ⟨hpg, evidence⟩ ⟨hsg, hs.state hstate⟩ code
    fun _ _ _ _ _ => ?_
  exact .inl (by simp [Machine.site, Machine.program, hk.dead rfl])

theorem ReconcileResult.TrueOf.lasting (r : ReconcileResult) : Lasting r.TrueOf := by
  intro m m' hm h
  refine ⟨fun ht => hm.settled (h.settled ht), fun hl => ?_⟩
  obtain ⟨hd, hc, hp⟩ := h.lost hl
  obtain ⟨hd', hc', hp'⟩ := hm.dead hd
  exact ⟨hd', hc'.trans hc, hp'.trans hp⟩

theorem nodeReconcile_wp (h : Ready t .node false True w) :
    nodeReconcile.wp (observeOutline.contract t .node)
      (Returns fun r v => r.TrueOf v.1.machine) w := by
  have none_ : Lasting fun _ => True := fun _ _ _ _ => trivial
  refine then_wp (tmux_wp none_ ⟨h, trivial⟩) fun tmux v htmux => ?_
  refine then_wp (nodeSample_wp htmux.1) fun s v hs => ?_
  obtain ⟨hk, hs⟩ := hs
  -- the revision is read last, whatever was decided
  have revised : ∀ (r : ReconcileResult) (v : SeenWorld), r.TrueOf v.1.machine →
      (do
        let r ← (pure r : ObserveProg ReconcileResult)
        let revision ← reading .readRevision
        pure { r with sourceRevision := fullRevision revision }).wp
        (observeOutline.contract t .node) (Returns fun r v => r.TrueOf v.1.machine) v := by
    intro r v hr
    show Prog.wp _ (reading .readRevision >>= fun revision =>
      pure { r with sourceRevision := fullRevision revision }) _ v
    refine then_wp (reading_wp (o := .readRevision) (R := fun _ v => r.TrueOf v.1.machine)
      (fun _ _ _ hv => hv) ?_) fun revision v hv => ⟨hv.settled, hv.lost⟩
    intro a u hu _ _ _
    exact ReconcileResult.TrueOf.lasting r _ _ hu.later hr
  simp only [decide_eq]
  split
  · rename_i hcond
    simp only [Bool.and_eq_true, Bool.not_eq_true'] at hcond
    obtain ⟨⟨⟨hc, hp⟩, hrun⟩, hstate⟩ := hcond
    refine then_wp (tmux_wp Sample.TrueOf.lasting ⟨hk.toReady, hs⟩) fun tmux' v htmux' => ?_
    obtain ⟨hk', hlive, hs'⟩ := htmux'
    split
    · rename_i hrun'
      have hrun' : tmux'.running = false := by simpa using hrun'
      rw [hrun'] at hk' hlive
      refine then_wp (nodeResample_wp (hk'.vanished hlive.symm hs' hstate)) fun s' v hs'' => ?_
      exact revised _ _ (sshDecide_trueOf true (hrun' ▸ hs'') fun _ _ _ _ => rfl)
    · rename_i hrun'
      have hrun' : tmux'.running = true := by simpa using hrun'
      exact revised _ _ (sshDecide_trueOf false (hrun' ▸ hs'.live)
        fun hdead => absurd hdead (by simp [hrun']))
  · rename_i hcond
    refine revised _ _ (sshDecide_trueOf false hs fun hrun hst hc hp => ?_)
    exact absurd (by simp [hrun, hst, hc, hp]) hcond

theorem acquire_wp :
    @Prog.wp ObserveSig ObserveError Unit SeenWorld (observeOutline.contract t .node)
      (reading .acquire) (Returns fun _ v => Ready t .node false True v) w := by
  intro u hu hi a v ⟨⟨⟨hfree, hv⟩, hseen⟩, _⟩
  have hmachine : v.1.machine = u.1.machine := by rw [hv]
  refine ⟨⟨show v.1.machine.Wf by rw [hmachine]; exact hi, ?_, trivial⟩, ?_⟩
  · intro t' _ ht'
    have later : u.1.machine.Later v.1.machine := by rw [hmachine]; exact .refl _
    refine ⟨later, by rw [hseen, Function.update_of_ne ht'], ?_, ?_⟩
    · intro held
      rw [hfree] at held
      exact nomatch held
    · intro _ hr
      rw [hmachine]
      exact hr
  · exact ⟨fun _ => trivial, fun _ => by rw [hv], nofun⟩

theorem release_wp (hG : Lasting G) (h : G w.1.machine) :
    @Prog.wp ObserveSig ObserveError Unit SeenWorld (observeOutline.contract t .node)
      (reading .release) (Returns fun _ v => G v.1.machine) w := by
  intro u hu hi a v ⟨⟨⟨hheld, hv⟩, hseen⟩, _⟩
  have hmachine : v.1.machine = u.1.machine := by rw [hv]
  refine ⟨⟨show v.1.machine.Wf by rw [hmachine]; exact hi, ?_, trivial⟩, ?_⟩
  · intro t' _ ht'
    have later : u.1.machine.Later v.1.machine := by rw [hmachine]; exact .refl _
    refine ⟨later, by rw [hseen, Function.update_of_ne ht'], ?_, ?_⟩
    · intro held
      rw [hheld] at held
      exact absurd (Option.some.inj held).symm ht'
    · intro _ hr
      rw [hmachine]
      exact hr
  · show G v.1.machine
    rw [hmachine]
    exact hG _ _ hu.later h

theorem nodeObserve_wp :
    nodeObserve.wp (observeOutline.contract t .node)
      (Returns fun r v => r.TrueOf v.1.machine) w := by
  refine then_wp acquire_wp fun _ v hv => ?_
  refine then_wp (R := fun r v => ∀ r', r = .ok r' → r'.TrueOf v.1.machine) ?_ ?_
  · rw [Prog.wp_attempt]
    refine Prog.wp_mono (fun r v hr => ?_) (nodeReconcile_wp hv)
    intro r' hr'
    subst hr'
    exact hr
  · intro r v hr
    have lasting : Lasting fun m => ∀ r', r = .ok r' → r'.TrueOf m :=
      fun m m' hm h r' hr' => ReconcileResult.TrueOf.lasting r' m m' hm (h r' hr')
    exact then_wp (release_wp lasting hr) fun _ v hv => ofExcept_wp hv

end

/-! ## 8. Over runs -/

/-- The machine goes on by itself or under its controllers. -/
abbrev Machine.Goes (m m' : Machine) : Prop := m.Moves m' ∨ m.Controlled m'

abbrev Machine.Reaches : Machine → Machine → Prop := Relation.ReflTransGen Machine.Goes

theorem Machine.Reaches.later {m m' : Machine} (h : m.Reaches m') : m.Later m' := by
  induction h with
  | refl => exact .refl m
  | tail _ last ih => exact ih.trans (last.elim Moves.later Controlled.later)

/-- No observation has seen anything yet. -/
def unseen (m : Machine) : SeenWorld := (⟨m, none⟩, fun _ => ⟨false, false⟩)

theorem observe_proved {m : Machine} : observeOutline.Proved (unseen m) := by
  intro t l u v _ hrely hstart
  have hseen : v.2 t = ⟨false, false⟩ := by rw [hstart.2, hrely.seen]; rfl
  have post : ∀ (r : Except ObserveError ReconcileResult) (v' : SeenWorld),
      Returns (fun r v => r.TrueOf v.1.machine) r v' → observeOutline.post t l r v' := by
    intro r v' hr status hstatus
    subst hstatus
    exact hr
  cases l with
  | ssh =>
    refine Prog.wp_mono post (sshReconcile_wp ⟨fun hf => ?_, nofun, nofun⟩)
    rw [hseen] at hf
    exact nomatch hf
  | node => exact Prog.wp_mono post nodeObserve_wp

/-- **A terminal observation is true.** However launches, stops, the runner, the end of its
    pane and the reads of any number of observations interleave, as long as no observation
    over SSH that has seen neither a live pane nor a record finds the stop marker beside a
    program that runs: an observation that returns a terminal status returns it when the
    program does not run, and the program never runs afterwards; one that reports a lost
    runner returns when the pane is dead and no terminal record is there. -/
theorem observation_true {m₀ : Machine} (hm : m₀.Wf) {es : List (Event sightedSystem)}
    {p p' : Pool sightedSystem} (run : sightedSystem.Runs (unseen m₀) es p) {t : Nat}
    {l : Backend} {o : ObserveOp} {a : o.Ans} {r : ReconcileResult}
    (returns : Pool.Step sightedSystem p (.act t l o a) p')
    (returned : p'.threads[t]? = some ⟨l, .ret r⟩) :
    (r.state.terminal = true →
      ∀ m, p'.world.1.machine.Reaches m → m.program ≠ .running) ∧
    (r.state = .lost ∨ r.errorCode = .str "git_session_lost" →
      p'.world.1.machine.runner = .dead ∧ p'.world.1.machine.completion = none ∧
        p'.world.1.machine.prepare = none) := by
  have true_ : r.TrueOf p'.world.1.machine :=
    Outline.post_of_run observe_proved hm run returns returned (r := .ok r) rfl r rfl
  refine ⟨fun hterm m hreach => ?_, true_.lost⟩
  have hsettled : m.site.Settled := hreach.later.settled (true_.settled hterm)
  rcases hsettled with hended | ⟨-, hrunning⟩
  · exact fun hrunning => nomatch hended.symm.trans hrunning
  · exact hrunning

/-! ## 9. Two observations -/

def Machine.tmux (m : Machine) : TmuxStatus :=
  if m.runner = .absent then .missing else .pane (m.runner = .dead)

/-- Observations whose connection does not fail. -/
def observePlayer : Player observeSystem Unit where
  start := fun _ _ u => some u
  act := fun _ t _ o u =>
    match o with
    | .tmuxStatus => some (.ok u.machine.tmux, u)
    | .exists_ file => some (.ok (u.machine.record file).isSome, u)
    | .read file => some (u.machine.content file, u)
    | .stopExists => some (.ok u.machine.stop, u)
    | .readRevision => some (none, u)
    | .acquire => if u.lock = none then some ((), { u with lock := some t }) else none
    | .release => if u.lock = some t then some ((), { u with lock := none }) else none
  start_sound := fun h => (Option.some.inj h).symm
  act_sound := by
    intro c t l o u a v h
    cases o with
    | tmuxStatus =>
      cases h
      refine ⟨rfl, _, ?_, .inl rfl⟩
      simp only [Machine.tmux, Machine.live]
      split <;> simp_all [TmuxStatus.running]
    | exists_ file => cases h; exact ⟨rfl, .inl rfl⟩
    | read file => cases h; exact ⟨rfl, .inl rfl⟩
    | stopExists => cases h; exact ⟨rfl, .inl rfl⟩
    | readRevision => cases h; rfl
    | acquire =>
      obtain ⟨hfree, h⟩ := Option.ite_none_right_eq_some.mp h
      cases h
      exact ⟨hfree, rfl⟩
    | release =>
      obtain ⟨hheld, h⟩ := Option.ite_none_right_eq_some.mp h
      cases h
      exact ⟨hheld, rfl⟩

/-- The runner died when `running` was published. -/
def lostMachine : Machine where
  git := false
  runner := .dead
  stop := false
  state := some ⟨.running, ⟨"2024-01-01T00:00:00Z", by decide⟩⟩
  prepare := none
  completion := none

theorem lostMachine_wf : lostMachine.Wf := ⟨nofun, nofun, nofun, nofun⟩

/-- The answer does not show the stop marker. -/
def ObserveOp.unstopped : (o : ObserveOp) → o.Ans → Bool
  | .stopExists, .ok true => false
  | _, _ => true

/-- Such a Run is observed as lost, and stays so. -/
theorem observation_true_lost :
    ∃ p' : Pool sightedSystem, ∃ r, p'.threads[0]? = some ⟨.ssh, .ret r⟩ ∧ r.state = .lost ∧
      (∀ m, p'.world.1.machine.Reaches m → m.program ≠ .running) ∧
      p'.world.1.machine.runner = .dead ∧ p'.world.1.machine.completion = none ∧
        p'.world.1.machine.prepare = none := by
  let player : Player sightedSystem Unit := (observePlayer.instrument Seen.track).restrict
    (fun _ _ o a _ _ => o.unstopped a)
    (by
      intro t l o a u v h
      cases o with
      | stopExists =>
        cases l with
        | ssh =>
          cases a with
          | ok stop => cases stop <;> trivial
          | error e => trivial
        | node => trivial
      | _ => cases l <;> trivial)
  have played : ∃ p p' r,
      player.play (.init (unseen lostMachine))
        (.call .ssh :: List.replicate 15 (.act 0 ())) = some p ∧
      player.next p (.act 0 ()) = some p' ∧ (∃ o k, p.threads[0]? = some ⟨.ssh, .op o k⟩) ∧
      p'.threads[0]? = some ⟨.ssh, .ret r⟩ ∧ r.state = .lost :=
    ⟨_, _, _, rfl, rfl, ⟨_, _, rfl⟩, rfl, rfl⟩
  obtain ⟨p, p', r, hp, hp', ⟨o, k, here⟩, there, hlost⟩ := played
  obtain ⟨es, a, run, st⟩ := player.play_act hp here hp'
  have true_ := observation_true lostMachine_wf run st there
  exact ⟨p', r, there, hlost, true_.1 (by rw [hlost]; rfl), true_.2 (.inl hlost)⟩

/-- A Run that was created and not launched. -/
def createdMachine : Machine where
  git := false
  runner := .absent
  stop := false
  state := none
  prepare := none
  completion := none

/-- It is launched, its runner passes the check, and a stop publishes its marker too late. -/
def overtakenMachine : Machine := { createdMachine with runner := .passed, stop := true }

theorem createdMachine_overtaken : createdMachine.Reaches overtakenMachine := by
  have launch : Machine.Goes createdMachine { createdMachine with runner := .shell } :=
    .inr (.launch rfl)
  have respawn : Machine.Goes { createdMachine with runner := .shell }
      { createdMachine with runner := .checking } := .inl (.respawn rfl)
  have pass : Machine.Goes { createdMachine with runner := .checking }
      { createdMachine with runner := .passed } := .inl (.pass rfl rfl)
  have stop : Machine.Goes { createdMachine with runner := .passed } overtakenMachine :=
    .inr .publishStop
  exact .tail (.tail (.tail (.single launch) respawn) pass) stop

/-- While no observation holds the lock, the machine can go on between two reads. -/
theorem Machine.Reaches.run {m m' : Machine} (h : m.Reaches m') {p : Pool observeSystem}
    (here : p.world = ⟨m, none⟩) :
    ∃ es, Conc.Run (Pool.Step observeSystem) p es { p with world := ⟨m', none⟩ } := by
  induction h with
  | refl => exact ⟨[], by rw [← here]; exact .refl⟩
  | tail _ last ih =>
    obtain ⟨es, run⟩ := ih
    exact ⟨_, run.snoc (.env ⟨rfl, last.imp_right fun h => ⟨rfl, h⟩⟩)⟩

/-- **A Run is observed as stopped while it runs.** The observation finds no tmux session and
    no record; the Run is launched, its runner passes the check of the stop marker, and a stop
    publishes the marker; the observation reads the marker last, and returns `stopped`. -/
theorem stopped_while_running :
    ∃ es, ∃ p p' : Pool observeSystem, ∃ o a r,
      observeSystem.Runs ⟨createdMachine, none⟩ es p ∧
        Pool.Step observeSystem p (.act 0 .ssh o a) p' ∧
        p'.threads[0]? = some ⟨.ssh, .ret r⟩ ∧ r.state = .stopped ∧
        p'.world.machine.program = .running := by
  have played : ∃ p p' r,
      observePlayer.play (.init ⟨createdMachine, none⟩)
        (.call .ssh :: List.replicate 7 (.act 0 ())) = some p ∧ p.world = ⟨createdMachine, none⟩ ∧
      observePlayer.next { p with world := ⟨overtakenMachine, none⟩ } (.act 0 ()) = some p' ∧
      p'.threads[0]? = some ⟨.ssh, .ret r⟩ ∧ r.state = .stopped ∧
      p'.world = ⟨overtakenMachine, none⟩ ∧ ∃ o k, p.threads[0]? = some ⟨.ssh, .op o k⟩ :=
    ⟨_, _, _, rfl, rfl, rfl, rfl, rfl, rfl, _, _, rfl⟩
  obtain ⟨p, p', r, hp, hw, hp', there, hstopped, hw', o, k, here⟩ := played
  obtain ⟨es, run⟩ := observePlayer.play_sound hp
  obtain ⟨es', moved⟩ := createdMachine_overtaken.run hw
  obtain ⟨l, o', k', a, here', st⟩ := observePlayer.next_act hp'
  rw [here] at here'
  cases Option.some.inj here'
  exact ⟨es ++ es', _, p', o, a, r, run.append moved, st, there, hstopped, by rw [hw']; rfl⟩

end Termroom.RemoteRun
