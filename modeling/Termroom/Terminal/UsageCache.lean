import Mathlib
import Termroom.Data.Double
import Termroom.Data.Lru
import Termroom.Terminal.Usage

/-!
# The cache of what Workspaces use

What a Workspace uses is collected once for all who ask for it at the same time, and kept for a
few seconds. The event loop runs the calls and the collections in turns; no call waits for anything
while it holds the lock, so that what it does under the lock is one step.

Whatever the order of the steps is, who asks is told what was stored for the Workspace not too
long ago, or what was stored for it after he asked (`usage_service_sound`); no two collections for
a Workspace run at a time, and a view never shows a measurement that is not the last one.
-/

set_option autoImplicit false

namespace Termroom.Terminal.UsageCache

open Data

/-! ## 1. Views -/

inductive UsageState where
  | fresh
  | stale
  | unavailable
  | offline
  deriving DecidableEq, Repr

/-- The subclasses of `WorkspaceUsageCollectionError`. -/
inductive CollectionError where
  | unavailable (message code : String)
  | offline (message : String)
  | stale (message : String)
  deriving DecidableEq, Repr

def CollectionError.state : CollectionError → UsageState
  | unavailable _ _ => .unavailable
  | offline _ => .offline
  | stale _ => .stale

def CollectionError.code : CollectionError → String
  | unavailable _ code => code
  | offline _ => "remote_offline"
  | stale _ => "refresh_incomplete"

structure UsageSample where
  usage : RawWorkspaceUsage
  observedAt : Int
  deriving DecidableEq, Repr

structure UsageView where
  state : UsageState
  sample : Option UsageSample
  lastObservedAt : Option Int
  lastCheckedAt : Int
  reason : Option String
  deriving DecidableEq, Repr

structure CacheEntry where
  view : UsageView
  cachedAt : Double
  lastSample : Option UsageSample
  deriving DecidableEq

/-- `_failure_view`. -/
def failureView (error : CollectionError) (lastSample : Option UsageSample) (checkedAt : Int) :
    UsageView where
  state := if error.state = .stale ∧ lastSample = none then .unavailable else error.state
  sample := none
  lastObservedAt := lastSample.map UsageSample.observedAt
  lastCheckedAt := checkedAt
  reason := some error.code

def freshView (sample : UsageSample) : UsageView where
  state := .fresh
  sample := some sample
  lastObservedAt := some sample.observedAt
  lastCheckedAt := sample.observedAt
  reason := none

/-! ## 2. The service -/

/-- What `WorkspaceUsageService` is made with, and accepts. -/
structure Settings where
  freshSeconds : Double
  retrySeconds : Double
  maxEntries : Nat
  valid : 0 ≤ freshSeconds.value ∧ 0 ≤ retrySeconds.value ∧ 0 < maxEntries

/-- Five seconds. -/
def fiveSeconds : Double := .ofBits 5 0 (by decide)

def defaults : Settings := ⟨fiveSeconds, fiveSeconds, 256, by decide +kernel⟩

structure UsageService (κ : Type) where
  cache : List (κ × CacheEntry)
  /-- The collection of a Workspace that is under way. -/
  inflight : List (κ × Nat)

/-- What `observe` finds. -/
inductive Found where
  | cached (view : UsageView)
  | joined (task : Nat)
  | started

/-- How the collector of a Workspace ends. -/
inductive Outcome where
  | returned (raw : RawWorkspaceUsage)
  | failed (error : CollectionError)
  /-- Any other exception. -/
  | raised

section

variable {κ : Type} [DecidableEq κ] (settings : Settings)

/-- An entry answers a call. -/
def CacheEntry.current (now : Double) (entry : CacheEntry) : Bool :=
  let ttl := if entry.view.state = .fresh then settings.freshSeconds else settings.retrySeconds
  entry.view.state ≠ .offline && decide (now - entry.cachedAt ≤ ttl)

namespace UsageService

/-- `observe`, up to the collection that it waits for; `task` is the one it would create. -/
def observe (service : UsageService κ) (now : Double) (workspace : κ) (task : Nat) :
    Found × UsageService κ :=
  match (Lru.get service.cache workspace).filter (·.current settings now) with
  | some entry =>
    (.cached entry.view, { service with cache := Lru.touch service.cache workspace })
  | none =>
    match Lru.get service.inflight workspace with
    | some other => (.joined other, service)
    | none =>
      (.started, { service with inflight := Lru.put service.inflight workspace task })

/-- `_store`. -/
def store (service : UsageService κ) (now : Double) (workspace : κ) (view : UsageView)
    (lastSample : Option UsageSample) : UsageService κ :=
  { service with
    cache := Lru.trim settings.maxEntries
      (Lru.put service.cache workspace ⟨view, now, lastSample⟩) }

/-- What is known of the last measurement of a Workspace. -/
def lastSample (service : UsageService κ) (workspace : κ) : Option UsageSample :=
  (Lru.get service.cache workspace).bind CacheEntry.lastSample

/-- `record_failure`. -/
def recordFailure (service : UsageService κ) (now : Double) (checkedAt : Int) (workspace : κ)
    (error : CollectionError) : UsageView × UsageService κ :=
  let last := service.lastSample workspace
  let view := failureView error last checkedAt
  (view, service.store settings now workspace view last)

/-- The `finally` of `_collect`. -/
def release (service : UsageService κ) (workspace : κ) (task : Nat) : UsageService κ :=
  if Lru.get service.inflight workspace = some task then
    { service with inflight := Lru.remove service.inflight workspace }
  else service

/-- What `_collect` takes the outcome for. -/
def judge (observedAt : Int) : Outcome → Option (Except CollectionError UsageSample)
  | .returned raw => some <|
    match validateRawWorkspaceUsage raw with
    | .ok usage => .ok ⟨usage, observedAt⟩
    | .error e => .error (.unavailable e.message e.code)
  | .failed e => some (.error e)
  | .raised => none

/-- `_collect`, from where its collector has ended. -/
def collected (service : UsageService κ) (now : Double) (time : Int) (workspace : κ) (task : Nat)
    (outcome : Outcome) : Option UsageView × UsageService κ :=
  match judge time outcome with
  | some (.ok sample) =>
    (some (freshView sample),
      (service.store settings now workspace (freshView sample) (some sample)).release workspace
        task)
  | some (.error e) =>
    let (view, service) := service.recordFailure settings now time workspace e
    (some view, service.release workspace task)
  | none => (none, service.release workspace task)

end UsageService

end

/-! ## 3. The event loop -/

/-- What has been stored for a Workspace, and when. -/
structure Stored (κ : Type) where
  workspace : κ
  result : Except CollectionError UsageSample
  view : UsageView
  time : Double

/-- A call that waits for a collection; `since` is how much had been stored when it was made. -/
structure Waiter (κ : Type) where
  workspace : κ
  task : Nat
  since : Nat

/-- What a call was told; nothing, where the collector raised something else. -/
structure Reply (κ : Type) where
  workspace : κ
  since : Nat
  asked : Double
  view : Option UsageView

structure UsageWorld (κ : Type) where
  service : UsageService κ
  running : List (Nat × κ)
  waiting : List (Waiter κ × Double)
  created : Nat
  now : Double
  stored : List (Stored κ)
  replies : List (Reply κ)

section

variable {κ : Type} [DecidableEq κ] (settings : Settings)

def UsageWorld.init : UsageWorld κ := ⟨⟨[], []⟩, [], [], 0, .ofBits 0 0 (by decide), [], []⟩

/-- Those who wait for a collection are told how it ended. -/
def UsageWorld.answer (w : UsageWorld κ) (task : Nat) (view : Option UsageView) :
    UsageWorld κ :=
  { w with
    waiting := w.waiting.filter fun p => p.1.task ≠ task
    replies := w.replies ++ (w.waiting.filter fun p => p.1.task = task).map fun p =>
      ⟨p.1.workspace, p.1.since, p.2, view⟩ }

inductive Act (κ : Type) where
  | tick (time : Double)
  | observe (workspace : κ)
  | recordFailure (workspace : κ) (error : CollectionError) (checkedAt : Int)
  /-- The collector of a task ends. -/
  | finish (task : Nat) (outcome : Outcome) (time : Int)
  /-- A call is cancelled; the collection goes on. -/
  | cancel (index : Nat)

inductive Step (w : UsageWorld κ) : Act κ → UsageWorld κ → Prop
  | tick {time : Double} (forward : w.now ≤ time) : Step w (.tick time) { w with now := time }
  | cached {workspace : κ} {view : UsageView} {service : UsageService κ}
    (found : w.service.observe settings w.now workspace w.created = (.cached view, service)) :
    Step w (.observe workspace)
      { w with
        service
        replies := w.replies ++ [⟨workspace, w.stored.length, w.now, some view⟩] }
  | joined {workspace : κ} {task : Nat} {service : UsageService κ}
    (found : w.service.observe settings w.now workspace w.created = (.joined task, service)) :
    Step w (.observe workspace)
      { w with
        service
        waiting := w.waiting ++ [(⟨workspace, task, w.stored.length⟩, w.now)] }
  | started {workspace : κ} {service : UsageService κ}
    (found : w.service.observe settings w.now workspace w.created = (.started, service)) :
    Step w (.observe workspace)
      { w with
        service
        running := w.running ++ [(w.created, workspace)]
        created := w.created + 1
        waiting := w.waiting ++ [(⟨workspace, w.created, w.stored.length⟩, w.now)] }
  | recordFailure {workspace : κ} {error : CollectionError} {checkedAt : Int} {view : UsageView}
    {service : UsageService κ}
    (recorded : w.service.recordFailure settings w.now checkedAt workspace error =
      (view, service)) :
    Step w (.recordFailure workspace error checkedAt)
      { w with
        service
        stored := w.stored ++ [⟨workspace, .error error, view, w.now⟩] }
  | finish {workspace : κ} {task : Nat} {outcome : Outcome} {time : Int} {view : UsageView}
    {result : Except CollectionError UsageSample} {service : UsageService κ}
    (runs : (task, workspace) ∈ w.running)
    (judged : UsageService.judge time outcome = some result)
    (ended : w.service.collected settings w.now time workspace task outcome =
      (some view, service)) :
    Step w (.finish task outcome time)
      (UsageWorld.answer
        { w with
          service
          running := w.running.filter fun p => p.1 ≠ task
          stored := w.stored ++ [⟨workspace, result, view, w.now⟩] } task (some view))
  | raised {workspace : κ} {task : Nat} {outcome : Outcome} {time : Int}
    {service : UsageService κ} (runs : (task, workspace) ∈ w.running)
    (ended : w.service.collected settings w.now time workspace task outcome = (none, service)) :
    Step w (.finish task outcome time)
      (UsageWorld.answer
        { w with
          service
          running := w.running.filter fun p => p.1 ≠ task } task none)
  | cancel {index : Nat} : Step w (.cancel index) { w with waiting := w.waiting.eraseIdx index }

/-- The states of the service, in any order of the steps. -/
inductive Run : UsageWorld κ → Prop
  | init : Run .init
  | step {w v : UsageWorld κ} {act : Act κ} : Run w → Step settings w act v → Run v

end

/-! ## 4. What a service may say -/

section

variable {κ : Type} [DecidableEq κ] (settings : Settings)

/-- The last measurement of a Workspace that was stored. -/
def latest (stored : List (Stored κ)) (workspace : κ) : Option UsageSample :=
  (stored.filterMap fun s => if s.workspace = workspace then s.result.toOption else none).getLast?

/-- What was stored last for its Workspace. -/
def Last (stored : List (Stored κ)) (s : Stored κ) : Prop :=
  ∃ before after, stored = before ++ s :: after ∧ ∀ o ∈ after, o.workspace ≠ s.workspace

/-- A view shows a measurement that was just made and is valid; or none, why there is none, and
    at most when the last one was made. -/
def Truthful (before : List (Stored κ)) (s : Stored κ) : Prop :=
  match s.result with
  | .ok sample => s.view = freshView sample ∧ sample.usage.Valid
  | .error e => s.view.sample = none ∧ s.view.reason = some e.code ∧
      (s.view.state = e.state ∨ s.view.state = .unavailable ∧ e.state = .stale) ∧
      (s.view.state = .stale → s.view.lastObservedAt ≠ none) ∧
      ∀ time, s.view.lastObservedAt = some time →
        ∃ sample, latest before s.workspace = some sample ∧ sample.observedAt = time

/-- A reply shows what was stored after the call was made, or what had been stored last, if that
    is not too long ago and the Workspace was not offline. -/
def Answered (stored : List (Stored κ)) (reply : Reply κ) : Prop :=
  ∀ view, reply.view = some view → ∃ s : Stored κ, s.view = view ∧ s.workspace = reply.workspace ∧
    (s ∈ stored.drop reply.since ∨
      Last (stored.take reply.since) s ∧ view.state ≠ .offline ∧ reply.asked - s.time ≤
        if view.state = .fresh then settings.freshSeconds else settings.retrySeconds)

/-- What holds of the service in every state. -/
structure Sound (w : UsageWorld κ) : Prop where
  bounded : w.service.cache.length ≤ settings.maxEntries
  distinct : Lru.Distinct w.service.cache
  recent : ∀ before s, w.stored = before ++ [s] →
    ∃ entry, (s.workspace, entry) ∈ w.service.cache ∧ entry.view = s.view
  one : (w.running.map Prod.snd).Nodup
  waits : ∀ p ∈ w.waiting, (p.1.task, p.1.workspace) ∈ w.running
  truthful : ∀ before s after, w.stored = before ++ s :: after → Truthful before s
  answered : ∀ reply ∈ w.replies, Answered settings w.stored reply

/-- An entry shows what was stored last for its Workspace. -/
structure Shows (stored : List (Stored κ)) (workspace : κ) (entry : CacheEntry) : Prop where
  last : ∃ s, Last stored s ∧ s.workspace = workspace ∧ s.view = entry.view ∧
    s.time = entry.cachedAt
  sample : ∀ sample, entry.lastSample = some sample → latest stored workspace = some sample

/-- A cache that shows what is stored. -/
structure Caches (stored : List (Stored κ)) (cache : List (κ × CacheEntry)) : Prop where
  bounded : cache.length ≤ settings.maxEntries
  distinct : Lru.Distinct cache
  recent : ∀ before s, stored = before ++ [s] →
    ∃ entry, (s.workspace, entry) ∈ cache ∧ entry.view = s.view
  entries : ∀ workspace entry, (workspace, entry) ∈ cache → Shows stored workspace entry

/-- What the steps keep. -/
structure Ok (w : UsageWorld κ) : Prop where
  cached : Caches settings w.stored w.service.cache
  single : Lru.Distinct w.service.inflight
  tasks : (w.running.map Prod.fst).Nodup
  old : ∀ p ∈ w.running, p.1 < w.created
  underway : ∀ task workspace, (workspace, task) ∈ w.service.inflight ↔
    (task, workspace) ∈ w.running
  waits : ∀ p ∈ w.waiting, (p.1.task, p.1.workspace) ∈ w.running ∧ p.1.since ≤ w.stored.length
  truthful : ∀ before s after, w.stored = before ++ s :: after → Truthful before s
  answered : ∀ reply ∈ w.replies, reply.since ≤ w.stored.length ∧
    Answered settings w.stored reply

end

/-! ## 5. What is stored -/

section

variable {κ : Type} {settings : Settings} {stored more : List (Stored κ)} {s : Stored κ}
  {reply : Reply κ}

theorem Last.append_self : Last (stored ++ [s]) s := ⟨stored, [], rfl, by simp⟩

theorem Last.append_other {o : Stored κ} (h : Last stored o) (apart : s.workspace ≠ o.workspace) :
    Last (stored ++ [s]) o := by
  obtain ⟨before, after, rfl, later⟩ := h
  refine ⟨before, after ++ [s], by simp, ?_⟩
  intro x hx
  rcases List.mem_append.mp hx with hx | hx
  · exact later x hx
  · rw [List.mem_singleton.mp hx]
    exact apart

theorem Answered.append (hsince : reply.since ≤ stored.length)
    (h : Answered settings stored reply) : Answered settings (stored ++ more) reply := by
  intro view hview
  obtain ⟨s, hs, hworkspace, hwhere⟩ := h view hview
  refine ⟨s, hs, hworkspace, hwhere.imp ?_ ?_⟩
  · intro hmem
    rw [List.drop_append_of_le_length hsince]
    exact List.mem_append_left _ hmem
  · intro hlast
    rw [List.take_append_of_le_length hsince]
    exact hlast

end

section

variable {κ : Type} [DecidableEq κ] {settings : Settings} {stored : List (Stored κ)}
  {s : Stored κ} {workspace : κ} {sample : UsageSample} {entry : CacheEntry}
  {service : UsageService κ} {now : Double} {time : Int} {task : Nat} {error : CollectionError}

theorem latest_other (h : s.workspace ≠ workspace) :
    latest (stored ++ [s]) workspace = latest stored workspace := by
  unfold latest
  rw [List.filterMap_append, List.filterMap_cons, if_neg h]
  simp

theorem latest_error {e : CollectionError} (h : s.result = .error e) :
    latest (stored ++ [s]) workspace = latest stored workspace := by
  unfold latest
  rw [List.filterMap_append, List.filterMap_cons, h]
  simp [Except.toOption]

theorem latest_ok (hs : s.workspace = workspace) (h : s.result = .ok sample) :
    latest (stored ++ [s]) workspace = some sample := by
  unfold latest
  rw [List.filterMap_append, List.filterMap_cons, if_pos hs, h]
  simp [Except.toOption]

theorem Shows.append_other (h : Shows stored workspace entry) (apart : s.workspace ≠ workspace) :
    Shows (stored ++ [s]) workspace entry := by
  obtain ⟨o, last, rfl, hview, htime⟩ := h.last
  refine ⟨⟨o, last.append_other apart, rfl, hview, htime⟩, fun sample hsample => ?_⟩
  rw [latest_other apart]
  exact h.sample sample hsample

/-- One more thing is stored, and it is true. -/
theorem truthful_append
    (h : ∀ before x after, stored = before ++ x :: after → Truthful before x)
    (hs : Truthful stored s) :
    ∀ before x after, stored ++ [s] = before ++ x :: after → Truthful before x := by
  intro before x after heq
  induction after using List.reverseRecOn with
  | nil =>
    obtain ⟨rfl, rfl⟩ := List.append_singleton_inj.mp heq
    exact hs
  | append_singleton after last =>
    rw [← List.cons_append, ← List.append_assoc] at heq
    obtain ⟨heq, -⟩ := List.append_singleton_inj.mp heq
    exact h before x after heq

theorem lastSample_latest
    (entries : ∀ workspace entry, (workspace, entry) ∈ service.cache →
      Shows stored workspace entry)
    (h : service.lastSample workspace = some sample) : latest stored workspace = some sample := by
  unfold UsageService.lastSample at h
  obtain ⟨entry, hget, hsample⟩ := Option.bind_eq_some_iff.mp h
  exact (entries workspace entry (Lru.get_mem hget)).sample sample hsample

/-- The view of a failure says no more than what is known. -/
theorem failureView_truthful {last : Option UsageSample}
    (known : ∀ sample, last = some sample → latest stored workspace = some sample) :
    Truthful stored ⟨workspace, .error error, failureView error last time, now⟩ := by
  refine ⟨rfl, rfl, ?_, ?_, ?_⟩
  · unfold failureView
    dsimp only
    split_ifs with h
    · exact .inr ⟨rfl, h.1⟩
    · exact .inl rfl
  · intro hstale hnone
    have hlast : last = none := Option.map_eq_none_iff.mp hnone
    unfold failureView at hstale
    dsimp only at hstale
    split_ifs at hstale with h
    exact h ⟨hstale, hlast⟩
  · intro at_ hat
    obtain ⟨sample, hsample, rfl⟩ := Option.map_eq_some_iff.mp hat
    exact ⟨sample, known sample hsample, rfl⟩

theorem freshView_truthful (valid : sample.usage.Valid) :
    Truthful stored ⟨workspace, .ok sample, freshView sample, now⟩ := ⟨rfl, valid⟩

/-! ## 6. What the operations do -/

theorem Caches.store {view : UsageView} {result : Except CollectionError UsageSample}
    {last : Option UsageSample}
    (h : Caches settings stored service.cache)
    (known : ∀ sample, last = some sample →
      latest (stored ++ [⟨workspace, result, view, now⟩]) workspace = some sample) :
    Caches settings (stored ++ [⟨workspace, result, view, now⟩])
      (service.store settings now workspace view last).cache where
  bounded := Lru.length_trim
  distinct := h.distinct.put.trim
  recent := by
    intro before s heq
    obtain ⟨-, rfl⟩ := List.append_singleton_inj.mp heq
    exact ⟨_, Lru.mem_trim_put settings.valid.2.2, rfl⟩
  entries := by
    intro other entry hmem
    rcases Lru.mem_put (Lru.mem_trim hmem) with heq | ⟨hold, apart⟩
    · obtain ⟨rfl, rfl⟩ := Prod.mk.inj heq
      exact ⟨⟨_, .append_self, rfl, rfl, rfl⟩, known⟩
    · exact (h.entries other entry hold).append_other (Ne.symm apart)

/-- `observe` answers from the cache, or joins the collection under way, or starts one. -/
theorem observe_cases {found : Found} {after : UsageService κ}
    (h : service.observe settings now workspace task = (found, after)) :
    (∃ entry, (workspace, entry) ∈ service.cache ∧ entry.current settings now = true ∧
      found = .cached entry.view ∧
      after = { service with cache := Lru.touch service.cache workspace }) ∨
    (∃ other, (workspace, other) ∈ service.inflight ∧ found = .joined other ∧ after = service) ∨
    ((∀ p ∈ service.inflight, p.1 ≠ workspace) ∧ found = .started ∧
      after = { service with inflight := Lru.put service.inflight workspace task }) := by
  unfold UsageService.observe at h
  split at h
  · rename_i entry hentry
    obtain ⟨hget, hcurrent⟩ := Option.filter_eq_some_iff.mp hentry
    obtain ⟨rfl, rfl⟩ := Prod.mk.inj h
    exact .inl ⟨entry, Lru.get_mem hget, hcurrent, rfl, rfl⟩
  · split at h
    · rename_i other hother
      obtain ⟨rfl, rfl⟩ := Prod.mk.inj h
      exact .inr (.inl ⟨other, Lru.get_mem hother, rfl, rfl⟩)
    · rename_i hnone
      obtain ⟨rfl, rfl⟩ := Prod.mk.inj h
      exact .inr (.inr ⟨Lru.get_none hnone, rfl, rfl⟩)

theorem release_inflight (single : Lru.Distinct service.inflight)
    (h : (workspace, task) ∈ service.inflight) :
    service.release workspace task =
      { service with inflight := Lru.remove service.inflight workspace } :=
  if_pos (Lru.get_of_mem single h)

/-- What a collection leaves that ends: its view is stored, and it is under way no longer. -/
theorem collected_cases {outcome : Outcome} {view : Option UsageView} {after : UsageService κ}
    (cached : Caches settings stored service.cache) (single : Lru.Distinct service.inflight)
    (inflight : (workspace, task) ∈ service.inflight)
    (h : service.collected settings now time workspace task outcome = (view, after)) :
    after.inflight = Lru.remove service.inflight workspace ∧
    (view = none → after.cache = service.cache) ∧
    ∀ shown result, view = some shown → UsageService.judge time outcome = some result →
      Caches settings (stored ++ [⟨workspace, result, shown, now⟩]) after.cache ∧
      Truthful stored ⟨workspace, result, shown, now⟩ := by
  have valid : ∀ sample, UsageService.judge time outcome = some (.ok sample) →
      sample.usage.Valid := by
    intro sample hjudge
    cases outcome with
    | returned raw =>
      unfold UsageService.judge validateRawWorkspaceUsage at hjudge
      dsimp only at hjudge
      by_cases hvalid : raw.Valid
      · rw [if_pos hvalid] at hjudge
        obtain rfl := Except.ok.inj (Option.some.inj hjudge)
        exact hvalid
      · rw [if_neg hvalid] at hjudge
        cases Option.some.inj hjudge
    | failed e => cases Option.some.inj hjudge
    | raised => cases hjudge
  unfold UsageService.collected at h
  split at h
  · rename_i sample hjudge
    obtain ⟨rfl, rfl⟩ := Prod.mk.inj h
    have hrelease := @release_inflight κ _ workspace
      (service.store settings now workspace (freshView sample) (some sample)) task single inflight
    rw [hrelease]
    refine ⟨rfl, fun hnone => absurd hnone (Option.some_ne_none _), ?_⟩
    intro shown result hshown hresult
    obtain rfl := Option.some.inj hshown
    obtain rfl := Option.some.inj (hjudge.symm.trans hresult)
    refine ⟨cached.store ?_, freshView_truthful (valid sample hjudge)⟩
    intro other hother
    obtain rfl := Option.some.inj hother
    exact latest_ok rfl rfl
  · rename_i e hjudge
    obtain ⟨rfl, rfl⟩ := Prod.mk.inj h
    have known : ∀ sample, service.lastSample workspace = some sample →
        latest stored workspace = some sample := fun sample => lastSample_latest cached.entries
    have hrelease := @release_inflight κ _ workspace
      (service.store settings now workspace (failureView e (service.lastSample workspace) time)
        (service.lastSample workspace)) task single inflight
    rw [hrelease]
    refine ⟨rfl, fun hnone => absurd hnone (Option.some_ne_none _), ?_⟩
    intro shown result hshown hresult
    obtain rfl := Option.some.inj hshown
    obtain rfl := Option.some.inj (hjudge.symm.trans hresult)
    refine ⟨cached.store ?_, failureView_truthful known⟩
    intro sample hsample
    rw [latest_error rfl]
    exact known sample hsample
  · rename_i hjudge
    obtain ⟨rfl, rfl⟩ := Prod.mk.inj h
    rw [release_inflight single inflight]
    refine ⟨rfl, fun _ => rfl, ?_⟩
    intro shown result hshown
    cases hshown

end

/-! ## 7. The service is sound -/

section

variable {κ : Type} [DecidableEq κ] {settings : Settings} {w v : UsageWorld κ} {act : Act κ}

theorem init_ok : Ok settings (.init : UsageWorld κ) where
  cached := ⟨Nat.zero_le _, List.nodup_nil, fun _ _ h => absurd h (by simp [UsageWorld.init]),
    fun _ _ h => absurd h List.not_mem_nil⟩
  single := List.nodup_nil
  tasks := List.nodup_nil
  old := fun _ h => absurd h List.not_mem_nil
  underway := fun _ _ => ⟨fun h => absurd h List.not_mem_nil, fun h => absurd h List.not_mem_nil⟩
  waits := fun _ h => absurd h List.not_mem_nil
  truthful := fun before _ _ h => absurd h (by simp [UsageWorld.init])
  answered := fun _ h => absurd h List.not_mem_nil

/-- A task is only that of one Workspace. -/
theorem Ok.same (ok : Ok settings w) {task : Nat} {workspace other : κ}
    (h : (task, workspace) ∈ w.running) (h' : (task, other) ∈ w.running) : workspace = other :=
  (Prod.mk.inj (List.inj_on_of_nodup_map ok.tasks h h' rfl)).2

/-- What is under way when a task has ended. -/
theorem Ok.underway_finish (ok : Ok settings w) {task : Nat} {workspace : κ}
    (runs : (task, workspace) ∈ w.running) (id : Nat) (other : κ) :
    (other, id) ∈ Lru.remove w.service.inflight workspace ↔
      (id, other) ∈ w.running.filter fun p => p.1 ≠ task := by
  rw [Lru.mem_remove, List.mem_filter, decide_eq_true_eq, ok.underway]
  constructor
  · rintro ⟨hruns, apart⟩
    refine ⟨hruns, fun heq => apart ?_⟩
    dsimp only at heq
    rw [heq] at hruns
    exact ok.same hruns runs
  · rintro ⟨hruns, apart⟩
    refine ⟨hruns, fun heq => apart ?_⟩
    dsimp only at heq
    rw [heq] at hruns
    have hself := (ok.underway task workspace).mpr runs
    have hother := (ok.underway id workspace).mpr hruns
    exact (Prod.mk.inj (List.inj_on_of_nodup_map ok.single hother hself rfl)).2

/-- Who waited for a task that has ended waits no longer, and the others wait as before. -/
theorem Ok.waits_finish (ok : Ok settings w) (task : Nat) (more : List (Stored κ)) :
    ∀ p ∈ w.waiting.filter fun p => p.1.task ≠ task,
      (p.1.task, p.1.workspace) ∈ w.running.filter (fun q => q.1 ≠ task) ∧
        p.1.since ≤ (w.stored ++ more).length := by
  intro p hp
  obtain ⟨hwaits, apart⟩ := List.mem_filter.mp hp
  obtain ⟨runs, since⟩ := ok.waits p hwaits
  refine ⟨List.mem_filter.mpr ⟨runs, apart⟩, ?_⟩
  rw [List.length_append]
  omega

/-- The replies that were given, and those of a task that has ended. -/
theorem Ok.answered_finish (ok : Ok settings w) {task : Nat} {workspace : κ}
    (runs : (task, workspace) ∈ w.running) {more : List (Stored κ)} {view : Option UsageView}
    (told : ∀ shown, view = some shown → ∃ s ∈ more, s.view = shown ∧ s.workspace = workspace) :
    ∀ reply ∈ w.replies ++ (w.waiting.filter fun p => p.1.task = task).map fun p =>
        (⟨p.1.workspace, p.1.since, p.2, view⟩ : Reply κ),
      reply.since ≤ (w.stored ++ more).length ∧ Answered settings (w.stored ++ more) reply := by
  intro reply hreply
  rcases List.mem_append.mp hreply with hold | hnew
  · obtain ⟨since, answered⟩ := ok.answered reply hold
    refine ⟨?_, answered.append since⟩
    rw [List.length_append]
    omega
  · obtain ⟨p, hp, rfl⟩ := List.mem_map.mp hnew
    obtain ⟨hwaits, htask⟩ := List.mem_filter.mp hp
    obtain ⟨hruns, since⟩ := ok.waits p hwaits
    obtain rfl : p.1.task = task := of_decide_eq_true htask
    refine ⟨?_, ?_⟩
    · rw [List.length_append]
      dsimp only
      omega
    · intro shown hshown
      obtain ⟨s, hs, hview, hworkspace⟩ := told shown hshown
      refine ⟨s, hview, hworkspace.trans (ok.same runs hruns), .inl ?_⟩
      rw [List.drop_append_of_le_length since]
      exact List.mem_append_right _ hs

theorem Step.ok (h : Step settings w act v) (ok : Ok settings w) : Ok settings v := by
  cases h with
  | tick forward =>
    exact ⟨ok.cached, ok.single, ok.tasks, ok.old, ok.underway, ok.waits, ok.truthful, ok.answered⟩
  | cached found =>
    rename_i workspace view service
    obtain ⟨entry, hmem, hcurrent, hview, rfl⟩ | ⟨_, _, hfound, _⟩ | ⟨_, hfound, _⟩ :=
      observe_cases found
    · obtain rfl := Found.cached.inj hview
      have cached : Caches settings w.stored (Lru.touch w.service.cache workspace) :=
        ⟨Lru.touch_perm.length_eq.le.trans ok.cached.bounded, ok.cached.distinct.touch,
          fun before s heq => (ok.cached.recent before s heq).imp fun _ h =>
            ⟨Lru.touch_perm.mem_iff.mpr h.1, h.2⟩,
          fun other e he => ok.cached.entries other e (Lru.touch_perm.mem_iff.mp he)⟩
      refine ⟨cached, ok.single, ok.tasks, ok.old, ok.underway, ok.waits, ok.truthful, ?_⟩
      intro reply hreply
      rcases List.mem_append.mp hreply with hold | hnew
      · exact ok.answered reply hold
      obtain rfl := List.mem_singleton.mp hnew
      refine ⟨Nat.le_refl _, fun shown hshown => ?_⟩
      obtain rfl := Option.some.inj hshown
      obtain ⟨s, last, hworkspace, hview, htime⟩ := (ok.cached.entries _ _ hmem).last
      unfold CacheEntry.current at hcurrent
      simp only [Bool.and_eq_true, decide_eq_true_eq] at hcurrent
      refine ⟨s, hview, hworkspace, .inr ⟨?_, hcurrent.1, ?_⟩⟩
      · rw [List.take_length]
        exact last
      · rw [htime]
        exact hcurrent.2
    · cases hfound
    · cases hfound
  | joined found =>
    rename_i workspace task service
    obtain ⟨_, _, _, hfound, _⟩ | ⟨other, hmem, hfound, rfl⟩ | ⟨_, hfound, _⟩ :=
      observe_cases found
    · cases hfound
    · obtain rfl := Found.joined.inj hfound
      refine ⟨ok.cached, ok.single, ok.tasks, ok.old, ok.underway, ?_, ok.truthful, ok.answered⟩
      intro p hp
      rcases List.mem_append.mp hp with hold | hnew
      · exact ok.waits p hold
      · obtain rfl := List.mem_singleton.mp hnew
        exact ⟨(ok.underway _ _).mp hmem, Nat.le_refl _⟩
    · cases hfound
  | started found =>
    rename_i workspace service
    obtain ⟨_, _, _, hfound, _⟩ | ⟨_, _, hfound, _⟩ | ⟨idle, hfound, rfl⟩ := observe_cases found
    · cases hfound
    · cases hfound
    · have hnew : ∀ p ∈ w.running, p.1 ≠ w.created := fun p hp => (ok.old p hp).ne
      refine ⟨ok.cached, ok.single.put, ?_, ?_, ?_, ?_, ok.truthful, ok.answered⟩
      · rw [List.map_append, List.map_singleton, List.nodup_append]
        refine ⟨ok.tasks, List.nodup_singleton _, ?_⟩
        intro a ha b hb heq
        obtain ⟨p, hp, rfl⟩ := List.mem_map.mp ha
        exact hnew p hp (heq.trans (List.mem_singleton.mp hb))
      · intro p hp
        rcases List.mem_append.mp hp with hold | hlast
        · exact (ok.old p hold).trans (Nat.lt_succ_self _)
        · obtain rfl := List.mem_singleton.mp hlast
          exact Nat.lt_succ_self _
      · intro task other
        unfold Lru.put
        rw [List.mem_append, List.mem_append, Lru.mem_remove, ok.underway, List.mem_singleton,
          List.mem_singleton, Prod.mk.injEq, Prod.mk.injEq]
        constructor
        · rintro (⟨hruns, -⟩ | ⟨rfl, rfl⟩)
          · exact .inl hruns
          · exact .inr ⟨rfl, rfl⟩
        · rintro (hruns | ⟨rfl, rfl⟩)
          · exact .inl ⟨hruns, idle _ ((ok.underway _ _).mpr hruns)⟩
          · exact .inr ⟨rfl, rfl⟩
      · intro p hp
        rcases List.mem_append.mp hp with hold | hlast
        · exact (ok.waits p hold).imp (List.mem_append_left _) id
        · obtain rfl := List.mem_singleton.mp hlast
          exact ⟨List.mem_append_right _ List.mem_cons_self, Nat.le_refl _⟩
  | recordFailure recorded =>
    rename_i workspace error checkedAt view service
    obtain ⟨rfl, rfl⟩ := Prod.mk.inj recorded
    have known : ∀ sample, w.service.lastSample workspace = some sample →
        latest w.stored workspace = some sample :=
      fun sample => lastSample_latest ok.cached.entries
    refine ⟨ok.cached.store ?_, ok.single, ok.tasks, ok.old, ok.underway, ?_,
      truthful_append ok.truthful (failureView_truthful known), ?_⟩
    · intro sample hsample
      rw [latest_error rfl]
      exact known sample hsample
    · intro p hp
      refine (ok.waits p hp).imp id fun since => since.trans ?_
      rw [List.length_append]
      omega
    · intro reply hreply
      obtain ⟨since, answered⟩ := ok.answered reply hreply
      refine ⟨since.trans ?_, answered.append since⟩
      rw [List.length_append]
      omega
  | finish runs judged ended =>
    rename_i workspace task outcome time view result service
    obtain ⟨hinflight, -, hstored⟩ := collected_cases ok.cached ok.single
      ((ok.underway _ _).mpr runs) ended
    obtain ⟨cached, true_⟩ := hstored view result rfl judged
    refine ⟨cached, ?_, ?_, ?_, ?_, ok.waits_finish task _, truthful_append ok.truthful true_,
      ok.answered_finish runs ?_⟩
    · have : service.inflight = _ := hinflight
      exact this ▸ ok.single.remove
    · exact ok.tasks.sublist (List.filter_sublist.map _)
    · intro p hp
      exact ok.old p (List.mem_of_mem_filter hp)
    · intro id other
      exact hinflight ▸ ok.underway_finish runs id other
    · intro shown hshown
      obtain rfl := Option.some.inj hshown
      exact ⟨_, List.mem_cons_self, rfl, rfl⟩
  | raised runs ended =>
    rename_i workspace task outcome time service
    obtain ⟨hinflight, hcache, -⟩ := collected_cases ok.cached ok.single
      ((ok.underway _ _).mpr runs) ended
    have hwaits := ok.waits_finish task []
    have hanswered := @Ok.answered_finish _ _ _ _ ok task workspace runs [] none
      fun shown hshown => absurd hshown (Option.some_ne_none _).symm
    rw [List.append_nil] at hwaits hanswered
    refine ⟨?_, ?_, ?_, ?_, ?_, hwaits, ok.truthful, hanswered⟩
    · have : service.cache = _ := hcache rfl
      exact this ▸ ok.cached
    · have : service.inflight = _ := hinflight
      exact this ▸ ok.single.remove
    · exact ok.tasks.sublist (List.filter_sublist.map _)
    · intro p hp
      exact ok.old p (List.mem_of_mem_filter hp)
    · intro id other
      exact hinflight ▸ ok.underway_finish runs id other
  | cancel =>
    refine ⟨ok.cached, ok.single, ok.tasks, ok.old, ok.underway, ?_, ok.truthful, ok.answered⟩
    intro p hp
    exact ok.waits p (List.mem_of_mem_eraseIdx hp)

theorem Run.ok (run : Run settings w) : Ok settings w := by
  induction run with
  | init => exact init_ok
  | step _ h ih => exact h.ok ih

theorem Ok.one (ok : Ok settings w) : (w.running.map Prod.snd).Nodup := by
  apply List.Nodup.map_on ?_ (List.Nodup.of_map _ ok.tasks)
  intro p hp q hq heq
  have hself := (ok.underway p.1 p.2).mpr hp
  have hother := (ok.underway q.1 q.2).mpr hq
  have := List.inj_on_of_nodup_map ok.single hself hother heq
  exact Prod.ext (Prod.mk.inj this).2 heq

/-- **The service is sound.** Whatever the order of the steps is: the cache keeps to its bound,
    with one entry for a Workspace, and what was stored last is in it; one collection for a
    Workspace runs at a time, and who waits, waits for one that runs; what is stored shows a valid
    measurement, or none; and every reply shows what was stored for its Workspace after the call
    was made, or what had been stored last before, if that is not too long ago. -/
theorem usage_service_sound (settings : Settings) (w : UsageWorld κ) (run : Run settings w) :
    Sound settings w :=
  have ok := run.ok
  ⟨ok.cached.bounded, ok.cached.distinct, ok.cached.recent, ok.one,
    fun p hp => (ok.waits p hp).1, ok.truthful, fun reply hreply => (ok.answered reply hreply).2⟩

/-- A collection whose measurement is valid. -/
theorem usage_service_sound_measured :
    ∃ w : UsageWorld Nat, Run defaults w ∧ w.replies.length = 1 ∧ Sound defaults w := by
  have started : Step defaults .init (.observe 7) _ := .started rfl
  have valid : validateRawWorkspaceUsage ⟨1, 4096, 1⟩ = .ok ⟨1, 4096, 1⟩ := if_pos (by decide)
  have judged : UsageService.judge 60 (.returned ⟨1, 4096, 1⟩) = some (.ok ⟨⟨1, 4096, 1⟩, 60⟩) := by
    unfold UsageService.judge
    dsimp only
    rw [valid]
  have run := Run.init.step started
  have finished := Run.step run (.finish List.mem_cons_self judged (Prod.ext ?_ rfl))
  · exact ⟨_, finished, rfl, usage_service_sound defaults _ finished⟩
  · unfold UsageService.collected
    rw [judged]

end

end Termroom.Terminal.UsageCache
