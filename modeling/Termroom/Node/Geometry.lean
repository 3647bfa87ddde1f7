import Termroom.Node.Resize

/-!
# The Core's record of a Node terminal's geometry

`resize_browser_view` (`remote_access.py`) resizes a Node terminal for one browser. The Core
remembers the activity and the viewport it last saw applied, and does not ask again for what
they already are. It updates them from an `ok` result only.

**The Node changes without an `ok`.** A resize that fails may leave the stream passive where
it was active, or with the new viewport; the result says that it may be retried, the Core
keeps its record, and from then on the two differ: the next resize to what the record says is
skipped, and the Node is elsewhere. `geometry_agrees_iff` says that this is the only way:
along a run the record is the Node's state exactly as long as no request strays.
-/

set_option autoImplicit false

namespace Termroom.Node.Resize

open Conc Data Stateful

/-! ## 1. The Core -/

inductive CoreError where
  | node (error : ResizeError)
  | access (message code : String)
  deriving DecidableEq

def invalidResult : CoreError :=
  .access "Node returned an invalid Terminal resize result" "node_response_invalid"

def failedClosed : CoreError :=
  .access "Node Terminal resize failed closed" "terminal_resize_failed"

def demotionFailed : CoreError :=
  .access "Stale Node Terminal demotion failed" "terminal_resize_failed"

/-- `grid_active`, `last_viewport` and `resize_revision` of `bridge`. -/
structure CoreView where
  gridActive : Bool
  lastViewport : Option (Int × Int)
  resizeRevision : Int
  deriving DecidableEq

/-- A browser's bridge to a terminal stream of a Node. It is `live` until a resize raises. -/
structure Bridge where
  core : CoreView
  node : TerminalStream
  live : Bool
  deriving DecidableEq

/-- Right after `terminal.attach`. -/
def Bridge.attached (streamId : String) (callbacks : TerminalCallbacks) (fresh : Bool) : Bridge :=
  ⟨⟨false, none, 0⟩, .opened streamId callbacks fresh, true⟩

/-- What `resize_browser_view` reads of a `TerminalResizePlan`. -/
structure ResizePlan where
  bootstrap : Bool
  apply : Bool
  deriving DecidableEq

/-- A resize the browser asks for: the size, as `terminal_size` clamps it; the plan that
    `begin_resize` makes and what `commit_resize` says of it in the end; and what the Node
    runs into, with the resize and with the demotion that may follow. -/
structure BrowserResize where
  rows : Int
  cols : Int
  plan : Option ResizePlan
  committed : Bool
  answers : ResizeAnswers
  demotion : ResizeAnswers
  deriving DecidableEq

namespace BrowserResize

def viewport (c : BrowserResize) : Int × Int := (c.rows, c.cols)

def controlsGrid (c : BrowserResize) : Bool := c.plan.isSome

def bootstrap (c : BrowserResize) : Bool := c.plan.any (·.bootstrap)

end BrowserResize

abbrev BridgeM (α : Type) := Stateful Bridge CoreError α

/-- The request of `request_resize`. -/
def identity (streamId : String) (revision rows cols : Int) (affectsGrid bootstrap : Bool) :
    JsonObject :=
  [("stream_id", .str streamId), ("revision", .int revision), ("rows", .int rows),
   ("cols", .int cols), ("affects_grid", .bool affectsGrid), ("bootstrap", .bool bootstrap)]

/-- The next request the Core would send. -/
def Bridge.nextIdentity (w : Bridge) (c : BrowserResize) (affectsGrid bootstrap : Bool) :
    JsonObject :=
  identity w.node.streamId (w.core.resizeRevision + 1) c.rows c.cols affectsGrid bootstrap

/-- The Node serves the request; an error response raises. -/
def onNode (payload : JsonObject) (a : ResizeAnswers) : BridgeM ResizeOutcome := fun w =>
  (onResult .ok (fun e => .error (.node e)) (resize payload a w.node).1,
    { w with node := (resize payload a w.node).2 })

def requestResize (c : BrowserResize) (affectsGrid bootstrap : Bool) (a : ResizeAnswers) :
    BridgeM ResizeOutcome := do
  let w ← get
  modify fun w => { w with core.resizeRevision := w.core.resizeRevision + 1 }
  let identity := w.nextIdentity c affectsGrid bootstrap
  let outcome ← onNode identity a
  if validResult identity outcome.fields affectsGrid bootstrap then pure outcome
  else raise invalidResult

/-- The resize is what the Core believes the terminal to be. -/
def Skips (w : Bridge) (c : BrowserResize) : Prop :=
  c.controlsGrid = w.core.gridActive ∧ w.core.lastViewport = some c.viewport ∧
    ¬ c.plan.any (·.apply)

instance (w : Bridge) (c : BrowserResize) : Decidable (Skips w c) := by
  unfold Skips
  infer_instance

def resizeBrowserView (c : BrowserResize) : BridgeM Bool := do
  let w ← get
  if Skips w c then pure true
  else do
    let outcome ← requestResize c c.controlsGrid c.bootstrap c.answers
    if ¬ outcome.ok then
      if ¬ outcome.retryable then raise failedClosed else pure false
    else do
      modify fun w => { w with core.gridActive := outcome.gridActive,
                               core.lastViewport := some c.viewport }
      when (c.plan.isSome ∧ ¬ c.committed) do
        let demotion ← requestResize c false false c.demotion
        when (¬ demotion.ok ∨ ¬ demotion.passiveRestored) (raise demotionFailed)
        modify fun w => { w with core.gridActive := false }
      pure true

/-- One resize of a live bridge. One that raises ends the bridge. -/
def Bridges (w : Bridge) (c : BrowserResize) (w' : Bridge) : Prop :=
  w.live = true ∧
    w' = onResult (fun _ => (resizeBrowserView c w).2)
      (fun _ => { (resizeBrowserView c w).2 with live := false }) (resizeBrowserView c w).1

/-- The Core's record is the Node's state. -/
def Bridge.Agrees (w : Bridge) : Prop :=
  w.live = true → w.core.gridActive = w.node.gridActive ∧ w.core.lastViewport = w.node.lastViewport

/-- The resize makes the Node stray. -/
def Bridge.Strays (w : Bridge) (c : BrowserResize) : Prop :=
  ¬ Skips w c ∧ ∃ r, w.node.accepts (w.nextIdentity c c.controlsGrid c.bootstrap) = some r ∧
    Resize.Strays w.node r c.answers

/-! ## 2. One request -/

/-- A bridge whose Node takes the next request for a new one. -/
structure Ready (w : Bridge) : Prop where
  rest : Resting w.node
  revision : w.node.resizeRevision = w.core.resizeRevision
  opened : w.node.closed = false

section Step

variable {w : Bridge} {c : BrowserResize} {affectsGrid bootstrap : Bool} {a : ResizeAnswers}

/-- The Node reads the request the Core wrote. -/
theorem parse_identity {streamId : String} {revision rows cols : Int} {r : ResizeRequest}
    (h : ResizeRequest.parse streamId
      (identity streamId revision rows cols affectsGrid bootstrap) = .ok r) :
    r.revision = revision ∧ r.viewport = (rows, cols) ∧ r.affectsGrid = affectsGrid ∧
      r.bootstrap = bootstrap ∧
      identity streamId revision rows cols affectsGrid bootstrap = r.identity := by
  obtain ⟨hid, hrevision, hrows, hcols, haffects, hbootstrap⟩ := ResizeRequest.parse_fields h
  simp only [identity, Json.get, List.lookup] at hrevision hrows hcols haffects hbootstrap
  simp at hrevision hrows hcols haffects hbootstrap
  refine ⟨hrevision.symm, ?_, haffects.symm, hbootstrap.symm, ?_⟩
  · rw [ResizeRequest.viewport, ← hrows, ← hcols]
  · rw [identity, ResizeRequest.identity, hid, ← hrevision, ← hrows, ← hcols, ← haffects,
      ← hbootstrap]

/-- What an accepted request of the Core leaves behind. -/
structure Requested (w : Bridge) (c : BrowserResize) (affectsGrid bootstrap : Bool)
    (a : ResizeAnswers) (r : ResizeRequest) (o : ResizeOutcome) (w' : Bridge) : Prop where
  accepts : w.node.accepts (w.nextIdentity c affectsGrid bootstrap) = some r
  viewport : r.viewport = c.viewport
  affects : r.affectsGrid = affectsGrid
  boot : r.bootstrap = bootstrap
  ends : Accepted w.node r a (.ok o) w'.node
  core : w'.core = { w.core with resizeRevision := w.core.resizeRevision + 1 }
  live : w'.live = w.live
  rest : Resting w'.node
  revision : w'.node.resizeRevision = w'.core.resizeRevision
  streamId : w'.node.streamId = w.node.streamId

theorem ends_onNode {payload : JsonObject} {Q : ResizeOutcome → Bridge → Prop}
    {E : CoreError → Bridge → Prop} :
    (onNode payload a).Ends w Q E ↔
      onResult (fun o => Q o { w with node := (resize payload a w.node).2 })
        (fun e => E (.node e) { w with node := (resize payload a w.node).2 })
        (resize payload a w.node).1 := by
  unfold Ends onNode
  cases (resize payload a w.node).1 <;> exact Iff.rfl

theorem requestResize_ends (ready : Ready w) :
    (requestResize c affectsGrid bootstrap a).Ends w
      (fun o w' => ∃ r, Requested w c affectsGrid bootstrap a r o w')
      (fun _ _ => ∀ r, w.node.accepts (w.nextIdentity c affectsGrid bootstrap) = some r →
        ¬ Resize.Strays w.node r a) := by
  have serving := (serves_served w.node (w.nextIdentity c affectsGrid bootstrap) a).cases ready.rest
  have rest := ready.rest.step serving
  unfold requestResize
  rw [ends_bind, ends_get, ends_bind, ends_modify, ends_bind, ends_onNode]
  cases serving with
  | rejected e accepted reply same =>
    have reply : (resize (w.nextIdentity c affectsGrid bootstrap) a w.node).1 = .error e := reply
    rw [reply]
    intro r hr
    exact absurd (accepted.symm.trans hr) (by simp)
  | replayed r o accepted parse revision =>
    -- the revision is a new one
    obtain ⟨hnew, -⟩ := parse_identity parse
    have := ready.revision
    omega
  | accepted r accepted parse newer present ends kept =>
    obtain ⟨hrevision, hviewport, haffects, hboot, hidentity⟩ := parse_identity parse
    obtain ⟨o, hresult, hvalues, hvalid, hreply, -⟩ := ends.recorded present
    rcases hreply with hok | ⟨⟨e, he⟩, -⟩
    · have reply : (resize (w.nextIdentity c affectsGrid bootstrap) a w.node).1 = .ok o := hok
      have passes : validResult (w.nextIdentity c affectsGrid bootstrap) o.fields affectsGrid
          bootstrap = true := by
        have := hvalid.passes
        rw [hvalues, ← hidentity, haffects, hboot] at this
        exact this
      rw [reply, onResult_ok, ends_ite]
      refine ⟨fun _ => ⟨r, ?_⟩, fun hfails => absurd passes hfails⟩
      exact
        { accepts := accepted
          viewport := hviewport
          affects := haffects
          boot := hboot
          ends := hok ▸ ends
          core := rfl
          live := rfl
          rest := rest
          revision := kept.revision.trans hrevision
          streamId := kept.streamId }
    · have reply : (resize (w.nextIdentity c affectsGrid bootstrap) a w.node).1 = .error e := he
      rw [reply]
      intro q hq
      obtain rfl : r = q := Option.some.inj (accepted.symm.trans hq)
      rw [he] at ends
      cases ends with
      | raised stays => exact stays

/-! ## 3. One resize -/

/-- The record, and everything the next request rests on, while the bridge is live. -/
structure Agreeing (w : Bridge) : Prop where
  agrees : w.Agrees
  ready : w.live = true → Ready w

theorem Agreeing.dead (h : w.live = false) : Agreeing w :=
  ⟨fun hl => absurd (h.symm.trans hl) (by simp), fun hl => absurd (h.symm.trans hl) (by simp)⟩

/-- The demotion of a plan that went stale leaves the two passive, or ends the bridge. -/
theorem demotion_ends (ready : Ready w) (viewport : w.node.lastViewport = some c.viewport)
    (same : w.core.lastViewport = w.node.lastViewport) :
    (do
      let demotion ← requestResize c false false c.demotion
      when (¬ demotion.ok ∨ ¬ demotion.passiveRestored) (raise demotionFailed)
      modify fun w => { w with core.gridActive := false } : BridgeM Unit).Ends w
      (fun _ w' => Agreeing w') (fun _ _ => True) := by
  rw [ends_bind]
  apply (requestResize_ends ready).mono
  · intro o v ⟨r, h⟩
    rw [ends_bind, ends_when]
    refine ⟨fun _ => trivial, fun hok => ?_⟩
    rw [ends_modify]
    have hok : o.ok = true := by
      by_contra hf
      exact hok (.inl hf)
    cases h.ends with
    | applied _ outcome result grid viewport' opened =>
      refine ⟨fun _ => ⟨?_, ?_⟩, fun _ => ⟨h.rest, h.revision, opened.1⟩⟩
      · rw [grid, outcome, h.affects]
        rfl
      · rw [h.core, same, viewport, viewport', h.viewport]
    | unchanged _ _ ok | strayed _ _ ok | final _ _ ok => exact absurd (ok.symm.trans hok) (by simp)
  · exact fun _ _ _ => trivial

/-- **One resize keeps the record true exactly if the Node does not stray.** -/
theorem resizeBrowserView_ends (ready : Ready w) (live : w.live = true) (agrees : w.Agrees) :
    (resizeBrowserView c).Ends w
      (fun _ w' => (¬ w.Strays c → Agreeing w') ∧ (w.Strays c → w'.live = true ∧ ¬ w'.Agrees))
      (fun _ _ => ¬ w.Strays c) := by
  unfold resizeBrowserView
  rw [ends_bind, ends_get, ends_ite]
  refine ⟨fun hskip => ⟨fun _ => ⟨agrees, fun _ => ready⟩, fun hs => absurd hskip hs.1⟩,
    fun hskip => ?_⟩
  rw [ends_bind]
  apply (requestResize_ends ready).mono
  · intro o v ⟨r, h⟩
    have hstrays : w.Strays c ↔ Resize.Strays w.node r c.answers := by
      constructor
      · intro ⟨_, q, hq, hs⟩
        obtain rfl : r = q := Option.some.inj (h.accepts.symm.trans hq)
        exact hs
      · exact fun hs => ⟨hskip, r, h.accepts, hs⟩
    have hbefore := agrees live
    have hlive : v.live = true := h.live.trans live
    rw [ends_ite]
    cases h.ends with
    | applied stays outcome result grid viewport opened =>
      have hok : o.ok = true := by rw [outcome]; rfl
      refine ⟨fun hf => absurd hok hf, fun _ => ?_⟩
      have hfalse : ¬ w.Strays c := mt hstrays.mp stays
      rw [ends_bind, ends_modify, ends_bind, ends_when]
      refine ⟨fun _ => ?_, fun _ => ends_pure.mpr ⟨fun _ => ?_, fun hs => absurd hs hfalse⟩⟩
      · have hv : v.node.lastViewport = some c.viewport := viewport.trans (by rw [h.viewport])
        apply (demotion_ends (w := { v with core.gridActive := o.gridActive,
                                            core.lastViewport := some c.viewport })
          ⟨h.rest, h.revision, opened.1⟩ hv hv.symm).mono
        · exact fun _ _ hw => ⟨fun _ => hw, fun hs => absurd hs hfalse⟩
        · exact fun _ _ _ => hfalse
      · refine ⟨fun _ => ⟨grid.symm, ?_⟩, fun _ => ⟨h.rest, h.revision, opened.1⟩⟩
        rw [viewport, h.viewport]
    | unchanged stays _ ok again result grid viewport opened =>
      refine ⟨fun _ => ?_, fun hf => absurd ok (by simpa using hf)⟩
      rw [ends_ite]
      refine ⟨fun hf => absurd again hf, fun _ => ends_pure.mpr ⟨fun _ => ?_,
        fun hs => absurd (hstrays.mp hs) stays⟩⟩
      refine ⟨fun _ => ?_, fun _ => ⟨h.rest, h.revision, opened.1⟩⟩
      rw [h.core, grid, viewport]
      exact hbefore
    | strayed strays _ ok again result elsewhere rest =>
      refine ⟨fun _ => ?_, fun hf => absurd ok (by simpa using hf)⟩
      rw [ends_ite]
      refine ⟨fun hf => absurd again hf, fun _ => ends_pure.mpr
        ⟨fun hs => absurd (hstrays.mpr strays) hs, fun _ => ⟨hlive, fun hagrees => ?_⟩⟩⟩
      obtain ⟨hgrid, hviewport⟩ := hagrees hlive
      rw [h.core] at hgrid hviewport
      rcases elsewhere with hne | hne
      · exact hne (hgrid.symm.trans hbefore.1)
      · exact hne (hviewport.symm.trans hbefore.2)
    | final stays _ ok never =>
      refine ⟨fun _ => ?_, fun hf => absurd ok (by simpa using hf)⟩
      rw [ends_ite]
      exact ⟨fun _ => mt hstrays.mp stays, fun hf => absurd (by simpa using hf) (by simp [never])⟩
  · intro e v hstays ⟨_, r, hr, hs⟩
    exact hstays r hr hs

theorem Agreeing.step {w' : Bridge} (h : Agreeing w) (step : Bridges w c w') :
    (¬ w.Strays c → Agreeing w') ∧ (w.Strays c → ¬ w'.Agrees) := by
  obtain ⟨live, rfl⟩ := step
  have hends := resizeBrowserView_ends (c := c) (h.ready live) live h.agrees
  unfold Ends at hends
  cases hreply : (resizeBrowserView c w).1 with
  | ok b =>
    rw [hreply] at hends
    exact ⟨hends.1, fun hs => (hends.2 hs).2⟩
  | error e =>
    rw [hreply] at hends
    exact ⟨fun _ => .dead rfl, fun hs => absurd hs hends⟩

end Step

/-! ## 4. All the resizes of a bridge -/

theorem Agreeing.attached (streamId : String) (callbacks : TerminalCallbacks) (fresh : Bool) :
    Agreeing (.attached streamId callbacks fresh) :=
  ⟨fun _ => ⟨rfl, rfl⟩, fun _ => ⟨.opened streamId callbacks fresh, rfl, rfl⟩⟩

/-- **The Core's record is the Node's state exactly as long as no resize strays.** Along a run
    of a bridge, every state agrees iff no resize makes the Node stray; and then a resize that
    the Core skips is one that the Node has. -/
theorem geometry_agrees_iff {streamId : String} {callbacks : TerminalCallbacks} {fresh : Bool}
    {cs : List BrowserResize} {w : Bridge} :
    (Run (Guard Bridges fun _ _ w' => w'.Agrees) (.attached streamId callbacks fresh) cs w ↔
      Run (Guard Bridges fun w c _ => ¬ w.Strays c) (.attached streamId callbacks fresh) cs w) ∧
    (Run (Guard Bridges fun w c _ => ¬ w.Strays c) (.attached streamId callbacks fresh) cs w →
      w.live = true → ∀ c, Skips w c →
        w.node.gridActive = c.controlsGrid ∧ w.node.lastViewport = some c.viewport) := by
  -- what a run that does not stray keeps
  have keep {cs : List BrowserResize} {w : Bridge}
      (run : Run (Guard Bridges fun w c _ => ¬ w.Strays c) (.attached streamId callbacks fresh)
        cs w) : Agreeing w := by
    induction run with
    | refl => exact .attached streamId callbacks fresh
    | snoc before last ih => exact (ih.step last.1).1 last.2
  refine ⟨⟨fun run => ?_, fun run => ?_⟩, fun run live c hskip => ?_⟩
  · induction run with
    | refl => exact .refl
    | snoc before last ih =>
      refine ih.snoc ⟨last.1, fun hs => ?_⟩
      exact ((keep ih).step last.1).2 hs last.2
  · induction run with
    | refl => exact .refl
    | snoc before last ih =>
      exact ih.snoc ⟨last.1, (((keep before).step last.1).1 last.2).agrees⟩
  · obtain ⟨hgrid, hviewport⟩ := (keep run).agrees live
    exact ⟨(hskip.1.trans hgrid).symm, hviewport.symm.trans hskip.2.1⟩

/-- The bridge after a resize. -/
def bridged (w : Bridge) (c : BrowserResize) : Bridge :=
  onResult (fun _ => (resizeBrowserView c w).2)
    (fun _ => { (resizeBrowserView c w).2 with live := false }) (resizeBrowserView c w).1

theorem bridges_bridged {w : Bridge} (live : w.live = true) (c : BrowserResize) :
    Bridges w c (bridged w c) := ⟨live, rfl⟩

/-- The owner of the grid sets it to 24 by 80. -/
def smallGrid : BrowserResize := ⟨24, 80, some ⟨false, true⟩, true, allDone, allDone⟩

/-- It asks for 30 by 90, and tmux does not show that in time. -/
def largeGrid : BrowserResize :=
  ⟨30, 90, some ⟨false, true⟩, true, { allDone with wait := .refused }, allDone⟩

/-- It asks for 24 by 80 again, which is the size last applied. -/
def smallAgain : BrowserResize := ⟨24, 80, some ⟨false, false⟩, true, allDone, allDone⟩

/-- **The Core skips a resize the Node does not have.** After a resize that timed out, the Node
    is passive and has its viewport; the Core's record is that of the resize before. -/
theorem skipped_elsewhere : ∃ w, Run Bridges (.attached "t" attached false)
      [smallGrid, largeGrid] w ∧ w.live = true ∧ ¬ w.Agrees ∧ Skips w smallAgain ∧
    w.node.gridActive ≠ smallAgain.controlsGrid ∧
    w.node.lastViewport ≠ some smallAgain.viewport := by
  have live : (bridged (.attached "t" attached false) smallGrid).live = true := by decide +kernel
  have run := Run.cons (bridges_bridged (w := .attached "t" attached false) rfl smallGrid)
    (.single (bridges_bridged live largeGrid))
  refine ⟨_, run, ?_, ?_, ?_, ?_, ?_⟩
  · decide +kernel
  · intro h
    have hgrid := (h (by decide +kernel)).1
    revert hgrid
    decide +kernel
  · decide +kernel
  · decide +kernel
  · decide +kernel

end Termroom.Node.Resize
