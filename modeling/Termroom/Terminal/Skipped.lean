import Termroom.Terminal.Control

/-!
# Resizes that are skipped

`begin_resize` returns a plan that need not be applied when the last resize it has on record is
the one asked for. The record is written by `commit_resize`, and the grid of the terminal changes
earlier, at `resize_applied`. Two operations come between and leave the record behind: the abort of
a plan that was applied, and `mark_grid_fresh`, which replaces the grid. `skip_sound` says that
these are the only ones.
-/

set_option autoImplicit false

namespace Termroom.Terminal

open Conc

/-! ## 1. The steps that keep the record true -/

/-- The plan in flight has been applied. -/
def TerminalControl.Applied (c : TerminalControl) (t : String) : Prop :=
  ∃ plan, (c.grids t).resizePlan = some plan ∧ plan.token ∈ c.appliedPlanTokens

/-- An applied plan is aborted only while the record is empty or has its size, and a grid is marked
    fresh only while the record is empty and no applied plan will still be committed. -/
def Op.KeepsRecord (c : TerminalControl) : Op → Prop
  | .abortResize plan =>
      c.InFlight plan → plan.token ∈ c.appliedPlanTokens →
        ∀ record ∈ (c.grids plan.terminalId).appliedResize, record.2 = (plan.rows, plan.cols)
  | .markGridFresh t client =>
      (c.grids t).appliedResize = none ∧
        ∀ plan ∈ (c.grids t).resizePlan, plan.token ∈ c.appliedPlanTokens →
          ((c.grids t).markGridFresh client).planCurrent plan = false
  | _ => True

instance (c : TerminalControl) : (op : Op) → Decidable (op.KeepsRecord c)
  | .abortResize _ => by dsimp only [Op.KeepsRecord]; infer_instance
  | .markGridFresh _ _ => by dsimp only [Op.KeepsRecord]; infer_instance
  | .register _ _ | .claimControl _ _ | .markInput _ _ | .markGridExisting _
  | .beginResize _ _ _ _ _ | .resizeApplied _ | .commitResize _ | .unregister _ _ =>
      .isTrue trivial

/-! ## 2. What was drawn

Client ids and tokens are new when they are drawn, so a client that left does not come back and no
two plans share a token. -/

structure World.Drawn (w : World) : Prop where
  clients : ∀ t, ∀ client ∈ (w.control.grids t).clients, client ∈ w.drawn
  once : ∀ t, (w.control.grids t).clients.Nodup
  plan : ∀ t plan, (w.control.grids t).resizePlan = some plan →
    plan.clientId ∈ w.drawn ∧ plan.token ∈ w.drawn ∧
      plan.revision ≤ (w.control.grids t).inputRevision
  tokens : ∀ token ∈ w.control.appliedPlanTokens, token ∈ w.drawn
  apart : ∀ s t one other, (w.control.grids s).resizePlan = some one →
    (w.control.grids t).resizePlan = some other → one.token = other.token → s = t

/-- An id that a step draws is new, and the others stay. -/
theorem World.next_drawn {w w' : World} {op : Op} (h : w.next op = some w') :
    (∀ id, op.draws = some id → id ∉ w.drawn ∧ id ∈ w'.drawn) ∧
      ∀ id ∈ w.drawn, id ∈ w'.drawn := by
  simp only [World.next] at h
  split at h
  · rename_i hdraws
    obtain rfl := by simpa using h
    exact ⟨by simp [hdraws], fun id hid => by simpa using hid⟩
  · rename_i id hdraws
    split at h
    · simp at h
    · rename_i hnew
      obtain rfl := by simpa using h
      refine ⟨fun other hother => ?_, fun other hother => ?_⟩
      · rw [hdraws] at hother
        obtain rfl := by simpa using hother
        exact ⟨hnew, by simp⟩
      · simp [hother]

namespace Grid

variable {g g' : Grid} {tokens : List String} {op : Op}

section

variable (g : Grid) (client : String) (plan : TerminalResizePlan)

@[simp] theorem register_resizePlan : (g.register client).resizePlan = g.resizePlan := rfl

@[simp] theorem claimControl_resizePlan : (g.claimControl client).resizePlan = g.resizePlan := by
  unfold Grid.claimControl
  split
  · rfl
  · split <;> rfl

@[simp] theorem markGridFresh_resizePlan : (g.markGridFresh client).resizePlan = g.resizePlan :=
  rfl

@[simp] theorem markInput_resizePlan : (g.markInput client).resizePlan = g.resizePlan := by
  unfold Grid.markInput
  split <;> rfl

@[simp] theorem markGridExisting_resizePlan : g.markGridExisting.resizePlan = g.resizePlan := rfl

@[simp] theorem resizeApplied_resizePlan : (g.resizeApplied plan).resizePlan = g.resizePlan := by
  unfold Grid.resizeApplied
  split <;> rfl

@[simp] theorem commitResize_resizePlan : (g.commitResize plan).resizePlan = none := rfl

@[simp] theorem abortResize_resizePlan : (g.abortResize plan).resizePlan = none := by
  unfold Grid.abortResize
  split
  · rfl
  · split <;> rfl

@[simp] theorem unregister_resizePlan : (g.unregister client).resizePlan = g.resizePlan := by
  unfold Grid.unregister
  split
  · rfl
  · split <;> rfl

end

/-- The clients after an operation are those before it, with the one it registered. -/
theorem Moves.clients (h : g.Moves tokens op g') :
    g'.clients.Sublist g.clients ∨
      ∃ client, op.draws = some client ∧ g'.clients = g.clients ++ [client] := by
  cases h with
  | register t client => exact .inr ⟨client, rfl, rfl⟩
  | claimControl t client =>
    left
    unfold Grid.claimControl
    split
    · exact .refl _
    · split <;> exact .refl _
  | markInput t client =>
    left
    unfold Grid.markInput
    split <;> exact .refl _
  | resizeApplied found =>
    left
    unfold Grid.resizeApplied
    split <;> exact .refl _
  | abortResize found =>
    left
    unfold Grid.abortResize
    split
    · exact .refl _
    · split <;> exact .refl _
  | unregister t client =>
    left
    unfold Grid.unregister
    split
    · exact .refl _
    · split
      · exact .refl _
      · exact List.erase_sublist
  | markGridFresh _ _ | markGridExisting _ | beginResize _ | commitResize _ =>
    exact .inl (.refl _)

theorem resizeOwner_mem {owner : String} (h : g.resizeOwner = some owner) :
    owner ∈ g.clients := by
  simp only [Grid.resizeOwner] at h
  split at h
  · simp at h
  · split at h
    · rename_i howner
      obtain rfl := by simpa using h
      simpa using (Option.filter_eq_some_iff.mp howner).2
    · have hfilter := (Option.filter_eq_some_iff.mp h).2
      simp only [Bool.and_eq_true, decide_eq_true_eq] at hfilter
      exact hfilter.1

theorem beginResize_spec {t client : String} {rows cols : Int} {token : String}
    {plan : TerminalResizePlan} (h : g.beginResize t client rows cols token = some plan) :
    client ∈ g.clients ∧ g.resizePlan = none ∧
      plan = ⟨t, client, rows, cols, g.inputRevision, token, g.bootstrapOwner = some client,
        g.appliedResize ≠ some (client, rows, cols)⟩ := by
  simp only [Grid.beginResize] at h
  split at h
  · simp at h
  · rename_i admitted
    simp only [not_or, not_not] at admitted
    exact ⟨resizeOwner_mem admitted.1, admitted.2, (Option.some.inj h).symm⟩

/-- A plan in flight after an operation was so before it, or is the one it began. -/
theorem Moves.resizePlan {plan : TerminalResizePlan} (h : g.Moves tokens op g')
    (after : g'.resizePlan = some plan) :
    g.resizePlan = some plan ∨
      op.draws = some plan.token ∧ plan.revision = g.inputRevision ∧
        plan.clientId ∈ g.clients ∧ g.resizePlan = none := by
  cases h with
  | beginResize found =>
    obtain ⟨hclient, hidle, rfl⟩ := beginResize_spec found
    obtain rfl := Option.some.inj after
    exact .inr ⟨rfl, rfl, hclient, hidle⟩
  | commitResize _ | abortResize _ => simp at after
  | register _ _ | claimControl _ _ | markGridFresh _ _ | markInput _ _ | markGridExisting _
  | resizeApplied _ | unregister _ _ => exact .inl (by simpa using after)

theorem Moves.inputRevision (h : g.Moves tokens op g') :
    g.inputRevision ≤ g'.inputRevision := by
  cases h with
  | claimControl t client =>
    unfold Grid.claimControl
    split
    · exact Nat.le_refl _
    · split <;> exact Nat.le_refl _
  | markInput t client =>
    unfold Grid.markInput
    split
    · exact Nat.le_succ _
    · exact Nat.le_refl _
  | resizeApplied found =>
    unfold Grid.resizeApplied
    split <;> exact Nat.le_refl _
  | abortResize found =>
    unfold Grid.abortResize
    split
    · exact Nat.le_refl _
    · split <;> exact Nat.le_refl _
  | unregister t client =>
    unfold Grid.unregister
    split
    · exact Nat.le_refl _
    · split <;> exact Nat.le_refl _
  | register _ _ | markGridFresh _ _ | markGridExisting _ | beginResize _ | commitResize _ =>
    exact Nat.le_refl _

end Grid

namespace TerminalControl

variable {c : TerminalControl} {op : Op}

theorem commits_current {g : Grid} {plan : TerminalResizePlan} {applied : Bool}
    (h : g.commits plan applied = true) :
    g.planCurrent plan = true ∧ (plan.apply = true → applied = true) := by
  simp only [Grid.commits, Bool.and_eq_true, Bool.or_eq_true, Bool.not_eq_true'] at h
  refine ⟨h.1.1, fun happly => ?_⟩
  rcases h.1.2 with hskip | happlied
  · simp [happly] at hskip
  · exact happlied

theorem planCurrent_iff {g : Grid} {plan : TerminalResizePlan} :
    g.planCurrent plan = true ↔
      g.resizePlan = some plan ∧ plan.clientId ∈ g.clients ∧
        (if plan.bootstrap then g.bootstrapOwner else g.inputOwner) = some plan.clientId ∧
        g.inputRevision = plan.revision := by
  simp [Grid.planCurrent, and_assoc]

/-- The tokens that an operation adds or takes are those of the plan in flight. -/
theorem play_tokens (c : TerminalControl) (op : Op) (token : String) :
    (token ∈ (c.play op).appliedPlanTokens ↔ token ∈ c.appliedPlanTokens) ∨
      ∃ plan, (c.grids op.terminalId).resizePlan = some plan ∧ plan.token = token := by
  cases op <;> simp only [play, Op.terminalId, onGrid_tokens]
  case beginResize =>
    left
    simp only [beginResize]
    split <;> simp
  case resizeApplied plan =>
    simp only [resizeApplied]
    split
    · rename_i found
      by_cases htoken : plan.token = token
      · exact .inr ⟨plan, found, htoken⟩
      · left; simp [Ne.symm htoken]
    · left; simp
  case commitResize plan =>
    simp only [commitResize]
    split
    · rename_i committed
      by_cases htoken : plan.token = token
      · exact .inr ⟨plan, (planCurrent_iff.mp (commits_current committed).1).1, htoken⟩
      · left; simp [Ne.symm htoken]
    · left; simp
  case abortResize plan =>
    simp only [abortResize]
    split
    · rename_i found
      by_cases htoken : plan.token = token
      · exact .inr ⟨plan, found, htoken⟩
      · left; simp [Ne.symm htoken]
    · left; simp
  all_goals left; simp

/-- What is applied elsewhere stays so. -/
theorem applied_elsewhere {w : World} (h : w.Drawn) {t : String} (ht : t ≠ op.terminalId) :
    (w.control.play op).Applied t ↔ w.control.Applied t := by
  simp only [Applied, play_elsewhere ht]
  refine exists_congr fun plan => and_congr_right fun hplan => ?_
  rcases w.control.play_tokens op plan.token with hsame | ⟨other, hother, htoken⟩
  · exact hsame
  · exact absurd (h.apart _ _ _ _ hplan hother htoken.symm) ht

/-- What an operation does to the maps of a terminal, its own or another. -/
theorem play_grid (c : TerminalControl) (op : Op) (t : String) :
    (c.play op).grids t = c.grids t ∨
      t = op.terminalId ∧ (c.grids t).Moves c.appliedPlanTokens op ((c.play op).grids t) := by
  by_cases ht : t = op.terminalId
  · subst ht
    rcases c.play_moves op with hstill | hmoves
    · exact .inl hstill
    · exact .inr ⟨rfl, hmoves⟩
  · exact .inl (play_elsewhere ht)

theorem plan_before {t : String} {plan : TerminalResizePlan}
    (after : ((c.play op).grids t).resizePlan = some plan) :
    (c.grids t).resizePlan = some plan ∨
      t = op.terminalId ∧ op.draws = some plan.token ∧
        plan.revision = (c.grids t).inputRevision ∧ plan.clientId ∈ (c.grids t).clients := by
  rcases play_grid c op t with hstill | ⟨ht, hmoves⟩
  · left
    rw [← hstill]
    exact after
  · rcases hmoves.resizePlan after with hbefore | hbegun
    · exact .inl hbefore
    · exact .inr ⟨ht, hbegun.1, hbegun.2.1, hbegun.2.2.1⟩

end TerminalControl

namespace World

variable {w w' : World} {op : Op}

theorem Drawn.new : World.new.Drawn := by
  refine ⟨?_, ?_, ?_, ?_, ?_⟩ <;> simp [World.new, TerminalControl.new, Grid.empty]

theorem Drawn.step (h : w.Drawn) (hstep : w.next op = some w') : w'.Drawn := by
  obtain ⟨hnew, hkept⟩ := next_drawn hstep
  have hcontrol := next_control hstep
  refine ⟨fun t client hmem => ?_, fun t => ?_, fun t plan hplan => ?_, fun token htoken => ?_,
    fun s t one other hone hother htoken => ?_⟩
  · rw [hcontrol] at hmem
    rcases w.control.play_grid op t with hstill | ⟨_, hmoves⟩
    · rw [hstill] at hmem
      exact hkept _ (h.clients t client hmem)
    · rcases hmoves.clients with hsub | ⟨id, hid, hclients⟩
      · exact hkept _ (h.clients t client (hsub.subset hmem))
      · rw [hclients, List.mem_append, List.mem_singleton] at hmem
        rcases hmem with hmem | rfl
        · exact hkept _ (h.clients t client hmem)
        · exact (hnew _ hid).2
  · rw [hcontrol]
    rcases w.control.play_grid op t with hstill | ⟨_, hmoves⟩
    · rw [hstill]
      exact h.once t
    · rcases hmoves.clients with hsub | ⟨id, hid, hclients⟩
      · exact hsub.nodup (h.once t)
      · rw [hclients]
        -- the new client is none of those before
        refine List.nodup_append.mpr ⟨h.once t, by simp, fun a ha b hb => ?_⟩
        obtain rfl := by simpa using hb
        intro heq
        subst heq
        exact (hnew _ hid).1 (h.clients t _ ha)
  · rw [hcontrol] at hplan ⊢
    have hrevision : (w.control.grids t).inputRevision ≤
        ((w.control.play op).grids t).inputRevision := by
      rcases w.control.play_grid op t with hstill | ⟨_, hmoves⟩
      · exact Nat.le_of_eq (congrArg Grid.inputRevision hstill.symm)
      · exact hmoves.inputRevision
    rcases TerminalControl.plan_before hplan with hbefore | ⟨_, hdraws, hbegun, hclient⟩
    · obtain ⟨hclient, htoken, hle⟩ := h.plan t plan hbefore
      exact ⟨hkept _ hclient, hkept _ htoken, Nat.le_trans hle hrevision⟩
    · exact ⟨hkept _ (h.clients t _ hclient), (hnew _ hdraws).2, hbegun ▸ hrevision⟩
  · rw [hcontrol] at htoken
    rcases w.control.play_tokens op token with hsame | ⟨plan, hplan, rfl⟩
    · exact hkept _ (h.tokens token (hsame.mp htoken))
    · exact hkept _ (h.plan _ plan hplan).2.1
  · rw [hcontrol] at hone hother
    rcases TerminalControl.plan_before hone with hone | ⟨hs, hs', _⟩ <;>
      rcases TerminalControl.plan_before hother with hother | ⟨ht, ht', _⟩
    · exact h.apart s t one other hone hother htoken
    · exact absurd (htoken ▸ (h.plan s one hone).2.1) (hnew _ ht').1
    · exact absurd (htoken ▸ (h.plan t other hother).2.1) (hnew _ hs').1
    · rw [hs, ht]

theorem drawn_of_run {ops : List Op} (run : Run Step .new ops w) : w.Drawn :=
  run.invariant (fun _ _ _ hstep h => h.step hstep) .new

end World

/-! ## 3. The record and the grid -/

/-- What is on record was shown last, unless the plan in flight is applied; then its own size was,
    or it is stale and nothing is on record. A plan that is not to be applied is on record. -/
structure Grid.Sound (g : Grid) (applied : Prop) (shown : Option (Int × Int)) : Prop where
  recorded : ¬ applied → ∀ record, g.appliedResize = some record → shown = some record.2
  flown : applied → ∀ plan, g.resizePlan = some plan → shown = some (plan.rows, plan.cols) ∨
    g.appliedResize = none ∧ g.planCurrent plan = false
  skipped : ∀ plan, g.resizePlan = some plan → plan.apply = false → plan.clientId ∈ g.clients →
    g.appliedResize = some (plan.clientId, plan.rows, plan.cols)

namespace Grid

variable {g g' : Grid} {applied : Prop} {shown : Option (Int × Int)}

/-- An operation that only forgets: a record, a client, or what makes the plan current. -/
theorem Sound.forget (h : g.Sound applied shown) (hplan : g'.resizePlan = g.resizePlan)
    (hrecord : ∀ record, g'.appliedResize = some record → g.appliedResize = some record)
    (hkept : ∀ plan, g.resizePlan = some plan → plan.clientId ∈ g'.clients →
      plan.clientId ∈ g.clients ∧
        ∀ size, g.appliedResize = some (plan.clientId, size) →
          g'.appliedResize = some (plan.clientId, size))
    (hcurrent : ∀ plan, g.resizePlan = some plan → g'.planCurrent plan = true →
      g.planCurrent plan = true) :
    g'.Sound applied shown := by
  refine ⟨fun happlied record hrec => h.recorded happlied record (hrecord record hrec),
    fun happlied plan hflight => ?_, fun plan hflight happly hmem => ?_⟩
  · rw [hplan] at hflight
    rcases h.flown happlied plan hflight with hshown | ⟨hnone, hstale⟩
    · exact .inl hshown
    · right
      constructor
      · cases hrec : g'.appliedResize with
        | none => rfl
        | some record => simp [hrecord record hrec] at hnone
      · by_contra hcur
        simp [hcurrent plan hflight (by simpa using hcur)] at hstale
  · rw [hplan] at hflight
    obtain ⟨hbefore, hsame⟩ := hkept plan hflight hmem
    exact hsame _ (h.skipped plan hflight happly hbefore)

theorem planCurrent_of {plan : TerminalResizePlan} (h : g'.planCurrent plan = true)
    (hplan : g'.resizePlan = g.resizePlan) (hclient : plan.clientId ∈ g.clients)
    (hbootstrap : plan.bootstrap = true → g'.bootstrapOwner = some plan.clientId →
      g.bootstrapOwner = some plan.clientId)
    (hinput : plan.bootstrap = false → g'.inputOwner = some plan.clientId →
      g'.inputRevision = plan.revision →
      g.inputOwner = some plan.clientId)
    (hrevision : g'.inputRevision = plan.revision → g.inputRevision = plan.revision) :
    g.planCurrent plan = true := by
  obtain ⟨hflight, _, howner, hrev⟩ := TerminalControl.planCurrent_iff.mp h
  refine TerminalControl.planCurrent_iff.mpr ⟨hplan ▸ hflight, hclient, ?_, hrevision hrev⟩
  cases hb : plan.bootstrap with
  | true => simpa [hb] using hbootstrap hb (by simpa [hb] using howner)
  | false => simpa [hb] using hinput hb (by simpa [hb] using howner) hrev

theorem Sound.register (h : g.Sound applied shown) (client : String)
    (hnew : ∀ plan, g.resizePlan = some plan → plan.clientId ≠ client) :
    (g.register client).Sound applied shown := by
  have hold {plan : TerminalResizePlan} (hflight : g.resizePlan = some plan)
      (hmem : plan.clientId ∈ g.clients ++ [client]) : plan.clientId ∈ g.clients := by
    simpa [hnew plan hflight] using hmem
  refine h.forget rfl (fun _ => id) ?_ ?_
  · intro plan hflight hmem
    exact ⟨hold hflight hmem, fun _ => id⟩
  · intro plan hflight hcurrent
    have hclient := (TerminalControl.planCurrent_iff.mp hcurrent).2.1
    refine planCurrent_of hcurrent rfl (hold hflight hclient) (fun _ howner => ?_)
      (fun _ howner _ => howner) id
    simpa [Grid.register, hflight] using howner

theorem Sound.claimControl {client : String} (h : g.Sound applied shown) :
    (g.claimControl client).Sound applied shown := by
  unfold Grid.claimControl
  split
  · exact h
  · split
    · refine h.forget rfl (fun _ => id) (fun _ _ hmem => ⟨hmem, fun _ => id⟩) ?_
      intro plan _ hcurrent
      have hclient := (TerminalControl.planCurrent_iff.mp hcurrent).2.1
      exact planCurrent_of hcurrent rfl hclient (fun _ => id) (by simp) id
    · exact h

theorem Sound.markInput (h : g.Sound applied shown) (client : String)
    (hrevision : ∀ plan, g.resizePlan = some plan → plan.revision ≤ g.inputRevision) :
    (g.markInput client).Sound applied shown := by
  unfold Grid.markInput
  split
  · refine h.forget rfl (fun _ => id) (fun _ _ hmem => ⟨hmem, fun _ => id⟩) ?_
    intro plan hflight hcurrent
    -- the input revision has passed the plan's
    have hle := hrevision plan hflight
    have heq := (TerminalControl.planCurrent_iff.mp hcurrent).2.2.2
    simp only at heq
    omega
  · exact h

theorem Sound.markGridExisting (h : g.Sound applied shown) :
    g.markGridExisting.Sound applied shown := by
  refine h.forget rfl (fun _ => id) (fun _ _ hmem => ⟨hmem, fun _ => id⟩) ?_
  intro plan _ hcurrent
  have hclient := (TerminalControl.planCurrent_iff.mp hcurrent).2.1
  exact planCurrent_of hcurrent rfl hclient (by simp [Grid.markGridExisting])
    (fun _ howner _ => howner) id

theorem Sound.unregister {client : String} (h : g.Sound applied shown) (hnodup : g.clients.Nodup) :
    (g.unregister client).Sound applied shown := by
  unfold Grid.unregister
  split
  · rename_i hempty
    refine h.forget rfl (by simp) ?_ ?_
    · intro plan _ hmem
      simp only [hempty, List.not_mem_nil] at hmem
    · intro plan _ hcurrent
      have hclient := (TerminalControl.planCurrent_iff.mp hcurrent).2.1
      exact planCurrent_of hcurrent rfl hclient (by simp) (by simp) id
  · split
    · exact h
    · have hold {plan : TerminalResizePlan} (hmem : plan.clientId ∈ g.clients.erase client) :
          plan.clientId ≠ client ∧ plan.clientId ∈ g.clients :=
        (List.Nodup.mem_erase_iff hnodup).mp hmem
      refine h.forget rfl ?_ ?_ ?_
      · intro record hrecord
        simp only at hrecord
        split at hrecord
        · simp at hrecord
        · exact hrecord
      · intro plan _ hmem
        refine ⟨(hold hmem).2, fun size hrecord => ?_⟩
        -- the record is of a client that stays
        have hstays : ¬ (g.clients.erase client = [] ∨
            g.appliedResize.map Prod.fst = some client) := by
          rintro (hempty | hleaver)
          · simp only [hempty, List.not_mem_nil] at hmem
          · simp only [hrecord, Option.map_some, Option.some.injEq] at hleaver
            exact (hold hmem).1 hleaver
        simp only [if_neg hstays]
        exact hrecord
      · intro plan hflight hcurrent
        have hclient := (TerminalControl.planCurrent_iff.mp hcurrent).2.1
        refine planCurrent_of hcurrent rfl (hold hclient).2 (fun _ howner => ?_)
          (fun _ howner _ => ?_) id
        · simp only [hflight] at howner
          split at howner
          · simp at howner
          · split at howner
            · simp at howner
            · exact howner
        · simp only at howner
          split at howner
          · simp at howner
          · exact howner

/-- A fresh grid shows no size, and none is on record. -/
theorem Sound.fresh (h : g.Sound applied shown) (client : String)
    (hrecord : g.appliedResize = none)
    (hstale : applied → ∀ plan, g.resizePlan = some plan →
      (g.markGridFresh client).planCurrent plan = false) :
    (g.markGridFresh client).Sound applied none := by
  refine ⟨fun _ record hsome => ?_, fun happlied plan hflight => ?_, h.skipped⟩
  · simp [Grid.markGridFresh, hrecord] at hsome
  · exact .inr ⟨hrecord, hstale happlied plan hflight⟩

theorem Sound.beginResize {t client : String} {rows cols : Int} {token : String}
    {plan : TerminalResizePlan} (h : g.Sound applied shown) (hidle : ¬ applied)
    (found : g.beginResize t client rows cols token = some plan) :
    Sound { g with resizePlan := some plan } False shown := by
  obtain ⟨_, _, rfl⟩ := beginResize_spec found
  refine ⟨fun _ => h.recorded hidle, fun hfalse => hfalse.elim, fun other hflight happly _ => ?_⟩
  obtain rfl := Option.some.inj hflight
  simpa using happly

theorem Sound.resizeApplied {plan : TerminalResizePlan} (h : g.Sound applied shown)
    (found : g.resizePlan = some plan) :
    (g.resizeApplied plan).Sound True (some (plan.rows, plan.cols)) := by
  refine ⟨fun hfalse => (hfalse trivial).elim, fun _ other hflight => ?_, ?_⟩
  · rw [resizeApplied_resizePlan, found] at hflight
    obtain rfl := Option.some.inj hflight
    exact .inl rfl
  · unfold Grid.resizeApplied
    split <;> exact h.skipped

theorem Sound.commitResize {plan : TerminalResizePlan} (h : g.Sound applied shown)
    (hcurrent : g.planCurrent plan = true) (happly : plan.apply = true → applied) :
    (g.commitResize plan).Sound False shown := by
  obtain ⟨found, hclient, _, _⟩ := TerminalControl.planCurrent_iff.mp hcurrent
  have hshown : shown = some (plan.rows, plan.cols) := by
    by_cases happlied : applied
    · rcases h.flown happlied plan found with hshown | ⟨_, hstale⟩
      · exact hshown
      · simp [hcurrent] at hstale
    · -- it was on record already
      have hskip : plan.apply = false := by
        by_contra htrue
        exact happlied (happly (by simpa using htrue))
      exact h.recorded happlied _ (h.skipped plan found hskip hclient)
  refine ⟨fun _ record hrecord => ?_, fun hfalse => hfalse.elim, fun other hflight => ?_⟩
  · obtain rfl := Option.some.inj hrecord
    exact hshown
  · simp at hflight

theorem Sound.abortResize {plan : TerminalResizePlan} (h : g.Sound applied shown)
    (found : g.resizePlan = some plan)
    (hsize : applied → ∀ record, g.appliedResize = some record →
      record.2 = (plan.rows, plan.cols)) :
    (g.abortResize plan).Sound False shown := by
  have hrecord : (g.abortResize plan).appliedResize = g.appliedResize := by
    unfold Grid.abortResize
    split
    · rfl
    · split <;> rfl
  refine ⟨fun _ record hsome => ?_, fun hfalse => hfalse.elim, fun other hflight => ?_⟩
  · rw [hrecord] at hsome
    by_cases happlied : applied
    · rcases h.flown happlied plan found with hshown | ⟨hnone, _⟩
      · rw [hshown, hsize happlied record hsome]
      · simp [hnone] at hsome
    · exact h.recorded happlied record hsome
  · simp at hflight

theorem Sound.congr {applied' : Prop} (h : g.Sound applied shown) (happlied : applied ↔ applied') :
    g.Sound applied' shown := propext happlied ▸ h

theorem Sound.empty : Grid.empty.Sound False none :=
  ⟨by simp [Grid.empty], fun hfalse => hfalse.elim, by simp [Grid.empty]⟩

end Grid

namespace World

variable {w w' : World} {op : Op}

/-- An operation that leaves the plan in flight alone. -/
theorem applied_onGrid {c : TerminalControl} {t : String} {f : Grid → Grid}
    (hplan : (f (c.grids t)).resizePlan = (c.grids t).resizePlan) :
    c.Applied t ↔ (c.onGrid t f).Applied t := by
  simp [TerminalControl.Applied, hplan]

theorem applied_iff {c : TerminalControl} {t : String} {plan : TerminalResizePlan}
    (found : (c.grids t).resizePlan = some plan) :
    c.Applied t ↔ plan.token ∈ c.appliedPlanTokens := by
  simp [TerminalControl.Applied, found]

theorem not_applied {c : TerminalControl} {t : String}
    (hidle : (c.grids t).resizePlan = none) : ¬ c.Applied t := by
  simp [TerminalControl.Applied, hidle]

/-- Every terminal shows what is on record for it. -/
def Sound (w : World) : Prop :=
  ∀ t, (w.control.grids t).Sound (w.control.Applied t) (w.shown t)

theorem Sound.play (h : w.Sound) (drawn : w.Drawn) (hnew : ∀ id, op.draws = some id → id ∉ w.drawn)
    (keeps : op.KeepsRecord w.control) (t : String) :
    ((w.control.play op).grids t).Sound ((w.control.play op).Applied t)
      ((w.witness op).shown t) := by
  by_cases ht : t = op.terminalId
  case neg =>
    rw [TerminalControl.play_elsewhere ht, (witness_elsewhere ht).1]
    exact (h t).congr (TerminalControl.applied_elsewhere drawn ht).symm
  subst ht
  have hown := h op.terminalId
  cases op <;> simp only [Op.terminalId] at hown <;>
    simp only [Op.terminalId, TerminalControl.play, witness]
  case register t client =>
    have hafter := hown.register client fun plan hplan heq =>
      hnew client rfl (heq ▸ (drawn.plan t plan hplan).1)
    rw [TerminalControl.onGrid_self]
    exact hafter.congr (applied_onGrid (by simp))
  case claimControl t client =>
    rw [TerminalControl.onGrid_self]
    exact hown.claimControl.congr (applied_onGrid (by simp))
  case markGridFresh t client =>
    rw [TerminalControl.onGrid_self, Function.update_self]
    have hafter := hown.fresh client keeps.1 fun happlied plan hplan =>
      keeps.2 plan hplan ((applied_iff hplan).mp happlied)
    exact hafter.congr (applied_onGrid (by simp))
  case markInput t client =>
    have hafter := hown.markInput client fun plan hplan =>
      (drawn.plan t plan hplan).2.2
    rw [TerminalControl.onGrid_self]
    exact hafter.congr (applied_onGrid (by simp))
  case markGridExisting t =>
    rw [TerminalControl.onGrid_self]
    exact hown.markGridExisting.congr (applied_onGrid (by simp))
  case beginResize t client rows cols token =>
    cases hfound : (w.control.grids t).beginResize t client rows cols token with
    | none =>
      simp only [TerminalControl.beginResize, hfound]
      exact hown
    | some plan =>
      obtain ⟨_, hidle, hplan⟩ := Grid.beginResize_spec hfound
      simp only [TerminalControl.beginResize, hfound, TerminalControl.onGrid_self]
      refine (hown.beginResize (not_applied hidle) hfound).congr ?_
      -- the token of the new plan is new
      refine ⟨False.elim, fun happlied => hnew token rfl ?_⟩
      obtain ⟨other, hflight, htoken⟩ := happlied
      obtain rfl : plan = other := by simpa using hflight
      have hdrawn := drawn.tokens _ htoken
      rwa [hplan] at hdrawn
  case resizeApplied plan =>
    by_cases hfound : w.control.InFlight plan
    · simp only [TerminalControl.resizeApplied, if_pos hfound, TerminalControl.onGrid_self,
        Function.update_self]
      refine (hown.resizeApplied hfound).congr ⟨fun _ => ?_, fun _ => trivial⟩
      have hflight : (w.control.grids plan.terminalId).resizePlan = some plan := hfound
      exact ⟨plan, by simp [hflight], by simp⟩
    · simp only [TerminalControl.resizeApplied, if_neg hfound]
      exact hown
  case commitResize plan =>
    simp only [TerminalControl.commitResize]
    split
    · rename_i committed
      obtain ⟨hcurrent, happly⟩ := TerminalControl.commits_current committed
      have hfound := (TerminalControl.planCurrent_iff.mp hcurrent).1
      simp only [TerminalControl.onGrid_self]
      refine (hown.commitResize hcurrent fun htrue => ?_).congr ⟨False.elim, not_applied ?_⟩
      · exact (applied_iff hfound).mpr (by simpa using happly htrue)
      · simp
    · exact hown
  case abortResize plan =>
    by_cases hfound : w.control.InFlight plan
    · simp only [TerminalControl.abortResize, if_pos hfound, TerminalControl.onGrid_self]
      refine (hown.abortResize hfound fun happlied => ?_).congr ⟨False.elim, not_applied ?_⟩
      · exact keeps hfound ((applied_iff hfound).mp happlied)
      · simp
    · simp only [TerminalControl.abortResize, if_neg hfound]
      exact hown
  case unregister t client =>
    rw [TerminalControl.onGrid_self]
    exact (hown.unregister (drawn.once t)).congr (applied_onGrid (by simp))

theorem sound_of_run {ops : List Op}
    (run : Run (Guard Step fun w op _ => op.KeepsRecord w.control) .new ops w) : w.Sound := by
  induction run with
  | refl => exact fun t => Grid.Sound.empty.congr ⟨False.elim, not_applied rfl⟩
  | snoc before last ih =>
    obtain ⟨hcontrol, hshown, _⟩ := next_spec last.1
    intro t
    rw [hcontrol, hshown]
    exact ih.play (drawn_of_run before.ofGuard) (fun id hid => ((next_drawn last.1).1 id hid).1)
      last.2 t

end World

/-- **Skipped resizes.** In a run that aborts applied plans and marks grids fresh only where the
    record stays true, a plan that `begin_resize` does not ask to apply is of the size that the
    terminal was last given, and its grid was not replaced since. -/
theorem skip_sound {ops : List Op} {w : World}
    (run : Run (Guard Step fun w op _ => op.KeepsRecord w.control) .new ops w)
    {t client : String} {rows cols : Int} {token : String} {plan : TerminalResizePlan}
    (begun : (w.control.beginResize t client rows cols token).2 = some plan)
    (skip : plan.apply = false) : w.shown t = some (rows, cols) := by
  have hsound := World.sound_of_run run t
  simp only [TerminalControl.beginResize] at begun
  split at begun
  · simp at begun
  · rename_i hfound
    obtain ⟨_, hidle, hplan⟩ := Grid.beginResize_spec hfound
    obtain rfl := Option.some.inj begun
    rw [hplan] at skip
    have hrecord : (w.control.grids t).appliedResize = some (client, rows, cols) := by
      simpa using skip
    exact hsound.recorded (World.not_applied hidle) _ hrecord

/-- The plan of `client` for `rows` and `cols`, made before anyone typed again. -/
def inputPlan (client : String) (rows cols : Int) (revision : Nat) (token : String) :
    TerminalResizePlan :=
  ⟨"terminal", client, rows, cols, revision, token, false, true⟩

/-- One browser sizes the terminal to 24 by 80. A second one types and resizes it, then the first
    types again, and the second's plan is aborted as stale. The first asks for its own size and is
    told that the terminal has it. -/
def staleAbort : List Op :=
  [.register "terminal" "a", .markInput "terminal" "a",
   .beginResize "terminal" "a" 24 80 "1", .resizeApplied (inputPlan "a" 24 80 1 "1"),
   .commitResize (inputPlan "a" 24 80 1 "1"),
   .register "terminal" "b", .markInput "terminal" "b",
   .beginResize "terminal" "b" 30 100 "2", .resizeApplied (inputPlan "b" 30 100 2 "2"),
   .markInput "terminal" "a", .abortResize (inputPlan "b" 30 100 2 "2")]

theorem aborted_resize_skipped :
    ∃ w, Run Step .new staleAbort w ∧
      ((w.control.beginResize "terminal" "a" 24 80 "3").2.map (·.apply)) = some false ∧
      w.shown "terminal" = some (30, 100) := by
  have played : (exec World.next .new staleAbort).isSome ∧
      ∀ w ∈ exec World.next .new staleAbort,
        ((w.control.beginResize "terminal" "a" 24 80 "3").2.map (·.apply)) = some false ∧
        w.shown "terminal" = some (30, 100) := by
    decide +kernel
  obtain ⟨w, hw⟩ := Option.isSome_iff_exists.mp played.1
  exact ⟨w, .ofExec hw, played.2 w hw⟩

/-- A run of steps that keep the record true, played. -/
theorem keeps_of_exec {ops : List Op} {w w' : World}
    (h : exec (fun w op => if op.KeepsRecord w.control then w.next op else none) w ops =
      some w') : Run (Guard Step fun w op _ => op.KeepsRecord w.control) w ops w' := by
  refine (Run.ofExec h).mono fun u op v hstep => ?_
  split at hstep
  · rename_i keeps
    exact ⟨hstep, keeps⟩
  · simp at hstep

/-- The same without the second browser: the terminal has the size. -/
def resized : List Op :=
  [.register "terminal" "a", .markInput "terminal" "a",
   .beginResize "terminal" "a" 24 80 "1", .resizeApplied (inputPlan "a" 24 80 1 "1"),
   .commitResize (inputPlan "a" 24 80 1 "1")]

theorem skip_sound_resized :
    ∃ w plan, Run (Guard Step fun w op _ => op.KeepsRecord w.control) .new resized w ∧
      (w.control.beginResize "terminal" "a" 24 80 "2").2 = some plan ∧ plan.apply = false ∧
      w.shown "terminal" = some (24, 80) := by
  let keeping := fun (w : World) (op : Op) =>
    if op.KeepsRecord w.control then w.next op else none
  let skipped := { inputPlan "a" 24 80 1 "2" with apply := false }
  have played : (exec keeping .new resized).isSome ∧
      ∀ w ∈ exec keeping .new resized,
        (w.control.beginResize "terminal" "a" 24 80 "2").2 = some skipped := by
    decide +kernel
  obtain ⟨w, hw⟩ := Option.isSome_iff_exists.mp played.1
  have run := keeps_of_exec hw
  exact ⟨w, skipped, run, played.2 w hw, rfl, skip_sound run (played.2 w hw) rfl⟩

end Termroom.Terminal
