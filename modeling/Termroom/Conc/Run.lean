import Mathlib.Data.List.Induction
import Mathlib.Logic.Function.Basic

/-!
# Runs of a labelled transition system

A component is a type `σ` of states and a relation `step s l t`: from `s`, the labelled
step `l` leads to `t`. A **run** is a finite path. Everything said elsewhere about "every
interleaving" is said about `Run`: a scheduler's choices are the labels it picks, so a
statement quantified over runs is one quantified over schedules.

Two rules carry every proof. `Run.invariant` needs the invariant initially and across one
step; `Run.traceInvariant` is the same for an invariant that also sees the labels so far,
which is how a statement compares what went in with what came out.

`Guard step ok` is the sub-system of the steps that satisfy `ok`. A condition on the steps
of a run is a run of the guarded system, so such conditions weaken, strengthen and cut
into prefixes by the lemmas about runs, with none of their own.
-/

set_option autoImplicit false

namespace Conc

variable {σ ℓ : Type _}

/-- A finite run from `s`, with its labels in the order they were taken. It grows at the
    end, so that an induction on a run extends a history by one step. -/
inductive Run (step : σ → ℓ → σ → Prop) (s : σ) : List ℓ → σ → Prop
  | refl : Run step s [] s
  | snoc {ls : List ℓ} {l : ℓ} {t u : σ} (run : Run step s ls t) (last : step t l u) :
      Run step s (ls ++ [l]) u

/-- The steps of a system that also satisfy `ok`. -/
def Guard (step : σ → ℓ → σ → Prop) (ok : σ → ℓ → σ → Prop) (s : σ) (l : ℓ) (t : σ) : Prop :=
  step s l t ∧ ok s l t

variable {step step' : σ → ℓ → σ → Prop} {s t u : σ} {ls ls' : List ℓ}

/-! ## Composing runs -/

theorem Run.single {l : ℓ} (h : step s l t) : Run step s [l] t := .snoc .refl h

theorem Run.append (h : Run step s ls t) (h' : Run step t ls' u) :
    Run step s (ls ++ ls') u := by
  induction h' with
  | refl => simpa using h
  | snoc _ last ih => rw [← List.append_assoc]; exact ih.snoc last

theorem Run.cons {l : ℓ} (h : step s l t) (h' : Run step t ls u) : Run step s (l :: ls) u :=
  (Run.single h).append h'

/-- A system with more steps has more runs. -/
theorem Run.mono (sub : ∀ s l t, step s l t → step' s l t) (h : Run step s ls t) :
    Run step' s ls t := by
  induction h with
  | refl => exact .refl
  | snoc _ last ih => exact ih.snoc (sub _ _ _ last)

theorem Run.ofGuard {ok : σ → ℓ → σ → Prop} (h : Run (Guard step ok) s ls t) :
    Run step s ls t := h.mono fun _ _ _ g => g.1

theorem Run.nil_inv (h : Run step s [] t) : t = s := by
  generalize hls : ([] : List ℓ) = ls at h
  cases h with
  | refl => rfl
  | snoc _ _ => exact absurd hls (by simp)

/-- The last step of a run, taken off again. -/
theorem Run.snoc_inv {l : ℓ} (h : Run step s (ls ++ [l]) u) :
    ∃ t, Run step s ls t ∧ step t l u := by
  generalize hls : ls ++ [l] = ms at h
  cases h with
  | refl => exact absurd hls (by simp)
  | snoc run last =>
    obtain ⟨rfl, h₂⟩ := List.append_inj' hls rfl
    obtain rfl : l = _ := by simpa using h₂
    exact ⟨_, run, last⟩

/-- Where a label determines the step, the labels determine the run. -/
theorem Run.deterministic (det : ∀ s l t u, step s l t → step s l u → t = u)
    (h : Run step s ls t) (h' : Run step s ls u) : t = u := by
  induction h generalizing u with
  | refl => exact h'.nil_inv.symm
  | snoc _ last ih =>
    obtain ⟨v, hv, last'⟩ := h'.snoc_inv
    obtain rfl := ih hv
    exact det _ _ _ _ last last'

/-! ## Invariants -/

/-- **Induction over a run.** What holds at the start and is preserved by every step holds
    at the end. -/
theorem Run.invariant {Inv : σ → Prop} (keep : ∀ s l t, step s l t → Inv s → Inv t)
    (h : Run step s ls t) (hs : Inv s) : Inv t := by
  induction h with
  | refl => exact hs
  | snoc _ last ih => exact keep _ _ _ last ih

/-- **Induction over a run and its history.** The invariant relates the labels so far to
    the state they led to. -/
theorem Run.traceInvariant {Inv : List ℓ → σ → Prop}
    (keep : ∀ ls s l t, step s l t → Inv ls s → Inv (ls ++ [l]) t)
    (h : Run step s ls t) (hs : Inv [] s) : Inv ls t := by
  induction h with
  | refl => exact hs
  | snoc _ last ih => exact keep _ _ _ _ last ih

/-! ## Independent systems side by side -/

section

variable {ι : Type _} {σ ℓ : ι → Type _} {step : ∀ i, σ i → ℓ i → σ i → Prop}
variable {s t : ∀ i, σ i} {ls : List (Σ i, ℓ i)}

/-- A step of a family of systems is a step of one of them. -/
def Beside (step : ∀ i, σ i → ℓ i → σ i → Prop) (s : ∀ i, σ i) (l : Σ i, ℓ i)
    (t : ∀ i, σ i) : Prop :=
  step l.1 (s l.1) l.2 (t l.1) ∧ ∀ j, j ≠ l.1 → t j = s j

/-- What one of the systems did during a run of the family is a run of its own. -/
theorem Run.component (h : Run (Beside step) s ls t) (i : ι) :
    ∃ ks, Run (step i) (s i) ks (t i) := by
  induction h with
  | refl => exact ⟨[], .refl⟩
  | snoc _ last ih =>
    rename_i l _ _ _
    obtain ⟨ks, hks⟩ := ih
    by_cases hi : i = l.1
    · subst hi
      exact ⟨ks ++ [l.2], hks.snoc last.1⟩
    · exact ⟨ks, by rw [last.2 i hi]; exact hks⟩

/-- A run of one of them is a run of the family. -/
theorem Run.beside [DecidableEq ι] {i : ι} {ks : List (ℓ i)} {u : σ i}
    (h : Run (step i) (s i) ks u) :
    Run (Beside step) s (ks.map (Sigma.mk i)) (Function.update s i u) := by
  induction h with
  | refl => rw [Function.update_eq_self]; exact .refl
  | snoc _ last ih =>
    rw [List.map_append]
    refine ih.snoc ⟨?_, fun j hj => ?_⟩
    · simpa using last
    · rw [Function.update_of_ne hj, Function.update_of_ne hj]

end

/-! ## Systems given by a function

`exec` plays a list of labels on a step function. It is how a concrete schedule is
evaluated. -/

/-- Play a schedule; `none` once a label is not enabled. -/
def exec (next : σ → ℓ → Option σ) : σ → List ℓ → Option σ
  | s, [] => some s
  | s, l :: ls => (next s l).bind fun t => exec next t ls

theorem Run.ofExec {next : σ → ℓ → Option σ} (h : exec next s ls = some t) :
    Run (fun s l t => next s l = some t) s ls t := by
  induction ls generalizing s with
  | nil =>
    obtain rfl : s = t := by simpa [exec] using h
    exact .refl
  | cons l ls ih =>
    obtain ⟨v, hv, ht⟩ := Option.bind_eq_some_iff.mp h
    exact .cons hv (ih ht)

end Conc
