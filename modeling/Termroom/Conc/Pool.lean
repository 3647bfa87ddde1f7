import Mathlib.Logic.Function.Basic
import Termroom.Conc.Prog
import Termroom.Conc.Run

/-!
# A pool of threads over a shared world

A `System` says what the operations of programs do to a shared world and which programs may
be started; its runs are the interleavings of any number of threads, one operation at a
time, with the steps of an environment. A thread's number is the moment it was started in,
so it never changes and is never reused.

An `Outline` is a rely-guarantee proof of a system: an invariant, what each thread relies on,
and a weakest precondition for each program, from the moment it starts. `Outline.sound` is
its soundness over runs: the invariant always holds, every operation satisfies what the
outline says of it (`ok`), and a thread that returns does so in its postcondition *at that
moment*. Soundness is proved here once; a development proves one `wp` a program.

`System.restrict` is the system in which only the operations in `ok` are performed. A
condition under which a program is right becomes a statement about the restricted system.
-/

set_option autoImplicit false

namespace Conc

structure System (S : Sig) (ε : Type) where
  World : Type
  Label : Type
  Ret : Label → Type
  body : (l : Label) → Prog S ε (Ret l)
  /-- Thread `t`, running `body l`, performs an operation and is answered. -/
  step : Nat → Label → (o : S.Op) → S.Ans o → World → World → Prop
  /-- Thread `t` is started. -/
  start : Nat → Label → World → World → Prop
  env : World → World → Prop

variable {S : Sig} {ε : Type}

/-! ## 1. Runs -/

structure Thread (sys : System S ε) where
  label : sys.Label
  prog : Prog S ε (sys.Ret label)

structure Pool (sys : System S ε) where
  world : sys.World
  threads : List (Thread sys)

inductive Event (sys : System S ε) where
  | call (l : sys.Label)
  | act (t : Nat) (l : sys.Label) (o : S.Op) (a : S.Ans o)
  | env

variable {sys : System S ε}

/-- A thread ends in `r`. -/
def Thread.ended (th : Thread sys) (r : Except ε (sys.Ret th.label)) : Prop :=
  th.prog = match r with
    | .ok a => .ret a
    | .error e => .raise e

inductive Pool.Step (sys : System S ε) : Pool sys → Event sys → Pool sys → Prop
  | call {p : Pool sys} {l : sys.Label} {w : sys.World}
      (started : sys.start p.threads.length l p.world w) :
      Step sys p (.call l) ⟨w, p.threads ++ [⟨l, sys.body l⟩]⟩
  | act {p : Pool sys} {t : Nat} {l : sys.Label} {o : S.Op}
      {k : S.Ans o → Prog S ε (sys.Ret l)} {a : S.Ans o} {w : sys.World}
      (here : p.threads[t]? = some ⟨l, .op o k⟩) (stepped : sys.step t l o a p.world w) :
      Step sys p (.act t l o a) ⟨w, p.threads.set t ⟨l, k a⟩⟩
  | env {p : Pool sys} {w : sys.World} (moved : sys.env p.world w) :
      Step sys p .env { p with world := w }

/-- No thread has been started yet. -/
def Pool.init (w : sys.World) : Pool sys := ⟨w, []⟩

/-- The runs of a system from a world. -/
abbrev System.Runs (sys : System S ε) (w : sys.World) (es : List (Event sys)) (p : Pool sys) :
    Prop :=
  Run (Pool.Step sys) (.init w) es p

/-- The system in which only operations in `ok` are performed. -/
abbrev System.restrict (sys : System S ε)
    (ok : Nat → sys.Label → (o : S.Op) → S.Ans o → sys.World → sys.World → Prop) :
    System S ε :=
  { sys with step := fun t l o a u v => sys.step t l o a u v ∧ ok t l o a u v }

/-- The system with a history variable for each thread: `track` is what an operation of the
    thread does to its own. No step depends on them. -/
abbrev System.instrument (sys : System S ε) (G : Type)
    (track : sys.Label → G → (o : S.Op) → S.Ans o → G) : System S ε :=
  { sys with
    World := sys.World × (Nat → G)
    step := fun t l o a u v =>
      sys.step t l o a u.1 v.1 ∧ v.2 = Function.update u.2 t (track l (u.2 t) o a)
    start := fun t l u v => sys.start t l u.1 v.1 ∧ v.2 = u.2
    env := fun u v => sys.env u.1 v.1 ∧ v.2 = u.2 }

/-- **Induction over a run, for a fact about the world**: what no operation, start or step of
    the environment breaks. -/
theorem Pool.world_invariant (Inv : sys.World → Prop)
    (act : ∀ t l o a u v, sys.step t l o a u v → Inv u → Inv v)
    (start : ∀ t l u v, sys.start t l u v → Inv u → Inv v)
    (env : ∀ u v, sys.env u v → Inv u → Inv v) {p q : Pool sys} {es : List (Event sys)}
    (run : Run (Pool.Step sys) p es q) (hp : Inv p.world) : Inv q.world := by
  induction run with
  | refl => exact hp
  | snoc _ last ih =>
    cases last with
    | call started => exact start _ _ _ _ started ih
    | act here stepped => exact act _ _ _ _ _ _ stepped ih
    | env moved => exact env _ _ moved ih

/-! ## 2. Proof outlines -/

/-- A rely-guarantee proof of a system, except for the programs themselves. -/
structure Outline (sys : System S ε) where
  inv : sys.World → Prop
  /-- What thread `t` relies on: what the others do while it is between two operations. -/
  rely : Nat → sys.Label → sys.World → sys.World → Prop
  /-- What an operation of thread `t` satisfies beyond keeping `inv` and the others' rely. -/
  ok : Nat → sys.Label → (o : S.Op) → S.Ans o → sys.World → sys.World → Prop
  post : Nat → (l : sys.Label) → Except ε (sys.Ret l) → sys.World → Prop
  rely_refl : ∀ t l u, rely t l u u
  rely_trans : ∀ t l u v w, rely t l u v → rely t l v w → rely t l u w
  start_keeps : ∀ t l u v, inv u → sys.start t l u v →
    inv v ∧ ∀ t' l', t' ≠ t → rely t' l' u v
  env_keeps : ∀ u v, inv u → sys.env u v → inv v ∧ ∀ t l, rely t l u v

namespace Outline

variable (out : Outline sys)

/-- The contract of thread `t` in the outline. -/
def contract (t : Nat) (l : sys.Label) : Contract S sys.World where
  inv := out.inv
  rely := out.rely t l
  step := sys.step t l
  ok := fun o a u v => out.inv v ∧ (∀ t' l', t' ≠ t → out.rely t' l' u v) ∧ out.ok t l o a u v

/-- Every program meets its contract from the moment it is started, in the runs from `w₀`.
    Until then the others have kept what the thread relies on since `w₀`. -/
def Proved (w₀ : sys.World) : Prop :=
  ∀ t l u v, out.inv u → out.rely t l w₀ u → sys.start t l u v →
    (sys.body l).wp (out.contract t l) (out.post t l) v

/-- What holds of a pool: the invariant, and of each thread that it still meets its contract
    from where it last looked. -/
structure Holds (w₀ : sys.World) (p : Pool sys) : Prop where
  inv : out.inv p.world
  unborn : ∀ t l, p.threads.length ≤ t → out.rely t l w₀ p.world
  threads : ∀ t th, p.threads[t]? = some th → ∃ w, out.rely t th.label w p.world ∧
    th.prog.wp (out.contract t th.label) (out.post t th.label) w

variable {out} {w₀ : sys.World} {p p' : Pool sys} {e : Event sys} {es : List (Event sys)}

theorem Holds.init (h : out.inv w₀) : out.Holds w₀ (.init w₀) where
  inv := h
  unborn := fun t l _ => out.rely_refl t l w₀
  threads := by simp [Pool.init]

/-- The rest of a thread that performs an operation, seen from where it performs it. -/
theorem Holds.act {t : Nat} {l : sys.Label} {o : S.Op} {k : S.Ans o → Prog S ε (sys.Ret l)}
    {a : S.Ans o} {w : sys.World} (h : out.Holds w₀ p)
    (here : p.threads[t]? = some ⟨l, .op o k⟩) (stepped : sys.step t l o a p.world w) :
    (out.contract t l).ok o a p.world w ∧
      (k a).wp (out.contract t l) (out.post t l) w := by
  obtain ⟨u, hu, hwp⟩ := h.threads t _ here
  exact hwp p.world hu h.inv a w stepped

/-- **The step rule.** -/
theorem Holds.step (proved : out.Proved w₀) (h : out.Holds w₀ p)
    (st : Pool.Step sys p e p') : out.Holds w₀ p' := by
  cases st with
  | call started =>
    rename_i l w
    obtain ⟨hinv, hrely⟩ := out.start_keeps _ _ _ _ h.inv started
    refine ⟨hinv, fun t l' ht => ?_, fun t th ht => ?_⟩
    · have ht : p.threads.length + 1 ≤ t := by simpa using ht
      exact out.rely_trans _ _ _ _ _ (h.unborn t l' (Nat.le_of_lt ht))
        (hrely t l' (Nat.ne_of_gt ht))
    rcases Nat.lt_trichotomy t p.threads.length with hlt | heq | hgt
    · rw [List.getElem?_append_left hlt] at ht
      obtain ⟨u, hu, hwp⟩ := h.threads t th ht
      exact ⟨u, out.rely_trans _ _ _ _ _ hu (hrely t th.label (Nat.ne_of_lt hlt)), hwp⟩
    · subst heq
      obtain rfl : ⟨l, sys.body l⟩ = th := by simpa using ht
      exact ⟨w, out.rely_refl _ _ _, proved _ _ _ _ h.inv (h.unborn _ _ (Nat.le_refl _)) started⟩
    · rw [List.getElem?_eq_none (by simpa using Nat.succ_le_of_lt hgt)] at ht
      exact absurd ht (by simp)
  | act here stepped =>
    rename_i t l o k a w
    obtain ⟨⟨hinv, hrely, _⟩, hwp⟩ := h.act here stepped
    have hlen : t < p.threads.length := (List.getElem?_eq_some_iff.mp here).1
    refine ⟨hinv, fun t' l' ht => ?_, fun t' th ht => ?_⟩
    · have ht : p.threads.length ≤ t' := by simpa using ht
      exact out.rely_trans _ _ _ _ _ (h.unborn t' l' ht)
        (hrely t' l' (Nat.ne_of_gt (Nat.lt_of_lt_of_le hlen ht)))
    by_cases heq : t = t'
    · subst heq
      obtain rfl : ⟨l, k a⟩ = th := by simpa [List.getElem?_set, hlen] using ht
      exact ⟨w, out.rely_refl _ _ _, hwp⟩
    · rw [List.getElem?_set_ne heq] at ht
      obtain ⟨u, hu, hwp⟩ := h.threads t' th ht
      exact ⟨u, out.rely_trans _ _ _ _ _ hu (hrely t' th.label (Ne.symm heq)), hwp⟩
  | env moved =>
    obtain ⟨hinv, hrely⟩ := out.env_keeps _ _ h.inv moved
    refine ⟨hinv, fun t l ht => out.rely_trans _ _ _ _ _ (h.unborn t l ht) (hrely t l),
      fun t th ht => ?_⟩
    obtain ⟨u, hu, hwp⟩ := h.threads t th ht
    exact ⟨u, out.rely_trans _ _ _ _ _ hu (hrely t th.label), hwp⟩

/-! ## 3. Soundness over runs -/

theorem holds_of_run (proved : out.Proved w₀) (hw : out.inv w₀)
    (run : sys.Runs w₀ es p) : out.Holds w₀ p :=
  run.invariant (fun _ _ _ st h => h.step proved st) (.init hw)

/-- **The invariant holds throughout.** -/
theorem inv_of_run (proved : out.Proved w₀) (hw : out.inv w₀)
    (run : sys.Runs w₀ es p) : out.inv p.world :=
  (holds_of_run proved hw run).inv

/-- **Every operation is as the outline says.** -/
theorem ok_of_run (proved : out.Proved w₀) (hw : out.inv w₀)
    (run : sys.Runs w₀ es p) {t : Nat} {l : sys.Label} {o : S.Op} {a : S.Ans o}
    (st : Pool.Step sys p (.act t l o a) p') : out.ok t l o a p.world p'.world := by
  cases st with
  | act here stepped => exact ((holds_of_run proved hw run).act here stepped).1.2.2

/-- **A thread ends in its postcondition**, at the moment it ends. -/
theorem post_of_run (proved : out.Proved w₀) (hw : out.inv w₀)
    (run : sys.Runs w₀ es p) {t : Nat} {l : sys.Label} {o : S.Op} {a : S.Ans o}
    (st : Pool.Step sys p (.act t l o a) p') {prog : Prog S ε (sys.Ret l)}
    (there : p'.threads[t]? = some ⟨l, prog⟩) {r : Except ε (sys.Ret l)}
    (ended : Thread.ended ⟨l, prog⟩ r) : out.post t l r p'.world := by
  cases st with
  | act here stepped =>
    rename_i w' k
    have hwp := ((holds_of_run proved hw run).act here stepped).2
    have hlen : t < p.threads.length := (List.getElem?_eq_some_iff.mp here).1
    obtain rfl : k a = prog := by simpa [List.getElem?_set, hlen] using there
    unfold Thread.ended at ended
    cases r <;> simp only at ended <;> rw [ended] at hwp <;> exact hwp

/-- A thread that has ended did so in its postcondition, and the others have kept what it relies
on since. -/
theorem ended_of_run (proved : out.Proved w₀) (hw : out.inv w₀)
    (run : sys.Runs w₀ es p) {t : Nat} {l : sys.Label} {prog : Prog S ε (sys.Ret l)}
    (there : p.threads[t]? = some ⟨l, prog⟩) {r : Except ε (sys.Ret l)}
    (ended : Thread.ended ⟨l, prog⟩ r) :
    ∃ w, out.rely t l w p.world ∧ out.post t l r w := by
  obtain ⟨w, hrely, hwp⟩ := (holds_of_run proved hw run).threads t _ there
  refine ⟨w, hrely, ?_⟩
  unfold Thread.ended at ended
  cases r <;> simp only at ended <;> simp only [ended] at hwp <;> exact hwp

/-- **A thread that no operation is left for has ended**: one that is under way could perform
its next operation, which would not be as the outline says. -/
theorem ended_of_blocked (proved : out.Proved w₀) (hw : out.inv w₀)
    (run : sys.Runs w₀ es p) {t : Nat} {l : sys.Label} {prog : Prog S ε (sys.Ret l)}
    (there : p.threads[t]? = some ⟨l, prog⟩)
    (live : ∀ o, ∃ a v, sys.step t l o a p.world v)
    (blocked : ∀ o a v, ¬ out.ok t l o a p.world v) : ∃ r, Thread.ended ⟨l, prog⟩ r := by
  cases prog with
  | ret a => exact ⟨.ok a, rfl⟩
  | raise e => exact ⟨.error e, rfl⟩
  | op o k =>
    obtain ⟨a, v, stepped⟩ := live o
    have hok := ((holds_of_run proved hw run).act there stepped).1.2.2
    exact absurd hok (blocked o a v)

end Outline

/-! ## 4. Playing a system

Where an operation's answer and effect can be computed from a choice, a schedule is a list
of moves and its run a computation. -/

inductive Move (sys : System S ε) (C : Type) where
  | call (l : sys.Label)
  | act (t : Nat) (c : C)

structure Player (sys : System S ε) (C : Type) where
  start : Nat → sys.Label → sys.World → Option sys.World
  act : C → Nat → sys.Label → (o : S.Op) → sys.World → Option (S.Ans o × sys.World)
  start_sound : ∀ {t l u v}, start t l u = some v → sys.start t l u v
  act_sound : ∀ {c t l o u a v}, act c t l o u = some (a, v) → sys.step t l o a u v

namespace Player

variable {C : Type} (player : Player sys C)

/-- A player of the restricted system: it refuses what does not pass the check. -/
def restrict {ok : Nat → sys.Label → (o : S.Op) → S.Ans o → sys.World → sys.World → Prop}
    (check : Nat → sys.Label → (o : S.Op) → S.Ans o → sys.World → sys.World → Bool)
    (sound : ∀ t l o a u v, check t l o a u v = true → ok t l o a u v) :
    Player (sys.restrict ok) C where
  start := player.start
  act := fun c t l o u => (player.act c t l o u).filter fun (a, v) => check t l o a u v
  start_sound := player.start_sound
  act_sound := by
    intro c t l o u a v h
    obtain ⟨h, hok⟩ := Option.filter_eq_some_iff.mp h
    exact ⟨player.act_sound h, sound _ _ _ _ _ _ hok⟩

/-- A player of the instrumented system. -/
def instrument {G : Type} (track : sys.Label → G → (o : S.Op) → S.Ans o → G) :
    Player (sys.instrument G track) C where
  start := fun t l u => (player.start t l u.1).map fun v => (v, u.2)
  act := fun c t l o u => (player.act c t l o u.1).map fun (a, v) =>
    (a, (v, Function.update u.2 t (track l (u.2 t) o a)))
  start_sound := by
    intro t l u v h
    obtain ⟨w, hw, rfl⟩ := Option.map_eq_some_iff.mp h
    exact ⟨player.start_sound hw, rfl⟩
  act_sound := by
    intro c t l o u a v h
    obtain ⟨⟨b, w⟩, hw, he⟩ := Option.map_eq_some_iff.mp h
    cases he
    exact ⟨player.act_sound hw, rfl⟩

def next (p : Pool sys) : Move sys C → Option (Pool sys)
  | .call l => (player.start p.threads.length l p.world).map fun w => ⟨w, p.threads ++ [⟨l, sys.body l⟩]⟩
  | .act t c =>
    match p.threads[t]? with
    | some ⟨l, .op o k⟩ =>
      (player.act c t l o p.world).map fun (a, w) => ⟨w, p.threads.set t ⟨l, k a⟩⟩
    | _ => none

def play : Pool sys → List (Move sys C) → Option (Pool sys)
  | p, [] => some p
  | p, m :: ms => (player.next p m).bind fun q => play q ms

theorem next_call {p q : Pool sys} {l : sys.Label} (h : player.next p (.call l) = some q) :
    Pool.Step sys p (.call l) q := by
  obtain ⟨w, hw, rfl⟩ := Option.map_eq_some_iff.mp h
  exact .call (player.start_sound hw)

theorem next_act {p q : Pool sys} {t : Nat} {c : C} (h : player.next p (.act t c) = some q) :
    ∃ l o k a, p.threads[t]? = some ⟨l, .op o k⟩ ∧ Pool.Step sys p (.act t l o a) q := by
  simp only [next] at h
  split at h
  · rename_i l o k here
    obtain ⟨⟨a, w⟩, hw, rfl⟩ := Option.map_eq_some_iff.mp h
    exact ⟨l, o, k, a, here, .act here (player.act_sound hw)⟩
  · exact absurd h (by simp)

theorem play_sound {p q : Pool sys} {ms : List (Move sys C)} (h : player.play p ms = some q) :
    ∃ es, Run (Pool.Step sys) p es q := by
  induction ms generalizing p with
  | nil =>
    obtain rfl : p = q := by simpa [play] using h
    exact ⟨[], .refl⟩
  | cons m ms ih =>
    obtain ⟨r, hr, hq⟩ := Option.bind_eq_some_iff.mp h
    obtain ⟨es, hes⟩ := ih hq
    cases m with
    | call l => exact ⟨_, .cons (player.next_call hr) hes⟩
    | act t c =>
      obtain ⟨l, o, k, a, -, st⟩ := player.next_act hr
      exact ⟨_, .cons st hes⟩

/-- A schedule up to an operation of interest, and that operation. -/
theorem play_act {p q r : Pool sys} {ms : List (Move sys C)} {t : Nat} {c : C} {l : sys.Label}
    {o : S.Op} {k : S.Ans o → Prog S ε (sys.Ret l)} (hp : player.play p ms = some q)
    (here : q.threads[t]? = some ⟨l, .op o k⟩) (hr : player.next q (.act t c) = some r) :
    ∃ es a, Run (Pool.Step sys) p es q ∧ Pool.Step sys q (.act t l o a) r := by
  obtain ⟨es, run⟩ := player.play_sound hp
  obtain ⟨l', o', k', a, here', st⟩ := player.next_act hr
  rw [here] at here'
  cases Option.some.inj here'
  exact ⟨es, a, run, st⟩

end Player

end Conc
