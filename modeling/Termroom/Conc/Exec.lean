import Termroom.Conc.Prog

/-!
# A program by itself

Where a lock keeps everything else away, a program is run in one go: `Exec step p w r v` is
one execution, from the state `w` to its result `r` and the state `v`. What operations answer
is still open, so a program has as many executions as its surroundings have ways to answer.

`Exec.post` reads a fact about all of them off the weakest precondition under the contract
without interference (`alone`). `run` plays one execution from a function that answers each
operation.

Where a program may be killed, and others act between its operations, it is a `Cut` of the
program that takes place. What its contract asks of every operation is asked of these too
(`Cut.keeps`).
-/

set_option autoImplicit false

namespace Conc

variable {S : Sig} {ε α W : Type}

inductive Exec (step : (o : S.Op) → S.Ans o → W → W → Prop) :
    Prog S ε α → W → Except ε α → W → Prop
  | ret {a : α} {w : W} : Exec step (.ret a) w (.ok a) w
  | raise {e : ε} {w : W} : Exec step (.raise e) w (.error e) w
  | op {o : S.Op} {k : S.Ans o → Prog S ε α} {a : S.Ans o} {w u v : W} {r : Except ε α}
      (here : step o a w u) (rest : Exec step (k a) u r v) : Exec step (.op o k) w r v

variable {step : (o : S.Op) → S.Ans o → W → W → Prop}

/-- Nobody else acts, and every operation will do. -/
def alone (step : (o : S.Op) → S.Ans o → W → W → Prop) : Contract S W where
  inv := fun _ => True
  rely := Eq
  step := step
  ok := fun _ _ _ _ => True

/-- **Every execution ends in the postcondition.** -/
theorem Exec.post {p : Prog S ε α} {Q : Except ε α → W → Prop} {w v : W} {r : Except ε α}
    (h : Exec step p w r v) (hwp : p.wp (alone step) Q w) : Q r v := by
  induction h with
  | ret => exact hwp
  | raise => exact hwp
  | op here _ ih => exact ih (hwp _ rfl trivial _ _ here).2

/-- The same under any contract of a program by itself. -/
theorem Exec.meets {c : Contract S W} (still : ∀ w, c.rely w w) (inv : ∀ w, c.inv w)
    {p : Prog S ε α} {Q : Except ε α → W → Prop} {w v : W} {r : Except ε α}
    (h : Exec c.step p w r v) (hwp : p.wp c Q w) : Q r v := by
  induction h with
  | ret => exact hwp
  | raise => exact hwp
  | op here _ ih => exact ih (hwp _ (still _) (inv _) _ _ here).2

/-- An operation by itself. -/
theorem alone_perform {o : S.Op} {Q : Except ε (S.Ans o) → W → Prop} {w : W}
    (h : ∀ a v, step o a w v → Q (.ok a) v) :
    (Prog.perform o : Prog S ε (S.Ans o)).wp (alone step) Q w := by
  rintro u rfl - a v hs
  exact ⟨trivial, h a v hs⟩

/-- Every execution ends in what the program can end in. -/
theorem Exec.ends {p : Prog S ε α} {P : S.Op → Prop} {Q : Except ε α → Prop} {w v : W}
    {r : Except ε α} (h : Exec step p w r v) (uses : p.Uses P Q) : Q r := by
  induction h with
  | ret => exact uses
  | raise => exact uses
  | op _ _ ih => exact ih (uses.2 _)

/-- An execution of two parts: the first one returned and the second one went on from there, or
    the first one raised. -/
theorem Exec.bind_inv {β : Type} {p : Prog S ε α} {f : α → Prog S ε β} {w v : W}
    {r : Except ε β} (h : Exec step (p >>= f) w r v) :
    (∃ a u, Exec step p w (.ok a) u ∧ Exec step (f a) u r v) ∨
      ∃ e, Exec step p w (.error e) v ∧ r = .error e := by
  induction p generalizing w with
  | ret a => exact .inl ⟨a, w, .ret, h⟩
  | raise e =>
    cases h
    exact .inr ⟨e, .raise, rfl⟩
  | op o k ih =>
    cases h with
    | op here rest =>
      rcases ih _ rest with ⟨a, u, first, second⟩ | ⟨e, first, hr⟩
      · exact .inl ⟨a, u, .op here first, second⟩
      · exact .inr ⟨e, .op here first, hr⟩

/-- Fixed answers make an execution. -/
theorem Exec.of_eval {answer : (o : S.Op) → S.Ans o}
    (answers : ∀ o w, ∃ v, step o (answer o) w v) (p : Prog S ε α) (w : W) :
    ∃ v, Exec step p w (p.eval answer) v := by
  induction p generalizing w with
  | ret a => exact ⟨w, .ret⟩
  | raise e => exact ⟨w, .raise⟩
  | op o k ih =>
    obtain ⟨u, here⟩ := answers o w
    obtain ⟨v, rest⟩ := ih (answer o) u
    exact ⟨v, .op here rest⟩

/-- Where every operation can be answered within `F`, there is an execution within `F`. -/
theorem Exec.within {F : W → Prop} (answers : ∀ o w, F w → ∃ a v, step o a w v ∧ F v)
    (p : Prog S ε α) {w : W} (hw : F w) : ∃ r v, Exec step p w r v ∧ F v := by
  induction p generalizing w with
  | ret a => exact ⟨_, w, .ret, hw⟩
  | raise e => exact ⟨_, w, .raise, hw⟩
  | op o k ih =>
    obtain ⟨a, u, here, hu⟩ := answers o w hw
    obtain ⟨r, v, rest, hv⟩ := ih a hu
    exact ⟨r, v, .op here rest, hv⟩

/-! ## A program that is killed -/

/-- From the first operation of the program to any of them, with what the others do before each. -/
inductive Cut (rely : W → W → Prop) (step : (o : S.Op) → S.Ans o → W → W → Prop) :
    Prog S ε α → W → W → Prop
  | here {p : Prog S ε α} {w : W} : Cut rely step p w w
  | op {o : S.Op} {k : S.Ans o → Prog S ε α} {a : S.Ans o} {w u v x : W} (others : rely w u)
      (act : step o a u v) (rest : Cut rely step (k a) v x) : Cut rely step (.op o k) w x

/-- **What a program keeps, it keeps wherever it is cut off.** -/
theorem Cut.keeps {c : Contract S W} {J : W → Prop} (rely : ∀ u v, c.rely u v → J u → J v)
    (inv : ∀ u, J u → c.inv u)
    (act : ∀ o a u v, J u → c.step o a u v → c.ok o a u v → J v) {p : Prog S ε α}
    {Q : Except ε α → W → Prop} {w x : W} (cut : Cut c.rely c.step p w x) (h : p.wp c Q w)
    (hw : J w) : J x := by
  induction cut with
  | here => exact hw
  | op others step _ ih =>
    have hu := rely _ _ others hw
    obtain ⟨hok, hrest⟩ := h _ others (inv _ hu) _ _ step
    exact ih hrest (act _ _ _ _ hu step hok)

/-- What every operation keeps holds in the end. -/
theorem wp_keeps {c : Contract S W} {J : W → Prop} (rely : ∀ u v, c.rely u v → J u → J v)
    (act : ∀ o a u v, J u → c.step o a u v → c.ok o a u v → J v) {p : Prog S ε α}
    {Q : Except ε α → W → Prop} {w : W} (h : p.wp c Q w) (hw : J w) :
    p.wp c (fun r v => Q r v ∧ J v) w := by
  induction p generalizing w with
  | ret a => exact ⟨h, hw⟩
  | raise e => exact ⟨h, hw⟩
  | op o k ih =>
    intro u hu hi a v hv
    obtain ⟨hok, hrest⟩ := h u hu hi a v hv
    exact ⟨hok, ih a hrest (act o a u v (rely w u hu hw) hv hok)⟩

/-- The program performs an operation: where it was performed, and where that led. -/
inductive Performs (rely : W → W → Prop) (step : (o : S.Op) → S.Ans o → W → W → Prop) :
    Prog S ε α → W → W → W → Prop
  | here {o : S.Op} {k : S.Ans o → Prog S ε α} {a : S.Ans o} {w u v : W} (others : rely w u)
      (act : step o a u v) : Performs rely step (.op o k) w u v
  | later {o : S.Op} {k : S.Ans o → Prog S ε α} {a : S.Ans o} {w u v x y : W}
      (others : rely w u) (act : step o a u v) (rest : Performs rely step (k a) v x y) :
      Performs rely step (.op o k) w x y

/-- **Every operation that is performed** is what the contract asks of it. -/
theorem Performs.ok {c : Contract S W} (inv : ∀ u, c.inv u) {p : Prog S ε α}
    {Q : Except ε α → W → Prop} {w u v : W} (h : Performs c.rely c.step p w u v)
    (hwp : p.wp c Q w) : ∃ o a, c.ok o a u v := by
  induction h with
  | here others act => exact ⟨_, _, (hwp _ others (inv _) _ _ act).1⟩
  | later others act _ ih => exact ih (hwp _ others (inv _) _ _ act).2

/-- Programs of a family one after the other, each cut off somewhere. -/
inductive Cuts (rely : W → W → Prop) (step : (o : S.Op) → S.Ans o → W → W → Prop)
    (family : Prog S ε α → Prop) : W → W → Prop
  | none {w : W} : Cuts rely step family w w
  | more {p : Prog S ε α} {w u v : W} (before : Cuts rely step family w u) (mem : family p)
      (cut : Cut rely step p u v) : Cuts rely step family w v

/-- What every program of a family keeps, they keep together. -/
theorem Cuts.keeps {c : Contract S W} {J : W → Prop} (rely : ∀ u v, c.rely u v → J u → J v)
    (inv : ∀ u, J u → c.inv u) (act : ∀ o a u v, J u → c.step o a u v → c.ok o a u v → J v)
    {family : Prog S ε α → Prop} {w v : W} (h : Cuts c.rely c.step family w v)
    (meets : ∀ p, family p → ∀ u, J u → ∃ Q, p.wp c Q u) (hw : J w) : J v := by
  induction h with
  | none => exact hw
  | more _ mem cut ih =>
    obtain ⟨Q, hwp⟩ := meets _ mem _ (ih hw)
    exact cut.keeps rely inv act hwp (ih hw)

/-- A whole execution among others that do nothing. -/
theorem Exec.cut {rely : W → W → Prop} (still : ∀ w, rely w w) {p : Prog S ε α} {w v : W}
    {r : Except ε α} (h : Exec step p w r v) : Cut rely step p w v := by
  induction h with
  | ret => exact .here
  | raise => exact .here
  | op act _ ih => exact .op (still _) act ih

/-! ## Playing an execution -/

/-- The execution in which every operation is answered by `answer`; it ends early where one
    has no answer. -/
def run (answer : (o : S.Op) → W → Option (S.Ans o × W)) :
    Prog S ε α → W → Option (Except ε α × W)
  | .ret a, w => some (.ok a, w)
  | .raise e, w => some (.error e, w)
  | .op o k, w => (answer o w).bind fun (a, u) => run answer (k a) u

theorem run_sound {answer : (o : S.Op) → W → Option (S.Ans o × W)}
    (sound : ∀ {o w a u}, answer o w = some (a, u) → step o a w u) {p : Prog S ε α} {w v : W}
    {r : Except ε α} (h : run answer p w = some (r, v)) : Exec step p w r v := by
  induction p generalizing w with
  | ret a =>
    obtain ⟨rfl, rfl⟩ := Prod.mk.inj (Option.some.inj h)
    exact .ret
  | raise e =>
    obtain ⟨rfl, rfl⟩ := Prod.mk.inj (Option.some.inj h)
    exact .raise
  | op o k ih =>
    obtain ⟨⟨a, u⟩, here, rest⟩ := Option.bind_eq_some_iff.mp h
    exact .op (sound here) (ih a rest)

theorem run_bind {β : Type} {answer : (o : S.Op) → W → Option (S.Ans o × W)} {p : Prog S ε α}
    {f : α → Prog S ε β} {w : W} : run answer (p >>= f) w =
      (run answer p w).bind fun ended =>
        onResult (fun a => run answer (f a) ended.2) (fun e => some (.error e, ended.2))
          ended.1 := by
  show run answer (p.bind f) w = _
  induction p generalizing w with
  | ret a => rfl
  | raise e => rfl
  | op o k ih =>
    show ((answer o w).bind fun (a, u) => run answer ((k a).bind f) u) = _
    simp only [ih]
    exact (Option.bind_assoc _ _ _).symm

end Conc
