import Mathlib.Tactic.Common

/-!
# Programs that perform atomic operations

A `Prog S ε α` is a program as a concurrent system sees it: a tree of the atomic operations
it performs on a shared state, branching on their answers, ending in a value or in an
exception. Between two operations anything may happen, so nothing is assumed of the answers
here; what an operation may answer and do is said by the system the program runs in.

Two readings of a program carry the proofs:

* `Uses P Q` asks which operations a program can perform at all (`P`) and what it can end in
  (`Q`), whatever the answers. It is a footprint: no state, no interference.
* `wp c Q w` is the weakest precondition under interference. The program is at `w`; before
  each of its operations the others may move the state along `c.rely`, and each of its own
  operations must be in `c.ok`, the part of the guarantee that the operation is answerable
  for. The postcondition is about the instant of the last operation.

Both are computed by the same equations (`…_pure`, `…_perform`, `…_bind`, `…_attempt`), so
that `simp` walks through a program line by line; `wp_of_uses` says that where the footprint
alone decides, the state need not be looked at.
-/

set_option autoImplicit false

namespace Conc

/-- Operations and the type of their answers. -/
structure Sig where
  Op : Type
  Ans : Op → Type

inductive Prog (S : Sig) (ε α : Type) where
  | ret (a : α)
  | raise (e : ε)
  | op (o : S.Op) (k : S.Ans o → Prog S ε α)

variable {S : Sig} {ε ε' α β W : Type}

/-- A case distinction on how a program ended. -/
def onResult {γ : Sort _} (f : α → γ) (g : ε → γ) : Except ε α → γ
  | .ok a => f a
  | .error e => g e

@[simp] theorem ok_bind {a : α} {f : α → Except ε β} : (Except.ok a >>= f) = f a := rfl

@[simp] theorem error_bind {e : ε} {f : α → Except ε β} :
    (Except.error e >>= f) = Except.error e := rfl

theorem bind_eq_ok {x : Except ε α} {f : α → Except ε β} {b : β} :
    (x >>= f) = .ok b ↔ ∃ a, x = .ok a ∧ f a = .ok b := by
  cases x <;> simp

@[simp] theorem onResult_ok {γ : Sort _} {f : α → γ} {g : ε → γ} {a : α} :
    onResult f g (.ok a) = f a := rfl

@[simp] theorem onResult_error {γ : Sort _} {f : α → γ} {g : ε → γ} {e : ε} :
    onResult f g (.error e) = g e := rfl

namespace Prog

/-! ## 1. Sequencing and exceptions -/

protected def bind : Prog S ε α → (α → Prog S ε β) → Prog S ε β
  | ret a, f => f a
  | raise e, _ => raise e
  | op o k, f => op o fun a => (k a).bind f

instance : Monad (Prog S ε) where
  pure := ret
  bind := Prog.bind

def perform (o : S.Op) : Prog S ε (S.Ans o) := op o ret

/-- Run `p` and hand its exception over as a value: the `try` of every `try … except`,
    `else` and `finally`. -/
def attempt : Prog S ε α → Prog S ε' (Except ε α)
  | ret a => ret (.ok a)
  | raise e => ret (.error e)
  | op o k => op o fun a => (k a).attempt

def ofExcept : Except ε α → Prog S ε α
  | .ok a => ret a
  | .error e => raise e

/-- `try p finally q`. -/
def finally_ (p : Prog S ε α) (q : Prog S ε Unit) : Prog S ε α := do
  let r ← p.attempt
  q
  ofExcept r

/-- What the program ends in where every operation has one answer. -/
def eval (answer : (o : S.Op) → S.Ans o) : Prog S ε α → Except ε α
  | ret a => .ok a
  | raise e => .error e
  | op o k => (k (answer o)).eval answer

section eval

variable {answer : (o : S.Op) → S.Ans o}

@[simp] theorem eval_ret {a : α} : (ret a : Prog S ε α).eval answer = .ok a := rfl

@[simp] theorem eval_pure {a : α} : (pure a : Prog S ε α).eval answer = .ok a := rfl

@[simp] theorem eval_raise {e : ε} : (raise e : Prog S ε α).eval answer = .error e := rfl

@[simp] theorem eval_perform {o : S.Op} :
    (perform o : Prog S ε (S.Ans o)).eval answer = .ok (answer o) := rfl

@[simp] theorem eval_ofExcept {r : Except ε α} :
    (ofExcept r : Prog S ε α).eval answer = r := by
  cases r <;> rfl

@[simp] theorem eval_bind {p : Prog S ε α} {f : α → Prog S ε β} :
    (p >>= f).eval answer = p.eval answer >>= fun a => (f a).eval answer := by
  show (p.bind f).eval answer = _
  induction p with
  | ret a => rfl
  | raise e => rfl
  | op o k ih => exact ih (answer o)

@[simp] theorem eval_attempt {p : Prog S ε α} :
    (p.attempt : Prog S ε' (Except ε α)).eval answer = .ok (p.eval answer) := by
  induction p with
  | ret a => rfl
  | raise e => rfl
  | op o k ih => exact ih (answer o)

end eval

/-! ## 2. Footprints -/

/-- Whatever the answers, the program performs operations in `P` only and ends in `Q`. -/
def Uses (P : S.Op → Prop) : Prog S ε α → (Except ε α → Prop) → Prop
  | ret a, Q => Q (.ok a)
  | raise e, Q => Q (.error e)
  | op o k, Q => P o ∧ ∀ a, (k a).Uses P Q

/-- The operations a program performs are all in `P`. -/
def All (P : S.Op → Prop) (p : Prog S ε α) : Prop := p.Uses P fun _ => True

section uses

variable {P P' : S.Op → Prop} {Q Q' : Except ε α → Prop}

@[simp] theorem uses_ret {a : α} : (ret a : Prog S ε α).Uses P Q ↔ Q (.ok a) := Iff.rfl

@[simp] theorem uses_pure {a : α} : (pure a : Prog S ε α).Uses P Q ↔ Q (.ok a) := Iff.rfl

@[simp] theorem uses_raise {e : ε} : (raise e : Prog S ε α).Uses P Q ↔ Q (.error e) := Iff.rfl

@[simp] theorem uses_perform {o : S.Op} {Q : Except ε (S.Ans o) → Prop} :
    (perform o).Uses P Q ↔ P o ∧ ∀ a, Q (.ok a) := Iff.rfl

@[simp] theorem uses_bind {p : Prog S ε α} {f : α → Prog S ε β} {Q : Except ε β → Prop} :
    (p >>= f).Uses P Q ↔
      p.Uses P (onResult (fun a => (f a).Uses P Q) fun e => Q (.error e)) := by
  show (p.bind f).Uses P Q ↔ _
  induction p with
  | ret a => exact Iff.rfl
  | raise e => exact Iff.rfl
  | op o k ih => exact and_congr_right fun _ => forall_congr' ih

@[simp] theorem uses_attempt {p : Prog S ε α} {Q : Except ε' (Except ε α) → Prop} :
    p.attempt.Uses P Q ↔ p.Uses P fun r => Q (.ok r) := by
  induction p with
  | ret a => exact Iff.rfl
  | raise e => exact Iff.rfl
  | op o k ih => exact and_congr_right fun _ => forall_congr' ih

@[simp] theorem uses_ofExcept {r : Except ε α} : (ofExcept r : Prog S ε α).Uses P Q ↔ Q r := by
  cases r <;> exact Iff.rfl

theorem uses_mono {p : Prog S ε α} (sub : ∀ o, P o → P' o) (post : ∀ r, Q r → Q' r)
    (h : p.Uses P Q) : p.Uses P' Q' := by
  induction p with
  | ret a => exact post _ h
  | raise e => exact post _ h
  | op o k ih => exact ⟨sub o h.1, fun a => ih a (h.2 a)⟩

theorem All.mono {p : Prog S ε α} (sub : ∀ o, P o → P' o) (h : p.All P) : p.All P' :=
  uses_mono sub (fun _ _ => trivial) h

theorem All.pure {a : α} : (Pure.pure a : Prog S ε α).All P := trivial

theorem All.raise {e : ε} : (Prog.raise e : Prog S ε α).All P := trivial

theorem All.ofExcept {r : Except ε α} : (Prog.ofExcept r : Prog S ε α).All P :=
  uses_ofExcept.mpr trivial

theorem All.bind {p : Prog S ε α} {f : α → Prog S ε β} (hp : p.All P)
    (hf : ∀ a, (f a).All P) : (p >>= f).All P := by
  refine uses_bind.mpr (uses_mono (fun _ h => h) (fun r _ => ?_) hp)
  cases r with
  | ok a => exact hf a
  | error e => trivial

theorem All.attempt {p : Prog S ε α} (h : p.All P) :
    (p.attempt : Prog S ε' (Except ε α)).All P := uses_attempt.mpr h

theorem All.finally_ {p : Prog S ε α} {q : Prog S ε Unit} (hp : p.All P) (hq : q.All P) :
    (p.finally_ q).All P :=
  hp.attempt.bind fun _ => hq.bind fun _ => .ofExcept

end uses

end Prog

/-! ## 3. Weakest preconditions under interference -/

/-- What a thread may assume and must guarantee. `rely` is what the others do between two
    of its operations, `step` is what its operations do, `inv` holds whenever it looks, and
    `ok` is what each of its operations has to satisfy. -/
structure Contract (S : Sig) (W : Type) where
  inv : W → Prop
  rely : W → W → Prop
  step : (o : S.Op) → S.Ans o → W → W → Prop
  ok : (o : S.Op) → S.Ans o → W → W → Prop

namespace Prog

/-- From `w`, under interference, every operation of the program is `ok` and the program
    ends in `Q`. -/
def wp (c : Contract S W) : Prog S ε α → (Except ε α → W → Prop) → W → Prop
  | ret a, Q, w => Q (.ok a) w
  | raise e, Q, w => Q (.error e) w
  | op o k, Q, w => ∀ u, c.rely w u → c.inv u → ∀ a v, c.step o a u v →
      c.ok o a u v ∧ (k a).wp c Q v

section wp

variable {c : Contract S W} {Q Q' : Except ε α → W → Prop} {w : W}

@[simp] theorem wp_ret {a : α} : (ret a : Prog S ε α).wp c Q = Q (.ok a) := rfl

@[simp] theorem wp_pure {a : α} : (pure a : Prog S ε α).wp c Q = Q (.ok a) := rfl

@[simp] theorem wp_raise {e : ε} : (raise e : Prog S ε α).wp c Q = Q (.error e) := rfl

@[simp] theorem wp_perform {o : S.Op} {Q : Except ε (S.Ans o) → W → Prop} :
    (perform o).wp c Q = fun w => ∀ u, c.rely w u → c.inv u → ∀ a v, c.step o a u v →
      c.ok o a u v ∧ Q (.ok a) v := rfl

@[simp] theorem wp_bind {p : Prog S ε α} {f : α → Prog S ε β} {Q : Except ε β → W → Prop} :
    (p >>= f).wp c Q = p.wp c (onResult (fun a => (f a).wp c Q) fun e => Q (.error e)) := by
  show (p.bind f).wp c Q = _
  induction p with
  | ret a => rfl
  | raise e => rfl
  | op o k ih => simp only [Prog.bind, wp, ih]

@[simp] theorem wp_attempt {p : Prog S ε α} {Q : Except ε' (Except ε α) → W → Prop} :
    p.attempt.wp c Q = p.wp c fun r => Q (.ok r) := by
  induction p with
  | ret a => rfl
  | raise e => rfl
  | op o k ih => simp only [attempt, wp, ih]

@[simp] theorem wp_ofExcept {r : Except ε α} : (ofExcept r : Prog S ε α).wp c Q = Q r := by
  cases r <;> rfl

theorem wp_mono {p : Prog S ε α} (post : ∀ r v, Q r v → Q' r v) (h : p.wp c Q w) :
    p.wp c Q' w := by
  induction p generalizing w with
  | ret a => exact post _ _ h
  | raise e => exact post _ _ h
  | op o k ih =>
    intro u hu hi a v hv
    exact ⟨(h u hu hi a v hv).1, ih a (h u hu hi a v hv).2⟩

/-- **The rule of sequencing**: a specification of the first part, and the second part from
    where the first one returned. -/
theorem wp_seq {p : Prog S ε α} {f : α → Prog S ε β} {R : Except ε α → W → Prop}
    {Q : Except ε β → W → Prop} (first : p.wp c R w)
    (error : ∀ e v, R (.error e) v → Q (.error e) v)
    (ok : ∀ a v, R (.ok a) v → (f a).wp c Q v) : (p >>= f).wp c Q w := by
  rw [wp_bind]
  refine wp_mono (fun r v hr => ?_) first
  cases r with
  | ok a => exact ok a v hr
  | error e => exact error e v hr

/-- **The footprint rule.** A fact `F` that the others preserve and that every operation in
    `P` preserves is a loop invariant of any program with footprint `P`; if it makes those
    operations `ok`, the program meets its contract. -/
theorem wp_of_uses {P : S.Op → Prop} {F : W → Prop} {p : Prog S ε α} {R : Except ε α → Prop}
    (rely : ∀ u v, c.rely u v → F u → F v)
    (ok : ∀ o a u v, P o → F u → c.inv u → c.step o a u v → c.ok o a u v ∧ F v)
    (h : p.Uses P R) (hw : F w) : p.wp c (fun r v => R r ∧ F v) w := by
  induction p generalizing w with
  | ret a => exact ⟨h, hw⟩
  | raise e => exact ⟨h, hw⟩
  | op o k ih =>
    intro u hu hi a v hv
    obtain ⟨hok, hF⟩ := ok o a u v h.1 (rely w u hu hw) hi hv
    exact ⟨hok, ih a (h.2 a) hF⟩

/-- The footprint rule where no fact is needed. -/
theorem wp_of_all {P : S.Op → Prop} {p : Prog S ε α}
    (ok : ∀ o a u v, P o → c.inv u → c.step o a u v → c.ok o a u v)
    (h : p.All P) (post : ∀ r v, Q r v) : p.wp c Q w :=
  wp_mono (fun r v _ => post r v)
    (wp_of_uses (fun _ _ _ h => h) (fun o a u v ho _ hi hs => ⟨ok o a u v ho hi hs, trivial⟩) h
      trivial)

end wp

/-! ## 4. Implementing operations

A program over one signature runs over another when each of its operations is implemented by
a program there. What an implementation raises ends the program, past any `attempt` around
the operation; an operation that fails where the program looks at it answers with its
exception, and its implementation does not raise. -/

variable {S' : Sig}

def interpret (f : (o : S.Op) → Prog S' ε (S.Ans o)) : Prog S ε α → Prog S' ε α
  | ret a => ret a
  | raise e => raise e
  | op o k => f o >>= fun a => (k a).interpret f

/-- The program returns, whatever the answers. -/
def Returns (p : Prog S ε α) : Prop := p.Uses (fun _ => True) fun r => ∃ a, r = .ok a

theorem Returns.attempt {p : Prog S ε α} : (p.attempt : Prog S ε' (Except ε α)).Returns := by
  induction p with
  | ret a => exact ⟨_, rfl⟩
  | raise e => exact ⟨_, rfl⟩
  | op o k ih => exact ⟨trivial, ih⟩

section interpret

variable {f : (o : S.Op) → Prog S' ε (S.Ans o)}

theorem bind_ret (p : Prog S ε α) : (p >>= fun a => (ret a : Prog S ε α)) = p := by
  show p.bind ret = p
  induction p with
  | ret a => rfl
  | raise e => rfl
  | op o k ih => exact congrArg (op o) (funext ih)

theorem bind_assoc {γ : Type} (p : Prog S ε α) (g : α → Prog S ε β) (h : β → Prog S ε γ) :
    (p >>= g) >>= h = p >>= fun a => g a >>= h := by
  show (p.bind g).bind h = p.bind fun a => (g a).bind h
  induction p with
  | ret a => rfl
  | raise e => rfl
  | op o k ih => exact congrArg (op o) (funext ih)

@[simp] theorem interpret_ret {a : α} : (ret a : Prog S ε α).interpret f = ret a := rfl

@[simp] theorem interpret_pure {a : α} :
    (Pure.pure a : Prog S ε α).interpret f = Pure.pure a := rfl

@[simp] theorem interpret_raise {e : ε} : (raise e : Prog S ε α).interpret f = raise e := rfl

@[simp] theorem interpret_perform {o : S.Op} : (perform o).interpret f = f o := bind_ret (f o)

@[simp] theorem interpret_ofExcept {r : Except ε α} :
    (Prog.ofExcept r : Prog S ε α).interpret f = Prog.ofExcept r := by
  cases r <;> rfl

@[simp] theorem interpret_bind {p : Prog S ε α} {g : α → Prog S ε β} :
    (p >>= g).interpret f = p.interpret f >>= fun a => (g a).interpret f := by
  show (p.bind g).interpret f = _
  induction p with
  | ret a => rfl
  | raise e => rfl
  | op o k ih =>
    have step : ((op o k).bind g).interpret f =
        f o >>= fun a => (k a).interpret f >>= fun b => (g b).interpret f :=
      congrArg (f o >>= ·) (funext ih)
    exact step.trans (bind_assoc _ _ _).symm

/-- Where each implementation returns what the operation would answer. -/
theorem eval_interpret {answer : (o : S.Op) → S.Ans o} {answer' : (o : S'.Op) → S'.Ans o}
    (h : ∀ o, (f o).eval answer' = .ok (answer o)) (p : Prog S ε α) :
    (p.interpret f).eval answer' = p.eval answer := by
  induction p with
  | ret a => rfl
  | raise e => rfl
  | op o k ih =>
    show (f o >>= fun a => (k a).interpret f).eval answer' = _
    rw [eval_bind, h]
    exact ih (answer o)

/-- An exception of the first part is none of the second's to hand over. -/
theorem attempt_bind {p : Prog S ε α} {g : α → Prog S ε β} (h : p.Returns) :
    ((p >>= g).attempt : Prog S ε (Except ε β)) = p >>= fun a => (g a).attempt := by
  show (p.bind g).attempt = p.bind fun a => (g a).attempt
  induction p with
  | ret a => rfl
  | raise e =>
    obtain ⟨a, ha⟩ := h
    exact nomatch ha
  | op o k ih => exact congrArg (op o) (funext fun a => ih a (h.2 a))

theorem interpret_attempt {p : Prog S ε α} (h : p.All fun o => (f o).Returns) :
    (p.attempt : Prog S ε (Except ε α)).interpret f = (p.interpret f).attempt := by
  induction p with
  | ret a => rfl
  | raise e => rfl
  | op o k ih =>
    have step : (f o >>= fun a => (k a).interpret f).attempt =
        (f o >>= fun a => ((k a).interpret f).attempt : Prog S' ε (Except ε α)) :=
      attempt_bind h.1
    refine Eq.trans ?_ step.symm
    exact congrArg (f o >>= ·) (funext fun a => ih a (h.2 a))

/-- **Implementations that meet a contract**: what is proved of a program over the operations
    holds of it over their implementations. -/
theorem wp_interpret {c : Contract S W} {c' : Contract S' W}
    (meets : ∀ (o : S.Op) (R : S.Ans o → W → Prop) w,
      (perform o : Prog S ε (S.Ans o)).wp c (fun r v => ∃ a, r = .ok a ∧ R a v) w →
      (f o).wp c' (fun r v => ∃ a, r = .ok a ∧ R a v) w)
    {p : Prog S ε α} {Q : Except ε α → W → Prop} {w : W} (h : p.wp c Q w) :
    (p.interpret f).wp c' Q w := by
  induction p generalizing w with
  | ret a => exact h
  | raise e => exact h
  | op o k ih =>
    refine wp_seq (meets o (fun a v => (k a).wp c Q v) w ?_) ?_ ?_
    · intro u hu hi a v hv
      obtain ⟨hok, hk⟩ := h u hu hi a v hv
      exact ⟨hok, a, rfl, hk⟩
    · rintro e v ⟨a, ha, -⟩
      exact nomatch ha
    · rintro a v ⟨b, hb, hk⟩
      cases hb
      exact ih a hk

/-- The footprint of the implementations is the footprint of the program over them. -/
theorem All.interpret {P : S.Op → Prop} {P' : S'.Op → Prop} {p : Prog S ε α} (h : p.All P)
    (hf : ∀ o, P o → (f o).All P') : (p.interpret f).All P' := by
  induction p with
  | ret a => trivial
  | raise e => trivial
  | op o k ih => exact (hf o h.1).bind fun a => ih a (h.2 a)

end interpret

end Prog

end Conc
