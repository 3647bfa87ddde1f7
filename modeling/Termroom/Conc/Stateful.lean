import Termroom.Conc.Prog

/-!
# Sequential programs with a state and exceptions

A `Stateful σ ε α` is a method that runs alone on an object of type `σ`: it returns or raises,
and what it has done to the object by then stays done. This is what sets it apart from a
`StateT` over `Except`, which would roll the object back.

`Ends p s Q E` is its weakest precondition, with one postcondition for returning and one for
raising. `Keeps R p` is for relations that every step of a program preserves, so that only
the steps have to be looked at.
-/

set_option autoImplicit false

namespace Conc

def Stateful (σ ε α : Type) := σ → Except ε α × σ

namespace Stateful

variable {σ ε ε' α β : Type}

/-! ## 1. Sequencing and exceptions -/

instance : Monad (Stateful σ ε) where
  pure a := fun s => (.ok a, s)
  bind p f := fun s => onResult (fun a => f a (p s).2) (fun e => (.error e, (p s).2)) (p s).1

def get : Stateful σ ε σ := fun s => (.ok s, s)

def modify (f : σ → σ) : Stateful σ ε Unit := fun s => (.ok (), f s)

def raise (e : ε) : Stateful σ ε α := fun s => (.error e, s)

/-- Run `p` and hand its exception over as a value. -/
def attempt (p : Stateful σ ε α) : Stateful σ ε' (Except ε α) := fun s => (.ok (p s).1, (p s).2)

def ofExcept : Except ε α → Stateful σ ε α
  | .ok a => pure a
  | .error e => raise e

/-- `try p except (those caught): handler`. -/
def tryExcept (p : Stateful σ ε α) (caught : ε → Bool) (handler : Stateful σ ε α) :
    Stateful σ ε α := do
  match ← p.attempt with
  | .ok a => pure a
  | .error e => if caught e then handler else raise e

/-- `try p finally q`. -/
def finally_ (p : Stateful σ ε α) (q : Stateful σ ε Unit) : Stateful σ ε α := do
  let r ← p.attempt
  q
  ofExcept r

/-- `if c: p`. -/
def when (c : Prop) [Decidable c] (p : Stateful σ ε Unit) : Stateful σ ε Unit :=
  if c then p else pure ()

/-! ## 2. How a program ends -/

/-- From `s`, the program returns in `Q` or raises in `E`. -/
def Ends (p : Stateful σ ε α) (s : σ) (Q : α → σ → Prop) (E : ε → σ → Prop) : Prop :=
  onResult (fun a => Q a (p s).2) (fun e => E e (p s).2) (p s).1

section ends

variable {s : σ} {Q Q' : α → σ → Prop} {E E' : ε → σ → Prop} {p : Stateful σ ε α}

@[simp] theorem ends_pure {a : α} : (pure a : Stateful σ ε α).Ends s Q E ↔ Q a s := Iff.rfl

@[simp] theorem ends_get {Q : σ → σ → Prop} : (get : Stateful σ ε σ).Ends s Q E ↔ Q s s := Iff.rfl

@[simp] theorem ends_modify {f : σ → σ} {Q : Unit → σ → Prop} :
    (modify f : Stateful σ ε Unit).Ends s Q E ↔ Q () (f s) := Iff.rfl

@[simp] theorem ends_raise {e : ε} : (raise e : Stateful σ ε α).Ends s Q E ↔ E e s := Iff.rfl

@[simp] theorem ends_ofExcept {r : Except ε α} :
    (ofExcept r).Ends s Q E ↔ onResult (fun a => Q a s) (fun e => E e s) r := by
  cases r <;> exact Iff.rfl

@[simp] theorem ends_bind {f : α → Stateful σ ε β} {Q : β → σ → Prop} :
    (p >>= f).Ends s Q E ↔ p.Ends s (fun a t => (f a).Ends t Q E) E := by
  show onResult _ _ (onResult _ _ (p s).1 : Except ε β × σ).1 ↔ onResult _ _ (p s).1
  cases h : (p s).1 <;> simp [Ends, bind, h]

@[simp] theorem ends_attempt {Q : Except ε α → σ → Prop} {E : ε' → σ → Prop} :
    (p.attempt : Stateful σ ε' (Except ε α)).Ends s Q E ↔
      p.Ends s (fun a t => Q (.ok a) t) (fun e t => Q (.error e) t) := by
  unfold Ends attempt
  cases (p s).1 <;> exact Iff.rfl

@[simp] theorem ends_tryExcept {caught : ε → Bool} {handler : Stateful σ ε α} :
    (p.tryExcept caught handler).Ends s Q E ↔
      p.Ends s Q fun e t => if caught e then handler.Ends t Q E else E e t := by
  simp only [tryExcept, ends_bind, ends_attempt, ends_pure]
  unfold Ends
  cases (p s).1 with
  | ok a => exact Iff.rfl
  | error e =>
    simp only [onResult_error]
    split <;> exact Iff.rfl

@[simp] theorem ends_finally {q : Stateful σ ε Unit} :
    (p.finally_ q).Ends s Q E ↔
      p.Ends s (fun a t => q.Ends t (fun _ u => Q a u) E)
        (fun e t => q.Ends t (fun _ u => E e u) E) := by
  simp [finally_]

theorem ends_ite {c : Prop} [Decidable c] {p q : Stateful σ ε α} :
    (if c then p else q).Ends s Q E ↔ (c → p.Ends s Q E) ∧ (¬ c → q.Ends s Q E) := by
  split <;> simp [*]

theorem ends_when {c : Prop} [Decidable c] {p : Stateful σ ε Unit} {Q : Unit → σ → Prop} :
    (when c p).Ends s Q E ↔ (c → p.Ends s Q E) ∧ (¬ c → Q () s) := ends_ite

theorem Ends.mono (h : p.Ends s Q E) (hQ : ∀ a t, Q a t → Q' a t) (hE : ∀ e t, E e t → E' e t) :
    p.Ends s Q' E' := by
  unfold Ends at h ⊢
  cases hp : (p s).1 with
  | ok a =>
    rw [hp] at h
    exact hQ a _ h
  | error e =>
    rw [hp] at h
    exact hE e _ h

/-- What holds however the program ends. -/
theorem Ends.of_forall (hQ : ∀ a t, Q a t) (hE : ∀ e t, E e t) : p.Ends s Q E := by
  unfold Ends
  cases (p s).1 with
  | ok a => exact hQ a _
  | error e => exact hE e _

theorem Ends.and (h : p.Ends s Q E) (h' : p.Ends s Q' E') :
    p.Ends s (fun a t => Q a t ∧ Q' a t) (fun e t => E e t ∧ E' e t) := by
  unfold Ends at h h' ⊢
  cases hp : (p s).1 with
  | ok a =>
    rw [hp] at h h'
    exact ⟨h, h'⟩
  | error e =>
    rw [hp] at h h'
    exact ⟨h, h'⟩

/-- What a run did, from how the program ends. -/
theorem Ends.returned {a : α} {t : σ} (h : p.Ends s Q E) (run : p s = (.ok a, t)) : Q a t := by
  unfold Ends at h
  rw [run] at h
  exact h

theorem Ends.raised {e : ε} {t : σ} (h : p.Ends s Q E) (run : p s = (.error e, t)) : E e t := by
  unfold Ends at h
  rw [run] at h
  exact h

end ends

/-! ## 3. What every step keeps -/

/-- However it ends, the program leads from a state to one related to it. -/
def Keeps (R : σ → σ → Prop) (p : Stateful σ ε α) : Prop :=
  ∀ s, p.Ends s (fun _ t => R s t) (fun _ t => R s t)

section keeps

variable {R : σ → σ → Prop} {p : Stateful σ ε α}

theorem Keeps.pure (refl : ∀ s, R s s) (a : α) : Keeps R (Pure.pure a : Stateful σ ε α) := refl

theorem Keeps.get (refl : ∀ s, R s s) : Keeps R (get : Stateful σ ε σ) := refl

theorem Keeps.raise (refl : ∀ s, R s s) (e : ε) : Keeps R (raise e : Stateful σ ε α) := refl

theorem Keeps.modify {f : σ → σ} (h : ∀ s, R s (f s)) :
    Keeps R (modify f : Stateful σ ε Unit) := h

theorem Keeps.bind (trans : ∀ s t u, R s t → R t u → R s u) {f : α → Stateful σ ε β}
    (hp : Keeps R p) (hf : ∀ a, Keeps R (f a)) : Keeps R (p >>= f) := by
  intro s
  rw [ends_bind]
  apply (hp s).mono
  · intro a t hst
    exact (hf a t).mono (fun _ _ => trans _ _ _ hst) (fun _ _ => trans _ _ _ hst)
  · exact fun _ _ => id

theorem Keeps.attempt (hp : Keeps R p) :
    Keeps R (p.attempt : Stateful σ ε' (Except ε α)) := by
  intro s
  rw [ends_attempt]
  exact hp s

theorem Keeps.ofExcept (refl : ∀ s, R s s) (r : Except ε α) :
    Keeps R (ofExcept r : Stateful σ ε α) := by
  intro s
  cases r <;> exact refl s

theorem Keeps.tryExcept (refl : ∀ s, R s s) (trans : ∀ s t u, R s t → R t u → R s u)
    {caught : ε → Bool} {handler : Stateful σ ε α} (hp : Keeps R p) (hh : Keeps R handler) :
    Keeps R (p.tryExcept caught handler) := by
  apply Keeps.bind trans hp.attempt
  intro r
  cases r with
  | ok a => exact .pure refl a
  | error e =>
    show Keeps R (if caught e then handler else Stateful.raise e)
    split
    · exact hh
    · exact .raise refl e

theorem Keeps.finally_ (refl : ∀ s, R s s) (trans : ∀ s t u, R s t → R t u → R s u)
    {q : Stateful σ ε Unit} (hp : Keeps R p) (hq : Keeps R q) : Keeps R (p.finally_ q) :=
  .bind trans hp.attempt fun r => .bind trans hq fun _ => .ofExcept refl r

theorem Keeps.ite {c : Prop} [Decidable c] {p q : Stateful σ ε α} (hp : Keeps R p)
    (hq : Keeps R q) : Keeps R (if c then p else q) := by
  split
  · exact hp
  · exact hq

theorem Keeps.when (refl : ∀ s, R s s) {c : Prop} [Decidable c] {p : Stateful σ ε Unit}
    (hp : Keeps R p) : Keeps R (when c p) := .ite hp (.pure refl ())

end keeps

end Stateful

end Conc
