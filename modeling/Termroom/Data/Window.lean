import Mathlib

/-!
# Sliding windows

How often something may be done in a span of time: for each key, the times at which it was allowed
are kept in a queue, and are dropped when they are stale. What is allowed may also clear the queue
of its key, as a success does.

When a time is stale is a parameter, so that an age may be measured with rounding; it only has to
stay stale (`Aging`). As long as time does not go back, the times of a key since it was cleared
never exceed its limit in any stretch of time in which nothing gets stale (`attempts_limit`), and
an attempt is only refused where as many of them are not stale (`attempts_refused`).
-/

set_option autoImplicit false

namespace Data.Window

/-! ## 1. One queue -/

section queue

variable {T : Type} [LinearOrder T] (stale : T → T → Bool)

/-- The queue without the first times of it that are stale now. -/
def expire (now : T) (queue : List T) : List T := queue.dropWhile (stale now)

/-- Whether an attempt is allowed, and the queue with it. -/
def enter (limit : Nat) (now : T) (queue : List T) : Bool × List T :=
  let queue := expire stale now queue
  if limit ≤ queue.length then (false, queue) else (true, queue ++ [now])

/-- What is stale is so later as well, and what was before it with it. -/
def Aging : Prop :=
  ∀ t t' now now', t' ≤ t → now ≤ now' → stale now t = true → stale now' t' = true

/-- A stretch of time in which nothing gets stale. -/
def Stretch (within : T → Bool) : Prop :=
  ∀ t now, within t = true → within now = true → t ≤ now → stale now t = false

/-- The times that are not stale now. -/
def fresh (now : T) (times : List T) : List T := times.filter fun t => !stale now t

variable {stale} {now t : T} {queue times : List T} {within : T → Bool}

/-- What has expired is in no stretch of time with the present. -/
theorem within_expired (h : ∀ t ∈ times, stale now t = true) (past : ∀ t ∈ times, t ≤ now)
    (stretch : Stretch stale within) (hnow : within now = true) : times.filter within = [] := by
  rw [List.filter_eq_nil_iff]
  intro t ht hwithin
  have := stretch t now hwithin hnow (past t ht)
  rw [h t ht] at this
  cases this

/-- What is left of a queue is not stale. -/
theorem expire_fresh (aging : Aging stale) (sorted : queue.Pairwise (· ≤ ·)) :
    fresh stale now (expire stale now queue) = expire stale now queue := by
  unfold fresh
  rw [List.filter_eq_self]
  intro t ht
  induction queue with
  | nil => cases ht
  | cons first queue ih =>
    obtain ⟨hfirst, hqueue⟩ := List.pairwise_cons.mp sorted
    unfold expire at ht
    rw [List.dropWhile_cons] at ht
    split_ifs at ht with hold
    · exact ih hqueue ht
    · have hle : first ≤ t := by
        rcases List.mem_cons.mp ht with rfl | h
        · exact le_rfl
        · exact hfirst t h
      rw [Bool.not_eq_true', Bool.eq_false_iff]
      intro hstale
      exact hold (aging t first now now hle le_rfl hstale)

variable (stale) in
/-- A queue holds those of the times that have not expired, and they are within the limit. -/
structure Holds (limit : Nat) (times : List T) (latest : T) (queue : List T) : Prop where
  queued : ∃ expired, times = expired ++ queue ∧ ∀ t ∈ expired, stale latest t = true
  sorted : times.Pairwise (· ≤ ·)
  past : ∀ t ∈ times, t ≤ latest
  limited : ∀ within, Stretch stale within → (times.filter within).length ≤ limit

variable {limit : Nat} {latest : T}

theorem Holds.nil : Holds stale limit [] now [] where
  queued := ⟨[], rfl, by simp⟩
  sorted := .nil
  past := by simp
  limited _ _ := Nat.zero_le _

theorem Holds.later (aging : Aging stale) (h : Holds stale limit times latest queue)
    (hnow : latest ≤ now) : Holds stale limit times now queue where
  queued := by
    obtain ⟨expired, htimes, hexpired⟩ := h.queued
    exact ⟨expired, htimes, fun t ht => aging t t latest now le_rfl hnow (hexpired t ht)⟩
  sorted := h.sorted
  past t ht := (h.past t ht).trans hnow
  limited := h.limited

theorem Holds.expire (h : Holds stale limit times now queue) :
    Holds stale limit times now (expire stale now queue) where
  queued := by
    obtain ⟨expired, htimes, hexpired⟩ := h.queued
    refine ⟨expired ++ queue.takeWhile (stale now), ?_, ?_⟩
    · rw [htimes, List.append_assoc]
      exact congrArg _ List.takeWhile_append_dropWhile.symm
    · intro t ht
      rcases List.mem_append.mp ht with ht | ht
      · exact hexpired t ht
      · exact List.mem_takeWhile_imp ht
  sorted := h.sorted
  past := h.past
  limited := h.limited

/-- **An attempt is refused** only where as many times as the limit are not stale. -/
theorem Holds.full (aging : Aging stale) (h : Holds stale limit times now queue)
    (hfull : limit ≤ (Window.expire stale now queue).length) :
    limit ≤ (fresh stale now times).length := by
  have sorted : queue.Pairwise (· ≤ ·) := by
    obtain ⟨expired, htimes, -⟩ := h.queued
    have := h.sorted
    rw [htimes] at this
    exact (List.pairwise_append.mp this).2.1
  obtain ⟨expired, htimes, -⟩ := h.expire.queued
  have hsplit : fresh stale now times =
      fresh stale now expired ++ Window.expire stale now queue := by
    rw [← expire_fresh aging sorted, htimes]
    exact List.filter_append _ _
  rw [hsplit, List.length_append]
  omega

/-- **An attempt is allowed** only where every stretch of time has room for it. -/
theorem Holds.enter (h : Holds stale limit times now queue)
    (hroom : ¬limit ≤ (Window.expire stale now queue).length) :
    Holds stale limit (times ++ [now]) now (Window.expire stale now queue ++ [now]) where
  queued := by
    obtain ⟨expired, htimes, hexpired⟩ := h.expire.queued
    exact ⟨expired, by rw [← List.append_assoc, ← htimes], hexpired⟩
  sorted := by
    refine List.pairwise_append.mpr ⟨h.sorted, List.pairwise_singleton _ _, ?_⟩
    intro t ht t' ht'
    rw [List.mem_singleton.mp ht']
    exact h.past t ht
  past := by
    intro t ht
    rcases List.mem_append.mp ht with ht | ht
    · exact h.past t ht
    · exact (List.mem_singleton.mp ht).le
  limited := by
    intro within stretch
    rw [List.filter_append, List.length_append]
    by_cases hnow : within now = true
    · obtain ⟨expired, htimes, hexpired⟩ := h.expire.queued
      have past : ∀ t ∈ expired, t ≤ now := fun t ht =>
        h.past t (htimes ▸ List.mem_append_left _ ht)
      rw [htimes, List.filter_append, within_expired hexpired past stretch hnow, List.nil_append]
      have hqueue := List.length_filter_le within (Window.expire stale now queue)
      have hone := List.length_filter_le within [now]
      rw [List.length_singleton] at hone
      omega
    · have hnone : [now].filter within = [] := by simp [hnow]
      rw [hnone]
      exact h.limited within stretch

end queue

/-! ## 2. Attempts by any keys -/

structure Attempt (κ T : Type) where
  key : κ
  now : T
  /-- An attempt that clears the queue of its key, if it is allowed. -/
  clears : Bool

/-- The attempts so far, and whether each was allowed. -/
abbrev Log (κ T : Type) := List (Attempt κ T × Bool)

section keys

variable {κ T : Type} [DecidableEq κ] [LinearOrder T] (stale : T → T → Bool)

/-- The queues after an attempt. -/
def attempt (limit : κ → Nat) (queues : κ → List T) (a : Attempt κ T) :
    Bool × (κ → List T) :=
  let (allowed, queue) := enter stale (limit a.key) a.now (queues a.key)
  (allowed, Function.update queues a.key (if allowed ∧ a.clears then [] else queue))

/-- The attempts in turn. -/
def attempts (limit : κ → Nat) (queues : κ → List T) :
    List (Attempt κ T) → Log κ T
  | [] => []
  | a :: later =>
    let (allowed, queues) := attempt stale limit queues a
    (a, allowed) :: attempts limit queues later

/-- What one more attempt does to the times of a key. -/
def since1 (key : κ) (times : List T) (entry : Attempt κ T × Bool) : List T :=
  if entry.1.key = key ∧ entry.2 then if entry.1.clears then [] else times ++ [entry.1.now]
  else times

/-- **The times of a key**: when it was allowed since it was last cleared. -/
def since (key : κ) (log : Log κ T) : List T := log.foldl (since1 key) []

variable {stale} {limit : κ → Nat} {latest : T} {log : Log κ T} {queues : κ → List T}
  {a : Attempt κ T} {key : κ} {allowed : Bool}

omit [LinearOrder T] in
theorem since_snoc :
    since key (log ++ [(a, allowed)]) = since1 key (since key log) (a, allowed) := by
  unfold since
  rw [List.foldl_append]
  rfl

variable (stale) in
/-- Each queue holds the times of its key. -/
def Inv (limit : κ → Nat) (log : Log κ T) (latest : T) (queues : κ → List T) : Prop :=
  ∀ key, Holds stale (limit key) (since key log) latest (queues key)

/-- What one attempt preserves. -/
theorem Inv.attempt (h : Inv stale limit log a.now queues) :
    Inv stale limit (log ++ [(a, (attempt stale limit queues a).1)]) a.now
      (attempt stale limit queues a).2 := by
  intro key
  have hkey := h key
  unfold Window.attempt
  rw [since_snoc]
  dsimp only
  by_cases heq : a.key = key
  · subst heq
    rw [Function.update_self]
    unfold enter
    dsimp only
    split_ifs with hfull hclears hclears
    · simp at hclears
    · simpa [since1] using hkey.expire
    · have hclears : a.clears = true := by simpa using hclears
      simpa [since1, hclears] using Holds.nil
    · have hclears : a.clears = false := by simpa using hclears
      simpa [since1, hclears] using hkey.enter hfull
  · rw [Function.update_of_ne fun h => heq h.symm]
    simpa [since1, heq] using hkey

omit [LinearOrder T] in
theorem attempts_cons {later : List (Attempt κ T)} :
    attempts stale limit queues (a :: later) = (a, (attempt stale limit queues a).1) ::
      attempts stale limit (attempt stale limit queues a).2 later := rfl

theorem Inv.refused (aging : Aging stale) (h : Inv stale limit log a.now queues)
    (hrefused : (Window.attempt stale limit queues a).1 = false) :
    limit a.key ≤ (fresh stale a.now (since a.key log)).length := by
  apply (h a.key).full aging
  by_contra hroom
  have : (Window.attempt stale limit queues a).1 = true := by
    unfold Window.attempt enter
    dsimp only
    rw [if_neg hroom]
  rw [this] at hrefused
  cases hrefused

/-- What a run preserves, at each of its entries. -/
theorem attempts_inv {later : List (Attempt κ T)} (aging : Aging stale)
    (h : Inv stale limit log latest queues)
    (sorted : later.Pairwise fun a b => a.now ≤ b.now) (hlatest : ∀ a ∈ later, latest ≤ a.now)
    {before after : Log κ T} {entry : Attempt κ T × Bool}
    (hrun : attempts stale limit queues later = before ++ entry :: after) :
    (∀ key within, Stretch stale within →
      ((since key (log ++ (before ++ [entry]))).filter within).length ≤ limit key) ∧
    (entry.2 = false → limit entry.1.key ≤
      (fresh stale entry.1.now (since entry.1.key (log ++ before))).length) := by
  induction later generalizing log latest queues before with
  | nil => exact absurd hrun (by simp [attempts])
  | cons a later ih =>
    obtain ⟨ha, hlater⟩ := List.pairwise_cons.mp sorted
    have hnow : Inv stale limit log a.now queues := fun key =>
      (h key).later aging (hlatest a List.mem_cons_self)
    rw [attempts_cons] at hrun
    cases before with
    | nil =>
      obtain ⟨rfl, -⟩ := List.cons.inj hrun
      rw [List.append_nil]
      exact ⟨fun key => (hnow.attempt key).limited, hnow.refused aging⟩
    | cons first before =>
      obtain ⟨rfl, hrest⟩ := List.cons.inj hrun
      have := ih hnow.attempt hlater ha hrest
      rw [List.append_assoc, List.append_assoc] at this
      exact this

/-- A run from empty queues. -/
theorem attempts_run {run : List (Attempt κ T)} (aging : Aging stale)
    (sorted : run.Pairwise fun a b => a.now ≤ b.now)
    {before after : Log κ T} {entry : Attempt κ T × Bool}
    (hrun : attempts stale limit (fun _ => []) run = before ++ entry :: after) :
    (∀ key within, Stretch stale within →
      ((since key (before ++ [entry])).filter within).length ≤ limit key) ∧
    (entry.2 = false → limit entry.1.key ≤
      (fresh stale entry.1.now (since entry.1.key before)).length) := by
  cases run with
  | nil => exact absurd hrun (by simp [attempts])
  | cons a run =>
    have start : Inv stale limit [] a.now fun _ => [] := fun _ => .nil
    apply attempts_inv aging start sorted ?_ hrun
    intro b hb
    rcases List.mem_cons.mp hb with rfl | hb
    · exact le_rfl
    · exact (List.pairwise_cons.mp sorted).1 b hb

/-- **The limit of a key is kept** in every stretch of time in which nothing gets stale, at each
    point of a run. -/
theorem attempts_limit {run : List (Attempt κ T)} (aging : Aging stale)
    (sorted : run.Pairwise fun a b => a.now ≤ b.now) {before after : Log κ T}
    (hrun : attempts stale limit (fun _ => []) run = before ++ after) (key : κ)
    {within : T → Bool} (stretch : Stretch stale within) :
    ((since key before).filter within).length ≤ limit key := by
  rcases List.eq_nil_or_concat' before with rfl | ⟨before, entry, rfl⟩
  · exact Nat.zero_le _
  · rw [List.append_assoc] at hrun
    exact (attempts_run aging sorted hrun).1 key within stretch

/-- **An attempt is refused** where as many times as the limit of its key are not stale. -/
theorem attempts_refused {run : List (Attempt κ T)} (aging : Aging stale)
    (sorted : run.Pairwise fun a b => a.now ≤ b.now) {before after : Log κ T}
    (hrun : attempts stale limit (fun _ => []) run = before ++ (a, false) :: after) :
    limit a.key ≤ (fresh stale a.now (since a.key before)).length :=
  (attempts_run aging sorted hrun).2 rfl

end keys

end Data.Window
