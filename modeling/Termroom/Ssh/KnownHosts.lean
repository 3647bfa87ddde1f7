import Mathlib
import Termroom.Conc.Pool
import Termroom.Terminal.CommandRecords

/-!
# The host keys that `ssh` knows

`known_hosts` has a row for each computer. A call that remembers or forgets one reads the whole
file, writes it anew under one temporary name and puts it in place: what another call has put there
in between is lost, and the temporary file may be gone when it is to be moved. **Where no call
reads while another one is between its read and its replace, nothing is lost**
(`hosts_kept_apart`).
-/

set_option autoImplicit false

namespace Termroom.Ssh.KnownHosts

open Conc Terminal

/-! ## 1. The rows of the file -/

/-- An id in a row of the file. -/
structure ComputerId where
  text : List Char
  plain : ∀ c ∈ text, c ≠ ' ' ∧ breaksLines c = false
  deriving DecidableEq

/-- A computer with the key that its server has shown. -/
structure Computer where
  id : ComputerId
  hostKeyType : List Char
  hostKeyData : List Char
  key_unbroken : ∀ c ∈ hostKeyType ++ hostKeyData, breaksLines c = false

/-- `str.splitlines`. -/
def splitlines : List Char → List (List Char)
  | [] => []
  | '\r' :: '\n' :: text => [] :: splitlines text
  | c :: text =>
    if breaksLines c then [] :: splitlines text
    else
      match splitlines text with
      | [] => [[c]]
      | row :: rows => (c :: row) :: rows

def hostAlias (id : ComputerId) : List Char := "termroom-".toList ++ id.text

/-- `row.startswith(alias + " ")`. -/
def isRow (id : ComputerId) (row : List Char) : Bool := (hostAlias id ++ [' ']).isPrefixOf row

def Computer.line (computer : Computer) : List Char :=
  hostAlias computer.id ++ ' ' :: computer.hostKeyType ++ ' ' :: computer.hostKeyData ++ ['\n']

def filtered (existing : List Char) (id : ComputerId) : List (List Char) :=
  (splitlines existing).filter fun row => !isRow id row

/-- What `remember_host_key` writes. -/
def rememberBody (existing : List Char) (computer : Computer) : List Char :=
  ['\n'].intercalate
    (filtered existing computer.id ++ [computer.line.rdropWhile (· = '\n')]) ++ ['\n']

/-- What `forget_host_key` writes. -/
def forgetBody (existing : List Char) (id : ComputerId) : List Char :=
  let body := ['\n'].intercalate (filtered existing id)
  body ++ if body = [] then [] else ['\n']

/-- The rows in a text; a blank line is none. -/
def hostRows (text : List Char) : List (List Char) := (splitlines text).filter (· ≠ [])

/-- The rows of one computer. -/
def rowsOf (id : ComputerId) (text : List Char) : List (List Char) :=
  (hostRows text).filter fun row => isRow id row

/-- The row that a computer is remembered by. -/
def Computer.row (computer : Computer) : List Char :=
  hostAlias computer.id ++ ' ' :: computer.hostKeyType ++ ' ' :: computer.hostKeyData

/-! ## 2. What is written is read back -/

section texts

variable {text row rest : List Char} {rows : List (List Char)} {id id' : ComputerId}
  {computer : Computer} {c : Char}

theorem splitlines_cons (h : breaksLines c = false) :
    splitlines (c :: text) = match splitlines text with
      | [] => [[c]]
      | row :: rows => (c :: row) :: rows := by
  have hc : c ≠ '\r' := by
    rintro rfl
    exact absurd h (by decide)
  rw [splitlines]
  · rw [if_neg (by simp [h])]
  · intro text' h'
    exact absurd h' hc

theorem splitlines_row (h : ∀ c ∈ row, breaksLines c = false) :
    splitlines (row ++ '\n' :: rest) = row :: splitlines rest := by
  induction row with
  | nil => rfl
  | cons c row ih =>
    obtain ⟨hc, hrow⟩ := List.forall_mem_cons.mp h
    rw [List.cons_append, splitlines_cons hc, ih hrow]

theorem splitlines_joined (h : ∀ row ∈ rows, ∀ c ∈ row, breaksLines c = false)
    (hne : rows ≠ []) : splitlines (['\n'].intercalate rows ++ ['\n']) = rows := by
  induction rows with
  | nil => exact absurd rfl hne
  | cons row rows ih =>
    obtain ⟨hrow, hrows⟩ := List.forall_mem_cons.mp h
    cases rows with
    | nil =>
      rw [List.intercalate_singleton]
      exact splitlines_row hrow
    | cons next rows =>
      rw [List.intercalate_cons_of_ne_nil (List.cons_ne_nil _ _), List.append_assoc,
        List.append_assoc, List.singleton_append, splitlines_row hrow,
        ih hrows (List.cons_ne_nil _ _)]

theorem unbroken_of_mem_splitlines (h : row ∈ splitlines text) :
    ∀ c ∈ row, breaksLines c = false := by
  induction text using splitlines.induct generalizing row with
  | case1 => exact absurd h List.not_mem_nil
  | case2 text ih =>
    rcases List.mem_cons.mp h with rfl | h
    · simp
    · exact ih h
  | case3 c text hcr hc ih =>
    rw [splitlines, if_pos hc] at h
    · rcases List.mem_cons.mp h with rfl | h
      · simp
      · exact ih h
    · exact hcr
  | case4 c text hcr hc hnil ih =>
    rw [splitlines_cons (by simpa using hc), hnil] at h
    obtain rfl := List.mem_singleton.mp h
    simpa using hc
  | case5 c text hcr hc first rows hcons ih =>
    rw [splitlines_cons (by simpa using hc), hcons] at h
    rcases List.mem_cons.mp h with rfl | h
    · intro d hd
      rcases List.mem_cons.mp hd with rfl | hd
      · simpa using hc
      · exact ih (hcons ▸ List.mem_cons_self) d hd
    · exact ih (hcons ▸ List.mem_cons_of_mem _ h)

theorem unbroken_of_mem_filtered (h : row ∈ filtered text id) :
    ∀ c ∈ row, breaksLines c = false :=
  unbroken_of_mem_splitlines (List.mem_of_mem_filter h)

theorem row_unbroken (computer : Computer) : ∀ c ∈ computer.row, breaksLines c = false := by
  have hname : "termroom-".toList.all (fun c => !breaksLines c) = true := by decide
  have hspace : breaksLines ' ' = false := by decide
  intro c hc
  unfold Computer.row hostAlias at hc
  simp only [List.append_assoc, List.cons_append, List.mem_append, List.mem_cons] at hc
  rcases hc with hc | hc | rfl | hc | rfl | hc
  · simpa using List.all_eq_true.mp hname c hc
  · exact (computer.id.plain c hc).2
  · exact hspace
  · exact computer.key_unbroken c (List.mem_append_left _ hc)
  · exact hspace
  · exact computer.key_unbroken c (List.mem_append_right _ hc)

/-- `line.rstrip("\n")` takes the line feed off and nothing else. -/
theorem rstrip_line (computer : Computer) :
    computer.line.rdropWhile (· = '\n') = computer.row := by
  have hline : computer.line = computer.row ++ ['\n'] := rfl
  rw [hline, List.rdropWhile_concat_pos _ _ _ (by simp), List.rdropWhile_eq_self_iff]
  intro hne hlast
  have hunbroken := row_unbroken computer _ (List.getLast_mem hne)
  rw [of_decide_eq_true hlast] at hunbroken
  exact absurd hunbroken (by decide)

theorem isRow_row (computer : Computer) : isRow computer.id computer.row = true := by
  unfold isRow Computer.row
  rw [ List.isPrefixOf_iff_prefix]
  exact ⟨computer.hostKeyType ++ ' ' :: computer.hostKeyData, by simp⟩

theorem row_ne_nil (computer : Computer) : computer.row ≠ [] := by
  simp [Computer.row]

/-- The alias of a row is what stands in front of its first blank. -/
theorem takeWhile_of_isRow (h : isRow id row = true) :
    row.takeWhile (· ≠ ' ') = hostAlias id := by
  obtain ⟨rest, rfl⟩ := List.isPrefixOf_iff_prefix.mp h
  have hname : "termroom-".toList.all (fun c => c ≠ ' ') = true := by decide
  have plain : ∀ c ∈ hostAlias id, decide (c ≠ ' ') = true := by
    intro c hc
    rcases List.mem_append.mp hc with hc | hc
    · exact List.all_eq_true.mp hname c hc
    · exact decide_eq_true (id.plain c hc).1
  rw [List.append_assoc, List.takeWhile_append_of_pos plain]
  simp

theorem isRow_unique (h : isRow id row = true) (h' : isRow id' row = true) : id = id' := by
  have same := (takeWhile_of_isRow h).symm.trans (takeWhile_of_isRow h')
  obtain ⟨text, _⟩ := id
  obtain ⟨text', _⟩ := id'
  obtain rfl : text = text' := List.append_cancel_left same
  rfl

theorem hostRows_filtered : (filtered text id).filter (· ≠ []) =
    (hostRows text).filter fun row => !isRow id row := by
  unfold filtered hostRows
  rw [List.filter_filter, List.filter_filter]
  exact List.filter_congr fun row _ => Bool.and_comm _ _

theorem hostRows_rememberBody : hostRows (rememberBody text computer) =
    (hostRows text).filter (fun row => !isRow computer.id row) ++ [computer.row] := by
  have hlines : ∀ row ∈ filtered text computer.id ++ [computer.row],
      ∀ c ∈ row, breaksLines c = false := by
    intro row hrow
    rcases List.mem_append.mp hrow with hrow | hrow
    · exact unbroken_of_mem_filtered hrow
    · rw [List.mem_singleton.mp hrow]
      exact row_unbroken computer
  rw [rememberBody, rstrip_line, hostRows, splitlines_joined hlines (by simp),
    List.filter_append, hostRows_filtered]
  simp [row_ne_nil]

/-- Where nothing is left the file is empty, so that one blank line is left out too. -/
theorem hostRows_forgetBody : hostRows (forgetBody text id) =
    (hostRows text).filter fun row => !isRow id row := by
  rw [← hostRows_filtered]
  unfold forgetBody
  by_cases hbody : ['\n'].intercalate (filtered text id) = []
  · simp only [hbody, if_true, List.append_nil]
    cases hrows : filtered text id with
    | nil => rfl
    | cons row rows =>
      rw [hrows] at hbody
      cases rows with
      | nil =>
        rw [List.intercalate_singleton] at hbody
        simp [hbody, hostRows, splitlines]
      | cons next rows =>
        rw [List.intercalate_cons_of_ne_nil (List.cons_ne_nil _ _)] at hbody
        simp at hbody
  · simp only [hbody, if_false]
    have hne : filtered text id ≠ [] := by
      intro h
      exact hbody (h ▸ rfl)
    rw [hostRows, splitlines_joined (fun row h => unbroken_of_mem_filtered h) hne]

end texts

/-! ## 3. The calls -/

inductive HostCall where
  | remember (computer : Computer)
  | forget (id : ComputerId)

def HostCall.id : HostCall → ComputerId
  | remember computer => computer.id
  | forget id => id

/-- The rows that a call leaves of its computer. -/
def HostCall.rows : HostCall → List (List Char)
  | remember computer => [computer.row]
  | forget _ => []

/-- `FileNotFoundError`. -/
inductive HostError where
  | notFound
  deriving DecidableEq

inductive HostOp where
  | «exists»
  | readText
  | writeText (body : List Char)
  | chmod
  | replace

def HostOp.Ans : HostOp → Type
  | «exists» => Bool
  | writeText _ => Unit
  | readText => Except HostError (List Char)
  | chmod | replace => Except HostError Unit

abbrev HostSig : Sig := ⟨HostOp, HostOp.Ans⟩

abbrev HostProg := Prog HostSig HostError

def fileExists : HostProg Bool := Prog.perform (S := HostSig) .exists

def readText : HostProg (List Char) := do
  let answer ← Prog.perform (S := HostSig) .readText
  Prog.ofExcept answer

/-- The temporary file is written, and moved into place. -/
def install (body : List Char) : HostProg Unit := do
  Prog.perform (S := HostSig) (.writeText body)
  let changed ← Prog.perform (S := HostSig) .chmod
  Prog.ofExcept changed
  let replaced ← Prog.perform (S := HostSig) .replace
  Prog.ofExcept replaced

def existingText : HostProg (List Char) := do
  if ← fileExists then readText
  else return []

/-- `SSHBackend.remember_host_key`. -/
def rememberHostKey (computer : Computer) : HostProg Unit := do
  let existing ← existingText
  install (rememberBody existing computer)

/-- `SSHBackend.forget_host_key`, after it has closed the connections. -/
def forgetHostKey (id : ComputerId) : HostProg Unit := do
  if ← fileExists then
    let existing ← readText
    install (forgetBody existing id)
  else return ()

def HostCall.body : HostCall → HostProg Unit
  | remember computer => rememberHostKey computer
  | forget id => forgetHostKey id

/-! ## 4. The directory -/

/-- `known_hosts`, as `read_text` gives it, and `known_hosts.tmp`. Of the calls the system remembers
    which thread makes them and, until its replace, what it goes by. -/
structure HostsWorld where
  file : Option (List Char)
  temporary : Option (List Char)
  calls : List (Nat × HostCall)
  seen : Nat → Option (List Char)

def HostsWorld.init (file : Option (List Char)) : HostsWorld := ⟨file, none, [], fun _ => none⟩

def HostsWorld.text (u : HostsWorld) : List Char := u.file.getD []

def HostsWorld.see (u : HostsWorld) (t : Nat) (text : Option (List Char)) : HostsWorld :=
  { u with seen := Function.update u.seen t text }

/-- The call goes by what this operation answers. -/
def HostOp.opens (l : HostCall) (u : HostsWorld) : HostOp → Bool
  | «exists» =>
    match l with
    | .remember _ => u.file.isNone
    | .forget _ => false
  | readText => true
  | writeText _ | chmod | replace => false

def HostOp.run (t : Nat) (l : HostCall) : (o : HostOp) → HostsWorld → o.Ans × HostsWorld
  | «exists», u =>
    (u.file.isSome, if HostOp.opens l u .exists = true then u.see t (some []) else u)
  | readText, u =>
    match u.file with
    | some text => (.ok text, u.see t (some text))
    | none => (.error .notFound, u)
  | writeText body, u => ((), { u with temporary := some body })
  | chmod, u => (if u.temporary.isSome then .ok () else .error .notFound, u)
  | replace, u =>
    match u.temporary with
    | some body => (.ok (), { u.see t none with file := some body, temporary := none })
    | none => (.error .notFound, u)

/-- Calls for different computers, each on a thread of its own. -/
abbrev hostSystem : System HostSig HostError where
  World := HostsWorld
  Label := HostCall
  Ret := fun _ => Unit
  body := HostCall.body
  step := fun t l o a u v => o.run t l u = (a, v)
  start := fun t l u v =>
    (∀ c ∈ u.calls, c.2.id ≠ l.id) ∧ v = { u.see t none with calls := u.calls ++ [(t, l)] }
  env := fun _ _ => False

/-- No other call is between its read and its replace. -/
def Apart (t : Nat) (u : HostsWorld) : Prop := ∀ c ∈ u.calls, c.1 ≠ t → u.seen c.1 = none

/-- The calls that read only where no other one is between its read and its replace. -/
abbrev apartSystem : System HostSig HostError :=
  hostSystem.restrict fun t l o _ u _ => o.opens l u = true → Apart t u

/-- The rows that are none of these calls'. -/
def otherRows (calls : List HostCall) (text : List Char) : List (List Char) :=
  (hostRows text).filter fun row => calls.all fun l => !isRow l.id row

/-- **Nothing is lost**: no call fails, the computer of one that has returned has its row or
    none, and the rows of all other computers are as they were. -/
structure HostsKept (base : List Char) (text : List Char)
    (threads : List (HostCall × HostProg Unit)) : Prop where
  unfailed : ∀ thread ∈ threads, ∀ e, thread.2 ≠ .raise e
  done : ∀ thread ∈ threads, thread.2 = .ret () → rowsOf thread.1.id text = thread.1.rows
  others : otherRows (threads.map Prod.fst) text = otherRows (threads.map Prod.fst) base

/-! ## 5. One operation -/

/-- The computers of the calls differ, and no two calls are between read and replace. -/
structure HostsInv (base : List Char) (u : HostsWorld) : Prop where
  distinct : ∀ c ∈ u.calls, ∀ d ∈ u.calls, c.1 ≠ d.1 → c.2.id ≠ d.2.id
  single : ∀ c ∈ u.calls, u.seen c.1 ≠ none → Apart c.1 u
  others : otherRows (u.calls.map Prod.snd) u.text = otherRows (u.calls.map Prod.snd) base

/-- What a call relies on. -/
structure Relied (t : Nat) (l : HostCall) (u v : HostsWorld) : Prop where
  called : (t, l) ∈ v.calls
  rows : rowsOf l.id v.text = rowsOf l.id u.text
  seen : v.seen t = u.seen t
  still : u.seen t ≠ none → v.file = u.file ∧ v.temporary = u.temporary
  kept : u.file.isSome = true → v.file.isSome = true

def HostRely (t : Nat) (l : HostCall) (u v : HostsWorld) : Prop :=
  (t, l) ∈ u.calls → Relied t l u v

section step

variable {base text : List Char} {t : Nat} {l : HostCall} {u v : HostsWorld}

theorem HostRely.refl (t : Nat) (l : HostCall) (u : HostsWorld) : HostRely t l u u :=
  fun called => ⟨called, rfl, rfl, fun _ => ⟨rfl, rfl⟩, fun h => h⟩

theorem HostRely.trans {w : HostsWorld} (h : HostRely t l u v) (h' : HostRely t l v w) :
    HostRely t l u w := by
  intro called
  have first := h called
  have second := h' first.called
  refine ⟨second.called, second.rows.trans first.rows, second.seen.trans first.seen, ?_, ?_⟩
  · intro seen
    obtain ⟨hfile, htemporary⟩ := first.still seen
    obtain ⟨hfile', htemporary'⟩ := second.still (first.seen ▸ seen)
    exact ⟨hfile'.trans hfile, htemporary'.trans htemporary⟩
  · intro hfile
    exact second.kept (first.kept hfile)

/-- The rows of other computers are left as they are. -/
def Leaves (id : ComputerId) (text text' : List Char) : Prop :=
  (hostRows text').filter (fun row => !isRow id row) =
    (hostRows text).filter fun row => !isRow id row

theorem Leaves.filter {id : ComputerId} {text' : List Char} (h : Leaves id text text')
    {p : List Char → Bool} (hp : ∀ row, isRow id row = true → p row = false) :
    (hostRows text').filter p = (hostRows text).filter p := by
  have hand : ∀ rows : List (List Char),
      rows.filter p = (rows.filter fun row => !isRow id row).filter p := by
    intro rows
    rw [List.filter_filter]
    apply List.filter_congr
    intro row _
    cases hrow : isRow id row with
    | true => simp [hp row hrow]
    | false => simp
  rw [hand, h, ← hand]

/-- **An operation while no other call is between its read and its replace** disturbs none of
    them, as long as it leaves the rows of their computers. -/
theorem kept_of_apart (inv : HostsInv base u) (called : (t, l) ∈ u.calls)
    (apart : Apart t u) (calls : v.calls = u.calls)
    (seen : ∀ t', t' ≠ t → v.seen t' = u.seen t')
    (kept : u.file.isSome = true → v.file.isSome = true) (leaves : Leaves l.id u.text v.text) :
    HostsInv base v ∧ ∀ t' l', t' ≠ t → HostRely t' l' u v := by
  constructor
  · constructor
    · rw [calls]
      exact inv.distinct
    · intro c hc hseen d hd hne
      rw [calls] at hc hd
      -- the call that is in its window can only be this one
      have hc' : c.1 = t := by
        by_contra h
        rw [seen _ h] at hseen
        exact hseen (apart c hc h)
      have hd' : d.1 ≠ t := hc' ▸ hne
      rw [seen _ hd']
      exact apart d hd hd'
    · rw [calls, ← inv.others]
      apply leaves.filter
      intro row hrow
      rw [List.all_eq_false]
      exact ⟨l, List.mem_map_of_mem called, by simp [hrow]⟩
  · intro t' l' hne called'
    refine ⟨calls ▸ called', ?_, seen t' hne, ?_, kept⟩
    · apply leaves.filter
      intro row hrow
      by_contra hrow'
      have same := isRow_unique hrow (by simpa using hrow')
      exact inv.distinct _ called _ called' (Ne.symm hne) same
    · intro hseen
      exact absurd (apart _ called' hne) hseen

end step

/-! ## 6. The calls -/

/-- What a call has done when it returns. -/
def HostPost (t : Nat) (l : HostCall) (r : Except HostError Unit) (w : HostsWorld) : Prop :=
  r = .ok () ∧ (t, l) ∈ w.calls ∧ rowsOf l.id w.text = l.rows

theorem otherRows_append {calls : List HostCall} {l : HostCall} {text : List Char} :
    otherRows (calls ++ [l]) text = (otherRows calls text).filter fun row => !isRow l.id row := by
  unfold otherRows
  rw [List.filter_filter]
  apply List.filter_congr
  intro row _
  simp [Bool.and_comm]

def hostOutline (base : List Char) : Outline apartSystem where
  inv := HostsInv base
  rely := HostRely
  ok := fun _ _ _ _ _ _ => True
  post := HostPost
  rely_refl := HostRely.refl
  rely_trans := fun _ _ _ _ _ => HostRely.trans
  start_keeps := by
    rintro t l u v inv ⟨fresh, rfl⟩
    constructor
    · constructor
      · intro c hc d hd hne
        rcases List.mem_append.mp hc with hc | hc <;> rcases List.mem_append.mp hd with hd | hd
        · exact inv.distinct c hc d hd hne
        · rw [List.mem_singleton.mp hd]
          exact fresh c hc
        · rw [List.mem_singleton.mp hc]
          exact (fresh d hd).symm
        · rw [List.mem_singleton.mp hc, List.mem_singleton.mp hd] at hne
          exact absurd rfl hne
      · -- a thread that starts has seen nothing
        have old : ∀ t', (u.see t none).seen t' ≠ none → t' ≠ t ∧ u.seen t' ≠ none := by
          intro t' h
          by_cases ht : t' = t
          · exact absurd (by simp [HostsWorld.see, ht]) h
          · exact ⟨ht, by simpa [HostsWorld.see, Function.update_of_ne ht] using h⟩
        intro c hc hseen d hd hne
        obtain ⟨hct, hcs⟩ := old c.1 hseen
        by_contra hd'
        obtain ⟨hdt, hds⟩ := old d.1 hd'
        have mem : ∀ e ∈ u.calls ++ [(t, l)], e.1 ≠ t → e ∈ u.calls := by
          intro e he het
          rcases List.mem_append.mp he with he | he
          · exact he
          · rw [List.mem_singleton.mp he] at het
            exact absurd rfl het
        exact hds (inv.single c (mem c hc hct) hcs d (mem d hd hdt) hne)
      · show otherRows ((u.calls ++ [(t, l)]).map Prod.snd) u.text = _
        rw [List.map_append, List.map_singleton, otherRows_append, otherRows_append, inv.others]
    · intro t' l' hne called
      refine ⟨List.mem_append_left _ called, rfl, ?_, fun _ => ⟨rfl, rfl⟩, fun h => h⟩
      exact Function.update_of_ne hne _ _
  env_keeps := fun _ _ _ h => h.elim

section calls

variable {base text : List Char} {t : Nat} {l : HostCall} {u v w : HostsWorld}

/-- The contract of a call. -/
abbrev hostContract (base : List Char) (t : Nat) (l : HostCall) : Contract HostSig HostsWorld :=
  (hostOutline base).contract t l

/-- The call is between its read and its replace, and nobody has touched the file. -/
structure Within (t : Nat) (l : HostCall) (text : List Char) (u : HostsWorld) : Prop where
  called : (t, l) ∈ u.calls
  seen : u.seen t = some text
  text : u.text = text

theorem Within.apart (h : Within t l text u) (inv : HostsInv base u) : Apart t u :=
  inv.single _ h.called (by simp [h.seen])

theorem Within.rely (h : Within t l text u) (rely : HostRely t l u v) :
    Within t l text v ∧ v.temporary = u.temporary := by
  have relied := rely h.called
  obtain ⟨hfile, htemporary⟩ := relied.still (by simp [h.seen])
  refine ⟨⟨relied.called, relied.seen.trans h.seen, ?_⟩, htemporary⟩
  rw [HostsWorld.text, hfile]
  exact h.text

/-- **The file is replaced** by one in which the call's computer has its rows. -/
theorem install_wp {body : List Char} (leaves : Leaves l.id text body)
    (rows : rowsOf l.id body = l.rows) (within : Within t l text w) :
    (install body).wp (hostContract base t l) (HostPost t l) w := by
  rintro u hu hi a v ⟨stepped, -⟩
  obtain ⟨rfl, rfl⟩ := Prod.mk.inj stepped
  obtain ⟨hwithin, -⟩ := within.rely hu
  refine ⟨?_, ?_⟩
  · obtain ⟨hinv, hrely⟩ := kept_of_apart (v := { u with temporary := some body }) hi
      hwithin.called (hwithin.apart hi) rfl (fun _ _ => rfl) (fun h => h) rfl
    exact ⟨hinv, hrely, trivial⟩
  rintro u' hu' hi' a' v' ⟨stepped', -⟩
  have hwritten : Within t l text { u with temporary := some body } :=
    ⟨hwithin.called, hwithin.seen, hwithin.text⟩
  obtain ⟨hwithin', htemporary⟩ := hwritten.rely hu'
  have hsome : u'.temporary = some body := htemporary
  obtain ⟨rfl, rfl⟩ := Prod.mk.inj stepped'
  refine ⟨⟨hi', fun t' l' _ => HostRely.refl t' l' _, trivial⟩, ?_⟩
  simp only [hsome, Option.isSome_some]
  rintro u'' hu'' hi'' a'' v'' ⟨stepped'', -⟩
  obtain ⟨hwithin'', htemporary'⟩ := hwithin'.rely hu''
  simp only [HostOp.run, htemporary'.trans hsome] at stepped''
  obtain ⟨rfl, rfl⟩ := Prod.mk.inj stepped''
  refine ⟨?_, rfl, hwithin''.called, rows⟩
  obtain ⟨hinv, hrely⟩ := kept_of_apart
    (v := { u''.see t none with file := some body, temporary := none }) hi''
    hwithin''.called (hwithin''.apart hi'') rfl (fun _ h => Function.update_of_ne h _ _)
    (fun _ => rfl) (by rw [hwithin''.text]; exact leaves)
  exact ⟨hinv, hrely, trivial⟩

/-- What a call reads, it goes by until its replace. -/
theorem see_kept (inv : HostsInv base u) (called : (t, l) ∈ u.calls) (apart : Apart t u)
    (htext : u.text = text) :
    (HostsInv base (u.see t (some text)) ∧
        ∀ t' l', t' ≠ t → HostRely t' l' u (u.see t (some text))) ∧
      Within t l text (u.see t (some text)) := by
  refine ⟨?_, called, Function.update_self _ _ _, htext⟩
  exact kept_of_apart inv called apart rfl (fun _ h => Function.update_of_ne h _ _) (fun h => h)
    rfl

theorem readText_wp (called : (t, l) ∈ w.calls) (there : w.file.isSome = true) :
    readText.wp (hostContract base t l) (fun r v => ∃ text, r = .ok text ∧ Within t l text v)
      w := by
  rintro u hu hi a v ⟨stepped, alone⟩
  have relied := hu called
  obtain ⟨text, htext⟩ := Option.isSome_iff_exists.mp (relied.kept there)
  simp only [HostOp.run, htext] at stepped
  obtain ⟨rfl, rfl⟩ := Prod.mk.inj stepped
  have hread : u.text = text := by simp [HostsWorld.text, htext]
  obtain ⟨⟨hinv, hrely⟩, within⟩ := see_kept hi relied.called (alone rfl) hread
  exact ⟨⟨hinv, hrely, trivial⟩, text, rfl, within⟩

theorem rowsOf_rememberBody {computer : Computer} :
    rowsOf computer.id (rememberBody text computer) = [computer.row] := by
  rw [rowsOf, hostRows_rememberBody, List.filter_append, List.filter_filter]
  simp [isRow_row]

theorem rowsOf_forgetBody {id : ComputerId} : rowsOf id (forgetBody text id) = [] := by
  rw [rowsOf, hostRows_forgetBody, List.filter_filter]
  simp

theorem rememberHostKey_wp {computer : Computer}
    (called : (t, .remember computer) ∈ w.calls) :
    (rememberHostKey computer).wp (hostContract base t (.remember computer))
      (HostPost t (.remember computer)) w := by
  have leaves : ∀ text, Leaves computer.id text (rememberBody text computer) := by
    intro text
    rw [Leaves, hostRows_rememberBody, List.filter_append, List.filter_filter]
    simp [isRow_row]
  have ends : ∀ {text v}, Within t (.remember computer) text v →
      (install (rememberBody text computer)).wp (hostContract base t (.remember computer))
        (HostPost t (.remember computer)) v :=
    fun within => install_wp (leaves _) rowsOf_rememberBody within
  apply Prog.wp_seq (R := fun r v => ∃ text, r = .ok text ∧ Within t (.remember computer) text v)
  · rintro u hu hi a v ⟨stepped, alone⟩
    have relied := hu called
    obtain ⟨rfl, rfl⟩ := Prod.mk.inj stepped
    cases hfile : u.file with
    | none =>
      -- there is no file yet: the call goes by the empty text
      have hopens : HostOp.opens (.remember computer) u .exists = true := by
        simp [HostOp.opens, hfile]
      have hempty : u.text = [] := by simp [HostsWorld.text, hfile]
      obtain ⟨⟨hinv, hrely⟩, within⟩ := see_kept hi relied.called (alone hopens) hempty
      rw [if_pos hopens]
      exact ⟨⟨hinv, hrely, trivial⟩, [], rfl, within⟩
    | some text =>
      have hopens : HostOp.opens (.remember computer) u .exists = false := by
        simp [HostOp.opens, hfile]
      rw [if_neg (by simp [hopens])]
      refine ⟨⟨hi, fun t' l' _ => HostRely.refl t' l' _, trivial⟩, ?_⟩
      exact readText_wp relied.called (by simp [hfile])
  · rintro e v ⟨text, h, -⟩
    cases h
  · rintro existing v ⟨text, h, within⟩
    cases h
    exact ends within

theorem forgetHostKey_wp {id : ComputerId} (called : (t, .forget id) ∈ w.calls) :
    (forgetHostKey id).wp (hostContract base t (.forget id)) (HostPost t (.forget id)) w := by
  have leaves : ∀ text, Leaves id text (forgetBody text id) := by
    intro text
    rw [Leaves, hostRows_forgetBody, List.filter_filter]
    simp
  rintro u hu hi a v ⟨stepped, -⟩
  have relied := hu called
  obtain ⟨rfl, rfl⟩ := Prod.mk.inj stepped
  have hopens : HostOp.opens (.forget id) u .exists = false := rfl
  rw [if_neg (by simp [hopens])]
  refine ⟨⟨hi, fun t' l' _ => HostRely.refl t' l' _, trivial⟩, ?_⟩
  cases hfile : u.file with
  | none =>
    have hrows : rowsOf id u.text = [] := by
      simp [rowsOf, hostRows, HostsWorld.text, hfile, splitlines]
    exact ⟨rfl, relied.called, hrows⟩
  | some text =>
    apply Prog.wp_seq (readText_wp relied.called (by simp [hfile]))
    · rintro e v ⟨text, h, -⟩
      cases h
    · rintro existing v ⟨text, h, within⟩
      cases h
      exact install_wp (leaves _) rowsOf_forgetBody within

end calls

/-! ## 7. Every run -/

variable {base : List Char} {file : Option (List Char)}

theorem hosts_proved : (hostOutline base).Proved (.init file) := by
  rintro t l u v inv - ⟨fresh, rfl⟩
  have called : (t, l) ∈ u.calls ++ [(t, l)] := List.mem_append_right _ (List.mem_singleton_self _)
  cases l with
  | remember computer => exact rememberHostKey_wp called
  | forget id => exact forgetHostKey_wp called

theorem HostsInv.init : HostsInv (file.getD []) (.init file) where
  distinct := by simp [HostsWorld.init]
  single := by simp [HostsWorld.init]
  others := rfl

theorem run_calls {t : Nat} {l : HostCall} {o : HostOp} {u : HostsWorld} :
    (o.run t l u).2.calls = u.calls := by
  cases o with
  | «exists» =>
    simp only [HostOp.run]
    split <;> rfl
  | readText =>
    simp only [HostOp.run]
    split <;> rfl
  | writeText body => rfl
  | chmod => rfl
  | replace =>
    simp only [HostOp.run]
    split <;> rfl

/-- The calls are those of the threads. -/
theorem calls_of_run {es : List (Event apartSystem)} {p : Conc.Pool apartSystem}
    (run : apartSystem.Runs (.init file) es p) :
    p.world.calls.map Prod.snd = p.threads.map fun thread => thread.label := by
  induction run with
  | refl => rfl
  | snoc _ last ih =>
    cases last with
    | call started =>
      obtain ⟨-, rfl⟩ := started
      show (_ ++ [_]).map Prod.snd = _
      rw [List.map_append, List.map_append, ih]
      rfl
    | act here stepped =>
      rename_i q _ t l o k a w
      have hcalls : (HostOp.run t l o q.world).2.calls = q.world.calls := run_calls
      rw [stepped.1] at hcalls
      obtain ⟨hlt, hget⟩ := List.getElem?_eq_some_iff.mp here
      show w.calls.map Prod.snd = (q.threads.set t ⟨l, k a⟩).map fun thread => thread.label
      have hlen : t < (q.threads.map fun thread => thread.label).length := by
        rw [List.length_map]
        exact hlt
      have hlabel : l = (q.threads.map fun thread => thread.label)[t] := by
        rw [List.getElem_map, hget]
      rw [hcalls, ih, List.map_set]
      show _ = List.set _ t l
      rw [hlabel, List.set_getElem_self]
    | env moved => exact moved.elim

/-- **What is known is kept where the calls keep apart.** -/
theorem hosts_kept_apart {es : List (Event apartSystem)} {p : Conc.Pool apartSystem}
    (run : apartSystem.Runs (.init file) es p) :
    HostsKept (file.getD []) p.world.text
      (p.threads.map fun thread => (thread.label, thread.prog)) := by
  have ended : ∀ thread ∈ p.threads, ∀ r, thread.ended r →
      r = .ok () ∧ rowsOf thread.label.id p.world.text = thread.label.rows := by
    intro thread hmem r hended
    obtain ⟨t, there⟩ := List.mem_iff_getElem?.mp hmem
    obtain ⟨w, hrely, rfl, called, hrows⟩ :=
      Outline.ended_of_run hosts_proved HostsInv.init run there hended
    exact ⟨rfl, (hrely called).rows.trans hrows⟩
  constructor
  · intro _ hmem e he
    obtain ⟨thread, hthread, rfl⟩ := List.mem_map.mp hmem
    have failed := (ended thread hthread (.error e) he).1
    cases failed
  · intro _ hmem hret
    obtain ⟨thread, hthread, rfl⟩ := List.mem_map.mp hmem
    exact (ended thread hthread (.ok ()) hret).2
  · have inv : HostsInv (file.getD []) p.world :=
      Outline.inv_of_run hosts_proved HostsInv.init run
    have hothers := inv.others
    rw [calls_of_run run] at hothers
    rw [List.map_map]
    exact hothers

/-! ## 8. A key that is lost -/

def hostPlayer : Player hostSystem Unit where
  start := fun t l u =>
    if ∀ c ∈ u.calls, c.2.id ≠ l.id then
      some { u.see t none with calls := u.calls ++ [(t, l)] }
    else none
  act := fun _ t l o u => some (o.run t l u)
  start_sound := by
    intro t l u v h
    split at h
    · exact ⟨‹_›, (Option.some.inj h).symm⟩
    · cases h
  act_sound := by
    intro c t l o u a v h
    exact Option.some.inj h

def namedId (c : Char) (h : c ≠ ' ' ∧ breaksLines c = false) : ComputerId where
  text := [c]
  plain := List.forall_mem_singleton.mpr h

def firstComputer : Computer where
  id := namedId 'a' (by decide)
  hostKeyType := ['e']
  hostKeyData := ['A', 'B']
  key_unbroken := by simp [breaksLines]

def secondComputer : Computer where
  id := namedId 'b' (by decide)
  hostKeyType := ['e']
  hostKeyData := ['C', 'D']
  key_unbroken := by simp [breaksLines]

def knownRows : List Char := "termroom-c e EF\n".toList

def returned : HostProg Unit → Bool
  | .ret _ => true
  | _ => false

/-- Two computers are remembered, and both calls have read before one writes. -/
def twoRemember : List (Move hostSystem Unit) :=
  [.call (.remember firstComputer), .call (.remember secondComputer), .act 0 (), .act 0 (),
    .act 1 (), .act 1 (), .act 1 (), .act 1 (), .act 1 (), .act 0 (), .act 0 (), .act 0 ()]

theorem twoRemember_played :
    ((hostPlayer.play (.init (.init (some knownRows))) twoRemember).map fun p =>
      p.threads.all (fun thread => returned thread.prog) &&
        p.threads.any (fun thread =>
          rowsOf thread.label.id p.world.text ≠ thread.label.rows)) = some true := by
  decide +kernel

/-- **A known key is lost**: both calls return, and one computer has no row. -/
theorem known_key_lost : ¬ ∀ (file : Option (List Char)) (es : List (Event hostSystem))
    (p : Conc.Pool hostSystem), hostSystem.Runs (.init file) es p →
    (∀ thread ∈ p.threads, ∃ r, thread.ended r) →
    HostsKept (file.getD []) p.world.text
      (p.threads.map fun thread => (thread.label, thread.prog)) := by
  intro h
  obtain ⟨p, hp, lost⟩ := Option.map_eq_some_iff.mp twoRemember_played
  obtain ⟨es, run⟩ := hostPlayer.play_sound hp
  obtain ⟨hall, hany⟩ := Bool.and_eq_true_iff.mp lost
  have hret : ∀ thread ∈ p.threads, thread.prog = .ret () := by
    intro thread hmem
    have hthread := List.all_eq_true.mp hall thread hmem
    unfold returned at hthread
    split at hthread
    · assumption
    · cases hthread
  have kept := h _ es p run fun thread hmem => ⟨.ok (), hret thread hmem⟩
  obtain ⟨thread, hmem, hrows⟩ := List.any_eq_true.mp hany
  exact of_decide_eq_true hrows
    (kept.done _ (List.mem_map_of_mem hmem) (hret thread hmem))

instance (t : Nat) (u : HostsWorld) : Decidable (Apart t u) :=
  inferInstanceAs (Decidable (∀ c ∈ u.calls, c.1 ≠ t → u.seen c.1 = none))

/-- Two computers are remembered and a third one is forgotten, one after the other. -/
def threeCalls : List (Move apartSystem Unit) :=
  [.call (.remember firstComputer), .call (.remember secondComputer),
    .call (.forget (namedId 'c' (by decide))), .act 1 (), .act 2 (),
    .act 0 (), .act 0 (), .act 0 (), .act 0 (), .act 0 (),
    .act 1 (), .act 1 (), .act 1 (), .act 1 (), .act 2 (), .act 2 (), .act 2 (), .act 2 ()]

theorem hosts_kept_apart_three : ∃ p : Conc.Pool apartSystem,
    p.world.text = "termroom-a e AB\ntermroom-b e CD\n".toList ∧
      HostsKept knownRows p.world.text
        (p.threads.map fun thread => (thread.label, thread.prog)) := by
  let player : Player apartSystem Unit :=
    hostPlayer.restrict (fun t l o _ u _ => decide (HostOp.opens l u o = true → Apart t u))
      fun _ _ _ _ _ _ h => of_decide_eq_true h
  have played : (player.play (.init (.init (some knownRows))) threeCalls).map
      (fun p => p.world.text) = some "termroom-a e AB\ntermroom-b e CD\n".toList := by
    decide +kernel
  obtain ⟨p, hp, htext⟩ := Option.map_eq_some_iff.mp played
  obtain ⟨es, run⟩ := player.play_sound hp
  exact ⟨p, htext, hosts_kept_apart run⟩

end Termroom.Ssh.KnownHosts
