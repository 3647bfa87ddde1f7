import Termroom.Archive.Manifest
import Termroom.Archive.Staging

/-!
# What the sinks stage

Either sink writes one file where nothing is yet below a directory (`WritesFile`), the Node's
only under a name that the Node does not take for one with a drive. The SSH sink makes a
directory with the parents that are missing.
-/

set_option autoImplicit false

namespace Termroom.Archive

open Conc Data

variable {isalpha : Char → Bool} {s : Stage} {tree base : StagedTree}
variable {D : Path → Prop} {F : Path → StagedNode → Prop}

/-! ## 1. What a tree shows -/

/-- The tree has the directories `D` and the files `F`, and nothing else. -/
structure Shows (D : Path → Prop) (F : Path → StagedNode → Prop) (tree : StagedTree) : Prop where
  lookup : ∀ path node, tree.lookup path = some node ↔ node = .directory ∧ D path ∨ F path node
  files : ∀ path node, F path node → node ≠ .directory

namespace Shows

variable {path : Path}

theorem directory (h : Shows D F tree) (hD : D path) : tree.lookup path = some .directory :=
  (h.lookup path _).mpr (.inl ⟨rfl, hD⟩)

theorem notFile (h : Shows D F tree) (hD : D path) (node : StagedNode) : ¬F path node := by
  intro hF
  have found := (h.lookup path node).mpr (.inr hF)
  rw [h.directory hD] at found
  exact h.files path node hF (Option.some.inj found).symm

theorem absent (h : Shows D F tree) (hD : ¬D path) (hF : ∀ node, ¬F path node) : path ∉ tree := by
  rw [← Finmap.lookup_eq_none, Option.eq_none_iff_forall_ne_some]
  intro node hnode
  rcases (h.lookup path node).mp hnode with ⟨-, hd⟩ | hf
  · exact hD hd
  · exact hF node hf

theorem congr {D' : Path → Prop} (h : Shows D F tree) (hD : ∀ path, D path ↔ D' path) :
    Shows D' F tree :=
  ⟨fun path node => by rw [h.lookup, hD], h.files⟩

theorem insertDirectory (h : Shows D F tree) (hF : ∀ node, ¬F path node) :
    Shows (fun q => D q ∨ q = path) F (tree.insert path .directory) := by
  refine ⟨fun q node => ?_, h.files⟩
  by_cases hq : q = path
  · subst hq
    rw [Finmap.lookup_insert]
    simp [hF, eq_comm]
  · rw [Finmap.lookup_insert_of_ne _ hq, h.lookup]
    simp [hq]

theorem insertFile {node : StagedNode} (h : Shows D F tree) (hD : ¬D path)
    (hF : ∀ node, ¬F path node) (hnode : node ≠ .directory) :
    Shows D (fun q n => F q n ∨ q = path ∧ n = node) (tree.insert path node) := by
  refine ⟨fun q n => ?_, ?_⟩
  · by_cases hq : q = path
    · subst hq
      rw [Finmap.lookup_insert]
      simp [hF, hD, eq_comm]
    · rw [Finmap.lookup_insert_of_ne _ hq, h.lookup]
      simp [hq]
  · rintro q n (hf | ⟨-, rfl⟩)
    · exact h.files q n hf
    · exact hnode

end Shows

/-! ## 2. Paths -/

theorem splitPath_concat (path : Text) : ∃ parents name, splitPath path = parents ++ [name] := by
  rcases List.eq_nil_or_concat (splitPath path) with h | ⟨parents, name, h⟩
  · exact absurd h splitPath_ne_nil
  · exact ⟨parents, name, h.trans List.concat_eq_append⟩

/-- A name that `uuid4` makes is new, so is the path of a temporary file. -/
theorem besides_absent {parents : Path} {name id front back : Text} (h : Unused id tree) :
    besides (parents ++ [name]) (front ++ id ++ back) ∉ tree := by
  intro hmem
  unfold besides at hmem
  rw [List.dropLast_concat, List.getLastD_concat] at hmem
  refine h _ hmem _ (List.mem_append_right _ List.mem_cons_self) ?_
  exact ⟨'.' :: name ++ front, back, by simp⟩

theorem besides_ne {parents : Path} {name ending : Text} :
    besides (parents ++ [name]) ending ≠ parents ++ [name] := by
  unfold besides
  rw [List.dropLast_concat, List.getLastD_concat]
  intro h
  have := congrArg List.length (List.cons.inj (List.append_cancel_left h)).1
  simp only [List.cons_append, List.length_cons, List.length_append] at this
  omega

theorem besides_dropLast {parents : Path} {name ending : Text} :
    (besides (parents ++ [name]) ending).dropLast = parents := by
  unfold besides
  rw [List.dropLast_concat, List.dropLast_concat]

theorem not_any_component {path : Text} (h : Strict path) :
    ((splitPath path).any fun part => part.isEmpty || part = ['.'] || part = ['.', '.']) =
      false := by
  rw [List.any_eq_false]
  intro part hpart
  have := h part hpart
  simp [this.nonempty, this.notDot, this.notDots]

theorem not_contains_metadata {path : Text} (h : Strict path) :
    (splitPath path).contains ".termroom".toList = false := by
  rw [Bool.eq_false_iff, ne_eq, List.contains_iff_mem]
  exact fun hmem => (h _ hmem).notMetadata rfl

theorem Strict.not_any {path : Text} {p : Char → Bool} (h : Strict path) (slash : p '/' = false)
    (plain : ∀ c, isControl c = false → p c = false) : path.any p = false := by
  rw [List.any_eq_false]
  intro c hc
  rcases h.mem hc with rfl | ⟨-, hcontrol⟩
  · exact Bool.eq_false_iff.mp slash
  · exact Bool.eq_false_iff.mp (plain c hcontrol)

theorem Strict.not_contains {path : Text} (h : Strict path) : path.contains '\\' = false := by
  rw [Bool.eq_false_iff, ne_eq, List.contains_iff_mem]
  intro hmem
  rcases h.mem hmem with hc | ⟨hc, -⟩
  · exact absurd hc (by decide)
  · exact hc rfl

theorem Strict.head?_ne {path : Text} (h : Strict path) :
    decide (path.head? = some '/') = false := by
  obtain ⟨c, rest, rfl, hc⟩ := h.head
  exact decide_eq_false fun h => hc (Option.some.inj h)

/-- What the SSH sink asks of a path, a strict one meets. -/
theorem validateRunRelativePath_strict {path : Text} (h : Strict path) :
    validateRunRelativePath path = .ok path := by
  obtain ⟨c, rest, hpath, -⟩ := h.head
  have control : (path.any fun c => c.toNat < 32 || c.toNat = 127) = false := by
    refine h.not_any (by decide) fun c hc => ?_
    unfold isControl at hc
    simp only [Bool.or_eq_false_iff, Bool.and_eq_false_iff, decide_eq_false_iff_not] at hc ⊢
    omega
  have dot : path ≠ ['.'] := by
    rintro rfl
    have hmem : ['.'] ∈ splitPath ['.'] := by decide +kernel
    exact (h _ hmem).notDot rfl
  unfold validateRunRelativePath
  rw [if_neg (hpath ▸ List.cons_ne_nil _ _), if_neg (Bool.eq_false_iff.mp control), if_neg,
    if_neg dot, if_neg (Bool.eq_false_iff.mp (not_any_component h)),
    if_neg (Bool.eq_false_iff.mp (not_contains_metadata h))]
  rw [h.not_contains, h.head?_ne]
  exact nofun

/-- What the Node asks of it besides: no letter and colon in front. -/
theorem normalizeSourceRelativePath_strict {path : Text} (h : Strict path) :
    normalizeSourceRelativePath isalpha path = if letterColon isalpha path then
      .error (.node "Source paths must be relative" "source_path_absolute") else .ok path := by
  obtain ⟨c, rest, hpath, -⟩ := h.head
  have control : path.any isControl = false := h.not_any (by decide) fun _ hc => hc
  unfold normalizeSourceRelativePath
  rw [if_neg (hpath ▸ List.cons_ne_nil _ _), if_neg]
  · rw [h.head?_ne, Bool.false_or]
    split
    · rfl
    · rw [if_neg (Bool.eq_false_iff.mp (not_any_component h)),
        if_neg (Bool.eq_false_iff.mp (not_contains_metadata h))]
  · rw [control, h.not_contains]
    exact nofun

/-! ## 3. Directories over SSH -/

/-- The directories from `current` down along `rest`. -/
def Along (current : Path) (rest : List Text) (path : Path) : Prop :=
  ∃ q, q ≠ [] ∧ q <+: rest ∧ path = current ++ q

theorem along_cons {current path : Path} {component : Text} {rest : List Text} :
    Along current (component :: rest) path ↔
      path = current ++ [component] ∨ Along (current ++ [component]) rest path := by
  constructor
  · rintro ⟨q, hq, hprefix, rfl⟩
    cases q with
    | nil => exact absurd rfl hq
    | cons c q =>
      obtain ⟨rfl, hrest⟩ := List.cons_prefix_cons.mp hprefix
      by_cases hnil : q = []
      · exact .inl (by rw [hnil])
      · exact .inr ⟨q, hnil, hrest, by simp⟩
  · rintro (rfl | ⟨q, hq, hprefix, rfl⟩)
    · exact ⟨[component], List.cons_ne_nil _ _, by simp, rfl⟩
    · exact ⟨component :: q, List.cons_ne_nil _ _, List.cons_prefix_cons.mpr ⟨rfl, hprefix⟩,
        by simp⟩

theorem along_concat {path : Path} {parents : List Text} {name : Text} :
    Along [] (parents ++ [name]) path ↔ Along [] parents path ∨ path = parents ++ [name] := by
  constructor
  · rintro ⟨q, hq, hprefix, rfl⟩
    rcases List.prefix_concat_iff.mp hprefix with hwhole | hparents
    · exact .inr hwhole
    · exact .inl ⟨path, hq, hparents, rfl⟩
  · rintro (⟨q, hq, hprefix, rfl⟩ | rfl)
    · exact ⟨_, hq, hprefix.trans (List.prefix_append _ _), rfl⟩
    · exact ⟨_, by simp, List.prefix_rfl, rfl⟩

section ssh

variable {current path : Path} {relative : Text}

theorem lstat_undisturbed {node : StagedNode} {R : Except StageError StagedNode → Stage → Prop}
    (found : s.tree.lookup path = some node) (h : R (.ok node) s) :
    Undisturbed isalpha (call (.lstat path)) R s := by
  refine .call ?_
  simp only [RemoteOp.effect, StagedTree.lstat, found]
  exact h

theorem mkdir_undisturbed {R : Except StageError Unit → Stage → Prop} (absent : path ∉ s.tree)
    (parent : s.tree.lookup path.dropLast = some .directory)
    (h : R (.ok ()) { s with tree := s.tree.insert path .directory }) :
    Undisturbed isalpha (call (.mkdir path)) R s := by
  refine .call ?_
  simp only [RemoteOp.effect, Stage.onTree, StagedTree.mkdir, if_neg absent, if_pos parent]
  exact h

theorem lstat_missing {R : Except StageError StagedNode → Stage → Prop} (absent : path ∉ s.tree)
    (h : R (.error (.remote .missing)) s) : Undisturbed isalpha (call (.lstat path)) R s := by
  refine .call ?_
  simp only [RemoteOp.effect, StagedTree.lstat, Finmap.lookup_eq_none.mpr absent]
  exact h

theorem parentAttributes_undisturbed {R : Except StageError StagedNode → Stage → Prop}
    (shows : Shows D F s.tree) (parent : D path.dropLast) (free : ∀ node, ¬F path node)
    (h : ∀ tree, Shows (fun q => D q ∨ q = path) F tree → R (.ok .directory) { s with tree }) :
    Undisturbed isalpha (parentAttributes path) R s := by
  by_cases hD : D path
  · have shows' : Shows (fun q => D q ∨ q = path) F s.tree :=
      shows.congr fun q => ⟨.inl, fun hq => hq.elim id fun hq => hq ▸ hD⟩
    exact .attempt (lstat_undisturbed (shows.directory hD) (.pure (h _ shows')))
  · have absent := shows.absent hD free
    have shows' := shows.insertDirectory free
    refine .attempt (lstat_missing absent ?_)
    refine .bind (mkdir_undisturbed absent (shows.directory parent) ?_)
    exact lstat_undisturbed (shows'.directory (.inr rfl)) (h _ shows')

theorem failIf_undisturbed {p : Prop} [Decidable p] {e : StageError}
    {R : Except StageError Unit → Stage → Prop} (hp : ¬p) (h : R (.ok ()) s) :
    Undisturbed isalpha (failIf p e) R s := by
  unfold failIf
  rw [if_neg hp]
  exact .pure h

theorem enterParents_undisturbed {rest : List Text} {R : Except StageError Path → Stage → Prop}
    (shows : Shows D F s.tree) (here : D current)
    (free : ∀ q, Along current rest q → ∀ node, ¬F q node)
    (h : ∀ tree, Shows (fun q => D q ∨ Along current rest q) F tree →
      R (.ok (current ++ rest)) { s with tree }) :
    Undisturbed isalpha (enterParents current rest) R s := by
  induction rest generalizing current D s with
  | nil =>
    have := h s.tree (shows.congr fun q => ⟨.inl, fun hq => hq.elim id fun ⟨q, hq, hp, _⟩ =>
      absurd (List.prefix_nil.mp hp) hq⟩)
    rw [List.append_nil] at this
    exact .pure this
  | cons component rest ih =>
    have parent : D (current ++ [component]).dropLast := by
      rw [List.dropLast_concat]
      exact here
    refine .bind (parentAttributes_undisturbed shows parent ?_ fun tree shows' => ?_)
    · exact free _ (along_cons.mpr (.inl rfl))
    refine .bind (failIf_undisturbed (not_not.mpr rfl) ?_)
    refine ih shows' (.inr rfl) (fun q hq => free q (along_cons.mpr (.inr hq))) ?_
    intro tree' shows''
    rw [List.append_assoc]
    exact h tree' (shows''.congr fun q => by rw [along_cons, or_assoc])

theorem newRemoteTreePath_undisturbed {parents : List Text} {name : Text}
    {R : Except StageError Path → Stage → Prop} (strict : Strict relative)
    (parts : splitPath relative = parents ++ [name]) (shows : Shows D F s.tree) (root : D [])
    (free : ∀ q, Along [] parents q → ∀ node, ¬F q node)
    (h : ∀ tree, Shows (fun q => D q ∨ Along [] parents q) F tree →
      R (.ok (splitPath relative)) { s with tree }) :
    Undisturbed isalpha (newRemoteTreePath relative) R s := by
  have dot : relative ≠ ['.'] := by
    rintro rfl
    have hmem : ['.'] ∈ splitPath ['.'] := by decide +kernel
    exact (strict _ hmem).notDot rfl
  unfold newRemoteTreePath
  rw [validateRunRelativePath_strict strict]
  refine .bind (.pure ?_)
  refine .bind (failIf_undisturbed dot ?_)
  refine .bind (lstat_undisturbed (shows.directory root) ?_)
  refine .bind (failIf_undisturbed (not_not.mpr rfl) ?_)
  rw [onResult_ok, parts]
  dsimp only
  rw [List.dropLast_concat, List.getLastD_concat]
  refine .bind (enterParents_undisturbed shows root free fun tree shows' => ?_)
  have := h tree shows'
  rw [parts] at this
  exact .pure this

/-- **A directory over SSH**: it is there in the end, with its parents. -/
theorem sshMakeDirectory_undisturbed {executable : Option Bool}
    {R : Except StageError Unit → Stage → Prop} (strict : Strict relative)
    (shows : Shows D F s.tree) (root : D [])
    (free : ∀ q, Along [] (splitPath relative) q → ∀ node, ¬F q node)
    (h : ∀ tree, Shows (fun q => D q ∨ Along [] (splitPath relative) q) F tree →
      R (.ok ()) { s with tree }) :
    Undisturbed isalpha (sshMakeDirectory relative executable) R s := by
  obtain ⟨parents, name, parts⟩ := splitPath_concat relative
  have freeParents : ∀ q, Along [] parents q → ∀ node, ¬F q node :=
    fun q hq => free q (parts ▸ along_concat.mpr (.inl hq))
  refine .bind (newRemoteTreePath_undisturbed strict parts shows root freeParents ?_)
  intro tree shows'
  have along : ∀ q, (D q ∨ Along [] parents q) ∨ q = splitPath relative ↔
      D q ∨ Along [] (splitPath relative) q := by
    intro q
    rw [parts, along_concat, or_assoc]
  by_cases hD : D (splitPath relative) ∨ Along [] parents (splitPath relative)
  · refine .attempt (lstat_undisturbed (shows'.directory hD) ?_)
    refine failIf_undisturbed (not_not.mpr rfl) (h tree (shows'.congr fun q => ?_))
    rw [← along]
    exact ⟨.inl, fun hq => hq.elim id fun hq => hq ▸ hD⟩
  · have freeHere : ∀ node, ¬F (splitPath relative) node :=
      free _ (parts ▸ along_concat.mpr (.inr rfl))
    have absent := shows'.absent hD freeHere
    refine .attempt (lstat_missing absent ?_)
    refine mkdir_undisturbed absent ?_ (h _ ((shows'.insertDirectory freeHere).congr along))
    refine shows'.directory ?_
    rw [parts, List.dropLast_concat]
    by_cases hnil : parents = []
    · exact .inl (hnil ▸ root)
    · exact .inr ⟨parents, hnil, List.prefix_rfl, rfl⟩

end ssh

/-! ## 4. Chunks -/

/-- A check that lets everything pass where nothing interrupts it. -/
def Passes (isalpha : Char → Bool) (check : StageProg Unit) : Prop :=
  ∀ (s : Stage) (R : Except StageError Unit → Stage → Prop),
    R (.ok ()) s → Undisturbed isalpha check R s

/-- The chunks come to this data. -/
structure Yields (isalpha : Char → Bool) (chunks : ChunkSource) (data : Bytes) : Prop where
  passes : Passes isalpha chunks.check
  complete : chunks.stream.failure = none
  flatten : chunks.stream.chunks.flatten = data

variable {chunks : ChunkSource} {data : Bytes} {executable : Bool}

/-- **The loop over the chunks**: what each chunk preserves of the data so far. -/
theorem forChunks_undisturbed {σ : Type} {check : StageProg Unit} {body : Bytes → σ → StageProg σ}
    {Inv : Bytes → σ → Stage → Prop} (passes : Passes isalpha check)
    (step : ∀ acc chunk x s, (acc ++ chunk).length ≤ data.length → Inv acc x s →
      Undisturbed isalpha (body chunk x) (fun r s' => ∃ x', r = .ok x' ∧ Inv (acc ++ chunk) x' s') s)
    {rest : List Bytes} {acc : Bytes} {x : σ} (here : Inv acc x s)
    (flatten : acc ++ rest.flatten = data) :
    Undisturbed isalpha (forChunks check none body rest x)
      (fun r s' => ∃ x', r = .ok x' ∧ Inv data x' s') s := by
  induction rest generalizing acc x s with
  | nil =>
    rw [List.flatten_nil, List.append_nil] at flatten
    refine .bind (passes s _ ?_)
    rw [onResult_ok]
    exact .pure ⟨x, rfl, flatten ▸ here⟩
  | cons chunk rest ih =>
    rw [List.flatten_cons, ← List.append_assoc] at flatten
    have length : (acc ++ chunk).length ≤ data.length := by
      rw [← flatten, @List.length_append _ (acc ++ chunk)]
      omega
    refine .bind (passes s _ ?_)
    rw [onResult_ok]
    refine .bind ((step acc chunk x s length here).mono ?_)
    rintro r s' ⟨x', rfl, there⟩
    exact ih there flatten

theorem forEach_undisturbed {σ : Type} {body : Bytes → σ → StageProg σ}
    {Inv : Bytes → σ → Stage → Prop} {R : Except StageError σ → Stage → Prop}
    (yields : Yields isalpha chunks data)
    (step : ∀ acc chunk x s, (acc ++ chunk).length ≤ data.length → Inv acc x s →
      Undisturbed isalpha (body chunk x) (fun r s' => ∃ x', r = .ok x' ∧ Inv (acc ++ chunk) x' s') s)
    {x : σ} (here : Inv [] x s) (h : ∀ x' s', Inv data x' s' → R (.ok x') s') :
    Undisturbed isalpha (chunks.forEach body x) R s := by
  unfold ChunkSource.forEach
  rw [yields.complete]
  refine (forChunks_undisturbed yields.passes step here ?_).mono ?_
  · exact yields.flatten
  · rintro r s' ⟨x', rfl, there⟩
    exact h x' s' there

/-! ## 5. One file -/

theorem erase_insert {path : Path} {node : StagedNode} (absent : path ∉ base) :
    (base.insert path node).erase path = base := by
  refine Finmap.ext_lookup fun q => ?_
  by_cases hq : q = path
  · rw [hq, Finmap.lookup_erase, Finmap.lookup_eq_none.mpr absent]
  · rw [Finmap.lookup_erase_ne hq, Finmap.lookup_insert_of_ne _ hq]

/-- Where a file is to be written: nothing is there, and its directory is. -/
structure Vacant (D : Path → Prop) (F : Path → StagedNode → Prop) (relative : Text) : Prop where
  strict : Strict relative
  root : D []
  parents : ∀ q, Along [] (splitPath relative).dropLast q → D q
  notDirectory : ¬D (splitPath relative)
  notFile : ∀ node, ¬F (splitPath relative) node

/-- The sink writes a file under each name that is `good`, and refuses the others. -/
structure WritesFile (isalpha : Char → Bool) (sink : Sink) (good : Text → Prop) : Prop where
  writes : ∀ {chunks : ChunkSource} {data : Bytes} {executable : Bool} {relative : Text} {s : Stage}
    {D : Path → Prop} {F : Path → StagedNode → Prop} {R : Except StageError Unit → Stage → Prop},
    Yields isalpha chunks data →
    Shows D F s.tree → Vacant D F relative → good relative →
    (∀ s', Shows D (fun q n => F q n ∨ q = splitPath relative ∧ n = .file data executable)
      s'.tree → R (.ok ()) s') →
    Undisturbed isalpha (sink.writeFile relative chunks executable data.length) R s
  refuses : ∀ {chunks : ChunkSource} {size : Nat} {executable : Bool} {relative : Text} {s : Stage}
    {R : Except StageError Unit → Stage → Prop}, Strict relative → ¬good relative →
    (∀ e s', R (.error e) s') →
    Undisturbed isalpha (sink.writeFile relative chunks executable size) R s

section transfer

variable {relative : Text} {temporary path : Path}

theorem write_undisturbed {acc chunk : Bytes} {x : Bool}
    {R : Except StageError Unit → Stage → Prop}
    (h : R (.ok ()) { s with tree := base.insert temporary (.file (acc ++ chunk) x) }) :
    Undisturbed isalpha (call (.write temporary chunk)) R
      { s with tree := base.insert temporary (.file acc x) } := by
  refine .call ?_
  simp only [RemoteOp.effect, Stage.onTree, StagedTree.write, Finmap.lookup_insert,
    Finmap.insert_insert]
  exact h

theorem sshTransfer_undisturbed {R : Except StageError Unit → Stage → Prop}
    (yields : Yields isalpha chunks data) (new : temporary ∉ s.tree)
    (parent : s.tree.lookup temporary.dropLast = some .directory) (absent : path ∉ s.tree)
    (ne : temporary ≠ path)
    (h : R (.ok ()) { s with tree := s.tree.insert path (.file data executable) }) :
    Undisturbed isalpha (sshTransfer relative temporary path chunks executable data.length) R s := by
  let written (acc : Bytes) (x : Bool) : Stage :=
    { s with tree := s.tree.insert temporary (.file acc x) }
  have opened : RemoteOp.effect isalpha (.openWrite temporary) s = (.ok (), written [] false) := by
    simp only [RemoteOp.effect, Stage.onTree, StagedTree.openWrite, Finmap.lookup_eq_none.mpr new,
      if_pos parent]
    rfl
  have chmoded : RemoteOp.effect isalpha (.chmod temporary executable) (written data false) =
      (.ok (), written data executable) := by
    simp only [RemoteOp.effect, Stage.onTree, StagedTree.chmod, written, Finmap.lookup_insert,
      Finmap.insert_insert]
  have renamed : RemoteOp.effect isalpha (.rename temporary path) (written data executable) =
      (.ok (), { s with tree := s.tree.insert path (.file data executable) }) := by
    have absent : path ∉ s.tree.insert temporary (.file data executable) := by
      rw [Finmap.mem_insert, not_or]
      exact ⟨ne.symm, absent⟩
    simp only [RemoteOp.effect, Stage.onTree, StagedTree.rename, written, Finmap.lookup_insert,
      if_neg absent, erase_insert new]
  unfold sshTransfer
  refine .bind (.call ?_)
  rw [opened]
  refine .bind (.finally_ ?_)
  refine @forEach_undisturbed _ _ _ _ _ _ (fun acc total s' =>
    total = acc.length ∧ s' = written acc false) _ yields ?_ _ ⟨rfl, rfl⟩ ?_
  · rintro acc chunk total s' length ⟨rfl, rfl⟩
    have size : ¬data.length < acc.length + chunk.length := by
      rw [← List.length_append]
      exact Nat.not_lt_of_le length
    refine .bind (failIf_undisturbed size ?_)
    rw [onResult_ok]
    split
    · rename_i hnil
      exact .pure ⟨_, rfl, by rw [List.length_append], by rw [hnil, List.append_nil]⟩
    · refine .bind (write_undisturbed ?_)
      rw [onResult_ok]
      exact .pure ⟨_, rfl, by rw [List.length_append], rfl⟩
  · rintro total s' ⟨rfl, rfl⟩
    refine .call ?_
    refine .bind (failIf_undisturbed (not_not.mpr rfl) ?_)
    refine .bind (.call ?_)
    rw [RemoteOp.effect]
    dsimp only
    rw [chmoded]
    refine .call ?_
    rw [renamed]
    exact h

end transfer

section sinks

variable {relative : Text}

theorem remove_missing {path : Path} {R : Except StageError Unit → Stage → Prop}
    (absent : path ∉ s.tree) (h : R (.error (.remote .missing)) s) :
    Undisturbed isalpha (call (.remove path)) R s := by
  refine .call ?_
  simp only [RemoteOp.effect, Stage.onTree, StagedTree.remove, Finmap.lookup_eq_none.mpr absent]
  exact h

theorem Vacant.parent {parents : List Text} {name : Text} (h : Vacant D F relative)
    (parts : splitPath relative = parents ++ [name]) : D parents := by
  by_cases hnil : parents = []
  · exact hnil ▸ h.root
  · refine h.parents parents ?_
    rw [parts, List.dropLast_concat]
    exact ⟨parents, hnil, List.prefix_rfl, rfl⟩

/-- **The SSH sink writes a file under every strict name.** -/
theorem sshSink_writes : WritesFile isalpha sshSink fun _ => True where
  refuses := fun _ h => absurd trivial h
  writes := by
    intro chunks data executable relative s D F R yields shows vacant _ h
    obtain ⟨parents, name, parts⟩ := splitPath_concat relative
    have inD : ∀ q, Along [] parents q → D q := fun q hq =>
      vacant.parents q (by rw [parts, List.dropLast_concat]; exact hq)
    have free : ∀ q, Along [] parents q → ∀ node, ¬F q node :=
      fun q hq => shows.notFile (inD q hq)
    refine .bind (newRemoteTreePath_undisturbed vacant.strict parts shows vacant.root free ?_)
    intro tree shows'
    have shows : Shows D F tree := shows'.congr fun q => ⟨fun hq => hq.elim id (inD q), .inl⟩
    refine .bind (.uuid4 fun id unused => ?_)
    rw [onResult_ok, parts]
    have new := @besides_absent tree parents name id ".termroom-".toList ".part".toList unused
    have absent : parents ++ [name] ∉ tree := parts ▸ shows.absent vacant.notDirectory vacant.notFile
    have parent : tree.lookup parents = some .directory := shows.directory (vacant.parent parts)
    refine .finally_ (sshTransfer_undisturbed yields new ?_ absent besides_ne ?_)
    · rw [besides_dropLast]
      exact parent
    refine .attempt (remove_missing ?_ (.pure (h _ ?_)))
    · rw [Finmap.mem_insert, not_or]
      exact ⟨besides_ne, new⟩
    · rw [← parts]
      exact shows.insertFile vacant.notDirectory vacant.notFile nofun

section node

variable {parents : List Text} {name id : Text} {size : Nat}

/-- The stream of a file that is being written, and its temporary file. -/
structure Uploading (base : StagedTree) (id : Text) (temporary path : Path) (size : Nat)
    (executable : Bool) (acc : Bytes) (s : Stage) : Prop where
  tree : s.tree = base.insert temporary (.file acc false)
  stream : s.streams id = some ⟨temporary, path, size, executable, acc.length⟩

theorem snapshotFileOpen_undisturbed {R : Except StageError Unit → Stage → Prop}
    (strict : Strict relative) (good : letterColon isalpha relative = false)
    (parts : splitPath relative = parents ++ [name])
    (parent : s.tree.lookup parents = some .directory) (absent : parents ++ [name] ∉ s.tree)
    (new : besides (parents ++ [name]) (".upload-".toList ++ id) ∉ s.tree)
    (h : ∀ s', Uploading s.tree id (besides (parents ++ [name]) (".upload-".toList ++ id))
      (parents ++ [name]) size executable [] s' → R (.ok ()) s') :
    Undisturbed isalpha (call (.snapshotFileOpen relative executable size id)) R s := by
  have target : normalizeSourceRelativePath isalpha relative >>= stagingTarget s.tree =
      .ok (parents ++ [name]) := by
    rw [normalizeSourceRelativePath_strict strict, if_neg (Bool.eq_false_iff.mp good), ok_bind]
    unfold stagingTarget
    rw [parts]
    dsimp only
    rw [List.dropLast_concat, if_neg (not_not.mpr parent), if_neg absent]
  refine .call ?_
  simp only [RemoteOp.effect, snapshotFileOpen, target, if_neg new]
  exact h _ ⟨rfl, Function.update_self ..⟩

theorem snapshotFileOpen_refused {R : Except StageError Unit → Stage → Prop}
    (strict : Strict relative) (bad : letterColon isalpha relative = true)
    (h : ∀ e, R (.error e) s) :
    Undisturbed isalpha (call (.snapshotFileOpen relative executable size id)) R s := by
  refine .call ?_
  simp only [RemoteOp.effect, snapshotFileOpen, normalizeSourceRelativePath_strict strict, bad,
    if_true, error_bind]
  exact h _

theorem streamData_undisturbed {temporary path : Path} {acc chunk : Bytes}
    {R : Except StageError Unit → Stage → Prop} (length : (acc ++ chunk).length ≤ size)
    (here : Uploading base id temporary path size executable acc s)
    (h : ∀ s', Uploading base id temporary path size executable (acc ++ chunk) s' → R (.ok ()) s') :
    Undisturbed isalpha (call (.streamData id chunk)) R s := by
  rw [List.length_append] at length
  refine .call ?_
  simp only [RemoteOp.effect, streamData, here.stream, if_neg (Nat.not_lt_of_le length)]
  refine h _ ⟨?_, ?_⟩
  · simp only [here.tree, StagedTree.write, Finmap.lookup_insert, Finmap.insert_insert]
  · rw [List.length_append]
    exact Function.update_self ..

theorem streamClose_undisturbed {temporary path : Path}
    {R : Except StageError Nat → Stage → Prop} (new : temporary ∉ base) (absent : path ∉ base)
    (ne : temporary ≠ path)
    (here : Uploading base id temporary path data.length executable data s)
    (h : ∀ s', s'.tree = base.insert path (.file data executable) → R (.ok data.length) s') :
    Undisturbed isalpha (call (.streamClose id)) R s := by
  have absent : path ∉ base.insert temporary (.file data executable) := by
    rw [Finmap.mem_insert, not_or]
    exact ⟨ne.symm, absent⟩
  refine .call ?_
  simp only [RemoteOp.effect, streamClose, here.stream, here.tree, StagedTree.chmod,
    StagedTree.rename, Finmap.lookup_insert, Finmap.insert_insert, if_neg absent,
    erase_insert new, ne_eq, not_true_eq_false, if_false]
  exact h _ rfl

/-- **The Node's sink writes a file** under every strict name that the Node does not take for
    an absolute one. -/
theorem nodeSink_writes :
    WritesFile isalpha nodeSink fun path => letterColon isalpha path = false where
  refuses := by
    intro chunks size executable relative s R strict bad h
    refine .bind (.uuid4 fun id _ => ?_)
    rw [onResult_ok]
    refine .bind (snapshotFileOpen_refused strict ?_ fun e => h e s)
    exact Bool.not_eq_false _ ▸ bad
  writes := by
    intro chunks data executable relative s D F R yields shows vacant good h
    obtain ⟨parents, name, parts⟩ := splitPath_concat relative
    have absent : parents ++ [name] ∉ s.tree :=
      parts ▸ shows.absent vacant.notDirectory vacant.notFile
    refine .bind (.uuid4 fun id unused => ?_)
    rw [onResult_ok]
    have new := @besides_absent s.tree parents name id ".upload-".toList [] unused
    rw [List.append_nil] at new
    refine .bind (snapshotFileOpen_undisturbed vacant.strict good parts
      (shows.directory (vacant.parent parts)) absent new fun s₁ opened => ?_)
    rw [onResult_ok]
    refine .attempt (.bind ?_)
    refine @forEach_undisturbed _ _ _ _ _ _ (fun acc _ => Uploading s.tree id _ _ data.length
      executable acc) _ yields (fun acc chunk _ s' length here => ?_) _ opened ?_
    · refine streamData_undisturbed length here fun s'' there => ?_
      exact ⟨(), rfl, there⟩
    intro _ s₂ there
    rw [onResult_ok]
    refine .bind (streamClose_undisturbed new absent besides_ne there fun s₃ htree => ?_)
    rw [onResult_ok]
    refine failIf_undisturbed (not_not.mpr rfl) (.pure (h s₃ ?_))
    rw [htree, ← parts]
    exact shows.insertFile vacant.notDirectory vacant.notFile nofun

end node

/-! ## 6. The sink as it is passed on -/

theorem checkCancel_passes : Passes isalpha checkCancel := by
  intro s R h
  refine .bind (.cancelled ?_)
  rw [onResult_ok]
  exact failIf_undisturbed nofun h

theorem cancellableSink_writes {sink : Sink} {good : Text → Prop}
    (h : WritesFile isalpha sink good) : WritesFile isalpha (cancellableSink sink) good where
  refuses := by
    intro chunks size executable relative s R strict bad error
    refine .bind (checkCancel_passes s _ ?_)
    rw [onResult_ok]
    exact h.refuses strict bad error
  writes := by
    intro chunks data executable relative s D F R yields shows vacant good' ok
    refine .bind (checkCancel_passes s _ ?_)
    rw [onResult_ok]
    refine h.writes ⟨fun s' R' h' => ?_, yields.complete, yields.flatten⟩ shows vacant good' ok
    refine .bind (yields.passes s' _ ?_)
    rw [onResult_ok]
    exact checkCancel_passes s' _ h'

end sinks

end Termroom.Archive
