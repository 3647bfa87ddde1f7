import Mathlib
import Termroom.Conc.Prog
import Termroom.Data.Search

/-!
# What a Workspace uses

The processes of a Workspace are those of its panes and what descends from them, in a snapshot of
processes that may have changed while it was taken: parents may be missing, and lead in circles.
`aggregate_workspace_usage` counts each process once that a pane leads to, and no other
(`aggregateWorkspaceUsage_exact`).

CPU percentages are floats, whose sum depends on the order in which they are added: what is made of
those that were measured is a parameter here.
-/

set_option autoImplicit false

namespace Termroom.Terminal

open Conc Data

/-! ## 1. The snapshot -/

structure ProcessRecord where
  pid : Int
  parentPid : Int
  cpuPercent : ℚ
  rssKib : Int
  deriving DecidableEq, Repr

/-- The processes by their id, as `parse_process_records` returns them. -/
structure ProcessRecords where
  values : List ProcessRecord
  unique : (values.map ProcessRecord.pid).Nodup

/-- A shell, and what it has started. -/
example : ProcessRecords := ⟨[⟨7, 1, 1 / 2, 4⟩, ⟨9, 7, 12, 8⟩], by decide⟩

def ProcessRecords.get (records : ProcessRecords) (pid : Int) : Option ProcessRecord :=
  records.values.find? fun record => record.pid = pid

structure RawWorkspaceUsage where
  cpuPercent : ℚ
  memoryBytes : Int
  processCount : Int
  deriving DecidableEq, Repr

/-- `WorkspaceUsageUnavailable`. -/
structure WorkspaceUsageUnavailable where
  message : String
  code : String
  deriving DecidableEq, Repr

abbrev Measured := Except WorkspaceUsageUnavailable

def MAX_PROCESS_ROWS : Int := 200000

/-- What `validate_raw_workspace_usage` accepts. -/
def RawWorkspaceUsage.Valid (value : RawWorkspaceUsage) : Prop :=
  0 ≤ value.cpuPercent ∧ value.cpuPercent ≤ 1000000 ∧
    0 ≤ value.memoryBytes ∧ value.memoryBytes ≤ 2 ^ 63 - 1 ∧
    0 ≤ value.processCount ∧ value.processCount ≤ MAX_PROCESS_ROWS

instance (value : RawWorkspaceUsage) : Decidable value.Valid :=
  inferInstanceAs (Decidable (_ ∧ _))

def validateRawWorkspaceUsage (value : RawWorkspaceUsage) : Measured RawWorkspaceUsage :=
  if value.Valid then .ok value
  else .error ⟨"Workspace activity response is invalid", "response_invalid"⟩

/-! ## 2. The aggregation -/

/-- `children`, as pairs of a parent and a child. -/
def children (records : ProcessRecords) : List (Int × Int) :=
  records.values.map fun record => (record.parentPid, record.pid)

variable (total : List ProcessRecord → ℚ)

/-- The usage of the processes that were measured, with what `sum` makes of their percentages. -/
def usageOf (measured : List ProcessRecord) : RawWorkspaceUsage where
  cpuPercent := total measured
  memoryBytes := (measured.map ProcessRecord.rssKib).sum * 1024
  processCount := measured.length

def aggregateWorkspaceUsage (panePids : List Int) (processRecords : ProcessRecords) :
    Measured RawWorkspaceUsage :=
  let roots := (panePids.filter fun pid => 0 < pid).dedup
  if roots = [] then .error ⟨"Workspace has no measurable panes", "pane_snapshot_empty"⟩
  else
    let selected := Search.search (children processRecords) roots []
    let measured := selected.filterMap processRecords.get
    if measured = [] then
      .error ⟨"Workspace processes changed during measurement", "process_snapshot_incomplete"⟩
    else validateRawWorkspaceUsage (usageOf total measured)

/-! ## 3. The processes of a Workspace -/

/-- A process of the snapshot and its parent, which need not be in it. -/
def ParentOf (records : ProcessRecords) (parent pid : Int) : Prop :=
  ∃ record ∈ records.values, record.parentPid = parent ∧ record.pid = pid

/-- A pane leads to the process; a pane has a process, whose id is positive. -/
def Reached (panePids : List Int) (records : ProcessRecords) (pid : Int) : Prop :=
  ∃ root ∈ panePids, 0 < root ∧ Relation.ReflTransGen (ParentOf records) root pid

open Classical in
/-- **The processes of a Workspace**: each of the snapshot once that a pane leads to. -/
noncomputable def processesOf (panePids : List Int) (records : ProcessRecords) :
    List ProcessRecord :=
  records.values.filter fun record => Reached panePids records record.pid

section exact

variable {total : List ProcessRecord → ℚ} {panePids : List Int} {records : ProcessRecords}
  {record : ProcessRecord} {pid : Int}

theorem edge_iff {parent : Int} :
    Search.Edge (children records) parent pid ↔ ParentOf records parent pid := by
  unfold Search.Edge children ParentOf
  simp

theorem get_eq_some :
    records.get pid = some record ↔ record ∈ records.values ∧ record.pid = pid := by
  unfold ProcessRecords.get
  constructor
  · intro h
    refine ⟨List.mem_of_find?_eq_some h, ?_⟩
    simpa using List.find?_some h
  · rintro ⟨hmem, rfl⟩
    obtain ⟨found, hfound⟩ : ∃ found, records.values.find? (fun r => r.pid = record.pid) =
        some found := by
      rw [← Option.isSome_iff_exists, List.find?_isSome]
      exact ⟨record, hmem, by simp⟩
    have same : found.pid = record.pid := by simpa using List.find?_some hfound
    have one := List.inj_on_of_nodup_map records.unique (List.mem_of_find?_eq_some hfound) hmem same
    rw [hfound, one]

theorem mem_processesOf : record ∈ processesOf panePids records ↔
    record ∈ records.values ∧ Reached panePids records record.pid := by
  unfold processesOf
  simp

theorem nodup_processesOf : (processesOf panePids records).Nodup := by
  unfold processesOf
  exact records.unique.of_map.filter _

theorem mem_selected : pid ∈ Search.search (children records)
    (panePids.filter fun pid => 0 < pid).dedup [] ↔ Reached panePids records pid := by
  have edges : Search.Edge (children records) = ParentOf records := by
    funext parent pid
    exact propext edge_iff
  rw [Search.mem_search, edges]
  unfold Reached
  simp [and_assoc]

/-- **What is measured** is the processes of the Workspace, in some order. -/
theorem measured_perm :
    ((Search.search (children records) (panePids.filter fun pid => 0 < pid).dedup []).filterMap
      records.get).Perm (processesOf panePids records) := by
  rw [List.perm_ext_iff_of_nodup ?_ nodup_processesOf]
  · intro record
    rw [List.mem_filterMap, mem_processesOf]
    constructor
    · rintro ⟨pid, hpid, hget⟩
      obtain ⟨hmem, rfl⟩ := get_eq_some.mp hget
      exact ⟨hmem, mem_selected.mp hpid⟩
    · rintro ⟨hmem, hreached⟩
      exact ⟨record.pid, mem_selected.mpr hreached, get_eq_some.mpr ⟨hmem, rfl⟩⟩
  · apply List.Nodup.filterMap _ (Search.nodup_search List.nodup_nil)
    intro a b record ha hb
    exact (get_eq_some.mp ha).2.symm.trans (get_eq_some.mp hb).2

/-- The memory and the number of processes do not depend on the order. -/
theorem usageOf_perm {measured others : List ProcessRecord} (h : measured.Perm others)
    (htotal : total measured = total others) : usageOf total measured = usageOf total others := by
  unfold usageOf
  rw [htotal, (h.map ProcessRecord.rssKib).sum_eq, h.length_eq]

/-- Without a pane no process is reached. -/
theorem processesOf_nil (h : (panePids.filter fun pid => 0 < pid).dedup = []) :
    processesOf panePids records = [] := by
  rw [List.eq_nil_iff_forall_not_mem]
  intro record hrecord
  obtain ⟨root, hroot, hpositive, -⟩ := (mem_processesOf.mp hrecord).2
  have mem : root ∈ (panePids.filter fun pid => 0 < pid).dedup := by simp [hroot, hpositive]
  rw [h] at mem
  cases mem

theorem validate_eq_ok {value usage : RawWorkspaceUsage} :
    validateRawWorkspaceUsage value = .ok usage ↔ value.Valid ∧ usage = value := by
  unfold validateRawWorkspaceUsage
  split
  · rename_i h
    simp [h, eq_comm]
  · rename_i h
    simp [h]

/-- There is a usage where a process was measured and the sums are in range, whatever `sum` does. -/
theorem aggregate_eq_ok {usage : RawWorkspaceUsage} :
    let measured := (Search.search (children records) (panePids.filter fun pid => 0 < pid).dedup
      []).filterMap records.get
    aggregateWorkspaceUsage total panePids records = .ok usage ↔
      measured ≠ [] ∧ (usageOf total measured).Valid ∧ usage = usageOf total measured := by
  intro measured
  have perm : measured.Perm (processesOf panePids records) := measured_perm
  unfold aggregateWorkspaceUsage
  dsimp only
  split
  · rename_i hroots
    have hnone : measured = [] := List.perm_nil.mp (processesOf_nil hroots ▸ perm)
    simp [hnone]
  · split
    · rename_i hnone
      have hnone : measured = [] := hnone
      simp [hnone]
    · rename_i hsome
      have hsome : measured ≠ [] := hsome
      rw [validate_eq_ok]
      simp [hsome, measured]

end exact

/-- **Each process that a pane leads to is counted once, and no other**: the usage is made of these
    processes, in the order in which they are measured, and there is one where there is such a
    process and the sums are in range. Where the order does not matter to the sum, the usage is
    the sums over the processes of the Workspace. -/
theorem aggregateWorkspaceUsage_exact (panePids : List Int) (records : ProcessRecords) :
    (processesOf panePids records).Nodup ∧
    (∀ record, record ∈ processesOf panePids records ↔
      record ∈ records.values ∧ Reached panePids records record.pid) ∧
    (∃ measured, measured.Perm (processesOf panePids records) ∧
      ∀ total usage, aggregateWorkspaceUsage total panePids records = .ok usage ↔
        measured ≠ [] ∧ (usageOf total measured).Valid ∧ usage = usageOf total measured) ∧
    ∀ total, (∀ measured others, List.Perm measured others → total measured = total others) →
      ∀ usage, aggregateWorkspaceUsage total panePids records = .ok usage ↔
        processesOf panePids records ≠ [] ∧
          (usageOf total (processesOf panePids records)).Valid ∧
          usage = usageOf total (processesOf panePids records) := by
  have perm := @measured_perm panePids records
  refine ⟨nodup_processesOf, fun _ => mem_processesOf, ⟨_, perm, fun _ _ => aggregate_eq_ok⟩, ?_⟩
  intro total indifferent usage
  apply aggregate_eq_ok.trans
  rw [usageOf_perm perm (indifferent _ _ perm)]
  apply and_congr_left'
  exact not_congr ⟨fun h => (h ▸ perm).nil_eq.symm, fun h => (h ▸ perm).eq_nil⟩

/-- The order does not matter to an exact sum. -/
example {measured others : List ProcessRecord} (h : measured.Perm others) :
    (measured.map ProcessRecord.cpuPercent).sum = (others.map ProcessRecord.cpuPercent).sum :=
  (h.map _).sum_eq

end Termroom.Terminal
