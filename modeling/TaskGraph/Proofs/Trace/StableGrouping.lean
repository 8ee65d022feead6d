import Mathlib.Data.List.DropRight
import Mathlib.Data.List.Nodup
import TaskGraph.Proofs.Trace.Grouping

namespace TaskGraph

/-- What is done to a call log. -/
inductive LogStep where
  | record (target : String) (inputs : List (String × Binding))
  | clear

/-- The call that a step records. -/
def LogStep.call? : LogStep → Option Call
  | record target inputs => some ⟨target, inputs⟩
  | clear => none

namespace CallLog

/-- The log after one step. -/
def take (log : CallLog) : LogStep → CallLog
  | .record target inputs => (log.record target inputs).2
  | .clear => log.clear

/-- The log after steps that were taken one by one. -/
def after (log : CallLog) (steps : List LogStep) : CallLog := steps.foldl take log

/-- The calls that were recorded since the log was last cleared, oldest first. -/
def sinceClear (steps : List LogStep) : List Call :=
  (steps.rtakeWhile fun step => step.call?.isSome).filterMap LogStep.call?

/-- The targets of calls, in the order in which they were first called. -/
def targets (calls : List Call) : List String := (calls.map (·.target)).eraseDups

/-- Those among calls that have this target. -/
def callsTo (calls : List Call) (target : String) : List Call :=
  calls.filter fun call => call.target == target

/-- Calls with the ids that they get when they are made in this order: each is numbered by the
    earlier ones with its target. -/
def numbered (calls : List Call) : List (String × Call) :=
  calls.mapIdx fun i call => (nodeId call.target (callsTo (calls.take i) call.target).length, call)

/-- A log that groups these calls, which are given in the order in which they were made. -/
structure Groups (log : CallLog) (calls : List Call) : Prop where
  groups_eq : log.groups = (targets calls).map fun target => (target, callsTo calls target)
  group_eq : ∀ target, log.group target = callsTo calls target
  entries_perm : log.entries.Perm (numbered calls)

variable {log : CallLog} {calls : List Call} {call : Call} {target : String}

theorem sinceClear_record (steps : List LogStep) (target : String)
    (inputs : List (String × Binding)) :
    sinceClear (steps ++ [.record target inputs]) = sinceClear steps ++ [⟨target, inputs⟩] := by
  rw [sinceClear, List.rtakeWhile_concat_pos _ _ _ rfl, List.filterMap_append]
  rfl

theorem sinceClear_clear (steps : List LogStep) : sinceClear (steps ++ [.clear]) = [] := by
  rw [sinceClear, List.rtakeWhile_concat_neg _ _ _ Bool.false_ne_true]
  rfl

theorem callsTo_concat (calls : List Call) (call : Call) (target : String) :
    callsTo (calls ++ [call]) target =
      callsTo calls target ++ if call.target = target then [call] else [] := by
  rw [callsTo, List.filter_append, List.filter_singleton]
  simp [callsTo]

theorem mem_targets : target ∈ targets calls ↔ ∃ call ∈ calls, call.target = target := by
  rw [targets, List.mem_eraseDups, List.mem_map]

theorem callsTo_eq_nil (h : target ∉ targets calls) : callsTo calls target = [] := by
  refine List.filter_eq_nil_iff.2 ?_
  intro call hcall heq
  exact h (mem_targets.2 ⟨call, hcall, eq_of_beq heq⟩)

/-- A target takes its place with the first call to it. -/
theorem targets_concat (calls : List Call) (call : Call) :
    targets (calls ++ [call]) =
      targets calls ++ if call.target ∈ targets calls then [] else [call.target] := by
  rw [targets, List.map_append, List.eraseDups_append, List.map_singleton]
  unfold targets
  simp only [List.mem_eraseDups]
  by_cases h : call.target ∈ calls.map (·.target)
  · rw [if_pos h]
    simp only [List.removeAll, List.filter_singleton, List.elem_eq_mem, h, decide_true]
    rfl
  · rw [if_neg h]
    simp only [List.removeAll, List.filter_singleton, List.elem_eq_mem, h, decide_false]
    rfl

theorem targets_nodup (calls : List Call) : (targets calls).Nodup := by
  induction calls using List.reverseRecOn with
  | nil => exact .nil
  | append_singleton calls call ih =>
    rw [targets_concat]
    split
    · rwa [List.append_nil]
    · next h => exact List.nodup_append_comm.1 (List.nodup_cons.2 ⟨h, ih⟩)

theorem numbered_concat (calls : List Call) (call : Call) :
    numbered (calls ++ [call]) =
      numbered calls ++ [(nodeId call.target (callsTo calls call.target).length, call)] := by
  unfold numbered
  rw [List.mapIdx_concat, List.take_left]
  congr 1
  apply List.ext_getElem
  · simp
  · intro i hi _
    have hle : i ≤ calls.length := by simpa using Nat.le_of_lt hi
    simp [List.take_append_of_le_length hle]

/-- Where a target has a group already, a call to it goes to the end of that group. -/
theorem add_of_mem {groups : String → List Call} {order : List String} (horder : order.Nodup)
    (h : call.target ∈ order) :
    add call (order.map fun target => (target, groups target)) =
      order.map fun target =>
        (target, groups target ++ if call.target = target then [call] else []) := by
  induction order with
  | nil => cases h
  | cons first order ih =>
    obtain ⟨hfirst, horder⟩ := List.nodup_cons.1 horder
    rw [List.map_cons, List.map_cons, add]
    by_cases heq : first = call.target
    · subst heq
      rw [if_pos rfl, if_pos rfl]
      congr 1
      refine List.map_congr_left ?_
      intro target htarget
      have hne : call.target ≠ target := fun heq => hfirst (heq ▸ htarget)
      rw [if_neg hne, List.append_nil]
    · rw [if_neg heq, if_neg (Ne.symm heq), List.append_nil]
      have hrest : call.target ∈ order := (List.mem_cons.1 h).resolve_left (Ne.symm heq)
      rw [ih horder hrest]

/-- Else it makes up a group of its own, after all others. -/
theorem add_of_notMem {groups : List (String × List Call)}
    (h : call.target ∉ groups.map (·.1)) :
    add call groups = groups ++ [(call.target, [call])] := by
  induction groups with
  | nil => rfl
  | cons group rest ih =>
    obtain ⟨hne, hrest⟩ : call.target ≠ group.1 ∧ call.target ∉ rest.map (·.1) := by simpa using h
    rw [add, if_neg (Ne.symm hne), ih hrest]
    rfl

theorem groups_empty : empty.Groups [] := ⟨rfl, fun _ => rfl, .nil⟩

theorem groups_record (h : log.Groups calls) (target : String)
    (inputs : List (String × Binding)) :
    (log.record target inputs).2.groups =
      (targets (calls ++ [⟨target, inputs⟩])).map fun other =>
        (other, callsTo (calls ++ [⟨target, inputs⟩]) other) := by
  rw [CallLog.record, h.groups_eq, targets_concat]
  simp only [callsTo_concat]
  by_cases hmem : target ∈ targets calls
  · rw [if_pos hmem, List.append_nil]
    exact add_of_mem (targets_nodup calls) hmem
  · have hnew : target ∉
        ((targets calls).map fun other => (other, callsTo calls other)).map (·.1) := by
      simpa using hmem
    rw [if_neg hmem, add_of_notMem hnew, List.map_append]
    congr 1
    · refine List.map_congr_left ?_
      intro other hother
      have hne : target ≠ other := fun heq => hmem (heq ▸ hother)
      rw [if_neg hne, List.append_nil]
    · simp [callsTo_eq_nil hmem]

/-- A log that groups calls also groups the next one after it is recorded. -/
theorem Groups.record (h : log.Groups calls) (target : String)
    (inputs : List (String × Binding)) :
    (log.record target inputs).2.Groups (calls ++ [⟨target, inputs⟩]) := by
  refine ⟨groups_record h target inputs, ?_, ?_⟩
  · intro other
    rw [group_record, callsTo_concat, h.group_eq]
    by_cases heq : other = target
    · rw [if_pos heq, if_pos heq.symm]
    · rw [if_neg heq, if_neg (Ne.symm heq), List.append_nil]
  · rw [numbered_concat, ← h.group_eq]
    exact (entries_record_perm log target inputs).trans (h.entries_perm.append_right _)

theorem ids_groupEntries (target : String) (calls : List Call) :
    (groupEntries (target, calls)).map (·.1) = (List.range calls.length).map (nodeId target) := by
  apply List.ext_getElem
  · simp [groupEntries]
  · intro i _ _
    simp [groupEntries]

/-- No two entries have the same id: those of one group differ in the index and those of different
    groups in the target. -/
theorem Groups.ids_nodup (h : log.Groups calls) : (log.entries.map (·.1)).Nodup := by
  have hids : log.entries.map (·.1) = (targets calls).flatMap fun target =>
      (List.range (callsTo calls target).length).map (nodeId target) := by
    rw [entries_eq_flatMap, h.groups_eq, List.flatMap_map, List.map_flatMap]
    exact List.flatMap_congr fun target _ => ids_groupEntries target (callsTo calls target)
  rw [hids, List.nodup_flatMap]
  constructor
  · intro target _
    exact List.nodup_range.map fun i j hsame => (nodeId_inj.1 hsame).2
  · refine (targets_nodup calls).imp ?_
    intro target other hne id hid hother
    obtain ⟨i, -, rfl⟩ := List.mem_map.1 hid
    obtain ⟨j, -, hsame⟩ := List.mem_map.1 hother
    exact hne (nodeId_inj.1 hsame).1.symm

theorem after_append (log : CallLog) (before later : List LogStep) :
    log.after (before ++ later) = (log.after before).after later := List.foldl_append

/-- After any steps a log groups the calls since it was last cleared. -/
theorem groups_after (steps : List LogStep) : (empty.after steps).Groups (sinceClear steps) := by
  induction steps using List.reverseRecOn with
  | nil => exact groups_empty
  | append_singleton steps step ih =>
    rw [after_append]
    cases step with
    | record target inputs =>
      rw [sinceClear_record]
      exact ih.record target inputs
    | clear =>
      rw [sinceClear_clear]
      exact groups_empty

/-- An entry stays in a log until that is cleared. -/
theorem mem_entries_after {entry : String × Call} {steps : List LogStep}
    (hsteps : .clear ∉ steps) (h : entry ∈ log.entries) : entry ∈ (log.after steps).entries := by
  induction steps generalizing log with
  | nil => exact h
  | cons step steps ih =>
    obtain ⟨hstep, hsteps⟩ : .clear ≠ step ∧ .clear ∉ steps := by simpa using hsteps
    refine ih hsteps ?_
    cases step with
    | record target inputs =>
      exact (entries_record_perm log target inputs).mem_iff.2 (List.mem_append_left _ h)
    | clear => exact absurd rfl hstep

/-- A call log groups the calls that were recorded since it was last cleared, and the grouping is
    stable. Its entries go by target, in the order in which the targets were first called, and for
    each target by the order of the calls. They are these calls, each once and with the id that
    numbers it by the earlier calls to its target, and no two of them have the same id. Their number
    is the size of the log, and the group of a target is what was recorded for it. The index that a
    call is recorded under is how many calls to its target came before, and with this index it stays
    in the log until that is cleared. -/
theorem after_stable (steps : List LogStep) :
    let log := empty.after steps
    let calls := sinceClear steps
    (log.entries = (targets calls).flatMap fun target =>
      (callsTo calls target).mapIdx fun index call => (nodeId target index, call)) ∧
    log.entries.Perm (numbered calls) ∧
    (log.entries.map (·.1)).Nodup ∧
    log.size = log.entries.length ∧
    (∀ target, log.group target = callsTo calls target) ∧
    ∀ before target inputs later, steps = before ++ .record target inputs :: later →
      .clear ∉ later →
      let index := ((empty.after before).record target inputs).1
      index = (callsTo (sinceClear before) target).length ∧
        (nodeId target index, ⟨target, inputs⟩) ∈ log.entries := by
  intro log calls
  have hgroups : log.Groups calls := groups_after steps
  refine ⟨?_, hgroups.entries_perm, hgroups.ids_nodup, (length_entries log).symm,
    hgroups.group_eq, ?_⟩
  · rw [entries_eq_flatMap, hgroups.groups_eq, List.flatMap_map]
    rfl
  · intro before target inputs later hsteps hlater index
    refine ⟨congrArg List.length ((groups_after before).group_eq target), ?_⟩
    have hlog : log = ((empty.after before).record target inputs).2.after later :=
      (congrArg empty.after hsteps).trans (after_append empty before _)
    have hrecorded := entries_record_perm (empty.after before) target inputs
    rw [hlog]
    exact mem_entries_after hlater
      (hrecorded.mem_iff.2 (List.mem_append_right _ List.mem_cons_self))

end CallLog

end TaskGraph
