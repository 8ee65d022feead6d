import TaskGraph.Proofs.Trace.NodeId

namespace TaskGraph.CallLog

/-- The entries of one group. -/
def groupEntries (group : String × List Call) : List (String × Call) :=
  group.2.mapIdx fun index call => (nodeId group.1 index, call)

theorem entries_eq_flatMap (log : CallLog) : log.entries = log.groups.flatMap groupEntries := rfl

theorem groupEntries_concat (target : String) (calls : List Call) (call : Call) :
    groupEntries (target, calls ++ [call]) =
      groupEntries (target, calls) ++ [(nodeId target calls.length, call)] := by
  simp [groupEntries]

/-- A call adds one entry, somewhere among the others. -/
theorem flatMap_add_perm (call : Call) (groups : List (String × List Call)) :
    ((add call groups).flatMap groupEntries).Perm
      (groups.flatMap groupEntries ++
        [(nodeId call.target ((groups.lookup call.target).getD []).length, call)]) := by
  induction groups with
  | nil => simp [add, groupEntries]
  | cons group rest ih =>
    obtain ⟨target, calls⟩ := group
    by_cases htarget : target = call.target
    · subst htarget
      rw [add, if_pos rfl, List.flatMap_cons, List.flatMap_cons, groupEntries_concat,
        List.lookup_cons_self, Option.getD_some, List.append_assoc, List.append_assoc]
      exact List.Perm.append_left _ List.perm_append_comm
    · have hne : (call.target == target) = false := by simpa using Ne.symm htarget
      rw [add, if_neg htarget, List.flatMap_cons, List.flatMap_cons, List.lookup_cons, hne,
        List.append_assoc]
      exact List.Perm.append_left _ ih

theorem entries_record_perm (log : CallLog) (target : String) (inputs : List (String × Binding)) :
    (log.record target inputs).2.entries.Perm
      (log.entries ++ [(nodeId target (log.group target).length, ⟨target, inputs⟩)]) := by
  rw [entries_eq_flatMap, entries_eq_flatMap]
  exact flatMap_add_perm ⟨target, inputs⟩ log.groups

end TaskGraph.CallLog
