import TaskGraph.Trace.CallLog
import TaskGraph.Proofs.Text.Reading

namespace TaskGraph

/-- Reading a node id gives back the target and the spelling of the index, since no dash stands
    among the digits. -/
theorem splitLast?_nodeId (target : String) (i : Nat) :
    Text.splitLast? '-' (nodeId target i) = some (target, toString i) := by
  refine Text.splitLast?_eq_some_iff.2 ⟨rfl, ?_⟩
  intro hdash
  have hdigit := Text.isDigit_of_mem_toString hdash
  exact absurd hdigit (by decide)

theorem nodeId_inj {t u : String} {i j : Nat} : nodeId t i = nodeId u j ↔ t = u ∧ i = j := by
  constructor
  · intro h
    have hsplit := congrArg (Text.splitLast? '-') h
    rw [splitLast?_nodeId, splitLast?_nodeId, Option.some.injEq, Prod.mk.injEq,
      Text.toString_nat_inj] at hsplit
    exact hsplit
  · rintro ⟨rfl, rfl⟩
    rfl

/-- A text whose part after the last dash is no number is not the id of any call. -/
theorem nodeId_ne_of_splitLast? {node before after : String} (c : Char)
    (hsplit : Text.splitLast? '-' node = some (before, after)) (hmem : c ∈ after.toList)
    (hc : c.isDigit = false) (target : String) (i : Nat) : nodeId target i ≠ node := by
  intro h
  rw [← h, splitLast?_nodeId, Option.some.injEq, Prod.mk.injEq] at hsplit
  obtain ⟨-, rfl⟩ := hsplit
  rw [Text.isDigit_of_mem_toString hmem] at hc
  cases hc

theorem splitLast?_startNode : Text.splitLast? '-' startNode = some ("start", "node") :=
  Text.splitLast?_eq_some_iff.2 (by decide)

theorem splitLast?_endNode : Text.splitLast? '-' endNode = some ("end", "node") :=
  Text.splitLast?_eq_some_iff.2 (by decide)

theorem nodeId_ne_startNode (target : String) (i : Nat) : nodeId target i ≠ startNode :=
  nodeId_ne_of_splitLast? 'n' splitLast?_startNode (by decide) (by decide) target i

theorem nodeId_ne_endNode (target : String) (i : Nat) : nodeId target i ≠ endNode :=
  nodeId_ne_of_splitLast? 'n' splitLast?_endNode (by decide) (by decide) target i

/-- A log finds the call behind a text when the text is the node id of a call that it holds. The
    text `t-01` is none, although `01` is the number of a call. -/
theorem CallLog.locate?_eq_some_iff {log : CallLog} {node target : String} {i : Nat} :
    log.locate? node = some (target, i) ↔
      node = nodeId target i ∧ i < (log.group target).length := by
  unfold CallLog.locate?
  constructor
  · intro h
    obtain ⟨⟨before, text⟩, hsplit, h⟩ := Option.bind_eq_some_iff.1 h
    obtain ⟨found, hfind, heq⟩ := Option.bind_eq_some_iff.1 h
    obtain ⟨rfl, rfl⟩ := Prod.mk.inj (Option.some.inj heq)
    obtain ⟨hspelled, hmem, -⟩ := List.find?_range_eq_some.1 hfind
    obtain ⟨hnode, -⟩ := Text.splitLast?_eq_some_iff.1 hsplit
    refine ⟨?_, List.mem_range.1 hmem⟩
    rw [hnode, ← eq_of_beq hspelled]
    rfl
  · rintro ⟨rfl, hlt⟩
    have hfind : (List.range (log.group target).length).find? (fun j => toString j == toString i)
        = some i := by
      refine List.find?_range_eq_some.2 ⟨beq_self_eq_true _, List.mem_range.2 hlt, ?_⟩
      intro j hj
      have hne : toString j ≠ toString i := fun heq => by
        have := Text.toString_nat_inj.1 heq
        omega
      rw [beq_false_of_ne hne]
      rfl
    rw [splitLast?_nodeId]
    exact Option.bind_eq_some_iff.2 ⟨_, rfl, Option.bind_eq_some_iff.2 ⟨i, hfind, rfl⟩⟩

end TaskGraph
