/-
  The names of a definition.

  A definition is read line by line, and what is read on a line are characters of this line.  So no
  name of a state holds a newline, and a text that is written with names has the lines that were
  meant.

  1. **Parts of a line** — its value, and the items on it.

  2. **Names** — they are items (`isItem_name`), and hold no newline (`newline_not_mem_name`).
-/
import Acceptor.Proofs.Definition.Meaning

namespace Acceptor.Definition

variable {text : String} {d : Automaton} {line item : List Char} {c : Char}

/-! ## Parts of a line -/

theorem valueOf_sublist (line : List Char) : (valueOf line).Sublist line :=
  ((Text.trimEnd_sublist _).trans (List.dropWhile_sublist _)).trans (List.dropWhile_sublist _)

theorem newline_not_mem_of_mem_contentLines (h : line ∈ contentLines text) : '\n' ∉ line := by
  obtain ⟨raw, hraw, rfl⟩ := List.mem_map.1 (List.mem_filter.1 h).1
  exact fun hmem => Text.not_mem_of_mem_cut hraw ((Text.trim_sublist raw).subset hmem)

theorem mem_contentLines_of_mem_headerLines (h : line ∈ headerLines text) :
    line ∈ contentLines text :=
  (List.takeWhile_sublist _).subset h

theorem newline_not_mem_of_mem_itemsOf {k : Keyword} (h : item ∈ itemsOf k (headerLines text)) :
    '\n' ∉ item := by
  intro hmem
  obtain ⟨value, hvalue, hitem⟩ := List.mem_flatMap.1 h
  obtain ⟨line, hline, rfl⟩ := List.mem_map.1 hvalue
  have hcontent := mem_contentLines_of_mem_headerLines (List.mem_filter.1 hline).1
  have hinline : '\n' ∈ line := (valueOf_sublist line).subset (Text.mem_of_mem_listItems hitem hmem)
  exact newline_not_mem_of_mem_contentLines hcontent hinline

/-! ## Names -/

/-- The name of a state stands on a `states` line. -/
theorem toList_name_mem_itemsOf (h : (parse text).value = .ok d) {s : Nat} (hs : s < d.stateCount) :
    (d.name s).toList ∈ itemsOf .states (headerLines text) := by
  have hmem : d.name s ∈ d.names :=
    TransitionSystem.mem_names_iff.2 ⟨s, TransitionSystem.name?_eq_some_name hs⟩
  rw [(describes_of_parse h).names, List.mem_eraseDups] at hmem
  obtain ⟨item, hitem, heq⟩ := List.mem_map.1 hmem
  rw [← heq, String.toList_ofList]
  exact hitem

/-- It can stand in a list with commas: that is how it was read. -/
theorem isItem_name (h : (parse text).value = .ok d) {s : Nat} (hs : s < d.stateCount) :
    Text.IsItem (d.name s).toList := by
  obtain ⟨value, -, hitem⟩ := List.mem_flatMap.1 (toList_name_mem_itemsOf h hs)
  exact Text.isItem_of_mem_listItems hitem

/-- No name of a state holds a newline; past the last state the name is empty. -/
theorem newline_not_mem_name (h : (parse text).value = .ok d) (s : Nat) :
    '\n' ∉ (d.name s).toList := by
  by_cases hs : s < d.stateCount
  · exact newline_not_mem_of_mem_itemsOf (toList_name_mem_itemsOf h hs)
  · have hnone : d.name? s = none := by
      rw [← Option.not_isSome_iff_eq_none, TransitionSystem.isSome_name?_iff]
      exact hs
    rw [TransitionSystem.name, hnone]
    exact List.not_mem_nil

end Acceptor.Definition
