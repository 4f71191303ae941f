import Mathlib.Data.List.TakeWhile

/-!
# Reading a text line by line

A text is a list in which `sep` ends a line. `getline` is one reading: what stands before
the next separator, which is taken too; at the end of the text there is nothing to read.
`lines` are the lines that reading after reading gives (`lines_of_getline`).

So `lines` is `List.splitOn`, but for one thing: a separator at the very end does not
begin another line. `lines_intercalate` and `lines_intercalate_append` are the round
trips, without that separator and with it.
-/

namespace QQChat.Lines

variable {α : Type} [DecidableEq α] {sep : α}

/-- One reading: the line, and the text behind it. -/
def getline (sep : α) (text : List α) : Option (List α × List α) :=
  if text = [] then none
  else some (text.takeWhile (· ≠ sep), (text.dropWhile (· ≠ sep)).drop 1)

/-- The pieces without the last, if it is empty. -/
def dropEmpty (pieces : List (List α)) : List (List α) :=
  if pieces.getLast? = some [] then pieces.dropLast else pieces

/-- What `getline` gives until there is nothing to read. -/
def lines (sep : α) (text : List α) : List (List α) :=
  dropEmpty (text.splitOn sep)

theorem dropEmpty_cons (piece : List α) {pieces : List (List α)} (h : pieces ≠ []) :
    dropEmpty (piece :: pieces) = piece :: dropEmpty pieces := by
  have hlast : (piece :: pieces).getLast? = pieces.getLast? := by
    obtain ⟨next, rest, rfl⟩ := List.exists_cons_of_ne_nil h
    exact List.getLast?_cons_cons
  unfold dropEmpty
  rw [hlast]
  by_cases hempty : pieces.getLast? = some []
  · rw [if_pos hempty, if_pos hempty, List.dropLast_cons_of_ne_nil h]
  · rw [if_neg hempty, if_neg hempty]

/-! ## Reading after reading -/

theorem lines_nil : lines sep ([] : List α) = [] :=
  rfl

/-- A separator ends the line before it. -/
theorem lines_append_cons {line : List α} (h : sep ∉ line) (text : List α) :
    lines sep (line ++ sep :: text) = line :: lines sep text := by
  unfold lines
  rw [List.splitOn_append_cons_self_of_not_mem h, dropEmpty_cons _ (List.splitOn_ne_nil sep text)]

/-- The last line need not be ended. -/
theorem lines_of_notMem {line : List α} (hne : line ≠ []) (h : sep ∉ line) :
    lines sep line = [line] := by
  unfold lines
  rw [List.splitOn_eq_singleton h]
  exact if_neg fun hlast => hne (Option.some.inj hlast)

theorem getline_eq_none_iff {text : List α} : getline sep text = none ↔ text = [] := by
  unfold getline
  by_cases h : text = []
  · exact iff_of_true (if_pos h) h
  · rw [if_neg h]
    exact iff_of_false (fun hnone => nomatch hnone) h

/-- A reading leaves less to read. -/
theorem length_lt_of_getline {text line rest : List α} (h : getline sep text = some (line, rest)) :
    rest.length < text.length := by
  unfold getline at h
  obtain ⟨hne, h⟩ := Option.ite_none_left_eq_some.mp h
  obtain ⟨-, rfl⟩ := Prod.mk.inj (Option.some.inj h)
  have hle := (List.dropWhile_sublist (fun x => decide (x ≠ sep)) (l := text)).length_le
  have hpos := List.length_pos_iff.mpr hne
  rw [List.length_drop]
  omega

/-- **`lines` is the loop over `getline`.** -/
theorem lines_of_getline {text line rest : List α} (h : getline sep text = some (line, rest)) :
    lines sep text = line :: lines sep rest := by
  unfold getline at h
  obtain ⟨hne, h⟩ := Option.ite_none_left_eq_some.mp h
  obtain ⟨rfl, rfl⟩ := Prod.mk.inj (Option.some.inj h)
  have hline : sep ∉ text.takeWhile (· ≠ sep) := by
    intro hmem
    have hneSep := List.mem_takeWhile_imp hmem
    exact of_decide_eq_true hneSep rfl
  have hsplit := List.takeWhile_append_dropWhile (p := fun x => decide (x ≠ sep)) (l := text)
  generalize text.takeWhile (· ≠ sep) = line at hline hsplit ⊢
  cases hrest : text.dropWhile (· ≠ sep) with
  | nil =>
    rw [hrest, List.append_nil] at hsplit
    rw [List.drop_nil, lines_nil, hsplit]
    exact lines_of_notMem hne (hsplit ▸ hline)
  | cons x rest =>
    -- The loop of `dropWhile` has stopped at a separator.
    have hhead := List.head_dropWhile_not (fun x => decide (x ≠ sep)) (l := text)
      (by rw [hrest]; exact List.cons_ne_nil x rest)
    simp only [hrest, List.head_cons, decide_eq_false_iff_not, Classical.not_not] at hhead
    rw [hrest, hhead] at hsplit
    rw [List.drop_one, List.tail_cons, ← hsplit]
    exact lines_append_cons hline rest

/-! ## Texts made of lines -/

/-- Without a separator at the end, a last line that is empty is not there. -/
theorem lines_intercalate {ls : List (List α)} (h : ∀ line ∈ ls, sep ∉ line) (hne : ls ≠ []) :
    lines sep ([sep].intercalate ls) = dropEmpty ls := by
  unfold lines
  rw [List.splitOn_intercalate sep h hne]

omit [DecidableEq α] in
theorem intercalate_concat_nil {ls : List (List α)} (hne : ls ≠ []) :
    [sep].intercalate (ls ++ [[]]) = [sep].intercalate ls ++ [sep] := by
  induction ls with
  | nil => exact absurd rfl hne
  | cons line ls ih =>
    cases ls with
    | nil => simp
    | cons next rest =>
      have hrest := ih (List.cons_ne_nil next rest)
      rw [List.cons_append] at hrest ⊢
      rw [List.cons_append, List.intercalate_cons_cons, hrest, List.intercalate_cons_cons,
        List.append_assoc, List.append_assoc, List.append_assoc]

theorem lines_intercalate_append {ls : List (List α)} (h : ∀ line ∈ ls, sep ∉ line)
    (hne : ls ≠ []) : lines sep ([sep].intercalate ls ++ [sep]) = ls := by
  have hall : ∀ line ∈ ls ++ [[]], sep ∉ line := by
    intro line hline
    rcases List.mem_append.mp hline with hmem | hmem
    · exact h line hmem
    · rw [List.mem_singleton.mp hmem]
      exact List.not_mem_nil
  rw [← intercalate_concat_nil hne, lines_intercalate hall (List.concat_ne_nil _ _), dropEmpty,
    List.getLast?_concat, if_pos rfl, List.dropLast_concat]

end QQChat.Lines
