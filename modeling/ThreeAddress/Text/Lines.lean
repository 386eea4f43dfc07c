/-!
# Lines of a text

A line ends before `'\n'`.

* `splitLines` : every piece between two line ends, the piece after the last one included;
* `lines` : the same without an empty last piece, each without one `'\r'` at its end
  (`lines_append_newline`, `lines_of_not_mem`);
* `lines_append_newline_cons` : the lines of two texts with a line end between them;
* `unlines` : the lines with a line end after each (`lines_unlines`, `splitLines_unlines`).
-/

namespace ThreeAddress.Text

def splitLines (cs : List Char) : List (List Char) := cs.splitOn '\n'

/-- A line without the carriage return before its end. -/
def dropReturn (line : List Char) : List Char :=
  if line.getLast? = some '\r' then line.dropLast else line

/-- A line that has an end loses the carriage return before it; a last line without an end keeps it. -/
def lines (cs : List Char) : List (List Char) :=
  let pieces := splitLines cs
  let rest := pieces.getLast?.getD []
  pieces.dropLast.map dropReturn ++ if rest = [] then [] else [rest]

def unlines (ls : List String) : String := String.join (ls.map (· ++ "\n"))

/-! ## Pieces between separators -/

theorem splitOn_of_notMem {c : Char} {l : List Char} (hl : c ∉ l) : l.splitOn c = [l] := by
  refine List.splitOnP_eq_singleton fun d hd => beq_eq_false_iff_ne.2 ?_
  rintro rfl
  exact hl hd

theorem splitOn_append_cons {c : Char} {l : List Char} (hl : c ∉ l) (cs : List Char) :
    (l ++ c :: cs).splitOn c = l :: cs.splitOn c := by
  have hc : (c == c) = true := beq_self_eq_true c
  have hsingle : l.splitOn c = [l] := splitOn_of_notMem hl
  unfold List.splitOn at *
  rw [List.splitOnP_append_cons (p := (· == c)) l cs hc, hsingle, List.singleton_append]

theorem length_splitOn (c : Char) (cs : List Char) : (cs.splitOn c).length = cs.count c + 1 := by
  induction cs with
  | nil => rfl
  | cons d cs ih =>
    rw [List.splitOn_cons_eq_if_modifyHead, List.count_cons]
    split
    · rw [List.length_cons, ih]
    · rw [List.length_modifyHead, ih]

/-! ## One line at a time -/

theorem splitLines_append_newline {l : List Char} (hl : '\n' ∉ l) (cs : List Char) :
    splitLines (l ++ '\n' :: cs) = l :: splitLines cs := splitOn_append_cons hl cs

/-- A front part without a line end goes to the first line. -/
theorem splitLines_append {p : List Char} (hp : '\n' ∉ p) (cs : List Char) :
    splitLines (p ++ cs) = (splitLines cs).modifyHead (p ++ ·) := by
  unfold splitLines
  obtain ⟨l, ls, hl⟩ := List.exists_cons_of_ne_nil (List.splitOn_ne_nil '\n' cs)
  induction p with
  | nil =>
    rw [List.nil_append, hl]
    rfl
  | cons c p ih =>
    have hc : (c == '\n') = false := beq_eq_false_iff_ne.2 fun he => hp (by simp [he])
    rw [List.cons_append, List.splitOn_cons_eq_if_modifyHead, hc, ih fun h => hp (by simp [h]), hl]
    rfl

theorem splitLines_eq_cons (cs : List Char) : ∃ ls, splitLines cs = cs.takeWhile (· ≠ '\n') :: ls := by
  unfold splitLines
  induction cs with
  | nil => exact ⟨[], rfl⟩
  | cons c cs ih =>
    obtain ⟨ls, hls⟩ := ih
    rw [List.splitOn_cons_eq_if_modifyHead, hls]
    by_cases hc : c = '\n'
    · exact ⟨cs.takeWhile (· ≠ '\n') :: ls, by simp [hc]⟩
    · exact ⟨ls, by simp [hc]⟩

/-- Every text is a last line or has a text behind its first line. -/
theorem line_induction {P : List Char → Prop} (last : ∀ l, '\n' ∉ l → P l)
    (line : ∀ l cs, '\n' ∉ l → P cs → P (l ++ '\n' :: cs)) (cs : List Char) : P cs := by
  induction hn : cs.length using Nat.strongRecOn generalizing cs with
  | ind n ih =>
    by_cases hnewline : '\n' ∈ cs
    · obtain ⟨l, rest, rfl, hl⟩ := List.eq_append_cons_of_mem hnewline
      refine line l rest hl (ih rest.length ?_ rest rfl)
      rw [← hn, List.length_append, List.length_cons]
      omega
    · exact last cs hnewline

@[simp] theorem lines_nil : lines [] = [] := rfl

theorem lines_append_newline {l : List Char} (hl : '\n' ∉ l) (cs : List Char) :
    lines (l ++ '\n' :: cs) = dropReturn l :: lines cs := by
  have hne : splitLines cs ≠ [] := List.splitOnP_ne_nil _ cs
  simp only [lines, splitLines_append_newline hl]
  rw [List.dropLast_cons_of_ne_nil hne, List.getLast?_cons, List.map_cons, List.cons_append,
    Option.getD_some, List.getLast?_eq_some_getLast hne, Option.getD_some]
  rfl

/-- A last line without an end stands as it is. -/
theorem lines_of_not_mem {l : List Char} (hl : '\n' ∉ l) (h : l ≠ []) : lines l = [l] := by
  have hs : splitLines l = [l] := splitOn_of_notMem hl
  simp [lines, hs, h]

theorem newline_notMem_dropReturn {l : List Char} (hl : '\n' ∉ l) : '\n' ∉ dropReturn l := by
  unfold dropReturn
  split
  · exact fun h => hl ((List.dropLast_sublist l).subset h)
  · exact hl

theorem newline_notMem_of_mem_lines {cs l : List Char} (hl : l ∈ lines cs) : '\n' ∉ l := by
  induction cs using line_induction with
  | last m hm =>
    by_cases hnil : m = []
    · rw [hnil, lines_nil] at hl
      cases hl
    · rw [lines_of_not_mem hm hnil, List.mem_singleton] at hl
      rwa [hl]
  | line m cs hm ih =>
    rw [lines_append_newline hm] at hl
    rcases List.mem_cons.1 hl with rfl | hl
    · exact newline_notMem_dropReturn hm
    · exact ih hl

/-! ## Texts behind each other -/

/-- A line end closes the last piece of the text in front of it. -/
theorem lines_append_newline_cons (cs ds : List Char) :
    lines (cs ++ '\n' :: ds) = (splitLines cs).map dropReturn ++ lines ds := by
  induction cs using line_induction with
  | last l hl =>
    have hsingle : splitLines l = [l] := splitOn_of_notMem hl
    rw [lines_append_newline hl, hsingle]
    rfl
  | line l cs hl ih =>
    rw [List.append_assoc, List.cons_append, lines_append_newline hl, ih, splitLines_append_newline hl, List.map_cons,
      List.cons_append]

theorem length_splitLines (cs : List Char) : (splitLines cs).length = cs.count '\n' + 1 := length_splitOn '\n' cs

/-! ## Lines put together -/

theorem toList_unlines (ls : List String) :
    (unlines ls).toList = ls.flatMap fun l => l.toList ++ ['\n'] := by
  simp [unlines, String.toList_join, List.flatMap_map]

theorem unlines_append (ls ms : List String) : unlines (ls ++ ms) = unlines ls ++ unlines ms := by
  rw [← String.toList_inj, String.toList_append]
  simp only [toList_unlines, List.flatMap_append]

/-- Lines that were put together come apart again. -/
theorem lines_unlines {ls : List String} (h : ∀ l ∈ ls, '\n' ∉ l.toList) :
    lines (unlines ls).toList = ls.map fun l => dropReturn l.toList := by
  rw [toList_unlines]
  induction ls with
  | nil => rfl
  | cons l ls ih =>
    rw [List.forall_mem_cons] at h
    rw [List.flatMap_cons, List.append_assoc, List.singleton_append, lines_append_newline h.1, ih h.2,
      List.map_cons]

theorem splitLines_unlines_append {ls : List String} (h : ∀ l ∈ ls, '\n' ∉ l.toList) (cs : List Char) :
    splitLines ((unlines ls).toList ++ cs) = ls.map String.toList ++ splitLines cs := by
  rw [toList_unlines]
  induction ls with
  | nil => rfl
  | cons l ls ih =>
    rw [List.forall_mem_cons] at h
    rw [List.flatMap_cons, List.append_assoc, List.append_assoc, List.singleton_append, splitLines_append_newline h.1,
      ih h.2, List.map_cons, List.cons_append]

/-- The last piece of a printed text is empty. -/
theorem splitLines_unlines {ls : List String} (h : ∀ l ∈ ls, '\n' ∉ l.toList) :
    splitLines (unlines ls).toList = ls.map String.toList ++ [[]] := by
  have hsplit := splitLines_unlines_append h []
  rwa [List.append_nil] at hsplit

end ThreeAddress.Text
