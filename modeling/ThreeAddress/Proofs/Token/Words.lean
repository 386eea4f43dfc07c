import ThreeAddress.Proofs.Token.Longest
import ThreeAddress.Text.Lines

/-!
# The tokens of a text are its words

Scanning by the longest rule amounts to cutting lines at their comments, splitting what is left at gaps and
asking of each word as a whole what it is.

* `Kind.ofWord`, `Kind.ofLine`, `Kind.ofLines` : the kinds of a word, a line and a text, without any rule
  being matched against a part of a word;
* `Scanner.next_run`, `next_newline`, `next_gap`, `next_comment` : one step at each kind of character, and
  `Scanner.tokens_run`, … : the tokens from there on;
* `Kind.ofLines_intercalate` : words joined by blanks are told apart again;
* `kinds_ofText` : both ways give the same kinds.
-/

namespace ThreeAddress
open Text

namespace Kind

/-- The command that the whole word spells, or else the first of three forms that it has. -/
def ofWord (w : List Char) : Kind :=
  match Keyword.all.find? (·.spelling.toList = w) with
  | some k => .keyword k
  | none =>
    if isIdentifier w then .identifier (String.ofList w)
    else if isInteger w then .integer (String.ofList w)
    else if w.all isOperatorChar then .operator (String.ofList w)
    else .word (String.ofList w)

/-- A line up to its comment. -/
def uncommented (line : List Char) : List Char := line.takeWhile (· ≠ '#')

def ofLine (line : List Char) : List Kind := (runs isGap (uncommented line)).map ofWord

/-- A line end stands between consecutive lines, and the end of the text behind the last one. -/
def ofLines (cs : List Char) : List Kind :=
  [newline].intercalate ((splitLines cs).map ofLine) ++ [endOfText]

end Kind

theorem Kind.ofWord_ne_endOfText (w : List Char) : ofWord w ≠ endOfText := by
  unfold ofWord
  split
  · exact Kind.noConfusion
  · repeat' split
    all_goals exact Kind.noConfusion

/-- A word is the text of its kind. -/
theorem Kind.text?_ofWord (w : List Char) : (ofWord w).text? = some (String.ofList w) := by
  unfold ofWord
  split
  · next k hk =>
    have hspell := List.find?_some hk
    rw [decide_eq_true_iff] at hspell
    rw [text?_keyword, ← hspell, String.ofList_toList]
  · repeat' split
    all_goals rfl

/-- Keywords are identifiers, but the command that a word spells goes first. -/
theorem Kind.ofWord_spelling (k : Keyword) : ofWord k.spelling.toList = .keyword k := by
  cases k <;> decide

theorem Kind.ofWord_of_isInteger {w : List Char} (h : isInteger w = true) : ofWord w = .integer (String.ofList w) := by
  have hnone : Keyword.all.find? (·.spelling.toList = w) = none := by
    refine List.find?_eq_none.2 fun k _ hk => ?_
    have hword := isIdentifier_of_isInteger h
    rw [← of_decide_eq_true hk, isIdentifier_spelling] at hword
    cases hword
  rw [ofWord, hnone, isIdentifier_of_isInteger h, h]
  rfl

/-! ## One step of the scanner -/

theorem Rule.kind?_longest_append {w cs : List Char} (hw : IsRun w) (hcs : EndsRun isWordChar cs) :
    (longest (w ++ cs)).kind? w = some (Kind.ofWord w) := by
  have h := find?_accepts hw hcs
  unfold all at h
  rw [List.find?_append, List.find?_map] at h
  unfold Kind.ofWord
  change ((Keyword.all.find? (·.spelling.toList = w)).map keyword).or _ = _ at h
  cases hk : Keyword.all.find? (·.spelling.toList = w) with
  | some k =>
    rw [hk, Option.map_some, Option.some_or] at h
    rw [← Option.some.inj h]
    rfl
  | none =>
    rw [hk, Option.map_none, Option.none_or] at h
    simp only [List.find?_cons, accepts] at h
    by_cases hi : isIdentifier w
    · rw [hi] at h
      rw [← Option.some.inj h, if_pos hi]
      rfl
    · rw [Bool.not_eq_true] at hi
      rw [hi] at h
      by_cases hd : isInteger w
      · rw [hd] at h
        rw [← Option.some.inj h, hi, hd]
        rfl
      · rw [Bool.not_eq_true] at hd
        rw [hd] at h
        by_cases ho : w.all isOperatorChar
        · rw [ho] at h
          rw [← Option.some.inj h, hi, hd, ho]
          rfl
        · rw [Bool.not_eq_true] at ho
          rw [ho] at h
          rw [← Option.some.inj h, hi, hd, ho]
          rfl

namespace Scanner

theorem next_run {w cs : List Char} (hw : IsRun w) (hcs : EndsRun isWordChar cs) (k : Nat) :
    (Scanner.mk (w ++ cs) k).next =
      (⟨Kind.ofWord w, k, k + utf8Length w⟩, ⟨cs, k + utf8Length w⟩) := by
  have hext : (Scanner.mk (w ++ cs) k).extent = w.length := Rule.extent_longest_append hw hcs
  have hne : w ++ cs ≠ [] := List.append_ne_nil_of_left_ne_nil hw.ne_nil cs
  have hskip : (Scanner.mk (w ++ cs) k).skip w.length = ⟨cs, k + utf8Length w⟩ := by
    unfold skip
    rw [List.drop_left, List.take_left]
  rw [next_of_some (k := Kind.ofWord w) hne, hext, hskip]
  rw [hext, List.take_left]
  exact Rule.kind?_longest_append hw hcs

theorem next_newline (cs : List Char) (k : Nat) :
    (Scanner.mk ('\n' :: cs) k).next = (⟨.newline, k, k + 1⟩, ⟨cs, k + 1⟩) := by
  have hext : (Scanner.mk ('\n' :: cs) k).extent = 1 := by
    unfold extent
    rw [Rule.longest_newline]
    cases cs <;> rfl
  rw [next_of_some (k := .newline) (List.cons_ne_nil _ _), hext]
  · rfl
  · rw [Rule.longest_newline]
    rfl

/-- Where nothing but the comment rule matches, all is passed over up to the next line end. -/
theorem next_comment {body cs : List Char} (hbody : '\n' ∉ body) (hcs : EndsRun (· ≠ '\n') cs) (k : Nat) :
    (Scanner.mk ('#' :: body ++ cs) k).next =
      (Scanner.mk cs (k + utf8Length ('#' :: body))).next := by
  have hrun : runLength (· ≠ '\n') (body ++ cs) = body.length := by
    rw [runLength_append hcs, runLength_eq_length_iff, List.all_eq_true]
    intro c hc
    exact decide_eq_true fun he => hbody (he ▸ hc)
  have hext : (Scanner.mk ('#' :: body ++ cs) k).extent = ('#' :: body).length := by
    unfold extent
    rw [List.cons_append, Rule.longest_comment]
    exact congrArg (· + 1) hrun
  rw [next_of_none (List.cons_ne_nil _ _), hext]
  · unfold skip
    rw [List.drop_left, List.take_left]
  · rw [List.cons_append, Rule.longest_comment]
    rfl

/-- A gap is passed over with the gaps behind it, hence also one by one. -/
theorem next_gap {c : Char} (hc : isGap c = true) (cs : List Char) (k : Nat) :
    (Scanner.mk (c :: cs) k).next = (Scanner.mk cs (k + c.utf8Size)).next := by
  have next_gaps (cs : List Char) (k : Nat) :
      (Scanner.mk cs k).next = ((Scanner.mk cs k).skip (runLength isGap cs)).next := by
    cases cs with
    | nil => rfl
    | cons d ds =>
      by_cases hd : isGap d
      · have hext : (Scanner.mk (d :: ds) k).extent = runLength isGap (d :: ds) := by
          unfold extent
          rw [Rule.longest_gap hd]
          rfl
        rw [next_of_none (List.cons_ne_nil _ _), hext]
        rw [Rule.longest_gap hd]
        rfl
      · simp [runLength, hd, skip]
  rw [next_gaps, next_gaps cs]
  simp [skip, runLength, hc, Nat.add_assoc]

theorem tokens_congr {s t : Scanner} (h : s.next = t.next) : s.tokens = t.tokens := by
  rw [tokens, h, ← tokens]

theorem tokens_nil (k : Nat) : (Scanner.mk [] k).tokens = [⟨.endOfText, k, k⟩] := by
  have hnext : (Scanner.mk [] k).next = (⟨.endOfText, k, k⟩, ⟨[], k⟩) := next_of_nil rfl
  rw [tokens_of_end (by rw [hnext]), hnext]

theorem tokens_newline (cs : List Char) (k : Nat) :
    (Scanner.mk ('\n' :: cs) k).tokens = ⟨.newline, k, k + 1⟩ :: (Scanner.mk cs (k + 1)).tokens := by
  rw [tokens_of_next (by rw [next_newline]; exact Kind.noConfusion), next_newline]

theorem tokens_run {w cs : List Char} (hw : IsRun w) (hcs : EndsRun isWordChar cs) (k : Nat) :
    (Scanner.mk (w ++ cs) k).tokens =
      ⟨Kind.ofWord w, k, k + utf8Length w⟩ :: (Scanner.mk cs (k + utf8Length w)).tokens := by
  rw [tokens_of_next (by rw [next_run hw hcs]; exact Kind.ofWord_ne_endOfText w), next_run hw hcs]

theorem tokens_gap {c : Char} (hc : isGap c = true) (cs : List Char) (k : Nat) :
    (Scanner.mk (c :: cs) k).tokens = (Scanner.mk cs (k + c.utf8Size)).tokens :=
  tokens_congr (next_gap hc cs k)

theorem tokens_comment {body cs : List Char} (hbody : '\n' ∉ body) (hcs : EndsRun (· ≠ '\n') cs) (k : Nat) :
    (Scanner.mk ('#' :: body ++ cs) k).tokens = (Scanner.mk cs (k + utf8Length ('#' :: body))).tokens :=
  tokens_congr (next_comment hbody hcs k)

end Scanner

/-! ## One step of the lines -/

namespace Kind

theorem ofLine_nil : ofLine [] = [] := rfl

theorem ofLines_newline (cs : List Char) : ofLines ('\n' :: cs) = newline :: ofLines cs := by
  have hne : splitLines cs ≠ [] := List.splitOn_ne_nil _ cs
  have hs : splitLines ('\n' :: cs) = [] :: splitLines cs := splitLines_append_newline (l := []) (by simp) cs
  unfold ofLines
  rw [hs, List.map_cons, List.intercalate_cons_of_ne_nil (by simpa using hne)]
  rfl

/-- What stands in front of a text without a line end belongs to its first line. -/
theorem ofLines_append {p cs : List Char} (ks : List Kind) (hp : '\n' ∉ p)
    (h : ofLine (p ++ cs.takeWhile (· ≠ '\n')) = ks ++ ofLine (cs.takeWhile (· ≠ '\n'))) :
    ofLines (p ++ cs) = ks ++ ofLines cs := by
  obtain ⟨ls, hls⟩ := splitLines_eq_cons cs
  unfold ofLines
  rw [splitLines_append hp, hls, List.modifyHead_cons, List.map_cons, List.map_cons, h]
  cases ls.map ofLine with
  | nil => simp
  | cons => simp

theorem uncommented_append {p : List Char} (hp : '#' ∉ p) (l : List Char) :
    uncommented (p ++ l) = p ++ uncommented l := by
  unfold uncommented
  exact List.takeWhile_append_of_pos fun c hc => decide_eq_true fun he => hp (he ▸ hc)

theorem ofLines_gap {c : Char} (hc : isGap c = true) (cs : List Char) : ofLines (c :: cs) = ofLines cs := by
  have hne : c ≠ '\n' ∧ c ≠ '#' := forall_isGap (P := fun c => c ≠ '\n' ∧ c ≠ '#') (by decide) c hc
  refine ofLines_append (p := [c]) [] (by simpa using hne.1.symm) ?_
  unfold ofLine
  rw [uncommented_append (by simpa using hne.2.symm), List.singleton_append, runs_cons hc, List.nil_append]

theorem ofLines_comment {body cs : List Char} (hbody : '\n' ∉ body) (hcs : EndsRun (· ≠ '\n') cs) :
    ofLines ('#' :: body ++ cs) = ofLines cs := by
  refine ofLines_append [] (by simpa using hbody) ?_
  have hnil : cs.takeWhile (· ≠ '\n') = [] := takeWhile_append_of_endsRun hcs []
  rw [hnil, ofLine_nil]
  rfl

theorem ofLines_run {w cs : List Char} (hw : IsRun w) (hcs : EndsRun isWordChar cs) :
    ofLines (w ++ cs) = ofWord w :: ofLines cs := by
  have hgap : ∀ c ∈ w, isGap c = false := by
    intro c hc
    have := hw.isWordChar c hc
    simp_all [isWordChar]
  have hhead : ∀ c ∈ (uncommented (cs.takeWhile (· ≠ '\n'))).head?, isGap c = true := by
    intro c hc
    unfold uncommented at hc
    rw [List.head?_takeWhile, List.head?_takeWhile, Option.mem_def, Option.filter_eq_some_iff,
      Option.filter_eq_some_iff] at hc
    obtain ⟨⟨hc, hn⟩, hh⟩ := hc
    rcases isWordChar_eq_false_iff.1 (hcs c hc) with hg | rfl | rfl
    · exact hg
    · cases hn
    · cases hh
  refine ofLines_append [ofWord w] (hw.notMem (by decide)) ?_
  unfold ofLine
  rw [uncommented_append (hw.notMem (by decide)), runs_append hw.ne_nil hgap hhead]
  rfl

/-- Words with one blank between them are the words of their line. -/
theorem ofLines_intercalate {ws : List String} (h : ∀ w ∈ ws, IsRun w.toList) :
    ofLines (String.intercalate " " ws).toList = ws.map (ofWord ·.toList) ++ [endOfText] := by
  induction ws with
  | nil => rfl
  | cons w ws ih =>
    rw [List.forall_mem_cons] at h
    cases ws with
    | nil =>
      have hword := ofLines_run h.1 (endsRun_nil isWordChar)
      rwa [List.append_nil] at hword
    | cons v ws =>
      rw [String.intercalate_cons_cons, String.toList_append, String.toList_append, List.append_assoc,
        show " ".toList = [' '] from rfl, List.singleton_append]
      rw [ofLines_run h.1 (endsRun_cons (by decide) _), ofLines_gap (by decide), ih h.2]
      rfl

end Kind

/-! ## Whole texts -/

theorem Scanner.kinds_tokens (cs : List Char) (k : Nat) :
    (Scanner.mk cs k).tokens.map (·.kind) = Kind.ofLines cs := by
  induction cs using part_induction generalizing k with
  | nil =>
    rw [tokens_nil]
    rfl
  | newline cs ih => rw [tokens_newline, List.map_cons, ih, Kind.ofLines_newline]
  | gap c cs hc ih => rw [tokens_gap hc, ih, Kind.ofLines_gap hc]
  | comment body cs hbody hcs ih => rw [tokens_comment hbody hcs, ih, Kind.ofLines_comment hbody hcs]
  | run w cs hw hcs ih => rw [tokens_run hw hcs, List.map_cons, ih, Kind.ofLines_run hw hcs]

/-- **A text is read word by word.** The kinds of its tokens are those of its lines, no rule stops inside a
run whatever stands behind it, and the scanner never stands before a character that no rule matches. -/
theorem kinds_ofText (text : String) :
    (Token.ofText text).map (·.kind) = Kind.ofLines text.toList ∧
    (∀ w cs, IsRun w → EndsRun isWordChar cs → (Rule.longest (w ++ cs)).extent (w ++ cs) = w.length) ∧
    ∀ s : Scanner, s.rest ≠ [] → 0 < s.extent := by
  refine ⟨Scanner.kinds_tokens _ _, fun w cs => Rule.extent_longest_append, fun s hs => ?_⟩
  obtain ⟨c, cs, hcs⟩ := List.exists_cons_of_ne_nil hs
  rw [Scanner.extent, hcs]
  exact Rule.extent_longest_pos c cs

example : Kind.ofLines "emit -+*/%<>=!&|^~ _t1.X#y\n-07\t-1- +:".toList =
    [.keyword .emit, .operator "-+*/%<>=!&|^~", .identifier "_t1.X", .newline, .integer "-07", .word "-1-", .word "+:",
      .endOfText] := by
  decide

end ThreeAddress
