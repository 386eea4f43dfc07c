import Mathlib.Data.List.Forall2
import ThreeAddress.Proofs.Command.Accepts
import ThreeAddress.Proofs.Token.Place
import ThreeAddress.Text.Class

/-!
# The language of scripts

* `Command.Says line c` : the grammar. A line of these kinds, in one of five forms, says the command `c`;
* `Kind.lines` : the lines of a sequence of kinds that hold something;
* `Reader.script_ok_iff` : reading gives a list of commands exactly when each line in turn says its command,
  and `Statement.ofText?_ok_iff` for whole texts;
* `Statement.exists_ofText?_append_newline` : a text in pieces is read as the commands of its pieces.
-/

namespace ThreeAddress
open Text

/-- The five forms of a line. A word is any kind with a text, the commands included; a value is an integer of
64 bits with a sign; an operand `_` is none. -/
inductive Command.Says : List Kind → Command → Prop
  | insert {name type : Kind} {n t digits : String} {i : Int} (hname : name.text? = some n)
      (htype : type.text? = some t) (hvalue : Decimal.signed? digits.toList = some i)
      (hlow : -9223372036854775808 ≤ i) (hhigh : i ≤ 9223372036854775807) :
      Says [.keyword .insert, name, type, .integer digits] (.insert ⟨n, t, Int64.ofInt i⟩)
  | lookup {name : Kind} {n : String} (hname : name.text? = some n) :
      Says [.keyword .lookup, name] (.lookup n)
  | emit {op arg1 arg2 result : Kind} {o a b r : String} (hop : op.text? = some o)
      (harg1 : arg1.text? = some a) (harg2 : arg2.text? = some b) (hresult : result.text? = some r) :
      Says [.keyword .emit, op, arg1, arg2, result] (.emit ⟨o, a, if b = "_" then "" else b, r⟩)
  | reset : Says [.keyword .reset] .reset
  | print : Says [.keyword .print] .print

example : Command.Says [.keyword .lookup, .keyword .insert] (.lookup "insert") := .lookup rfl

/-- What stands between line ends, where it is anything at all. -/
def Kind.lines (ks : List Kind) : List (List Kind) := runs (· = .newline) ks

theorem Kind.lines_append_newline (ks ls : List Kind) : lines (ks ++ .newline :: ls) = lines ks ++ lines ls :=
  runs_append_cons (by decide) ks ls

namespace Command

/-- The grammar, keyword by keyword: the fields behind it are taken, and their values make the command. -/
theorem says_iff {ks : List Kind} {c : Command} :
    Says ks c ↔ ∃ k rest vs, ks = .keyword k :: rest ∧ Field.Taken k.fields rest vs ∧ c = k.command vs := by
  constructor
  · intro h
    cases h with
    | insert hname htype hvalue hlow hhigh =>
      refine ⟨.insert, _, (_, _, _, ()), rfl,
        ⟨_, _, rfl, hname, _, _, rfl, htype, _, _, rfl, ⟨_, rfl, ?_⟩, rfl⟩, rfl⟩
      exact Decimal.int64?_eq_some_iff.2 ⟨_, hvalue, hlow, hhigh, rfl⟩
    | lookup hname => exact ⟨.lookup, _, (_, ()), rfl, ⟨_, _, rfl, hname, rfl⟩, rfl⟩
    | emit hop harg1 harg2 hresult =>
      exact ⟨.emit, _, (_, _, _, _, ()), rfl,
        ⟨_, _, rfl, hop, _, _, rfl, harg1, _, _, rfl, harg2, _, _, rfl, hresult, rfl⟩, rfl⟩
    | reset => exact ⟨.reset, _, (), rfl, rfl, rfl⟩
    | print => exact ⟨.print, _, (), rfl, rfl, rfl⟩
  · rintro ⟨k, rest, vs, rfl, htaken, rfl⟩
    cases k with
    | insert =>
      obtain ⟨n, t, v, ⟨⟩⟩ := vs
      obtain ⟨_, _, rfl, hname, _, _, rfl, htype, _, _, rfl, ⟨digits, rfl, hv⟩, rfl⟩ := htaken
      obtain ⟨i, hi, hlow, hhigh, rfl⟩ := Decimal.int64?_eq_some_iff.1 hv
      exact .insert hname htype hi hlow hhigh
    | lookup =>
      obtain ⟨n, ⟨⟩⟩ := vs
      obtain ⟨_, _, rfl, hname, rfl⟩ := htaken
      exact .lookup hname
    | emit =>
      obtain ⟨o, a, b, r, ⟨⟩⟩ := vs
      obtain ⟨_, _, rfl, hop, _, _, rfl, harg1, _, _, rfl, harg2, _, _, rfl, hresult, rfl⟩ := htaken
      exact .emit hop harg1 harg2 hresult
    | reset =>
      rw [show rest = [] from htaken]
      exact .reset
    | print =>
      rw [show rest = [] from htaken]
      exact .print

/-- A line holds words only. -/
theorem Says.text?_ne_none {line : List Kind} {c : Command} (h : Says line c) : ∀ k ∈ line, k.text? ≠ none := by
  cases h <;> simp_all [Kind.text?]

/-- A line says one command at most. -/
theorem Says.unique {ks : List Kind} {c d : Command} (hc : Says ks c) (hd : Says ks d) : c = d := by
  cases hc <;> cases hd <;> simp_all

end Command

/-! ## Lines of tokens -/

namespace Statement

variable {s : Statement} {part : List Token}

theorem IsReadFrom.says_command (h : s.IsReadFrom part) : Command.Says (part.map (·.kind)) s.command := by
  obtain ⟨t, ts, k, vs, rfl, hk, htaken, rfl⟩ := h
  exact Command.says_iff.2 ⟨k, _, vs, by rw [List.map_cons, hk], htaken, rfl⟩

theorem IsReadFrom.exists_text? (h : s.IsReadFrom part) {t : Token} (ht : t ∈ part) : ∃ w, t.kind.text? = some w :=
  Option.ne_none_iff_exists'.1 (h.says_command.text?_ne_none _ (List.mem_map_of_mem ht))

theorem IsReadFrom.ne_newline (h : s.IsReadFrom part) {t : Token} (ht : t ∈ part) : t.kind ≠ .newline := by
  obtain ⟨w, hw⟩ := h.exists_text? ht
  intro hnewline
  rw [hnewline] at hw
  cases hw

/-- Tokens of a line are read as what the line says. -/
theorem exists_isReadFrom {c : Command} (h : Command.Says (part.map (·.kind)) c) :
    ∃ s : Statement, s.IsReadFrom part ∧ s.command = c := by
  obtain ⟨k, rest, vs, hpart, htaken, rfl⟩ := Command.says_iff.1 h
  obtain ⟨t, ts, rfl, hk, rfl⟩ := List.map_eq_cons_iff.1 hpart
  exact ⟨_, ⟨t, ts, k, vs, rfl, hk, htaken, rfl⟩, rfl⟩

end Statement

theorem Kind.lines_dropWhile (ts : List Token) :
    lines ((ts.dropWhile (·.kind = .newline)).map (·.kind)) = lines (ts.map (·.kind)) := by
  induction ts with
  | nil => rfl
  | cons t ts ih =>
    by_cases ht : t.kind = .newline
    · rw [List.dropWhile_cons_of_pos (by simpa using ht), ih, List.map_cons]
      exact (runs_cons (by simpa using ht) _).symm
    · rw [List.dropWhile_cons_of_neg (by simpa using ht)]

theorem Cursor.lines_skipNewlines (c : Cursor) :
    Kind.lines (c.skipNewlines.ahead.map (·.kind)) = Kind.lines (c.ahead.map (·.kind)) :=
  Kind.lines_dropWhile c.ahead

/-- Behind blank lines comes a line, unless nothing does; behind it comes a line end or nothing. -/
theorem Cursor.exists_line {c : Cursor} (h : c.skipNewlines.ahead ≠ []) :
    ∃ line rest, c.skipNewlines.ahead = line ++ rest ∧ (∀ u ∈ rest.head?, u.kind = .newline) ∧
      Kind.lines (c.skipNewlines.ahead.map (·.kind)) =
        line.map (·.kind) :: Kind.lines (rest.map (·.kind)) := by
  have hends : EndsRun (· = .newline) (c.skipNewlines.ahead.map (·.kind)) := by
    intro k hk
    rw [List.head?_map, Option.mem_def, Option.map_eq_some_iff] at hk
    obtain ⟨t, ht, rfl⟩ := hk
    exact endsRun_dropWhile (fun t : Token => t.kind = .newline) c.ahead t ht
  obtain ⟨w, ks, hw, hks, hruns⟩ := runs_eq_cons (by simpa using h) hends
  obtain ⟨line, rest, ha, rfl, rfl⟩ := List.map_eq_append_iff.1 hw
  refine ⟨line, rest, ha, fun u hu => ?_, hruns⟩
  have := hks u.kind (by rw [List.head?_map, Option.mem_def.1 hu]; rfl)
  simpa using this

namespace Reader

/-- Behind the end of a line the other lines follow. -/
theorem EndsLine.lines_eq {d e : Cursor} (hd : d.Plain) (h : EndsLine d e) :
    (∀ k ∈ (d.ahead.map (·.kind)).head?, k = .newline) ∧
      Kind.lines (d.ahead.map (·.kind)) = Kind.lines (e.ahead.map (·.kind)) := by
  rcases h with ⟨hk, rfl⟩ | ⟨hk, rfl⟩
  · rw [Cursor.ahead_of_current (by simp [hk]), List.map_cons, hk]
    exact ⟨by simp, runs_cons (by simp) _⟩
  · rw [hd.current_eq_iff.1 hk]
    exact ⟨by simp, rfl⟩

/-- A statement that is read is what the first line says, and the other lines are left. -/
theorem says_of_run_statement {c e : Cursor} {s : Statement} (hc : c.Plain)
    (h : run statement c = (.ok s, e)) :
    ∃ line, Kind.lines (c.ahead.map (·.kind)) = line :: Kind.lines (e.ahead.map (·.kind)) ∧
      Command.Says line s.command := by
  obtain ⟨part, d, hread, ha, hs, hend⟩ := run_statement_ok_iff.1 h
  have hd : d.Plain := hc.of_leadsTo ⟨⟨part, ha.symm⟩, hs.symm⟩
  obtain ⟨hhead, hlines⟩ := hend.lines_eq hd
  refine ⟨part.map (·.kind), ?_, hread.says_command⟩
  rw [ha, List.map_append, ← hlines]
  refine runs_append (by simpa using hread.ne_nil) (List.forall_mem_map.2 fun t ht => ?_) (by simpa using hhead)
  exact decide_eq_false (hread.ne_newline ht)

/-- A line that says a command is read. -/
theorem run_statement_of_says {c : Cursor} {ts us : List Token} {cmd : Command} (ha : c.ahead = ts ++ us)
    (hus : ∀ u ∈ us.head?, u.kind = .newline) (h : Command.Says (ts.map (·.kind)) cmd) :
    ∃ s e, run statement c = (.ok s, e) := by
  obtain ⟨s, hread, -⟩ := Statement.exists_isReadFrom h
  have hend : ∃ e, EndsLine ⟨us, c.stop⟩ e := by
    cases us with
    | nil => exact ⟨_, .inr ⟨rfl, rfl⟩⟩
    | cons u us => exact ⟨_, .inl ⟨hus u (by simp), rfl⟩⟩
  obtain ⟨e, he⟩ := hend
  exact ⟨s, e, run_statement_ok_iff.2 ⟨ts, ⟨us, c.stop⟩, hread, ha, rfl, he⟩⟩

/-! ## Scripts -/

/-- Reading from a plain cursor gives what the lines ahead say, command by command. -/
theorem script_ok_iff {c : Cursor} (hc : c.Plain) (cmds : List Command) :
    (∃ ss, (script c).1 = .ok ss ∧ ss.map (·.command) = cmds) ↔
      List.Forall₂ Command.Says (Kind.lines (c.ahead.map (·.kind))) cmds := by
  induction c using script_induction generalizing cmds with
  | nil c hnil =>
    rw [← c.lines_skipNewlines, script_of_nil hnil, hnil]
    simp [Kind.lines, eq_comm]
  | error c d f hne hs =>
    rw [← c.lines_skipNewlines, script_of_error hne hs]
    refine iff_of_false (fun ⟨_, h, _⟩ => by cases h) fun h => ?_
    obtain ⟨line, rest, ha, hrest, hlines⟩ := c.exists_line hne
    rw [hlines] at h
    obtain ⟨cmd, _, hsays, -, -⟩ := List.forall₂_cons_left_iff.1 h
    obtain ⟨s, e, hok⟩ := run_statement_of_says ha hrest hsays
    rw [hs] at hok
    cases hok
  | ok c d s hne hs ih =>
    have hc' : c.skipNewlines.Plain := hc.of_leadsTo c.leadsTo_skipNewlines
    have hd : d.Plain := hc'.of_leadsTo (leadsTo_of_run hs)
    obtain ⟨line, hlines, hsays⟩ := says_of_run_statement hc' hs
    rw [← c.lines_skipNewlines, script_of_ok hne hs, hlines, List.forall₂_cons_left_iff]
    constructor
    · rintro ⟨ss, hss, rfl⟩
      rcases he : (script d).1 with f | ss'
      · rw [he] at hss
        cases hss
      · rw [he] at hss
        cases hss
        exact ⟨_, _, hsays, (ih hd _).1 ⟨ss', he, rfl⟩, rfl⟩
    · rintro ⟨cmd, cmds, hcmd, hcmds, rfl⟩
      obtain ⟨ss, hss, rfl⟩ := (ih hd _).2 hcmds
      refine ⟨s :: ss, by rw [hss]; rfl, ?_⟩
      rw [List.map_cons, hsays.unique hcmd]

end Reader

theorem Command.exists_forall₂_says_iff {lines : List (List Kind)} :
    (∃ cmds, List.Forall₂ Says lines cmds) ↔ ∀ line ∈ lines, ∃ c, Says line c := by
  induction lines with
  | nil => exact iff_of_true ⟨[], .nil⟩ (List.forall_mem_nil _)
  | cons line lines ih =>
    rw [List.forall_mem_cons, ← ih]
    constructor
    · rintro ⟨_, hcmds⟩
      obtain ⟨c, cmds, hc, hcmds, -⟩ := List.forall₂_cons_left_iff.1 hcmds
      exact ⟨⟨c, hc⟩, cmds, hcmds⟩
    · rintro ⟨⟨c, hc⟩, cmds, hcmds⟩
      exact ⟨c :: cmds, .cons hc hcmds⟩

/-- Texts with a line end between them are read one after the other. -/
theorem Statement.exists_ofText?_append_newline {text₁ text₂ : String} {ss₁ ss₂ : List Statement}
    (h₁ : ofText? text₁ = .ok ss₁) (h₂ : ofText? text₂ = .ok ss₂) :
    ∃ ss, ofText? (text₁ ++ "\n" ++ text₂) = .ok ss ∧
      ss.map (·.command) = ss₁.map (·.command) ++ ss₂.map (·.command) := by
  have hfirst := (Reader.script_ok_iff (Cursor.plain_ofText text₁) _).1 ⟨ss₁, h₁, rfl⟩
  have hsecond := (Reader.script_ok_iff (Cursor.plain_ofText text₂) _).1 ⟨ss₂, h₂, rfl⟩
  refine (Reader.script_ok_iff (Cursor.plain_ofText _) _).2 ?_
  have hlines : Kind.lines ((Cursor.ofText (text₁ ++ "\n" ++ text₂)).ahead.map (·.kind)) =
      Kind.lines ((Cursor.ofText text₁).ahead.map (·.kind)) ++
        Kind.lines ((Cursor.ofText text₂).ahead.map (·.kind)) := by
    rw [Cursor.ofText, Token.kinds_ofText_append_newline, Kind.lines_append_newline]
    rfl
  rw [hlines]
  exact List.rel_append hfirst hsecond

/-- **A text is read exactly when each of its lines says a command**, and then it is read as these commands,
one for each line that is not blank. -/
theorem Statement.ofText?_ok_iff (text : String) :
    ((∃ ss, ofText? text = .ok ss) ↔
      ∀ line ∈ Kind.lines ((Token.ofText text).dropLast.map (·.kind)), ∃ c, Command.Says line c) ∧
    ∀ cmds, (∃ ss, ofText? text = .ok ss ∧ ss.map (·.command) = cmds) ↔
      List.Forall₂ Command.Says (Kind.lines ((Token.ofText text).dropLast.map (·.kind))) cmds := by
  have hread := Reader.script_ok_iff (Cursor.plain_ofText text)
  refine ⟨?_, hread⟩
  rw [← Command.exists_forall₂_says_iff]
  constructor
  · rintro ⟨ss, hss⟩
    exact ⟨_, (hread _).1 ⟨ss, hss, rfl⟩⟩
  · rintro ⟨cmds, hcmds⟩
    obtain ⟨ss, hss, -⟩ := (hread cmds).2 hcmds
    exact ⟨ss, hss⟩

end ThreeAddress
