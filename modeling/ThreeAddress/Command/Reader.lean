import ThreeAddress.Command.Grammar
import ThreeAddress.Fault
import ThreeAddress.Token.Scanner

/-!
# Reading commands from tokens

A `Cursor` stands before the next token of a text. A reader moves it forward and gives a value or a
`SyntaxFault`; after a fault the cursor stays where the reader stopped, so that the lines behind a bad one
can still be read.

* A keyword and an integer are passed over whatever they turn out to be; a word and a line end are passed
  over only when they are what the line calls for.
* `Reader.statement` : one command with the end of its line. `Reader.statement_advances` : it passes over
  at least one token.
* `Reader.script` : the statements up to the end of the text or the first fault. `Reader.script_induction` follows
  its recursion, `Reader.script_ok_induction` that of a script without a fault.
-/

namespace ThreeAddress
open Text

/-! ## Faults of reading -/

inductive Mismatch where
  | unexpected (what : Expected) (found : Kind)
  | outOfRange
deriving DecidableEq, Repr

def Mismatch.message : Mismatch → String
  | unexpected what found => "expected " ++ what.describe ++ ", found " ++ found.describe
  | outOfRange => "integer out of range"

/-- A mismatch at the place of one token. -/
structure SyntaxFault where
  mismatch : Mismatch
  span : Span
deriving DecidableEq, Repr

def SyntaxFault.toFault (f : SyntaxFault) : Fault := .script f.mismatch.message f.span

/-! ## Cursors -/

/-- The tokens not yet read, the end one left out, and the byte at which the text ends. -/
structure Cursor where
  ahead : List Token
  stop : Nat
deriving DecidableEq, Repr

namespace Cursor

def ofText (text : String) : Cursor := ⟨(Token.ofText text).dropLast, text.utf8ByteSize⟩

/-- The next token; behind the last one the end of the text, again and again. -/
def current (c : Cursor) : Token := c.ahead.head?.getD ⟨.endOfText, c.stop, c.stop⟩

def advance (c : Cursor) : Cursor := { c with ahead := c.ahead.tail }

def skipNewlines (c : Cursor) : Cursor := { c with ahead := c.ahead.dropWhile (·.kind = .newline) }

/-- `d` lies on the way of `c` to the end of the text. -/
def LeadsTo (c d : Cursor) : Prop := d.ahead <:+ c.ahead ∧ d.stop = c.stop

theorem LeadsTo.refl (c : Cursor) : c.LeadsTo c := ⟨List.suffix_refl _, rfl⟩

theorem LeadsTo.trans {b c d : Cursor} (h : b.LeadsTo c) (h' : c.LeadsTo d) : b.LeadsTo d :=
  ⟨h'.1.trans h.1, h'.2.trans h.2⟩

theorem leadsTo_advance (c : Cursor) : c.LeadsTo c.advance := ⟨List.tail_suffix _, rfl⟩

theorem leadsTo_skipNewlines (c : Cursor) : c.LeadsTo c.skipNewlines :=
  ⟨List.dropWhile_suffix _, rfl⟩

theorem LeadsTo.length_le {c d : Cursor} (h : c.LeadsTo d) : d.ahead.length ≤ c.ahead.length :=
  h.1.length_le

theorem length_advance_lt {c : Cursor} (h : c.ahead ≠ []) :
    c.advance.ahead.length < c.ahead.length := by
  have := List.length_pos_iff.2 h
  simp only [advance, List.length_tail]
  omega

end Cursor

/-! ## Readers -/

abbrev Reader := ExceptT SyntaxFault (StateM Cursor)

namespace Reader

/-- What a reader gives at a cursor, and the cursor it leaves. -/
def run {α : Type} (r : Reader α) (c : Cursor) : Except SyntaxFault α × Cursor :=
  StateT.run (ExceptT.run r) c

variable {α β : Type}

theorem run_pure (a : α) (c : Cursor) : run (pure a) c = (.ok a, c) := rfl

theorem run_throw (f : SyntaxFault) (c : Cursor) : run (throw f : Reader α) c = (.error f, c) := rfl

theorem run_get (c : Cursor) : run get c = (.ok c, c) := rfl

theorem run_set (c d : Cursor) : run (set d) c = (.ok ⟨⟩, d) := rfl

theorem run_bind (r : Reader α) (f : α → Reader β) (c : Cursor) :
    run (r >>= f) c = match run r c with
      | (.ok a, d) => run (f a) d
      | (.error e, d) => (.error e, d) := by
  change (ExceptT.bindCont f (r c).1) (r c).2 = _
  change _ = match r c with
      | (.ok a, d) => run (f a) d
      | (.error e, d) => (.error e, d)
  rcases r c with ⟨_ | a, d⟩ <;> rfl

/-- Passes over a token of any kind. -/
def token : Reader Token := do
  let c ← get
  set c.advance
  return c.current

def word (role : Expected) : Reader (String × Span) := do
  let c ← get
  match c.current.kind.text? with
  | some text =>
    set c.advance
    return (text, c.current.span)
  | none => throw ⟨.unexpected role c.current.kind, c.current.span⟩

def integer : Reader (Int64 × Span) := do
  let t ← token
  match t.kind with
  | .integer text =>
    match Decimal.int64? text.toList with
    | some v => return (v, t.span)
    | none => throw ⟨.outOfRange, t.span⟩
  | k => throw ⟨.unexpected .integer k, t.span⟩

def field : (f : Field) → Reader (f.Value × Span)
  | .word role => word role
  | .integer => integer

/-- The values of the fields and the place of the last one, or `last` when there is none. -/
def fields (last : Span) : (fs : List Field) → Reader (Field.Values fs × Span)
  | [] => return ((), last)
  | f :: fs => do
    let (value, span) ← field f
    let (values, stop) ← fields span fs
    return ((value, values), stop)

/-- Passes over a line end; the end of the text ends a line as well. -/
def endOfLine : Reader Unit := do
  let c ← get
  match c.current.kind with
  | .newline => set c.advance
  | .endOfText => return ()
  | k => throw ⟨.unexpected .endOfLine k, c.current.span⟩

def statement : Reader Statement := do
  let t ← token
  match t.kind with
  | .keyword k =>
    let (values, last) ← fields t.span k.fields
    endOfLine
    return ⟨k.command values, t.span.merge last⟩
  | k => throw ⟨.unexpected .command k, t.span⟩

/-! ## Readers only move forward -/

def MovesForward (r : Reader α) : Prop := ∀ c : Cursor, c.LeadsTo (run r c).2

theorem MovesForward.pure (a : α) : MovesForward (pure a) := fun c => Cursor.LeadsTo.refl c

theorem MovesForward.throw (f : SyntaxFault) : MovesForward (throw f : Reader α) :=
  fun c => Cursor.LeadsTo.refl c

theorem MovesForward.bind {r : Reader α} {f : α → Reader β} (hr : MovesForward r)
    (hf : ∀ a, MovesForward (f a)) : MovesForward (r >>= f) := by
  intro c
  have h := hr c
  rw [run_bind]
  revert h
  rcases run r c with ⟨_ | a, d⟩
  · exact id
  · exact fun h => h.trans (hf a d)

theorem run_token (c : Cursor) : run token c = (.ok c.current, c.advance) := rfl

theorem movesForward_token : MovesForward token := fun c => c.leadsTo_advance

theorem movesForward_word (role : Expected) : MovesForward (word role) := by
  intro c
  simp only [word, run_bind, run_get]
  split
  · exact c.leadsTo_advance
  · exact Cursor.LeadsTo.refl c

theorem movesForward_integer : MovesForward integer := by
  refine movesForward_token.bind fun t => ?_
  split
  · split
    · exact .pure _
    · exact .throw _
  · exact .throw _

theorem movesForward_field (f : Field) : MovesForward (field f) := by
  cases f with
  | word role => exact movesForward_word role
  | integer => exact movesForward_integer

theorem movesForward_fields (last : Span) (fs : List Field) : MovesForward (fields last fs) := by
  induction fs generalizing last with
  | nil => exact .pure _
  | cons f fs ih => exact (movesForward_field f).bind fun _ => (ih _).bind fun _ => .pure _

theorem movesForward_endOfLine : MovesForward endOfLine := by
  intro c
  simp only [endOfLine, run_bind, run_get]
  split
  · exact c.leadsTo_advance
  · exact Cursor.LeadsTo.refl c
  · exact Cursor.LeadsTo.refl c

/-- A statement passes over its first token whatever comes of it. -/
theorem statement_advances (c : Cursor) : c.advance.LeadsTo (run statement c).2 := by
  rw [statement, run_bind, run_token]
  dsimp only
  split
  · exact ((movesForward_fields _ _).bind fun _ => movesForward_endOfLine.bind fun _ => .pure _) _
  · exact Cursor.LeadsTo.refl _

theorem advance_leadsTo_of_run {c d : Cursor} {r : Except SyntaxFault Statement} (h : run statement c = (r, d)) :
    c.advance.LeadsTo d := by
  have hadvance := statement_advances c
  rwa [h] at hadvance

theorem leadsTo_of_run {c d : Cursor} {r : Except SyntaxFault Statement} (h : run statement c = (r, d)) : c.LeadsTo d :=
  c.leadsTo_advance.trans (advance_leadsTo_of_run h)

theorem length_statement_lt {c : Cursor} (h : c.ahead ≠ []) :
    (run statement c).2.ahead.length < c.ahead.length :=
  Nat.lt_of_le_of_lt (statement_advances c).length_le (Cursor.length_advance_lt h)

/-! ## Whole scripts -/

/-- The statements from a cursor on, and the cursor behind them or behind the first fault. -/
def script (c : Cursor) : Except SyntaxFault (List Statement) × Cursor :=
  let c' := c.skipNewlines
  if _ : c'.ahead = [] then (.ok [], c')
  else
    match run statement c', length_statement_lt (c := c') ‹_› with
    | (.error f, d), _ => (.error f, d)
    | (.ok s, d), _ =>
      match script d with
      | (.ok ss, e) => (.ok (s :: ss), e)
      | (.error f, e) => (.error f, e)
termination_by c.ahead.length
decreasing_by
  rename_i h
  exact Nat.lt_of_lt_of_le h c.leadsTo_skipNewlines.length_le

theorem script_of_nil {c : Cursor} (h : c.skipNewlines.ahead = []) : script c = (.ok [], c.skipNewlines) := by
  rw [script, dif_pos h]

theorem script_of_error {c d : Cursor} {f : SyntaxFault} (h : c.skipNewlines.ahead ≠ [])
    (hs : run statement c.skipNewlines = (.error f, d)) : script c = (.error f, d) := by
  rw [script, dif_neg h]
  split
  · next heq _ =>
    rw [hs] at heq
    cases heq
    rfl
  · next heq _ =>
    rw [hs] at heq
    cases heq

theorem script_of_ok {c d : Cursor} {s : Statement} (h : c.skipNewlines.ahead ≠ [])
    (hs : run statement c.skipNewlines = (.ok s, d)) :
    script c = ((script d).1.map (s :: ·), (script d).2) := by
  rw [script, dif_neg h]
  split
  · next heq _ =>
    rw [hs] at heq
    cases heq
  · next heq _ =>
    rw [hs] at heq
    cases heq
    rcases script d with ⟨_ | ss, e⟩ <;> rfl

/-- What holds at the end of the text, where a statement fails, and where one is read if it holds behind it, holds
at every cursor. -/
theorem script_induction {P : Cursor → Prop} (nil : ∀ c : Cursor, c.skipNewlines.ahead = [] → P c)
    (error : ∀ (c d : Cursor) (f : SyntaxFault), c.skipNewlines.ahead ≠ [] →
      run statement c.skipNewlines = (.error f, d) → P c)
    (ok : ∀ (c d : Cursor) (s : Statement), c.skipNewlines.ahead ≠ [] →
      run statement c.skipNewlines = (.ok s, d) → P d → P c) (c : Cursor) : P c := by
  induction hn : c.ahead.length using Nat.strongRecOn generalizing c with
  | ind n ih =>
    subst hn
    by_cases hnil : c.skipNewlines.ahead = []
    · exact nil c hnil
    · rcases hs : run statement c.skipNewlines with ⟨f | s, d⟩
      · exact error c d f hnil hs
      · have hlt := length_statement_lt hnil
        rw [hs] at hlt
        exact ok c d s hnil hs (ih _ (Nat.lt_of_lt_of_le hlt c.leadsTo_skipNewlines.length_le) d rfl)

/-- The same for what holds of a cursor and the statements that are read from it on. -/
theorem script_ok_induction {P : Cursor → List Statement → Prop}
    (nil : ∀ c : Cursor, c.skipNewlines.ahead = [] → P c [])
    (cons : ∀ (c d : Cursor) (s : Statement) (ss : List Statement), c.skipNewlines.ahead ≠ [] →
      run statement c.skipNewlines = (.ok s, d) → (script d).1 = .ok ss → P d ss → P c (s :: ss))
    {c : Cursor} {ss : List Statement} (h : (script c).1 = .ok ss) : P c ss := by
  induction c using script_induction generalizing ss with
  | nil c hnil =>
    rw [script_of_nil hnil] at h
    cases h
    exact nil c hnil
  | error c d f hne hs =>
    rw [script_of_error hne hs] at h
    cases h
  | ok c d s hne hs ih =>
    rw [script_of_ok hne hs] at h
    cases hd : (script d).1 with
    | error f =>
      rw [hd] at h
      cases h
    | ok ss' =>
      rw [hd] at h
      cases h
      exact cons c d s ss' hne hs hd (ih hd)

end Reader

/-- Reads a whole text. -/
def Statement.ofText? (text : String) : Except SyntaxFault (List Statement) :=
  (Reader.script (Cursor.ofText text)).1

end ThreeAddress
