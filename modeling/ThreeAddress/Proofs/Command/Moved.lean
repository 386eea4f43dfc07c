import Mathlib.Order.MinMax
import ThreeAddress.Command.Reader

/-!
# Reading does not depend on places

Every place in a text may be moved by a monotone map of positions, several to one place as well. Readers see only the
kinds of tokens and cover places with spans, so that they give the same at the moved places.

* `Span.move`, `Token.move`, `Cursor.move`, `Statement.move`, `SyntaxFault.move` : the same at moved places;
* `Reader.Moves f v r r'` : `r'` gives at moved places what `r` gives, with its value changed by `v`. One reader behind
  another does (`Moves.bind`), and so does a statement (`Reader.moves_statement`);
* `Reader.script_move` : a script at moved places;
* `Reader.unplaced_script_of_map_kind` : what is read from tokens of the same kinds is the same but for places.
-/

namespace ThreeAddress

/-! ## Moved places -/

def Span.move (f : Nat → Nat) (s : Span) : Span := ⟨f s.start, f s.stop⟩

theorem Span.move_merge {f : Nat → Nat} (hf : Monotone f) (a b : Span) :
    (a.merge b).move f = (a.move f).merge (b.move f) := by
  unfold merge move
  rw [Span.mk.injEq]
  exact ⟨hf.map_min, hf.map_max⟩

def Token.move (f : Nat → Nat) (t : Token) : Token := ⟨t.kind, t.span.move f⟩

def Statement.move (f : Nat → Nat) (s : Statement) : Statement := ⟨s.command, s.span.move f⟩

def SyntaxFault.move (f : Nat → Nat) (e : SyntaxFault) : SyntaxFault := ⟨e.mismatch, e.span.move f⟩

namespace Cursor

def move (f : Nat → Nat) (c : Cursor) : Cursor := ⟨c.ahead.map (Token.move f), f c.stop⟩

@[simp] theorem current_move (f : Nat → Nat) (c : Cursor) : (c.move f).current = c.current.move f := by
  unfold current move
  cases c.ahead <;> rfl

@[simp] theorem advance_move (f : Nat → Nat) (c : Cursor) : (c.move f).advance = c.advance.move f := by
  unfold advance move
  rw [List.map_tail]

@[simp] theorem skipNewlines_move (f : Nat → Nat) (c : Cursor) : (c.move f).skipNewlines = c.skipNewlines.move f := by
  unfold skipNewlines move
  rw [List.dropWhile_map]
  rfl

theorem ahead_move_eq_nil_iff {f : Nat → Nat} {c : Cursor} : (c.move f).ahead = [] ↔ c.ahead = [] := List.map_eq_nil_iff

end Cursor

/-! ## Readers at moved places -/

namespace Reader

variable {α β : Type} {f : Nat → Nat}

/-- What a reader gives, and where it stops, at moved places. -/
def moved (f : Nat → Nat) (v : α → β) (r : Except SyntaxFault α × Cursor) : Except SyntaxFault β × Cursor :=
  ((r.1.map v).mapError (SyntaxFault.move f), r.2.move f)

def Moves (f : Nat → Nat) (v : α → α) (r r' : Reader α) : Prop := ∀ c : Cursor, run r' (c.move f) = moved f v (run r c)

theorem Moves.pure {v : α → α} {a b : α} (h : v a = b) : Moves f v (pure a) (pure b) := fun c => by
  rw [run_pure, run_pure, ← h]
  rfl

theorem Moves.throw {v : α → α} (e : SyntaxFault) : Moves f v (throw e) (throw (e.move f)) := fun _ => rfl

theorem Moves.bind {v : α → α} {w : β → β} {r r' : Reader α} {k k' : α → Reader β} (hr : Moves f v r r')
    (hk : ∀ a, Moves f w (k a) (k' (v a))) : Moves f w (r >>= k) (r' >>= k') := by
  intro c
  rw [run_bind, run_bind, hr c]
  rcases run r c with ⟨e | a, d⟩
  · rfl
  · exact hk a d

theorem moves_token : Moves f (Token.move f) token token := by
  intro c
  rw [run_token, run_token, Cursor.current_move, Cursor.advance_move]
  rfl

/-- A value keeps, and its place is moved. -/
def placed (f : Nat → Nat) (a : α × Span) : α × Span := (a.1, a.2.move f)

theorem moves_word (role : Expected) : Moves f (placed f) (word role) (word role) := by
  intro c
  simp only [word, run_bind, run_get, Cursor.current_move, Cursor.advance_move, Token.move]
  cases c.current.kind.text? <;> rfl

theorem moves_integer : Moves f (placed f) integer integer := by
  refine moves_token.bind fun t => ?_
  simp only [Token.move]
  split
  · split
    · exact .pure rfl
    · exact .throw _
  · exact .throw _

theorem moves_field (g : Field) : Moves f (placed f) (field g) (field g) := by
  cases g with
  | word role => exact moves_word role
  | integer => exact moves_integer

theorem moves_fields (last : Span) (fs : List Field) :
    Moves f (placed f) (fields last fs) (fields (last.move f) fs) := by
  induction fs generalizing last with
  | nil => exact .pure rfl
  | cons g fs ih => exact (moves_field g).bind fun a => (ih a.2).bind fun b => .pure rfl

theorem moves_endOfLine : Moves f id endOfLine endOfLine := by
  intro c
  simp only [endOfLine, run_bind, run_get, Cursor.current_move, Cursor.advance_move, Token.move]
  cases c.current.kind <;> rfl

theorem moves_statement (hf : Monotone f) : Moves f (Statement.move f) statement statement := by
  refine moves_token.bind fun t => ?_
  simp only [Token.move]
  split
  · refine (moves_fields t.span _).bind fun a => moves_endOfLine.bind fun _ => .pure ?_
    exact congrArg (Statement.mk _) (Span.move_merge hf t.span a.2)
  · exact .throw _

/-- **A script at moved places** is read as the same statements at moved places, or fails in the same way. -/
theorem script_move (hf : Monotone f) (c : Cursor) :
    script (c.move f) = moved f (List.map (Statement.move f)) (script c) := by
  induction c using script_induction with
  | nil c hnil =>
    rw [script_of_nil (by rwa [Cursor.skipNewlines_move, Cursor.ahead_move_eq_nil_iff]), script_of_nil hnil,
      Cursor.skipNewlines_move]
    rfl
  | error c d e hne hs =>
    have hmoved := moves_statement hf c.skipNewlines
    rw [hs, ← Cursor.skipNewlines_move] at hmoved
    rw [script_of_error (by rwa [Cursor.skipNewlines_move, ne_eq, Cursor.ahead_move_eq_nil_iff]) hmoved,
      script_of_error hne hs]
    rfl
  | ok c d s hne hs ih =>
    have hmoved := moves_statement hf c.skipNewlines
    rw [hs, ← Cursor.skipNewlines_move] at hmoved
    rw [script_of_ok (by rwa [Cursor.skipNewlines_move, ne_eq, Cursor.ahead_move_eq_nil_iff]) hmoved,
      script_of_ok hne hs, ih]
    rcases script d with ⟨e | ss, d'⟩ <;> rfl

/-- What was read, without the places. -/
def unplaced (r : Except SyntaxFault (List Statement)) : Except Mismatch (List Command) :=
  (r.map (List.map (·.command))).mapError (·.mismatch)

theorem unplaced_moved (r : Except SyntaxFault (List Statement) × Cursor) :
    unplaced (moved f (List.map (Statement.move f)) r).1 = unplaced r.1 := by
  rcases r with ⟨e | ss, d⟩
  · rfl
  · show Except.ok ((ss.map (Statement.move f)).map (·.command)) = Except.ok (ss.map (·.command))
    rw [List.map_map]
    rfl

/-- Where all places are one, cursors with tokens of the same kinds are the same. -/
theorem unplaced_script_of_map_kind {c d : Cursor} (h : c.ahead.map (·.kind) = d.ahead.map (·.kind)) :
    unplaced (script c).1 = unplaced (script d).1 := by
  have hone : Monotone fun _ : Nat => 0 := fun _ _ _ => Nat.le_refl 0
  have hmove : ∀ ts : List Token, ts.map (Token.move fun _ => 0) = (ts.map (·.kind)).map (⟨·, 0, 0⟩) := fun ts => by
    rw [List.map_map]
    rfl
  have hcd : c.move (fun _ => 0) = d.move fun _ => 0 := by
    unfold Cursor.move
    rw [hmove, hmove, h]
  rw [← unplaced_moved (script c), ← script_move hone, hcd, script_move hone, unplaced_moved]

end Reader
end ThreeAddress
