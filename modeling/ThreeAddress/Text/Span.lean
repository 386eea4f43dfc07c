/-!
# Spans: places in a text, counted in bytes of its UTF-8 form

* `Span` : the half-open range from byte `start` to byte `stop`; `Span.merge` covers two spans,
  `Span.shift` moves one;
* `utf8Length cs` : the bytes of the characters `cs`, additive over `++` (`utf8Length_append`), so that a text is cut at
  one place only by a number of bytes (`exists_eq_append_of_utf8Length_le`);
* `slice? cs s` : the characters at a span, when both its ends lie on character boundaries.
-/

namespace ThreeAddress

structure Span where
  start : Nat
  stop : Nat
deriving DecidableEq, Repr, Inhabited

namespace Span

/-- The smallest span that covers both. -/
def merge (a b : Span) : Span := ⟨min a.start b.start, max a.stop b.stop⟩

def length (s : Span) : Nat := s.stop - s.start

def isEmpty (s : Span) : Bool := s.start == s.stop

/-- The same place in a text that has `d` more bytes in front. -/
def shift (d : Nat) (s : Span) : Span := ⟨s.start + d, s.stop + d⟩

end Span

namespace Text

def utf8Length : List Char → Nat
  | [] => 0
  | c :: cs => c.utf8Size + utf8Length cs

@[simp] theorem utf8Length_nil : utf8Length [] = 0 := rfl

@[simp] theorem utf8Length_cons (c : Char) (cs : List Char) :
    utf8Length (c :: cs) = c.utf8Size + utf8Length cs := rfl

@[simp] theorem utf8Length_append (as bs : List Char) :
    utf8Length (as ++ bs) = utf8Length as + utf8Length bs := by
  induction as with
  | nil => simp
  | cons c as ih => simp [ih, Nat.add_assoc]

theorem length_le_utf8Length (cs : List Char) : cs.length ≤ utf8Length cs := by
  induction cs with
  | nil => simp
  | cons c cs ih => have := c.utf8Size_pos; simp; omega

theorem utf8Length_eq_zero_iff {cs : List Char} : utf8Length cs = 0 ↔ cs = [] := by
  constructor
  · intro h
    have hlength := length_le_utf8Length cs
    exact List.length_eq_zero_iff.1 (by omega)
  · rintro rfl
    rfl

/-- Of two parts at the front of a text the one with fewer bytes is the front of the other. -/
theorem exists_eq_append_of_utf8Length_le {as bs cs ds : List Char} (h : as ++ bs = cs ++ ds)
    (hle : utf8Length as ≤ utf8Length cs) : ∃ mid, cs = as ++ mid ∧ bs = mid ++ ds := by
  rcases List.append_eq_append_iff.1 h with ⟨mid, hcs, hbs⟩ | ⟨mid, rfl, rfl⟩
  · exact ⟨mid, hcs, hbs⟩
  · rw [utf8Length_append] at hle
    obtain rfl := utf8Length_eq_zero_iff.1 (by omega : utf8Length mid = 0)
    exact ⟨[], by simp, rfl⟩

/-- The bytes of a text are those of its characters. -/
theorem utf8Length_toList (s : String) : utf8Length s.toList = s.utf8ByteSize := by
  suffices h : ∀ cs : List Char, utf8Length cs = (String.ofList cs).utf8ByteSize by
    rw [h, String.ofList_toList]
  intro cs
  induction cs with
  | nil => rfl
  | cons c cs ih =>
    rw [utf8Length_cons, ih, String.ofList_cons, String.utf8ByteSize_append, String.utf8ByteSize_singleton]

/-- Drops exactly `n` bytes, or gives `none` when byte `n` is inside a character or past the end. -/
def dropBytes? : Nat → List Char → Option (List Char)
  | 0, cs => some cs
  | _ + 1, [] => none
  | n + 1, c :: cs => if c.utf8Size ≤ n + 1 then dropBytes? (n + 1 - c.utf8Size) cs else none

/-- Takes exactly `n` bytes, or gives `none` when byte `n` is inside a character or past the end. -/
def takeBytes? : Nat → List Char → Option (List Char)
  | 0, _ => some []
  | _ + 1, [] => none
  | n + 1, c :: cs =>
    if c.utf8Size ≤ n + 1 then (takeBytes? (n + 1 - c.utf8Size) cs).map (c :: ·) else none

/-- The characters at a span, when both its ends lie on character boundaries of the text. -/
def slice? (cs : List Char) (s : Span) : Option (List Char) :=
  (dropBytes? s.start cs).bind (takeBytes? s.length)

theorem dropBytes?_append (as bs : List Char) : dropBytes? (utf8Length as) (as ++ bs) = some bs := by
  induction as with
  | nil => simp [dropBytes?]
  | cons c as ih =>
    have hc := c.utf8Size_pos
    obtain ⟨n, hn⟩ : ∃ n, utf8Length (c :: as) = n + 1 :=
      ⟨c.utf8Size + utf8Length as - 1, by simp; omega⟩
    have hle : c.utf8Size ≤ n + 1 := by rw [← hn]; simp
    have hsub : n + 1 - c.utf8Size = utf8Length as := by rw [← hn]; simp
    rw [hn, List.cons_append, dropBytes?, if_pos hle, hsub, ih]

theorem takeBytes?_append (as bs : List Char) : takeBytes? (utf8Length as) (as ++ bs) = some as := by
  induction as with
  | nil => simp [takeBytes?]
  | cons c as ih =>
    have hc := c.utf8Size_pos
    obtain ⟨n, hn⟩ : ∃ n, utf8Length (c :: as) = n + 1 :=
      ⟨c.utf8Size + utf8Length as - 1, by simp; omega⟩
    have hle : c.utf8Size ≤ n + 1 := by rw [← hn]; simp
    have hsub : n + 1 - c.utf8Size = utf8Length as := by rw [← hn]; simp
    rw [hn, List.cons_append, takeBytes?, if_pos hle, hsub, ih, Option.map_some]

/-- The text between a front part and a back part is the slice at its own bytes. -/
theorem slice?_append (as bs cs : List Char) :
    slice? (as ++ bs ++ cs) ⟨utf8Length as, utf8Length as + utf8Length bs⟩ = some bs := by
  simp [slice?, List.append_assoc, dropBytes?_append, Span.length, takeBytes?_append]

end Text

end ThreeAddress
