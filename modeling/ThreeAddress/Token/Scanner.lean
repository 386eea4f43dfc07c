import ThreeAddress.Token.Rule

/-!
# Scanning a text for tokens

* `Scanner` : the characters not yet read, and the byte offset of the first of them;
* `Scanner.next` : the next token and the scanner after it; at the end of the text the end token, again and
  again. A token other than the end shortens what is left (`length_rest_next_lt`), and so
* `Scanner.tokens` : all tokens up to the end one, `Scanner.take n` : the next `n`.
-/

namespace ThreeAddress

structure Scanner where
  rest : List Char
  offset : Nat
deriving DecidableEq, Repr

namespace Scanner
open Text

def ofText (text : String) : Scanner := ⟨text.toList, 0⟩

/-- Passes over `n` characters. -/
def skip (n : Nat) (s : Scanner) : Scanner := ⟨s.rest.drop n, s.offset + utf8Length (s.rest.take n)⟩

/-- The part at the front that the longest rule matches. -/
def extent (s : Scanner) : Nat := (Rule.longest s.rest).extent s.rest

theorem length_rest_skip_lt {s : Scanner} (h : s.rest ≠ []) :
    (s.skip s.extent).rest.length < s.rest.length := by
  obtain ⟨c, cs, hs⟩ := List.exists_cons_of_ne_nil h
  have := Rule.extent_longest_pos c cs
  simp only [skip, extent, List.length_drop, hs] at *
  simp only [List.length_cons] at *
  omega

def next (s : Scanner) : Token × Scanner :=
  if _ : s.rest = [] then (⟨.endOfText, s.offset, s.offset⟩, s)
  else
    let s' := s.skip s.extent
    match (Rule.longest s.rest).kind? (s.rest.take s.extent) with
    | some k => (⟨k, s.offset, s'.offset⟩, s')
    | none => s'.next
termination_by s.rest.length
decreasing_by exact length_rest_skip_lt ‹_›

theorem next_of_nil {s : Scanner} (h : s.rest = []) :
    s.next = (⟨.endOfText, s.offset, s.offset⟩, s) := by
  rw [next, dif_pos h]

theorem next_of_some {s : Scanner} (h : s.rest ≠ []) {k : Kind}
    (hk : (Rule.longest s.rest).kind? (s.rest.take s.extent) = some k) :
    s.next = (⟨k, s.offset, (s.skip s.extent).offset⟩, s.skip s.extent) := by
  rw [next, dif_neg h]; simp only [hk]

theorem next_of_none {s : Scanner} (h : s.rest ≠ [])
    (hk : (Rule.longest s.rest).kind? (s.rest.take s.extent) = none) :
    s.next = (s.skip s.extent).next := by
  rw [next, dif_neg h]; simp only [hk]

theorem length_rest_next_lt {s : Scanner} (h : s.next.1.kind ≠ .endOfText) :
    s.next.2.rest.length < s.rest.length := by
  induction hn : s.rest.length using Nat.strongRecOn generalizing s with
  | ind n ih =>
    subst hn
    by_cases hs : s.rest = []
    · simp [next_of_nil hs] at h
    · have hlt := length_rest_skip_lt hs
      cases hk : (Rule.longest s.rest).kind? (s.rest.take s.extent) with
      | some k => rwa [next_of_some hs hk]
      | none =>
        rw [next_of_none hs hk] at h ⊢
        exact Nat.lt_trans (ih _ hlt h rfl) hlt

def tokens (s : Scanner) : List Token :=
  if _ : s.next.1.kind = .endOfText then [s.next.1] else s.next.1 :: s.next.2.tokens
termination_by s.rest.length
decreasing_by exact length_rest_next_lt ‹_›

def take : Nat → Scanner → List Token
  | 0, _ => []
  | n + 1, s => s.next.1 :: take n s.next.2

theorem tokens_of_end {s : Scanner} (h : s.next.1.kind = .endOfText) : s.tokens = [s.next.1] := by
  rw [tokens, dif_pos h]

theorem tokens_of_next {s : Scanner} (h : s.next.1.kind ≠ .endOfText) :
    s.tokens = s.next.1 :: s.next.2.tokens := by
  rw [tokens, dif_neg h]

end Scanner

/-- The tokens of a text, the end one last. -/
def Token.ofText (text : String) : List Token := (Scanner.ofText text).tokens

end ThreeAddress
