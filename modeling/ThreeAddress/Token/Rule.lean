import ThreeAddress.Token.Basic

/-!
# Lexical rules

Each rule matches some part at the front of a text, or nothing; the rule that matches the longest part is
taken, and of several that match it the one that `Rule.all` lists first. So a word that only begins like
an integer or an identifier is a plain word, and a word that spells a command is its keyword.

* `Rule.extent r cs` : how many characters of `cs` the rule matches (`extent_le`);
* `Rule.longest cs` : the rule that is taken (`extent_le_longest`); some rule matches every text but the
  empty one (`extent_longest_pos`);
* `Rule.kind?` : the token that a rule makes of the part it matches, or nothing for gaps and comments.
-/

namespace ThreeAddress

/-! ## Classes of characters -/

/-- Blanks inside a line; all other control characters and blanks may stand in words. -/
def isGap (c : Char) : Bool := c = ' ' || c = '\t' || c = '\r' || c = '\x0c'

def isWordChar (c : Char) : Bool := !isGap c && c ≠ '\n' && c ≠ '#'

/-- ASCII letters and the underscore. -/
def isIdentifierStart (c : Char) : Bool := c.isAlpha || c = '_'

def isIdentifierChar (c : Char) : Bool := c.isAlphanum || c = '_' || c = '.'

def isOperatorChar (c : Char) : Bool :=
  ['-', '+', '*', '/', '%', '<', '>', '=', '!', '&', '|', '^', '~'].contains c

/-! ## Lengths of matches -/

/-- The characters at the front that lie in the class. -/
def runLength (p : Char → Bool) (cs : List Char) : Nat := (cs.takeWhile p).length

/-- One character of the class `p`, then the run in the class `q`. -/
def headedLength (p q : Char → Bool) : List Char → Nat
  | [] => 0
  | c :: cs => if p c then runLength q cs + 1 else 0

/-- A run of digits, also behind a minus sign. -/
def integerLength (cs : List Char) : Nat :=
  if cs.head? = some '-' then
    if runLength Char.isDigit cs.tail = 0 then 0 else runLength Char.isDigit cs.tail + 1
  else runLength Char.isDigit cs

theorem runLength_le (p : Char → Bool) (cs : List Char) : runLength p cs ≤ cs.length :=
  (List.takeWhile_sublist p).length_le

theorem headedLength_le (p q : Char → Bool) (cs : List Char) : headedLength p q cs ≤ cs.length := by
  cases cs with
  | nil => simp [headedLength]
  | cons c cs => have := runLength_le q cs; simp only [headedLength]; split <;> simp; omega

theorem integerLength_le (cs : List Char) : integerLength cs ≤ cs.length := by
  cases cs with
  | nil => simp [integerLength, runLength]
  | cons c cs =>
    have h₁ := runLength_le Char.isDigit cs
    have h₂ := runLength_le Char.isDigit (c :: cs)
    simp only [List.length_cons] at h₂ ⊢
    unfold integerLength
    split
    · by_cases h : runLength Char.isDigit cs = 0 <;> simp [h, h₁]
    · exact h₂

theorem runLength_pos {p : Char → Bool} {c : Char} (cs : List Char) (h : p c = true) :
    0 < runLength p (c :: cs) := by
  simp [runLength, h]

/-! ## Rules -/

inductive Rule where
  | keyword (k : Keyword)
  | identifier
  | integer
  | operator
  | word
  | newline
  | gap
  | comment
deriving DecidableEq, Repr

namespace Rule

def all : List Rule :=
  Keyword.all.map keyword ++ [identifier, integer, operator, word, newline, gap, comment]

theorem mem_all (r : Rule) : r ∈ all := by
  cases r with
  | keyword k => simpa [all] using k.mem_all
  | _ => decide

def extent (r : Rule) (cs : List Char) : Nat :=
  match r with
  | keyword k => if k.spelling.toList <+: cs then k.spelling.toList.length else 0
  | identifier => headedLength isIdentifierStart isIdentifierChar cs
  | integer => integerLength cs
  | operator => runLength isOperatorChar cs
  | word => runLength isWordChar cs
  | newline => headedLength (· = '\n') (fun _ => false) cs
  | gap => runLength isGap cs
  | comment => headedLength (· = '#') (· ≠ '\n') cs

def kind? : Rule → List Char → Option Kind
  | keyword k, _ => some (.keyword k)
  | identifier, cs => some (.identifier (String.ofList cs))
  | integer, cs => some (.integer (String.ofList cs))
  | operator, cs => some (.operator (String.ofList cs))
  | word, cs => some (.word (String.ofList cs))
  | newline, _ => some .newline
  | gap, _ | comment, _ => none

/-- Of two rules the one that matches more of `cs`, the first on a tie. -/
def longer (cs : List Char) (r s : Rule) : Rule := if r.extent cs < s.extent cs then s else r

def longest (cs : List Char) : Rule := all.tail.foldl (longer cs) (keyword .insert)

/-! ## Extents -/

theorem extent_le (r : Rule) (cs : List Char) : r.extent cs ≤ cs.length := by
  cases r with
  | keyword k =>
    simp only [extent]
    split
    · exact List.IsPrefix.length_le ‹_›
    · exact Nat.zero_le _
  | integer => exact integerLength_le cs
  | operator | word | gap => exact runLength_le _ cs
  | identifier | newline | comment => exact headedLength_le _ _ cs

theorem extent_le_foldl_longer (cs : List Char) (rs : List Rule) (r s : Rule) (h : s ∈ r :: rs) :
    s.extent cs ≤ (rs.foldl (longer cs) r).extent cs := by
  induction rs generalizing r s with
  | nil => simp_all
  | cons t rs ih =>
    rw [List.foldl_cons]
    have hr : r.extent cs ≤ (longer cs r t).extent cs := by unfold longer; split <;> omega
    have ht : t.extent cs ≤ (longer cs r t).extent cs := by unfold longer; split <;> omega
    have hl := ih (longer cs r t) _ (List.mem_cons_self ..)
    rcases List.mem_cons.1 h with rfl | h
    · exact Nat.le_trans hr hl
    · rcases List.mem_cons.1 h with rfl | h
      · exact Nat.le_trans ht hl
      · exact ih _ _ (List.mem_cons_of_mem _ h)

theorem extent_le_longest (r : Rule) (cs : List Char) : r.extent cs ≤ (longest cs).extent cs :=
  extent_le_foldl_longer cs all.tail _ r r.mem_all

/-- Every character that is no word character is a gap, a line end or the start of a comment. -/
theorem extent_longest_pos (c : Char) (cs : List Char) :
    0 < (longest (c :: cs)).extent (c :: cs) := by
  have pos {r : Rule} (h : 0 < r.extent (c :: cs)) : 0 < (longest (c :: cs)).extent (c :: cs) :=
    Nat.lt_of_lt_of_le h (extent_le_longest r _)
  by_cases hg : isGap c
  · exact @pos gap (runLength_pos cs hg)
  · by_cases hn : c = '\n'
    · exact @pos newline (by simp [extent, headedLength, hn])
    · by_cases hc : c = '#'
      · exact @pos comment (by simp [extent, headedLength, hc])
      · exact @pos word (runLength_pos cs (by simp [isWordChar, hg, hn, hc]))

end Rule

end ThreeAddress
