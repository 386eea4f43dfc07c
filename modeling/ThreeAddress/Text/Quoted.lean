import ThreeAddress.Text.Extend
import ThreeAddress.Text.Ignorable
import ThreeAddress.Text.Printable

/-!
# Quoted text on one line

A text between double quotes. A quote and a backslash stand behind a backslash, the four controls of
`letter?` have a letter each, and any other character that has no glyph of its own is written by its code
point, `\u{..}` in lower case without leading zeros.

* `encode` : the text between the quotes; `quote` : with the quotes;
* `decodeChar?` : a character is read back from the front of a text (`decodeChar?_encodeChar`), so that texts that are
  quoted alike are the same (`encode_append_inj`);
* `isPrintable_of_mem_encode` : there is no line end of any sort in a quoted text, nor anything else without a glyph.
-/

namespace ThreeAddress.Text.Quoted

/-- The letter that stands for a character behind a backslash. -/
def letter? : Char → Option Char
  | '"' => some '"'
  | '\\' => some '\\'
  | '\x00' => some '0'
  | '\t' => some 't'
  | '\n' => some 'n'
  | '\r' => some 'r'
  | _ => none

/-- The half-width voicing marks extend the character before them in a cell of their own, and so does the Ahom
medial RA, which version 16 takes out of the property. -/
def spacingRanges : Ranges := [(0xFF9E, 0xFF9F), (0x1171E, 0x1171E)]

/-- A mark on the character before it. -/
def isMark (c : Char) : Bool := (isExtend c || inRanges laterExtendRanges c) && !inRanges spacingRanges c

/-- A character stands for itself when it has a glyph that does not lean on the one before. -/
def standsAlone (c : Char) : Bool := isPrintable c && !isIgnorable c && !isMark c

def encodeChar (c : Char) : List Char :=
  match letter? c with
  | some l => ['\\', l]
  | none =>
    if standsAlone c then [c]
    else ['\\', 'u', '\x7b'] ++ Nat.toDigits 16 c.toNat ++ ['\x7d']

def encode (cs : List Char) : List Char := cs.flatMap encodeChar

def quote (text : String) : String := "\"" ++ String.ofList (encode text.toList) ++ "\""

/-! ## Digits in base 16 -/

theorem exists_digitChar_of_mem_toDigits {b : Nat} (hb : 1 < b) {n : Nat} {c : Char} (h : c ∈ b.toDigits n) :
    ∃ d < b, c = d.digitChar := by
  induction n using Nat.strongRecOn with
  | ind n ih =>
    rw [Nat.toDigits_eq_if hb] at h
    split at h
    · next hn => exact ⟨n, hn, List.mem_singleton.1 h⟩
    · next hn =>
      rcases List.mem_append.1 h with h | h
      · exact ih (n / b) (Nat.div_lt_self (by omega) hb) h
      · exact ⟨n % b, Nat.mod_lt n (by omega), List.mem_singleton.1 h⟩

/-- The value of a digit in base 16. -/
def digitValue (c : Char) : Nat := if c.isDigit then c.toNat - 48 else c.toNat - 87

theorem digitValue_digitChar : ∀ d < 16, digitValue d.digitChar = d := by decide

def number (cs : List Char) : Nat := cs.foldl (fun n c => 16 * n + digitValue c) 0

theorem number_toDigits (n : Nat) : number (Nat.toDigits 16 n) = n := by
  induction n using Nat.strongRecOn with
  | ind n ih =>
    rw [Nat.toDigits_eq_if (by decide)]
    split
    · next hn => exact (Nat.zero_add _).trans (digitValue_digitChar n hn)
    · next hn =>
      rw [number, List.foldl_append, ← number, ih (n / 16) (by omega)]
      show 16 * (n / 16) + digitValue (n % 16).digitChar = n
      rw [digitValue_digitChar _ (by omega)]
      omega

/-! ## Reading back -/

/-- The characters that have a letter. -/
def letters : List (Char × Char) :=
  [('"', '"'), ('\\', '\\'), ('\x00', '0'), ('\t', 't'), ('\n', 'n'), ('\r', 'r')]

theorem letter?_eq_some_iff {c l : Char} : letter? c = some l ↔ (c, l) ∈ letters := by
  constructor
  · intro h
    unfold letter? at h
    split at h <;> cases h <;> decide
  · intro h
    have hall : ∀ p ∈ letters, letter? p.1 = some p.2 := by decide
    exact hall (c, l) h

/-- The character that the front of the text stands for, and the text behind it. -/
def decodeChar? : List Char → Option (Char × List Char)
  | [] => none
  | '\\' :: 'u' :: '\x7b' :: cs =>
    some (Char.ofNat (number (cs.takeWhile (· ≠ '\x7d'))), (cs.dropWhile (· ≠ '\x7d')).tail)
  | '\\' :: l :: cs => (letters.find? (·.2 = l)).map fun p => (p.1, cs)
  | c :: cs => some (c, cs)

theorem ne_of_letter?_eq_none {c : Char} (h : letter? c = none) : c ≠ '\\' ∧ c ≠ '"' := by
  constructor
  · rintro rfl
    cases h
  · rintro rfl
    cases h

/-- The digits of a code point end at the brace behind them. -/
theorem decodeChar?_code (n : Nat) (cs : List Char) :
    decodeChar? ('\\' :: 'u' :: '\x7b' :: (Nat.toDigits 16 n ++ '\x7d' :: cs)) = some (Char.ofNat n, cs) := by
  have hdigits : ∀ d ∈ Nat.toDigits 16 n, decide (d ≠ '\x7d') = true := by
    intro d hd
    obtain ⟨m, hm, rfl⟩ := exists_digitChar_of_mem_toDigits (by decide) hd
    have hall : ∀ m < 16, decide (m.digitChar ≠ '\x7d') = true := by decide
    exact hall m hm
  rw [decodeChar?, List.takeWhile_append_of_pos hdigits, List.dropWhile_append_of_pos hdigits,
    List.takeWhile_cons_of_neg (by decide), List.dropWhile_cons_of_neg (by decide), List.append_nil, number_toDigits,
    List.tail_cons]

/-- No character is written like the beginning of another. -/
theorem decodeChar?_encodeChar (c : Char) (cs : List Char) : decodeChar? (encodeChar c ++ cs) = some (c, cs) := by
  unfold encodeChar
  split
  · next l h =>
    have hmem := letter?_eq_some_iff.1 h
    simp only [letters, List.mem_cons, Prod.mk.injEq, List.not_mem_nil, or_false] at hmem
    rcases hmem with ⟨rfl, rfl⟩ | ⟨rfl, rfl⟩ | ⟨rfl, rfl⟩ | ⟨rfl, rfl⟩ | ⟨rfl, rfl⟩ | ⟨rfl, rfl⟩ <;> rfl
  · next h =>
    split
    · rw [List.singleton_append]
      unfold decodeChar?
      split
      · next heq => cases heq
      · next heq => exact absurd (List.cons.inj heq).1 (ne_of_letter?_eq_none h).1
      · next heq => exact absurd (List.cons.inj heq).1 (ne_of_letter?_eq_none h).1
      · next heq =>
        cases heq
        rfl
    · rw [List.append_assoc, List.append_assoc]
      exact (decodeChar?_code c.toNat cs).trans (by rw [Char.ofNat_toNat])

theorem head?_encodeChar_ne (c : Char) (cs : List Char) : (encodeChar c ++ cs).head? ≠ some '"' := by
  unfold encodeChar
  split
  · simp
  · next h =>
    split
    · simpa using (ne_of_letter?_eq_none h).2
    · simp

/-- A quoted text ends at its second quote, and no other text is quoted like this. -/
theorem encode_append_inj {as bs cs ds : List Char} (h : encode as ++ '"' :: cs = encode bs ++ '"' :: ds) :
    as = bs ∧ cs = ds := by
  induction as generalizing bs with
  | nil =>
    cases bs with
    | nil => exact ⟨rfl, (List.cons.inj h).2⟩
    | cons b bs =>
      rw [encode, encode, List.flatMap_cons, List.append_assoc] at h
      exact absurd (congrArg List.head? h).symm (head?_encodeChar_ne b _)
  | cons a as ih =>
    cases bs with
    | nil =>
      rw [encode, encode, List.flatMap_cons, List.append_assoc] at h
      exact absurd (congrArg List.head? h) (head?_encodeChar_ne a _)
    | cons b bs =>
      rw [encode, encode, List.flatMap_cons, List.flatMap_cons, List.append_assoc, List.append_assoc] at h
      have hdecode := congrArg decodeChar? h
      rw [decodeChar?_encodeChar, decodeChar?_encodeChar, Option.some.injEq, Prod.mk.injEq] at hdecode
      obtain ⟨rfl, hrest⟩ := hdecode
      obtain ⟨rfl, hcs⟩ := ih hrest
      exact ⟨rfl, hcs⟩

/-! ## Characters of quoted text -/

/-- Nothing is written with characters that have no glyph. -/
theorem isPrintable_of_mem_encodeChar {c d : Char} (h : d ∈ encodeChar c) : isPrintable d = true := by
  unfold encodeChar at h
  split at h
  · next l hl =>
    have hall : (letters.all fun p => isPrintable p.2) = true := by decide +kernel
    rcases List.mem_cons.1 h with rfl | h
    · exact isPrintable_of_bounds (by decide) (by decide)
    · rw [List.mem_singleton.1 h]
      exact List.all_eq_true.1 hall _ (letter?_eq_some_iff.1 hl)
  · split at h
    · next halone =>
      rw [List.mem_singleton.1 h]
      exact (Bool.and_eq_true_iff.1 (Bool.and_eq_true_iff.1 halone).1).1
    · simp only [List.mem_append, List.mem_cons, List.not_mem_nil, or_false] at h
      rcases h with ((rfl | rfl | rfl) | h) | rfl
      · exact isPrintable_of_bounds (by decide) (by decide)
      · exact isPrintable_of_bounds (by decide) (by decide)
      · exact isPrintable_of_bounds (by decide) (by decide)
      · obtain ⟨n, hn, rfl⟩ := exists_digitChar_of_mem_toDigits (by decide) h
        have hall : ∀ n < 16, isPrintable n.digitChar = true := by decide +kernel
        exact hall n hn
      · exact isPrintable_of_bounds (by decide) (by decide)

theorem isPrintable_of_mem_encode {cs : List Char} {c : Char} (h : c ∈ encode cs) : isPrintable c = true := by
  obtain ⟨d, -, hc⟩ := List.mem_flatMap.1 h
  exact isPrintable_of_mem_encodeChar hc

end ThreeAddress.Text.Quoted
