/-!
# Decimal integers

* `digits?` : the value of a non-empty run of ASCII digits, of any length;
* `signed?`, `int64?` : digits behind an optional sign, the second only for values of 64 bits
  (`signed?_eq_some_iff`, `int64?_eq_some_iff`, `int64?_eq_none_iff`);
* `nat64?` : digits behind an optional `+`, for values below `2 ^ 64`;
* `Decimal.ofNat`, `Decimal.ofInt64` : the canonical spelling, without leading zeros or `+`.
-/

namespace ThreeAddress.Text.Decimal

def digits? (cs : List Char) : Option Nat :=
  if cs ≠ [] ∧ cs.all Char.isDigit then some (Nat.ofDigitChars 10 cs 0) else none

def signed? : List Char → Option Int
  | '+' :: cs => (digits? cs).map (↑·)
  | '-' :: cs => (digits? cs).map (-↑·)
  | cs => (digits? cs).map (↑·)

def int64? (cs : List Char) : Option Int64 :=
  (signed? cs).bind fun v => if Int64.minValue.toInt ≤ v ∧ v ≤ Int64.maxValue.toInt then some (Int64.ofInt v) else none

def nat64? (cs : List Char) : Option Nat :=
  (digits? (if cs.head? = some '+' then cs.tail else cs)).filter (· < UInt64.size)

def ofNat (n : Nat) : String := String.ofList (Nat.toDigits 10 n)

def ofInt64 (v : Int64) : String :=
  if v.toInt < 0 then "-" ++ ofNat v.toInt.natAbs else ofNat v.toInt.natAbs

/-- A value of 64 bits with a sign goes from `-2 ^ 63` to `2 ^ 63 - 1`. -/
theorem int64?_eq_some_iff {cs : List Char} {v : Int64} :
    int64? cs = some v ↔ ∃ i, signed? cs = some i ∧ -9223372036854775808 ≤ i ∧ i ≤ 9223372036854775807 ∧
      Int64.ofInt i = v := by
  have hmin : Int64.minValue.toInt = -9223372036854775808 := rfl
  have hmax : Int64.maxValue.toInt = 9223372036854775807 := rfl
  unfold int64?
  rw [hmin, hmax, Option.bind_eq_some_iff]
  constructor
  · rintro ⟨i, hi, h⟩
    split at h
    · next hr => exact ⟨i, hi, hr.1, hr.2, Option.some.inj h⟩
    · cases h
  · rintro ⟨i, hi, hlow, hhigh, rfl⟩
    exact ⟨i, hi, if_pos ⟨hlow, hhigh⟩⟩

/-! ## What a spelling stands for -/

/-- ASCII digits, at least one, and their value. -/
def IsNumeral (cs : List Char) (n : Nat) : Prop :=
  cs ≠ [] ∧ (∀ c ∈ cs, c.isDigit = true) ∧ Nat.ofDigitChars 10 cs 0 = n

/-- Digits behind an optional sign, and the integer that they spell. -/
inductive Spells : List Char → Int → Prop where
  | unsigned {cs : List Char} {n : Nat} : IsNumeral cs n → Spells cs n
  | plus {cs : List Char} {n : Nat} : IsNumeral cs n → Spells ('+' :: cs) n
  | minus {cs : List Char} {n : Nat} : IsNumeral cs n → Spells ('-' :: cs) (-n)

theorem digits?_eq_some_iff {cs : List Char} {n : Nat} : digits? cs = some n ↔ IsNumeral cs n := by
  unfold digits?
  split
  · next h =>
    rw [Option.some.injEq]
    exact ⟨fun hn => ⟨h.1, List.all_eq_true.1 h.2, hn⟩, fun hn => hn.2.2⟩
  · next h => exact iff_of_false nofun fun hn => h ⟨hn.1, List.all_eq_true.2 hn.2.1⟩

theorem IsNumeral.head_ne {c d : Char} {cs : List Char} {n : Nat} (h : IsNumeral (c :: cs) n)
    (hd : d.isDigit = false) : c ≠ d := by
  rintro rfl
  rw [h.2.1 c List.mem_cons_self] at hd
  cases hd

theorem signed?_eq_some_iff {cs : List Char} {i : Int} : signed? cs = some i ↔ Spells cs i := by
  constructor
  · intro h
    unfold signed? at h
    split at h
    · obtain ⟨_, hcast, rfl⟩ := Option.map_eq_some_iff.1 h
      obtain ⟨n, hn, hi⟩ := Option.bind_eq_some_iff.1 hcast
      cases hi
      exact .plus (digits?_eq_some_iff.1 hn)
    · obtain ⟨n, hn, rfl⟩ := Option.map_eq_some_iff.1 h
      exact .minus (digits?_eq_some_iff.1 hn)
    · obtain ⟨_, hcast, rfl⟩ := Option.map_eq_some_iff.1 h
      obtain ⟨n, hn, hi⟩ := Option.bind_eq_some_iff.1 hcast
      cases hi
      exact .unsigned (digits?_eq_some_iff.1 hn)
  · intro h
    cases h with
    | plus hn => rw [signed?, digits?_eq_some_iff.2 hn]; rfl
    | minus hn => rw [signed?, digits?_eq_some_iff.2 hn]; rfl
    | unsigned hn =>
      unfold signed?
      split
      · exact absurd rfl (hn.head_ne (by decide))
      · exact absurd rfl (hn.head_ne (by decide))
      · rw [digits?_eq_some_iff.2 hn]; rfl

/-- A value that is read is the one that is spelled. -/
theorem spells_of_int64? {cs : List Char} {v : Int64} (h : int64? cs = some v) : Spells cs v.toInt := by
  obtain ⟨i, hi, hlow, hhigh, rfl⟩ := int64?_eq_some_iff.1 h
  rw [Int64.toInt_ofInt_of_le (by omega) (by omega)]
  exact signed?_eq_some_iff.1 hi

/-- No integer of 64 bits is read where none is spelled. -/
theorem int64?_eq_none_iff {cs : List Char} :
    int64? cs = none ↔ ∀ i, Spells cs i → ¬(-9223372036854775808 ≤ i ∧ i ≤ 9223372036854775807) := by
  rw [Option.eq_none_iff_forall_ne_some]
  constructor
  · intro h i hi hr
    exact h _ (int64?_eq_some_iff.2 ⟨i, signed?_eq_some_iff.2 hi, hr.1, hr.2, rfl⟩)
  · intro h v hv
    obtain ⟨i, hi, hlow, hhigh, -⟩ := int64?_eq_some_iff.1 hv
    exact h i (signed?_eq_some_iff.1 hi) ⟨hlow, hhigh⟩

/-! ## Spellings -/

theorem isDigit_of_mem_ofNat {n : Nat} {c : Char} (h : c ∈ (ofNat n).toList) : c.isDigit = true := by
  rw [ofNat, String.toList_ofList] at h
  exact Nat.isDigit_of_mem_toDigits (by decide) (by decide) h

theorem toList_ofNat_ne_nil (n : Nat) : (ofNat n).toList ≠ [] := by
  rw [ofNat, String.toList_ofList]
  exact Nat.toDigits_ne_nil

theorem mem_ofInt64 {v : Int64} {c : Char} (h : c ∈ (ofInt64 v).toList) : c = '-' ∨ c.isDigit = true := by
  unfold ofInt64 at h
  split at h
  · rw [String.toList_append, show "-".toList = ['-'] from rfl, List.singleton_append, List.mem_cons] at h
    exact h.imp_right isDigit_of_mem_ofNat
  · exact .inr (isDigit_of_mem_ofNat h)

theorem toList_ofInt64_ne_nil (v : Int64) : (ofInt64 v).toList ≠ [] := by
  unfold ofInt64
  split
  · rw [String.toList_append, show "-".toList = ['-'] from rfl]
    exact List.cons_ne_nil _ _
  · exact toList_ofNat_ne_nil _

theorem ofInt64_eq_toString (v : Int64) : ofInt64 v = toString v.toInt := by
  unfold ofInt64 ofNat
  rw [Int.toString_eq_repr]
  rcases h : v.toInt with n | n
  · rw [if_neg (by simp)]
    rfl
  · rw [if_pos (Int.negSucc_lt_zero n)]
    rfl

/-! ## Reading back -/

theorem digits?_toDigits (n : Nat) : digits? (Nat.toDigits 10 n) = some n := by
  have h : (Nat.toDigits 10 n).all Char.isDigit := List.all_eq_true.2 fun _ hc =>
    Nat.isDigit_of_mem_toDigits (by decide) (by decide) hc
  rw [digits?, if_pos ⟨Nat.toDigits_ne_nil, h⟩, Nat.ofDigitChars_toDigits (by decide) (by decide)]

theorem ofNat_injective {m n : Nat} (h : ofNat m = ofNat n) : m = n := by
  have := congrArg (fun s => digits? s.toList) h
  simpa [ofNat, digits?_toDigits] using this

/-- A run of digits begins with no sign. -/
theorem signed?_toDigits (n : Nat) : signed? (Nat.toDigits 10 n) = some (n : Int) := by
  have hd := digits?_toDigits n
  have hall : ∀ c ∈ Nat.toDigits 10 n, c.isDigit := fun _ h =>
    Nat.isDigit_of_mem_toDigits (by decide) (by decide) h
  revert hd hall
  cases Nat.toDigits 10 n with
  | nil => simp [digits?]
  | cons c cs =>
    intro hd hall
    have hc := hall c (by simp)
    unfold signed?
    split
    · simp_all
    · simp_all
    · simp [hd]

theorem signed?_ofInt64 (v : Int64) : signed? (ofInt64 v).toList = some v.toInt := by
  unfold ofInt64
  split
  · have hv : -(v.toInt.natAbs : Int) = v.toInt := by omega
    rw [String.toList_append, show "-".toList = ['-'] from rfl, ofNat, String.toList_ofList,
      List.singleton_append, signed?, digits?_toDigits, Option.map_some, hv]
  · have hv : (v.toInt.natAbs : Int) = v.toInt := by omega
    rw [ofNat, String.toList_ofList, signed?_toDigits, hv]

/-- What is written reads back. -/
theorem int64?_ofInt64 (v : Int64) : int64? (ofInt64 v).toList = some v := by
  have h : Int64.minValue.toInt ≤ v.toInt ∧ v.toInt ≤ Int64.maxValue.toInt := by
    have h₁ := v.le_toInt
    have h₂ := v.toInt_lt
    rw [Int64.toInt_minValue, Int64.toInt_maxValue]
    omega
  rw [int64?, signed?_ofInt64, Option.bind_some, if_pos h, Int64.ofInt_toInt]

end ThreeAddress.Text.Decimal
