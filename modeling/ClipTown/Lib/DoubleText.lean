/-
  ClipTown.Lib.DoubleText — doubles as JavaScript writes them, and as it reads
  them.

  `Number::toString` takes the fewest digits that still stand for the double, and
  of these the nearest; how they are laid out, with a point or an exponent, goes
  by the place of the point.  A numeral stands for the double nearest to it, or
  for an infinity.  The sign of a zero is neither written nor seen by `===`, so
  there is one zero here.

    • `exists_shortest` — there are such digits,
    • `layout_reads` — the value of a layout is that of its digits,
    • `readsBack_finite` — a finite number is written as a numeral, and reads back.
-/
import Mathlib.Data.Nat.Digits.Lemmas
import ClipTown.Lib.Binary64
import ClipTown.Lib.JsonText

namespace DoubleText

open Binary64 JsonText

/-! ## §1. Digits. -/

/-- A digit, below ten. -/
def digit (d : ℕ) : CodeUnit := unit (Char.ofNat (48 + d))

/-- The decimal digits of a number above zero. -/
def digits (n : ℕ) : Text := (Nat.digits 10 n).reverse.map digit

/-- The number that digits stand for. -/
def digitsValue (text : Text) : ℕ := text.foldl (fun n u => 10 * n + (u.val - 48)) 0

theorem digit_spec {d : ℕ} (h : d < 10) :
    isDigit (digit d) = true ∧ (digit d).val - 48 = d ∧ (digit d = unit '0' → d = 0) := by
  have hall : ∀ i : Fin 10, isDigit (digit i.val) = true ∧ (digit i.val).val - 48 = i.val
      ∧ (digit i.val = unit '0' → i.val = 0) := by decide
  exact hall ⟨d, h⟩

theorem isDigit_digits (n : ℕ) : ∀ u ∈ digits n, isDigit u = true := by
  intro u hu
  obtain ⟨d, hd, rfl⟩ := List.mem_map.mp hu
  exact (digit_spec (Nat.digits_lt_base (by norm_num) (List.mem_reverse.mp hd))).1

theorem foldl_digits (text : Text) (n : ℕ) :
    text.foldl (fun n u => 10 * n + (u.val - 48)) n
      = n * 10 ^ text.length + digitsValue text := by
  induction text generalizing n with
  | nil => simp [digitsValue]
  | cons u text ih =>
      unfold digitsValue
      rw [List.foldl_cons, List.foldl_cons, ih, ih (10 * 0 + _), List.length_cons, pow_succ]
      ring

theorem digitsValue_append (a b : Text) :
    digitsValue (a ++ b) = digitsValue a * 10 ^ b.length + digitsValue b := by
  unfold digitsValue
  rw [List.foldl_append, foldl_digits]
  rfl

theorem digitsValue_zeros (n : ℕ) : digitsValue (List.replicate n (unit '0')) = 0 := by
  induction n with
  | zero => rfl
  | succ n ih =>
      rw [List.replicate_succ', digitsValue_append, ih]
      rfl

theorem digitsValue_digits (n : ℕ) : digitsValue (digits n) = n := by
  have hlist : ∀ ds : List ℕ, (∀ d ∈ ds, d < 10) →
      digitsValue (ds.reverse.map digit) = Nat.ofDigits 10 ds := by
    intro ds
    induction ds with
    | nil => exact fun _ => rfl
    | cons d ds ih =>
        intro hds
        rw [List.reverse_cons, List.map_append, digitsValue_append,
          ih fun e he => hds e (List.mem_cons_of_mem _ he), Nat.ofDigits_cons]
        have hd := (digit_spec (hds d List.mem_cons_self)).2.1
        show Nat.ofDigits 10 ds * 10 ^ 1 + (10 * 0 + ((digit d).val - 48)) = _
        rw [hd]
        ring
  unfold digits
  rw [hlist _ fun d hd => Nat.digits_lt_base (by norm_num) hd, Nat.ofDigits_digits]

/-- The digits of a number above zero start with another digit than zero. -/
theorem head_digits {n : ℕ} (h : 0 < n) : digits n ≠ [] ∧ (digits n).head? ≠ some (unit '0') := by
  have hne : Nat.digits 10 n ≠ [] := Nat.digits_ne_nil_iff_ne_zero.mpr h.ne'
  unfold digits
  constructor
  · simpa using hne
  · rw [List.head?_map, List.head?_reverse, List.getLast?_eq_some_getLast hne, Option.map_some]
    intro hzero
    have hlt := Nat.digits_lt_base (b := 10) (by norm_num) (List.getLast_mem hne)
    exact Nat.getLast_digit_ne_zero 10 h.ne' ((digit_spec hlt).2.2 (Option.some.inj hzero))

/-! ## §2. Reading. -/

/-- The exponent of a numeral. -/
def exponentValue : Text → ℤ
  | [] => 0
  | _ :: rest =>
      if rest.head? = some (unit '-') then -(digitsValue rest.tail : ℤ)
      else digitsValue (dropSign (ascii "+") rest)

/-- The digits of the fraction, and the exponent. -/
def fractionValue : Text → Text × ℤ
  | [] => ([], 0)
  | c :: rest =>
      if c = unit '.' then (rest.takeWhile isDigit, exponentValue (rest.dropWhile isDigit))
      else ([], exponentValue (c :: rest))

/-- The number that a numeral without a sign stands for. -/
def magnitude (text : Text) : ℚ :=
  let fraction := fractionValue (text.dropWhile isDigit)
  digitsValue (text.takeWhile isDigit ++ fraction.1) * 10 ^ (fraction.2 - fraction.1.length)

/-- The number that a numeral stands for. -/
def numeralValue (text : Text) : ℚ :=
  if text.head? = some (unit '-') then -magnitude text.tail else magnitude text

/-- A finite double; `0` and `-0` are one. -/
abbrev Double := {q : ℚ // toBinary64 q = some q}

/-- A number that `JSON.parse` gives. -/
inductive Number where
  | finite (value : Double)
  | infinity
  | negInfinity

/-- The number nearest to what a numeral stands for. -/
def readNumber (text : Text) : Number :=
  match h : toBinary64 (numeralValue text) with
  | some q => .finite ⟨q, toBinary64_idem h⟩
  | none => if numeralValue text < 0 then .negInfinity else .infinity

/-- What is above all doubles is read as an infinity. -/
theorem readNumber_overflow {text : Text} (h : (toBinary64 (numeralValue text)).isNone = true)
    (hpos : ¬ numeralValue text < 0) : readNumber text = .infinity := by
  rw [Option.isNone_iff_eq_none] at h
  unfold readNumber
  split
  next q hq =>
    rw [h] at hq
    cases hq
  next => exact if_neg hpos

/-! ## §3. Writing. -/

/-- `s * 10 ^ j` stands for the double. -/
def fits (x : ℚ) (s j : ℤ) : Bool := toBinary64 (s * 10 ^ j) = some x

/-- A digit string that stands for the double, with its last digit at `10 ^ j`: the nearest to
it, or else its other neighbour. -/
def neighbour (x : ℚ) (j : ℤ) : Option ℤ :=
  [roundHalfEven (x / 10 ^ j), ⌊x / 10 ^ j⌋, ⌊x / 10 ^ j⌋ + 1].find? fun s => fits x s j

/-- `10 ^ decade` is the power of ten above the number. -/
def decade (x : ℚ) : ℤ := Int.log 10 x + 1

/-- The digits of `k` places that stand for the double, and the place of the last one; the
power of ten above it has one digit. -/
def withDigits (x : ℚ) (k : ℕ) : Option (ℕ × ℤ) :=
  (neighbour x (decade x - k)).map fun s =>
    if s = 10 ^ k then (1, decade x) else (s.toNat, decade x - k)

/-- The fewest digits that stand for the double. -/
def shortest (x : ℚ) : Option (ℕ × ℤ) :=
  (List.range ((decade x + 1074).toNat + 1)).findSome? fun k => withDigits x (k + 1)

/-- An exponent that is not zero. -/
def exponentText (e : ℤ) : Text :=
  unit 'e' :: (if e < 0 then unit '-' else unit '+') :: digits e.natAbs

/-- What stands in front of the point, behind it, and the exponent: the digits with the point
behind the first `n`. -/
def layout (text : Text) (n : ℤ) : Text × Text × Text :=
  if text.length ≤ n ∧ n ≤ 21 then
    (text ++ List.replicate (n - text.length).toNat (unit '0'), [], [])
  else if 0 < n ∧ n ≤ 21 then (text.take n.toNat, text.drop n.toNat, [])
  else if -6 < n ∧ n ≤ 0 then
    (ascii "0", List.replicate (-n).toNat (unit '0') ++ text, [])
  else
    (text.take 1, text.drop 1, exponentText (n - 1))

/-- A numeral from its parts. -/
def assemble (parts : Text × Text × Text) : Text :=
  parts.1 ++ ((if parts.2.1 = [] then [] else unit '.' :: parts.2.1) ++ parts.2.2)

/-- `Number::toString` of a double above zero. -/
def positiveText (x : ℚ) : Text :=
  match shortest x with
  | some (s, j) => assemble (layout (digits s) ((digits s).length + j))
  | none => []

/-- `Number::toString`. -/
def doubleText (x : ℚ) : Text :=
  if x = 0 then ascii "0"
  else if x < 0 then unit '-' :: positiveText (-x) else positiveText x

/-- `SerializeJSONProperty` of a number. -/
def Number.text : Number → Text
  | .finite x => doubleText x.val
  | .infinity | .negInfinity => ascii "null"

/-- The numbers of JavaScript. -/
def jsNumerals : Numerals Number where
  text := Number.text
  read := readNumber

/-! ## §4. Layouts read back. -/

/-- Digits are read up to what is none. -/
theorem span_digits {a rest : Text} (ha : ∀ u ∈ a, isDigit u = true)
    (hrest : ∀ u ∈ rest.head?, isDigit u = false) :
    (a ++ rest).takeWhile isDigit = a ∧ (a ++ rest).dropWhile isDigit = rest := by
  have hstop : rest.takeWhile isDigit = [] ∧ rest.dropWhile isDigit = rest := by
    cases rest with
    | nil => exact ⟨rfl, rfl⟩
    | cons u rest =>
        have hu : isDigit u = false := hrest u rfl
        exact ⟨by rw [List.takeWhile_cons, hu]; rfl, by rw [List.dropWhile_cons, hu]; rfl⟩
  rw [List.takeWhile_append_of_pos ha, List.dropWhile_append_of_pos ha, hstop.1, hstop.2,
    List.append_nil]
  exact ⟨rfl, rfl⟩

theorem head_exponent {exp : Text} (h : isExponent exp = true) :
    ∀ u ∈ exp.head?, isDigit u = false ∧ u ≠ unit '.' := by
  intro u hu
  cases exp with
  | nil => cases hu
  | cons e rest =>
      obtain rfl : e = u := Option.some.inj hu
      rw [isExponent, Bool.and_eq_true, decide_eq_true_eq] at h
      have hmark := List.all_eq_true.mp
        (rfl : (ascii "eE").all (fun c => !isDigit c && c != unit '.') = true) e h.1
      simpa using hmark

/-- What stands behind the digits of the integer. -/
theorem fraction_reads {frac exp : Text} (hfrac : ∀ u ∈ frac, isDigit u = true)
    (hexp : isExponent exp = true) :
    let tail := (if frac = [] then [] else unit '.' :: frac) ++ exp
    (∀ u ∈ tail.head?, isDigit u = false) ∧ isFraction tail = true
      ∧ fractionValue tail = (frac, exponentValue exp) := by
  have hhead := head_exponent hexp
  by_cases hnil : frac = []
  · rw [if_pos hnil, hnil, List.nil_append]
    refine ⟨fun u hu => (hhead u hu).1, ?_, ?_⟩
    · cases exp with
      | nil => rfl
      | cons e rest =>
          rw [isFraction, if_neg (hhead e rfl).2]
          exact hexp
    · cases exp with
      | nil => rfl
      | cons e rest => rw [fractionValue, if_neg (hhead e rfl).2]
  · obtain ⟨htake, hdrop⟩ := span_digits hfrac fun u hu => (hhead u hu).1
    rw [if_neg hnil, List.cons_append]
    refine ⟨?_, ?_, ?_⟩
    · intro u hu
      rw [← Option.some.inj hu]
      decide
    · rw [isFraction, if_pos rfl, htake, hdrop, hexp, Bool.and_true]
      exact decide_eq_true hnil
    · rw [fractionValue, if_pos rfl, htake, hdrop]

/-- A text that starts with a digit has no sign. -/
theorem dropSign_of_digit {text : Text} (h : ∀ u ∈ text.head?, isDigit u = true) :
    dropSign (ascii "-") text = text := by
  cases text with
  | nil => rfl
  | cons c rest =>
      have hc : isDigit c = true := h c rfl
      refine if_neg ?_
      intro hsign
      have hmem : c ∈ ascii "-" := by simpa using hsign
      rw [List.mem_singleton.mp hmem] at hc
      exact absurd hc (by decide)

/-- **A numeral reads as its parts say.** -/
theorem assemble_reads (int frac exp : Text)
    (hint : int = ascii "0" ∨ int ≠ [] ∧ int.head? ≠ some (unit '0'))
    (hdigits : ∀ u ∈ int, isDigit u = true) (hfrac : ∀ u ∈ frac, isDigit u = true)
    (hexp : isExponent exp = true) :
    (∀ u ∈ (assemble (int, frac, exp)).head?, isDigit u = true)
      ∧ isNumeral (assemble (int, frac, exp)) = true
      ∧ magnitude (assemble (int, frac, exp))
        = digitsValue (int ++ frac) * 10 ^ (exponentValue exp - frac.length) := by
  obtain ⟨hhead, hfraction, hvalue⟩ := fraction_reads hfrac hexp
  obtain ⟨htake, hdrop⟩ := span_digits hdigits hhead
  have hne : int ≠ [] := by
    rcases hint with rfl | hint
    · decide
    · exact hint.1
  obtain ⟨c, rest, rfl⟩ := List.exists_cons_of_ne_nil hne
  have hfirst : ∀ u ∈ (assemble (c :: rest, frac, exp)).head?, isDigit u = true := by
    intro u hu
    rw [← Option.some.inj hu]
    exact hdigits c List.mem_cons_self
  refine ⟨hfirst, ?_, ?_⟩
  · unfold isNumeral
    rw [dropSign_of_digit hfirst]
    dsimp only [assemble]
    rw [htake, hdrop, hfraction, Bool.and_true, Bool.or_eq_true, decide_eq_true_eq,
      Bool.and_eq_true, decide_eq_true_eq, decide_eq_true_eq]
    exact hint
  · dsimp only [magnitude, assemble]
    rw [htake, hdrop, hvalue]

/-- The exponent that a layout writes. -/
theorem exponent_reads {e : ℤ} (h : e ≠ 0) :
    isExponent (exponentText e) = true ∧ exponentValue (exponentText e) = e := by
  unfold exponentText
  have hne := (head_digits (Int.natAbs_pos.mpr h)).1
  have hall : (digits e.natAbs).all isDigit = true := List.all_eq_true.mpr (isDigit_digits _)
  have hmark : decide (unit 'e' ∈ ascii "eE") = true := by decide
  by_cases hneg : e < 0
  · rw [if_pos hneg]
    have hdrop : dropSign (ascii "+-") (unit '-' :: digits e.natAbs) = digits e.natAbs := rfl
    refine ⟨?_, ?_⟩
    · rw [isExponent, hdrop, hmark, hall, Bool.true_and, Bool.and_true]
      exact decide_eq_true hne
    · have hhead : (unit '-' :: digits e.natAbs).head? = some (unit '-') := rfl
      rw [exponentValue, if_pos hhead, List.tail_cons, digitsValue_digits]
      omega
  · rw [if_neg hneg]
    have hdrop : dropSign (ascii "+-") (unit '+' :: digits e.natAbs) = digits e.natAbs := rfl
    have hdrop' : dropSign (ascii "+") (unit '+' :: digits e.natAbs) = digits e.natAbs := rfl
    have hsign : (unit '+' :: digits e.natAbs).head? ≠ some (unit '-') := by
      intro heq
      exact absurd (Option.some.inj heq) (by decide)
    refine ⟨?_, ?_⟩
    · rw [isExponent, hdrop, hmark, hall, Bool.true_and, Bool.and_true]
      exact decide_eq_true hne
    · rw [exponentValue, if_neg hsign, hdrop', digitsValue_digits]
      omega

/-- **The value of a layout is that of its digits.** -/
theorem layout_reads {text : Text} (n : ℤ) (hne : text ≠ [])
    (hhead : text.head? ≠ some (unit '0')) (hdigits : ∀ u ∈ text, isDigit u = true) :
    (∀ u ∈ (assemble (layout text n)).head?, isDigit u = true)
      ∧ isNumeral (assemble (layout text n)) = true
      ∧ magnitude (assemble (layout text n)) = digitsValue text * 10 ^ (n - text.length) := by
  have hzeros : ∀ m, ∀ u ∈ List.replicate m (unit '0'), isDigit u = true := by
    intro m u hu
    rw [List.eq_of_mem_replicate hu]
    decide
  have hlength : 0 < text.length := List.length_pos_iff.mpr hne
  have htake : ∀ m, 0 < m → text.take m ≠ [] ∧ (text.take m).head? ≠ some (unit '0') := by
    intro m hm
    cases text with
    | nil => exact absurd rfl hne
    | cons c rest =>
        cases m with
        | zero => cases hm
        | succ m => exact ⟨List.cons_ne_nil _ _, hhead⟩
  have hpart : ∀ m, (∀ u ∈ text.take m, isDigit u = true) ∧ ∀ u ∈ text.drop m, isDigit u = true :=
    fun m => ⟨fun u hu => hdigits u (List.mem_of_mem_take hu),
      fun u hu => hdigits u (List.mem_of_mem_drop hu)⟩
  unfold layout
  split_ifs with hwhole hpoint hsmall
  · -- zeros up to the point
    have hint : text ++ List.replicate (n - text.length).toNat (unit '0') ≠ []
        ∧ (text ++ List.replicate (n - text.length).toNat (unit '0')).head?
          ≠ some (unit '0') := by
      cases text with
      | nil => exact absurd rfl hne
      | cons c rest => exact ⟨List.cons_ne_nil _ _, hhead⟩
    obtain ⟨hfirst, hnumeral, hvalue⟩ := assemble_reads _ [] [] (.inr hint)
      (fun u hu => (List.mem_append.mp hu).elim (hdigits u) (hzeros _ u))
      (fun u hu => absurd hu List.not_mem_nil) rfl
    refine ⟨hfirst, hnumeral, hvalue.trans ?_⟩
    obtain ⟨m, hm⟩ : ∃ m : ℕ, n = text.length + m := ⟨(n - text.length).toNat, by omega⟩
    have hcount : (n - text.length).toNat = m := by omega
    have hexp : n - text.length = m := by omega
    rw [List.append_nil, digitsValue_append, digitsValue_zeros, List.length_replicate, hcount, hexp]
    simp [exponentValue]
  · -- the point among the digits
    have hshort : n.toNat < text.length := by omega
    obtain ⟨hfirst, hnumeral, hvalue⟩ := assemble_reads _ _ []
      (.inr (htake n.toNat (by omega))) (hpart n.toNat).1 (hpart n.toNat).2 rfl
    refine ⟨hfirst, hnumeral, hvalue.trans ?_⟩
    rw [List.take_append_drop, List.length_drop]
    congr 2
    rw [exponentValue]
    omega
  · -- zeros behind the point
    obtain ⟨hfirst, hnumeral, hvalue⟩ := assemble_reads (ascii "0")
      (List.replicate (-n).toNat (unit '0') ++ text) [] (.inl rfl) (List.all_eq_true.mp rfl)
      (fun u hu => (List.mem_append.mp hu).elim (hzeros _ u) (hdigits u)) rfl
    refine ⟨hfirst, hnumeral, hvalue.trans ?_⟩
    have hzero : digitsValue (ascii "0") = 0 := rfl
    rw [digitsValue_append, digitsValue_append, digitsValue_zeros, hzero, zero_mul, zero_mul,
      zero_add, zero_add, List.length_append, List.length_replicate]
    congr 2
    rw [exponentValue]
    omega
  · -- an exponent
    obtain ⟨hexponent, hread⟩ := exponent_reads (e := n - 1) (by omega)
    obtain ⟨hfirst, hnumeral, hvalue⟩ :=
      assemble_reads _ _ _ (.inr (htake 1 Nat.one_pos)) (hpart 1).1
      (hpart 1).2 hexponent
    refine ⟨hfirst, hnumeral, hvalue.trans ?_⟩
    rw [List.take_append_drop, List.length_drop, hread]
    congr 2
    omega

/-! ## §5. The digits of a double. -/

/-- What stands for a double above zero is above zero. -/
theorem pos_of_fits {x : ℚ} (hpos : 0 < x) {s j : ℤ} (h : fits x s j = true) : 0 < s := by
  by_contra hneg
  have hten : (0 : ℚ) < 10 ^ j := zpow_pos (by norm_num) j
  have hs : (s : ℚ) ≤ 0 := by exact_mod_cast not_lt.mp hneg
  have hle : (s : ℚ) * 10 ^ j ≤ ((0 : ℤ) : ℚ) := by
    rw [Int.cast_zero]
    exact mul_nonpos_of_nonpos_of_nonneg hs hten.le
  have hround := toBinary64_le (by norm_num) (of_decide_eq_true h) hle
  rw [Int.cast_zero] at hround
  linarith

/-- Digits that are found stand for the double. -/
theorem fits_of_withDigits {x : ℚ} (hpos : 0 < x) {k s : ℕ} {j : ℤ}
    (h : withDigits x k = some (s, j)) :
    0 < s ∧ fits x s j = true := by
  obtain ⟨t, ht, heq⟩ := Option.map_eq_some_iff.mp h
  have hfits : fits x t (decade x - k) = true := by
    simpa using List.find?_some ht
  have ht' := pos_of_fits hpos hfits
  by_cases hten : t = 10 ^ k
  · rw [if_pos hten] at heq
    obtain ⟨rfl, rfl⟩ := Prod.mk.inj heq
    refine ⟨Nat.one_pos, ?_⟩
    -- the power of ten, by its own place
    have hvalue : ((10 ^ k : ℤ) : ℚ) * 10 ^ (decade x - k) = ((1 : ℕ) : ℤ) * 10 ^ decade x := by
      have hsum : decade x = decade x - k + k := by omega
      push_cast
      rw [one_mul]
      nth_rewrite 2 [hsum]
      rw [zpow_add₀ (by norm_num), zpow_natCast, mul_comm]
    unfold fits at hfits ⊢
    rw [hten, hvalue] at hfits
    exact hfits
  · rw [if_neg hten] at heq
    obtain ⟨rfl, rfl⟩ := Prod.mk.inj heq
    have hcast : ((t.toNat : ℕ) : ℤ) = t := Int.toNat_of_nonneg ht'.le
    refine ⟨by omega, ?_⟩
    rw [hcast]
    exact hfits

/-- A multiple of a power of two is a decimal fraction with as many places. -/
theorem exists_decimal (m : ℤ) (n i : ℕ) :
    ∃ z : ℤ, (m : ℚ) * 2 ^ (-(n : ℤ)) / 10 ^ (-(n + i : ℤ)) = z := by
  refine ⟨m * 5 ^ n * 10 ^ i, ?_⟩
  have hten : (10 : ℚ) ^ n = 2 ^ n * 5 ^ n := by
    rw [← mul_pow]
    norm_num
  rw [zpow_neg, zpow_neg, div_inv_eq_mul, zpow_add₀ (by norm_num), zpow_natCast, zpow_natCast,
    zpow_natCast, hten]
  push_cast
  field_simp

section

variable {x : ℚ} (hx : toBinary64 x = some x) (hpos : 0 < x)
include hx

/-- With enough digits, the double has its own. -/
theorem exists_withDigits {k : ℕ} (hk : decade x + 1074 ≤ k) :
    (withDigits x k).isSome = true := by
  obtain ⟨m, hm⟩ := exists_smallest hx
  obtain ⟨n, hn⟩ : ∃ n : ℕ, (1074 : ℤ) = n := ⟨1074, rfl⟩
  obtain ⟨i, hi⟩ : ∃ i : ℕ, decade x - k = -(n + i : ℤ) :=
    ⟨(k - decade x - 1074).toNat, by omega⟩
  -- the smallest double has so many decimal places, so there is nothing to round
  obtain ⟨z, hz⟩ : ∃ z : ℤ, x / 10 ^ (decade x - k) = z := by
    rw [hi]
    nth_rewrite 1 [hm]
    rw [hn]
    exact exists_decimal m n i
  have hexact : fits x (roundHalfEven (x / 10 ^ (decade x - k))) (decade x - k) = true := by
    have hten : (10 : ℚ) ^ (decade x - k) ≠ 0 := zpow_ne_zero _ (by norm_num)
    unfold fits
    rw [hz, roundHalfEven_intCast, ← hz, div_mul_cancel₀ _ hten]
    exact decide_eq_true hx
  unfold withDigits neighbour
  rw [Option.isSome_map, List.find?_isSome]
  exact ⟨_, List.mem_cons_self, hexact⟩

include hpos

/-- **There are digits that stand for the double.** -/
theorem exists_shortest : ∃ s j, shortest x = some (s, j) ∧ 0 < s ∧ fits x s j = true := by
  cases hfound : shortest x with
  | none =>
      unfold shortest at hfound
      rw [List.findSome?_eq_none_iff] at hfound
      have hnone := hfound (decade x + 1074).toNat (List.mem_range.mpr (Nat.lt_succ_self _))
      have hsome := exists_withDigits hx (k := (decade x + 1074).toNat + 1) (by omega)
      rw [hnone] at hsome
      cases hsome
  | some found =>
      obtain ⟨s, j⟩ := found
      unfold shortest at hfound
      obtain ⟨k, _, hk⟩ := List.exists_of_findSome?_eq_some hfound
      exact ⟨s, j, rfl, fits_of_withDigits hpos hk⟩

/-- The text of a double above zero is a numeral that stands for it. -/
theorem positiveText_reads :
    (∀ u ∈ (positiveText x).head?, isDigit u = true) ∧ isNumeral (positiveText x) = true
      ∧ toBinary64 (magnitude (positiveText x)) = some x := by
  obtain ⟨s, j, hshortest, hs, hfits⟩ := exists_shortest hx hpos
  obtain ⟨hne, hhead⟩ := head_digits hs
  obtain ⟨hfirst, hnumeral, hvalue⟩ :=
    layout_reads ((digits s).length + j) hne hhead (isDigit_digits s)
  unfold positiveText
  rw [hshortest]
  refine ⟨hfirst, hnumeral, ?_⟩
  rw [hvalue, digitsValue_digits, add_sub_cancel_left]
  exact of_decide_eq_true hfits

end

/-! ## §6. Numbers read back. -/

theorem numeralValue_of_digit {text : Text} (h : ∀ u ∈ text.head?, isDigit u = true) :
    numeralValue text = magnitude text := by
  unfold numeralValue
  rw [if_neg]
  intro hsign
  exact absurd (h _ hsign) (by decide)

/-- The text of a double is a numeral that stands for it. -/
theorem doubleText_reads (x : Double) :
    isNumeral (doubleText x.val) = true
      ∧ toBinary64 (numeralValue (doubleText x.val)) = some x.val := by
  obtain ⟨x, hx⟩ := x
  unfold doubleText
  rcases lt_trichotomy x 0 with hneg | rfl | hpos
  · have hmirror : toBinary64 (-x) = some (-x) := by
      rw [toBinary64_neg, hx]
      rfl
    obtain ⟨hfirst, hnumeral, hvalue⟩ := positiveText_reads hmirror (neg_pos.mpr hneg)
    rw [if_neg hneg.ne, if_pos hneg]
    constructor
    · have hdrop : dropSign (ascii "-") (unit '-' :: positiveText (-x)) = positiveText (-x) := rfl
      unfold isNumeral at hnumeral ⊢
      rw [dropSign_of_digit hfirst] at hnumeral
      rw [hdrop]
      exact hnumeral
    · have hsigned :
          numeralValue (unit '-' :: positiveText (-x)) = -magnitude (positiveText (-x)) :=
        if_pos rfl
      rw [hsigned, toBinary64_neg, hvalue]
      simp
  · rw [if_pos rfl]
    refine ⟨rfl, ?_⟩
    have hzero : numeralValue (ascii "0") = ((0 : ℤ) : ℚ) := by decide +kernel
    rw [hzero, toBinary64_intCast (by norm_num)]
    rfl
  · obtain ⟨hfirst, hnumeral, hvalue⟩ := positiveText_reads hx hpos
    rw [if_neg hpos.ne', if_neg (not_lt.mpr hpos.le), numeralValue_of_digit hfirst]
    exact ⟨hnumeral, hvalue⟩

/-- **A finite number is written as a numeral, and reads back.** -/
theorem readsBack_finite (x : Double) : jsNumerals.ReadsBack (.finite x) := by
  obtain ⟨hnumeral, hvalue⟩ := doubleText_reads x
  refine ⟨hnumeral, ?_⟩
  show readNumber (doubleText x.val) = _
  unfold readNumber
  split
  next q h =>
    obtain rfl : q = x.val := Option.some.inj (h.symm.trans hvalue)
    rfl
  next h =>
    rw [hvalue] at h
    cases h

end DoubleText
