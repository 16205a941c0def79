/-
  ClipTown.Lib.Base64 — padded base64 over any alphabet of 64 symbols.

  Three bytes make four symbols; a last group of one or two bytes is filled up
  with padding, and its unused bits are zero.  `decode` accepts exactly these
  texts: full groups, canonical padding, no trailing bits.

    • `decodeChars_encodeChars`, `encodeChars_of_decodeChars` — the two round
      trips, one on the bytes and one on the texts that decode,
    • `Alphabet.decode_eq_some` — a text decodes to `bytes` iff it is THE
      encoding of `bytes`,
    • `length_encodeChars`, `encode_whole_iff` — four symbols for every three
      bytes begun, and padding only in a last group that is not full.
-/
import Mathlib.Data.List.FinRange
import Mathlib.Data.UInt
import Mathlib.Tactic.Common

namespace Base64

/-! ## §1. Alphabets. -/

/-- 64 distinct ASCII symbols and a padding character apart from them. -/
structure Alphabet where
  symbol : Fin 64 → Char
  pad : Char
  injective : Function.Injective symbol
  pad_ne : ∀ i, symbol i ≠ pad
  symbol_ascii : ∀ i, (symbol i).val ≤ 127
  pad_ascii : pad.val ≤ 127

/-- The low six bits of a number. -/
def low6 (n : Nat) : Fin 64 := ⟨n % 64, Nat.mod_lt n (by decide)⟩

@[simp] theorem val_low6 (n : Nat) : (low6 n).val = n % 64 := rfl

namespace Alphabet

variable (A : Alphabet)

/-- The value of a symbol. -/
def value? (c : Char) : Option (Fin 64) := (List.finRange 64).find? (fun i => A.symbol i = c)

@[simp] theorem value?_symbol (i : Fin 64) : A.value? (A.symbol i) = some i := by
  unfold value?
  rw [List.find?_eq_some_iff_append]
  obtain ⟨before, after, hsplit⟩ := List.append_of_mem (List.mem_finRange i)
  refine ⟨by simp, before, after, hsplit, ?_⟩
  intro j hj
  have hnodup : (before ++ i :: after).Nodup := hsplit ▸ List.nodup_finRange 64
  have hne : j ≠ i := by
    intro heq
    exact (List.nodup_append.mp hnodup).2.2 j hj i List.mem_cons_self heq
  simpa using fun heq => hne (A.injective heq)

theorem value?_eq_some {c : Char} {i : Fin 64} : A.value? c = some i ↔ c = A.symbol i := by
  constructor
  · intro h
    have hfound := List.find?_some h
    simpa [eq_comm] using hfound
  · intro h
    rw [h, A.value?_symbol]

/-! ## §2. Encoding. -/

/-- The symbol for the low six bits of `n`. -/
def sextet (n : Nat) : Char := A.symbol (low6 n)

/-- The encoding of a list of bytes, group by group. -/
def encodeChars : List UInt8 → List Char
  | a :: b :: c :: rest =>
      A.sextet (a.toNat / 4)
        :: A.sextet (a.toNat % 4 * 16 + b.toNat / 16)
        :: A.sextet (b.toNat % 16 * 4 + c.toNat / 64)
        :: A.sextet (c.toNat % 64)
        :: encodeChars rest
  | [a, b] =>
      [A.sextet (a.toNat / 4), A.sextet (a.toNat % 4 * 16 + b.toNat / 16),
        A.sextet (b.toNat % 16 * 4), A.pad]
  | [a] => [A.sextet (a.toNat / 4), A.sextet (a.toNat % 4 * 16), A.pad, A.pad]
  | [] => []

/-- The encoding as a text. -/
def encode (bytes : List UInt8) : String := String.ofList (A.encodeChars bytes)

/-! ## §3. Decoding. -/

/-- The first byte of a group, from its first two values. -/
def byte₀ (u v : Fin 64) : UInt8 := UInt8.ofNat (u.val * 4 + v.val / 16)

/-- The second byte, from the second and third values. -/
def byte₁ (v w : Fin 64) : UInt8 := UInt8.ofNat (v.val % 16 * 16 + w.val / 4)

/-- The third byte, from the third and fourth values. -/
def byte₂ (w x : Fin 64) : UInt8 := UInt8.ofNat (w.val % 4 * 64 + x.val)

/-- A group of four symbols. -/
def decodeFull (p q r s : Char) : Option (List UInt8) := do
  let u ← A.value? p
  let v ← A.value? q
  let w ← A.value? r
  let x ← A.value? s
  return [byte₀ u v, byte₁ v w, byte₂ w x]

/-- A last group: full, or padded with the unused bits zero. -/
def decodeLast (p q r s : Char) : Option (List UInt8) :=
  if s ≠ A.pad then
    A.decodeFull p q r s
  else if r ≠ A.pad then do
    let u ← A.value? p
    let v ← A.value? q
    let w ← A.value? r
    if w.val % 4 = 0 then return [byte₀ u v, byte₁ v w] else none
  else do
    let u ← A.value? p
    let v ← A.value? q
    if v.val % 16 = 0 then return [byte₀ u v] else none

/-- The bytes of a text, when it is an encoding. -/
def decodeChars : List Char → Option (List UInt8)
  | [] => some []
  | [p, q, r, s] => A.decodeLast p q r s
  | p :: q :: r :: s :: rest => do
      let group ← A.decodeFull p q r s
      let others ← decodeChars rest
      return group ++ others
  | _ => none

/-- The decoder on texts. -/
def decode (text : String) : Option (List UInt8) := A.decodeChars text.toList

/-! ## §4. One group. -/

variable {A}

@[simp] theorem value?_sextet (n : Nat) : A.value? (A.sextet n) = some (low6 n) :=
  A.value?_symbol _

@[simp] theorem sextet_ne_pad (n : Nat) : A.sextet n ≠ A.pad := A.pad_ne _

theorem byte₀_sextets (a b : UInt8) :
    byte₀ (low6 (a.toNat / 4)) (low6 (a.toNat % 4 * 16 + b.toNat / 16)) = a := by
  have ha := a.toNat_lt
  have hb := b.toNat_lt
  apply UInt8.toNat_inj.mp
  simp only [byte₀, val_low6, UInt8.toNat_ofNat']
  omega

theorem byte₁_sextets (a b c : UInt8) :
    byte₁ (low6 (a.toNat % 4 * 16 + b.toNat / 16))
      (low6 (b.toNat % 16 * 4 + c.toNat / 64)) = b := by
  have hb := b.toNat_lt
  have hc := c.toNat_lt
  apply UInt8.toNat_inj.mp
  simp only [byte₁, val_low6, UInt8.toNat_ofNat']
  omega

theorem byte₂_sextets (b c : UInt8) :
    byte₂ (low6 (b.toNat % 16 * 4 + c.toNat / 64)) (low6 (c.toNat % 64)) = c := by
  have hc := c.toNat_lt
  apply UInt8.toNat_inj.mp
  simp only [byte₂, val_low6, UInt8.toNat_ofNat']
  omega

theorem decodeFull_encode (a b c : UInt8) :
    A.decodeFull (A.sextet (a.toNat / 4)) (A.sextet (a.toNat % 4 * 16 + b.toNat / 16))
      (A.sextet (b.toNat % 16 * 4 + c.toNat / 64)) (A.sextet (c.toNat % 64)) = some [a, b, c] := by
  simp [decodeFull, byte₀_sextets, byte₁_sextets, byte₂_sextets]

/-- The symbol of a value is the sextet of any number with these low bits. -/
theorem symbol_eq_sextet {i : Fin 64} {n : Nat} (h : n % 64 = i.val) :
    A.symbol i = A.sextet n := by
  unfold sextet
  congr 1
  ext
  rw [val_low6, h]

/-- A full group that decodes is the encoding of its bytes. -/
theorem encode_of_decodeFull {p q r s : Char} {group : List UInt8}
    (h : A.decodeFull p q r s = some group) (rest : List UInt8) :
    A.encodeChars (group ++ rest) = p :: q :: r :: s :: A.encodeChars rest := by
  simp only [decodeFull, Option.bind_eq_bind, Option.bind_eq_some_iff, value?_eq_some,
    Option.pure_def, Option.some.injEq] at h
  obtain ⟨u, rfl, v, rfl, w, rfl, x, rfl, rfl⟩ := h
  have hu := u.isLt
  have hv := v.isLt
  have hw := w.isLt
  have hx := x.isLt
  simp only [List.cons_append, List.nil_append, encodeChars, byte₀, byte₁, byte₂,
    UInt8.toNat_ofNat']
  rw [symbol_eq_sextet (A := A) (i := u), symbol_eq_sextet (A := A) (i := v),
    symbol_eq_sextet (A := A) (i := w), symbol_eq_sextet (A := A) (i := x)]
  all_goals omega

/-- So is a last group that decodes. -/
theorem encode_of_decodeLast {p q r s : Char} {group : List UInt8}
    (h : A.decodeLast p q r s = some group) : A.encodeChars group = [p, q, r, s] := by
  unfold decodeLast at h
  split at h
  next =>
    -- a full group
    have hfull := encode_of_decodeFull h []
    rwa [List.append_nil] at hfull
  next hs =>
    rw [not_not] at hs
    subst hs
    split at h
    next =>
      simp only [Option.bind_eq_bind, Option.bind_eq_some_iff, value?_eq_some,
        Option.pure_def] at h
      -- one padding character: two bytes
      obtain ⟨u, rfl, v, rfl, w, rfl, h⟩ := h
      split at h
      next hlow =>
        obtain rfl := Option.some.inj h
        have hu := u.isLt
        have hv := v.isLt
        have hw := w.isLt
        simp only [encodeChars, byte₀, byte₁, UInt8.toNat_ofNat']
        rw [symbol_eq_sextet (A := A) (i := u), symbol_eq_sextet (A := A) (i := v),
          symbol_eq_sextet (A := A) (i := w)]
        all_goals omega
      next => cases h
    next hr =>
      rw [not_not] at hr
      subst hr
      simp only [Option.bind_eq_bind, Option.bind_eq_some_iff, value?_eq_some,
        Option.pure_def] at h
      -- two padding characters: one byte
      obtain ⟨u, rfl, v, rfl, h⟩ := h
      split at h
      next hlow =>
        obtain rfl := Option.some.inj h
        have hu := u.isLt
        have hv := v.isLt
        simp only [encodeChars, byte₀, UInt8.toNat_ofNat']
        rw [symbol_eq_sextet (A := A) (i := u), symbol_eq_sextet (A := A) (i := v)]
        all_goals omega
      next => cases h

/-! ## §5. The round trips. -/

/-- A group in front of an encoding is read on its own. -/
theorem decodeChars_full {p q r s : Char} {a b c : UInt8}
    (hgroup : A.decodeFull p q r s = some [a, b, c]) (hs : s ≠ A.pad) (rest : List Char) :
    A.decodeChars (p :: q :: r :: s :: rest)
      = (A.decodeChars rest).map (fun others => [a, b, c] ++ others) := by
  cases rest with
  | nil => simp [decodeChars, decodeLast, hs, hgroup]
  | cons t rest => simp [decodeChars, hgroup, Option.map_eq_bind]

/-- Decoding an encoding gives the bytes back. -/
theorem decodeChars_encodeChars (bytes : List UInt8) :
    A.decodeChars (A.encodeChars bytes) = some bytes := by
  fun_induction A.encodeChars bytes with
  | case1 a b c rest ih =>
      rw [decodeChars_full (decodeFull_encode a b c) (sextet_ne_pad _), ih]
      rfl
  | case2 a b =>
      have hb := b.toNat_lt
      have hlow : (b.toNat % 16 * 4) % 64 % 4 = 0 := by omega
      have h₁ : byte₁ (low6 (a.toNat % 4 * 16 + b.toNat / 16))
          (low6 (b.toNat % 16 * 4)) = b := by
        simpa using byte₁_sextets a b 0
      simp [decodeChars, decodeLast, hlow, byte₀_sextets, h₁]
  | case3 a =>
      have hlow : (a.toNat % 4 * 16) % 64 % 16 = 0 := by omega
      have h₀ : byte₀ (low6 (a.toNat / 4)) (low6 (a.toNat % 4 * 16)) = a := by
        simpa using byte₀_sextets a 0
      simp [decodeChars, decodeLast, hlow, h₀]
  | case4 => rfl

/-- A text that decodes is the encoding of its bytes. -/
theorem encodeChars_of_decodeChars {text : List Char} {bytes : List UInt8}
    (h : A.decodeChars text = some bytes) : A.encodeChars bytes = text := by
  fun_induction A.decodeChars text generalizing bytes with
  | case1 =>
      obtain rfl := Option.some.inj h
      rfl
  | case2 p q r s => exact encode_of_decodeLast h
  | case3 p q r s rest _ ih =>
      simp only [Option.bind_eq_bind, Option.bind_eq_some_iff, Option.pure_def,
        Option.some.injEq] at h
      obtain ⟨group, hgroup, others, hothers, rfl⟩ := h
      rw [encode_of_decodeFull hgroup, ih hothers]
  | case4 => cases h

/-- **A text decodes to `bytes` iff it is the encoding of `bytes`.** -/
theorem decode_eq_some {text : String} {bytes : List UInt8} :
    A.decode text = some bytes ↔ text = A.encode bytes := by
  unfold decode encode
  constructor
  · intro h
    rw [encodeChars_of_decodeChars h, String.ofList_toList]
  · intro h
    rw [h, String.toList_ofList, decodeChars_encodeChars]

/-! ## §6. Sizes. -/

/-- Four symbols for every three bytes begun. -/
theorem length_encodeChars (bytes : List UInt8) :
    (A.encodeChars bytes).length = 4 * ((bytes.length + 2) / 3) := by
  fun_induction A.encodeChars bytes with
  | case1 a b c rest ih =>
      simp only [List.length_cons, ih]
      omega
  | case2 a b => simp
  | case3 a => simp
  | case4 => rfl

/-- Padding stands in an encoding iff its last group is not full. -/
theorem pad_mem_encodeChars (bytes : List UInt8) :
    A.pad ∈ A.encodeChars bytes ↔ bytes.length % 3 ≠ 0 := by
  have hsym : ∀ n, A.pad ≠ A.sextet n := fun n => (sextet_ne_pad n).symm
  fun_induction A.encodeChars bytes with
  | case1 a b c rest ih =>
      simp only [List.mem_cons, hsym, false_or, ih, List.length_cons]
      omega
  | case2 a b => simp [hsym]
  | case3 a => simp [hsym]
  | case4 => simp

/-- **Whole groups**: the texts of `4 k` characters without padding are the
encodings of `3 k` bytes. -/
theorem encode_whole_iff (bytes : List UInt8) (k : Nat) :
    (A.encode bytes).length = 4 * k ∧ A.pad ∉ (A.encode bytes).toList ↔ bytes.length = 3 * k := by
  unfold encode
  rw [String.length_ofList, String.toList_ofList, length_encodeChars, pad_mem_encodeChars]
  omega

/-- Every character of an encoding is ASCII. -/
theorem ascii_of_mem_encodeChars (bytes : List UInt8) :
    ∀ c ∈ A.encodeChars bytes, c.val ≤ 127 := by
  have hsym : ∀ n, (A.sextet n).val ≤ 127 := fun n => A.symbol_ascii _
  have hpad := A.pad_ascii
  fun_induction A.encodeChars bytes with
  | case1 a b c rest ih => simpa [hsym] using ih
  | case2 a b => simp [hsym, hpad]
  | case3 a => simp [hsym, hpad]
  | case4 => simp

end Alphabet

/-! ## §7. The standard alphabet. -/

/-- `A`–`Z`, `a`–`z`, `0`–`9`, `+`, `/`, by their code points. -/
def standardSymbol (i : Fin 64) : Char :=
  if i.val < 26 then Char.ofNat (65 + i.val)
  else if i.val < 52 then Char.ofNat (71 + i.val)
  else if i.val < 62 then Char.ofNat (i.val - 4)
  else if i.val = 62 then '+' else '/'

/-- The standard alphabet, padded with `=`. -/
def standard : Alphabet where
  symbol := standardSymbol
  pad := '='
  injective := by decide
  pad_ne := by decide
  symbol_ascii := by decide
  pad_ascii := by decide

example : standard.encode [77, 97, 110, 77] = "TWFuTQ==" := by decide

end Base64
