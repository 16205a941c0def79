/-
  ClipTown.Lib.PercentEncoding — percent encoding of texts, with a choice of
  the characters that stay as they are.

  Every other character is written as the bytes of its UTF-8 form, a `%` and
  two upper-case digits each; a form encoder writes a space as `+`.

    • `Escaper.not_mem_encode` — a separator is never written,
    • `Escaper.encode_eq_iff` — two escapers agree on a text iff they write
      every one of its characters in the same way,
    • `Escaper.encode_injective` — one escaper writes no two texts the same.
-/
import ClipTown.Lib.Separators

namespace PercentEncoding

open Separators

/-! ## §1. Encoding. -/

/-- A hexadecimal digit, in upper case. -/
def hexDigit (n : Nat) : Char := if n < 10 then Char.ofNat (48 + n) else Char.ofNat (55 + n)

/-- The upper-case hexadecimal digits. -/
def hexDigits : List Char := "0123456789ABCDEF".toList

/-- A byte, percent-encoded. -/
def percentByte (b : UInt8) : List Char := ['%', hexDigit (b.toNat / 16), hexDigit (b.toNat % 16)]

/-- A character, percent-encoded byte by byte. -/
def percentChar (c : Char) : List Char := (String.utf8EncodeChar c).flatMap percentByte

/-- The characters that stay as they are, and whether a space becomes a `+`. -/
structure Escaper where
  unreserved : Char → Bool
  plus : Bool
  percent_reserved : unreserved '%' = false
  plus_reserved : unreserved '+' = false

namespace Escaper

variable (e e' : Escaper)

/-- What is written for a character. -/
def char (c : Char) : List Char :=
  if e.unreserved c then [c]
  else if e.plus ∧ c = ' ' then ['+']
  else percentChar c

/-- What is written for a text. -/
def encode (text : List Char) : List Char := text.flatMap e.char

/-! ## §2. What is written. -/

theorem hexDigit_mem {n : Nat} (h : n < 16) : hexDigit n ∈ hexDigits := by
  have hall : ∀ k : Fin 16, hexDigit k ∈ hexDigits := by decide
  exact hall ⟨n, h⟩

theorem mem_percentChar {c d : Char} (h : d ∈ percentChar c) : d = '%' ∨ d ∈ hexDigits := by
  obtain ⟨b, _, hd⟩ := List.mem_flatMap.mp h
  have hhigh : b.toNat / 16 < 16 := by
    have hb := b.toNat_lt
    omega
  have hlow : b.toNat % 16 < 16 := Nat.mod_lt _ (by omega)
  simp only [percentByte, List.mem_cons, List.not_mem_nil, or_false] at hd
  rcases hd with hd | hd | hd
  · exact Or.inl hd
  · exact Or.inr (hd ▸ hexDigit_mem hhigh)
  · exact Or.inr (hd ▸ hexDigit_mem hlow)

/-- **A separator that no encoding uses is never written.** -/
theorem not_mem_encode {sep : Char} (hreserved : e.unreserved sep = false)
    (hsep : sep ∉ '%' :: '+' :: hexDigits) (text : List Char) : sep ∉ e.encode text := by
  intro hmem
  obtain ⟨c, _, hc⟩ := List.mem_flatMap.mp hmem
  unfold char at hc
  split at hc
  next hunreserved =>
    rw [List.mem_singleton] at hc
    rw [← hc, hreserved] at hunreserved
    cases hunreserved
  next =>
    split at hc
    next =>
      rw [List.mem_singleton] at hc
      exact hsep (by simp [hc])
    next =>
      rcases mem_percentChar hc with hd | hd
      · exact hsep (by simp [hd])
      · exact hsep (by simp [hd])

/-! ## §3. Two escapers. -/

/-- The first character written. -/
def head (c : Char) : Char :=
  if e.unreserved c then c else if e.plus ∧ c = ' ' then '+' else '%'

theorem percentChar_eq_cons (c : Char) : ∃ t, percentChar c = '%' :: t := by
  have hne : String.utf8EncodeChar c ≠ [] := by
    intro h
    have hlength := String.length_utf8EncodeChar c
    have hpos := c.utf8Size_pos
    rw [h, List.length_nil] at hlength
    omega
  obtain ⟨b, bs, hbytes⟩ := List.exists_cons_of_ne_nil hne
  unfold percentChar
  rw [hbytes]
  exact ⟨_, rfl⟩

theorem char_eq_cons (c : Char) : ∃ t, e.char c = e.head c :: t := by
  unfold char head
  split
  · exact ⟨[], rfl⟩
  · split
    · exact ⟨[], rfl⟩
    · exact percentChar_eq_cons c

/-- The first character says how the whole character is written. -/
theorem char_eq_of_head_eq {c : Char} (h : e.head c = e'.head c) : e.char c = e'.char c := by
  -- a `%` and a `+` are never written for themselves
  have hpercent : ∀ f : Escaper, f.unreserved c = true → c ≠ '%' := by
    intro f hf hc
    rw [hc, f.percent_reserved] at hf
    cases hf
  have hplus : ∀ f : Escaper, f.unreserved c = true → c ≠ '+' := by
    intro f hf hc
    rw [hc, f.plus_reserved] at hf
    cases hf
  unfold char head at *
  grind

theorem char_eq_iff {c : Char} : e.char c = e'.char c ↔ e.head c = e'.head c := by
  constructor
  · intro h
    obtain ⟨t, ht⟩ := e.char_eq_cons c
    obtain ⟨t', ht'⟩ := e'.char_eq_cons c
    rw [ht, ht'] at h
    exact (List.cons.inj h).1
  · exact char_eq_of_head_eq e e'

/-- **Two escapers agree on a text iff they agree on its characters.** -/
theorem encode_eq_iff (text : List Char) :
    e.encode text = e'.encode text ↔ ∀ c ∈ text, e.head c = e'.head c := by
  unfold encode
  rw [flatMap_eq_iff]
  · simp only [char_eq_iff]
  · intro c
    by_cases h : e.head c = e'.head c
    · exact Or.inl (char_eq_of_head_eq e e' h)
    · obtain ⟨t, ht⟩ := e.char_eq_cons c
      obtain ⟨t', ht'⟩ := e'.char_eq_cons c
      exact Or.inr ⟨_, _, t, t', ht, ht', h⟩

/-! ## §4. Two texts. -/

theorem hexDigit_inj {m n : Nat} (hm : m < 16) (hn : n < 16) (h : hexDigit m = hexDigit n) :
    m = n := by
  have hall : ∀ j k : Fin 16, hexDigit j = hexDigit k → j = k := by decide
  exact congrArg Fin.val (hall ⟨m, hm⟩ ⟨n, hn⟩ h)

/-- A byte is read off its two digits. -/
theorem percentByte_append {b b' : UInt8} {r r' : List Char}
    (h : percentByte b ++ r = percentByte b' ++ r') : b = b' ∧ r = r' := by
  have hb := b.toNat_lt
  have hb' := b'.toNat_lt
  simp only [percentByte, List.cons_append, List.nil_append, List.cons.injEq, true_and] at h
  obtain ⟨hhigh, hlow, hrest⟩ := h
  have hdiv := hexDigit_inj (by omega) (by omega) hhigh
  have hmod := hexDigit_inj (by omega) (by omega) hlow
  refine ⟨UInt8.toNat_inj.mp ?_, hrest⟩
  omega

/-- Of two runs of bytes in front of one text, one is the start of the other. -/
theorem prefix_of_percentBytes {bs bs' : List UInt8} {r r' : List Char}
    (h : bs.flatMap percentByte ++ r = bs'.flatMap percentByte ++ r') :
    bs <+: bs' ∨ bs' <+: bs := by
  induction bs generalizing bs' with
  | nil => exact .inl List.nil_prefix
  | cons b bs ih =>
      cases bs' with
      | nil => exact .inr List.nil_prefix
      | cons b' bs' =>
          rw [List.flatMap_cons, List.flatMap_cons, List.append_assoc, List.append_assoc] at h
          obtain ⟨rfl, hrest⟩ := percentByte_append h
          rcases ih hrest with hprefix | hprefix
          · exact .inl (List.cons_prefix_cons.mpr ⟨rfl, hprefix⟩)
          · exact .inr (List.cons_prefix_cons.mpr ⟨rfl, hprefix⟩)

/-- No character's bytes start another's. -/
theorem eq_of_utf8_start {c d : Char}
    (h : String.utf8EncodeChar c <+: String.utf8EncodeChar d) : c = d := by
  obtain ⟨t, ht⟩ := h
  have hc := ByteArray.utf8DecodeChar?_utf8EncodeChar_append (b := t.toByteArray) (c := c)
  have hd := ByteArray.utf8DecodeChar?_utf8EncodeChar_append (b := ByteArray.empty) (c := d)
  rw [← List.toByteArray_append, ht] at hc
  rw [ByteArray.append_empty] at hd
  exact Option.some.inj (hc.symm.trans hd)

/-- A percent-encoded character is read off its bytes. -/
theorem eq_of_percentChar {c d : Char} {r r' : List Char}
    (h : percentChar c ++ r = percentChar d ++ r') : c = d := by
  rcases prefix_of_percentBytes h with hprefix | hprefix
  · exact eq_of_utf8_start hprefix
  · exact (eq_of_utf8_start hprefix).symm

/-- The first character written says whether it is written for itself. -/
theorem head_of_unreserved {c d : Char} (hc : e.unreserved c = true)
    (h : e.head d = e.head c) : d = c := by
  have hpercent : c ≠ '%' := by
    rintro rfl
    rw [e.percent_reserved] at hc
    cases hc
  have hplus : c ≠ '+' := by
    rintro rfl
    rw [e.plus_reserved] at hc
    cases hc
  unfold head at h
  rw [if_pos hc] at h
  split_ifs at h
  · exact h
  · exact absurd h.symm hplus
  · exact absurd h.symm hpercent

/-- A character is read off what is written for it. -/
theorem eq_of_char {c d : Char} {r r' : List Char} (h : e.char c ++ r = e.char d ++ r') :
    c = d := by
  have hhead : e.head c = e.head d := by
    obtain ⟨t, ht⟩ := e.char_eq_cons c
    obtain ⟨t', ht'⟩ := e.char_eq_cons d
    rw [ht, ht', List.cons_append, List.cons_append] at h
    exact (List.cons.inj h).1
  by_cases hc : e.unreserved c = true
  · exact (head_of_unreserved e hc hhead.symm).symm
  by_cases hd : e.unreserved d = true
  · exact head_of_unreserved e hd hhead
  -- neither stays as it is: a `+` is a space, and a `%` starts the bytes
  unfold head at hhead
  unfold char at h
  rw [if_neg hc, if_neg hd] at hhead h
  by_cases hplus : e.plus = true ∧ c = ' '
  · by_cases hplus' : e.plus = true ∧ d = ' '
    · rw [hplus.2, hplus'.2]
    · rw [if_pos hplus, if_neg hplus'] at hhead
      exact absurd hhead (by decide)
  · by_cases hplus' : e.plus = true ∧ d = ' '
    · rw [if_neg hplus, if_pos hplus'] at hhead
      exact absurd hhead (by decide)
    · rw [if_neg hplus, if_neg hplus'] at h
      exact eq_of_percentChar h

/-- **An escaper writes no two texts the same.** -/
theorem encode_injective {a b : List Char} (h : e.encode a = e.encode b) : a = b := by
  have hne : ∀ c text, e.encode (c :: text) ≠ [] := by
    intro c text hnil
    obtain ⟨t, ht⟩ := e.char_eq_cons c
    rw [encode, List.flatMap_cons, ht, List.cons_append] at hnil
    cases hnil
  induction a generalizing b with
  | nil =>
      cases b with
      | nil => rfl
      | cons d b => exact absurd h.symm (hne d b)
  | cons c a ih =>
      cases b with
      | nil => exact absurd h (hne c a)
      | cons d b =>
          unfold encode at h ih
          rw [List.flatMap_cons, List.flatMap_cons] at h
          obtain rfl := e.eq_of_char h
          rw [ih (List.append_cancel_left h)]

end Escaper

end PercentEncoding
