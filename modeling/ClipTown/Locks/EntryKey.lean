/-
  ClipTown.Locks.EntryKey — the lock key of a catalog entry in five runtimes
  (`locks/rust`, `locks/gleam`, `locks/golang`, `locks/typescript`, `locks/dart`).

  The name of an entry may have placeholders, which a call site fills.  Two
  runtimes look for `{` and then for `}`, and take a brace that is never closed
  for a placeholder up to the end; three match `\{[^}]*\}` and leave it as it
  is.  Gleam's `string.split_once` cuts at whole grapheme clusters only, so it
  passes over a brace that a combining character follows.

    • `closed` — every brace that opens a placeholder is closed, and both
      stand alone,
    • `entryKeys_agree` — when the five runtimes compute one key.
-/
import ClipTown.Lib.Templates

namespace ClipTown.Locks

open Templates

/-- `Domain`. -/
inductive Domain where
  | jobs
  | migrations
  | outbox
  | tenant
  deriving DecidableEq

/-- `as_str`, `domain_to_string`, `wire`. -/
def Domain.asStr : Domain → String
  | .jobs => "jobs"
  | .migrations => "migrations"
  | .outbox => "outbox"
  | .tenant => "tenant"

/-- `ORG`. -/
def org : String := "cliptown"

/-- The text of `cliptown/<domain>/<name>`. -/
def key (domain : Domain) (name : String) : String :=
  org ++ "/" ++ domain.asStr ++ "/" ++ name

/-- A catalog row; `name` may contain `{placeholders}`. -/
structure Entry where
  domain : Domain
  name : String
  deriving DecidableEq

/-! ## §1. Rust and Gleam: looking for a brace. -/

/-- The text after the next closing brace, or nothing where there is none. -/
def afterClose (joined : List Char → Bool) (text : List Char) : List Char :=
  match cutAt joined '}' text with
  | some (_, after) => after
  | none => []

theorem length_afterClose (joined : List Char → Bool) (text : List Char) :
    (afterClose joined text).length ≤ text.length := by
  unfold afterClose
  split
  next hcut => exact Nat.le_of_lt (length_of_cutAt hcut)
  next => exact Nat.zero_le _

/-- The placeholder that `find('{')` and `find('}')` delimit. -/
def braces (joined : List Char → Bool) : Scanner Char where
  next text := (cutAt joined '{' text).map fun (before, rest) => (before, afterClose joined rest)
  shorter := by
    intro text before after h
    obtain ⟨⟨before', rest⟩, hcut, heq⟩ := Option.map_eq_some_iff.mp h
    cases heq
    exact Nat.lt_of_le_of_lt (length_afterClose joined rest) (length_of_cutAt hcut)

/-- `fill_placeholders`, of Rust. -/
def rustFillPlaceholders (template : List Char) (fill : List (List Char)) : List Char :=
  fillWith (braces fun _ => false) template fill

/-- The text goes on with a character that joins the one before it. -/
def joins (extends_ : Char → Bool) (text : List Char) : Bool := text.head?.any extends_

/-- `fill_placeholders`, of Gleam. -/
def gleamFillPlaceholders (extends_ : Char → Bool) (name : List Char) (fill : List (List Char)) :
    List Char :=
  fillWith (braces (joins extends_)) name fill

/-! ## §2. Go, TypeScript and Dart: matching `\{[^}]*\}`. -/

/-- What follows a match of `\{[^}]*\}` at the start of the text. -/
def placeholderAt : List Char → Option (List Char)
  | '{' :: rest => (cutAt (fun _ => false) '}' rest).map (·.2)
  | _ => none

/-- The leftmost match: what stands before it and after it. -/
def firstMatch : List Char → Option (List Char × List Char)
  | [] => none
  | c :: rest =>
      match placeholderAt (c :: rest) with
      | some after => some ([], after)
      | none => (firstMatch rest).map fun (before, after) => (c :: before, after)

theorem length_of_placeholderAt {text after : List Char} (h : placeholderAt text = some after) :
    after.length < text.length := by
  unfold placeholderAt at h
  split at h
  next rest =>
    obtain ⟨⟨before, after'⟩, hcut, rfl⟩ := Option.map_eq_some_iff.mp h
    exact Nat.lt_succ_of_lt (length_of_cutAt hcut)
  next => cases h

theorem length_of_firstMatch {text before after : List Char}
    (h : firstMatch text = some (before, after)) : after.length < text.length := by
  induction text generalizing before with
  | nil => cases h
  | cons c rest ih =>
      rw [firstMatch] at h
      split at h
      next hhere =>
        cases h
        exact length_of_placeholderAt hhere
      next =>
        obtain ⟨⟨before', after'⟩, hmatch, heq⟩ := Option.map_eq_some_iff.mp h
        cases heq
        exact Nat.lt_succ_of_lt (ih hmatch)

/-- `ReplaceAllStringFunc`, with the closure of `Entry.Key` that counts in `i`. -/
def goReplaceAll (text : List Char) (fill : List (List Char)) (i : Nat) : List Char :=
  match _h : firstMatch text with
  | none => text
  | some (before, after) =>
      match fill[i]? with
      | some v => before ++ v ++ goReplaceAll after fill (i + 1)
      | none => before ++ goReplaceAll after fill i
termination_by text.length
decreasing_by all_goals exact length_of_firstMatch _h

/-- `entry.name.split`, of TypeScript. -/
def tsSplit (text : List Char) : List (List Char) :=
  match _h : firstMatch text with
  | none => [text]
  | some (before, after) => before :: tsSplit after
termination_by text.length
decreasing_by exact length_of_firstMatch _h

/-- The parts, each but the last with its value, joined. -/
def tsFilled (name : List Char) (fill : List (List Char)) : List Char :=
  let parts := tsSplit name
  (parts.zipIdx.map fun (part, index) =>
    if index < parts.length - 1 then part ++ fill[index]?.getD [] else part).flatten

/-- `_fillPlaceholders`, of Dart. -/
def dartFillPlaceholders (template : List Char) (fill : List (List Char)) (index : Nat) :
    List Char :=
  match _h : firstMatch template with
  | none => template
  | some (before, after) =>
      before ++ fill[index]?.getD [] ++ dartFillPlaceholders after fill (index + 1)
termination_by template.length
decreasing_by exact length_of_firstMatch _h

/-! ## §3. The keys. -/

/-- A key, over a fill of the name. -/
def keyOf (fillName : List Char → List (List Char) → List Char) (entry : Entry)
    (fill : List String) : String :=
  key entry.domain (String.ofList (fillName entry.name.toList (fill.map String.toList)))

/-- `Entry::key`. -/
def rustEntryKey : Entry → List String → String := keyOf rustFillPlaceholders

/-- `entry_key`. -/
def gleamEntryKey (extends_ : Char → Bool) : Entry → List String → String :=
  keyOf (gleamFillPlaceholders extends_)

/-- `Entry.Key`. -/
def goEntryKey : Entry → List String → String := keyOf fun name fill => goReplaceAll name fill 0

/-- `entryKey`. -/
def tsEntryKey : Entry → List String → String := keyOf tsFilled

/-- `Entry.key`. -/
def dartEntryKey : Entry → List String → String :=
  keyOf fun name fill => dartFillPlaceholders name fill 0

/-- The five runtimes compute one key. -/
def OneKey (extends_ : Char → Bool) (entry : Entry) (fill : List String) : Prop :=
  rustEntryKey entry fill = gleamEntryKey extends_ entry fill
    ∧ rustEntryKey entry fill = goEntryKey entry fill
    ∧ rustEntryKey entry fill = tsEntryKey entry fill
    ∧ rustEntryKey entry fill = dartEntryKey entry fill

/-! ## §4. The three matchers are one. -/

/-- The placeholder that `\{[^}]*\}` matches. -/
def matches_ : Scanner Char where
  next := firstMatch
  shorter := length_of_firstMatch

theorem headD_drop (fill : List (List Char)) (i : Nat) :
    (fill.drop i).headD [] = fill[i]?.getD [] := by
  rw [List.headD_eq_head?_getD, List.head?_drop]

theorem dartFillPlaceholders_eq (text : List Char) (fill : List (List Char)) (index : Nat) :
    dartFillPlaceholders text fill index = fillWith matches_ text (fill.drop index) := by
  fun_induction dartFillPlaceholders text fill index with
  | case1 text index hmatch => rw [fillWith_none (s := matches_) hmatch]
  | case2 text index before after hmatch ih =>
      rw [fillWith_some (s := matches_) hmatch, headD_drop, List.tail_drop, ih]

theorem goReplaceAll_eq (text : List Char) (fill : List (List Char)) (i : Nat) :
    goReplaceAll text fill i = fillWith matches_ text (fill.drop i) := by
  fun_induction goReplaceAll text fill i with
  | case1 text i hmatch => rw [fillWith_none (s := matches_) hmatch]
  | case2 text i before after hmatch v hv ih =>
      rw [fillWith_some (s := matches_) hmatch, headD_drop, List.tail_drop, ih, hv,
        Option.getD_some]
  | case3 text i before after hmatch hv ih =>
      -- past the last value the counter stands still, and nothing is left to drop
      have hdrop : fill.drop i = [] := List.drop_eq_nil_of_le (List.getElem?_eq_none_iff.mp hv)
      rw [fillWith_some (s := matches_) hmatch, ih, hdrop]
      rw [List.headD_nil, List.tail_nil, List.append_nil]

theorem tsSplit_ne_nil (text : List Char) : tsSplit text ≠ [] := by
  rw [tsSplit]
  split <;> exact List.cons_ne_nil _ _

/-- The parts from the one with number `k` on. -/
theorem tsParts_eq (text : List Char) (fill : List (List Char)) (k : Nat) :
    (((tsSplit text).zipIdx k).map fun (part, index) =>
        if index < k + (tsSplit text).length - 1 then part ++ fill[index]?.getD []
        else part).flatten
      = fillWith matches_ text (fill.drop k) := by
  fun_induction tsSplit text generalizing k with
  | case1 text hmatch =>
      rw [fillWith_none (s := matches_) hmatch]
      simp
  | case2 text before after hmatch ih =>
      have hpos : 0 < (tsSplit after).length := List.length_pos_iff.mpr (tsSplit_ne_nil after)
      have hlength : k + (before :: tsSplit after).length - 1
          = k + 1 + (tsSplit after).length - 1 := by
        rw [List.length_cons]
        omega
      rw [fillWith_some (s := matches_) hmatch, headD_drop, List.tail_drop, ← ih (k + 1), hlength,
        List.zipIdx_cons, List.map_cons, List.flatten_cons]
      have hk : k < k + 1 + (tsSplit after).length - 1 := by omega
      simp only [hk, if_true]

theorem tsFilled_eq (name : List Char) (fill : List (List Char)) :
    tsFilled name fill = fillWith matches_ name fill := by
  have hparts := tsParts_eq name fill 0
  rw [Nat.zero_add, List.drop_zero] at hparts
  exact hparts

/-! ## §5. What a scanner finds. -/

/-- A template has no opening brace, or its first is never closed, or it is closed. -/
theorem template_cases (t : List Char) :
    '{' ∉ t
      ∨ (∃ b rest, t = b ++ '{' :: rest ∧ '{' ∉ b ∧ '}' ∉ rest)
      ∨ ∃ b inner after, t = b ++ '{' :: (inner ++ '}' :: after) ∧ '{' ∉ b ∧ '}' ∉ inner := by
  rcases first_delimiter '{' t with h | ⟨b, rest, rfl, hb⟩
  · exact Or.inl h
  rcases first_delimiter '}' rest with h | ⟨inner, after, rfl, hinner⟩
  · exact Or.inr (Or.inl ⟨b, rest, rfl, hb, h⟩)
  · exact Or.inr (Or.inr ⟨b, inner, after, rfl, hb, hinner⟩)

theorem length_after_lt (b inner after : List Char) :
    after.length < (b ++ '{' :: (inner ++ '}' :: after)).length := by
  simp only [List.length_append, List.length_cons]
  omega

/-- A fact of every template goes by its first placeholder and what follows it. -/
theorem template_induction {motive : List Char → Prop}
    (free : ∀ t, '{' ∉ t → motive t)
    (unclosed : ∀ b rest, '{' ∉ b → '}' ∉ rest → motive (b ++ '{' :: rest))
    (filled : ∀ b inner after, '{' ∉ b → '}' ∉ inner → motive after →
      motive (b ++ '{' :: (inner ++ '}' :: after)))
    (t : List Char) : motive t := by
  induction hn : t.length using Nat.strongRecOn generalizing t with
  | ind n ih =>
    subst hn
    obtain h | ⟨b, rest, rfl, hb, hrest⟩ | ⟨b, inner, after, rfl, hb, hinner⟩ := template_cases t
    · exact free t h
    · exact unclosed b rest hb hrest
    · refine filled b inner after hb hinner ?_
      exact ih after.length (length_after_lt b inner after) after rfl

section Braces

variable {b rest inner after : List Char}

theorem afterClose_none (joined : List Char → Bool) (hrest : '}' ∉ rest) :
    afterClose joined rest = [] := by
  unfold afterClose
  rw [cutAt_eq_none hrest]

theorem afterClose_delimiter {joined : List Char → Bool} (hinner : '}' ∉ inner)
    (hclose : joined after = false) :
    afterClose joined (inner ++ '}' :: after) = after := by
  unfold afterClose
  rw [cutAt_delimiter hinner hclose]

/-- What follows a closing brace is not joined to it. -/
theorem joined_afterClose {joined : List Char → Bool} (hnil : joined [] = false)
    (text : List Char) :
    joined (afterClose joined text) = false := by
  unfold afterClose
  split
  next hcut => exact (cutAt_eq_some hcut).2
  next => exact hnil

theorem braces_none (joined : List Char → Bool) {t : List Char} (h : '{' ∉ t) :
    (braces joined).next t = none := by
  show (cutAt joined '{' t).map _ = none
  rw [cutAt_eq_none h]
  rfl

theorem braces_open (joined : List Char → Bool) (hb : '{' ∉ b) (hrest : '}' ∉ rest)
    (hopen : joined rest = false) :
    (braces joined).next (b ++ '{' :: rest) = some (b, []) := by
  show (cutAt joined '{' (b ++ '{' :: rest)).map _ = _
  rw [cutAt_delimiter hb hopen]
  show some (b, afterClose joined rest) = _
  rw [afterClose_none joined hrest]

theorem braces_closed (joined : List Char → Bool) (hb : '{' ∉ b) (hinner : '}' ∉ inner)
    (hopen : joined (inner ++ '}' :: after) = false) (hclose : joined after = false) :
    (braces joined).next (b ++ '{' :: (inner ++ '}' :: after)) = some (b, after) := by
  show (cutAt joined '{' (b ++ '{' :: (inner ++ '}' :: after))).map _ = _
  rw [cutAt_delimiter hb hopen]
  show some (b, afterClose joined (inner ++ '}' :: after)) = _
  rw [afterClose_delimiter hinner hclose]

/-- To Rust, no character is joined to another. -/
theorem rust_open (hb : '{' ∉ b) (hrest : '}' ∉ rest) :
    (braces fun _ => false).next (b ++ '{' :: rest) = some (b, []) :=
  braces_open _ hb hrest rfl

theorem rust_closed (after : List Char) (hb : '{' ∉ b) (hinner : '}' ∉ inner) :
    (braces fun _ => false).next (b ++ '{' :: (inner ++ '}' :: after)) = some (b, after) :=
  braces_closed _ hb hinner rfl rfl

end Braces

section Matches

variable {b rest inner : List Char}

theorem firstMatch_append (hb : '{' ∉ b) (text : List Char) :
    firstMatch (b ++ text) = (firstMatch text).map fun (before, after) => (b ++ before, after) := by
  induction b with
  | nil =>
      show firstMatch text = (firstMatch text).map id
      rw [Option.map_id, id_eq]
  | cons c b ih =>
      rw [List.mem_cons, not_or] at hb
      have hhere : placeholderAt (c :: (b ++ text)) = none := by
        unfold placeholderAt
        split
        next rest heq => exact absurd (List.cons.inj heq).1.symm hb.1
        next => rfl
      rw [List.cons_append, firstMatch, hhere, ih hb.2, Option.map_map]
      rfl

theorem firstMatch_unclosed {t : List Char} (h : '}' ∉ t) : firstMatch t = none := by
  induction t with
  | nil => rfl
  | cons c rest ih =>
      have hrest : '}' ∉ rest := fun hmem => h (List.mem_cons_of_mem c hmem)
      have hhere : placeholderAt (c :: rest) = none := by
        unfold placeholderAt
        split
        next rest' heq =>
          cases heq
          rw [cutAt_eq_none hrest]
          rfl
        next => rfl
      rw [firstMatch, hhere, ih hrest]
      rfl

theorem matches_none {t : List Char} (h : '{' ∉ t) : firstMatch t = none := by
  have happend := firstMatch_append h []
  rw [List.append_nil] at happend
  rw [happend]
  rfl

theorem matches_open (hb : '{' ∉ b) (hrest : '}' ∉ rest) :
    firstMatch (b ++ '{' :: rest) = none := by
  have hunclosed : '}' ∉ '{' :: rest := by
    rw [List.mem_cons, not_or]
    exact ⟨by decide, hrest⟩
  rw [firstMatch_append hb, firstMatch_unclosed hunclosed]
  rfl

theorem matches_closed (after : List Char) (hb : '{' ∉ b) (hinner : '}' ∉ inner) :
    firstMatch (b ++ '{' :: (inner ++ '}' :: after)) = some (b, after) := by
  have hhere : placeholderAt ('{' :: (inner ++ '}' :: after)) = some after := by
    rw [placeholderAt, cutAt_delimiter hinner rfl]
    rfl
  rw [firstMatch_append hb, firstMatch, hhere]
  show some (b ++ [], after) = _
  rw [List.append_nil]

end Matches

/-! ## §6. Closed templates. -/

/-- The brace that ends a stretch of a template. -/
def delimiter (inside : Bool) : Char := if inside then '}' else '{'

/-- Read from the left, every brace that opens a placeholder is closed, and no character
joins either of the two. -/
def closed (extends_ : Char → Bool) : Bool → List Char → Bool
  | inside, [] => !inside
  | inside, c :: rest =>
      if c = delimiter inside then !joins extends_ rest && closed extends_ (!inside) rest
      else closed extends_ inside rest

section Closed

variable {extends_ : Char → Bool} {b rest : List Char}

theorem closed_append (inside : Bool) (hb : delimiter inside ∉ b) (text : List Char) :
    closed extends_ inside (b ++ text) = closed extends_ inside text := by
  induction b with
  | nil => rfl
  | cons c b ih =>
      rw [List.mem_cons, not_or] at hb
      rw [List.cons_append, closed, if_neg (fun h => hb.1 h.symm), ih hb.2]

theorem closed_free (inside : Bool) (hb : delimiter inside ∉ b) :
    closed extends_ inside b = !inside := by
  have happend : closed extends_ inside (b ++ []) = closed extends_ inside [] :=
    closed_append inside hb []
  rw [List.append_nil] at happend
  rw [happend, closed]

theorem closed_open (hb : '{' ∉ b) :
    closed extends_ false (b ++ '{' :: rest)
      = (!joins extends_ rest && closed extends_ true rest) := by
  rw [closed_append false hb, closed, if_pos (show '{' = delimiter false from rfl),
    Bool.not_false]

theorem closed_close (hb : '}' ∉ b) :
    closed extends_ true (b ++ '}' :: rest)
      = (!joins extends_ rest && closed extends_ false rest) := by
  rw [closed_append true hb, closed, if_pos (show '}' = delimiter true from rfl),
    Bool.not_true]

end Closed

/-! ## §7. When the fills agree. -/

/-- The fill of Rust, of Gleam, and of the three matchers. -/
structure Agree (extends_ : Char → Bool) (template : List Char) (fill : List (List Char)) :
    Prop where
  gleam : rustFillPlaceholders template fill = gleamFillPlaceholders extends_ template fill
  matchers : rustFillPlaceholders template fill = fillWith matches_ template fill

/-- **A closed template is filled in one way.** -/
theorem agree_of_closed {extends_ : Char → Bool} {t : List Char}
    (hclosed : closed extends_ false t = true) (fill : List (List Char)) :
    Agree extends_ t fill := by
  induction t using template_induction generalizing fill with
  | free t h =>
      have hrust : rustFillPlaceholders t fill = t := fillWith_none (braces_none _ h) fill
      constructor
      · exact hrust.trans (fillWith_none (braces_none _ h) fill).symm
      · exact hrust.trans (fillWith_none (s := matches_) (matches_none h) fill).symm
  | unclosed b rest hb hrest =>
      rw [closed_open hb, closed_free true hrest, Bool.not_true, Bool.and_false] at hclosed
      cases hclosed
  | filled b inner after hb hinner ih =>
      rw [closed_open hb, closed_close hinner] at hclosed
      simp only [Bool.and_eq_true, Bool.not_eq_true'] at hclosed
      obtain ⟨hopen, hclose, hafter⟩ := hclosed
      have hrust := fillWith_some (rust_closed after hb hinner) fill
      obtain ⟨hgleam, hmatchers⟩ := ih hafter fill.tail
      constructor
      · have hstep := fillWith_some (braces_closed (joins extends_) hb hinner hopen hclose) fill
        exact hrust.trans (by rw [gleamFillPlaceholders, hstep]; exact congrArg _ hgleam)
      · have hstep := fillWith_some (s := matches_) (matches_closed after hb hinner) fill
        exact hrust.trans (by rw [hstep]; exact congrArg _ hmatchers)

/-- A fill of marks, enough for every placeholder of a template. -/
structure Marks (t : List Char) (fill : List (List Char)) : Prop where
  mark : ∀ v ∈ fill, v = ['x']
  enough : t.length ≤ fill.length

theorem Marks.headD {t : List Char} {fill : List (List Char)} (h : Marks t fill) (hne : t ≠ []) :
    fill.headD [] = ['x'] := by
  have hpos := List.length_pos_iff.mpr hne
  have henough := h.enough
  cases fill with
  | nil =>
      rw [List.length_nil] at henough
      omega
  | cons v fill => exact h.mark v List.mem_cons_self

theorem Marks.tail {t after : List Char} {fill : List (List Char)} (h : Marks t fill)
    (hlt : after.length < t.length) : Marks after fill.tail where
  mark v hv := h.mark v (List.mem_of_mem_tail hv)
  enough := by
    have henough := h.enough
    rw [List.length_tail]
    omega

section Marked

variable {extends_ : Char → Bool} {fill : List (List Char)}

theorem marks_replicate (t : List Char) : Marks t (List.replicate t.length ['x']) where
  mark _ hv := List.eq_of_mem_replicate hv
  enough := Nat.le_of_eq List.length_replicate.symm

/-- A marked template begins as the template does, up to characters that join none. -/
theorem joins_fillWith (hascii : ∀ c, c.toNat < 128 → extends_ c = false)
    (joined : List Char → Bool) {t : List Char} (hmarks : Marks t fill) :
    joins extends_ (fillWith (braces joined) t fill) = joins extends_ t := by
  cases hnext : (braces joined).next t with
  | none => rw [fillWith_none hnext]
  | some cut =>
      obtain ⟨before, after⟩ := cut
      obtain ⟨⟨before', rest⟩, hcut, heq⟩ := Option.map_eq_some_iff.mp hnext
      cases heq
      obtain ⟨ht, _⟩ := cutAt_eq_some hcut
      have hne : t ≠ [] := by
        rw [ht]
        exact List.append_ne_nil_of_right_ne_nil _ (List.cons_ne_nil _ _)
      rw [fillWith_some hnext, hmarks.headD hne, ht]
      cases before with
      | nil =>
          show extends_ 'x' = extends_ '{'
          rw [hascii 'x' (by decide), hascii '{' (by decide)]
      | cons c before => rfl

/-- Gleam keeps an opening brace that the next character joins. -/
theorem gleam_keeps {b rest : List Char} (fill : List (List Char)) (hb : '{' ∉ b)
    (hjoins : joins extends_ rest = true) :
    ∃ r, gleamFillPlaceholders extends_ (b ++ '{' :: rest) fill = b ++ '{' :: r := by
  have hcut := cutAt_joined hb hjoins
  cases hrest : cutAt (joins extends_) '{' rest with
  | none =>
      have hnext : (braces (joins extends_)).next (b ++ '{' :: rest) = none := by
        show (cutAt (joins extends_) '{' (b ++ '{' :: rest)).map _ = none
        rw [hcut, hrest]
        rfl
      exact ⟨rest, fillWith_none hnext fill⟩
  | some cut =>
      obtain ⟨b', rest'⟩ := cut
      have hnext : (braces (joins extends_)).next (b ++ '{' :: rest)
          = some (b ++ '{' :: b', afterClose (joins extends_) rest') := by
        show (cutAt (joins extends_) '{' (b ++ '{' :: rest)).map _ = _
        rw [hcut, hrest]
        rfl
      have hstep := fillWith_some hnext fill
      rw [List.append_assoc, List.append_assoc] at hstep
      exact ⟨_, hstep⟩

/-- **Where marks are filled in one way, the template is closed.** -/
theorem closed_of_agree (hascii : ∀ c, c.toNat < 128 → extends_ c = false) {t : List Char}
    {fill : List (List Char)} (hmarks : Marks t fill) (hagree : Agree extends_ t fill) :
    closed extends_ false t = true := by
  induction t using template_induction generalizing fill with
  | free t h => exact closed_free false h
  | unclosed b rest hb hrest =>
      -- the matchers keep the brace where Rust puts the mark
      have hne : b ++ '{' :: rest ≠ [] := by simp
      have hrust := fillWith_some (rust_open hb hrest) fill
      have hmatch := fillWith_none (s := matches_) (matches_open hb hrest) fill
      have heq := hrust.symm.trans (hagree.matchers.trans hmatch)
      rw [hmarks.headD hne, List.append_assoc, List.append_cancel_left_eq] at heq
      cases heq
  | filled b inner after hb hinner ih =>
      have hafter := hmarks.tail (length_after_lt b inner after)
      have hne : b ++ '{' :: (inner ++ '}' :: after) ≠ [] := by simp
      have hrust := fillWith_some (rust_closed after hb hinner) fill
      have hmark := hmarks.headD hne
      rw [closed_open hb, closed_close hinner]
      simp only [Bool.and_eq_true, Bool.not_eq_true']
      have hopen : joins extends_ (inner ++ '}' :: after) = false := by
        by_contra hjoins
        obtain ⟨r, hgleam⟩ := gleam_keeps fill hb ((Bool.not_eq_false _).mp hjoins)
        have heq := hrust.symm.trans (hagree.gleam.trans hgleam)
        rw [hmark, List.append_assoc, List.append_cancel_left_eq] at heq
        cases heq
      -- what Gleam takes to follow the placeholder
      have hnext : (braces (joins extends_)).next (b ++ '{' :: (inner ++ '}' :: after))
          = some (b, afterClose (joins extends_) (inner ++ '}' :: after)) := by
        show (cutAt (joins extends_) '{' (b ++ '{' :: (inner ++ '}' :: after))).map _ = _
        rw [cutAt_delimiter hb hopen]
        rfl
      have hgleam := hrust.symm.trans (hagree.gleam.trans (fillWith_some hnext fill))
      rw [List.append_cancel_left_eq] at hgleam
      have hclose : joins extends_ after = false := by
        have hgleamMarks := hmarks.tail ((braces (joins extends_)).shorter hnext)
        have hnone : joins extends_ (afterClose (joins extends_) (inner ++ '}' :: after)) = false :=
          joined_afterClose rfl _
        have hjoins := congrArg (joins extends_) hgleam
        rw [joins_fillWith hascii _ hafter, joins_fillWith hascii _ hgleamMarks,
          hnone] at hjoins
        exact hjoins
      rw [afterClose_delimiter hinner hclose] at hgleam
      have hmatch := fillWith_some (s := matches_) (matches_closed after hb hinner) fill
      have hmatchers := hrust.symm.trans (hagree.matchers.trans hmatch)
      rw [List.append_cancel_left_eq] at hmatchers
      exact ⟨hopen, hclose, ih hafter ⟨hgleam, hmatchers⟩⟩

end Marked

/-! ## §8. One fill. -/

/-- The brace that is never closed: how many placeholders stand before it, and the text
from it on. -/
def openBrace : Option (List Char) → Nat → List Char → Option (Nat × List Char)
  | start, n, [] => start.map fun text => (n, text)
  | none, n, c :: rest =>
      if c = '{' then openBrace (some (c :: rest)) n rest else openBrace none n rest
  | some start, n, c :: rest =>
      if c = '}' then openBrace none (n + 1) rest else openBrace (some start) n rest

theorem openBrace_append {b : List Char} (hb : '{' ∉ b) (n : Nat) (text : List Char) :
    openBrace none n (b ++ text) = openBrace none n text := by
  induction b with
  | nil => rfl
  | cons c b ih =>
      rw [List.mem_cons, not_or] at hb
      rw [List.cons_append, openBrace, if_neg (fun h => hb.1 h.symm), ih hb.2]

theorem openBrace_inside {inner : List Char} (hinner : '}' ∉ inner) (start : List Char) (n : Nat)
    (text : List Char) :
    openBrace (some start) n (inner ++ text) = openBrace (some start) n text := by
  induction inner with
  | nil => rfl
  | cons c inner ih =>
      rw [List.mem_cons, not_or] at hinner
      rw [List.cons_append, openBrace, if_neg (fun h => hinner.1 h.symm), ih hinner.2]

/-- No character joins a brace before it. -/
def Plain (extends_ : Char → Bool) (template : List Char) : Prop :=
  ∀ b c rest, template = b ++ c :: rest → c = '{' ∨ c = '}' → joins extends_ rest = false

theorem gleam_of_plain {extends_ : Char → Bool} {t : List Char} (hplain : Plain extends_ t)
    (fill : List (List Char)) :
    gleamFillPlaceholders extends_ t fill = rustFillPlaceholders t fill := by
  unfold gleamFillPlaceholders rustFillPlaceholders
  induction t using template_induction generalizing fill with
  | free t h => rw [fillWith_none (braces_none _ h), fillWith_none (braces_none _ h)]
  | unclosed b rest hb hrest =>
      have hopen := hplain b '{' rest rfl (Or.inl rfl)
      rw [fillWith_some (braces_open _ hb hrest hopen), fillWith_some (rust_open hb hrest),
        fillWith_none (braces_none _ List.not_mem_nil),
        fillWith_none (braces_none _ List.not_mem_nil)]
  | filled b inner after hb hinner ih =>
      have hopen := hplain b '{' _ rfl (Or.inl rfl)
      have hsplit : b ++ '{' :: (inner ++ '}' :: after) = (b ++ '{' :: inner) ++ '}' :: after := by
        rw [List.append_assoc, List.cons_append]
      have hclose := hplain _ '}' after hsplit (Or.inr rfl)
      have hafter : Plain extends_ after := by
        intro b' c rest' heq hc
        refine hplain (b ++ '{' :: inner ++ '}' :: b') c rest' ?_ hc
        rw [hsplit, heq, List.append_assoc (b ++ '{' :: inner), List.cons_append]
      rw [fillWith_some (braces_closed _ hb hinner hopen hclose),
        fillWith_some (rust_closed after hb hinner), ih hafter]

/-- The matchers agree with Rust unless the value of the open brace differs from its text. -/
theorem matchers_iff {t : List Char} (n : Nat) (fill : List (List Char)) :
    rustFillPlaceholders t (fill.drop n) = fillWith matches_ t (fill.drop n)
      ↔ ∀ m text, openBrace none n t = some (m, text) → fill[m]?.getD [] = text := by
  unfold rustFillPlaceholders
  induction t using template_induction generalizing n with
  | free t h =>
      have hopen : openBrace none n t = none := by
        have happend := openBrace_append h n []
        rw [List.append_nil] at happend
        exact happend
      rw [fillWith_none (braces_none _ h), fillWith_none (s := matches_) (matches_none h), hopen]
      exact iff_of_true rfl fun m text heq => nomatch heq
  | unclosed b rest hb hrest =>
      -- the placeholder Rust sees here has the number `n`, and its value is compared
      have hopen : openBrace none n (b ++ '{' :: rest) = some (n, '{' :: rest) := by
        have hinside := openBrace_inside hrest ('{' :: rest) n []
        rw [List.append_nil] at hinside
        rw [openBrace_append hb, openBrace, if_pos rfl, hinside]
        rfl
      rw [fillWith_some (rust_open hb hrest), fillWith_none (braces_none _ List.not_mem_nil),
        fillWith_none (s := matches_) (matches_open hb hrest), hopen, List.append_nil,
        List.append_cancel_left_eq, headD_drop]
      constructor
      · intro h m text heq
        cases heq
        exact h
      · intro h
        exact h n _ rfl
  | filled b inner after hb hinner ih =>
      have hopen : openBrace none n (b ++ '{' :: (inner ++ '}' :: after))
          = openBrace none (n + 1) after := by
        rw [openBrace_append hb, openBrace, if_pos rfl, openBrace_inside hinner, openBrace,
          if_pos rfl]
      rw [fillWith_some (rust_closed after hb hinner),
        fillWith_some (s := matches_) (matches_closed after hb hinner), List.append_cancel_left_eq,
        List.tail_drop, hopen]
      exact ih (n + 1)

/-! ## §9. One key in five runtimes. -/

theorem keyOf_eq_iff {f g : List Char → List (List Char) → List Char} {entry : Entry}
    {fill : List String} :
    keyOf f entry fill = keyOf g entry fill
      ↔ f entry.name.toList (fill.map String.toList)
        = g entry.name.toList (fill.map String.toList) := by
  unfold keyOf key
  rw [← String.toList_inj]
  simp only [String.toList_append, List.append_cancel_left_eq, String.toList_ofList]

theorem oneKey_iff {extends_ : Char → Bool} {entry : Entry} {fill : List String} :
    OneKey extends_ entry fill
      ↔ Agree extends_ entry.name.toList (fill.map String.toList) := by
  unfold OneKey rustEntryKey gleamEntryKey goEntryKey tsEntryKey dartEntryKey
  simp only [keyOf_eq_iff, goReplaceAll_eq, tsFilled_eq, dartFillPlaceholders_eq, List.drop_zero]
  constructor
  · intro ⟨hgleam, hmatchers, _, _⟩
    exact ⟨hgleam, hmatchers⟩
  · intro ⟨hgleam, hmatchers⟩
    exact ⟨hgleam, hmatchers, hmatchers, hmatchers⟩

/-- **When the five runtimes compute one key**: for every fill, exactly when the template
is closed; and for one fill of a plain template, exactly when a brace that is never
closed is filled with its own text. -/
theorem entryKeys_agree {extends_ : Char → Bool} (hascii : ∀ c, c.toNat < 128 → extends_ c = false)
    (entry : Entry) :
    ((∀ fill, OneKey extends_ entry fill) ↔ closed extends_ false entry.name.toList = true)
      ∧ (Plain extends_ entry.name.toList → ∀ fill, OneKey extends_ entry fill
          ↔ ∀ n text, openBrace none 0 entry.name.toList = some (n, text) →
              (fill[n]?.getD "").toList = text) := by
  simp only [oneKey_iff]
  constructor
  · constructor
    · intro h
      have hmarks := marks_replicate entry.name.toList
      refine closed_of_agree hascii hmarks ?_
      have hagree := h (List.replicate entry.name.toList.length "x")
      rw [List.map_replicate] at hagree
      exact hagree
    · intro h fill
      exact agree_of_closed h _
  · intro hplain fill
    have hvalue : ∀ n : Nat, (fill[n]?.getD "").toList
        = (fill.map String.toList)[n]?.getD [] := by
      intro n
      rw [List.getElem?_map]
      cases fill[n]? <;> rfl
    simp only [hvalue]
    have hiff := matchers_iff (t := entry.name.toList) 0 (fill.map String.toList)
    rw [List.drop_zero] at hiff
    rw [← hiff]
    constructor
    · intro h
      exact h.matchers
    · intro h
      exact ⟨(gleam_of_plain hplain _).symm, h⟩

/-- The combining diacritical marks, which extend a character. -/
def combining (c : Char) : Bool := 0x300 ≤ c.toNat && c.toNat ≤ 0x36f

theorem combining_ascii (c : Char) (h : c.toNat < 128) : combining c = false := by
  unfold combining
  rw [Bool.and_eq_false_iff]
  exact Or.inl (decide_eq_false (by omega))

theorem entryKeys_agree_singletonJob :
    ((∀ fill, OneKey combining ⟨.jobs, "singleton:\x7bjob\x7d"⟩ fill)
        ↔ closed combining false "singleton:\x7bjob\x7d".toList = true)
      ∧ (Plain combining "singleton:\x7bjob\x7d".toList →
          ∀ fill, OneKey combining ⟨.jobs, "singleton:\x7bjob\x7d"⟩ fill
            ↔ ∀ n text, openBrace none 0 "singleton:\x7bjob\x7d".toList = some (n, text) →
                (fill[n]?.getD "").toList = text) :=
  entryKeys_agree combining_ascii ⟨.jobs, "singleton:\x7bjob\x7d"⟩

/-- A brace that is never closed gives one entry two keys. -/
theorem open_brace_splits_key :
    rustEntryKey ⟨.jobs, "singleton:\x7bjob"⟩ ["nightly"] = "cliptown/jobs/singleton:nightly"
      ∧ goEntryKey ⟨.jobs, "singleton:\x7bjob"⟩ ["nightly"] = "cliptown/jobs/singleton:\x7bjob"
      ∧ ¬ OneKey combining ⟨.jobs, "singleton:\x7bjob"⟩ ["nightly"] := by
  have hrust : rustEntryKey ⟨.jobs, "singleton:\x7bjob"⟩ ["nightly"]
      = "cliptown/jobs/singleton:nightly" := by decide +kernel
  have hgo : goEntryKey ⟨.jobs, "singleton:\x7bjob"⟩ ["nightly"]
      = "cliptown/jobs/singleton:\x7bjob" := by decide +kernel
  refine ⟨hrust, hgo, ?_⟩
  intro ⟨_, heq, _⟩
  rw [hrust, hgo] at heq
  exact absurd heq (by decide)

end ClipTown.Locks
