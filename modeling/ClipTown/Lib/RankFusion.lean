/-
  ClipTown.Lib.RankFusion — ranked candidate lists.

  `ranked le l` numbers the members of `l` from 1 in the order `le`
  (`row_number() OVER (ORDER BY …)`); a candidate list is its first `n` rows.
  When the order is that of a key with distinct values, membership has a
  description that mentions neither the sort nor the list order:

    • `mem_take_canonical` — a member is among the first `n` iff fewer than `n`
      members come before it,
    • `mem_take_ranked_canonical` — and its rank is one more than that.

  Where members share a key, they stand in scan order:

    • `take_sorted_eq_of_perm` — without such members in reach of the first `n`, all
      arrangements have the same first `n`,
    • `ranked_front` — the one that is scanned first comes first.
-/
import ClipTown.Lib.CanonicalOrder
import Mathlib.Data.Prod.Lex

namespace RankFusion

open CanonicalOrder

variable {α κ : Type*}

/-! ## §1. Ranks. -/

/-- `row_number() OVER (ORDER BY le)`: the members in order, from rank 1. -/
def ranked (le : α → α → Bool) (l : List α) : List (α × Nat) := (l.mergeSort le).zipIdx 1

/-- The members of a ranked list. -/
def members (r : List (α × Nat)) : List α := r.map Prod.fst

theorem members_take_ranked (le : α → α → Bool) (l : List α) (n : Nat) :
    members ((ranked le l).take n) = (l.mergeSort le).take n := by
  unfold members ranked
  rw [List.map_take, List.zipIdx_map_fst]

@[simp] theorem take_ranked_nil (le : α → α → Bool) (n : Nat) :
    (ranked le ([] : List α)).take n = [] := by
  unfold ranked
  rw [List.mergeSort_nil, List.zipIdx_nil, List.take_nil]

/-- Candidates are members. -/
theorem mem_of_mem_take {le : α → α → Bool} {l : List α} {n : Nat} {a : α}
    (h : a ∈ members ((ranked le l).take n)) : a ∈ l := by
  rw [members_take_ranked] at h
  exact (List.mergeSort_perm l le).mem_iff.mp (List.mem_of_mem_take h)

/-- Candidates keep the distinct keys of the members. -/
theorem nodup_members_take {f : α → κ} {l : List α} (h : (l.map f).Nodup) (le : α → α → Bool)
    (n : Nat) : ((members ((ranked le l).take n)).map f).Nodup := by
  have hsorted : ((l.mergeSort le).map f).Nodup :=
    (((List.mergeSort_perm l le).map f).nodup_iff).mpr h
  rw [members_take_ranked]
  exact hsorted.sublist ((List.take_sublist n _).map f)

/-- A positive limit keeps a member of a list that has one. -/
theorem exists_mem_take {l : List α} {n : Nat} (hl : l ≠ []) (hn : 0 < n) : ∃ a, a ∈ l.take n := by
  cases l with
  | nil => exact absurd rfl hl
  | cons a l =>
      cases n with
      | zero => omega
      | succ n => exact ⟨a, by simp⟩

/-- A positive limit keeps a candidate where there is a member. -/
theorem exists_candidate (le : α → α → Bool) {l : List α} {a : α} (ha : a ∈ l) {n : Nat}
    (hn : 0 < n) : ∃ b, b ∈ members ((ranked le l).take n) := by
  rw [members_take_ranked]
  apply exists_mem_take _ hn
  intro hnil
  have hmem := (List.mergeSort_perm l le).mem_iff.mpr ha
  rw [hnil] at hmem
  exact List.not_mem_nil hmem

theorem mem_take_ranked {le : α → α → Bool} {l : List α} {n k : Nat} {a : α} :
    (a, k) ∈ (ranked le l).take n ↔ 1 ≤ k ∧ k ≤ n ∧ (l.mergeSort le)[k - 1]? = some a := by
  have hget : ∀ i, (ranked le l)[i]? = ((l.mergeSort le)[i]?).map fun b => (b, 1 + i) :=
    fun i => List.getElem?_zipIdx
  rw [List.mem_iff_getElem?]
  constructor
  · intro h
    obtain ⟨i, hsome⟩ := h
    rw [List.getElem?_take, hget] at hsome
    split at hsome
    · obtain ⟨b, hb, heq⟩ := Option.map_eq_some_iff.mp hsome
      cases heq
      refine ⟨by omega, by omega, ?_⟩
      rw [Nat.add_sub_cancel_left]
      exact hb
    · cases hsome
  · intro h
    obtain ⟨hpos, hle, hsome⟩ := h
    refine ⟨k - 1, ?_⟩
    rw [List.getElem?_take, if_pos (by omega), hget, hsome, show 1 + (k - 1) = k by omega]
    rfl

/-- The limit cuts the sorted members before they are numbered. -/
theorem take_ranked (le : α → α → Bool) (l : List α) (n : Nat) :
    (ranked le l).take n = ((l.mergeSort le).take n).zipIdx 1 := by
  apply List.ext_getElem?
  intro i
  unfold ranked
  rw [List.getElem?_take, List.getElem?_zipIdx, List.getElem?_zipIdx, List.getElem?_take]
  split <;> rfl

/-- A rank belongs to one member. -/
theorem eq_of_rank {le : α → α → Bool} {l : List α} {n n' k : Nat} {a b : α}
    (ha : (a, k) ∈ (ranked le l).take n) (hb : (b, k) ∈ (ranked le l).take n') : a = b := by
  have hget := (mem_take_ranked.mp ha).2.2
  rw [(mem_take_ranked.mp hb).2.2] at hget
  exact (Option.some.inj hget).symm

/-- Every candidate has a rank. -/
theorem exists_rank {r : List (α × Nat)} {a : α} (h : a ∈ members r) : ∃ k, (a, k) ∈ r := by
  obtain ⟨p, hp, rfl⟩ := List.mem_map.mp h
  exact ⟨p.2, hp⟩

section RankAt
variable [DecidableEq κ] (key : α → κ) {r : List (α × Nat)}

/-- The rank of the candidate with a key. -/
def rankAt (r : List (α × Nat)) (k : κ) : Option Nat :=
  (r.find? (fun p => key p.1 = k)).map Prod.snd

theorem rankAt_eq_none {k : κ} : rankAt key r k = none ↔ ∀ a ∈ members r, key a ≠ k := by
  unfold rankAt members
  rw [Option.map_eq_none_iff, List.find?_eq_none]
  simp

theorem mem_of_rankAt {k : κ} {n : Nat} (h : rankAt key r k = some n) :
    ∃ a, (a, n) ∈ r ∧ key a = k := by
  obtain ⟨p, hp, rfl⟩ := Option.map_eq_some_iff.mp h
  exact ⟨p.1, List.mem_of_find?_eq_some hp, by simpa using List.find?_some hp⟩

theorem rankAt_of_mem (hkeys : ((members r).map key).Nodup) {a : α} {n : Nat} (h : (a, n) ∈ r) :
    rankAt key r (key a) = some n := by
  cases hrank : rankAt key r (key a) with
  | none => exact absurd rfl ((rankAt_eq_none key).mp hrank a (List.mem_map_of_mem h))
  | some m =>
      obtain ⟨b, hb, hkey⟩ := mem_of_rankAt key hrank
      have hkeys' : (r.map fun p => key p.1).Nodup := by
        unfold members at hkeys
        rwa [List.map_map] at hkeys
      have hpair := List.inj_on_of_nodup_map hkeys' hb h hkey
      rw [(Prod.mk.inj hpair).2]

end RankAt

/-! ## §2. The first `n` of a strict order. -/

/-- How many members come before `a`. -/
def ahead [LinearOrder κ] (key : α → κ) (l : List α) (a : α) : Nat :=
  (l.filter (fun b => key b < key a)).length

variable [LinearOrder κ] {key : α → κ}

/-- As many come before a later member, at least. -/
theorem ahead_mono (l : List α) {a b : α} (h : key a ≤ key b) :
    ahead key l a ≤ ahead key l b := by
  unfold ahead
  refine (List.monotone_filter_right l fun c hc => ?_).length_le
  rw [decide_eq_true_iff] at hc ⊢
  exact lt_of_lt_of_le hc h

/-- Behind an earlier member at least one comes before. -/
theorem ahead_pos {l : List α} {a b : α} (ha : a ∈ l) (h : key a < key b) : 0 < ahead key l b := by
  unfold ahead
  exact List.length_pos_of_mem (List.mem_filter.mpr ⟨ha, decide_eq_true h⟩)

/-- A member does not come before itself. -/
theorem ahead_lt_length {l : List α} {a : α} (h : a ∈ l) :
    ahead key l a < l.length := by
  unfold ahead
  rw [List.length_filter_lt_length_iff_exists]
  exact ⟨a, h, by simp⟩

/-- In a strictly sorted list, as many come before a member as stand before it. -/
theorem ahead_of_sorted {pre post : List α} {a : α}
    (h : (pre ++ a :: post).Pairwise (fun b c => key b < key c)) :
    ahead key (pre ++ a :: post) a = pre.length := by
  rw [List.pairwise_append, List.pairwise_cons] at h
  obtain ⟨_, ⟨hpost, _⟩, hpre⟩ := h
  have hkeep : pre.filter (fun b => key b < key a) = pre := by
    rw [List.filter_eq_self]
    intro b hb
    simpa using hpre b hb a List.mem_cons_self
  have hdrop : (a :: post).filter (fun b => key b < key a) = [] := by
    rw [List.filter_eq_nil_iff]
    intro b hb
    rw [List.mem_cons] at hb
    rcases hb with hb | hb
    · simp [hb]
    · simpa using (hpost b hb).le
  unfold ahead
  rw [List.filter_append, hkeep, hdrop, List.append_nil]

/-- **The first `n`.**  With distinct keys, a member is among the first `n` iff
fewer than `n` members come before it. -/
theorem mem_take_canonical {l : List α} (hkeys : (l.map key).Nodup) {n : Nat} {a : α} :
    a ∈ (canonical key l).take n ↔ a ∈ l ∧ ahead key l a < n := by
  have hahead : ahead key l a = ahead key (canonical key l) a := by
    unfold ahead
    exact (((canonical_perm key l).filter _).length_eq).symm
  have hsorted := canonical_strict key hkeys
  rw [hahead, ← mem_canonical key (l := l) (a := a)]
  constructor
  · intro ha
    have hmem : a ∈ canonical key l := List.mem_of_mem_take ha
    refine ⟨hmem, ?_⟩
    obtain ⟨pre, post, hsplit⟩ := List.append_of_mem hmem
    rw [hsplit] at ha hsorted ⊢
    rw [ahead_of_sorted hsorted]
    -- standing at position `n` or later, `a` would have to stand before itself too
    by_contra hge
    rw [List.take_append_of_le_length (by omega)] at ha
    rw [List.pairwise_append] at hsorted
    exact lt_irrefl _ (hsorted.2.2 a (List.mem_of_mem_take ha) a List.mem_cons_self)
  · intro hall
    obtain ⟨hmem, hlt⟩ := hall
    obtain ⟨pre, post, hsplit⟩ := List.append_of_mem hmem
    rw [hsplit] at hlt hsorted ⊢
    rw [ahead_of_sorted hsorted] at hlt
    rw [List.take_append, List.mem_append]
    apply Or.inr
    obtain ⟨k, hk⟩ : ∃ k, n - pre.length = k + 1 := ⟨n - pre.length - 1, by omega⟩
    rw [hk, List.take_succ_cons]
    exact List.mem_cons_self

/-- **Ranks in a strict order**: one more than the members that come before. -/
theorem mem_take_ranked_canonical {l : List α} (hkeys : (l.map key).Nodup) {n k : Nat} {a : α} :
    (a, k) ∈ (ranked (fun b c => key b ≤ key c) l).take n
      ↔ a ∈ l ∧ k = ahead key l a + 1 ∧ ahead key l a < n := by
  have hsorted : (canonical key l).Pairwise (fun b c => key b < key c) := canonical_strict key hkeys
  have hahead : ahead key l a = ahead key (canonical key l) a := by
    unfold ahead
    exact (((canonical_perm key l).filter _).length_eq).symm
  have hposition : ∀ i, (canonical key l)[i]? = some a → ahead key l a = i := by
    intro i hi
    obtain ⟨hlt, hget⟩ := List.getElem?_eq_some_iff.mp hi
    have hsplit : canonical key l
        = (canonical key l).take i ++ a :: (canonical key l).drop (i + 1) := by
      rw [← hget, List.getElem_cons_drop, List.take_append_drop]
    rw [hahead, hsplit]
    rw [hsplit] at hsorted
    rw [ahead_of_sorted hsorted, List.length_take]
    omega
  rw [mem_take_ranked]
  constructor
  · intro h
    obtain ⟨hpos, hle, hget⟩ := h
    have hrank := hposition (k - 1) hget
    have hmem : a ∈ canonical key l := List.mem_of_getElem? hget
    exact ⟨(mem_canonical key).mp hmem, by omega, by omega⟩
  · intro h
    obtain ⟨hmem, rfl, hlt⟩ := h
    obtain ⟨i, hi⟩ := List.getElem?_of_mem ((mem_canonical key).mpr hmem)
    rw [hposition i hi] at hlt ⊢
    exact ⟨by omega, by omega, hi⟩

/-! ## §3. Members that share a key. -/

/-- No two members in reach of the first `n` have one key. -/
def NoTies (key : α → κ) (n : Nat) (l : List α) : Prop :=
  ∀ a ∈ l, ∀ b ∈ l, a ≠ b → key a = key b → n ≤ ahead key l a

theorem NoTies.perm {n : Nat} {l l' : List α} (h : NoTies key n l) (hperm : l.Perm l') :
    NoTies key n l' := by
  intro a ha b hb hne hkey
  have hahead : ahead key l' a = ahead key l a := (hperm.symm.filter _).length_eq
  rw [hahead]
  exact h a (hperm.mem_iff.mpr ha) b (hperm.mem_iff.mpr hb) hne hkey

/-- **Without ties in reach the first `n` do not depend on the arrangement.**  Induction
on the two sorted lists: their heads have the least key, so they tie or are one. -/
theorem take_sorted_eq_of_perm {l l' : List α} (hperm : l.Perm l')
    (hsorted : l.Pairwise (fun a b => key a ≤ key b))
    (hsorted' : l'.Pairwise (fun a b => key a ≤ key b)) {n : Nat} (hties : NoTies key n l) :
    l.take n = l'.take n := by
  induction l generalizing l' n with
  | nil => rw [List.nil_perm.mp hperm]
  | cons a l ih =>
      cases l' with
      | nil => exact absurd hperm.symm (List.not_perm_nil_cons a l)
      | cons b l' =>
          cases n with
          | zero => rfl
          | succ n =>
              rw [List.pairwise_cons] at hsorted hsorted'
              by_cases hab : a = b
              · subst hab
                have hrest : NoTies key n l := by
                  intro x hx y hy hne hkey
                  have hreach := hties x (List.mem_cons_of_mem a hx) y (List.mem_cons_of_mem a hy)
                    hne hkey
                  unfold ahead at hreach ⊢
                  rw [List.filter_cons] at hreach
                  split at hreach
                  · rw [List.length_cons] at hreach
                    omega
                  · omega
                rw [List.take_succ_cons, List.take_succ_cons,
                  ih hperm.cons_inv hsorted.2 hsorted'.2 hrest]
              · -- each head stands in the other list's tail
                have hb : b ∈ l := by
                  have hmem : b ∈ a :: l := hperm.mem_iff.mpr List.mem_cons_self
                  exact (List.mem_cons.mp hmem).resolve_left (Ne.symm hab)
                have ha : a ∈ l' := by
                  have hmem : a ∈ b :: l' := hperm.mem_iff.mp List.mem_cons_self
                  exact (List.mem_cons.mp hmem).resolve_left hab
                have hkey : key a = key b := le_antisymm (hsorted.1 b hb) (hsorted'.1 a ha)
                have hreach := hties a List.mem_cons_self b (List.mem_cons_of_mem a hb) hab hkey
                have hnone : (a :: l).filter (fun c => key c < key a) = [] := by
                  apply List.filter_eq_nil_iff.mpr
                  intro c hc
                  rcases List.mem_cons.mp hc with rfl | hc
                  · simp
                  · simpa using hsorted.1 c hc
                unfold ahead at hreach
                rw [hnone, List.length_nil] at hreach
                omega

/-- **The member that is scanned first is ranked first** among those with its key. -/
theorem ranked_front {l : List α} {a : α} {n : Nat} (hreach : ahead key l a < n) :
    (a, ahead key l a + 1) ∈ (ranked (fun b c => key b ≤ key c) (a :: l)).take n := by
  have htrans : ∀ b c d : α, decide (key b ≤ key c) = true → decide (key c ≤ key d) = true →
      decide (key b ≤ key d) = true := by
    intro b c d hbc hcd
    rw [decide_eq_true_iff] at hbc hcd ⊢
    exact hbc.trans hcd
  have htotal : ∀ b c : α, (decide (key b ≤ key c) || decide (key c ≤ key b)) = true := by
    intro b c
    simpa using le_total (key b) (key c)
  obtain ⟨before, after, hsplit, hrest, hbefore⟩ := List.mergeSort_cons htrans htotal a l
  have hsorted := canonical_pairwise_le key (a :: l)
  unfold canonical at hsorted
  rw [hsplit, List.pairwise_append, List.pairwise_cons] at hsorted
  have hcount : ahead key l a = before.length := by
    have hperm : (before ++ after).Perm l := by
      rw [← hrest]
      exact List.mergeSort_perm l _
    have hkeep : before.filter (fun b => key b < key a) = before := by
      rw [List.filter_eq_self]
      intro b hb
      simpa using hbefore b hb
    have hdrop : after.filter (fun b => key b < key a) = [] := by
      rw [List.filter_eq_nil_iff]
      intro b hb
      simpa using hsorted.2.1.1 b hb
    unfold ahead
    rw [← (hperm.filter _).length_eq, List.filter_append, hkeep, hdrop, List.append_nil]
  rw [mem_take_ranked, hsplit]
  refine ⟨by omega, by omega, ?_⟩
  rw [Nat.add_sub_cancel, hcount, List.getElem?_append_right (Nat.le_refl _), Nat.sub_self]
  rfl

/-! ## §4. The first `n` of a sorted list. -/

/-- How many members come before a key or have it. -/
def upTo (key : α → κ) (l : List α) (k : κ) : Nat := (l.filter (fun b => key b ≤ k)).length

theorem upTo_perm {l l' : List α} (h : l.Perm l') (k : κ) : upTo key l k = upTo key l' k :=
  (h.filter _).length_eq

/-- A member with at most `n` up to its key is among the first `n`. -/
theorem mem_take_of_upTo {l : List α} (hsorted : l.Pairwise (fun a b => key a ≤ key b)) {n : Nat}
    {a : α} (ha : a ∈ l) {k : κ} (hkey : key a ≤ k) (hn : upTo key l k ≤ n) : a ∈ l.take n := by
  rw [← List.take_append_drop n l] at ha hsorted hn
  rw [List.pairwise_append] at hsorted
  rcases List.mem_append.mp ha with ha | hdrop
  · exact ha
  · -- the first `n` and this one would be up to its key
    have hkeep : (l.take n).filter (fun b => key b ≤ k) = l.take n := by
      rw [List.filter_eq_self]
      intro b hb
      exact decide_eq_true ((hsorted.2.2 b hb a hdrop).trans hkey)
    have hpos : 0 < ((l.drop n).filter (fun b => key b ≤ k)).length :=
      List.length_pos_of_mem (List.mem_filter.mpr ⟨hdrop, decide_eq_true hkey⟩)
    have hlength : 0 < (l.drop n).length := List.length_pos_of_mem hdrop
    unfold upTo at hn
    rw [List.filter_append, List.length_append, hkeep, List.length_take] at hn
    rw [List.length_drop] at hlength
    omega

/-- Where no later member is up to a key, at most `n` are. -/
theorem upTo_le_of_drop {l : List α} {n : Nat} {k : κ} (h : ∀ b ∈ l.drop n, k < key b) :
    upTo key l k ≤ n := by
  have hnone : (l.drop n).filter (fun b => key b ≤ k) = [] := by
    rw [List.filter_eq_nil_iff]
    intro b hb
    simpa using h b hb
  unfold upTo
  rw [← List.take_append_drop n l, List.filter_append, hnone, List.append_nil]
  exact (List.length_filter_le _ _).trans (List.length_take_le n l)

/-- **The first `n` all satisfy a property of the front** iff `n` members do. -/
theorem take_all_iff {l : List α} (hsorted : l.Pairwise (fun a b => key a ≤ key b))
    {p : α → Bool} (hfront : ∀ a b, key a ≤ key b → p b = true → p a = true) (n : Nat) :
    ((l.take n).length = n ∧ ∀ a ∈ l.take n, p a = true) ↔ n ≤ (l.filter p).length := by
  constructor
  · intro h
    obtain ⟨hlength, hall⟩ := h
    have hsub := (List.take_sublist n l).filter p
    rw [List.filter_eq_self.mpr hall] at hsub
    calc n = (l.take n).length := hlength.symm
      _ ≤ (l.filter p).length := hsub.length_le
  · intro hn
    have hlong : n ≤ l.length := hn.trans (List.length_filter_le p l)
    have hlength : (l.take n).length = n := by
      rw [List.length_take]
      omega
    refine ⟨hlength, ?_⟩
    intro a ha
    by_contra hfails
    -- from `a` on nobody satisfies it, and the ones before are too few
    rw [← List.take_append_drop n l, List.pairwise_append] at hsorted
    have hdrop : (l.drop n).filter p = [] := by
      rw [List.filter_eq_nil_iff]
      intro b hb hpb
      exact hfails (hfront a b (hsorted.2.2 a ha b hb) hpb)
    have hless : ((l.take n).filter p).length < (l.take n).length :=
      List.length_filter_lt_length_iff_exists.mpr ⟨a, ha, hfails⟩
    rw [← List.take_append_drop n l, List.filter_append, hdrop, List.append_nil] at hn
    omega

/-! ## §5. The first `n` of a scan. -/

/-- By key, and members of one key as they are scanned. -/
def scanKey (key : α → κ) (x : α × Nat) : κ ×ₗ Nat := toLex (key x.1, x.2)

/-- The members that have fewer than `n` before them. -/
def nearest (key : α → κ) (n : Nat) (l : List α) : List α :=
  (l.zipIdx.filter (fun x => ahead (scanKey key) l.zipIdx x < n)).map Prod.fst

omit [LinearOrder κ] in
theorem nodup_scanKeys (key : α → κ) (l : List α) : (l.zipIdx.map (scanKey key)).Nodup := by
  refine List.Nodup.of_map (fun k => (ofLex k).2) ?_
  rw [List.map_map]
  show (l.zipIdx.map Prod.snd).Nodup
  rw [List.zipIdx_map_snd]
  exact List.nodup_range'

/-- The sort keeps members of one key as they are scanned. -/
theorem canonical_zipIdx (key : α → κ) (l : List α) :
    (canonical (scanKey key) l.zipIdx).map Prod.fst = canonical key l := by
  have hle : (fun x y => decide (scanKey key x ≤ scanKey key y))
      = List.zipIdxLE fun a b => decide (key a ≤ key b) := by
    funext x y
    have hlex : scanKey key x ≤ scanKey key y
        ↔ key x.1 < key y.1 ∨ key x.1 = key y.1 ∧ x.2 ≤ y.2 := Prod.Lex.toLex_le_toLex
    rw [Bool.eq_iff_iff, decide_eq_true_iff, hlex]
    unfold List.zipIdxLE
    rcases lt_trichotomy (key x.1) (key y.1) with hlt | heq | hgt
    · simp [hlt, hlt.le, hlt.not_ge]
    · simp [heq]
    · simp [hgt.not_ge, hgt.not_gt, hgt.ne']
  unfold canonical
  rw [hle]
  exact List.mergeSort_zipIdx

/-- **The first `n` of a sort that keeps ties** are the members with fewer than `n` before
them, by key and then by scan. -/
theorem nearest_perm (key : α → κ) (n : Nat) (l : List α) :
    (nearest key n l).Perm ((canonical key l).take n) := by
  rw [← canonical_zipIdx, ← List.map_take]
  refine List.Perm.map Prod.fst ?_
  have hnodup : l.zipIdx.Nodup := (nodup_scanKeys key l).of_map
  refine (List.perm_ext_iff_of_nodup (hnodup.filter _) ?_).mpr ?_
  · exact ((canonical_perm _ _).nodup_iff.mpr hnodup).sublist (List.take_sublist _ _)
  · intro x
    rw [mem_take_canonical (nodup_scanKeys key l), List.mem_filter, decide_eq_true_iff]

theorem nearest_sublist (key : α → κ) (n : Nat) (l : List α) : (nearest key n l).Sublist l := by
  have hsub : (nearest key n l).Sublist (l.zipIdx.map Prod.fst) :=
    List.filter_sublist.map Prod.fst
  rw [List.zipIdx_map_fst] at hsub
  exact hsub

end RankFusion
