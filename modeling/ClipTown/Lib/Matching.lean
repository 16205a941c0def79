/-
  ClipTown.Lib.Matching — two programs, run beside each other.

  Two programs may call different environments.  A WATCH says what an observer
  sees of an event on either side, and which events of the first program are
  flagged.  The first program MATCHES the second where every run of it has a run
  of the second beside it that looks the same and ends in a related result; the
  relation may be weaker once something was flagged.

    • `matches_bind` — matching programs compose,
    • `matches_call`, `matches_callRight` — a call on both sides, or one of the
      second program that is not seen.

  Nothing here mentions any particular calls.
-/
import ClipTown.Lib.Interaction

namespace Interaction

universe u v w

variable {C : Type u} {R : C → Type v} {C' : Type u} {R' : C' → Type v} {α β α' β' : Type w}
  {ο : Type*}

/-! ## §1. Watched runs. -/

/-- What is seen of the events of the two sides, and what is flagged. -/
structure Watch (C : Type u) (R : C → Type v) (C' : Type u) (R' : C' → Type v) (ο : Type*) where
  left : Event C R → Option ο
  right : Event C' R' → Option ο
  flagged : Event C R → Prop

/-- Every run of `p` has one of `q` beside it. -/
def Watch.Matches (W : Watch C R C' R' ο) (post : Prop → α → α' → Prop) (p : Prog C R α)
    (q : Prog C' R' α') : Prop :=
  ∀ tr a, Runs p tr a → ∃ tr' a', Runs q tr' a' ∧
    tr.filterMap W.left = tr'.filterMap W.right ∧ post (∃ e ∈ tr, W.flagged e) a a'

variable {W : Watch C R C' R' ο} {post post₁ : Prop → α → α' → Prop}

/-! ## §2. The rules. -/

theorem matches_mono {p : Prog C R α} {q : Prog C' R' α'} (h : W.Matches post₁ p q)
    (hpost : ∀ flag a a', post₁ flag a a' → post flag a a') : W.Matches post p q := by
  intro tr a hrun
  obtain ⟨tr', a', hrun', hseen, hrel⟩ := h tr a hrun
  exact ⟨tr', a', hrun', hseen, hpost _ _ _ hrel⟩

theorem matches_ret {a : α} {a' : α'} (h : post False a a') :
    W.Matches post (.ret a) (.ret a') := by
  intro tr b hrun
  obtain ⟨rfl, rfl⟩ := runs_ret_iff.mp hrun
  refine ⟨[], a', .ret a', rfl, ?_⟩
  have hflag : (∃ e ∈ ([] : List (Event C R)), W.flagged e) = False := by
    simp
  rw [hflag]
  exact h

theorem flagged_cons (W : Watch C R C' R' ο) (e : Event C R) (tr : List (Event C R)) :
    (∃ e' ∈ e :: tr, W.flagged e') = (W.flagged e ∨ ∃ e' ∈ tr, W.flagged e') := by
  simp

theorem flagged_append (W : Watch C R C' R' ο) (first rest : List (Event C R)) :
    (∃ e ∈ first ++ rest, W.flagged e)
      = ((∃ e ∈ first, W.flagged e) ∨ ∃ e ∈ rest, W.flagged e) := by
  simp [or_and_right, exists_or]

/-- Both sides make a call; the answers may depend on each other. -/
theorem matches_call {c : C} {next : R c → Prog C R α} {c' : C'} {next' : R' c' → Prog C' R' α'}
    (h : ∀ r, ∃ r', W.left ⟨c, r⟩ = W.right ⟨c', r'⟩ ∧
      W.Matches (fun flag => post (W.flagged ⟨c, r⟩ ∨ flag)) (next r) (next' r')) :
    W.Matches post (.call c next) (.call c' next') := by
  intro tr a hrun
  obtain ⟨r, rest, rfl, hrest⟩ := runs_call_iff.mp hrun
  obtain ⟨r', hsame, hmatches⟩ := h r
  obtain ⟨rest', a', hrest', hseen, hrel⟩ := hmatches rest a hrest
  refine ⟨⟨c', r'⟩ :: rest', a', .call r' hrest', ?_, ?_⟩
  · rw [List.filterMap_cons, List.filterMap_cons, hsame, hseen]
  · rw [flagged_cons]
    exact hrel

/-- The second side makes a call that is not seen. -/
theorem matches_callRight {p : Prog C R α} {c' : C'} {next' : R' c' → Prog C' R' α'}
    (r' : R' c') (hnone : W.right ⟨c', r'⟩ = none) (h : W.Matches post p (next' r')) :
    W.Matches post p (.call c' next') := by
  intro tr a hrun
  obtain ⟨tr', a', hrun', hseen, hrel⟩ := h tr a hrun
  exact ⟨⟨c', r'⟩ :: tr', a', .call r' hrun', by rw [List.filterMap_cons_none hnone, hseen], hrel⟩

theorem Prog.bind_assoc {γ : Type w} (p : Prog C R α) (f : α → Prog C R β) (g : β → Prog C R γ) :
    (p.bind f).bind g = p.bind fun a => (f a).bind g := by
  induction p with
  | ret a => rfl
  | call c next ih =>
      rw [Prog.call_bind, Prog.call_bind, Prog.call_bind]
      congr 1
      funext r
      exact ih r

theorem Prog.andThen_bind {ε : Type w} {γ : Type w} (p : Prog C R (Except ε α))
    (f : α → Prog C R (Except ε β)) (g : Except ε β → Prog C R γ) :
    (p.andThen f).bind g = p.bind fun
      | .ok a => (f a).bind g
      | .error e => g (.error e) := by
  unfold Prog.andThen
  rw [Prog.bind_assoc]
  congr 1
  funext outcome
  cases outcome <;> rfl

/-- **Matching programs compose.** -/
theorem matches_bind {p : Prog C R α} {q : Prog C' R' α'} {f : α → Prog C R β}
    {g : α' → Prog C' R' β'} {post' : Prop → β → β' → Prop} (h : W.Matches post p q)
    (hnext : ∀ flag a a', post flag a a' →
      W.Matches (fun flag' => post' (flag ∨ flag')) (f a) (g a')) :
    W.Matches post' (p.bind f) (q.bind g) := by
  intro tr b hrun
  obtain ⟨first, a, rest, rfl, hfirst, hrest⟩ := runs_bind_iff.mp hrun
  obtain ⟨first', a', hfirst', hseen, hrel⟩ := h first a hfirst
  obtain ⟨rest', b', hrest', hseen', hrel'⟩ := hnext _ a a' hrel rest b hrest
  refine ⟨first' ++ rest', b', runs_bind_iff.mpr ⟨first', a', rest', rfl, hfirst', hrest'⟩, ?_, ?_⟩
  · rw [List.filterMap_append, List.filterMap_append, hseen, hseen']
  · rw [flagged_append]
    exact hrel'

theorem Prog.bind_ret (p : Prog C R α) : p.bind .ret = p := by
  induction p with
  | ret a => rfl
  | call c next ih =>
      rw [Prog.call_bind]
      congr 1
      funext r
      exact ih r

/-- The second program goes on where the first one has ended. -/
theorem matches_bindRight {p : Prog C R α} {q : Prog C' R' α'} {g : α' → Prog C' R' β'}
    {post' : Prop → α → β' → Prop} (h : W.Matches post p q)
    (hnext : ∀ flag a a', post flag a a' →
      W.Matches (fun flag' => post' (flag ∨ flag')) (.ret a) (g a')) :
    W.Matches post' p (q.bind g) := by
  rw [← Prog.bind_ret p]
  exact matches_bind h hnext

end Interaction
