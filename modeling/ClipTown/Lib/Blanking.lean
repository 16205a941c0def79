/-
  ClipTown.Lib.Blanking — replacing spans of a text by fillers.

  A text is read from left to right; some spans of it are taken out, and a
  filler is written for each.  Some members of the text are to stay (`p`), and
  the fillers have none of these.

    • `Blanks.keeps_run` — a run of members to stay that meets no span is there
      as it was,
    • `Blanks.filter_perm` — every member to stay is left or in one span,
    • `Blanks.not_mem_of_span` — one that is in a span is gone.
-/
import Mathlib.Data.List.Perm.Basic
import Mathlib.Data.List.Infix

namespace Blanking

variable {α : Type*}

/-- `text` with the spans taken out one after the other, and a filler for each, is `out`. -/
inductive Blanks (p : α → Bool) : List α → List α → List (List α) → Prop where
  | nil : Blanks p [] [] []
  | keep (x : α) {text out : List α} {spans : List (List α)} :
      Blanks p text out spans → Blanks p (x :: text) (x :: out) spans
  | span {span fill : List α} {text out : List α} {spans : List (List α)} :
      span ≠ [] → (∀ x ∈ fill, p x = false) → Blanks p text out spans →
      Blanks p (span ++ text) (fill ++ out) (span :: spans)

namespace Blanks

variable {p : α → Bool} {text out : List α} {spans : List (List α)}

/-- A run of members to stay does not start in a span that has none. -/
theorem eq_nil_of_start {run span text : List α} (hspan : span ≠ [])
    (hfree : ∀ x ∈ span, p x = false) (hrun : ∀ x ∈ run, p x = true)
    (h : run <+: span ++ text) : run = [] := by
  cases run with
  | nil => rfl
  | cons x run =>
      obtain ⟨y, span', rfl⟩ := List.exists_cons_of_ne_nil hspan
      rw [List.cons_append] at h
      have hxy := (List.cons_prefix_cons.mp h).1
      have hx := hrun x List.mem_cons_self
      rw [hxy, hfree y List.mem_cons_self] at hx
      cases hx

theorem keeps_start (h : Blanks p text out spans) (hfree : ∀ span ∈ spans, ∀ x ∈ span, p x = false)
    {run : List α} (hrun : ∀ x ∈ run, p x = true) (hbegins : run <+: text) : run <+: out := by
  induction h generalizing run with
  | nil => exact hbegins
  | keep x _ ih =>
      cases run with
      | nil => exact List.nil_prefix
      | cons y run =>
          obtain ⟨rfl, hrest⟩ := List.cons_prefix_cons.mp hbegins
          exact List.cons_prefix_cons.mpr
            ⟨rfl, ih hfree (fun z hz => hrun z (List.mem_cons_of_mem y hz)) hrest⟩
  | span hspan _ _ _ =>
      rw [eq_nil_of_start hspan (hfree _ List.mem_cons_self) hrun hbegins]
      exact List.nil_prefix

/-- A run of members to stay lies in front of a span that has none, or behind it. -/
theorem run_of_append {run span text : List α} (hne : run ≠ [])
    (hfree : ∀ x ∈ span, p x = false) (hrun : ∀ x ∈ run, p x = true)
    (h : run <:+: span ++ text) : run <:+: text := by
  induction span with
  | nil => exact h
  | cons y span ih =>
      rw [List.cons_append, List.infix_cons_iff] at h
      rcases h with hstart | hlater
      · have hnil := eq_nil_of_start (List.cons_ne_nil y []) (fun x hx => hfree x
          (List.mem_cons.mpr (.inl (List.mem_singleton.mp hx)))) hrun hstart
        exact absurd hnil hne
      · exact ih (fun x hx => hfree x (List.mem_cons_of_mem y hx)) hlater

/-- **A run of members to stay is there as it was**, where no span has one of them. -/
theorem keeps_run (h : Blanks p text out spans) (hfree : ∀ span ∈ spans, ∀ x ∈ span, p x = false)
    {run : List α} (hrun : ∀ x ∈ run, p x = true) (hwithin : run <:+: text) : run <:+: out := by
  by_cases hne : run = []
  · rw [hne]
    exact List.nil_infix
  induction h with
  | nil => exact hwithin
  | keep x htail ih =>
      rcases List.infix_cons_iff.mp hwithin with hstart | hlater
      · exact ((Blanks.keep x htail).keeps_start hfree hrun hstart).isInfix
      · exact List.infix_cons (ih hfree hlater)
  | span _ _ _ ih =>
      have hlater := run_of_append hne (hfree _ List.mem_cons_self) hrun hwithin
      have hout := ih (fun span hspan => hfree span (List.mem_cons_of_mem _ hspan)) hlater
      exact hout.trans (List.suffix_append _ _).isInfix

/-- Every member to stay is left, or in one span. -/
theorem filter_perm (h : Blanks p text out spans) :
    (text.filter p).Perm (out.filter p ++ spans.flatten.filter p) := by
  induction h with
  | nil => exact .refl _
  | keep x _ ih =>
      rw [List.filter_cons, List.filter_cons]
      split
      · exact ih.cons x
      · exact ih
  | @span span fill text out spans _ hfill _ ih =>
      have hnone : fill.filter p = [] := by
        rw [List.filter_eq_nil_iff]
        intro x hx
        rw [hfill x hx]
        exact Bool.false_ne_true
      rw [List.filter_append, List.filter_append, hnone, List.nil_append, List.flatten_cons,
        List.filter_append]
      exact (ih.append_left (span.filter p)).trans (List.perm_append_comm_assoc _ _ _)

theorem mem_of_mem_out (h : Blanks p text out spans) {x : α} (hx : x ∈ out) (hp : p x = true) :
    x ∈ text := by
  have hout : x ∈ out.filter p := List.mem_filter.mpr ⟨hx, hp⟩
  exact (List.mem_filter.mp (h.filter_perm.mem_iff.mpr (List.mem_append_left _ hout))).1

theorem mem_of_mem_span (h : Blanks p text out spans) {span : List α} (hspan : span ∈ spans)
    {x : α} (hx : x ∈ span) (hp : p x = true) : x ∈ text := by
  have hflat : x ∈ spans.flatten.filter p :=
    List.mem_filter.mpr ⟨List.mem_flatten_of_mem hspan hx, hp⟩
  exact (List.mem_filter.mp (h.filter_perm.mem_iff.mpr (List.mem_append_right _ hflat))).1

/-- **A member to stay that is in a span is gone**, where the text has no member twice. -/
theorem not_mem_of_span (h : Blanks p text out spans) (hnodup : (text.filter p).Nodup)
    {span : List α} (hspan : span ∈ spans) {x : α} (hx : x ∈ span) (hp : p x = true) :
    x ∉ out := by
  intro hout
  have hboth := h.filter_perm.nodup_iff.mp hnodup
  have hflat : x ∈ spans.flatten.filter p :=
    List.mem_filter.mpr ⟨List.mem_flatten_of_mem hspan hx, hp⟩
  exact (List.nodup_append.mp hboth).2.2 x (List.mem_filter.mpr ⟨hout, hp⟩) x hflat rfl

theorem nodup_out (h : Blanks p text out spans) (hnodup : (text.filter p).Nodup) :
    (out.filter p).Nodup :=
  (List.nodup_append.mp (h.filter_perm.nodup_iff.mp hnodup)).1

end Blanks

end Blanking
