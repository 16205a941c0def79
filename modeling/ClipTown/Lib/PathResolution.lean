/-
  ClipTown.Lib.PathResolution — paths as segments, and what they resolve to.

  A path is split at a separator; empty segments and `.` are dropped, `..` pops
  the last segment, every other segment is pushed.  The alphabet and its two
  marks, the separator and the dot, are parameters.

    • `walk_of_no_parent` — without `..` a walk only appends, so it never
      leaves the place it starts from,
    • `infix_of_mem_segments` — every segment stands in the path,
    • `nil_mem_segments` — where an empty segment comes from: a separator at an
      end of the path, or two in a row.
    • `path_induction` — a path is one segment, or two paths at a separator,
    • `infix_segment` — a word without the separator stands in one segment,
    • `nil_mem_segments_iff` — when no segment is empty.
-/
import ClipTown.Lib.Separators

namespace PathResolution

open Separators

variable {α : Type*} [DecidableEq α]

/-! ## §1. Segments. -/

/-- The segments of a path. -/
def segments (sep : α) (path : List α) : List (List α) := path.splitOn sep

/-- Joined again they are the path. -/
theorem intercalate_segments (sep : α) (path : List α) :
    [sep].intercalate (segments sep path) = path :=
  List.intercalate_splitOn sep

omit [DecidableEq α] in
theorem infix_separated {sep : α} {parts : List (List α)} {part : List α} (h : part ∈ parts) :
    part <:+: separated sep parts := by
  have hmarked : sep :: part ∈ parts.map (fun p => sep :: p) := List.mem_map_of_mem h
  rw [separated, List.flatMap_def]
  exact (List.suffix_cons sep part).isInfix.trans (List.infix_of_mem_flatten hmarked)

/-- Every segment stands in the path. -/
theorem infix_of_mem_segments {sep : α} {path segment : List α}
    (h : segment ∈ segments sep path) : segment <:+: path := by
  rw [← intercalate_segments sep path]
  cases hparts : segments sep path with
  | nil =>
      rw [hparts] at h
      cases h
  | cons p parts =>
      rw [hparts] at h
      rw [intercalate_cons]
      rcases List.mem_cons.mp h with rfl | h
      · exact List.infix_append_left
      · exact List.infix_append_of_infix_right (infix_separated h)

/-- **Where an empty segment comes from.** -/
theorem nil_mem_segments {sep : α} {path : List α} (h : [] ∈ segments sep path) :
    path = [] ∨ [sep] <+: path ∨ [sep] <:+ path ∨ [sep, sep] <:+: path := by
  rw [← intercalate_segments sep path]
  cases hparts : segments sep path with
  | nil =>
      rw [hparts] at h
      cases h
  | cons p parts =>
      rw [hparts] at h
      rw [intercalate_cons]
      rcases List.mem_cons.mp h with hp | h
      · -- the first segment: the path is empty, or starts with the separator
        subst hp
        cases parts with
        | nil => exact Or.inl rfl
        | cons q rest => exact Or.inr (Or.inl ⟨q ++ separated sep rest, rfl⟩)
      · obtain ⟨before, after, rfl⟩ := List.append_of_mem h
        have hsplit : p ++ separated sep (before ++ [] :: after)
            = (p ++ separated sep before) ++ sep :: separated sep after := by
          simp [separated]
        rw [hsplit]
        cases after with
        | nil => exact Or.inr (Or.inr (Or.inl ⟨_, rfl⟩))
        | cons q rest =>
            refine Or.inr (Or.inr (Or.inr ⟨p ++ separated sep before, q ++ separated sep rest, ?_⟩))
            simp

/-! ## §2. Walks. -/

/-- One segment, from the place reached so far. -/
def step (dot : α) (place : List (List α)) (segment : List α) : List (List α) :=
  if segment = [] ∨ segment = [dot] then place
  else if segment = [dot, dot] then place.dropLast
  else place ++ [segment]

/-- All segments in turn. -/
def walk (dot : α) (place : List (List α)) (segs : List (List α)) : List (List α) :=
  segs.foldl (step dot) place

/-- The place a path leads to from `root`. -/
def resolve (sep dot : α) (root : List (List α)) (path : List α) : List (List α) :=
  walk dot root (segments sep path)

/-- No segment on the way leads out of `root`. -/
def StaysUnder (sep dot : α) (root : List (List α)) (path : List α) : Prop :=
  ∀ n, root <+: walk dot root ((segments sep path).take n)

/-- The segments that are pushed. -/
def pushed (dot : α) (segs : List (List α)) : List (List α) :=
  segs.filter (fun segment => ¬ (segment = [] ∨ segment = [dot]))

/-- **Without `..` a walk only appends.** -/
theorem walk_of_no_parent {dot : α} {segs : List (List α)} (h : [dot, dot] ∉ segs)
    (root : List (List α)) : walk dot root segs = root ++ pushed dot segs := by
  induction segs generalizing root with
  | nil => exact (List.append_nil root).symm
  | cons segment segs ih =>
      have hparent : segment ≠ [dot, dot] := fun heq => h (heq ▸ List.mem_cons_self)
      have hrest := ih (List.not_mem_of_not_mem_cons h)
      show walk dot (step dot root segment) segs = _
      rw [hrest]
      unfold step pushed
      by_cases hdropped : segment = [] ∨ segment = [dot]
      · rw [if_pos hdropped, List.filter_cons_of_neg]
        simpa only [decide_eq_true_eq, not_not] using hdropped
      · rw [if_neg hdropped, if_neg hparent, List.filter_cons_of_pos (by simpa using hdropped),
          List.append_assoc, List.singleton_append]

theorem resolve_of_no_parent {sep dot : α} {path : List α} (h : [dot, dot] ∉ segments sep path)
    (root : List (List α)) :
    resolve sep dot root path = root ++ pushed dot (segments sep path) :=
  walk_of_no_parent h root

theorem staysUnder_of_no_parent {sep dot : α} {path : List α}
    (h : [dot, dot] ∉ segments sep path) (root : List (List α)) :
    StaysUnder sep dot root path := by
  intro n
  have htake : [dot, dot] ∉ (segments sep path).take n := fun hmem => h (List.mem_of_mem_take hmem)
  rw [walk_of_no_parent htake]
  exact List.prefix_append root _

/-- Two such paths meet under some root iff they push the same segments; then they
meet under every root. -/
theorem resolve_eq_iff {sep dot : α} {path path' : List α}
    (h : [dot, dot] ∉ segments sep path) (h' : [dot, dot] ∉ segments sep path')
    (root : List (List α)) :
    resolve sep dot root path = resolve sep dot root path'
      ↔ pushed dot (segments sep path) = pushed dot (segments sep path') := by
  rw [resolve_of_no_parent h, resolve_of_no_parent h', List.append_cancel_left_eq]

/-! ## §3. Paths by their segments. -/

/-- A path is one segment, or two paths at a separator. -/
theorem path_induction {motive : List α → Prop} (sep : α)
    (single : ∀ path, sep ∉ path → motive path)
    (joined : ∀ a b, motive a → motive b → motive (a ++ sep :: b)) (path : List α) :
    motive path := by
  by_cases hsep : sep ∈ path
  · obtain ⟨a, b, hpath⟩ := List.append_of_mem hsep
    have hlength : path.length = a.length + (b.length + 1) := by
      rw [hpath, List.length_append, List.length_cons]
    rw [hpath]
    exact joined a b (path_induction sep single joined a) (path_induction sep single joined b)
  · exact single path hsep
termination_by path.length

theorem segments_single {sep : α} {path : List α} (h : sep ∉ path) :
    segments sep path = [path] :=
  List.splitOn_eq_singleton h

theorem segments_joined (sep : α) (a b : List α) :
    segments sep (a ++ sep :: b) = segments sep a ++ segments sep b :=
  List.splitOn_append_cons_self a b

/-- No segment has a separator. -/
theorem sep_not_mem_segment {sep : α} {path segment : List α}
    (h : segment ∈ segments sep path) : sep ∉ segment := by
  induction path using path_induction sep with
  | single path hsep =>
      rw [segments_single hsep, List.mem_singleton] at h
      rw [h]
      exact hsep
  | joined a b iha ihb =>
      rw [segments_joined, List.mem_append] at h
      rcases h with ha | hb
      · exact iha ha
      · exact ihb hb

/-- One segment more than separators. -/
theorem length_segments (sep : α) (path : List α) :
    (segments sep path).length = path.count sep + 1 := by
  induction path using path_induction sep with
  | single path hsep => rw [segments_single hsep, List.count_eq_zero_of_not_mem hsep]; rfl
  | joined a b iha ihb =>
      rw [segments_joined, List.length_append, iha, ihb, List.count_append, List.count_cons_self]
      omega

/-- What stands in a path is a separator or stands in a segment. -/
theorem mem_segment_of_mem (sep : α) {x : α} {path : List α} (h : x ∈ path) :
    x = sep ∨ ∃ segment ∈ segments sep path, x ∈ segment := by
  induction path using path_induction sep with
  | single path hsep => exact Or.inr ⟨path, by rw [segments_single hsep]; simp, h⟩
  | joined a b iha ihb =>
      rw [segments_joined]
      rcases List.mem_append.mp h with ha | hb
      · refine (iha ha).imp_right fun hin => ?_
        obtain ⟨segment, hmem, hx⟩ := hin
        exact ⟨segment, List.mem_append_left _ hmem, hx⟩
      · rcases List.mem_cons.mp hb with hx | hb
        · exact Or.inl hx
        · refine (ihb hb).imp_right fun hin => ?_
          obtain ⟨segment, hmem, hx⟩ := hin
          exact ⟨segment, List.mem_append_right _ hmem, hx⟩

omit [DecidableEq α] in
/-- A word without the separator that begins there is empty. -/
theorem prefix_at_sep {sep : α} {word rest : List α} (hword : sep ∉ word)
    (h : word <+: sep :: rest) : word = [] := by
  cases word with
  | nil => rfl
  | cons x word =>
      obtain ⟨tail, htail⟩ := h
      exact absurd ((List.cons.inj htail).1 ▸ List.mem_cons_self) hword

/-- **Words stand in segments.**  A word without the separator that stands in the path
stands in one segment. -/
theorem infix_segment {sep : α} {word path : List α} (hword : sep ∉ word)
    (h : word <:+: path) : ∃ segment ∈ segments sep path, word <:+: segment := by
  induction path using path_induction sep with
  | single path hsep => exact ⟨path, by rw [segments_single hsep]; simp, h⟩
  | joined a b iha ihb =>
      rw [segments_joined]
      have hleft : word <:+: a → ∃ segment ∈ segments sep a ++ segments sep b,
          word <:+: segment := by
        intro ha
        obtain ⟨segment, hmem, hin⟩ := iha ha
        exact ⟨segment, List.mem_append_left _ hmem, hin⟩
      rcases List.infix_append_iff.mp h with ha | hb | ⟨front, back, rfl, hfront, hback⟩
      · exact hleft ha
      · rcases List.infix_cons_iff.mp hb with hempty | hb
        · rw [prefix_at_sep hword hempty] at hleft
          rw [prefix_at_sep hword hempty]
          exact hleft (List.nil_infix)
        · obtain ⟨segment, hmem, hin⟩ := ihb hb
          exact ⟨segment, List.mem_append_right _ hmem, hin⟩
      · -- a word across the separator ends before it
        have hback' : sep ∉ back := fun hmem => hword (List.mem_append_right _ hmem)
        rw [prefix_at_sep hback' hback, List.append_nil] at hleft ⊢
        exact hleft hfront.isInfix

/-- **Where no segment is empty.** -/
theorem nil_mem_segments_iff {sep : α} {path : List α} :
    [] ∈ segments sep path ↔
      path = [] ∨ [sep] <+: path ∨ [sep] <:+ path ∨ [sep, sep] <:+: path := by
  refine ⟨nil_mem_segments, ?_⟩
  rintro (rfl | ⟨rest, rfl⟩ | ⟨rest, rfl⟩ | ⟨front, rest, rfl⟩)
  · rw [segments_single List.not_mem_nil]
    exact List.mem_cons_self
  · rw [show [sep] ++ rest = [] ++ sep :: rest from rfl, segments_joined,
      segments_single List.not_mem_nil]
    exact List.mem_cons_self
  · rw [segments_joined, segments_single (List.not_mem_nil (a := sep))]
    exact List.mem_append_right _ List.mem_cons_self
  · rw [show front ++ [sep, sep] ++ rest = front ++ sep :: ([] ++ sep :: rest) by simp,
      segments_joined, segments_joined, segments_single (List.not_mem_nil (a := sep))]
    exact List.mem_append_right _ List.mem_cons_self

end PathResolution
