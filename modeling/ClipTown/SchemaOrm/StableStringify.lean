/-
  ClipTown.SchemaOrm.StableStringify — the canonical text of a JSON value
  (`stableStringify`), whose hash is the fingerprint of a schema.

  The keys of every object are sorted and the object is built anew; what the
  runtime then lists is its own order of the sorted members, array indices first.
  That order depends on the members only, so two values have one text exactly when
  they differ in the order of members alone.  Only a number past all doubles, which
  is read as an infinity, is written as `null`.

    • `stableStringify_identifies` — the text of a value whose numbers are finite,
    • `overflow_is_null` — an infinity and `null` have one text.
-/
import Mathlib.Data.List.Perm.Basic
import ClipTown.Lib.Checks
import ClipTown.Lib.DoubleText
import ClipTown.Lib.JsonPrint

namespace StableStringify

open DoubleText JsonText

variable {ν : Type}

/-! ## §1. The canonical text. -/

mutual

/-- `sort`: objects with their keys sorted by code units, at every depth. -/
def sort : Json ν → Json ν
  | .arr items => .arr (sortItems items)
  | .obj members => .obj (fromEntries (CanonicalOrder.canonical Prod.fst (sortMembers members)))
  | value => value

def sortItems : List (Json ν) → List (Json ν)
  | [] => []
  | a :: items => sort a :: sortItems items

def sortMembers : List (Text × Json ν) → List (Text × Json ν)
  | [] => []
  | (key, a) :: members => (key, sort a) :: sortMembers members

end

def stableStringify (value : Json Number) : Text :=
  stringify jsNumerals (sort value) ++ [unit '\n']

/-- A member with its value sorted. -/
def sortMember (m : Text × Json ν) : Text × Json ν := (m.1, sort m.2)

theorem sortItems_eq (items : List (Json ν)) : sortItems items = items.map sort := by
  induction items with
  | nil => rfl
  | cons a items ih => rw [sortItems, ih, List.map_cons]

theorem sortMembers_eq (members : List (Text × Json ν)) :
    sortMembers members = members.map sortMember := by
  induction members with
  | nil => rfl
  | cons m members ih => rw [sortMembers, ih, List.map_cons, sortMember]

/-! ## §2. Values up to the order of members. -/

/-- The keys of every object are distinct, and the numbers are in `P`. -/
inductive Distinct (P : ν → Prop) : Json ν → Prop
  | null : Distinct P .null
  | bool (b : Bool) : Distinct P (.bool b)
  | num {n : ν} (h : P n) : Distinct P (.num n)
  | str (s : Text) : Distinct P (.str s)
  | arr {items : List (Json ν)} (hitems : ∀ a ∈ items, Distinct P a) : Distinct P (.arr items)
  | obj {members : List (Text × Json ν)} (hkeys : (members.map Prod.fst).Nodup)
      (hmembers : ∀ m ∈ members, Distinct P m.2) : Distinct P (.obj members)

/-- A JSON value with numbers in `P`. -/
structure JsonValue (P : ν → Prop) where
  json : Json ν
  distinct : Distinct P json

theorem Distinct.mono {P Q : ν → Prop} (hPQ : ∀ n, P n → Q n) {a : Json ν} (h : Distinct P a) :
    Distinct Q a := by
  induction h with
  | null => exact .null
  | bool b => exact .bool b
  | num hn => exact .num (hPQ _ hn)
  | str s => exact .str s
  | arr _ ih => exact .arr ih
  | obj hkeys _ ih => exact .obj hkeys ih

/-- Two values that are equal up to the order of object members, at every depth. -/
inductive Same : Json ν → Json ν → Prop
  | null : Same .null .null
  | bool (b : Bool) : Same (.bool b) (.bool b)
  | num (n : ν) : Same (.num n) (.num n)
  | str (s : Text) : Same (.str s) (.str s)
  | arr {items items' : List (Json ν)} (h : List.Forall₂ Same items items') :
      Same (.arr items) (.arr items')
  | obj {members arranged members' : List (Text × Json ν)} (hperm : members.Perm arranged)
      (hkeys : arranged.map Prod.fst = members'.map Prod.fst)
      (hvalues : List.Forall₂ Same (arranged.map Prod.snd) (members'.map Prod.snd)) :
      Same (.obj members) (.obj members')

theorem same_arr_iff {items items' : List (Json ν)} :
    Same (.arr items) (.arr items') ↔ List.Forall₂ Same items items' := by
  refine ⟨fun h => ?_, .arr⟩
  cases h with
  | arr h => exact h

theorem same_obj_iff {members members' : List (Text × Json ν)} :
    Same (.obj members) (.obj members') ↔ ∃ arranged : List (Text × Json ν),
      members.Perm arranged ∧ arranged.map Prod.fst = members'.map Prod.fst
        ∧ List.Forall₂ Same (arranged.map Prod.snd) (members'.map Prod.snd) := by
  constructor
  · intro h
    cases h with
    | obj hperm hkeys hvalues => exact ⟨_, hperm, hkeys, hvalues⟩
  · intro h
    obtain ⟨_, hperm, hkeys, hvalues⟩ := h
    exact .obj hperm hkeys hvalues

/-! ## §3. What sorting keeps. -/

theorem keys_sortMembers (members : List (Text × Json ν)) :
    (sortMembers members).map Prod.fst = members.map Prod.fst := by
  rw [sortMembers_eq, List.map_map]
  rfl

theorem keys_canonical_nodup {members : List (Text × Json ν)}
    (hkeys : (members.map Prod.fst).Nodup) :
    ((CanonicalOrder.canonical Prod.fst (sortMembers members)).map Prod.fst).Nodup := by
  have hperm := (CanonicalOrder.canonical_perm Prod.fst (sortMembers members)).map Prod.fst
  rw [hperm.nodup_iff, keys_sortMembers]
  exact hkeys

/-- The members that `sort` leaves are the sorted ones, in another order. -/
theorem sorted_perm {members : List (Text × Json ν)} (hkeys : (members.map Prod.fst).Nodup) :
    (fromEntries (CanonicalOrder.canonical Prod.fst (sortMembers members))).Perm
      (members.map sortMember) := by
  rw [fromEntries_eq (keys_canonical_nodup hkeys), ← sortMembers_eq]
  exact (ownOrder_perm _).trans (CanonicalOrder.canonical_perm Prod.fst (sortMembers members))

/-- Sorted objects are equal exactly when they have the same members. -/
theorem sort_obj_eq_iff {members members' : List (Text × Json ν)}
    (hkeys : (members.map Prod.fst).Nodup) (hkeys' : (members'.map Prod.fst).Nodup) :
    sort (.obj members) = sort (.obj members')
      ↔ (members.map sortMember).Perm (members'.map sortMember) := by
  rw [sort, sort, Json.obj.injEq]
  constructor
  · intro h
    exact (sorted_perm hkeys).symm.trans (h ▸ sorted_perm hkeys')
  · intro h
    rw [← sortMembers_eq, ← sortMembers_eq] at h
    have hnodup : ((sortMembers members).map Prod.fst).Nodup := by
      rw [keys_sortMembers]
      exact hkeys
    rw [CanonicalOrder.canonical_eq_of_perm Prod.fst hnodup h]

/-- A list is a rearrangement of the images of another one when some rearrangement of
the latter is mapped to it. -/
theorem map_perm_map_iff_exists {α β : Type} (f : α → β) (as : List α) (bs : List α) :
    (as.map f).Perm (bs.map f) ↔ ∃ arranged : List α, as.Perm arranged
      ∧ arranged.map f = bs.map f := by
  have h := congrFun (congrFun (List.eq_map_comp_perm f) (bs.map f)) as
  rw [List.perm_comm, ← eq_iff_iff.mp h]
  constructor
  · rintro ⟨arranged, heq, hperm⟩
    exact ⟨arranged, hperm.symm, heq.symm⟩
  · rintro ⟨arranged, hperm, heq⟩
    exact ⟨arranged, heq.symm, hperm.symm⟩

theorem map_sortMember_eq_iff (members members' : List (Text × Json ν)) :
    members.map sortMember = members'.map sortMember
      ↔ members.map Prod.fst = members'.map Prod.fst
        ∧ (members.map Prod.snd).map sort = (members'.map Prod.snd).map sort := by
  induction members generalizing members' with
  | nil => cases members' <;> simp
  | cons m members ih =>
      cases members' with
      | nil => simp
      | cons n members' =>
          simp only [List.map_cons, List.cons.injEq, ih, sortMember, Prod.mk.injEq]
          tauto

/-! ## §4. One text for the values that are the same. -/

/-- A value that sorting leaves alone, and no other value becomes, is the same as itself
only. -/
theorem same_iff_of_leaf {a b : Json ν} (hsort : sort a = a) (hself : Same a a)
    (honly : Same a b → b = a) (hback : sort b = a → b = a) :
    Same a b ↔ sort a = sort b := by
  rw [hsort]
  constructor
  · intro h
    rw [honly h, hsort]
  · intro h
    rw [hback h.symm]
    exact hself

/-- **Sorting removes exactly the order of members.**  Induction on the value: the
items one by one, the members up to a rearrangement. -/
theorem same_iff_sort {P : ν → Prop} (a : Json ν) :
    ∀ b, Distinct P a → Distinct P b → (Same a b ↔ sort a = sort b) := by
  induction a using Json.ind with
  | null =>
      intro b _ _
      refine same_iff_of_leaf rfl .null ?_ ?_
      · intro h
        cases h
        rfl
      · intro h
        cases b <;> cases h
        rfl
  | bool x =>
      intro b _ _
      refine same_iff_of_leaf rfl (.bool x) ?_ ?_
      · intro h
        cases h
        rfl
      · intro h
        cases b <;> cases h
        rfl
  | num n =>
      intro b _ _
      refine same_iff_of_leaf rfl (.num n) ?_ ?_
      · intro h
        cases h
        rfl
      · intro h
        cases b <;> cases h
        rfl
  | str s =>
      intro b _ _
      refine same_iff_of_leaf rfl (.str s) ?_ ?_
      · intro h
        cases h
        rfl
      · intro h
        cases b <;> cases h
        rfl
  | arr items ih =>
      intro b ha hb
      cases b with
      | arr items' =>
          cases ha with | arr hitems =>
          cases hb with | arr hitems' =>
          rw [same_arr_iff, sort, sort, Json.arr.injEq, sortItems_eq, sortItems_eq]
          exact Checks.forall₂_iff_map_eq fun a ha b hb => ih a ha b (hitems a ha) (hitems' b hb)
      | _ => exact iff_of_false (by intro h; cases h) (by intro h; cases h)
  | obj members ih =>
      intro b ha hb
      cases b with
      | obj members' =>
          cases ha with | obj hkeys hmembers =>
          cases hb with | obj hkeys' hmembers' =>
          -- sorted objects are equal iff the members are, in some arrangement of the first
          rw [same_obj_iff, sort_obj_eq_iff hkeys hkeys', map_perm_map_iff_exists]
          refine exists_congr fun arranged => and_congr_right fun hperm => ?_
          rw [map_sortMember_eq_iff]
          refine and_congr_right fun _ => Checks.forall₂_iff_map_eq ?_
          intro v hv w hw
          obtain ⟨m, hm, rfl⟩ := List.mem_map.mp hv
          obtain ⟨n, hn, rfl⟩ := List.mem_map.mp hw
          have hm' : m ∈ members := hperm.mem_iff.mpr hm
          exact ih m hm' n.2 (hmembers m hm') (hmembers' n hn)
      | _ => exact iff_of_false (by intro h; cases h) (by intro h; cases h)

/-- What `sort` leaves is a value as the runtime has it. -/
theorem sort_settled {P : ν → Prop} {a : Json ν} (h : Distinct P a) : (sort a).Settled P := by
  induction h with
  | null => exact .null
  | bool x => exact .bool x
  | num hn => exact .num hn
  | str s => exact .str s
  | @arr items _ ih =>
      rw [sort, sortItems_eq]
      refine .arr fun b hb => ?_
      obtain ⟨a, ha, rfl⟩ := List.mem_map.mp hb
      exact ih a ha
  | @obj members hkeys _ ih =>
      have hperm := sorted_perm hkeys
      have hnodup := keys_canonical_nodup hkeys
      rw [sort]
      refine .obj ?_ ?_ ?_
      · rw [(hperm.map Prod.fst).nodup_iff, List.map_map]
        exact hkeys
      · rw [fromEntries_eq hnodup, ownOrder_idem]
      · intro m hm
        obtain ⟨n, hn, rfl⟩ := List.mem_map.mp (hperm.mem_iff.mp hm)
        exact ih n hn

theorem distinct_of_settled {P : ν → Prop} {a : Json ν} (h : a.Settled P) : Distinct P a := by
  induction h with
  | null => exact .null
  | bool x => exact .bool x
  | num hn => exact .num hn
  | str s => exact .str s
  | arr _ ih => exact .arr ih
  | obj hkeys _ _ ih => exact .obj hkeys ih

/-- A value is the same as what `sort` makes of it. -/
theorem same_sort {P : ν → Prop} {a : Json ν} (h : Distinct P a) : Same a (sort a) := by
  induction h with
  | null => exact .null
  | bool x => exact .bool x
  | num _ => exact .num _
  | str s => exact .str s
  | @arr items _ ih =>
      rw [sort, sortItems_eq, same_arr_iff, List.forall₂_map_right_iff, List.forall₂_same]
      exact ih
  | @obj members hkeys _ ih =>
      -- the members rearranged as `sort` leaves them
      obtain ⟨arranged, hperm, hmap⟩ : ∃ arranged : List (Text × Json ν), members.Perm arranged ∧
          fromEntries (CanonicalOrder.canonical Prod.fst (sortMembers members))
            = arranged.map sortMember := by
        have h := congrFun (congrFun (List.eq_map_comp_perm sortMember)
          (fromEntries (CanonicalOrder.canonical Prod.fst (sortMembers members)))) members
        obtain ⟨arranged, heq, hperm⟩ := (eq_iff_iff.mp h).mpr (sorted_perm hkeys)
        exact ⟨arranged, hperm.symm, heq⟩
      rw [sort, hmap]
      refine .obj hperm ?_ ?_
      · rw [List.map_map]
        rfl
      · rw [List.map_map, List.forall₂_map_left_iff, List.forall₂_map_right_iff, List.forall₂_same]
        exact fun m hm => ih m (hperm.mem_iff.mpr hm)

/-- The canonical text reads back as the sorted value. -/
theorem parse_stableStringify {a : Json Number} (h : Distinct jsNumerals.ReadsBack a) :
    parse jsNumerals (stableStringify a) = some (sort a) := by
  apply parse_stringify (sort_settled h)
  intro u hu
  rw [List.mem_singleton.mp hu]
  decide

/-- The number is finite. -/
def IsFinite : Number → Prop
  | .finite _ => True
  | .infinity | .negInfinity => False

theorem readsBack_of_isFinite (n : Number) (h : IsFinite n) : jsNumerals.ReadsBack n := by
  cases n with
  | finite x => exact readsBack_finite x
  | infinity => cases h
  | negInfinity => cases h

/-- **The text identifies a value up to the order of its members**, where its numbers are
finite: two values have one text exactly when they are the same, and the text reads back as
a value that is the same. -/
theorem stableStringify_identifies (a b : JsonValue IsFinite) :
    (stableStringify a.json = stableStringify b.json ↔ Same a.json b.json)
      ∧ ∃ v : JsonValue IsFinite, parse jsNumerals (stableStringify a.json) = some v.json
        ∧ Same a.json v.json := by
  have hparse := parse_stableStringify (a.distinct.mono readsBack_of_isFinite)
  have hparse' := parse_stableStringify (b.distinct.mono readsBack_of_isFinite)
  refine ⟨?_, ⟨sort a.json, distinct_of_settled (sort_settled a.distinct)⟩, hparse,
    same_sort a.distinct⟩
  · rw [same_iff_sort a.json b.json a.distinct b.distinct]
    constructor
    · intro h
      rw [h, hparse'] at hparse
      exact (Option.some.inj hparse).symm
    · intro h
      unfold stableStringify
      rw [h]

example : (parse jsNumerals (ascii "\x7b\"limit\": 1e2\x7d")).map stableStringify
    = some (ascii "\x7b\n  \"limit\": 100\n\x7d\n") := by
  decide +kernel

/-- A number past all doubles is read as an infinity, and that is written as `null`. -/
theorem overflow_is_null : ∃ a b : JsonValue (fun _ : Number => True),
    parse jsNumerals (ascii "[1e999]") = some a.json
      ∧ parse jsNumerals (ascii "[null]") = some b.json
      ∧ stableStringify a.json = stableStringify b.json ∧ ¬ Same a.json b.json := by
  refine ⟨⟨.arr [.num .infinity], .arr ?_⟩, ⟨.arr [.null], .arr ?_⟩, ?_, ?_, rfl, ?_⟩
  · intro a ha
    rw [List.mem_singleton.mp ha]
    exact .num trivial
  · intro a ha
    rw [List.mem_singleton.mp ha]
    exact .null
  · have hread : readNumber (ascii "1e999") = .infinity :=
      readNumber_overflow (by decide +kernel) (by decide +kernel)
    rw [← hread]
    rfl
  · rfl
  · intro h
    cases h with
    | arr hitems =>
        cases hitems with
        | cons hitem _ => cases hitem

end StableStringify
