/-
  ClipTown.Lib.JsonPrint — `JSON.stringify` with an indent of two blanks, and
  `JSON.parse`.

  An object has its members in the order in which the runtime lists them: array
  indices first, by value, then the others as they were put in (`fromEntries`).

    • `parse_stringify` — a value whose objects have that order and distinct keys
      reads back.
-/
import Mathlib.Data.List.Lex
import Mathlib.Data.List.TakeWhile
import ClipTown.Lib.CanonicalOrder
import ClipTown.Lib.JsonText

namespace JsonText

variable {ν : Type}

/-! ## §1. Objects. -/

section
variable {α : Type}

/-- The members whose keys are array indices, in ascending order. -/
def indexed (members : List (Text × α)) : List (Text × α) :=
  (members.filter fun m => (arrayIndex m.1).isSome).mergeSort
    (fun m n => (arrayIndex m.1).getD 0 ≤ (arrayIndex n.1).getD 0)

/-- The other members, as they were put in. -/
def named (members : List (Text × α)) : List (Text × α) :=
  members.filter fun m => (arrayIndex m.1).isNone

/-- The members in the order in which the runtime lists them. -/
def ownOrder (members : List (Text × α)) : List (Text × α) := indexed members ++ named members

/-- A member put into an object: the value at a key that is there is replaced. -/
def setMember (members : List (Text × α)) (m : Text × α) : List (Text × α) :=
  if m.1 ∈ members.map Prod.fst then members.map fun n => if n.1 = m.1 then m else n
  else members ++ [m]

/-- `Object.fromEntries`. -/
def fromEntries (entries : List (Text × α)) : List (Text × α) :=
  ownOrder (entries.foldl setMember [])

/-- Members with distinct keys are put in one behind the other. -/
theorem foldl_setMember (entries : List (Text × α)) :
    ∀ members, ((members ++ entries).map Prod.fst).Nodup →
      entries.foldl setMember members = members ++ entries := by
  induction entries with
  | nil =>
      intro members _
      exact (List.append_nil members).symm
  | cons m entries ih =>
      intro members hkeys
      -- the key is not there yet, so the member is added at the end
      have hnew : m.1 ∉ members.map Prod.fst := by
        rw [List.map_append, List.nodup_append] at hkeys
        intro hmem
        exact hkeys.2.2 _ hmem _ (List.mem_map_of_mem List.mem_cons_self) rfl
      have hset : setMember members m = members ++ [m] := if_neg hnew
      have happend : members ++ [m] ++ entries = members ++ m :: entries :=
        List.append_assoc members [m] entries
      rw [List.foldl_cons, hset, ih _ (by rw [happend]; exact hkeys), happend]

theorem fromEntries_eq {entries : List (Text × α)} (hkeys : (entries.map Prod.fst).Nodup) :
    fromEntries entries = ownOrder entries := by
  unfold fromEntries
  rw [foldl_setMember entries [] hkeys, List.nil_append]

/-- The runtime's order rearranges the members. -/
theorem ownOrder_perm (members : List (Text × α)) : (ownOrder members).Perm members := by
  have hsplit := List.filter_append_perm (fun m : Text × α => (arrayIndex m.1).isSome) members
  have hnone : (members.filter fun m => !(arrayIndex m.1).isSome) = named members := by
    unfold named
    congr 1
    funext m
    cases arrayIndex m.1 <;> rfl
  rw [hnone] at hsplit
  exact ((List.mergeSort_perm _ _).append_right _).trans hsplit

theorem isSome_of_mem_indexed {members : List (Text × α)} {m : Text × α}
    (h : m ∈ indexed members) : (arrayIndex m.1).isSome = true :=
  (List.mem_filter.mp (List.mem_mergeSort.mp h)).2

theorem isNone_of_mem_named {members : List (Text × α)} {m : Text × α} (h : m ∈ named members) :
    (arrayIndex m.1).isNone = true :=
  (List.mem_filter.mp h).2

theorem indexed_pairwise (members : List (Text × α)) :
    (indexed members).Pairwise (fun m n =>
      decide ((arrayIndex m.1).getD 0 ≤ (arrayIndex n.1).getD 0) = true) := by
  apply List.pairwise_mergeSort
  · intro a b c hab hbc
    simp only [decide_eq_true_iff] at hab hbc ⊢
    omega
  · intro a b
    simp only [Bool.or_eq_true, decide_eq_true_iff]
    omega

/-- **The runtime's order is kept** when the members are put in once more. -/
theorem ownOrder_idem (members : List (Text × α)) :
    ownOrder (ownOrder members) = ownOrder members := by
  have hsome : (ownOrder members).filter (fun m => (arrayIndex m.1).isSome) = indexed members := by
    -- no member is in both halves
    have hothers : (named members).filter (fun m => (arrayIndex m.1).isSome) = [] := by
      apply List.filter_eq_nil_iff.mpr
      intro m hm
      rw [Option.isNone_iff_eq_none.mp (isNone_of_mem_named hm)]
      decide
    have hindices : (indexed members).filter (fun m => (arrayIndex m.1).isSome)
        = indexed members := List.filter_eq_self.mpr fun m hm => isSome_of_mem_indexed hm
    unfold ownOrder
    rw [List.filter_append, hothers, hindices, List.append_nil]
  have hnone : (ownOrder members).filter (fun m => (arrayIndex m.1).isNone) = named members := by
    have hindices : (indexed members).filter (fun m => (arrayIndex m.1).isNone) = [] := by
      apply List.filter_eq_nil_iff.mpr
      intro m hm
      rw [Option.isNone_iff_eq_none]
      exact Option.isSome_iff_ne_none.mp (isSome_of_mem_indexed hm)
    have hothers : (named members).filter (fun m => (arrayIndex m.1).isNone) = named members :=
      List.filter_eq_self.mpr fun m hm => isNone_of_mem_named hm
    unfold ownOrder
    rw [List.filter_append, hothers, hindices, List.nil_append]
  rw [ownOrder, named, hnone, indexed, hsome, List.mergeSort_of_pairwise (indexed_pairwise members)]
  rfl

end

/-! ## §2. Writing. -/

/-- A new line with the indent of a depth. -/
def newline (depth : ℕ) : Text := unit '\n' :: List.replicate (2 * depth) (unit ' ')

/-- The texts of the items or members between their brackets, a line each. -/
def enclose (left right : CodeUnit) (depth : ℕ) : List Text → Text
  | [] => [left, right]
  | first :: more =>
      left :: (newline (depth + 1) ++ first
        ++ more.flatMap (fun text => unit ',' :: (newline (depth + 1) ++ text))
        ++ newline depth ++ [right])

mutual

/-- `JSON.stringify(value, null, 2)` at a depth. -/
def print (num : Numerals ν) (depth : ℕ) : Json ν → Text
  | .null => ascii "null"
  | .bool true => ascii "true"
  | .bool false => ascii "false"
  | .num n => num.text n
  | .str s => quote s
  | .arr items => enclose (unit '[') (unit ']') depth (printItems num (depth + 1) items)
  | .obj members =>
      enclose (unit '\x7b') (unit '\x7d') depth (printMembers num (depth + 1) members)

def printItems (num : Numerals ν) (depth : ℕ) : List (Json ν) → List Text
  | [] => []
  | a :: items => print num depth a :: printItems num depth items

def printMembers (num : Numerals ν) (depth : ℕ) : List (Text × Json ν) → List Text
  | [] => []
  | (key, a) :: members =>
      (quote key ++ ascii ": " ++ print num depth a) :: printMembers num depth members

end

def stringify (num : Numerals ν) (value : Json ν) : Text := print num 0 value

theorem printItems_eq (num : Numerals ν) (depth : ℕ) (items : List (Json ν)) :
    printItems num depth items = items.map (print num depth) := by
  induction items with
  | nil => rfl
  | cons a items ih => rw [printItems, ih, List.map_cons]

/-- A member, written. -/
def printMember (num : Numerals ν) (depth : ℕ) (m : Text × Json ν) : Text :=
  quote m.1 ++ ascii ": " ++ print num depth m.2

theorem printMembers_eq (num : Numerals ν) (depth : ℕ) (members : List (Text × Json ν)) :
    printMembers num depth members = members.map (printMember num depth) := by
  induction members with
  | nil => rfl
  | cons m members ih => rw [printMembers, ih, List.map_cons, printMember]

/-! ## §3. Reading. -/

def skipSpace (text : Text) : Text := text.dropWhile isSpace

/-- The items up to the closing bracket, each read by `item`. -/
def readMore {α : Type} (right : CodeUnit) (item : Text → Option (α × Text)) :
    ℕ → Text → Option (List α × Text)
  | 0, _ => none
  | fuel + 1, text => do
      let a ← item text
      match skipSpace a.2 with
      | [] => none
      | u :: rest =>
          if u = right then some ([a.1], rest)
          else if u = unit ',' then do
            let more ← readMore right item fuel rest
            return (a.1 :: more.1, more.2)
          else none

/-- What follows an opening bracket, up to the closing one. -/
def readItems {α : Type} (right : CodeUnit) (item : Text → Option (α × Text)) (text : Text) :
    Option (List α × Text) :=
  match skipSpace text with
  | [] => none
  | u :: rest => if u = right then some ([], rest) else readMore right item text.length text

/-- A key, a colon and a value. -/
def readMember {α : Type} (value : Text → Option (α × Text)) (text : Text) :
    Option ((Text × α) × Text) :=
  match skipSpace text with
  | [] => none
  | u :: rest =>
      if u = unit '"' then do
        let key ← readString rest
        match skipSpace key.2 with
        | [] => none
        | c :: rest' =>
            if c = unit ':' then do
              let a ← value rest'
              return ((key.1, a.1), a.2)
            else none
      else none

def readWord (word : Text) (value : Json ν) (text : Text) : Option (Json ν × Text) :=
  if word <+: text then some (value, text.drop word.length) else none

/-- The longest text that can be a number. -/
def readNumber (num : Numerals ν) (text : Text) : Option (Json ν × Text) :=
  -- the token is delimited first and checked as a whole
  let token := text.takeWhile isNumberUnit
  if isNumeral token then some (.num (num.read token), text.dropWhile isNumberUnit) else none

/-- A value that starts with a code unit, its own values read by `inner`. -/
def readHead (num : Numerals ν) (inner : Text → Option (Json ν × Text)) (u : CodeUnit)
    (rest : Text) : Option (Json ν × Text) :=
  if u = unit '"' then (readString rest).map fun r => (.str r.1, r.2)
  else if u = unit '[' then (readItems (unit ']') inner rest).map fun r => (.arr r.1, r.2)
  else if u = unit '\x7b' then
    (readItems (unit '\x7d') (readMember inner) rest).map fun r => (.obj (fromEntries r.1), r.2)
  else if u = unit 'n' then readWord (ascii "null") .null (u :: rest)
  else if u = unit 't' then readWord (ascii "true") (.bool true) (u :: rest)
  else if u = unit 'f' then readWord (ascii "false") (.bool false) (u :: rest)
  else readNumber num (u :: rest)

/-- A value and the text behind it. -/
def readValue (num : Numerals ν) : ℕ → Text → Option (Json ν × Text)
  | 0, _ => none
  | fuel + 1, text =>
      match skipSpace text with
      | [] => none
      | u :: rest => readHead num (readValue num fuel) u rest

/-- `JSON.parse`; the length of the text bounds the depth of a value in it. -/
def parse (num : Numerals ν) (text : Text) : Option (Json ν) :=
  match readValue num (text.length + 1) text with
  | some (value, rest) => if skipSpace rest = [] then some value else none
  | none => none

/-! ## §4. Numbers read back. -/

/-- What may follow a value: nothing that a number could go on with. -/
def Stops (rest : Text) : Prop := ∀ u ∈ rest.head?, isNumberUnit u = false

theorem isNumberUnit_of_isDigit {u : CodeUnit} (h : isDigit u = true) : isNumberUnit u = true := by
  unfold isNumberUnit
  rw [h, Bool.true_or]

/-- The units of a text are those behind its sign, and the sign. -/
theorem units_of_dropSign {signs text : Text} (hsigns : ∀ u ∈ signs, isNumberUnit u = true)
    (h : ∀ u ∈ dropSign signs text, isNumberUnit u = true) :
    ∀ u ∈ text, isNumberUnit u = true := by
  cases text with
  | nil => intro u hu; cases hu
  | cons c rest =>
      unfold dropSign at h
      by_cases hsign : c ∈ signs
      · rw [List.head?_cons, Option.any_some, if_pos (decide_eq_true hsign)] at h
        intro u hu
        rcases List.mem_cons.mp hu with rfl | hu
        · exact hsigns u hsign
        · exact h u hu
      · rw [List.head?_cons, Option.any_some, if_neg (by simpa using hsign)] at h
        exact h

theorem isExponent_units {text : Text} (h : isExponent text = true) :
    ∀ u ∈ text, isNumberUnit u = true := by
  cases text with
  | nil => intro u hu; cases hu
  | cons e rest =>
      rw [isExponent, Bool.and_eq_true, Bool.and_eq_true] at h
      have hmark : e ∈ ascii "eE" := decide_eq_true_iff.mp h.1
      have hmarks : ∀ u ∈ ascii "eE", isNumberUnit u = true := List.all_eq_true.mp rfl
      have hdigits : ∀ u ∈ dropSign (ascii "+-") rest, isNumberUnit u = true := fun u hu =>
        isNumberUnit_of_isDigit (List.all_eq_true.mp h.2.2 u hu)
      intro u hu
      rcases List.mem_cons.mp hu with rfl | hu
      · exact hmarks u hmark
      · exact units_of_dropSign (List.all_eq_true.mp rfl) hdigits u hu

/-- The digits at the head of a text and what is behind them. -/
theorem units_of_digits {text : Text}
    (h : ∀ u ∈ text.dropWhile isDigit, isNumberUnit u = true) :
    ∀ u ∈ text, isNumberUnit u = true := by
  intro u hu
  rw [← List.takeWhile_append_dropWhile (p := isDigit) (l := text)] at hu
  rcases List.mem_append.mp hu with hu | hu
  · exact isNumberUnit_of_isDigit (List.mem_takeWhile_imp hu)
  · exact h u hu

theorem isFraction_units {text : Text} (h : isFraction text = true) :
    ∀ u ∈ text, isNumberUnit u = true := by
  cases text with
  | nil => intro u hu; cases hu
  | cons c rest =>
      by_cases hc : c = unit '.'
      · rw [isFraction, if_pos hc, Bool.and_eq_true] at h
        intro u hu
        rcases List.mem_cons.mp hu with rfl | hu
        · subst hc
          decide
        · exact units_of_digits (isExponent_units h.2) u hu
      · rw [isFraction, if_neg hc] at h
        exact isExponent_units h

/-- **A numeral has the code units of a number only.** -/
theorem isNumeral_units {text : Text} (h : isNumeral text = true) :
    ∀ u ∈ text, isNumberUnit u = true := by
  unfold isNumeral at h
  rw [Bool.and_eq_true] at h
  exact units_of_dropSign (List.all_eq_true.mp rfl) (units_of_digits (isFraction_units h.2))

theorem ne_nil_of_isNumeral {text : Text} (h : isNumeral text = true) : text ≠ [] := by
  rintro rfl
  revert h
  decide

/-- A number is read to its end. -/
theorem readNumber_numeral (num : Numerals ν) {text rest : Text} (h : isNumeral text = true)
    (hrest : Stops rest) : readNumber num (text ++ rest) = some (.num (num.read text), rest) := by
  have hunits := isNumeral_units h
  -- nothing behind the numeral belongs to it
  have hstop : rest.takeWhile isNumberUnit = [] ∧ rest.dropWhile isNumberUnit = rest := by
    cases rest with
    | nil => exact ⟨rfl, rfl⟩
    | cons u rest =>
        have hu : isNumberUnit u = false := hrest u rfl
        exact ⟨by rw [List.takeWhile_cons, hu]; rfl, by rw [List.dropWhile_cons, hu]; rfl⟩
  unfold readNumber
  rw [List.takeWhile_append_of_pos hunits, List.dropWhile_append_of_pos hunits, hstop.1, hstop.2,
    List.append_nil]
  exact if_pos h

/-! ## §5. Items and members read back. -/

theorem skipSpace_cons {u : CodeUnit} (h : isSpace u = false) (rest : Text) :
    skipSpace (u :: rest) = u :: rest := by
  unfold skipSpace
  rw [List.dropWhile_cons, h]
  rfl

/-- White space. -/
def Blank (text : Text) : Prop := ∀ u ∈ text, isSpace u = true

theorem blank_newline (depth : ℕ) : Blank (newline depth) := by
  intro u hu
  rcases List.mem_cons.mp hu with rfl | hu
  · decide
  · rw [List.eq_of_mem_replicate hu]
    decide

theorem skipSpace_newline (depth : ℕ) (rest : Text) :
    skipSpace (newline depth ++ rest) = skipSpace rest := by
  exact List.dropWhile_append_of_pos (blank_newline depth)

/-- A text that starts with neither white space nor a closing bracket. -/
def Starts (text : Text) : Prop :=
  ∃ u rest, text = u :: rest ∧ isSpace u = false ∧ u ≠ unit ']' ∧ u ≠ unit '\x7d'

theorem Starts.skipSpace {text : Text} (h : Starts text) (rest : Text) :
    skipSpace (text ++ rest) = text ++ rest := by
  obtain ⟨u, more, rfl, hspace, -⟩ := h
  exact skipSpace_cons hspace _

section
variable {α : Type} (item : Text → Option (α × Text))

/-- The reader finds `a` in a text, whatever follows, after any indent. -/
def Reads (text : Text) (a : α) : Prop :=
  ∀ depth rest, Stops rest → item (newline depth ++ text ++ rest) = some (a, rest)

/-- A closing bracket. -/
structure Closing (right : CodeUnit) : Prop where
  bracket : right = unit ']' ∨ right = unit '\x7d'

variable {item} {right : CodeUnit}

theorem Closing.not_space (h : Closing right) : isSpace right = false := by
  rcases h.bracket with rfl | rfl <;> decide

theorem Closing.ne_comma (h : Closing right) : unit ',' ≠ right := by
  rcases h.bracket with rfl | rfl <;> decide

theorem stops_newline (depth : ℕ) (rest : Text) : Stops (newline depth ++ rest) := by
  intro u hu
  cases hu
  decide

theorem stops_comma (rest : Text) : Stops (unit ',' :: rest) := by
  intro u hu
  cases hu
  decide

theorem readMore_last {text tail rest : Text} {a : α} (fuel : ℕ)
    (hitem : item text = some (a, tail)) (htail : skipSpace tail = right :: rest) :
    readMore right item (fuel + 1) text = some ([a], rest) := by
  unfold readMore
  simp only [hitem, htail, Option.bind_eq_bind, Option.bind_some]
  exact if_pos trivial

theorem readMore_next {text tail rest : Text} {a : α} {fuel : ℕ} {more : List α × Text}
    (hright : Closing right) (hitem : item text = some (a, tail))
    (htail : skipSpace tail = unit ',' :: rest)
    (hmore : readMore right item fuel rest = some more) :
    readMore right item (fuel + 1) text = some (a :: more.1, more.2) := by
  unfold readMore
  simp only [hitem, htail, hmore, Option.bind_eq_bind, Option.bind_some]
  rw [if_neg hright.ne_comma]
  exact if_pos trivial

/-- The items behind the first one, each on its line. -/
def printMore (depth : ℕ) (texts : List Text) : Text :=
  texts.flatMap fun text => unit ',' :: (newline depth ++ text)

/-- **The items are read one after the other.**  Induction on those behind the
first. -/
theorem readMore_items (hright : Closing right) (text : α → Text) (depth outer : ℕ)
    (rest : Text) (more : List α) :
    ∀ first fuel, more.length < fuel → (∀ a ∈ first :: more, Reads item (text a) a) →
      readMore right item fuel (newline depth ++ text first
        ++ (printMore depth (more.map text) ++ (newline outer ++ right :: rest)))
        = some (first :: more, rest) := by
  induction more with
  | nil =>
      intro first fuel hfuel hreads
      obtain ⟨fuel, rfl⟩ : ∃ n, fuel = n + 1 := Nat.exists_eq_add_one.mpr (by omega)
      have hitem := hreads first List.mem_cons_self depth _ (stops_newline outer (right :: rest))
      refine readMore_last fuel hitem ?_
      rw [skipSpace_newline, skipSpace_cons hright.not_space]
  | cons second more ih =>
      intro first fuel hfuel hreads
      obtain ⟨fuel, rfl⟩ : ∃ n, fuel = n + 1 := Nat.exists_eq_add_one.mpr (by omega)
      rw [List.length_cons] at hfuel
      have hreadsMore : ∀ a ∈ second :: more, Reads item (text a) a := fun a ha =>
        hreads a (List.mem_cons_of_mem first ha)
      have hread := ih second fuel (by omega) hreadsMore
      -- what is behind the first item starts with the comma before the second
      have htext : printMore depth ((second :: more).map text) ++ (newline outer ++ right :: rest)
          = unit ',' :: (newline depth ++ text second
            ++ (printMore depth (more.map text) ++ (newline outer ++ right :: rest))) := by
        simp only [printMore, List.map_cons, List.flatMap_cons, List.cons_append,
          List.append_assoc]
      rw [htext]
      have hcomma : isSpace (unit ',') = false := by decide
      exact readMore_next hright (hreads first List.mem_cons_self depth _ (stops_comma _))
        (skipSpace_cons hcomma _) hread

/-- **What `enclose` wrote is read back**, behind the opening bracket. -/
theorem readItems_enclose (hright : Closing right) (left : CodeUnit) (text : α → Text)
    (depth : ℕ) (rest : Text) (items : List α) (hstarts : ∀ a ∈ items, Starts (text a))
    (hreads : ∀ a ∈ items, Reads item (text a) a) :
    readItems right item ((enclose left right depth (items.map text)).tail ++ rest)
      = some (items, rest) := by
  cases items with
  | nil =>
      show (match skipSpace (right :: rest) with
        | [] => none
        | u :: rest' => if u = right then some ([], rest')
            else readMore right item (right :: rest).length (right :: rest)) = _
      rw [skipSpace_cons hright.not_space]
      exact if_pos rfl
  | cons first more =>
      have htext : (enclose left right depth ((first :: more).map text)).tail ++ rest
          = newline (depth + 1) ++ text first
            ++ (printMore (depth + 1) (more.map text) ++ (newline depth ++ right :: rest)) := by
        simp only [enclose, printMore, List.map_cons, List.tail_cons, List.append_assoc,
          List.cons_append, List.nil_append]
      -- each item takes at least its comma, so the text is fuel enough
      have hlength : ∀ texts : List Text, texts.length ≤ (printMore (depth + 1) texts).length := by
        intro texts
        induction texts with
        | nil => exact Nat.zero_le _
        | cons t texts ih =>
            simp only [printMore, List.flatMap_cons, List.length_append, List.length_cons] at ih ⊢
            omega
      obtain ⟨u, tail, hfirst, hspace, hbracket, hbrace⟩ := hstarts first List.mem_cons_self
      -- an item never starts with the bracket that ends the list
      have hne : u ≠ right := by
        rcases hright.bracket with rfl | rfl
        · exact hbracket
        · exact hbrace
      rw [htext]
      unfold readItems
      have hskip : skipSpace (newline (depth + 1) ++ text first
            ++ (printMore (depth + 1) (more.map text) ++ (newline depth ++ right :: rest)))
          = u :: (tail ++ (printMore (depth + 1) (more.map text)
            ++ (newline depth ++ right :: rest))) := by
        rw [List.append_assoc, skipSpace_newline, hfirst, List.cons_append, skipSpace_cons hspace]
      rw [hskip]
      show (if u = right then _ else _) = _
      rw [if_neg hne]
      refine readMore_items hright text (depth + 1) depth rest more first _ ?_ hreads
      have hmore := hlength (more.map text)
      rw [List.length_map] at hmore
      simp only [List.length_append, newline, List.length_cons]
      omega

end

/-! ## §6. Values read back. -/

/-- A value as the runtime has it: the members of every object in its order, with
distinct keys, and numbers as they are in `P`. -/
inductive Json.Settled (P : ν → Prop) : Json ν → Prop
  | null : Json.Settled P .null
  | bool (b : Bool) : Json.Settled P (.bool b)
  | num {n : ν} (h : P n) : Json.Settled P (.num n)
  | str (s : Text) : Json.Settled P (.str s)
  | arr {items : List (Json ν)} (hitems : ∀ a ∈ items, Json.Settled P a) :
      Json.Settled P (.arr items)
  | obj {members : List (Text × Json ν)} (hkeys : (members.map Prod.fst).Nodup)
      (horder : ownOrder members = members) (hmembers : ∀ m ∈ members, Json.Settled P m.2) :
      Json.Settled P (.obj members)

theorem isNumberUnit_ne {u c : CodeUnit} (hu : isNumberUnit u = true)
    (hc : isNumberUnit c = false) : u ≠ c := by
  rintro rfl
  rw [hu] at hc
  cases hc

theorem not_space_of_numberUnit {u : CodeUnit} (hu : isNumberUnit u = true) :
    isSpace u = false := by
  have hspaces : ∀ c ∈ ascii " \t\n\r", isNumberUnit c = false := by
    intro c hc
    have hall := List.all_eq_true.mp
      (rfl : (ascii " \t\n\r").all (fun c => !isNumberUnit c) = true) c hc
    simpa using hall
  apply decide_eq_false
  intro hmem
  exact isNumberUnit_ne hu (hspaces u hmem) rfl

theorem starts_of_numberUnit {u : CodeUnit} {rest : Text} (hu : isNumberUnit u = true) :
    Starts (u :: rest) :=
  ⟨u, rest, rfl, not_space_of_numberUnit hu, isNumberUnit_ne hu (by decide),
    isNumberUnit_ne hu (by decide)⟩

theorem enclose_eq (left right : CodeUnit) (depth : ℕ) (texts : List Text) :
    enclose left right depth texts = left :: (enclose left right depth texts).tail := by
  cases texts <;> rfl

theorem length_lt_enclose {text : Text} {texts : List Text} (h : text ∈ texts)
    (left right : CodeUnit) (depth : ℕ) :
    text.length < (enclose left right depth texts).length := by
  cases texts with
  | nil => cases h
  | cons first more =>
      simp only [enclose, List.length_cons, List.length_append]
      rcases List.mem_cons.mp h with rfl | h
      · omega
      · obtain ⟨before, after, rfl⟩ := List.append_of_mem h
        simp only [List.flatMap_append, List.flatMap_cons, List.length_append, List.length_cons]
        omega

theorem print_starts {num : Numerals ν} {value : Json ν} (h : value.Settled num.ReadsBack)
    (depth : ℕ) : Starts (print num depth value) := by
  cases h with
  | null => exact ⟨unit 'n', _, rfl, by decide, by decide, by decide⟩
  | bool b => cases b <;> exact ⟨_, _, rfl, by decide, by decide, by decide⟩
  | num hback =>
      have hnumeral := hback.numeral
      obtain ⟨u, rest, htext⟩ := List.exists_cons_of_ne_nil (ne_nil_of_isNumeral hnumeral)
      rw [print, htext]
      rw [htext] at hnumeral
      exact starts_of_numberUnit (isNumeral_units hnumeral u List.mem_cons_self)
  | str s => exact ⟨unit '"', _, rfl, by decide, by decide, by decide⟩
  | arr hitems =>
      rw [print, enclose_eq]
      exact ⟨unit '[', _, rfl, by decide, by decide, by decide⟩
  | obj hkeys horder hmembers =>
      rw [print, enclose_eq]
      exact ⟨unit '\x7b', _, rfl, by decide, by decide, by decide⟩

/-- The value of each word that is one. -/
theorem readWord_append (word : Text) (value : Json ν) (rest : Text) :
    readWord word value (word ++ rest) = some (value, rest) := by
  unfold readWord
  rw [if_pos (List.prefix_append word rest), List.drop_left]

/-- A reader of members, from one of values. -/
theorem reads_member {value : Text → Option (Json ν × Text)} {num : Numerals ν} {depth : ℕ}
    {m : Text × Json ν} (hvalue : ∀ rest, Stops rest →
      value (unit ' ' :: (print num depth m.2 ++ rest)) = some (m.2, rest)) :
    Reads (readMember value) (printMember num depth m) m := by
  intro outer rest hrest
  have htext : newline outer ++ printMember num depth m ++ rest
      = newline outer ++ (unit '"' :: ((quote m.1).tail
        ++ (unit ':' :: unit ' ' :: (print num depth m.2 ++ rest)))) := by
    simp only [printMember, quote, List.append_assoc, List.tail_cons, List.cons_append]
    rfl
  have hquote : isSpace (unit '"') = false := by decide
  have hcolon : isSpace (unit ':') = false := by decide
  rw [htext]
  unfold readMember
  rw [skipSpace_newline, skipSpace_cons hquote]
  simp only [if_true, readString_quote, Option.bind_eq_bind, Option.bind_some,
    skipSpace_cons hcolon, hvalue rest hrest]
  rfl

theorem readHead_number (num : Numerals ν) (inner : Text → Option (Json ν × Text)) {u : CodeUnit}
    (hu : isNumberUnit u = true) (rest : Text) :
    readHead num inner u rest = readNumber num (u :: rest) := by
  unfold readHead
  rw [if_neg (isNumberUnit_ne hu (by decide)), if_neg (isNumberUnit_ne hu (by decide)),
    if_neg (isNumberUnit_ne hu (by decide)), if_neg (isNumberUnit_ne hu (by decide)),
    if_neg (isNumberUnit_ne hu (by decide)), if_neg (isNumberUnit_ne hu (by decide))]

theorem readHead_arr (num : Numerals ν) (inner : Text → Option (Json ν × Text)) (rest : Text) :
    readHead num inner (unit '[') rest
      = (readItems (unit ']') inner rest).map fun r => (.arr r.1, r.2) := by
  unfold readHead
  rw [if_neg (by decide), if_pos rfl]

theorem readHead_obj (num : Numerals ν) (inner : Text → Option (Json ν × Text)) (rest : Text) :
    readHead num inner (unit '\x7b') rest
      = (readItems (unit '\x7d') (readMember inner) rest).map fun r =>
          (.obj (fromEntries r.1), r.2) := by
  unfold readHead
  rw [if_neg (by decide), if_neg (by decide), if_pos rfl]

theorem readHead_str (num : Numerals ν) (inner : Text → Option (Json ν × Text)) (rest : Text) :
    readHead num inner (unit '"') rest = (readString rest).map fun r => (.str r.1, r.2) :=
  if_pos rfl

theorem Blank.skipSpace {blanks : Text} (h : Blank blanks) {u : CodeUnit}
    (hu : isSpace u = false) (rest : Text) :
    JsonText.skipSpace (blanks ++ u :: rest) = u :: rest := by
  unfold JsonText.skipSpace
  rw [List.dropWhile_append_of_pos h]
  exact skipSpace_cons hu rest

/-- Behind white space a value is read by its first code unit. -/
theorem readValue_blank (num : Numerals ν) {blanks text tail : Text} {u : CodeUnit} {fuel : ℕ}
    (hblanks : Blank blanks) (htext : text = u :: tail) (hu : isSpace u = false)
    (hfuel : text.length ≤ fuel) (rest : Text) :
    ∃ inner, fuel = inner + 1 ∧ readValue num fuel (blanks ++ (text ++ rest))
      = readHead num (readValue num inner) u (tail ++ rest) := by
  rw [htext, List.length_cons] at hfuel
  obtain ⟨inner, rfl⟩ : ∃ n, fuel = n + 1 := Nat.exists_eq_add_one.mpr (by omega)
  refine ⟨inner, rfl, ?_⟩
  rw [htext, List.cons_append, readValue, hblanks.skipSpace hu]

/-- **A written value is read back**, behind any indent.  Induction on the value; the
fuel is at least the length of the text, so it reaches every value inside. -/
theorem readValue_print {num : Numerals ν} {value : Json ν} (h : value.Settled num.ReadsBack) :
    ∀ depth fuel, (print num depth value).length ≤ fuel → ∀ blanks rest, Blank blanks →
      Stops rest → readValue num fuel (blanks ++ (print num depth value ++ rest))
        = some (value, rest) := by
  induction h with
  | null =>
      intro depth fuel hfuel blanks rest hblanks _
      have htext : print num depth .null = unit 'n' :: (ascii "null").tail := rfl
      obtain ⟨inner, -, hread⟩ := readValue_blank num hblanks htext (by decide) hfuel rest
      rw [hread]
      exact readWord_append (ascii "null") .null rest
  | bool b =>
      intro depth fuel hfuel blanks rest hblanks _
      cases b with
      | true =>
          have htext : print num depth (.bool true) = unit 't' :: (ascii "true").tail := rfl
          obtain ⟨inner, -, hread⟩ := readValue_blank num hblanks htext (by decide) hfuel rest
          rw [hread]
          exact readWord_append (ascii "true") (.bool true) rest
      | false =>
          have htext : print num depth (.bool false) = unit 'f' :: (ascii "false").tail := rfl
          obtain ⟨inner, -, hread⟩ := readValue_blank num hblanks htext (by decide) hfuel rest
          rw [hread]
          exact readWord_append (ascii "false") (.bool false) rest
  | num hback =>
      intro depth fuel hfuel blanks rest hblanks hrest
      have hnumeral := hback.numeral
      obtain ⟨u, tail, htext⟩ := List.exists_cons_of_ne_nil (ne_nil_of_isNumeral hnumeral)
      have hu : isNumberUnit u = true := by
        rw [htext] at hnumeral
        exact isNumeral_units hnumeral u List.mem_cons_self
      obtain ⟨inner, -, hread⟩ := readValue_blank num hblanks htext (not_space_of_numberUnit hu)
        hfuel rest
      have hnumber := readNumber_numeral num hnumeral hrest
      rw [htext, List.cons_append, ← htext, hback.read_text] at hnumber
      rw [print, hread, readHead_number num _ hu, hnumber]
  | str s =>
      intro depth fuel hfuel blanks rest hblanks _
      have htext : print num depth (.str s) = unit '"' :: (quote s).tail := rfl
      obtain ⟨inner, -, hread⟩ := readValue_blank num hblanks htext (by decide) hfuel rest
      rw [hread, readHead_str, readString_quote]
      rfl
  | @arr items hitems ih =>
      intro depth fuel hfuel blanks rest hblanks _
      rw [print, printItems_eq] at hfuel ⊢
      obtain ⟨inner, rfl, hread⟩ := readValue_blank num hblanks (enclose_eq _ _ _ _) (by decide)
        hfuel rest
      have hreads : ∀ a ∈ items, Reads (readValue num inner) (print num (depth + 1) a) a := by
        intro a ha outer rest' hrest'
        -- an item is shorter than the list around it, so one unit of fuel less is enough
        have hshort := length_lt_enclose (List.mem_map_of_mem (f := print num (depth + 1)) ha)
          (unit '[') (unit ']') depth
        rw [List.append_assoc]
        exact ih a ha (depth + 1) inner (by omega) _ rest' (blank_newline outer) hrest'
      have hread' := readItems_enclose ⟨.inl rfl⟩ (unit '[') (print num (depth + 1)) depth rest
        items (fun a ha => print_starts (hitems a ha) (depth + 1)) hreads
      rw [hread, readHead_arr, hread']
      rfl
  | @obj members hkeys horder hmembers ih =>
      intro depth fuel hfuel blanks rest hblanks _
      rw [print, printMembers_eq] at hfuel ⊢
      obtain ⟨inner, rfl, hread⟩ := readValue_blank num hblanks (enclose_eq _ _ _ _) (by decide)
        hfuel rest
      have hreads : ∀ m ∈ members,
          Reads (readMember (readValue num inner)) (printMember num (depth + 1) m) m := by
        intro m hm
        have hshort := length_lt_enclose (List.mem_map_of_mem (f := printMember num (depth + 1)) hm)
          (unit '\x7b') (unit '\x7d') depth
        have hinner : (print num (depth + 1) m.2).length
            ≤ (printMember num (depth + 1) m).length := by
          simp only [printMember, List.length_append]
          omega
        apply reads_member
        intro rest' hrest'
        -- between the colon and the value stands one blank
        have hblank : Blank [unit ' '] := by
          intro u hu
          rw [List.mem_singleton.mp hu]
          decide
        exact ih m hm (depth + 1) inner (by omega) [unit ' '] rest' hblank hrest'
      have hitems := readItems_enclose ⟨.inr rfl⟩ (unit '\x7b') (printMember num (depth + 1)) depth
        rest members (fun m _ => ⟨unit '"', _, rfl, by decide, by decide, by decide⟩) hreads
      rw [hread, readHead_obj, hitems]
      show some (Json.obj (fromEntries members), rest) = _
      -- distinct keys in the runtime's order stay as they were read
      rw [fromEntries_eq hkeys, horder]

/-- **What `JSON.stringify` wrote, `JSON.parse` reads**, also with a new line at its
end. -/
theorem parse_stringify {num : Numerals ν} {value : Json ν} (h : value.Settled num.ReadsBack)
    (blanks : Text) (hblanks : Blank blanks) :
    parse num (stringify num value ++ blanks) = some value := by
  have hstops : Stops blanks := by
    intro u hu
    have hspace := hblanks u (List.mem_of_mem_head? hu)
    -- white space never goes on with a number
    by_contra hunit
    have hnot := not_space_of_numberUnit (by simpa using hunit : isNumberUnit u = true)
    rw [hspace] at hnot
    cases hnot
  have hlength : (print num 0 value).length ≤ (print num 0 value ++ blanks).length + 1 := by
    rw [List.length_append]
    omega
  have hread := readValue_print h 0 _ hlength [] blanks (fun u hu => by cases hu) hstops
  unfold parse stringify
  rw [List.nil_append] at hread
  rw [hread]
  have hskip : skipSpace blanks = [] := List.dropWhile_eq_nil_iff.mpr hblanks
  exact if_pos hskip

end JsonText
