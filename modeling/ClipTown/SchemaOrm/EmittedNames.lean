/-
  ClipTown.SchemaOrm.EmittedNames — reading names back off the emitted lines.

  A reader looks at one piece of text at a time: it expects a fixed front, takes
  the name up to the next blank, expects a fixed back and returns what follows.
  Reading every piece of a line gives what the line names:

    • `readNamed_eq`, `readNamed_apart` — a piece of the reader's own form, and
      a piece that starts otherwise,
    • `references_clauses` — the foreign keys of a `create table`,
    • `constraints_clauses` — its constraints.
-/
import ClipTown.SchemaOrm.EmittedFile
import ClipTown.Lib.Separators

namespace ClipTown.SchemaOrm

open Checks DdlOutline

/-! ## §1. Readers. -/

/-- The name after `front`, up to the next blank, and the text after `back`. -/
def readNamed (front back : String) : Piece → Option (String × String)
  | .text s => do
      let rest ← s.toList.dropPrefix? front.toList
      let tail ← (rest.dropWhile (· ≠ ' ')).dropPrefix? back.toList
      return (String.ofList (rest.takeWhile (· ≠ ' ')), String.ofList tail)
  | .fragment _ _ => none

theorem dropPrefix?_append {l l' : List Char} : (l ++ l').dropPrefix? l = some l' :=
  List.dropPrefix?_eq_some_iff.mpr ⟨l, rfl, beq_self_eq_true l⟩

/-- A piece of the reader's own form. -/
theorem readNamed_eq {front back name tail s : String}
    (hs : s.toList = front.toList ++ (name.toList ++ (back.toList ++ tail.toList)))
    (hname : ' ' ∉ name.toList) (hback : back.toList.head? = some ' ') :
    readNamed front back (.text s) = some (name, tail) := by
  obtain ⟨rest, hrest⟩ : ∃ rest, back.toList = ' ' :: rest := by
    cases hb : back.toList with
    | nil => rw [hb] at hback; cases hback
    | cons c rest =>
        rw [hb] at hback
        exact ⟨rest, by rw [Option.some.inj hback]⟩
  have hne : ∀ c ∈ name.toList, decide (c ≠ ' ') = true :=
    fun c hc => decide_eq_true (fun heq => hname (heq ▸ hc))
  have htake : (name.toList ++ (back.toList ++ tail.toList)).takeWhile (· ≠ ' ')
      = name.toList := by
    rw [List.takeWhile_append_of_pos hne, hrest]
    simp
  have hdrop : (name.toList ++ (back.toList ++ tail.toList)).dropWhile (· ≠ ' ')
      = back.toList ++ tail.toList := by
    rw [List.dropWhile_append_of_pos hne, hrest]
    simp
  unfold readNamed
  simp only [hs, dropPrefix?_append, hdrop, htake, Option.bind_eq_bind, Option.bind_some,
    String.ofList_toList, Option.pure_def]

theorem readNamed_form {front back name tail : String} (hname : ' ' ∉ name.toList)
    (hback : back.toList.head? = some ' ') :
    readNamed front back (.text (front ++ (name ++ (back ++ tail)))) = some (name, tail) := by
  refine readNamed_eq ?_ hname hback
  rw [String.toList_append, String.toList_append, String.toList_append]

/-- What a reader has read. -/
theorem eq_of_readNamed {front back s : String} {read : String × String}
    (h : readNamed front back (.text s) = some read) :
    s.toList = front.toList ++ (read.1.toList ++ (back.toList ++ read.2.toList)) := by
  simp only [readNamed, Option.bind_eq_bind, Option.bind_eq_some_iff, Option.pure_def,
    Option.some.injEq, List.dropPrefix?_eq_some_iff, beq_iff_eq] at h
  obtain ⟨rest, ⟨_, hs, rfl⟩, tail, ⟨_, htail, rfl⟩, rfl⟩ := h
  rw [hs, String.toList_ofList, String.toList_ofList, ← htail, List.takeWhile_append_dropWhile]

/-- The first characters of two texts differ. -/
def startsApart (front lit : String) (n : Nat) : Bool :=
  n ≤ front.toList.length && n ≤ lit.toList.length
    && front.toList.take n ≠ lit.toList.take n

/-- A piece that starts otherwise. -/
theorem readNamed_apart {front back lit : String} (n : Nat) {rest : String}
    (h : startsApart front lit n = true) : readNamed front back (.text (lit ++ rest)) = none := by
  rw [Option.eq_none_iff_forall_ne_some]
  intro read hread
  have hs := eq_of_readNamed hread
  simp only [startsApart, Bool.and_eq_true, decide_eq_true_eq] at h
  obtain ⟨⟨hfront, hlit⟩, hne⟩ := h
  apply hne
  have htake := congrArg (List.take n) hs
  rw [String.toList_append, List.take_append_of_le_length hlit,
    List.take_append_of_le_length hfront] at htake
  exact htake.symm

/-- A text with another first character, or none. -/
theorem readNamed_of_head {front back s : String} {c : Char}
    (hfront : front.toList.head? = some c) (hs : s.toList.head? ≠ some c) :
    readNamed front back (.text s) = none := by
  rw [Option.eq_none_iff_forall_ne_some]
  intro read hread
  apply hs
  rw [eq_of_readNamed hread, List.head?_append, hfront]
  rfl

/-- `references t (c)`, as a column has it: the table, and the column with its closing
parenthesis. -/
def readReference : Piece → Option (String × String) := readNamed " references " " ("

/-- `constraint n check (`, as a clause after the first has it: the name, and the
text of the condition where it stands in the same piece. -/
def readConstraint : Piece → Option (String × String) := readNamed ",\n  constraint " " check ("

/-- `create table if not exists t (`. -/
def readTable : Piece → Option (String × String) := readNamed "create table if not exists " " ("

/-- `create index if not exists i on `, unique or not. -/
def readIndex (piece : Piece) : Option (String × String) :=
  (readNamed "create index if not exists " " on " piece).or
    (readNamed "create unique index if not exists " " on " piece)

theorem readReference_apart {lit : String} (n : Nat) {rest : String}
    (h : startsApart " references " lit n = true) : readReference (.text (lit ++ rest)) = none :=
  readNamed_apart n h

theorem readConstraint_apart {lit : String} (n : Nat) {rest : String}
    (h : startsApart ",\n  constraint " lit n = true) :
    readConstraint (.text (lit ++ rest)) = none :=
  readNamed_apart n h

theorem blank_of_isIdentifier {s : String} (h : isIdentifier s = true) : ' ' ∉ s.toList := by
  intro hmem
  exact absurd ((name_of_isIdentifier h).2 ' ' hmem) (by decide)

/-! ## §2. Columns. -/

/-- The target of a field's reference, where it has one. -/
def resolveReference (model : Model) (field : Field) : Option (Entity × Field) := do
  let r ← field.property.db.references
  let target ← model.entity r.entity
  let targetField ← target.field r.field
  return (target, targetField)

theorem resolveReference_eq_some {model : Model} {field : Field} {target : Entity × Field} :
    resolveReference model field = some target
      ↔ ∃ r, field.property.db.references = some r ∧ model.entity r.entity = some target.1
          ∧ target.1.field r.field = some target.2 := by
  simp only [resolveReference, Option.bind_eq_bind, Option.bind_eq_some_iff, Option.pure_def,
    Option.some.injEq]
  constructor
  · intro hall
    obtain ⟨r, hr, entity, hentity, f, hf, rfl⟩ := hall
    exact ⟨r, hr, hentity, hf⟩
  · intro hall
    obtain ⟨r, hr, hentity, hf⟩ := hall
    exact ⟨r, hr, target.1, hentity, target.2, hf, rfl⟩

/-- What `references t (c)` says of a target. -/
def targetNames (target : Entity × Field) : String × String :=
  (target.1.table, target.2.column ++ ")")

/-- A literal of the emitter's own starts with neither a blank nor a comma. -/
theorem sqlLiteral_head (value : Value) :
    (sqlLiteral value).toList.head? ≠ some ' ' ∧ (sqlLiteral value).toList.head? ≠ some ',' := by
  cases value with
  | string s => simp [sqlLiteral, quoteLiteral]
  | boolean b => cases b <;> decide
  | number n =>
      have hall : ∀ c ∈ digits ++ ['.', 'e', '+', '-'], c ≠ ' ' ∧ c ≠ ',' := by decide
      constructor
      · intro hhead
        exact (hall ' ' (n.alphabet ' ' (List.mem_of_head? hhead))).1 rfl
      · intro hhead
        exact (hall ',' (n.alphabet ',' (List.mem_of_head? hhead))).2 rfl
  | null => decide
  | other stringified => simp [sqlLiteral, quoteLiteral]

theorem sqlDefault_head {field : Field} {dialect : Dialect} {s : String}
    (h : sqlDefault field dialect = some (.text s)) :
    s.toList.head? ≠ some ' ' ∧ s.toList.head? ≠ some ',' := by
  unfold sqlDefault at h
  split at h
  next => cases h
  next =>
    split at h
    next e _ =>
      split_ifs at h
      · cases h
        have hhead : sqliteUuid.toList.head? = some '(' := by
          unfold sqliteUuid
          simp only [String.toList_append, List.head?_append]
          rfl
        rw [hhead]
        decide
      · cases h
    next =>
      obtain ⟨value, _, hvalue⟩ := Option.map_eq_some_iff.mp h
      split_ifs at hvalue
      · obtain rfl := Piece.text.inj hvalue
        simp [quoteLiteral]
      · obtain rfl := Piece.text.inj hvalue
        exact sqlLiteral_head value

/-- The parts of a column before its reference. -/
def plainParts (dialect : Dialect) (field : Field) : List Sql :=
  (if field.nullable then [] else [[.text "not null"]]) ++ defaultPieces field dialect
    ++ (if field.property.db.unique then [[.text "unique"]] else [])

/-- No reader of columns reads anything there. -/
theorem read_plainParts (dialect : Dialect) (field : Field) {front back : String}
    (hfront : front.toList.head? = some ' ' ∨ front.toList.head? = some ',')
    (hnull : startsApart front " not null" 2 = true)
    (hdefault : startsApart front " default " 2 = true)
    (hunique : startsApart front " unique" 2 = true) :
    ((plainParts dialect field).flatMap (prepend " ")).filterMap (readNamed front back) = [] := by
  have hone : ∀ lit : String, startsApart front lit 2 = true →
      readNamed front back (.text lit) = none := by
    intro lit h
    have hread : readNamed front back (.text (lit ++ "")) = none := readNamed_apart 2 h
    rwa [String.append_empty] at hread
  unfold plainParts
  rw [List.flatMap_append, List.flatMap_append, List.filterMap_append, List.filterMap_append]
  have h₁ : ((if field.nullable then [] else [[Piece.text "not null"]]).flatMap
      (prepend " ")).filterMap (readNamed front back) = [] := by
    by_cases hnullable : field.nullable = true
    · rw [if_pos hnullable]
      rfl
    · rw [if_neg hnullable]
      exact List.filterMap_cons_none (hone " not null" hnull)
  have h₂ : ((defaultPieces field dialect).flatMap (prepend " ")).filterMap
      (readNamed front back) = [] := by
    unfold defaultPieces
    split
    next piece hpiece =>
      split
      next => rfl
      next =>
        show [Piece.text " default ", piece].filterMap (readNamed front back) = []
        rw [List.filterMap_cons_none (hone " default " hdefault)]
        cases piece with
        | fragment clause e => rfl
        | text s =>
            -- a literal may hold any text, but its first character is not the reader's
            have hhead := sqlDefault_head hpiece
            refine List.filterMap_cons_none ?_
            rcases hfront with hfront | hfront
            · exact readNamed_of_head hfront hhead.1
            · exact readNamed_of_head hfront hhead.2
    next => rfl
  have h₃ : ((if field.property.db.unique then [[Piece.text "unique"]] else []).flatMap
      (prepend " ")).filterMap (readNamed front back) = [] := by
    by_cases hflag : field.property.db.unique = true
    · rw [if_pos hflag]
      exact List.filterMap_cons_none (hone " unique" hunique)
    · rw [if_neg hflag]
      rfl
  rw [h₁, h₂, h₃]
  rfl

/-- A reference part exists iff its target does. -/
theorem referencePieces_eq_ok {model : Model} {field : Field} {parts : List Sql}
    (h : referencePieces model field.property.db.references = .ok parts) :
    field.property.db.references = none ∧ parts = []
      ∨ ∃ r target, field.property.db.references = some r
        ∧ resolveReference model field = some target
        ∧ parts = [[.text ("references " ++ target.1.table ++ " (" ++ target.2.column ++ ")")]]
            ++ actionPieces "on update" r.onUpdate ++ actionPieces "on delete" r.onDelete := by
  unfold referencePieces at h
  split at h
  next hnone => exact .inl ⟨hnone, (Except.ok.inj h).symm⟩
  next r hr =>
    right
    split at h
    next => cases h
    next target htarget =>
      split at h
      next => cases h
      next targetField hfield =>
        refine ⟨r, (target, targetField), hr, ?_, (Except.ok.inj h).symm⟩
        simp [resolveReference, hr, htarget, hfield]

/-- An action is read by no reader. -/
theorem read_actionPieces {front back keyword : String} {action : Option String}
    (h : startsApart front (" " ++ keyword) 2 = true) :
    ((actionPieces keyword action).flatMap (prepend " ")).filterMap (readNamed front back)
      = [] := by
  unfold actionPieces
  split
  next a =>
    split
    next => rfl
    next =>
      have hread : readNamed front back (.text (" " ++ keyword ++ (" " ++ a))) = none :=
        readNamed_apart 2 h
      have heq : " " ++ (keyword ++ " " ++ a) = " " ++ keyword ++ (" " ++ a) := by
        simp only [String.append_assoc]
      show [Piece.text (" " ++ (keyword ++ " " ++ a))].filterMap (readNamed front back) = []
      rw [heq]
      exact List.filterMap_cons_none hread
  next => rfl

/-- **The reference of a column reads back as its target.** -/
theorem readReference_referencePieces {model : Model} {field : Field} {parts : List Sql}
    (hmodel : ∀ e ∈ model.entities, CheckedEntity e)
    (h : referencePieces model field.property.db.references = .ok parts) :
    (parts.flatMap (prepend " ")).filterMap readReference
      = (resolveReference model field).toList.map targetNames := by
  rcases referencePieces_eq_ok h with ⟨hnone, rfl⟩ | ⟨r, target, hr, htarget, rfl⟩
  · have hresolve : resolveReference model field = none := by
      simp [resolveReference, hnone]
    rw [hresolve]
    rfl
  · have htable : isIdentifier target.1.table = true := by
      simp only [resolveReference, hr, Option.bind_eq_bind, Option.bind_some,
        Option.bind_eq_some_iff, Option.pure_def, Option.some.injEq] at htarget
      obtain ⟨entity, hentity, _, _, rfl⟩ := htarget
      exact (hmodel entity (List.mem_of_find?_eq_some hentity)).table
    have hread : readReference
        (.text (" " ++ ("references " ++ target.1.table ++ " (" ++ target.2.column ++ ")")))
          = some (targetNames target) := by
      refine readNamed_eq ?_ (blank_of_isIdentifier htable) (by decide)
      have hfront : " references ".toList = " ".toList ++ "references ".toList := by decide
      simp only [String.toList_append, hfront, List.append_assoc]
    rw [htarget, List.flatMap_append, List.flatMap_append, List.filterMap_append,
      List.filterMap_append]
    unfold readReference at hread ⊢
    rw [read_actionPieces (by decide), read_actionPieces (by decide), List.append_nil,
      List.append_nil]
    show [Piece.text _].filterMap _ = _
    rw [List.filterMap_cons_some hread]
    rfl

/-- No constraint is read in the reference of a column. -/
theorem readConstraint_referencePieces {model : Model} {field : Field} {parts : List Sql}
    (h : referencePieces model field.property.db.references = .ok parts) :
    (parts.flatMap (prepend " ")).filterMap readConstraint = [] := by
  rcases referencePieces_eq_ok h with ⟨_, rfl⟩ | ⟨r, target, _, _, rfl⟩
  · rfl
  · have hread : readConstraint
        (.text (" " ++ ("references " ++ target.1.table ++ " (" ++ target.2.column ++ ")")))
          = none := readNamed_apart 1 (by decide)
    rw [List.flatMap_append, List.flatMap_append, List.filterMap_append, List.filterMap_append]
    unfold readConstraint at hread ⊢
    rw [read_actionPieces (by decide), read_actionPieces (by decide)]
    show [Piece.text _].filterMap _ ++ [] ++ [] = []
    rw [List.filterMap_cons_none hread]
    rfl

/-! ## §3. Types. -/

/-- Every match of the expression that is not empty ends in such a character. -/
def LastChars (P : Char → Bool) : RegularExpression Char → Prop
  | .zero => True
  | .epsilon => True
  | .char a => P a = true
  | .plus r s => LastChars P r ∧ LastChars P s
  | .comp r s => LastChars P s ∧ (s.matchEpsilon = false ∨ LastChars P r)
  | .star r => LastChars P r

theorem last_of_matches {P : Char → Bool} {r : RegularExpression Char} (h : LastChars P r) :
    ∀ s ∈ r.matches', ∀ c ∈ s.getLast?, P c = true := by
  induction r with
  | zero => intro s hs; exact absurd hs id
  | epsilon =>
      intro s hs c hc
      rw [show s = [] from hs] at hc
      cases hc
  | char a =>
      intro s hs c hc
      rw [show s = [a] from hs] at hc
      exact Option.some.inj hc ▸ h
  | plus r s ihr ihs =>
      intro x hx
      rcases hx with hx | hx
      · exact ihr h.1 x hx
      · exact ihs h.2 x hx
  | comp r s ihr ihs =>
      intro x hx c hc
      obtain ⟨a, ha, b, hb, rfl⟩ := Language.mem_mul.mp hx
      rw [List.getLast?_append] at hc
      cases hlast : b.getLast? with
      | some d =>
          rw [hlast] at hc
          exact ihs h.1 b hb c (by rw [hlast]; exact hc)
      | none =>
          -- the second part is empty, so it may be
          have hnil : b = [] := List.getLast?_eq_none_iff.mp hlast
          rcases h.2 with hne | hr
          · have hmatch := (RegularExpression.rmatch_iff_matches' s []).mpr (hnil ▸ hb)
            have hempty : s.rmatch [] = s.matchEpsilon := rfl
            rw [hempty, hne] at hmatch
            cases hmatch
          · rw [hlast] at hc
            exact ihr hr a ha c hc
  | star r ih =>
      intro x hx c hc
      obtain ⟨parts, rfl, hparts⟩ := Language.mem_kstar.mp hx
      induction parts with
      | nil => cases hc
      | cons part parts ihparts =>
          rw [List.flatten_cons, List.getLast?_append] at hc
          cases hlast : parts.flatten.getLast? with
          | some d =>
              rw [hlast] at hc
              have hrest : ∀ y ∈ parts, y ∈ r.matches' :=
                fun y hy => hparts y (List.mem_cons_of_mem part hy)
              exact ihparts hrest (Language.mem_kstar.mpr ⟨parts, rfl, hrest⟩)
                (by rw [hlast]; exact hc)
          | none =>
              rw [hlast] at hc
              exact ih h part (hparts part List.mem_cons_self) c hc

theorem lastChars_charClass {P : Char → Bool} {chars : List Char}
    (h : ∀ c ∈ chars, P c = true) : LastChars P (charClass chars) := by
  unfold charClass
  induction chars with
  | nil => trivial
  | cons c chars ih =>
      exact ⟨h c List.mem_cons_self, ih fun d hd => h d (List.mem_cons_of_mem _ hd)⟩

/-- The name of a type does not end in a blank. -/
theorem lastChars_sqlTypeName : LastChars (· ≠ ' ') sqlTypeName := by
  have hletter : LastChars (· ≠ ' ') letter := lastChars_charClass (by decide)
  have hrest : LastChars (· ≠ ' ') (charClass (uppercase ++ lowercase ++ digits ++ ['_'])) :=
    lastChars_charClass (by decide)
  have hdots : LastChars (· ≠ ' ') (charClass (uppercase ++ lowercase ++ digits ++ ['_', '.'])) :=
    lastChars_charClass (by decide)
  have hword : (RegularExpression.comp letter
      (.star (charClass (uppercase ++ lowercase ++ digits ++ ['_'])))).matchEpsilon = false := by
    decide
  exact ⟨⟨⟨⟨hrest, .inr hletter⟩, .inl hword⟩, .inr hdots⟩, .inr hletter⟩

/-- **In an accepted type no parenthesis stands after a blank**, so no type reads as
a condition. -/
theorem no_blank_parenthesis {text : List Char} (h : sqlTypePattern.rmatch text = true) :
    ¬ [' ', '('] <:+: text := by
  obtain ⟨u, p, v, rfl, hname, hu, hv, hp⟩ := sqlType_parts h
  have hfree : ∀ {l : List Char}, (∀ c ∈ l, isPlain c = true) → '(' ∉ l := by
    intro l hl hmem
    exact absurd (hl '(' hmem) (by decide)
  intro hparen
  obtain ⟨a, b, hsplit⟩ := hparen
  have hmem : '(' ∈ u ++ p ++ v := by
    rw [← hsplit]
    simp
  rcases hp with rfl | ⟨y, rfl, hy⟩
  · rw [List.append_nil, List.mem_append] at hmem
    rcases hmem with hmem | hmem
    · exact hfree hu hmem
    · exact hfree hv hmem
  · -- the parenthesis is the only one, so the blank would end the name
    have hy' : '(' ∉ y := fun hmem => absurd (hy '(' hmem) (by decide)
    have hcount := congrArg (List.count '(') hsplit
    have hend : List.count '(' [')'] = 0 := by decide
    have hblank : List.count '(' [' ', '('] = 1 := by decide
    simp only [List.count_append, List.count_cons_self, hblank, hend,
      List.count_eq_zero.mpr (hfree hu), List.count_eq_zero.mpr (hfree hv),
      List.count_eq_zero.mpr hy'] at hcount
    have ha : '(' ∉ a ++ [' '] := by
      rw [List.mem_append, not_or]
      exact ⟨List.count_eq_zero.mp (by omega), by decide⟩
    have heq : a ++ [' '] ++ '(' :: b = u ++ '(' :: (y ++ [')'] ++ v) := by
      simpa using hsplit
    obtain ⟨hlast, -⟩ := Separators.eq_of_append_cons_eq ha (hfree hu) heq
    have hne := last_of_matches lastChars_sqlTypeName u hname ' ' (by rw [← hlast]; simp)
    exact absurd hne (by decide)

theorem not_infix_of_not_mem {text : List Char} (h : '(' ∉ text) : ¬ [' ', '('] <:+: text :=
  fun hparen => h (hparen.subset (by simp))

theorem varchar_parenthesis {n : Int} (hn : 0 < n) :
    ¬ [' ', '('] <:+: ("varchar(" ++ toString n ++ ")").toList := by
  obtain ⟨k, rfl⟩ := Int.eq_ofNat_of_zero_le hn.le
  have hdigits : ' ' ∉ (toString (k : Int)).toList := by
    show ' ' ∉ k.repr.toList
    intro hmem
    rw [Nat.toList_repr] at hmem
    exact absurd (Nat.isDigit_of_mem_toDigits (by decide) (by decide) hmem) (by decide)
  intro hparen
  have hmem : ' ' ∈ ("varchar(" ++ toString (k : Int) ++ ")").toList := hparen.subset (by simp)
  rw [String.toList_append, String.toList_append, List.mem_append, List.mem_append] at hmem
  rcases hmem with (hmem | hmem) | hmem
  · exact absurd hmem (by decide)
  · exact hdigits hmem
  · exact absurd hmem (by decide)

/-- The type of a checked column on PostgreSQL. -/
theorem postgresType_parenthesis {field : Field} (hf : CheckedField field) {type : String}
    (h : postgresType field = .ok type) : ¬ [' ', '('] <:+: type.toList := by
  unfold postgresType at h
  split at h
  next t ht =>
    obtain rfl := Except.ok.inj h
    exact no_blank_parenthesis (hf.postgresType _ (Option.filter_eq_some_iff.mp ht).1)
  next =>
    dsimp only at h
    split at h
    · -- a string column, by its format and its length
      split_ifs at h
      · cases h; exact not_infix_of_not_mem (by decide)
      · cases h; exact not_infix_of_not_mem (by decide)
      · split at h
        next n hn =>
          split_ifs at h
          · cases h; exact varchar_parenthesis (hf.maxLength n hn)
          · cases h; exact not_infix_of_not_mem (by decide)
        next => cases h; exact not_infix_of_not_mem (by decide)
    · cases h
      split_ifs <;> exact not_infix_of_not_mem (by decide)
    all_goals first
      | (cases h; exact not_infix_of_not_mem (by decide))
      | cases h

/-- The type of a checked column in either dialect. -/
theorem columnType_parenthesis {dialect : Dialect} {field : Field} (hf : CheckedField field)
    {type : String} (h : columnType dialect field = .ok type) :
    ¬ [' ', '('] <:+: type.toList := by
  cases dialect with
  | postgres => exact postgresType_parenthesis hf h
  | sqlite =>
      obtain rfl := Except.ok.inj (show Except.ok (sqliteType field) = _ from h)
      unfold sqliteType
      split
      next t ht =>
        exact no_blank_parenthesis (hf.sqliteType t (Option.filter_eq_some_iff.mp ht).1)
      next => split_ifs <;> exact not_infix_of_not_mem (by decide)

/-! ## §4. Clauses. -/

/-- A column is its head and then its parts, each after a blank. -/
theorem sqlColumn_eq {model : Model} {dialect : Dialect} {field : Field} {sql : Sql}
    (h : sqlColumn model dialect field = .ok sql) :
    ∃ type parts, columnType dialect field = .ok type
      ∧ referencePieces model field.property.db.references = .ok parts
      ∧ sql = .text ("  " ++ field.column ++ " " ++ type)
          :: ((plainParts dialect field).flatMap (prepend " ") ++ parts.flatMap (prepend " ")) := by
  simp only [sqlColumn, do_eq_ok, pure_eq_ok] at h
  obtain ⟨type, htype, parts, hparts, rfl⟩ := h
  refine ⟨type, parts, htype, hparts, ?_⟩
  rw [← List.flatMap_append]
  rfl

/-- The reference of a column, wherever the column stands among the clauses. -/
theorem readReference_sqlColumn {model : Model} {dialect : Dialect} {field : Field} {sql : Sql}
    (hmodel : ∀ e ∈ model.entities, CheckedEntity e)
    (h : sqlColumn model dialect field = .ok sql) :
    sql.filterMap readReference = (resolveReference model field).toList.map targetNames
      ∧ (prepend ",\n" sql).filterMap readReference
          = (resolveReference model field).toList.map targetNames := by
  obtain ⟨type, parts, _, hparts, rfl⟩ := sqlColumn_eq h
  have hplain : ((plainParts dialect field).flatMap (prepend " ")).filterMap readReference = [] :=
    read_plainParts dialect field (.inl (by decide)) (by decide) (by decide) (by decide)
  have hhead : readReference (.text ("  " ++ field.column ++ " " ++ type)) = none := by
    rw [String.append_assoc, String.append_assoc]
    exact readReference_apart 2 (by decide)
  have hlater : readReference (.text (",\n" ++ ("  " ++ field.column ++ " " ++ type))) = none :=
    readNamed_apart 1 (by decide)
  constructor
  · rw [List.filterMap_cons_none hhead, List.filterMap_append, hplain, List.nil_append,
      readReference_referencePieces hmodel hparts]
  · show (Piece.text _ :: _).filterMap readReference = _
    rw [List.filterMap_cons_none hlater, List.filterMap_append, hplain, List.nil_append,
      readReference_referencePieces hmodel hparts]

/-- A column reads as no constraint, not even one named `constraint`. -/
theorem readConstraint_sqlColumn {model : Model} {dialect : Dialect} {field : Field} {sql : Sql}
    (hf : CheckedField field) (h : sqlColumn model dialect field = .ok sql) :
    sql.filterMap readConstraint = [] ∧ (prepend ",\n" sql).filterMap readConstraint = [] := by
  obtain ⟨type, parts, htype, hparts, rfl⟩ := sqlColumn_eq h
  have hplain : ((plainParts dialect field).flatMap (prepend " ")).filterMap readConstraint = [] :=
    read_plainParts dialect field (.inr (by decide)) (by decide) (by decide) (by decide)
  have hhead : readConstraint (.text ("  " ++ field.column ++ " " ++ type)) = none := by
    rw [String.append_assoc, String.append_assoc]
    exact readConstraint_apart 1 (by decide)
  have hlater : readConstraint (.text (",\n" ++ ("  " ++ field.column ++ " " ++ type))) = none := by
    rw [Option.eq_none_iff_forall_ne_some]
    intro read hread
    -- the text after the column's name would be ` check (` inside its type
    have hs := eq_of_readNamed hread
    have hfront : ",\n  constraint ".toList = ",\n  ".toList ++ ("constraint".toList ++ [' ']) := by
      decide
    have hback : " check (".toList = " check".toList ++ [' ', '('] := by decide
    have hcomma : ",\n".toList ++ "  ".toList = ",\n  ".toList := by decide
    have hcolumn := blank_of_isIdentifier hf.column
    simp only [String.toList_append, hfront, hback, List.append_assoc] at hs
    rw [← List.append_assoc ",\n".toList, hcomma, List.append_cancel_left_eq] at hs
    obtain ⟨-, htail⟩ := Separators.eq_of_append_cons_eq hcolumn
      (show ' ' ∉ "constraint".toList by decide) hs
    have htype' : type.toList
        = read.1.toList ++ (" check".toList ++ ([' ', '('] ++ read.2.toList)) := htail
    refine columnType_parenthesis hf htype ⟨read.1.toList ++ " check".toList, read.2.toList, ?_⟩
    rw [htype']
    simp only [List.append_assoc]
  constructor
  · rw [List.filterMap_cons_none hhead, List.filterMap_append, hplain, List.nil_append,
      readConstraint_referencePieces hparts]
  · show (Piece.text _ :: _).filterMap readConstraint = _
    rw [List.filterMap_cons_none hlater, List.filterMap_append, hplain, List.nil_append,
      readConstraint_referencePieces hparts]

/-- The name of the constraint of an enum. -/
def enumCheckName (entity : Entity) (field : Field) : String :=
  entity.table ++ "_" ++ field.column ++ "_chk"

/-- The condition of the constraint of an enum, with its closing parenthesis. -/
def enumCondition (field : Field) : String :=
  field.column ++ " in (" ++ String.intercalate ", " (field.property.enum.map sqlLiteral) ++ "))"

/-- The constraints of an entity: the enums of its fields, then its checks. -/
def emittedConstraints (entity : Entity) : List (String × String) :=
  (entity.fields.filter (·.property.enum ≠ [])).map
      (fun field => (enumCheckName entity field, enumCondition field))
    ++ entity.checks.map (fun check => (check.name, ""))

/-- An enum clause reads as its constraint and as no reference. -/
theorem read_enumCheck {entity : Entity} (hentity : CheckedEntity entity) {field : Field}
    (hf : CheckedField field) :
    ((enumCheck entity field).flatMap fun c => (prepend ",\n" c).filterMap readConstraint)
        = (if field.property.enum ≠ [] then [(enumCheckName entity field, enumCondition field)]
            else [])
      ∧ ((enumCheck entity field).flatMap fun c => (prepend ",\n" c).filterMap readReference)
        = [] := by
  unfold enumCheck
  by_cases henum : field.property.enum = []
  · rw [if_pos henum, if_neg (not_not.mpr henum)]
    exact ⟨rfl, rfl⟩
  · rw [if_neg henum, if_pos henum]
    have hblank : ' ' ∉ (enumCheckName entity field).toList := by
      have htable := blank_of_isIdentifier hentity.table
      have hcolumn := blank_of_isIdentifier hf.column
      simp only [enumCheckName, String.toList_append, List.mem_append, not_or]
      exact ⟨⟨⟨htable, by decide⟩, hcolumn⟩, by decide⟩
    -- the name ends at the first blank, which is the emitter's own
    have hread : readConstraint (.text (",\n" ++ ("  constraint " ++ entity.table ++ "_"
        ++ field.column ++ "_chk check (" ++ field.column ++ " in ("
        ++ String.intercalate ", " (field.property.enum.map sqlLiteral) ++ "))")))
          = some (enumCheckName entity field, enumCondition field) := by
      refine readNamed_eq ?_ hblank (by decide)
      have hfront : ",\n  constraint ".toList = ",\n".toList ++ "  constraint ".toList := by decide
      have hmiddle : "_chk check (".toList = "_chk".toList ++ " check (".toList := by decide
      simp only [String.toList_append, enumCheckName, enumCondition, hfront, hmiddle,
        List.append_assoc]
    have hother : readReference (.text (",\n" ++ ("  constraint " ++ entity.table ++ "_"
        ++ field.column ++ "_chk check (" ++ field.column ++ " in ("
        ++ String.intercalate ", " (field.property.enum.map sqlLiteral) ++ "))"))) = none :=
      readReference_apart 1 (by decide)
    simp only [List.flatMap_cons, List.flatMap_nil, List.append_nil, prepend]
    rw [List.filterMap_cons_some hread, List.filterMap_cons_none hother]
    exact ⟨rfl, rfl⟩

/-- The clause of an explicit check. -/
def checkClause (check : CheckDef) : Sql :=
  [.text ("  constraint " ++ check.name ++ " check ("), .fragment .check check.expression,
    .text ")"]

/-- So does the clause of an explicit check. -/
theorem read_checkClause {check : CheckDef} (hname : isIdentifier check.name = true) :
    (prepend ",\n" (checkClause check)).filterMap readConstraint = [(check.name, "")]
      ∧ (prepend ",\n" (checkClause check)).filterMap readReference = [] := by
  have hread : readConstraint (.text (",\n" ++ ("  constraint " ++ check.name ++ " check (")))
      = some (check.name, "") := by
    refine readNamed_eq ?_ (blank_of_isIdentifier hname) (by decide)
    have hfront : ",\n  constraint ".toList = ",\n".toList ++ "  constraint ".toList := by decide
    have hempty : "".toList = [] := rfl
    simp only [String.toList_append, hfront, hempty, List.append_assoc, List.append_nil]
  have hother : readReference (.text (",\n" ++ ("  constraint " ++ check.name ++ " check (")))
      = none := readReference_apart 1 (by decide)
  have hclose : readConstraint (.text (")" ++ "")) = none := readConstraint_apart 1 (by decide)
  have hclose' : readReference (.text (")" ++ "")) = none := readReference_apart 1 (by decide)
  rw [String.append_empty] at hclose hclose'
  simp only [checkClause, prepend]
  rw [List.filterMap_cons_some hread, List.filterMap_cons_none rfl,
    List.filterMap_cons_none hclose, List.filterMap_cons_none hother,
    List.filterMap_cons_none rfl, List.filterMap_cons_none hclose']
  exact ⟨rfl, rfl⟩

/-- The clause of a primary key reads as nothing. -/
theorem read_primaryKey (columns : String) :
    readReference (.text ("  primary key (" ++ columns ++ ")")) = none
      ∧ readReference (.text (",\n" ++ ("  primary key (" ++ columns ++ ")"))) = none
      ∧ readConstraint (.text ("  primary key (" ++ columns ++ ")")) = none
      ∧ readConstraint (.text (",\n" ++ ("  primary key (" ++ columns ++ ")"))) = none := by
  have hshape : ",\n" ++ ("  primary key (" ++ columns ++ ")")
      = ",\n  primary key (" ++ (columns ++ ")") := by
    have hcomma : ",\n  primary key (" = ",\n" ++ "  primary key (" := by decide
    rw [hcomma]
    simp only [String.append_assoc]
  rw [hshape, String.append_assoc]
  exact ⟨readReference_apart 2 (by decide), readReference_apart 1 (by decide),
    readConstraint_apart 1 (by decide), readConstraint_apart 5 (by decide)⟩

/-- Reading joined clauses: the first may stand without its separator. -/
theorem filterMap_join {read : Piece → Option (String × String)} {clauses : List Sql}
    (hfirst : ∀ c ∈ clauses.head?, c.filterMap read = (prepend ",\n" c).filterMap read) :
    (join ",\n" clauses).filterMap read
      = clauses.flatMap fun c => (prepend ",\n" c).filterMap read := by
  cases clauses with
  | nil => rfl
  | cons c clauses =>
      show (c ++ clauses.flatMap (prepend ",\n")).filterMap read = _
      rw [List.filterMap_append, hfirst c rfl, List.flatMap_cons, List.filterMap_flatMap]

/-- Reading the clauses of a table: the primary key reads as nothing, first or not. -/
theorem filterMap_clauses {read : Piece → Option (String × String)} {columns rest : List Sql}
    {key : String}
    (hcolumn : ∀ c ∈ columns, c.filterMap read = (prepend ",\n" c).filterMap read)
    (hkey : read (.text ("  primary key (" ++ key ++ ")")) = none)
    (hkey' : read (.text (",\n" ++ ("  primary key (" ++ key ++ ")"))) = none) :
    (join ",\n" (columns ++ [[.text ("  primary key (" ++ key ++ ")")]] ++ rest)).filterMap read
      = (columns ++ rest).flatMap fun c => (prepend ",\n" c).filterMap read := by
  rw [filterMap_join, List.flatMap_append, List.flatMap_append, List.flatMap_append,
    List.flatMap_singleton]
  · show _ ++ [Piece.text _].filterMap read ++ _ = _
    rw [List.filterMap_cons_none hkey', List.filterMap_nil, List.append_nil]
  · intro c hc
    cases columns with
    | nil =>
        obtain rfl := Option.some.inj hc
        show [Piece.text _].filterMap _ = [Piece.text _].filterMap _
        rw [List.filterMap_cons_none hkey, List.filterMap_cons_none hkey']
    | cons column columns =>
        obtain rfl := Option.some.inj hc
        exact hcolumn column List.mem_cons_self

/-- The clauses of a table: its columns, its primary key, its enums, its checks. -/
theorem tableClauses_eq {model : Model} {dialect : Dialect} {entity : Entity} {clauses : List Sql}
    (h : tableClauses model dialect entity = .ok clauses) :
    ∃ columns key, entity.fields.mapM (sqlColumn model dialect) = .ok columns
      ∧ clauses = columns ++ [[.text ("  primary key (" ++ key ++ ")")]]
          ++ entity.fields.flatMap (enumCheck entity) ++ entity.checks.map checkClause := by
  simp only [tableClauses, do_eq_ok, pure_eq_ok] at h
  obtain ⟨columns, hcolumns, key, _, rfl⟩ := h
  exact ⟨columns, String.intercalate ", " key, hcolumns, rfl⟩

/-- **The foreign keys of a table**, read off its clauses. -/
theorem references_clauses {model : Model} {dialect : Dialect} {entity : Entity}
    {clauses : List Sql} (hmodel : ∀ e ∈ model.entities, CheckedEntity e)
    (hentity : CheckedEntity entity) (h : tableClauses model dialect entity = .ok clauses) :
    (join ",\n" clauses).filterMap readReference
      = entity.fields.flatMap fun f => (resolveReference model f).toList.map targetNames := by
  obtain ⟨columns, key, hcolumns, rfl⟩ := tableClauses_eq h
  have hkey := read_primaryKey key
  have hcolumn : ∀ c ∈ columns, c.filterMap readReference
      = (prepend ",\n" c).filterMap readReference := by
    intro c hc
    obtain ⟨field, _, hsql⟩ := exists_of_mapM hcolumns c hc
    have hread := readReference_sqlColumn hmodel hsql
    rw [hread.1, hread.2]
  have henums : (entity.fields.flatMap (enumCheck entity)).flatMap
      (fun c => (prepend ",\n" c).filterMap readReference) = [] := by
    rw [List.flatMap_assoc, List.flatMap_eq_nil_iff]
    exact fun field hfield => (read_enumCheck hentity (hentity.fields field hfield)).2
  have hchecks : (entity.checks.map checkClause).flatMap
      (fun c => (prepend ",\n" c).filterMap readReference) = [] := by
    rw [List.flatMap_map, List.flatMap_eq_nil_iff]
    exact fun check hcheck => (read_checkClause (hentity.checks check hcheck).1).2
  -- only the columns have references
  rw [List.append_assoc, filterMap_clauses hcolumn hkey.1 hkey.2.1, List.flatMap_append,
    List.flatMap_append, henums, hchecks, List.append_nil, List.append_nil]
  exact flatMap_of_mapM hcolumns fun field _ sql hsql => (readReference_sqlColumn hmodel hsql).2

/-- **The constraints of a table**, read off its clauses. -/
theorem constraints_clauses {model : Model} {dialect : Dialect} {entity : Entity}
    {clauses : List Sql} (hentity : CheckedEntity entity)
    (h : tableClauses model dialect entity = .ok clauses) :
    (join ",\n" clauses).filterMap readConstraint = emittedConstraints entity := by
  obtain ⟨columns, key, hcolumns, rfl⟩ := tableClauses_eq h
  have hkey := read_primaryKey key
  have hcolumn : ∀ c ∈ columns,
      c.filterMap readConstraint = [] ∧ (prepend ",\n" c).filterMap readConstraint = [] := by
    intro c hc
    obtain ⟨field, hfield, hsql⟩ := exists_of_mapM hcolumns c hc
    exact readConstraint_sqlColumn (hentity.fields field hfield) hsql
  -- the enums by induction on the fields, as the emitter walks them
  have henums : (entity.fields.flatMap (enumCheck entity)).flatMap
      (fun c => (prepend ",\n" c).filterMap readConstraint)
        = (entity.fields.filter (·.property.enum ≠ [])).map
          (fun field => (enumCheckName entity field, enumCondition field)) := by
    rw [List.flatMap_assoc]
    have hfields := hentity.fields
    generalize entity.fields = fields at hfields ⊢
    induction fields with
    | nil => rfl
    | cons field fields ih =>
        have hrest := ih fun f hf => hfields f (List.mem_cons_of_mem field hf)
        rw [List.flatMap_cons, hrest,
          (read_enumCheck hentity (hfields field List.mem_cons_self)).1]
        by_cases henum : field.property.enum = []
        · rw [if_neg (not_not.mpr henum), List.filter_cons_of_neg (by simpa using henum)]
          rfl
        · rw [if_pos henum, List.filter_cons_of_pos (by simpa using henum)]
          rfl
  have hchecks : (entity.checks.map checkClause).flatMap
      (fun c => (prepend ",\n" c).filterMap readConstraint)
        = entity.checks.map (fun check => (check.name, "")) := by
    rw [List.flatMap_map, List.map_eq_flatMap]
    exact List.flatMap_congr fun check hcheck =>
      (read_checkClause (hentity.checks check hcheck).1).1
  rw [List.append_assoc, filterMap_clauses
      (fun c hc => (hcolumn c hc).1.trans (hcolumn c hc).2.symm) hkey.2.2.1 hkey.2.2.2,
    List.flatMap_append, List.flatMap_append, henums, hchecks,
    List.flatMap_eq_nil_iff.mpr fun c hc => (hcolumn c hc).2, List.nil_append]
  rfl

end ClipTown.SchemaOrm
