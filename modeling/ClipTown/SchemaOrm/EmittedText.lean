/-
  ClipTown.SchemaOrm.EmittedText — the emitter's own text closes what it opens.

  Names, types, literals and keywords that `generateSql` puts around the
  fragments of a checked schema are enclosed texts: they end no statement and
  leave no quote, comment or parenthesis open.
-/
import ClipTown.SchemaOrm.Sql

namespace ClipTown.SchemaOrm

open SqlLexer DdlOutline

/-! ## §1. Plain texts. -/

/-- The nesting of a string, with free commas. -/
def NestsText (d d' : Nat) (s : String) : Prop := Nests true d d' s.toList

/-- A string that closes what it opens. -/
abbrev EnclosedText (s : String) : Prop := NestsText 0 0 s

/-- The string starts with a separator. -/
def StartsApart (s : String) : Prop := ∀ c ∈ s.toList.head?, isSeparator c = true

/-- The string ends with a separator. -/
def EndsApart (s : String) : Prop := ∀ c ∈ s.toList.getLast?, isSeparator c = true

instance (s : String) : Decidable (StartsApart s) := by
  unfold StartsApart; infer_instance

instance (s : String) : Decidable (EndsApart s) := by
  unfold EndsApart; infer_instance

theorem NestsText.append {d d' d'' : Nat} {a b : String} (h : EndsApart a ∨ StartsApart b)
    (ha : NestsText d d' a) (hb : NestsText d' d'' b) : NestsText d d'' (a ++ b) := by
  unfold NestsText
  rw [String.toList_append]
  exact Nests.append h ha hb

/-- The check of a text of the emitter's own, without quotes and comments. -/
def nestsBare (d d' : Nat) (s : String) : Bool :=
  s.toList.all (fun c => c ≠ '\'' && c ≠ '"' && c ≠ '/' && c ≠ ';')
    && !decide (['-', '-'] <:+: s.toList)
    && level true d (s.toList.filterMap fun c => bracketOf (.char c)) = some d'

theorem nestsText_of_bare {d d' : Nat} {s : String} (h : nestsBare d d' s = true) :
    NestsText d d' s := by
  simp only [nestsBare, Bool.and_eq_true, List.all_eq_true, Bool.not_eq_true',
    decide_eq_false_iff_not, decide_eq_true_eq] at h
  obtain ⟨⟨hchars, hdash⟩, hlevel⟩ := h
  apply nests_bare
  · exact fun c hc => ⟨(hchars c hc).1.1.1, (hchars c hc).1.1.2, (hchars c hc).1.2⟩
  · exact hdash
  · exact fun hterm => (hchars ';' hterm).2 rfl
  · exact hlevel

/-- The same check of a text with quotes. -/
def nestsQuoted (d d' : Nat) (text : List Char) : Bool :=
  modeAfter text = .code false && !(items text).contains (.char ';')
    && level true d (brackets (items text)) = some d'

theorem nestsText_of_quoted {d d' : Nat} {s : String} (h : nestsQuoted d d' s.toList = true) :
    NestsText d d' s := by
  simp only [nestsQuoted, Bool.and_eq_true, decide_eq_true_eq, Bool.not_eq_true',
    List.contains_eq_mem, decide_eq_false_iff_not] at h
  exact ⟨⟨false, h.1.1⟩, h.1.2, h.2⟩

theorem plain_name : ∀ c ∈ lowercase ++ digits ++ ['_'], isPlain c = true := by decide

theorem name_of_isIdentifier {s : String} (h : isIdentifier s = true) :
    s.toList ≠ [] ∧ ∀ c ∈ s.toList, c ∈ lowercase ++ digits ++ ['_'] := by
  unfold isIdentifier at h
  split at h
  · cases h
  next c rest hs =>
    simp only [Bool.and_eq_true, Bool.or_eq_true, decide_eq_true_eq, beq_iff_eq,
      List.all_eq_true] at h
    rw [hs]
    refine ⟨List.cons_ne_nil _ _, ?_⟩
    intro d hd
    rcases List.mem_cons.mp hd with rfl | hd
    · rcases h.1 with hlow | rfl
      · exact List.mem_append_left _ (List.mem_append_left _ hlow)
      · decide
    · exact h.2 d hd

theorem enclosed_identifier {s : String} (h : isIdentifier s = true) : EnclosedText s :=
  enclosed_plain fun c hc => plain_name c ((name_of_isIdentifier h).2 c hc)

/-! ## §2. Types. -/

/-- The characters a regular expression can match. -/
def AllChars (P : Char → Bool) : RegularExpression Char → Prop
  | .zero => True
  | .epsilon => True
  | .char a => P a = true
  | .plus r s => AllChars P r ∧ AllChars P s
  | .comp r s => AllChars P r ∧ AllChars P s
  | .star r => AllChars P r

theorem forall_of_matches {P : Char → Bool} {r : RegularExpression Char} (h : AllChars P r) :
    ∀ s ∈ r.matches', ∀ c ∈ s, P c = true := by
  induction r with
  | zero => intro s hs; exact absurd hs id
  | epsilon =>
      intro s hs c hc
      rw [show s = [] from hs] at hc
      cases hc
  | char a =>
      intro s hs c hc
      rw [show s = [a] from hs, List.mem_singleton] at hc
      exact hc ▸ h
  | plus r s ihr ihs =>
      intro x hx
      rcases hx with hx | hx
      · exact ihr h.1 x hx
      · exact ihs h.2 x hx
  | comp r s ihr ihs =>
      intro x hx c hc
      obtain ⟨a, ha, b, hb, rfl⟩ := Language.mem_mul.mp hx
      rcases List.mem_append.mp hc with hc | hc
      · exact ihr h.1 a ha c hc
      · exact ihs h.2 b hb c hc
  | star r ih =>
      intro x hx c hc
      obtain ⟨parts, rfl, hparts⟩ := Language.mem_kstar.mp hx
      obtain ⟨part, hpart, hcpart⟩ := List.mem_flatten.mp hc
      exact ih h part (hparts part hpart) c hcpart

theorem allChars_charClass {P : Char → Bool} {chars : List Char}
    (h : ∀ c ∈ chars, P c = true) :
    AllChars P (charClass chars) := by
  unfold charClass
  induction chars with
  | nil => trivial
  | cons c chars ih =>
      exact ⟨h c List.mem_cons_self, ih fun d hd => h d (List.mem_cons_of_mem _ hd)⟩

/-- The inside of a type's parentheses. -/
def isArgument (c : Char) : Bool := isPlain c || c == ','

/-- **An accepted type** is plain text around at most one pair of parentheses. -/
theorem sqlType_parts {text : List Char} (h : sqlTypePattern.rmatch text = true) :
    ∃ u p v, text = u ++ p ++ v ∧ u ∈ sqlTypeName.matches'
      ∧ (∀ c ∈ u, isPlain c = true) ∧ (∀ c ∈ v, isPlain c = true)
      ∧ (p = [] ∨ ∃ y, p = '(' :: (y ++ [')']) ∧ ∀ c ∈ y, isArgument c = true) := by
  rw [RegularExpression.rmatch_iff_matches'] at h
  obtain ⟨u, hu, rest, hrest, rfl⟩ := Language.mem_mul.mp h
  obtain ⟨p, hp, v, hv, rfl⟩ := Language.mem_mul.mp hrest
  refine ⟨u, p, v, by rw [List.append_assoc], hu, ?_, ?_, ?_⟩
  · apply forall_of_matches (r := sqlTypeName) _ u hu
    refine ⟨allChars_charClass (by decide), allChars_charClass (by decide), ?_⟩
    exact ⟨⟨allChars_charClass (by decide), allChars_charClass (by decide)⟩,
      allChars_charClass (by decide), allChars_charClass (by decide)⟩
  · apply forall_of_matches (r := .star (.comp (.char '[') (.char ']'))) _ v hv
    exact ⟨rfl, rfl⟩
  · rcases hp with hnil | hp
    · exact .inl hnil
    · right
      obtain ⟨a, ha, q, hq, rfl⟩ := Language.mem_mul.mp hp
      obtain ⟨y, hy, b, hb, rfl⟩ := Language.mem_mul.mp hq
      rw [show a = ['('] from ha, show b = [')'] from hb]
      refine ⟨y, rfl, ?_⟩
      apply forall_of_matches (r := sqlTypeArguments) _ y hy
      have hspace : AllChars isArgument space := allChars_charClass (by decide)
      have hnumber : AllChars isArgument number :=
        ⟨allChars_charClass (by decide), allChars_charClass (by decide)⟩
      exact ⟨hspace, hnumber, ⟨trivial, hspace, rfl, hspace, hnumber⟩, hspace⟩

theorem level_commas {cs : List Char} (h : ∀ c ∈ cs, c = ',') (d : Nat) (rest : List Char) :
    level true d (cs ++ rest) = level true d rest := by
  induction cs with
  | nil => rfl
  | cons c cs ih =>
      rw [h c List.mem_cons_self, List.cons_append, level_cons]
      simpa using ih fun e he => h e (List.mem_cons_of_mem _ he)

/-- Plain characters and commas in parentheses. -/
theorem enclosed_arguments {y : List Char} (hy : ∀ c ∈ y, isArgument c = true) :
    Enclosed true ('(' :: (y ++ [')'])) := by
  have hplain : ∀ c ∈ y, c = ',' ∨ isPlain c = true := by
    intro c hc
    have h := hy c hc
    simp only [isArgument, Bool.or_eq_true, beq_iff_eq] at h
    exact h.symm
  have hsafe : ∀ c ∈ '(' :: (y ++ [')']), c ≠ '\'' ∧ c ≠ '"' ∧ c ≠ '/' ∧ c ≠ '-' ∧ c ≠ ';' := by
    intro c hc
    simp only [List.mem_cons, List.mem_append, List.not_mem_nil, or_false] at hc
    rcases hc with rfl | hc | rfl
    · decide
    · rcases hplain c hc with rfl | hp
      · decide
      · exact ⟨ne_of_isPlain hp (by decide), ne_of_isPlain hp (by decide),
          ne_of_isPlain hp (by decide), ne_of_isPlain hp (by decide),
          ne_of_isPlain hp (by decide)⟩
    · decide
  apply nests_bare
  · exact fun c hc => ⟨(hsafe c hc).1, (hsafe c hc).2.1, (hsafe c hc).2.2.1⟩
  · intro hpair
    exact (hsafe '-' (hpair.subset (by simp))).2.2.2.1 rfl
  · exact fun hterm => (hsafe ';' hterm).2.2.2.2 rfl
  · -- between the parentheses only commas count
    have hcommas : ∀ c ∈ y.filterMap (fun c => bracketOf (.char c)), c = ',' := by
      intro c hc
      obtain ⟨a, ha, hb⟩ := List.mem_filterMap.mp hc
      change (if a = '(' ∨ a = ')' ∨ a = ',' then some a else none) = some c at hb
      split at hb
      next hbracket =>
        cases hb
        rcases hplain c ha with rfl | hp
        · rfl
        · rcases hbracket with rfl | rfl | rfl
          · exact absurd hp (by decide)
          · exact absurd hp (by decide)
          · rfl
      next => cases hb
    show level true 0 ('(' :: (y ++ [')']).filterMap _) = some 0
    rw [List.filterMap_append, level_cons, if_pos rfl, level_commas hcommas]
    rfl

theorem enclosed_sqlType {s : String} (h : sqlTypePattern.rmatch s.toList = true) :
    EnclosedText s := by
  obtain ⟨u, p, v, htext, _, hu, hv, hp⟩ := sqlType_parts h
  unfold EnclosedText NestsText
  rw [htext]
  rcases hp with rfl | ⟨y, rfl, hy⟩
  · rw [List.append_nil]
    refine enclosed_plain fun c hc => ?_
    rcases List.mem_append.mp hc with hc | hc
    · exact hu c hc
    · exact hv c hc
  · have hopen : Cut u ('(' :: (y ++ [')'])) := cut_cons (by decide) _ _
    have hclose : Cut (u ++ '(' :: (y ++ [')'])) v := by
      rw [← List.cons_append, ← List.append_assoc]
      exact cut_concat (by decide) _ _
    exact ((enclosed_plain hu).append hopen (enclosed_arguments hy)).append hclose
      (enclosed_plain hv)

/-! ## §3. Literals and actions. -/

/-- A literal is enclosed whatever it holds. -/
theorem enclosed_quoteLiteral (s : String) : EnclosedText (quoteLiteral s) := by
  have hread := lexFrom_quoted s.toList [] (by simp) false
  unfold EnclosedText NestsText quoteLiteral
  rw [String.toList_ofList]
  refine ⟨⟨false, ?_⟩, ?_, ?_⟩
  · unfold modeAfter
    rw [hread]
    rfl
  · unfold NoTerminator items
    rw [hread]
    simp
  · unfold items
    rw [hread]
    rfl

/-- A literal with a cast. -/
theorem enclosed_jsonbLiteral (s : String) : EnclosedText (quoteLiteral s ++ "::jsonb") := by
  have hread := lexFrom_quoted s.toList "::jsonb".toList (by decide) false
  have htext : (quoteLiteral s ++ "::jsonb").toList
      = '\'' :: (doubled s.toList ++ '\'' :: "::jsonb".toList) := by
    simp [quoteLiteral]
  unfold EnclosedText NestsText
  rw [htext]
  refine ⟨⟨true, ?_⟩, ?_, ?_⟩
  · unfold modeAfter
    rw [hread]
    decide
  · unfold NoTerminator items
    rw [hread]
    decide
  · unfold items
    rw [hread]
    decide

theorem enclosed_number (n : NumberText) : EnclosedText n.text := by
  have hsafe : ∀ c ∈ n.text.toList, c ≠ '\'' ∧ c ≠ '"' ∧ c ≠ '/' ∧ c ≠ ';' ∧
      bracketOf (.char c) = none := by
    have hall : ∀ c ∈ digits ++ ['.', 'e', '+', '-'], c ≠ '\'' ∧ c ≠ '"' ∧ c ≠ '/' ∧ c ≠ ';' ∧
        bracketOf (.char c) = none := by decide
    exact fun c hc => hall c (n.alphabet c hc)
  apply nests_bare
  · exact fun c hc => ⟨(hsafe c hc).1, (hsafe c hc).2.1, (hsafe c hc).2.2.1⟩
  · exact n.oneSign
  · exact fun hterm => (hsafe ';' hterm).2.2.2.1 rfl
  · rw [List.filterMap_eq_nil_iff.mpr fun c hc => (hsafe c hc).2.2.2.2]
    rfl

theorem enclosed_sqlLiteral (value : Value) : EnclosedText (sqlLiteral value) := by
  cases value with
  | string s => exact enclosed_quoteLiteral s
  | boolean b => cases b <;> exact enclosed_plain (by decide)
  | number n => exact enclosed_number n
  | null => exact enclosed_plain (by decide)
  | other stringified => exact enclosed_jsonbLiteral stringified

/-- A safe action is plain text in either case. -/
theorem enclosed_action {a : String}
    (h : String.ofList (a.toList.map toLowerCase) ∈ safeActions) : EnclosedText a := by
  apply enclosed_plain
  intro c hc
  have hmem : toLowerCase c ∈ safeActions.flatMap String.toList := by
    refine List.mem_flatMap.mpr ⟨_, h, ?_⟩
    rw [String.toList_ofList]
    exact List.mem_map_of_mem hc
  by_contra hplain
  -- a character that is not plain is its own lower case, and in no action
  have hspecial : c ∈ special := by simpa [isPlain] using hplain
  have hlower : ∀ d ∈ special, toLowerCase d ∉ safeActions.flatMap String.toList := by decide
  exact hlower c hspecial hmem

/-! ## §4. Lists and types. -/

theorem endsApart_append {a b : String} (hb : b ≠ "") (h : EndsApart b) : EndsApart (a ++ b) := by
  unfold EndsApart
  rw [String.toList_append, List.getLast?_append_of_ne_nil _ (by simpa using hb)]
  exact h

theorem startsApart_append {a b : String} (ha : a ≠ "") (h : StartsApart a) :
    StartsApart (a ++ b) := by
  unfold StartsApart
  rw [String.toList_append, List.head?_append_of_ne_nil _ (by simpa using ha)]
  exact h

/-- A list of enclosed texts. -/
theorem enclosed_intercalate {texts : List String} (h : ∀ s ∈ texts, EnclosedText s) :
    EnclosedText (String.intercalate ", " texts) := by
  unfold EnclosedText NestsText
  rw [String.toList_intercalate]
  induction texts with
  | nil => exact enclosed_plain (by simp)
  | cons s texts ih =>
      have hs : Nests true 0 0 s.toList := h s List.mem_cons_self
      have hrest := ih fun t ht => h t (List.mem_cons_of_mem _ ht)
      cases texts with
      | nil => simpa using hs
      | cons t texts =>
          rw [List.map_cons, List.map_cons, List.intercalate_cons_cons]
          have hleft : Nests true 0 0 (s.toList ++ [',', ' ']) :=
            hs.append (cut_cons (by decide) _ _)
              (nests_bare (by decide) (by decide) (by decide) (by decide))
          refine Nests.append ?_ hleft hrest
          show Cut (s.toList ++ [',', ' ']) _
          rw [show s.toList ++ [',', ' '] = (s.toList ++ [',']) ++ [' '] by simp]
          exact cut_concat (by decide) _ _

theorem enclosed_nat (n : Nat) : EnclosedText n.repr := by
  apply enclosed_plain
  intro c hc
  rw [Nat.toList_repr] at hc
  have hdigit := Nat.isDigit_of_mem_toDigits (by decide) (by decide) hc
  have hspecial : ∀ d ∈ special, d.isDigit = false := by decide
  simp only [isPlain, decide_eq_true_eq]
  intro hmem
  rw [hspecial c hmem] at hdigit
  cases hdigit

/-- A text between parentheses of the emitter's own. -/
theorem enclosed_between {before inside after : String} (hb : NestsText 0 1 before)
    (hi : EnclosedText inside) (ha : NestsText 1 0 after) (hbefore : EndsApart before)
    (hafter : StartsApart after) : EnclosedText (before ++ inside ++ after) :=
  (hb.append (.inl hbefore) (hi.deeper 1)).append (.inr hafter) ha

theorem enclosed_varchar {n : Int} (hn : 0 < n) :
    EnclosedText ("varchar(" ++ toString n ++ ")") := by
  have hnumber : EnclosedText (toString n) := by
    rw [Int.toString_eq_repr, Int.repr_eq_if, if_pos (by omega)]
    exact enclosed_nat _
  exact enclosed_between (nestsText_of_bare (by decide)) hnumber (nestsText_of_bare (by decide))
    (by decide) (by decide)

/-- **The type of a checked column is enclosed** in either dialect. -/
theorem enclosed_columnType {dialect : Dialect} {field : Field} {type : String}
    (hf : CheckedField field) (h : columnType dialect field = .ok type) : EnclosedText type := by
  cases dialect with
  | sqlite =>
      change Except.ok (sqliteType field) = _ at h
      cases h
      unfold sqliteType
      split
      next t ht =>
        exact enclosed_sqlType (hf.sqliteType t (Option.filter_eq_some_iff.mp ht).1)
      next => split_ifs <;> exact nestsText_of_bare (by decide)
  | postgres =>
      change postgresType field = _ at h
      unfold postgresType at h
      split at h
      next t ht =>
        cases h
        exact enclosed_sqlType (hf.postgresType _ (Option.filter_eq_some_iff.mp ht).1)
      next =>
        dsimp only at h
        split at h
        · -- a string column, by its format and its length
          split_ifs at h
          · cases h; exact nestsText_of_bare (by decide)
          · cases h; exact nestsText_of_bare (by decide)
          · split at h
            next n hn =>
              split_ifs at h
              · cases h; exact enclosed_varchar (hf.maxLength n hn)
              · cases h; exact nestsText_of_bare (by decide)
            next => cases h; exact nestsText_of_bare (by decide)
        · cases h
          split_ifs <;> exact nestsText_of_bare (by decide)
        all_goals first
          | (cases h; exact nestsText_of_bare (by decide))
          | cases h

/-- The SQLite stand-in for a random identifier, literal by literal. -/
theorem enclosed_sqliteUuid : EnclosedText sqliteUuid := by
  have h1 : NestsText 0 1
      "(lower(hex(randomblob(4))) || '-' || lower(hex(randomblob(2))) || '-4' || " :=
    nestsText_of_quoted (by decide)
  have h2 : NestsText 1 1 "substr(lower(hex(randomblob(2))), 2) || '-' || " :=
    nestsText_of_quoted (by decide)
  have h3 : NestsText 1 1 "substr('89ab', abs(random()) % 4 + 1, 1) || " :=
    nestsText_of_quoted (by decide)
  have h4 : NestsText 1 0
      "substr(lower(hex(randomblob(2))), 2) || '-' || lower(hex(randomblob(6))))" :=
    nestsText_of_quoted (by decide)
  exact ((h1.append (.inl (by decide)) h2).append
    (.inl (endsApart_append (by decide) (by decide))) h3).append
    (.inl (endsApart_append (by decide) (by decide))) h4

end ClipTown.SchemaOrm
