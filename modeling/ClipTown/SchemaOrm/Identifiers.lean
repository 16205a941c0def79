/-
  ClipTown.SchemaOrm.Identifiers — the identifiers of the generated code
  (`pascalCase` to `dartName` of `tools/schema-orm/core.mjs`).

  The normalizer compares tables and columns.  The names of the generated fields,
  classes and modules are other rewritings of the schema's names, and each of
  them loses something: the characters between the words, the case of the letters
  that start a word or stand in an acronym, the end of a word that looks like a
  reserved one with its mark.

    • `pascalCase_eq_iff`, `goCandidate_eq_iff`, `snakeCaseBy_eq_iff` — what the
      rewritings lose,
    • `identifiersApart_iff` — no two fields of an entity and no two entities get
      one identifier iff no two of their names clash.
-/
import ClipTown.Lib.Acronyms
import ClipTown.Lib.SpelledNames
import ClipTown.SchemaOrm.Schema

namespace ClipTown.SchemaOrm

open SpelledNames Acronyms

/-! ## §1. The rewritings. -/

/-- `/([a-z0-9])([A-Z])/g`, by `$1 $2`. -/
def spaceCamel : List Char → List Char
  | a :: b :: rest =>
      if a ∈ lowercase ++ digits ∧ b ∈ uppercase then a :: ' ' :: spaceCamel (b :: rest)
      else a :: spaceCamel (b :: rest)
  | text => text

/-- `part.charAt(0).toUpperCase() + part.slice(1)`. -/
def upperFirst : List Char → List Char
  | [] => []
  | c :: rest => c.toUpper :: rest

/-- `p.charAt(0).toLowerCase() + p.slice(1)`. -/
def lowerFirst : List Char → List Char
  | [] => []
  | c :: rest => c.toLower :: rest

/-- `pascalCase`; the parts that are not empty are the same whether a run of other
characters splits once or often. -/
def pascalCase (value : String) : String :=
  String.ofList
    ((((spaceCamel value.toList).splitOnP fun c => !c.isAlphanum).filter (· ≠ [])).flatMap
      upperFirst)

/-- `camelCase`. -/
def camelCase (value : String) : String := String.ofList (lowerFirst (pascalCase value).toList)

/-- Nothing is asked of what follows. -/
def anything (_ : List Char) : Bool := true

/-- `(?=$|[A-Z])`. -/
def beforeCapital (text : List Char) : Bool := text.head?.all (· ∈ uppercase)

/-- The replacements of `goName`. -/
def goAcronyms (text : List Char) : List Char :=
  let text := replaceAll 'A' ['p', 'i'] anything "API".toList 0 text
  let text := replaceAll 'V' ['c', 's'] anything "VCS".toList 0 text
  let text := replaceAll 'S' ['h', 'a', '2', '5', '6'] anything "SHA256".toList 0 text
  let text := replaceAll 'U' ['r', 'l'] anything "URL".toList 0 text
  let text := replaceAll 'I' ['p'] anything "IP".toList 0 text
  replaceAll 'I' ['d'] beforeCapital "ID".toList 0 text

/-- The name of `goName` before it is compared with the reserved words. -/
def goCandidate (value : String) : String :=
  String.ofList (goAcronyms (pascalCase value).toList)

def tsReserved : List String :=
  ["class", "function", "default", "export", "import", "delete", "new", "var", "let", "const",
    "extends", "implements", "interface", "package", "private", "public", "protected", "static"]

def dartReserved : List String :=
  ["class", "enum", "extension", "mixin", "with", "on", "base", "interface", "final", "sealed",
    "when", "switch", "case", "default", "import", "export", "part"]

def goReserved : List String := ["Type", "Map", "String", "Error", "Any"]

def rustReserved : List String :=
  ["type", "match", "ref", "self", "crate", "super", "mod", "use", "enum", "struct", "fn", "impl",
    "async", "await", "move", "where", "loop", "in", "as", "dyn"]

/-- The mark of the other three languages. -/
def valueMark (word : String) : String := word ++ "Value"

/-- The mark of Rust. -/
def rawMark (word : String) : String := "r#" ++ word

/-- `tsName`. -/
def tsName (value : String) : String := reserve tsReserved valueMark (camelCase value)

/-- `dartName`. -/
def dartName (value : String) : String := reserve dartReserved valueMark (camelCase value)

/-- `goName`. -/
def goName (value : String) : String := reserve goReserved valueMark (goCandidate value)

section

variable (lower : List Char → List Char)

/-- `snakeCase`, with the `toLowerCase` of the runtime. -/
def snakeCaseBy (value : String) : String :=
  String.ofList (lower (collapse (· == '_') false
    (collapse (fun c => c ∈ '-' :: '.' :: whitespace) false (splitCamel value.toList))))

/-- `rustName`. -/
def rustName (value : String) : String := reserve rustReserved rawMark (snakeCaseBy lower value)

/-- `className` of an entity. -/
def Entity.className (entity : Entity) : String := pascalCase entity.name

/-- `module` of an entity. -/
def Entity.module_ (entity : Entity) : String := snakeCaseBy lower entity.name

end

/-- On names that can be columns it is the `snakeCase` of the normalizer. -/
theorem snakeCase_eq (value : String) :
    snakeCase value = snakeCaseBy (List.map toLowerCase) value := rfl

/-! ## §2. What `pascalCase` loses. -/

/-- Two names agree letter by letter: the other characters are left out, and so is the case
of a letter that starts a word. -/
def SpelledAlike (a b : String) : Prop :=
  List.Forall₂ Alike (letters true a.toList) (letters true b.toList)

instance : DecidableRel SpelledAlike := fun a b => by unfold SpelledAlike; infer_instance

theorem isUpper_of_mem {c : Char} (h : c ∈ uppercase) : c.toUpper = c ∧ c.isAlphanum = true := by
  have hall : ∀ c ∈ uppercase, c.toUpper = c ∧ c.isAlphanum = true := by decide
  exact hall c h

theorem isAlphanum_of_mem {c : Char} (h : c ∈ lowercase ++ digits) : c.isAlphanum = true := by
  have hall : ∀ c ∈ lowercase ++ digits, c.isAlphanum = true := by decide
  exact hall c h

/-- The letters of a text as `pascalCase` writes them. -/
def spelled (start : Bool) (text : List Char) : List Char := (letters start text).map capital

/-- The parts of a text; where none starts, the first is the end of one. -/
def writeParts : Bool → List (List Char) → List Char
  | _, [] => []
  | true, parts => (parts.filter (· ≠ [])).flatMap upperFirst
  | false, part :: parts => part ++ (parts.filter (· ≠ [])).flatMap upperFirst

/-- The parts in front of and behind the separators are the letters. -/
theorem writeParts_splitOnP (start : Bool) (text : List Char) :
    writeParts start (text.splitOnP fun c => !c.isAlphanum) = spelled start text := by
  induction text generalizing start with
  | nil => cases start <;> rfl
  | cons c text ih =>
      -- a letter goes on with the part it stands in; any other character starts a new one
      rw [List.splitOnP_cons_eq_if_modifyHead]
      by_cases hc : c.isAlphanum = true
      · have hsplit := ih false
        obtain ⟨part, parts, hparts⟩ := List.exists_cons_of_ne_nil
          (List.splitOnP_ne_nil (fun c => !c.isAlphanum) text)
        rw [hparts] at hsplit ⊢
        unfold spelled at hsplit ⊢
        rw [letters_of_letter hc, List.map_cons, ← hsplit]
        cases start with
        | true => simp [hc, writeParts, upperFirst, capital]
        | false => simp [hc, writeParts, capital]
      · have hsplit := ih true
        unfold spelled at hsplit ⊢
        rw [letters_of_other hc, ← hsplit]
        cases start with
        | true => simp [hc, writeParts]
        | false =>
            cases List.splitOnP (fun c => !c.isAlphanum) text with
            | nil => simp [hc, writeParts]
            | cons part parts => simp [hc, writeParts]

/-- A hump is a capital already, so cutting there changes nothing. -/
theorem spelled_spaceCamel (start : Bool) (text : List Char) :
    spelled start (spaceCamel text) = spelled start text := by
  unfold spelled
  fun_induction spaceCamel text generalizing start with
  | case1 a b rest h ih =>
      have ha := isAlphanum_of_mem h.1
      obtain ⟨hb, hbletter⟩ := isUpper_of_mem h.2
      have hblank : ¬ ' '.isAlphanum = true := by decide
      rw [letters_of_letter ha, letters_of_other hblank, List.map_cons, ih, letters_of_letter ha,
        letters_of_letter hbletter, letters_of_letter hbletter, List.map_cons, List.map_cons,
        List.map_cons]
      simp [capital, hb]
  | case2 a b rest h ih =>
      by_cases ha : a.isAlphanum = true
      · rw [letters_of_letter ha, List.map_cons, ih, letters_of_letter ha, List.map_cons]
      · rw [letters_of_other ha, ih, letters_of_other ha]
  | case3 text => rfl

theorem pascalCase_eq (value : String) :
    (pascalCase value).toList = spelled true value.toList := by
  unfold pascalCase
  rw [String.toList_ofList, ← spelled_spaceCamel, ← writeParts_splitOnP]
  cases List.splitOnP (fun c => !c.isAlphanum) (spaceCamel value.toList) with
  | nil => rfl
  | cons part parts => rfl

/-- **`pascalCase` keeps the letters, and nothing else.** -/
theorem pascalCase_eq_iff {a b : String} :
    pascalCase a = pascalCase b ↔ SpelledAlike a b := by
  unfold SpelledAlike
  rw [forall₂_alike, ← String.toList_inj, pascalCase_eq, pascalCase_eq]
  rfl

/-! ## §3. What `camelCase` loses. -/

theorem letters_isAlphanum (start : Bool) (text : List Char) :
    ∀ l ∈ letters start text, l.1.isAlphanum = true := by
  induction text generalizing start with
  | nil =>
      intro l hl
      cases hl
  | cons c text ih =>
      intro l hl
      by_cases hc : c.isAlphanum = true
      · rw [letters_of_letter hc] at hl
        rcases List.mem_cons.mp hl with rfl | hl
        · exact hc
        · exact ih false l hl
      · rw [letters_of_other hc] at hl
        exact ih true l hl

/-- The first letter starts a word. -/
theorem head?_letters {text : List Char} {l : Char × Bool}
    (h : (letters true text).head? = some l) : l.2 = true := by
  induction text with
  | nil => cases h
  | cons c text ih =>
      by_cases hc : c.isAlphanum = true
      · rw [letters_of_letter hc] at h
        rw [← Option.some.inj h]
      · rw [letters_of_other hc] at h
        exact ih h

/-- A capital, or a digit, comes back from lower case. -/
theorem toUpper_toLower {c : Char} (h : c.isAlphanum = true) :
    c.toUpper.toLower.toUpper = c.toUpper := by
  have hall : ∀ n < 128, (Char.ofNat n).toUpper.toLower.toUpper = (Char.ofNat n).toUpper := by
    decide
  -- letters and digits are in ASCII, where there are few enough to try
  have hsmall : c.toNat < 128 := by
    delta Char.isAlphanum Char.isAlpha Char.isUpper Char.isLower Char.isDigit at h
    simp only [Bool.or_eq_true, Bool.and_eq_true, decide_eq_true_eq, UInt32.le_iff_toNat_le,
      ge_iff_le] at h
    show c.val.toNat < 128
    rcases h with (⟨_, h⟩ | ⟨_, h⟩) | ⟨_, h⟩
    · exact lt_of_le_of_lt h (by decide)
    · exact lt_of_le_of_lt h (by decide)
    · exact lt_of_le_of_lt h (by decide)
  have hchar := hall c.toNat hsmall
  rwa [Char.ofNat_toNat] at hchar

/-- The first letter of `pascalCase` is a capital, so it comes back from `camelCase`. -/
theorem upperFirst_camelCase (value : String) :
    upperFirst (camelCase value).toList = (pascalCase value).toList := by
  have hhead := @head?_letters value.toList
  have halpha := letters_isAlphanum true value.toList
  unfold camelCase
  rw [String.toList_ofList, pascalCase_eq, spelled]
  cases hletters : letters true value.toList with
  | nil => rfl
  | cons l rest =>
      rw [hletters] at hhead halpha
      have hstart : l.2 = true := hhead rfl
      -- only the first letter was changed, and it starts a word
      show (capital l).toLower.toUpper :: rest.map capital = capital l :: rest.map capital
      unfold capital
      rw [if_pos hstart, toUpper_toLower (halpha l List.mem_cons_self)]

/-- Letters that start no word are written as they are. -/
theorem spelled_of_letters {text : List Char} (h : ∀ c ∈ text, c.isAlphanum = true) :
    spelled false text = text := by
  unfold spelled
  induction text with
  | nil => rfl
  | cons c text ih =>
      rw [letters_of_letter (h c List.mem_cons_self), List.map_cons,
        ih fun d hd => h d (List.mem_cons_of_mem c hd)]
      rfl

/-- A word of letters, of which the first is not a capital, is written as it is. -/
theorem camelCase_of_letters {word : String} (h : ∀ c ∈ word.toList, c.isAlphanum = true)
    (hfirst : ∀ c ∈ word.toList.head?, c.toUpper.toLower = c) : camelCase word = word := by
  unfold camelCase
  rw [pascalCase_eq, ← String.toList_inj, String.toList_ofList]
  cases hword : word.toList with
  | nil => rfl
  | cons c rest =>
      rw [hword] at h hfirst
      have hrest := spelled_of_letters fun d hd => h d (List.mem_cons_of_mem c hd)
      unfold spelled at hrest ⊢
      rw [letters_of_letter (h c List.mem_cons_self), List.map_cons, hrest]
      show c.toUpper.toLower :: rest = c :: rest
      rw [hfirst c rfl]

/-- **`camelCase` loses what `pascalCase` does.** -/
theorem camelCase_eq_iff {a b : String} : camelCase a = camelCase b ↔ SpelledAlike a b := by
  rw [← pascalCase_eq_iff]
  constructor
  · intro h
    rw [← String.toList_inj, ← upperFirst_camelCase, ← upperFirst_camelCase, h]
  · intro h
    unfold camelCase
    rw [h]

/-! ## §4. What the acronyms of Go lose. -/

/-- The acronyms as one scan finds them: those that arise where one ends in another's
first letter come first. -/
def goTable : List Acronym :=
  [⟨'A', ['p', 'i', 'p'], anything⟩, ⟨'A', ['p', 'i', 'd'], beforeCapital⟩,
    ⟨'A', ['p', 'i'], anything⟩, ⟨'V', ['c', 's', 'h', 'a', '2', '5', '6'], anything⟩,
    ⟨'V', ['c', 's'], anything⟩, ⟨'S', ['h', 'a', '2', '5', '6'], anything⟩,
    ⟨'U', ['r', 'l'], anything⟩, ⟨'I', ['p'], anything⟩, ⟨'I', ['d'], beforeCapital⟩]

section

variable (t : List Char)

/-- The text after each of the first five replacements. -/
def afterApi : List Char := raise 'A' ['p', 'i'] anything 0 t

def afterVcs : List Char := raise 'V' ['c', 's'] anything 0 (afterApi t)

def afterSha256 : List Char := raise 'S' ['h', 'a', '2', '5', '6'] anything 0 (afterVcs t)

def afterUrl : List Char := raise 'U' ['r', 'l'] anything 0 (afterSha256 t)

def afterIp : List Char := raise 'I' ['p'] anything 0 (afterUrl t)

/-- The replacements, as they raise letters. -/
theorem goAcronyms_eq : goAcronyms t = raise 'I' ['d'] beforeCapital 0 (afterIp t) := by
  unfold afterIp afterUrl afterSha256 afterVcs afterApi
  simp only [← replaceAll_eq_raise]
  rfl

end

theorem beforeCapital_raise {first : Char} {rest : List Char} {ahead : List Char → Bool}
    (text : List Char) : beforeCapital (raise first rest ahead 0 text) = beforeCapital text := by
  unfold beforeCapital
  rw [head?_raise]

section

variable (t : List Char)

theorem raise_api : raise 'A' ['p', 'i'] anything 0 ('A' :: 'p' :: 'i' :: t)
    = 'A' :: 'P' :: 'I' :: raise 'A' ['p', 'i'] anything 0 t :=
  raise_of_starts rfl

theorem raise_vcs : raise 'V' ['c', 's'] anything 0 ('V' :: 'c' :: 's' :: t)
    = 'V' :: 'C' :: 'S' :: raise 'V' ['c', 's'] anything 0 t :=
  raise_of_starts rfl

theorem raise_sha256 : raise 'S' ['h', 'a', '2', '5', '6'] anything 0
      ('S' :: 'h' :: 'a' :: '2' :: '5' :: '6' :: t)
    = 'S' :: 'H' :: 'A' :: '2' :: '5' :: '6'
      :: raise 'S' ['h', 'a', '2', '5', '6'] anything 0 t :=
  raise_of_starts rfl

theorem raise_url : raise 'U' ['r', 'l'] anything 0 ('U' :: 'r' :: 'l' :: t)
    = 'U' :: 'R' :: 'L' :: raise 'U' ['r', 'l'] anything 0 t :=
  raise_of_starts rfl

theorem raise_ip : raise 'I' ['p'] anything 0 ('I' :: 'p' :: t)
    = 'I' :: 'P' :: raise 'I' ['p'] anything 0 t :=
  raise_of_starts rfl

theorem raise_id (h : beforeCapital t = true) : raise 'I' ['d'] beforeCapital 0 ('I' :: 'd' :: t)
    = 'I' :: 'D' :: raise 'I' ['d'] beforeCapital 0 t :=
  raise_of_starts h

end

/-- A pattern without capitals after its first letter stands in none of the five texts
behind a character where it does not stand behind it now. -/
theorem not_starts_after {first : Char} {rest : List Char} {ahead : List Char → Bool}
    (hrest : ∀ c ∈ ['A', 'V', 'S', 'U', 'I'], c ∉ rest)
    (hahead : ∀ first' rest' ahead' t, ahead (raise first' rest' ahead' 0 t) = ahead t)
    {c : Char} {t : List Char} (h : ¬ starts first rest ahead (c :: t) = true) :
    (¬ starts first rest ahead (c :: afterApi t) = true)
      ∧ (¬ starts first rest ahead (c :: afterVcs t) = true)
      ∧ (¬ starts first rest ahead (c :: afterSha256 t) = true)
      ∧ (¬ starts first rest ahead (c :: afterUrl t) = true)
      ∧ ¬ starts first rest ahead (c :: afterIp t) = true := by
  -- raising letters makes no new occurrence, since the pattern's own letters are small
  have hstep : ∀ {first' : Char} {rest' : List Char} {ahead' : List Char → Bool} {t : List Char},
      first' ∈ ['A', 'V', 'S', 'U', 'I'] → (¬ starts first rest ahead (c :: t) = true) →
      ¬ starts first rest ahead (c :: raise first' rest' ahead' 0 t) = true := by
    intro first' rest' ahead' t hmem hnot hstarts
    exact hnot (starts_of_raise (hrest first' hmem) (hahead first' rest' ahead') hstarts)
  have hapi : ¬ starts first rest ahead (c :: afterApi t) = true := hstep (by simp) h
  have hvcs : ¬ starts first rest ahead (c :: afterVcs t) = true := hstep (by simp) hapi
  have hsha : ¬ starts first rest ahead (c :: afterSha256 t) = true := hstep (by simp) hvcs
  have hurl : ¬ starts first rest ahead (c :: afterUrl t) = true := hstep (by simp) hsha
  exact ⟨hapi, hvcs, hsha, hurl, hstep (by simp) hurl⟩

theorem anything_raise {first : Char} {rest : List Char} {ahead : List Char → Bool}
    (text : List Char) : anything (raise first rest ahead 0 text) = anything text := rfl

theorem starts_of_first_ne {first c : Char} {rest text : List Char} {ahead : List Char → Bool}
    (h : c ≠ first) : starts first rest ahead (c :: text) = false := by
  simp [starts, h.symm]

/-- At a character that starts none of the patterns. -/
theorem goAcronyms_cons {c : Char} {t : List Char}
    (h : goTable.find? (fun a => starts a.first a.rest a.ahead (c :: t)) = none) :
    goAcronyms (c :: t) = c :: goAcronyms t := by
  simp only [goTable, List.find?_eq_none, List.forall_mem_cons] at h
  obtain ⟨_, _, hapi, _, hvcs, hsha, hurl, hip, hid, _⟩ := h
  -- one replacement after the other passes over the character
  have h1 : afterApi (c :: t) = c :: afterApi t := raise_of_not hapi
  have h2 : afterVcs (c :: t) = c :: afterVcs t := by
    unfold afterVcs
    rw [h1]
    exact raise_of_not (not_starts_after (by decide) (fun _ _ _ => anything_raise) hvcs).1
  have h3 : afterSha256 (c :: t) = c :: afterSha256 t := by
    unfold afterSha256
    rw [h2]
    exact raise_of_not (not_starts_after (by decide) (fun _ _ _ => anything_raise) hsha).2.1
  have h4 : afterUrl (c :: t) = c :: afterUrl t := by
    unfold afterUrl
    rw [h3]
    exact raise_of_not (not_starts_after (by decide) (fun _ _ _ => anything_raise) hurl).2.2.1
  have h5 : afterIp (c :: t) = c :: afterIp t := by
    unfold afterIp
    rw [h4]
    exact raise_of_not (not_starts_after (by decide) (fun _ _ _ => anything_raise) hip).2.2.2.1
  rw [goAcronyms_eq, goAcronyms_eq, h5]
  exact raise_of_not
    (not_starts_after (by decide) (fun _ _ _ => beforeCapital_raise) hid).2.2.2.2

/-- At `Api`, where its last letter starts no other pattern. -/
theorem goAcronyms_api {t : List Char} (hip : ¬ starts 'I' ['p'] anything ('I' :: t) = true)
    (hid : ¬ starts 'I' ['d'] beforeCapital ('I' :: t) = true) :
    goAcronyms ('A' :: 'p' :: 'i' :: t) = 'A' :: 'P' :: 'I' :: goAcronyms t := by
  have h1 : afterApi ('A' :: 'p' :: 'i' :: t) = 'A' :: 'P' :: 'I' :: afterApi t := raise_api t
  have h4 : afterUrl ('A' :: 'p' :: 'i' :: t) = 'A' :: 'P' :: 'I' :: afterUrl t := by
    simp [afterUrl, afterSha256, afterVcs, h1, raise_of_ne]
  have h5 : afterIp ('A' :: 'p' :: 'i' :: t) = 'A' :: 'P' :: 'I' :: afterIp t := by
    have hnot := (not_starts_after (by decide) (fun _ _ _ => anything_raise) hip).2.2.2.1
    unfold afterIp
    rw [h4, raise_of_ne (by decide), raise_of_ne (by decide), raise_of_not hnot]
  have hnot := (not_starts_after (by decide) (fun _ _ _ => beforeCapital_raise) hid).2.2.2.2
  rw [goAcronyms_eq, goAcronyms_eq, h5, raise_of_ne (by decide), raise_of_ne (by decide),
    raise_of_not hnot]

/-- At `Vcs`, where its last letter starts no other pattern. -/
theorem goAcronyms_vcs {t : List Char}
    (hsha : ¬ starts 'S' ['h', 'a', '2', '5', '6'] anything ('S' :: t) = true) :
    goAcronyms ('V' :: 'c' :: 's' :: t) = 'V' :: 'C' :: 'S' :: goAcronyms t := by
  have h2 : afterVcs ('V' :: 'c' :: 's' :: t) = 'V' :: 'C' :: 'S' :: afterVcs t := by
    have h1 : afterApi ('V' :: 'c' :: 's' :: t) = 'V' :: 'c' :: 's' :: afterApi t := by
      simp [afterApi, raise_of_ne]
    unfold afterVcs
    rw [h1, raise_vcs]
  have hnot := (not_starts_after (by decide) (fun _ _ _ => anything_raise) hsha).2.1
  have h3 : afterSha256 ('V' :: 'c' :: 's' :: t) = 'V' :: 'C' :: 'S' :: afterSha256 t := by
    unfold afterSha256
    rw [h2, raise_of_ne (by decide), raise_of_ne (by decide), raise_of_not hnot]
  simp [goAcronyms_eq, afterIp, afterUrl, h3, raise_of_ne]

/-- The six replacements, written out. -/
theorem goAcronyms_passes (t : List Char) :
    goAcronyms t = raise 'I' ['d'] beforeCapital 0 (raise 'I' ['p'] anything 0
      (raise 'U' ['r', 'l'] anything 0 (raise 'S' ['h', 'a', '2', '5', '6'] anything 0
        (raise 'V' ['c', 's'] anything 0 (raise 'A' ['p', 'i'] anything 0 t))))) :=
  goAcronyms_eq t

/-- **The replacements, one after the other, are one scan.** -/
theorem goAcronyms_scan (text : List Char) :
    goAcronyms text = (scan goTable 0 text).map capital := by
  induction hlength : text.length using Nat.strongRecOn generalizing text with
  | ind n ih =>
      have hnext : ∀ t : List Char, t.length < text.length →
          (scan goTable 0 t).map capital = goAcronyms t :=
        fun t ht => (ih t.length (hlength ▸ ht) t rfl).symm
      cases hfind : goTable.find? (fun a => starts a.first a.rest a.ahead text) with
      | none =>
          cases text with
          | nil => rfl
          | cons c t =>
              rw [scan_of_none hfind, List.map_cons, hnext t (by simp), goAcronyms_cons hfind]
              rfl
      | some a =>
          obtain ⟨t, rfl, hahead, hscan⟩ := scan_of_find hfind
          have hshort : t.length < (a.first :: (a.rest ++ t)).length := by
            rw [List.length_cons, List.length_append]
            omega
          rw [hscan, List.map_cons, List.map_append, hnext t hshort]
          have hmem := List.mem_of_find?_eq_some hfind
          simp only [goTable, List.mem_cons, List.not_mem_nil, or_false] at hmem
          rcases hmem with rfl | rfl | rfl | rfl | rfl | rfl | rfl | rfl | rfl
          · simp [goAcronyms_passes, raise_api, raise_ip, raise_of_ne, raise_second, capital]
          · have hcapital : beforeCapital t = true := hahead
            simp [goAcronyms_passes, raise_api, raise_id, raise_of_ne, raise_second, capital,
              beforeCapital_raise, hcapital]
          · -- a `p` or a last `d` would make it a longer pattern of the table
            refine goAcronyms_api ?_ ?_
            · intro hstarts
              obtain ⟨t', heq, _⟩ := starts_iff.mp hstarts
              obtain rfl := (List.cons.inj heq).2
              have hlonger : starts 'A' ['p', 'i', 'p'] anything ('A' :: 'p' :: 'i' :: 'p' :: t')
                  = true := starts_iff.mpr ⟨t', rfl, rfl⟩
              simp [goTable, hlonger] at hfind
            · intro hstarts
              obtain ⟨t', heq, hcapital⟩ := starts_iff.mp hstarts
              obtain rfl := (List.cons.inj heq).2
              have hlonger : starts 'A' ['p', 'i', 'd'] beforeCapital
                  ('A' :: 'p' :: 'i' :: 'd' :: t') = true := starts_iff.mpr ⟨t', rfl, hcapital⟩
              have hother : starts 'A' ['p', 'i', 'p'] anything ('A' :: 'p' :: 'i' :: 'd' :: t')
                  = false := by simp [starts]
              simp [goTable, hlonger, hother] at hfind
          · simp [goAcronyms_passes, raise_vcs, raise_sha256, raise_of_ne, capital]
          · refine goAcronyms_vcs ?_
            intro hstarts
            obtain ⟨t', heq, _⟩ := starts_iff.mp hstarts
            obtain rfl := (List.cons.inj heq).2
            have hlonger : starts 'V' ['c', 's', 'h', 'a', '2', '5', '6'] anything
                ('V' :: 'c' :: 's' :: 'h' :: 'a' :: '2' :: '5' :: '6' :: t') = true :=
              starts_iff.mpr ⟨t', rfl, rfl⟩
            simp [goTable, starts_of_first_ne, hlonger] at hfind
          · simp [goAcronyms_passes, raise_sha256, raise_of_ne, capital]
          · simp [goAcronyms_passes, raise_url, raise_of_ne, capital]
          · simp [goAcronyms_passes, raise_ip, raise_of_ne, raise_second, capital]
          · have hcapital : beforeCapital t = true := hahead
            simp [goAcronyms_passes, raise_id, raise_of_ne, raise_second, capital,
              beforeCapital_raise, hcapital]

/-- Two names agree letter by letter, where the case of the letters of an acronym is left
out as well. -/
def GoAlike (a b : String) : Prop :=
  List.Forall₂ Alike (scan goTable 0 (spelled true a.toList))
    (scan goTable 0 (spelled true b.toList))

instance : DecidableRel GoAlike := fun a b => by unfold GoAlike; infer_instance

/-- **The name for Go loses the acronyms besides.** -/
theorem goCandidate_eq_iff {a b : String} : goCandidate a = goCandidate b ↔ GoAlike a b := by
  unfold GoAlike goCandidate
  rw [forall₂_alike, ← String.toList_inj, String.toList_ofList, String.toList_ofList,
    pascalCase_eq, pascalCase_eq, goAcronyms_scan, goAcronyms_scan]

/-! ## §5. What `snakeCase` loses. -/

/-- `[-.\s]`. -/
def isBlank (c : Char) : Bool := c ∈ '-' :: '.' :: whitespace

/-- What becomes an underscore, or is one. -/
def isGap (c : Char) : Bool := c == '_' || isBlank c

/-- Where an underscore is put in. -/
def isHump (a b : Char) : Bool := a ∈ lowercase ++ digits ∧ b ∈ uppercase

/-- The text of `snakeCase` before its case is changed, from inside a run of gaps or not. -/
def gapped (inBlank inRun : Bool) (text : List Char) : List Char :=
  collapse (· == '_') inRun (collapse isBlank inBlank (splitCamel text))

/-- The words of a name, joined. -/
def joinedWords (text : List Char) : List Char := ['_'].intercalate (wordsOf isGap isHump text)

theorem not_gap_of_hump {a b : Char} (h : isHump a b = true) :
    isGap a = false ∧ isGap b = false := by
  have hall : (∀ c ∈ lowercase ++ digits, isGap c = false) ∧ ∀ c ∈ uppercase, isGap c = false := by
    decide
  have hand : a ∈ lowercase ++ digits ∧ b ∈ uppercase := of_decide_eq_true h
  exact ⟨hall.1 a hand.1, hall.2 b hand.2⟩

theorem joinedWords_extend {c : Char} {text : List Char} (hc : isGap c = false)
    (hhump : text.head?.any (isHump c) = false) :
    joinedWords (c :: text) = c :: joinedWords text := by
  unfold joinedWords
  rw [wordsOf, if_neg (by rw [hc]; decide), if_neg (by rw [hhump]; decide)]
  obtain ⟨word, words, hwords⟩ :=
    List.exists_cons_of_ne_nil (wordsOf_ne_nil isGap isHump text)
  rw [hwords]
  cases words with
  | nil => simp [extend]
  | cons word' words => simp [extend, List.intercalate_cons_cons]

theorem joinedWords_hump {a b : Char} {text : List Char} (h : isHump a b = true) :
    joinedWords (a :: b :: text) = a :: '_' :: joinedWords (b :: text) := by
  have hgap := (not_gap_of_hump h).1
  have hhead : (b :: text).head?.any (isHump a) = true := h
  obtain ⟨word, words, hwords⟩ :=
    List.exists_cons_of_ne_nil (wordsOf_ne_nil isGap isHump (b :: text))
  unfold joinedWords
  rw [wordsOf, if_neg (by rw [hgap]; decide), if_pos hhead, hwords, List.intercalate_cons_cons]
  rfl

theorem joinedWords_gap {c : Char} {text : List Char} (hc : isGap c = true) :
    joinedWords (c :: text) = '_' :: joinedWords (text.dropWhile isGap) := by
  obtain ⟨word, words, hwords⟩ :=
    List.exists_cons_of_ne_nil (wordsOf_ne_nil isGap isHump (text.dropWhile isGap))
  unfold joinedWords
  rw [wordsOf_gap _ _ hc, hwords, List.intercalate_cons_cons]
  rfl

theorem splitCamel_cons (c : Char) (text : List Char) :
    splitCamel (c :: text)
      = if text.head?.any (isHump c) then c :: '_' :: splitCamel text
        else c :: splitCamel text := by
  cases text with
  | nil => rfl
  | cons b text => simp [splitCamel, isHump]

theorem underscore_not_blank : isBlank '_' = false := by decide

section

variable {c : Char} {text : List Char} (inBlank inRun : Bool)

/-- Any other character is kept, and ends a run. -/
theorem gapped_of_not_gap (hc : isGap c = false) (hhump : text.head?.any (isHump c) = false) :
    gapped inBlank inRun (c :: text) = c :: gapped false false text := by
  simp only [isGap, Bool.or_eq_false_iff] at hc
  unfold gapped
  rw [splitCamel_cons, if_neg (by rw [hhump]; decide)]
  simp [collapse, hc.2, beq_eq_false_iff_ne.mp hc.1]

/-- A text without gaps and capitals is one word. -/
theorem gapped_of_plain {text : List Char} (h : ∀ c ∈ text, isGap c = false ∧ c ∉ uppercase) :
    gapped false false text = text := by
  induction text with
  | nil => rfl
  | cons c text ih =>
      have hrest : ∀ d ∈ text, isGap d = false ∧ d ∉ uppercase :=
        fun d hd => h d (List.mem_cons_of_mem c hd)
      have hhump : text.head?.any (isHump c) = false := by
        cases text with
        | nil => rfl
        | cons b text => exact decide_eq_false fun hb => (hrest b List.mem_cons_self).2 hb.2
      rw [gapped_of_not_gap false false (h c List.mem_cons_self).1 hhump, ih hrest]

/-- Behind a hump an underscore is put in, which starts a run. -/
theorem gapped_of_hump (hhump : text.head?.any (isHump c) = true) :
    gapped inBlank inRun (c :: text) = c :: '_' :: gapped false true text := by
  obtain ⟨b, text', rfl⟩ : ∃ b text', text = b :: text' := by
    cases text with
    | nil => cases hhump
    | cons b text' => exact ⟨b, text', rfl⟩
  have hc := (not_gap_of_hump hhump).1
  simp only [isGap, Bool.or_eq_false_iff] at hc
  unfold gapped
  rw [splitCamel_cons, if_pos hhump]
  simp [collapse, hc.2, beq_eq_false_iff_ne.mp hc.1, underscore_not_blank]

theorem splitCamel_gap (hc : isGap c = true) : splitCamel (c :: text) = c :: splitCamel text := by
  rw [splitCamel_cons, if_neg]
  intro hhump
  cases text with
  | nil => cases hhump
  | cons b text =>
      rw [(not_gap_of_hump hhump).1] at hc
      cases hc

/-- A gap inside a run is dropped. -/
theorem gapped_gap_run (hc : isGap c = true) :
    ∃ inBlank', gapped inBlank true (c :: text) = gapped inBlank' true text := by
  unfold gapped
  rw [splitCamel_gap hc]
  by_cases hblank : isBlank c = true
  · refine ⟨true, ?_⟩
    cases inBlank with
    | true => simp [collapse, hblank]
    | false => simp [collapse, hblank]
  · have hunderscore : c = '_' := by simpa [isGap, hblank] using hc
    subst hunderscore
    exact ⟨false, by simp [collapse, hblank]⟩

/-- The first gap of a run becomes the underscore. -/
theorem gapped_gap (hc : isGap c = true) :
    ∃ inBlank', gapped false false (c :: text) = '_' :: gapped inBlank' true text := by
  unfold gapped
  rw [splitCamel_gap hc]
  by_cases hblank : isBlank c = true
  · exact ⟨true, by simp [collapse, hblank]⟩
  · have hunderscore : c = '_' := by simpa [isGap, hblank] using hc
    subst hunderscore
    exact ⟨false, by simp [collapse, hblank]⟩

end

/-- **The text of `snakeCase` is its words, joined**; inside a run the gaps that come first
are dropped. -/
theorem gapped_eq (text : List Char) :
    (∀ inBlank, gapped inBlank true text = joinedWords (text.dropWhile isGap))
      ∧ gapped false false text = joinedWords text := by
  induction text with
  | nil => exact ⟨fun inBlank => by cases inBlank <;> rfl, rfl⟩
  | cons c text ih =>
      by_cases hhump : text.head?.any (isHump c) = true
      · obtain ⟨b, text', rfl⟩ : ∃ b text', text = b :: text' := by
          cases text with
          | nil => cases hhump
          | cons b text' => exact ⟨b, text', rfl⟩
        obtain ⟨hc, hb⟩ := not_gap_of_hump hhump
        have hstop : ¬ isGap c = true := by rw [hc]; decide
        have hnext : (b :: text').dropWhile isGap = b :: text' :=
          List.dropWhile_cons_of_neg (by rw [hb]; decide)
        rw [List.dropWhile_cons_of_neg hstop]
        constructor
        · intro inBlank
          rw [gapped_of_hump _ _ hhump, ih.1, hnext, joinedWords_hump hhump]
        · rw [gapped_of_hump _ _ hhump, ih.1, hnext, joinedWords_hump hhump]
      · rw [Bool.not_eq_true] at hhump
        by_cases hc : isGap c = true
        · rw [List.dropWhile_cons_of_pos hc]
          constructor
          · intro inBlank
            obtain ⟨inBlank', hrun⟩ : ∃ inBlank', gapped inBlank true (c :: text)
                = gapped inBlank' true text := gapped_gap_run inBlank hc
            rw [hrun, ih.1]
          · obtain ⟨inBlank', hrun⟩ : ∃ inBlank', gapped false false (c :: text)
                = '_' :: gapped inBlank' true text := gapped_gap hc
            rw [hrun, ih.1, joinedWords_gap hc]
        · rw [List.dropWhile_cons_of_neg hc]
          rw [Bool.not_eq_true] at hc
          constructor
          · intro inBlank
            rw [gapped_of_not_gap _ _ hc hhump, ih.2, joinedWords_extend hc hhump]
          · rw [gapped_of_not_gap _ _ hc hhump, ih.2, joinedWords_extend hc hhump]

section

variable {lower : List Char → List Char}

variable (lower) in
/-- Two names have the same words up to case, where gaps and humps separate words. -/
def SameWords (a b : String) : Prop :=
  List.Forall₂ (fun word word' => lower word = lower word') (wordsOf isGap isHump a.toList)
    (wordsOf isGap isHump b.toList)

instance : DecidableRel (SameWords lower) := fun a b => by unfold SameWords; infer_instance

/-- **`snakeCase` loses the case, and which gaps separate the words.** -/
theorem snakeCaseBy_eq_iff (h : LowerCase '_' lower) {a b : String} :
    snakeCaseBy lower a = snakeCaseBy lower b ↔ SameWords lower a b := by
  -- both sides are the joined words in lower case
  have hword : ∀ value : String,
      (snakeCaseBy lower value).toList = lower (joinedWords value.toList) := by
    intro value
    rw [← (gapped_eq value.toList).2]
    exact String.toList_ofList
  unfold SameWords
  rw [← String.toList_inj, hword, hword]
  exact lower_joined_eq_iff h (wordsOf_ne_nil _ _ _) (wordsOf_ne_nil _ _ _)
    (gap_not_mem_wordsOf _ _ (by decide) _) (gap_not_mem_wordsOf _ _ (by decide) _)

/-! ## §6. Two names with one identifier. -/

theorem valueMark_inj {a b : String} (h : valueMark a = valueMark b) : a = b := by
  unfold valueMark at h
  exact (String.append_left_inj "Value").mp h

theorem rawMark_inj {a b : String} (h : rawMark a = rawMark b) : a = b := by
  unfold rawMark at h
  exact (String.append_right_inj "r#").mp h

theorem tsMarks : Marks tsReserved valueMark := ⟨by decide, fun _ _ _ _ h => valueMark_inj h⟩

theorem dartMarks : Marks dartReserved valueMark := ⟨by decide, fun _ _ _ _ h => valueMark_inj h⟩

theorem goMarks : Marks goReserved valueMark := ⟨by decide, fun _ _ _ _ h => valueMark_inj h⟩

theorem rustMarks : Marks rustReserved rawMark := ⟨by decide, fun _ _ _ _ h => rawMark_inj h⟩

/-- Reserved words, and marked ones, are written as they are. -/
theorem camelCase_reserved : ∀ word ∈ tsReserved ++ dartReserved,
    camelCase word = word ∧ camelCase (valueMark word) = valueMark word := by
  have hletters : ∀ word ∈ tsReserved ++ dartReserved,
      ((∀ c ∈ word.toList, c.isAlphanum = true)
          ∧ ∀ c ∈ word.toList.head?, c.toUpper.toLower = c)
        ∧ (∀ c ∈ (valueMark word).toList, c.isAlphanum = true)
          ∧ ∀ c ∈ (valueMark word).toList.head?, c.toUpper.toLower = c := by
    decide
  intro word hword
  obtain ⟨hplain, hmarked⟩ := hletters word hword
  exact ⟨camelCase_of_letters hplain.1 hplain.2, camelCase_of_letters hmarked.1 hmarked.2⟩

theorem goCandidate_reserved : ∀ word ∈ goReserved,
    goCandidate word = word ∧ goCandidate (valueMark word) = valueMark word := by
  decide

theorem tsName_eq_iff {a b : String} :
    tsName a = tsName b ↔ Clash SpelledAlike tsReserved valueMark a b := by
  have halike : ∀ a b, SpelledAlike a b ↔ camelCase a = camelCase b :=
    fun _ _ => camelCase_eq_iff.symm
  unfold tsName
  refine reserve_eq_iff_clash tsMarks halike ?_
  intro word hword
  exact camelCase_reserved word (List.mem_append_left _ hword)

theorem dartName_eq_iff {a b : String} :
    dartName a = dartName b ↔ Clash SpelledAlike dartReserved valueMark a b := by
  have halike : ∀ a b, SpelledAlike a b ↔ camelCase a = camelCase b :=
    fun _ _ => camelCase_eq_iff.symm
  unfold dartName
  refine reserve_eq_iff_clash dartMarks halike ?_
  intro word hword
  exact camelCase_reserved word (List.mem_append_right _ hword)

theorem goName_eq_iff {a b : String} :
    goName a = goName b ↔ Clash GoAlike goReserved valueMark a b := by
  have halike : ∀ a b, GoAlike a b ↔ goCandidate a = goCandidate b :=
    fun _ _ => goCandidate_eq_iff.symm
  unfold goName
  exact reserve_eq_iff_clash goMarks halike goCandidate_reserved

theorem rustName_eq_iff (h : LowerCase '_' lower) {a b : String} :
    rustName lower a = rustName lower b ↔ Clash (SameWords lower) rustReserved rawMark a b := by
  -- reserved words, marked or not, are one word in lower case
  have hletter : ∀ c ∈ '#' :: lowercase,
      (isGap c = false ∧ c ∉ uppercase) ∧ c.toNat < 128 ∧ c.toLower = c := by
    decide
  have hword : ∀ word ∈ rustReserved ++ rustReserved.map rawMark, ∀ c ∈ word.toList,
      c ∈ '#' :: lowercase := by
    decide
  have hplain : ∀ word ∈ rustReserved ++ rustReserved.map rawMark, ∀ c ∈ word.toList, _ :=
    fun word hmem c hc => hletter c (hword word hmem c hc)
  -- so `snakeCase` gives them back unchanged
  have hfixed : ∀ word ∈ rustReserved ++ rustReserved.map rawMark,
      snakeCaseBy lower word = word := by
    intro word hword
    have hgapped := gapped_of_plain fun c hc => (hplain word hword c hc).1
    have hlower : word.toList.map Char.toLower = word.toList.map id :=
      List.map_congr_left fun c hc => (hplain word hword c hc).2.2
    rw [List.map_id] at hlower
    rw [← String.toList_inj]
    show (String.ofList (lower (gapped false false word.toList))).toList = word.toList
    rw [String.toList_ofList, hgapped, h.ascii _ fun c hc => (hplain word hword c hc).2.1, hlower]
  have halike : ∀ a b, SameWords lower a b ↔ snakeCaseBy lower a = snakeCaseBy lower b :=
    fun _ _ => (snakeCaseBy_eq_iff h).symm
  unfold rustName
  refine reserve_eq_iff_clash rustMarks halike ?_
  intro word hword
  exact ⟨hfixed word (List.mem_append_left _ hword),
    hfixed _ (List.mem_append_right _ (List.mem_map_of_mem hword))⟩

/-- The identifiers of the fields of an entity differ in every language, and so do the
classes and the modules of the entities. -/
def IdentifiersApart (lower : List Char → List Char) (model : Model) : Prop :=
  (∀ e ∈ model.entities, ∀ f ∈ e.fields, ∀ f' ∈ e.fields, f ≠ f' →
      tsName f.name ≠ tsName f'.name ∧ rustName lower f.name ≠ rustName lower f'.name
        ∧ goName f.name ≠ goName f'.name ∧ dartName f.name ≠ dartName f'.name)
    ∧ ∀ e ∈ model.entities, ∀ e' ∈ model.entities, e ≠ e' →
      e.className ≠ e'.className ∧ e.module_ lower ≠ e'.module_ lower

/-- Two names that give no two fields one identifier. -/
def FieldNamesApart (lower : List Char → List Char) (a b : String) : Prop :=
  ¬ Clash SpelledAlike tsReserved valueMark a b
    ∧ ¬ Clash (SameWords lower) rustReserved rawMark a b
    ∧ ¬ Clash GoAlike goReserved valueMark a b ∧ ¬ Clash SpelledAlike dartReserved valueMark a b

instance : DecidableRel (FieldNamesApart lower) :=
  fun a b => by unfold FieldNamesApart; infer_instance

/-- **When the identifiers are apart**: the normalizer compares columns and tables, so
nothing keeps two names from being alike. -/
theorem identifiersApart_iff (h : LowerCase '_' lower) (model : Model) :
    IdentifiersApart lower model
      ↔ (∀ e ∈ model.entities, ∀ f ∈ e.fields, ∀ f' ∈ e.fields, f ≠ f' →
          FieldNamesApart lower f.name f'.name)
        ∧ ∀ e ∈ model.entities, ∀ e' ∈ model.entities, e ≠ e' →
          ¬ SpelledAlike e.name e'.name ∧ ¬ SameWords lower e.name e'.name := by
  unfold IdentifiersApart FieldNamesApart Entity.className Entity.module_
  simp only [ne_eq, tsName_eq_iff, rustName_eq_iff h, goName_eq_iff, dartName_eq_iff,
    pascalCase_eq_iff, snakeCaseBy_eq_iff h]

end

/-- The change to lower case on ASCII. -/
def asciiLower (text : List Char) : List Char := text.map Char.toLower

theorem lowerCase_asciiLower : LowerCase '_' asciiLower where
  ascii _ _ := rfl
  join a b := by
    unfold asciiLower
    rw [List.map_append, List.map_cons]
    rfl
  sep text hfree := by
    intro hmem
    obtain ⟨c, hc, hlower⟩ := List.mem_map.mp hmem
    refine hfree ?_
    delta Char.toLower at hlower
    split at hlower
    next hupper =>
      -- a capital is moved to a letter
      exfalso
      have hval : c.val + ('a'.val - 'A'.val) = '_'.val := congrArg Char.val hlower
      have hnat := congrArg UInt32.toNat hval
      have hle : 'A'.val.toNat ≤ c.val.toNat := UInt32.le_iff_toNat_le.mp hupper.1
      have hge : c.val.toNat ≤ 'Z'.val.toNat := UInt32.le_iff_toNat_le.mp hupper.2
      have hA : 'A'.val.toNat = 65 := by decide
      have hZ : 'Z'.val.toNat = 90 := by decide
      have hgap : ('a'.val - 'A'.val).toNat = 32 := by decide
      have hscore : '_'.val.toNat = 95 := by decide
      rw [UInt32.toNat_add, hgap, hscore] at hnat
      omega
    next => rwa [← hlower]

/-- A definition with a table of the fields. -/
def noteDefinition (table : String) (fields : List String) : Definition where
  type := "object"
  db := some { table }
  properties := fields.map fun name => (name, { types := ["string"] })

/-- Notes, and one kind more of them. -/
def noteSchema (other : String) (fields : List String) : Schema where
  schemaUri := "https://json-schema.org/draft/2020-12/schema"
  libCore := some { product := "cliptown", interfacesRepository := "interfaces" }
  defs := some [("Note", noteDefinition "notes" fields), (other, noteDefinition "others" fields)]

/-- Names that differ in more than their gaps. -/
theorem identifiersApart_iff_notes : ∃ model,
    normalizeSchema (noteSchema "NoteLink" ["id", "type", "typeValues", "apiUrl", "createdAt"])
        = .ok model
      ∧ IdentifiersApart asciiLower model := by
  obtain ⟨model, hmodel, hfields, hentities⟩ := exists_model
    (fun model => (∀ e ∈ model.entities, ∀ f ∈ e.fields, ∀ f' ∈ e.fields, f.column ≠ f'.column →
        FieldNamesApart asciiLower f.name f'.name)
      ∧ ∀ e ∈ model.entities, ∀ e' ∈ model.entities, e.table ≠ e'.table →
        ¬ SpelledAlike e.name e'.name ∧ ¬ SameWords asciiLower e.name e'.name)
    (by decide : (normalizeSchema (noteSchema "NoteLink"
      ["id", "type", "typeValues", "apiUrl", "createdAt"])).toOption.any _ = true)
  -- fields with one column are one field, and entities with one table one entity
  have hdistinct := normalizeSchema_distinct hmodel
  refine ⟨model, hmodel, (identifiersApart_iff lowerCase_asciiLower model).mpr ⟨?_, ?_⟩⟩
  · intro e he f hf f' hf' hne
    refine hfields e he f hf f' hf' ?_
    intro hcolumn
    exact hne (List.inj_on_of_nodup_map (hdistinct.2.2 e he).columns hf hf' hcolumn)
  · intro e he e' he' hne
    refine hentities e he e' he' ?_
    intro htable
    exact hne (List.inj_on_of_nodup_map hdistinct.1 he he' htable)

/-- Accepted all the same: two fields, and two entities, with one identifier. -/
theorem colliding_identifiers_accepted : ∃ model,
    normalizeSchema (noteSchema "note" ["id", "line1", "line_1"]) = .ok model
      ∧ (∃ e ∈ model.entities, ∃ f ∈ e.fields, ∃ f' ∈ e.fields, f.name = "line1"
        ∧ f'.name = "line_1" ∧ tsName f.name = tsName f'.name ∧ goName f.name = goName f'.name
        ∧ dartName f.name = dartName f'.name)
      ∧ (∃ e ∈ model.entities, ∃ e' ∈ model.entities, e.name = "Note" ∧ e'.name = "note"
        ∧ e.className = e'.className ∧ e.module_ asciiLower = e'.module_ asciiLower)
      ∧ ¬ IdentifiersApart asciiLower model := by
  obtain ⟨model, hmodel, ⟨e, he, f, hf, f', hf', hname, hname', hts, hgo, hdart⟩, hentities⟩ :=
    exists_model
      (fun model => (∃ e ∈ model.entities, ∃ f ∈ e.fields, ∃ f' ∈ e.fields, f.name = "line1"
          ∧ f'.name = "line_1" ∧ tsName f.name = tsName f'.name
          ∧ goName f.name = goName f'.name ∧ dartName f.name = dartName f'.name)
        ∧ ∃ e ∈ model.entities, ∃ e' ∈ model.entities, e.name = "Note" ∧ e'.name = "note"
          ∧ e.className = e'.className ∧ e.module_ asciiLower = e'.module_ asciiLower)
      (by decide : (normalizeSchema
        (noteSchema "note" ["id", "line1", "line_1"])).toOption.any _ = true)
  refine ⟨model, hmodel, ⟨e, he, f, hf, f', hf', hname, hname', hts, hgo, hdart⟩, hentities, ?_⟩
  intro hapart
  have hne : f ≠ f' := by
    rintro rfl
    rw [hname] at hname'
    exact absurd hname' (by decide)
  -- two different fields with one TypeScript name
  exact (hapart.1 e he f hf f' hf' hne).1 hts

end ClipTown.SchemaOrm
