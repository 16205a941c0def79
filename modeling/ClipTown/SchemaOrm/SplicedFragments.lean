/-
  ClipTown.SchemaOrm.SplicedFragments — the fragments of a file, and its text.

    • `mem_sqlLines` — the lines of a checked model hold the fragments of the
      model for the dialect, no other,
    • `generateSql_eq_ok` — the file is the rendering of its lines.
-/
import ClipTown.SchemaOrm.EmittedFile

namespace ClipTown.SchemaOrm

open Checks SqlLexer DdlOutline

/-! ## §1. Pieces. -/

theorem fragment_mem_prepend {c : Clause} {e s : String} {sql : Sql} :
    Piece.fragment c e ∈ prepend s sql ↔ Piece.fragment c e ∈ sql := by
  unfold prepend
  split <;> simp

theorem fragment_mem_join {c : Clause} {e separator : String} {parts : List Sql} :
    Piece.fragment c e ∈ join separator parts ↔ ∃ part ∈ parts, Piece.fragment c e ∈ part := by
  cases parts with
  | nil => simp [join]
  | cons part parts => simp [join, fragment_mem_prepend]

/-! ## §2. The fragments of the file. -/

/-- The fragments a model has for the file of a dialect. -/
def IsFragment (model : Model) (dialect : Dialect) : Clause → String → Prop
  | .default, e => ∃ entity ∈ model.entities, ∃ field ∈ entity.fields,
      sqlDefault field dialect = some (.fragment .default e)
  | .check, e => ∃ entity ∈ model.entities, ∃ check ∈ entity.checks, check.expression = e
  | .where_, e => ∃ entity ∈ model.entities, ∃ index ∈ entity.indexes, index.where_ = some e

section

variable {c : Clause} {e : String}

theorem mem_defaultPieces {field : Field} {dialect : Dialect} (hf : CheckedField field) :
    (∃ part ∈ defaultPieces field dialect, Piece.fragment c e ∈ part)
      ↔ c = .default ∧ sqlDefault field dialect = some (.fragment .default e) := by
  unfold defaultPieces
  cases hpiece : sqlDefault field dialect with
  | none => simp
  | some piece =>
      rcases sqlDefault_piece hf hpiece with ⟨e', rfl, he'⟩ | ⟨s, rfl, _⟩
      · have hne : (Piece.fragment .default e').render ≠ [] := by
          simpa [Piece.render] using he'.nonempty
        simp only [if_neg hne, exists_eq_left, List.mem_cons, reduceCtorEq, false_or,
          List.not_mem_nil, or_false, Piece.fragment.injEq, Option.some.injEq, true_and]
        grind
      · by_cases hnil : (Piece.text s).render = []
        · simp [hnil]
        · simp [hnil]

theorem not_mem_referencePieces {model : Model} {reference : Option Reference}
    {parts : List Sql} (h : referencePieces model reference = .ok parts) :
    ∀ part ∈ parts, Piece.fragment c e ∉ part := by
  have haction : ∀ keyword action, ∀ part ∈ actionPieces keyword action,
      Piece.fragment c e ∉ part := by
    intro keyword action part hpart
    unfold actionPieces at hpart
    split at hpart
    · split at hpart <;> simp_all
    · cases hpart
  unfold referencePieces at h
  split at h
  next => cases h; simp
  next r =>
    split at h
    next => cases h
    next =>
      split at h
      next => cases h
      next =>
        cases h
        intro part hpart
        simp only [List.mem_append, List.mem_singleton] at hpart
        rcases hpart with (rfl | hpart) | hpart
        · simp
        · exact haction _ _ part hpart
        · exact haction _ _ part hpart

/-- The fragment of a column is its default. -/
theorem mem_sqlColumn {model : Model} {dialect : Dialect} {field : Field} {sql : Sql}
    (hf : CheckedField field) (h : sqlColumn model dialect field = .ok sql) :
    Piece.fragment c e ∈ sql
      ↔ c = .default ∧ sqlDefault field dialect = some (.fragment .default e) := by
  simp only [sqlColumn, do_eq_ok, pure_eq_ok] at h
  obtain ⟨type, _, references, hreferences, rfl⟩ := h
  rw [fragment_mem_join, ← mem_defaultPieces hf]
  constructor
  · intro hmem
    obtain ⟨part, hpart, he⟩ := hmem
    simp only [List.mem_append, List.mem_singleton] at hpart
    rcases hpart with (((rfl | hpart) | hpart) | hpart) | hpart
    · simp at he
    · split at hpart <;> simp_all
    · exact ⟨part, hpart, he⟩
    · split at hpart <;> simp_all
    · exact absurd he (not_mem_referencePieces hreferences part hpart)
  · intro hmem
    obtain ⟨part, hpart, he⟩ := hmem
    exact ⟨part, by simp [hpart], he⟩

/-- The fragments of an index line are its predicate. -/
theorem mem_indexLine {entity : Entity} {index : Index} {line : Sql}
    (h : CheckedEntity entity) (hindex : index ∈ entity.indexes)
    (hline : indexLine entity index = .ok line) :
    Piece.fragment c e ∈ line ↔ c = .where_ ∧ index.where_ = some e := by
  simp only [indexLine, do_eq_ok, pure_eq_ok] at hline
  obtain ⟨columns, _, rfl⟩ := hline
  cases hwhere : index.where_ with
  | none => simp
  | some predicate =>
      have hne := ((h.indexes index hindex).2 predicate hwhere).nonempty
      simp only [if_neg hne, List.mem_append, List.mem_cons, reduceCtorEq,
        false_or, or_false, List.not_mem_nil, Piece.fragment.injEq, Option.some.injEq]
      exact and_congr_right fun _ => eq_comm

/-- The fragments of a table are the defaults of its columns and its checks. -/
theorem mem_tableClauses {model : Model} {dialect : Dialect} {entity : Entity}
    {clauses : List Sql} (h : CheckedEntity entity)
    (hclauses : tableClauses model dialect entity = .ok clauses) :
    (∃ clause ∈ clauses, Piece.fragment c e ∈ clause)
      ↔ (c = .default ∧ ∃ field ∈ entity.fields,
            sqlDefault field dialect = some (.fragment .default e))
        ∨ (c = .check ∧ ∃ check ∈ entity.checks, check.expression = e) := by
  simp only [tableClauses, do_eq_ok, pure_eq_ok] at hclauses
  obtain ⟨columns, hcolumns, primaryKey, _, rfl⟩ := hclauses
  constructor
  · intro hmem
    obtain ⟨clause, hclause, he⟩ := hmem
    simp only [List.mem_append, List.mem_singleton, List.mem_flatMap, List.mem_map] at hclause
    rcases hclause with ((hcolumn | rfl) | ⟨field, _, henum⟩) | ⟨check, hcheck, rfl⟩
    · obtain ⟨field, hfield, hsql⟩ := exists_of_mapM hcolumns clause hcolumn
      obtain ⟨hc, hdefault⟩ := (mem_sqlColumn (h.fields field hfield) hsql).mp he
      exact .inl ⟨hc, field, hfield, hdefault⟩
    · simp at he
    · unfold enumCheck at henum
      split at henum <;> simp_all
    · simp only [List.mem_cons, reduceCtorEq, Piece.fragment.injEq, false_or, or_false,
        List.not_mem_nil] at he
      exact .inr ⟨he.1, check, hcheck, he.2.symm⟩
  · intro hmem
    rcases hmem with ⟨rfl, field, hfield, hdefault⟩ | ⟨rfl, check, hcheck, rfl⟩
    · obtain ⟨sql, hsql, hcolumn⟩ := exists_mapM hcolumns field hfield
      exact ⟨sql, by simp [hsql],
        (mem_sqlColumn (h.fields field hfield) hcolumn).mpr ⟨rfl, hdefault⟩⟩
    · refine ⟨_, List.mem_append_right _ (List.mem_map_of_mem hcheck), ?_⟩
      simp

theorem mem_entityLines {model : Model} {dialect : Dialect} {entity : Entity}
    {lines : List Sql} (h : CheckedEntity entity)
    (hlines : entityLines model dialect entity = .ok lines) :
    (∃ line ∈ lines, Piece.fragment c e ∈ line)
      ↔ (c = .default ∧ ∃ field ∈ entity.fields,
            sqlDefault field dialect = some (.fragment .default e))
        ∨ (c = .check ∧ ∃ check ∈ entity.checks, check.expression = e)
        ∨ (c = .where_ ∧ ∃ index ∈ entity.indexes, index.where_ = some e) := by
  simp only [entityLines, do_eq_ok, pure_eq_ok] at hlines
  obtain ⟨clauses, hclauses, indexes, hindexes, rfl⟩ := hlines
  have hjoin : Piece.fragment c e ∈ join ",\n" clauses ↔ _ :=
    fragment_mem_join.trans (mem_tableClauses h hclauses)
  rw [← or_assoc, ← hjoin]
  constructor
  · intro hmem
    obtain ⟨line, hline, he⟩ := hmem
    simp only [List.mem_append, List.mem_cons, List.not_mem_nil, or_false] at hline
    rcases hline with ((hline | rfl | rfl | rfl | rfl) | hline) | hline
    · split at hline <;> simp_all
    · simp at he
    · exact .inl he
    · simp at he
    · simp at he
    · obtain ⟨index, hindex, hin⟩ := exists_of_mapM hindexes line hline
      obtain ⟨hc, hwhere⟩ := (mem_indexLine h hindex hin).mp he
      exact .inr ⟨hc, index, hindex, hwhere⟩
    · split at hline <;> simp_all
  · intro hmem
    rcases hmem with he | ⟨rfl, index, hindex, hwhere⟩
    · exact ⟨_, by simp, he⟩
    · obtain ⟨line, hline, hin⟩ := exists_mapM hindexes index hindex
      exact ⟨line, by simp [hline], (mem_indexLine h hindex hin).mpr ⟨rfl, hwhere⟩⟩

/-- **The file of a checked model splices the fragments of the model**, no other. -/
theorem mem_sqlLines {localeLe : String → String → Bool} {model : Model} {dialect : Dialect}
    {lines : List Sql} (hmodel : ∀ e ∈ model.entities, CheckedEntity e)
    (hnames : (model.entities.map (·.name)).Nodup)
    (h : sqlLines localeLe model dialect = .ok lines) :
    Piece.fragment c e ∈ join "\n" lines ↔ IsFragment model dialect c e := by
  simp only [sqlLines, do_eq_ok, pure_eq_ok] at h
  obtain ⟨blocks, hblocks, rfl⟩ := h
  have hmem := fun e => (topologicalEntities_perm localeLe hnames).mem_iff (a := e)
  rw [fragment_mem_join]
  have hentity : (∃ entity ∈ model.entities,
        (c = .default ∧ ∃ field ∈ entity.fields,
            sqlDefault field dialect = some (.fragment .default e))
        ∨ (c = .check ∧ ∃ check ∈ entity.checks, check.expression = e)
        ∨ (c = .where_ ∧ ∃ index ∈ entity.indexes, index.where_ = some e))
      ↔ IsFragment model dialect c e := by
    cases c <;> simp [IsFragment]
  rw [← hentity]
  constructor
  · intro hfragment
    obtain ⟨line, hline, he⟩ := hfragment
    rcases List.mem_append.mp hline with hline | hline
    · simp only [List.mem_cons, List.not_mem_nil, or_false] at hline
      rcases hline with rfl | rfl | rfl | rfl <;> simp at he
    · obtain ⟨block, hblock, hin⟩ := List.mem_flatten.mp hline
      obtain ⟨entity, hentity, hlines⟩ := exists_of_mapM hblocks block hblock
      have hentity := (hmem entity).mp hentity
      exact ⟨entity, hentity, (mem_entityLines (hmodel entity hentity) hlines).mp ⟨line, hin, he⟩⟩
  · intro hfragment
    obtain ⟨entity, hentity, hfragment⟩ := hfragment
    obtain ⟨block, hblock, hlines⟩ := exists_mapM hblocks entity ((hmem entity).mpr hentity)
    obtain ⟨line, hline, he⟩ := (mem_entityLines (hmodel entity hentity) hlines).mpr hfragment
    exact ⟨line, List.mem_append_right _ (List.mem_flatten.mpr ⟨block, hblock, hline⟩), he⟩

end

/-! ## §3. The end of the file. -/

theorem render_append (a b : Sql) : Sql.render (a ++ b) = a.render ++ b.render := by
  unfold Sql.render
  exact List.flatMap_append

theorem render_prepend (s : String) (sql : Sql) :
    (prepend s sql).render = s.toList ++ sql.render := by
  unfold prepend Sql.render
  split <;> simp [Piece.render]

/-- The last part of a joined list follows the others after a separator. -/
theorem join_concat {parts : List Sql} (hne : parts ≠ []) (separator : String) (part : Sql) :
    join separator (parts ++ [part]) = join separator parts ++ prepend separator part := by
  cases parts with
  | nil => exact absurd rfl hne
  | cons first rest => simp [join, List.flatMap_append]

/-- The last line is blank, and the line before it ends with ink. -/
def EndsBlank (lines : List Sql) : Prop :=
  ∃ front line s c, lines = front ++ [line ++ [.text s], [.text ""]]
    ∧ s.toList.getLast? = some c ∧ c ∉ whitespace

theorem EndsBlank.append {lines : List Sql} (h : EndsBlank lines) (before : List Sql) :
    EndsBlank (before ++ lines) := by
  obtain ⟨front, line, s, c, rfl, hlast, hc⟩ := h
  exact ⟨before ++ front, line, s, c, by simp, hlast, hc⟩

theorem endsBlank_entityLines {model : Model} {dialect : Dialect} {entity : Entity}
    {lines : List Sql} (h : entityLines model dialect entity = .ok lines) : EndsBlank lines := by
  simp only [entityLines, do_eq_ok, pure_eq_ok] at h
  obtain ⟨clauses, _, indexes, hindexes, rfl⟩ := h
  rcases List.eq_nil_or_concat indexes with rfl | ⟨front, last, rfl⟩
  · have hnil : entity.indexes = [] := by
      by_contra hne
      obtain ⟨index, hindex⟩ := List.exists_mem_of_ne_nil _ hne
      obtain ⟨line, hline, _⟩ := exists_mapM hindexes index hindex
      cases hline
    rw [if_pos hnil, List.append_nil, List.append_nil]
    refine EndsBlank.append ?_ _
    exact ⟨[_, _], [], ");", ';', rfl, by decide, by decide⟩
  · have hne : entity.indexes ≠ [] := by
      intro hnil
      rw [hnil, List.mapM_nil, pure_eq_ok] at hindexes
      simp at hindexes
    rw [if_neg hne]
    obtain ⟨index, _, hline⟩ := exists_of_mapM hindexes last (by simp)
    simp only [indexLine, do_eq_ok, pure_eq_ok] at hline
    obtain ⟨columns, _, rfl⟩ := hline
    rw [List.concat_eq_append, List.append_assoc]
    refine EndsBlank.append ?_ _
    rw [List.append_assoc]
    refine EndsBlank.append ?_ _
    exact ⟨[], _, ";", ';', rfl, by decide, by decide⟩

theorem endsBlank_sqlLines {localeLe : String → String → Bool} {model : Model}
    {dialect : Dialect} {lines : List Sql} (h : sqlLines localeLe model dialect = .ok lines) :
    EndsBlank lines := by
  simp only [sqlLines, do_eq_ok, pure_eq_ok] at h
  obtain ⟨blocks, hblocks, rfl⟩ := h
  rcases List.eq_nil_or_concat blocks with rfl | ⟨front, last, rfl⟩
  · have hlast : ∃ c, ("-- Dialect: " ++ dialect.name).toList.getLast? = some c
        ∧ c ∉ whitespace := by
      cases dialect with
      | postgres => exact ⟨'s', by decide, by decide⟩
      | sqlite => exact ⟨'e', by decide, by decide⟩
    obtain ⟨c, hlast, hc⟩ := hlast
    exact ⟨[_, _], [], _, c, rfl, hlast, hc⟩
  · obtain ⟨entity, _, hlines⟩ := exists_of_mapM hblocks last (by simp)
    rw [List.concat_eq_append, List.flatten_append, List.flatten_singleton]
    exact EndsBlank.append (EndsBlank.append (endsBlank_entityLines hlines) _) _

/-- A line break after ink is all that `trimEnd` drops. -/
theorem trimEnd_break {text : List Char} {c : Char} (hlast : text.getLast? = some c)
    (hc : c ∉ whitespace) : trimEnd (text ++ ['\n']) = text := by
  unfold trimEnd
  have hdrop : text.reverse.dropWhile (· ∈ whitespace) = text.reverse := by
    rw [← List.head?_reverse] at hlast
    cases hrev : text.reverse with
    | nil => rfl
    | cons d rest =>
        rw [hrev] at hlast
        cases hlast
        rw [List.dropWhile_cons_of_neg (by simpa using hc)]
  have hbreak : '\n' ∈ whitespace := by decide
  rw [List.reverse_append, List.reverse_singleton, List.singleton_append,
    List.dropWhile_cons_of_pos (by simpa using hbreak), hdrop, List.reverse_reverse]

/-- **The file is the rendering of its lines.** -/
theorem generateSql_eq_ok {localeLe : String → String → Bool} {model : Model} {dialect : Dialect}
    {file : List Char} (h : generateSql localeLe model dialect = .ok file) :
    ∃ lines, sqlLines localeLe model dialect = .ok lines
      ∧ file = (join "\n" lines).render := by
  simp only [generateSql, do_eq_ok, pure_eq_ok] at h
  obtain ⟨lines, hlines, rfl⟩ := h
  refine ⟨lines, hlines, ?_⟩
  obtain ⟨front, line, s, c, rfl, hlast, hc⟩ := endsBlank_sqlLines hlines
  have hsplit : front ++ [line ++ [.text s], [.text ""]]
      = (front ++ [line ++ [.text s]]) ++ [[.text ""]] := by simp
  rw [hsplit, join_concat (by simp), render_append]
  have hink : (join "\n" (front ++ [line ++ [.text s]])).render.getLast? = some c := by
    have hs : s.toList ≠ [] := by intro hnil; rw [hnil] at hlast; cases hlast
    have htext : Sql.render [.text s] = s.toList := by simp [Sql.render, Piece.render]
    have hline : (Sql.render (line ++ [.text s])).getLast? = some c := by
      rw [render_append, htext, List.getLast?_append_of_ne_nil _ hs, hlast]
    have hne : Sql.render (line ++ [.text s]) ≠ [] := by
      rw [render_append, htext]
      simp [hs]
    by_cases hfront : front = []
    · rw [hfront]
      simpa [join] using hline
    · rw [join_concat hfront, render_append, render_prepend, ← List.append_assoc,
        List.getLast?_append_of_ne_nil _ hne, hline]
  have hbreak : (prepend "\n" [.text ""]).render = ['\n'] := by decide
  rw [hbreak, trimEnd_break hink hc]

end ClipTown.SchemaOrm
