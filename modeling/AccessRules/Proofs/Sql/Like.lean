import AccessRules.Proofs.Sql.Reading

/-!
# Patterns

`contains`, `starts_with` and `ends_with` become `LIKE` with a pattern that is put together from `%`
and the argument. The argument stands in the pattern as it is, so a wildcard in it stays a wildcard:

> `like_of_holds`: a text in which the argument occurs at its place always matches the pattern.
> `holds_of_like`: the converse for an argument without wildcards.
> `exists_like_not_holds`: an argument with a wildcard matches a text in which it does not occur.

> `like_agrees_iff`: filter and evaluator agree on all texts exactly when the argument has no wildcard.
-/

namespace AccessRules

/-- A text occurs in another when it is a part of it without gaps. -/
theorem Value.occursIn_iff {needle cs : List Char} :
    Value.occursIn needle cs = true ↔ needle <:+: cs := by
  induction cs with
  | nil =>
    rw [Value.occursIn, List.isEmpty_iff, List.infix_nil]
  | cons c cs ih =>
    rw [Value.occursIn, Bool.or_eq_true, ih, List.isPrefixOf_iff_prefix, List.infix_cons_iff]

namespace Sql

open Rule

/-! ## Matching -/

/-- `Like pattern text`: the text matches the pattern. `%` stands for any text, `_` for any one
character, and every other character for itself. -/
inductive Like : List Char → List Char → Prop
  | nil : Like [] []
  | any {pattern text : List Char} (skipped : List Char) :
      Like pattern text → Like ('%' :: pattern) (skipped ++ text)
  | one {pattern text : List Char} (c : Char) : Like pattern text → Like ('_' :: pattern) (c :: text)
  | same {c : Char} {pattern text : List Char} : c ≠ '%' → c ≠ '_' → Like pattern text →
      Like (c :: pattern) (c :: text)

/-- The pattern that a part is put into. -/
def Match.pattern (pattern : Match) (part : List Char) : List Char :=
  match pattern with
  | .anywhere => '%' :: (part ++ ['%'])
  | .atStart => part ++ ['%']
  | .atEnd => '%' :: part

/-- No character of a text is a wildcard. -/
def Literally (part : List Char) : Prop :=
  ∀ c ∈ part, c ≠ '%' ∧ c ≠ '_'

instance : DecidablePred Literally :=
  fun part => List.decidableBAll (fun c => c ≠ '%' ∧ c ≠ '_') part

/-- Every text matches `%`. -/
theorem like_percent (text : List Char) : Like ['%'] text := by
  have h := Like.any text .nil
  rw [List.append_nil] at h
  exact h

/-- A pattern matches itself, whatever stands behind: each wildcard may stand for itself. -/
theorem Like.append (part : List Char) {pattern text : List Char} (h : Like pattern text) :
    Like (part ++ pattern) (part ++ text) := by
  induction part with
  | nil => exact h
  | cons c part ih =>
    by_cases hany : c = '%'
    · subst hany
      exact .any ['%'] ih
    · by_cases hone : c = '_'
      · subst hone
        exact .one '_' ih
      · exact .same hany hone ih

/-- Behind the wildcard the pattern goes on at some later place of the text. -/
theorem like_any_iff {pattern text : List Char} :
    Like ('%' :: pattern) text ↔ ∃ skipped rest, text = skipped ++ rest ∧ Like pattern rest := by
  constructor
  · intro h
    cases h with
    | any skipped h => exact ⟨skipped, _, rfl, h⟩
    | same hany _ _ => exact absurd rfl hany
  · intro h
    obtain ⟨skipped, rest, rfl, h⟩ := h
    exact .any skipped h

/-- What stands literally in a pattern stands in every text that matches it. -/
theorem like_append_iff {part : List Char} (hpart : Literally part) {pattern text : List Char} :
    Like (part ++ pattern) text ↔ ∃ rest, text = part ++ rest ∧ Like pattern rest := by
  induction part generalizing text with
  | nil => simp
  | cons c part ih =>
    -- A character that stands for itself leaves no choice: the text has it too.
    have hc := hpart c (List.mem_cons_self ..)
    have hrest : Literally part := fun d hd => hpart d (List.mem_cons_of_mem _ hd)
    constructor
    · intro h
      cases h with
      | any _ _ => exact absurd rfl hc.1
      | one _ _ => exact absurd rfl hc.2
      | same _ _ hmore =>
        obtain ⟨rest, rfl, hmatch⟩ := (ih hrest).mp hmore
        exact ⟨rest, rfl, hmatch⟩
    · intro h
      obtain ⟨rest, rfl, h⟩ := h
      exact .same hc.1 hc.2 ((ih hrest).mpr ⟨rest, rfl, h⟩)

/-! ## Matching and occurring -/

variable {pattern : Match} {s p : String}

/-- **No text in which the part occurs is missed**, wildcards or not. -/
theorem like_of_holds (h : pattern.holds (.string s) (.string p) = true) :
    Like (pattern.pattern p.toList) s.toList := by
  cases pattern with
  | anywhere =>
    obtain ⟨before, behind, heq⟩ := Value.occursIn_iff.mp h
    rw [← heq, List.append_assoc]
    exact .any before (.append _ (like_percent behind))
  | atStart =>
    obtain ⟨behind, heq⟩ := List.isPrefixOf_iff_prefix.mp h
    rw [← heq]
    exact .append _ (like_percent behind)
  | atEnd =>
    obtain ⟨before, heq⟩ := List.isSuffixOf_iff_suffix.mp h
    have hself : Like (p.toList ++ []) (p.toList ++ []) := .append _ .nil
    rw [List.append_nil] at hself
    rw [← heq]
    exact .any before hself

/-- Without wildcards in the part, every text that matches has it at its place. -/
theorem holds_of_like (hp : Literally p.toList) (h : Like (pattern.pattern p.toList) s.toList) :
    pattern.holds (.string s) (.string p) = true := by
  cases pattern with
  | anywhere =>
    obtain ⟨before, rest, hs, hrest⟩ := like_any_iff.mp h
    obtain ⟨behind, rfl, -⟩ := (like_append_iff hp).mp hrest
    refine Value.occursIn_iff.mpr ⟨before, behind, ?_⟩
    rw [hs, List.append_assoc]
  | atStart =>
    obtain ⟨behind, hs, -⟩ := (like_append_iff hp).mp h
    exact List.isPrefixOf_iff_prefix.mpr ⟨behind, hs.symm⟩
  | atEnd =>
    obtain ⟨before, rest, hs, hrest⟩ := like_any_iff.mp h
    rw [← List.append_nil p.toList] at hrest
    obtain ⟨behind, rfl, hnil⟩ := (like_append_iff hp).mp hrest
    cases hnil
    rw [List.append_nil] at hs
    exact List.isSuffixOf_iff_suffix.mpr ⟨before, hs.symm⟩

/-- What occurs in a text has only characters of the text. -/
theorem subset_of_holds (h : pattern.holds (.string s) (.string p) = true) :
    p.toList ⊆ s.toList := by
  cases pattern with
  | anywhere => exact (Value.occursIn_iff.mp h).subset
  | atStart => exact (List.isPrefixOf_iff_prefix.mp h).subset
  | atEnd => exact (List.isSuffixOf_iff_suffix.mp h).subset

/-- A text without wildcards that a part with wildcards matches. -/
def filled (part : List Char) : List Char :=
  part.flatMap fun c => if c = '%' then [] else if c = '_' then ['a'] else [c]

/-- No wildcard is left where every one has been filled in. -/
theorem literally_filled (part : List Char) : Literally (filled part) := by
  intro d hd
  obtain ⟨c, -, hc⟩ := List.mem_flatMap.mp hd
  by_cases hany : c = '%'
  · rw [if_pos hany] at hc
    cases hc
  · by_cases hone : c = '_'
    · rw [if_neg hany, if_pos hone, List.mem_singleton] at hc
      rw [hc]
      decide
    · rw [if_neg hany, if_neg hone, List.mem_singleton] at hc
      rw [hc]
      exact ⟨hany, hone⟩

/-- A part matches its own filling, whatever goes on behind both. -/
theorem like_filled (part : List Char) {rest text : List Char} (h : Like rest text) :
    Like (part ++ rest) (filled part ++ text) := by
  induction part with
  | nil => exact h
  | cons c part ih =>
    rw [filled, List.flatMap_cons, ← filled]
    by_cases hany : c = '%'
    · subst hany
      exact .any [] ih
    · by_cases hone : c = '_'
      · subst hone
        exact .one 'a' ih
      · rw [if_neg hany, if_neg hone]
        exact .same hany hone ih

/-- The pattern made from a part matches the filled part, which stands where the pattern wants it.
-/
theorem like_pattern_filled (pattern : Match) (part : List Char) :
    Like (pattern.pattern part) (filled part) := by
  have hself := like_filled part .nil
  rw [List.append_nil, List.append_nil] at hself
  have hopen := like_filled part (like_percent [])
  rw [List.append_nil] at hopen
  cases pattern with
  | anywhere => exact .any [] hopen
  | atStart => exact hopen
  | atEnd => exact .any [] hself

/-- A part with a wildcard matches a text in which it does not occur. -/
theorem exists_like_not_holds (pattern : Match) (h : ¬Literally p.toList) :
    ∃ s : String, Like (pattern.pattern p.toList) s.toList ∧
      pattern.holds (.string s) (.string p) = false := by
  refine ⟨String.ofList (filled p.toList), ?_, ?_⟩
  · rw [String.toList_ofList]
    exact like_pattern_filled pattern p.toList
  · rw [← Bool.not_eq_true]
    intro hholds
    refine h ?_
    intro c hc
    have hmem := subset_of_holds hholds hc
    rw [String.toList_ofList] at hmem
    exact literally_filled p.toList c hmem

/-! ## What the text of a filter says -/

/-- A match as it is read from a text: what is matched, and the pieces of the pattern. -/
structure LikeClause where
  text : Operand
  pieces : List Operand

/-- The characters of texts that are put together. -/
def joined? : List Value → Option (List Char)
  | [] => some []
  | .string s :: values => (joined? values).map (s.toList ++ ·)
  | _ :: _ => none

/-- Whether a row matches, with values put in for the placeholders. -/
def LikeClause.Holds (clause : LikeClause) (row placeholder : String → Value) : Prop :=
  ∃ s pattern, clause.text.value row placeholder = .string s ∧
    joined? (clause.pieces.map (·.value row placeholder)) = some pattern ∧ Like pattern s.toList

/-- Reads a piece of a pattern. -/
def readPiece : Token → Option Operand
  | .quoted text => some (.constant (.string text))
  | t => readOperand (.token t)

/-- Reads pieces with the sign that puts texts together between them. -/
def readPieces : List Token → Option (List Operand)
  | [t] => (readPiece t).map fun piece => [piece]
  | t :: .concat :: ts =>
    match readPiece t, readPieces ts with
    | some piece, some pieces => some (piece :: pieces)
    | _, _ => none
  | _ => none

/-- Reads a match from the tokens of a text. -/
def readLikeTokens : List Token → Option LikeClause
  | t :: word :: ts =>
    if (Item.token word).isWord "LIKE" then
      match readOperand (.token t), readPieces ts with
      | some text, some pieces => some ⟨text, pieces⟩
      | _, _ => none
    else none
  | _ => none

/-- Reads a match from a text. -/
def readLike (text : String) : Option LikeClause :=
  (lex text).bind readLikeTokens

/-- The pieces of a pattern. -/
def Match.pieces (pattern : Match) (part : Operand) : List Operand :=
  match pattern with
  | .anywhere => [.constant (.string "%"), part, .constant (.string "%")]
  | .atStart => [part, .constant (.string "%")]
  | .atEnd => [.constant (.string "%"), part]

theorem readPieces_patternTokens (pattern : Match) (name : String) :
    readPieces (patternTokens pattern [.placeholder name]) =
      some (pattern.pieces (.placeholder name)) := by
  cases pattern <;> rfl

/-- The text of a match of a column with a parameter is read as such. -/
theorem readLike_text {column : String} (hkeyword : isKeyword column = false) {q : Parameter}
    (hplain : (Condition.like pattern (.column column) (.parameter q)).Plain) :
    readLike (Condition.like pattern (.column column) (.parameter q)).text =
      some ⟨.column column, pattern.pieces (.placeholder q.name)⟩ := by
  have hlike : (Item.token (.word "LIKE")).isWord "LIKE" = true := by decide +kernel
  have hcolumn : readOperand (.token (.word column)) = some (.column column) := by
    simp [readOperand, hkeyword]
  rw [readLike, lex_text hplain, Option.bind_some]
  show readLikeTokens (.word column :: .word "LIKE" ::
    patternTokens pattern [.placeholder q.name]) = _
  rw [readLikeTokens, if_pos hlike, hcolumn, readPieces_patternTokens]

/-- The pieces of a pattern are put together to the pattern. -/
theorem joined?_pieces (pattern : Match) {part : Operand} {row placeholder : String → Value}
    (h : part.value row placeholder = .string p) :
    joined? ((pattern.pieces part).map (·.value row placeholder)) =
      some (pattern.pattern p.toList) := by
  have hpercent : (Operand.constant (.string "%")).value row placeholder = .string "%" := rfl
  cases pattern <;>
    simp only [Match.pieces, List.map_cons, List.map_nil, h, hpercent, joined?, Option.map_some,
      List.append_nil] <;> rfl

/-! ## The functions on texts -/

/-- The function that becomes a match. -/
def Match.function : Match → Function
  | .anywhere => .contains
  | .atStart => .startsWith
  | .atEnd => .endsWith

/-- The function applied to a field and a text. -/
def Match.call (pattern : Match) (column p : String) : Expr :=
  .call pattern.function.name [.path column, .literal (.string p)]

variable {column : String} {auth : Auth} {context : Context} {hour : Hour}

/-- A plain name is no path to the caller or to the request body. -/
theorem ofPath_of_isPlainName (h : isPlainName column = true) :
    Variable.ofPath column = .field column := by
  have hpath := Variable.path_ofPath column
  cases hof : Variable.ofPath column with
  | auth field =>
    rw [hof] at hpath
    rw [← hpath] at h
    simp [Variable.path, Variable.authStart, isPlainName, String.toList_append] at h
  | data field =>
    rw [hof] at hpath
    rw [← hpath] at h
    simp [Variable.path, Variable.dataStart, isPlainName, String.toList_append] at h
  | field name =>
    rw [hof] at hpath
    rw [← hpath]
    rfl

/-- In a context the match is decided on the text of the field itself. -/
theorem evaluate_match (h : context.resolve column = .string s) :
    (pattern.call column p).evaluate context hour =
      .ok (.bool (pattern.holds (.string s) (.string p))) := by
  have hargs : Expr.evaluateArgs context hour [.path column, .literal (.string p)] =
      .ok [.string s, .string p] := by
    rw [Expr.evaluateArgs, Expr.evaluate, h]
    rfl
  have hresolve : Function.resolve pattern.function.name 2 = .ok pattern.function := by
    cases pattern <;> rfl
  rw [Match.call, Expr.evaluate_call hresolve hargs]
  cases pattern <;> rfl

/-- A match on a field becomes a pattern around the first constant. -/
theorem compile_match (h : isPlainName column = true) :
    compile auth .empty (pattern.call column p) =
      .ok (.like pattern (.column column) (.parameter (.constant 0)),
        Bindings.empty.bindConstant (.string p)) := by
  have hcolumn : compile auth .empty (.path column) = .ok (.column column, .empty) :=
    compile_path_eq_ok_iff.mpr (compilePath_eq_ok_iff.mpr
      (Or.inr (Or.inr ⟨column, ofPath_of_isPlainName h, h, rfl, rfl⟩)))
  have hpart : compile auth .empty (.literal (.string p)) =
      .ok (.parameter (.constant 0), Bindings.empty.bindConstant (.string p)) := rfl
  have hargs : compileArgs auth .empty [.path column, .literal (.string p)] =
      .ok ([.column column, .parameter (.constant 0)],
        Bindings.empty.bindConstant (.string p)) := by
    rw [compileArgs, hcolumn]
    rfl
  refine compile_call_eq_ok_iff.mpr ⟨pattern.function, ?_, ?_, _, _, hargs, ?_⟩ <;>
    cases pattern <;> rfl

/-- The filter of such a call is read as a match with the pattern, whatever the row. -/
theorem exists_filter_of_match (hplain : isPlainName column = true)
    (hkeyword : isKeyword column = false) (pattern : Match) (p : String) (auth : Auth) :
    ∃ filter clause, Filter.ofExpr auth (pattern.call column p) = .ok filter ∧
      readLike filter.sql = some clause ∧
      ∀ (row : String → Value) (s : String), row column = .string s →
        (clause.Holds row filter.bound ↔ Like (pattern.pattern p.toList) s.toList) := by
  have hcompile : compile auth .empty (pattern.call column p) = _ := compile_match hplain
  obtain ⟨filter, hfilter, hsql, hbound⟩ := exists_filter_of_compile hcompile
  have hread := readLike_text hkeyword (compile_plain _ hcompile)
  rw [← hsql] at hread
  refine ⟨filter, _, hfilter, hread, ?_⟩
  intro row s hrow
  have hpart : (Operand.placeholder (Parameter.constant 0).name).value row filter.bound =
      .string p := hbound (.constant 0) _ (List.mem_cons_self ..)
  -- With the argument put in, the pieces make the pattern.
  have hjoined := joined?_pieces pattern hpart
  constructor
  · intro h
    obtain ⟨t, chars, htext, hchars, hlike⟩ := h
    cases hjoined.symm.trans hchars
    have hcolumn : row column = .string t := htext
    rw [hrow] at hcolumn
    cases hcolumn
    exact hlike
  · intro h
    exact ⟨s, _, hrow, hjoined, h⟩

/-! ## Where they agree -/

/-- **Filter and evaluator agree on every text exactly when the argument has no wildcard.** The filter
never misses a text for which the evaluator says yes; where they differ, a wildcard in the argument
makes the filter select more. -/
theorem like_agrees_iff (hplain : isPlainName column = true) (hkeyword : isKeyword column = false)
    (pattern : Match) (p : String) (auth : Auth) :
    ∃ filter clause, Filter.ofExpr auth (pattern.call column p) = .ok filter ∧
      readLike filter.sql = some clause ∧
      ∃ answer : String → Bool,
        (∀ (s : String) (context : Context) (hour : Hour), context.resolve column = .string s →
          (pattern.call column p).evaluate context hour = .ok (.bool (answer s))) ∧
        (∀ (s : String) (row : String → Value), row column = .string s → answer s = true →
          clause.Holds row filter.bound) ∧
        ((∀ (s : String) (row : String → Value), row column = .string s →
          (clause.Holds row filter.bound ↔ answer s = true)) ↔ Literally p.toList) := by
  obtain ⟨filter, clause, hfilter, hread, hholds⟩ :=
    exists_filter_of_match hplain hkeyword pattern p auth
  refine ⟨filter, clause, hfilter, hread, fun s => pattern.holds (.string s) (.string p),
    fun _ _ _ h => evaluate_match h, ?_, ?_⟩
  · intro s row hrow hanswer
    exact (hholds row s hrow).mpr (like_of_holds hanswer)
  · constructor
    · intro hagree
      -- With a wildcard some text matches in which the argument does not occur.
      refine Classical.byContradiction fun hwild => ?_
      obtain ⟨s, hlike, hanswer⟩ := exists_like_not_holds pattern hwild
      let row : String → Value := fun _ => .string s
      have hsame : pattern.holds (.string s) (.string p) = true :=
        (hagree s row rfl).mp ((hholds row s rfl).mpr hlike)
      rw [hanswer] at hsame
      cases hsame
    · intro hp s row hrow
      rw [hholds row s hrow]
      exact ⟨holds_of_like hp, like_of_holds⟩

/-- `contains(title, 'draft')` is decided the same way for every title. -/
theorem like_agrees_title_draft :
    isPlainName "title" = true ∧ isKeyword "title" = false ∧ Literally "draft".toList ∧
      ∃ filter clause, Filter.ofExpr .empty (Match.anywhere.call "title" "draft") = .ok filter ∧
        readLike filter.sql = some clause ∧
        ∃ answer : String → Bool,
          (∀ (s : String) (context : Context) (hour : Hour), context.resolve "title" = .string s →
            (Match.anywhere.call "title" "draft").evaluate context hour =
              .ok (.bool (answer s))) ∧
          ∀ (s : String) (row : String → Value), row "title" = .string s →
            (clause.Holds row filter.bound ↔ answer s = true) := by
  have hplain : isPlainName "title" = true := by decide
  have hkeyword : isKeyword "title" = false := by decide +kernel
  have hliteral : Literally "draft".toList := by decide +kernel
  obtain ⟨filter, clause, hfilter, hread, answer, hanswer, -, hiff⟩ :=
    like_agrees_iff hplain hkeyword .anywhere "draft" .empty
  exact ⟨hplain, hkeyword, hliteral, filter, clause, hfilter, hread, answer, hanswer,
    hiff.mpr hliteral⟩

/-- `contains(title, '_')` is false for the title `a`, but the filter selects it. -/
theorem underscore_matches_letter :
    let e : Expr := .call "contains" [.path "title", .literal (.string "_")]
    e.evaluate ⟨[("title", .string "a")]⟩ 0 = .ok (.bool false) ∧
      ∃ filter clause, Filter.ofExpr .empty e = .ok filter ∧ readLike filter.sql = some clause ∧
        clause.Holds (fun _ => .string "a") filter.bound := by
  intro e
  have hkeyword : isKeyword "title" = false := by decide +kernel
  obtain ⟨filter, clause, hfilter, hread, hholds⟩ :=
    exists_filter_of_match (by decide) hkeyword .anywhere "_" .empty
  have hlike : Like ['%', '_', '%'] ['a'] := .any [] (.one 'a' (like_percent []))
  refine ⟨?_, filter, clause, hfilter, hread, (hholds _ "a" rfl).mpr hlike⟩
  have hresolve : Context.resolve ⟨[("title", .string "a")]⟩ "title" = .string "a" := rfl
  have hvalue : (Match.anywhere.call "title" "_").evaluate _ 0 = _ := evaluate_match hresolve
  exact hvalue

end Sql

end AccessRules
